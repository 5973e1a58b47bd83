import EventSchema.Proofs.BackReferences.Dictionary
import EventSchema.Proofs.Catalog.Lookups
import EventSchema.Proofs.Catalog.WellFormed
import EventSchema.Proofs.Json.Precedence

namespace EventSchema
namespace Catalog

/-!
# Entries laid over the dictionary

A query for a single entry lays its attributes over their definitions.  The
dictionary of a loaded catalog has learned of every entry that the catalog answers
with, so each attribute has a definition there and lists the entry among its users.

The entries the dictionary learned of are the common set, the identified classes and
the flattened objects.  These are the entries that are listed, up to the links of
objects, which are no attributes.
-/

open BackReferences

/-! ## Definitions of used attributes -/

/-- A dictionary defines an attribute and lists a user of it. -/
def ListsUser (dictionary : Dictionary) (name : Text) (link : Link) : Prop :=
  ∃ (definition : Fields) (links : List Link), dictionary.entries.get? name = some definition ∧
    definition.get? linksKey = some (.arr (links.map (Record.toJson .full))) ∧ link ∈ links

section Stages

variable {tree : SchemaTree} {catalog : Catalog} (stages : Stages tree catalog)

include stages

/-- Who uses an attribute is not altered by the links of objects. -/
theorem Stages.usedBy_concreteObjects {name : Text} {link : Link}
    (used : UsedBy catalog.common catalog.classes catalog.objects name link) :
    UsedBy catalog.common catalog.classes stages.concreteObjects name link := by
  cases used with
  | common shared held has => exact .common shared held has
  | eventClass type cls listed has => exact .eventClass type cls listed has
  | object type object listed has =>
      rcases Outcome.exists_of_mem_right stages.forall₂_objects (type, object) listed with
        ⟨⟨_, concrete⟩, within, rfl, same⟩
      change object = { concrete with details := object.details } at same
      rw [same] at has ⊢
      exact .object _ concrete within has

/-- The dictionary defines every attribute that is used, and lists its users. -/
theorem Stages.listsUser {name : Text} {link : Link}
    (used : UsedBy catalog.common catalog.classes catalog.objects name link) :
    ListsUser catalog.dictionary name link := by
  have concrete := stages.usedBy_concreteObjects used
  have named : name ∈ usedNames catalog.common catalog.classes stages.concreteObjects := by
    rw [← map_fst_allUses]
    exact List.mem_map_of_mem (usedBy_iff_mem_allUses.mp concrete)
  let classes : KeyedMap Text ClassDescriptor := ⟨catalog.classes, stages.nodup_classes⟩
  let objects : KeyedMap Text ObjectDescriptor :=
    ⟨stages.concreteObjects, stages.settledObjects.1.distinct.filter _⟩
  rcases exists_listedEntry classes objects named stages.dictionary.entries with
    ⟨definition, found, entry⟩
  rcases entry.links with ⟨links, lists, held⟩
  refine ⟨definition, links, ?_, held, (lists.complete link).mpr concrete⟩
  rw [entries_of_updateDictionary stages.updatesDictionary]
  exact found

end Stages

/-! ## Answers -/

section Answers

variable {δ : Type}

/-- An answer that is an entry with its attributes laid over their definitions.  A
definition lists the entry among its users, and so does the answer unless the entry
lists users itself. -/
structure Enriches (dictionary : Dictionary) (link : Link) (entry answer : Descriptor δ) :
    Prop where
  others : { answer with attributes := entry.attributes } = entry
  order : answer.attributes.keys = entry.attributes.keys
  attributes : forall (name : Text) (own : Fields), entry.attributes.get? name = some own ->
    ∃ base shown, dictionary.entries.get? name = some base ∧
      answer.attributes.get? name = some shown ∧ Fields.LaidOver base own shown ∧
      (own.get? linksKey = none -> ∃ links,
        shown.get? linksKey = some (.arr links) ∧ Record.toJson .full link ∈ links)

/-- A query that comes to the enriched form of an entry, without a warning. -/
def Answers (query : Report (Option (Descriptor δ))) (dictionary : Dictionary) (link : Link)
    (entry : Descriptor δ) : Prop :=
  ∃ answer, query = pure (some answer) ∧ Enriches dictionary link entry answer

/-- An entry that uses its attributes is enriched with the definitions of all of
them. -/
theorem answers_enrichFound {dictionary : Dictionary} {link : Link} {entry : Descriptor δ}
    (wellFormed : Json.WellFormed (.obj entry.attributes.toFields))
    (listed : ∀ name ∈ entry.attributes.keys, ListsUser dictionary name link) :
    Answers (enrichFound dictionary (some entry)) dictionary link entry := by
  have known : undefinedAttributes dictionary entry = [] := by
    rw [undefinedAttributes, List.filter_eq_nil_iff]
    intro name member
    rcases listed name member with ⟨definition, _, found, _⟩
    rw [OrderedMap.contains, found]
    simp
  refine ⟨enrich dictionary entry, ?_, rfl, keys_enrich dictionary entry, fun name own held => ?_⟩
  · rw [enrichFound, known]
    rfl
  · rcases listed name (OrderedMap.mem_keys_of_get?_eq_some held) with
      ⟨base, links, found, users, member⟩
    have keyed := (Attributes.wellFormed_definition wellFormed held).keyed
    refine ⟨base, Fields.merge base own, found, ?_, Fields.laidOver_merge keyed base, fun none => ?_⟩
    · rw [enrich, OrderedMap.get?_mapValues, held, Option.map_some, enrichAttribute, found]
    · refine ⟨_, ?_, List.mem_map_of_mem member⟩
      rw [Fields.get?_merge keyed.distinct, none, Option.map_none, Option.none_or, users]

end Answers

/-! ## Queries -/

/-- What the queries for single entries come to: the entry that is found, enriched,
with the link under which the dictionary knows it. -/
structure EnrichesEntries (catalog : Catalog) : Prop where
  named : forall (name : Text) (cls : ClassDescriptor), name ≠ Identifiers.baseEvent ->
    catalog.classes.get? name = some cls ->
    Answers (catalog.findClass name) catalog.dictionary
      ⟨"class", name, some cls.displayName⟩ cls
  common : forall shared : ClassDescriptor, catalog.common = some shared ->
    Answers (catalog.findClass Identifiers.baseEvent) catalog.dictionary
      ⟨"common", "base_event", some shared.displayName⟩ shared
  numbered : forall (uid : Int) (cls : ClassDescriptor),
    catalog.classNumbered? (some uid) = some cls -> ∃ name, (name, cls) ∈ catalog.classes ∧
      Answers (catalog.findClassNumbered (some uid)) catalog.dictionary
        ⟨"class", name, some cls.displayName⟩ cls
  objects : forall (name : Text) (object : ObjectDescriptor),
    catalog.objects.get? name = some object ->
    Answers (catalog.findObject name) catalog.dictionary
      ⟨"object", name, some object.displayName⟩ object

variable {tree : SchemaTree} {catalog : Catalog}

/-- A listed class is enriched, however it is found. -/
theorem Stages.answers_class (stages : Stages tree catalog) {name : Text} {cls : ClassDescriptor}
    (listed : (name, cls) ∈ catalog.classes) :
    Answers (enrichFound catalog.dictionary (some cls)) catalog.dictionary
      ⟨"class", name, some cls.displayName⟩ cls :=
  answers_enrichFound (stages.wellFormed_class listed) fun _ has =>
    stages.listsUser (.eventClass name cls listed has)

/-- Every query of a loaded catalog for a single entry that finds one answers with its
attributes laid over the definitions of the dictionary. -/
theorem load_enriches_entries (tree : SchemaTree) (catalog : Catalog)
    (loads : (load tree).outcome = .ok catalog) : EnrichesEntries catalog := by
  rcases exists_stages loads with ⟨stages⟩
  constructor
  case named =>
    intro name cls ordinary found
    rw [findClass, class?, if_neg ordinary, found]
    exact stages.answers_class (OrderedMap.mem_of_get?_eq_some found)
  case common =>
    intro shared held
    rw [findClass, class?, if_pos rfl, held]
    exact answers_enrichFound (stages.wellFormed_common held) fun _ has =>
      stages.listsUser (.common shared held has)
  case numbered =>
    intro uid cls found
    rcases exists_listed_of_classNumbered? found with ⟨name, listed, _⟩
    refine ⟨name, listed, ?_⟩
    rw [findClassNumbered, found]
    exact stages.answers_class listed
  case objects =>
    intro name object found
    have listed := OrderedMap.mem_of_get?_eq_some found
    rw [findObject, object?, found]
    exact answers_enrichFound (stages.wellFormed_object listed) fun _ has =>
      stages.listsUser (.object name object listed has)

/-- A schema with a common set, a class and an object.  The class lays one field of a
nested value over what the dictionary defines, and the dictionary does not define the
other attribute. -/
def enrichedTree : SchemaTree :=
  let files : MemoryTree :=
    { files :=
        [(Path.parse "s/categories.json", "\x7b\"attributes\": \x7b\"net\": \x7b\"id\": 4\x7d\x7d\x7d"),
         (Path.parse "s/dictionary.json",
           "\x7b\"attributes\": \x7b\"user\": \x7b\"range\": \x7b\"low\": 1, \"high\": 2\x7d\x7d\x7d\x7d"),
         (Path.parse "s/events/base.json",
           "\x7b\"type\": \"base_event\", \"attributes\": \x7b\"time\": \x7b\x7d\x7d\x7d"),
         (Path.parse "s/events/flow.json",
           "\x7b\"type\": \"flow\", \"uid\": 7, \"category\": \"net\", \"extends\": \"base_event\",
             \"attributes\": \x7b\"user\": \x7b\"range\": \x7b\"high\": 3\x7d\x7d\x7d\x7d"),
         (Path.parse "s/objects/user.json",
           "\x7b\"type\": \"user\", \"attributes\": \x7b\"time\": \x7b\x7d\x7d\x7d")]
      unreadable := [] }
  SchemaTree.below files.source (Path.parse "s") "extensions"

/-- All of them are found and enriched.  The class holds its own field beside that of the
dictionary. -/
theorem load_enriches_entries_of_each_group :
    ∃ catalog flow, (load enrichedTree).outcome = .ok catalog ∧ EnrichesEntries catalog ∧
      catalog.common.isSome ∧ (catalog.objects.get? "user").isSome ∧
      catalog.classes.get? "flow" = some flow ∧
      (Attributes.fieldOf? (enrich catalog.dictionary flow).attributes "user" "range").bind
        Json.fields? = some ([("low", .int 1), ("high", .int 3)] : Fields) := by
  have entries : (load enrichedTree).outcome.toOption.map (fun catalog =>
      (catalog.common.isSome, (catalog.objects.get? "user").isSome)) = some (true, true) := by
    decide +kernel
  have enriched : (load enrichedTree).outcome.toOption.bind (fun catalog =>
      (catalog.classes.get? "flow").bind fun flow =>
        (Attributes.fieldOf? (enrich catalog.dictionary flow).attributes "user" "range").bind
          Json.fields?) = some ([("low", .int 1), ("high", .int 3)] : Fields) := by
    decide +kernel
  rcases Option.bind_eq_some_iff.mp enriched with ⟨catalog, loaded, laid⟩
  rcases Option.bind_eq_some_iff.mp laid with ⟨flow, listed, range⟩
  have loads := Outcome.toOption_eq_some_iff.mp loaded
  rw [loaded] at entries
  rcases Prod.mk.inj (Option.some.inj entries) with ⟨common, user⟩
  exact ⟨catalog, flow, loads, load_enriches_entries enrichedTree catalog loads, common, user,
    listed, range⟩

end Catalog
end EventSchema
