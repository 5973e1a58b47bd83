import EventSchema.Proofs.Catalog.Enrichment
import EventSchema.Proofs.Catalog.Identities

namespace EventSchema

/-!
# Identifiers as queries show them

Identification replaces the enumerations of a class as a whole, so the listing shows
the codes of the class and no others.  A query lays each attribute over its definition,
and an enumeration of the dictionary comes back there.  Its codes join those of the
class, and what it says of a code of the class fills what the class leaves open.

The class itself loses nothing.  A query shows the enumeration of the listing exactly
where the definition adds nothing to it.
-/

/-! ## Enumerations laid over others -/

/-- An enumeration that results where codes are laid over defined ones. -/
structure ShownOver (defined codes shown : Fields) : Prop where
  merged : shown = Fields.merge defined codes
  known : forall code : Text, code ∈ shown.keys ↔ code ∈ codes.keys ∨ code ∈ defined.keys
  laid : Fields.LaidOver defined codes shown
  alike : (forall code : Text, shown.get? code = codes.get? code) ↔
    forall (code : Text) (value : Json), defined.get? code = some value ->
      ∃ own, codes.get? code = some own ∧ value.overlay own = own

theorem shownOver_merge {codes : Fields} (keyed : Json.Keyed (.obj codes)) (defined : Fields) :
    ShownOver defined codes (Fields.merge defined codes) where
  merged := rfl
  known _ := Fields.mem_keys_merge
  laid := Fields.laidOver_merge keyed defined
  alike := by
    refine forall_congr' fun code => ?_
    rw [Fields.get?_merge keyed.distinct]
    cases codes.get? code with
    | none => cases defined.get? code <;> simp
    | some own => cases defined.get? code <;> simp [Fields.laid]

namespace Catalog

open BackReferences Identifiers

/-! ## Enumerations of the dictionary -/

/-- The codes that a dictionary enumerates for an attribute, if it has an enumeration
that is an object. -/
def definedCodes (dictionary : Dictionary) (name : Text) : Fields :=
  (((dictionary.entries.get? name).bind fun definition => definition.get? "enum").bind
    Json.fields?).getD []

/-- A loaded catalog enumerates what the dictionary did as it was read. -/
theorem Stages.definedCodes_eq {tree : SchemaTree} {catalog : Catalog}
    (stages : Stages tree catalog) :
    definedCodes catalog.dictionary = definedCodes stages.dictionary := by
  have entries := entries_of_updateDictionary stages.updatesDictionary
  funext name
  cases defined : stages.dictionary.entries.get? name with
  | some definition =>
      rw [definedCodes, definedCodes, entries, get?_linked_of_get? defined, defined, Option.bind_some,
        Option.bind_some, get?_linked_of_ne definition (by decide)]
  | none =>
      rw [definedCodes, definedCodes, entries, get?_linked_of_missing defined, defined]
      cases OrderedMap.get? _ name <;> rfl

/-! ## Answers -/

/-- An answer shows the three enumerations of a listed class, each laid over the codes
that a dictionary defines.  In the listing the number of the class is the only code of
its enumeration, and so is that of its category. -/
structure ShowsEnumerations (dictionary : Dictionary) (listed answer : ClassDescriptor) :
    Prop where
  single : ∀ name ∈ (["class_id", "category_id"] : List Text), ∃ entry,
    Attributes.fieldOf? listed.attributes name "enum" = some (.obj [entry])
  shown : ∀ name ∈ madeNames, ∃ codes shown,
    Attributes.fieldOf? listed.attributes name "enum" = some (.obj codes) ∧
    Attributes.fieldOf? answer.attributes name "enum" = some (.obj shown) ∧
    ShownOver (definedCodes dictionary name) codes shown

/-- A field that is an object is shown over that of the definition. -/
theorem fieldOf?_enrich {dictionary : Dictionary} {cls : ClassDescriptor} {name key : Text}
    {definition fields : Fields} (held : cls.attributes.get? name = some definition)
    (keyed : Json.Keyed (.obj definition)) (found : definition.get? key = some (.obj fields)) :
    Attributes.fieldOf? (enrich dictionary cls).attributes name key =
      some (Fields.laid ((dictionary.entries.get? name).bind fun base => base.get? key)
        (.obj fields)) := by
  rw [Attributes.fieldOf?, enrich, OrderedMap.get?_mapValues, held, Option.map_some,
    Option.bind_some, enrichAttribute]
  cases dictionary.entries.get? name with
  | none => exact found
  | some base =>
      rw [Fields.get?_merge keyed.distinct, found, Option.map_some, Option.some_or,
        Option.bind_some]

variable {tree : SchemaTree} {catalog : Catalog}

/-- The enriched form of a listed class shows its enumerations. -/
theorem Stages.showsEnumerations (stages : Stages tree catalog) {name : Text}
    {cls : ClassDescriptor} (listed : (name, cls) ∈ catalog.classes) :
    ShowsEnumerations stages.dictionary cls (enrich catalog.dictionary cls) := by
  rcases stages.identified listed with ⟨_, _, identified⟩
  constructor
  case single =>
    simp only [List.forall_mem_cons]
    refine ⟨?_, ?_, List.forall_mem_nil _⟩
    · rcases identified.classId with ⟨_, _, _, found, enumerates⟩
      exact ⟨_, by rw [Attributes.fieldOf?, found, Option.bind_some, enumerates.codes]; rfl⟩
    · rcases identified.categoryId with ⟨_, _, _, _, _, found, enumerates⟩
      exact ⟨_, by rw [Attributes.fieldOf?, found, Option.bind_some, enumerates.codes]; rfl⟩
  case shown =>
    intro name made
    rcases identified.exists_enumerates made with ⟨codes, definition, found, enumerates⟩
    have keyed : Json.Keyed (.obj definition) :=
      (Attributes.wellFormed_definition (stages.wellFormed_class listed) found).keyed
    have enumeration := keyed.of_get? enumerates.codes
    refine ⟨codes, Fields.merge (definedCodes stages.dictionary name) codes, ?_, ?_,
      shownOver_merge enumeration _⟩
    · rw [Attributes.fieldOf?, found, Option.bind_some, enumerates.codes]
    · rw [fieldOf?_enrich found keyed enumerates.codes, Fields.laid_obj enumeration.distinct,
        ← stages.definedCodes_eq, definedCodes]

/-- A listed class answers to its name, unless that is the name of the base event. -/
theorem outcome_findClass_of_get? {name : Text} {cls : ClassDescriptor}
    (ordinary : name ≠ baseEvent) (listed : catalog.classes.get? name = some cls) :
    (catalog.findClass name).outcome = .ok (some (enrich catalog.dictionary cls)) := by
  rw [findClass, class?, if_neg ordinary, listed, outcome_enrichFound, Option.map_some]

/-- Whether a class of a loaded catalog is found by its name or by its number, the answer
shows the enumerations of the listing laid over those that the dictionary defines as it
was read.  The name of the base event leads elsewhere. -/
theorem load_shows_enumerations (tree : SchemaTree) (catalog : Catalog)
    (loads : (load tree).outcome = .ok catalog) :
    ∃ dictionary, tree.dictionary.outcome = .ok dictionary ∧
      (forall (name : Text) (cls : ClassDescriptor), name ≠ baseEvent ->
        catalog.classes.get? name = some cls -> ∃ answer,
          (catalog.findClass name).outcome = .ok (some answer) ∧
          ShowsEnumerations dictionary cls answer) ∧
      forall (uid : Int) (cls : ClassDescriptor), catalog.classNumbered? (some uid) = some cls ->
        (∃ name, catalog.classes.get? name = some cls) ∧ ∃ answer,
          (catalog.findClassNumbered (some uid)).outcome = .ok (some answer) ∧
          ShowsEnumerations dictionary cls answer := by
  rcases exists_stages loads with ⟨stages⟩
  refine ⟨stages.dictionary, stages.readsDictionary, ?_, ?_⟩
  · intro name cls ordinary found
    exact ⟨_, outcome_findClass_of_get? ordinary found,
      stages.showsEnumerations (OrderedMap.mem_of_get?_eq_some found)⟩
  · intro uid cls found
    rcases exists_listed_of_classNumbered? found with ⟨name, listed, _⟩
    refine ⟨⟨name, OrderedMap.Distinct.get?_eq_some_iff stages.nodup_classes |>.mpr listed⟩,
      enrich catalog.dictionary cls, ?_, stages.showsEnumerations listed⟩
    rw [findClassNumbered, found, outcome_enrichFound, Option.map_some]

/-- A schema whose dictionary enumerates a category of its own and remarks on the number
of the class. -/
def remarkedTree : SchemaTree :=
  let files : MemoryTree :=
    { files :=
        [(Path.parse "s/categories.json", "\x7b\"attributes\": \x7b\"net\": \x7b\"id\": 4\x7d\x7d\x7d"),
         (Path.parse "s/dictionary.json",
           "\x7b\"attributes\": \x7b\"category_id\": \x7b\"enum\": \x7b\"9\": \x7b\"name\": \"Old\"\x7d\x7d\x7d,
             \"class_id\": \x7b\"enum\": \x7b\"7\": \x7b\"name\": \"Seven\", \"note\": \"n\"\x7d\x7d\x7d\x7d\x7d"),
         (Path.parse "s/events/flow.json",
           "\x7b\"type\": \"flow\", \"uid\": 7, \"category\": \"net\"\x7d")]
      unreadable := [] }
  SchemaTree.below files.source (Path.parse "s") "extensions"

/-- The enumeration that a class shows for an attribute. -/
def enumeratedCodes (cls : ClassDescriptor) (name : Text) : Fields :=
  ((Attributes.fieldOf? cls.attributes name "enum").bind Json.fields?).getD []

/-- What the answer shows of the number of the class. -/
def remarkedNumber : Fields :=
  [("7", .obj [("name", .null), ("note", .str "n"), ("description", .null)])]

/-- The category has one code in the listing and two in the answer, which remarks on the
number. -/
theorem exists_remarked : ∃ catalog flow, (load remarkedTree).outcome = .ok catalog ∧
    catalog.classes.get? "flow" = some flow ∧
    (enumeratedCodes flow "category_id").keys = (["4"] : List Text) ∧
    (enumeratedCodes (enrich catalog.dictionary flow) "category_id").keys =
      (["9", "4"] : List Text) ∧
    enumeratedCodes (enrich catalog.dictionary flow) "class_id" = remarkedNumber := by
  have computed : (load remarkedTree).outcome.toOption.bind (fun catalog =>
      (catalog.classes.get? "flow").map fun flow =>
        ((enumeratedCodes flow "category_id").keys,
          (enumeratedCodes (enrich catalog.dictionary flow) "category_id").keys,
          enumeratedCodes (enrich catalog.dictionary flow) "class_id")) =
      some ((["4"] : List Text), (["9", "4"] : List Text), remarkedNumber) := by
    decide +kernel
  rcases Option.bind_eq_some_iff.mp computed with ⟨catalog, loaded, rows⟩
  rcases Option.map_eq_some_iff.mp rows with ⟨flow, listed, row⟩
  simp only [Prod.mk.injEq] at row
  exact ⟨catalog, flow, Outcome.toOption_eq_some_iff.mp loaded, listed, row⟩

/-- The class covers the name that the dictionary gives the number, and the remark
stays. -/
theorem load_shows_enumerations_remarked :
    ∃ catalog flow dictionary answer, (load remarkedTree).outcome = .ok catalog ∧
      ("flow" : Text) ≠ baseEvent ∧ catalog.classes.get? "flow" = some flow ∧
      remarkedTree.dictionary.outcome = .ok dictionary ∧
      (catalog.findClass "flow").outcome = .ok (some answer) ∧
      ShowsEnumerations dictionary flow answer ∧
      enumeratedCodes answer "class_id" = remarkedNumber := by
  rcases exists_remarked with ⟨catalog, flow, loads, listed, _, _, number⟩
  have ordinary : ("flow" : Text) ≠ baseEvent := by decide
  rcases load_shows_enumerations remarkedTree catalog loads with ⟨dictionary, reads, named, _⟩
  rcases named "flow" flow ordinary listed with ⟨answer, found, shows⟩
  have same : answer = enrich catalog.dictionary flow := by
    rw [outcome_findClass_of_get? ordinary listed] at found
    exact (Option.some.inj (Except.ok.inj found)).symm
  exact ⟨catalog, flow, dictionary, answer, loads, ordinary, listed, reads, found, shows,
    same ▸ number⟩

/-- The answer shows a category that the listing does not. -/
theorem load_shows_foreign_category :
    ∃ catalog flow answer, (load remarkedTree).outcome = .ok catalog ∧
      ("flow" : Text) ≠ baseEvent ∧ catalog.classes.get? "flow" = some flow ∧
      (catalog.findClass "flow").outcome = .ok (some answer) ∧
      (enumeratedCodes flow "category_id").keys = (["4"] : List Text) ∧
      (enumeratedCodes answer "category_id").keys = (["9", "4"] : List Text) := by
  rcases exists_remarked with ⟨catalog, flow, loads, listed, listing, answer, _⟩
  have ordinary : ("flow" : Text) ≠ baseEvent := by decide
  exact ⟨catalog, flow, enrich catalog.dictionary flow, loads, ordinary, listed,
    outcome_findClass_of_get? ordinary listed, listing, answer⟩

end Catalog
end EventSchema
