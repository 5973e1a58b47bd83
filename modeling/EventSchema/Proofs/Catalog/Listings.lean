import EventSchema.Proofs.BackReferences
import EventSchema.Proofs.Catalog.Loading
import EventSchema.Proofs.Identifiers
import EventSchema.Proofs.Inheritance.Records
import EventSchema.Source.Memory

namespace EventSchema
namespace Catalog

/-!
# What a loaded catalog lists

Nothing that is declared is lost on the way into the catalog but what is meant to
be dropped: classes without a number on their lineage, and templates of objects.
Every listed entry stands under its own type and has no parent left.

Each stage preserves a part of this.  Describing keeps the types, flattening keeps
the names and takes the nearest number, identification keeps the classes that
have one and finds their categories, and linking leaves no bare name behind.
-/

open Inheritance

/-- Some descriptor on the lineage of a name has a number. -/
def HasNumber (classes : Hierarchy ClassDetails) (name : Text) : Prop :=
  ∃ chain, Lineage classes name chain ∧ ∃ descriptor ∈ chain, descriptor.details.uid ≠ none

/-- Related classes that are resolved: there is at least one, and each is a
reference. -/
def Resolved (entries : List Related) : Prop :=
  entries ≠ [] ∧ ∀ entry ∈ entries, ∃ reference, entry = .link reference

/-- What holds of a class that a catalog lists under a name. -/
structure ListedClass (categories : Categories) (name : Text) (cls : ClassDescriptor) : Prop where
  type : cls.type = name
  parent : cls.parent = none
  uid : cls.details.uid ≠ none
  category : ∃ category, cls.details.category = some category ∧ category ∈ categories.entries.keys
  seeAlso : forall entries : List Related, cls.details.seeAlso = some entries -> Resolved entries

/-! ## Records of described descriptors -/

section Records

variable {δ : Type} [Details δ] [Heritable δ]

/-- A flattened record stands under its type and has no parent. -/
theorem type_of_settles {declared : Hierarchy δ}
    (typed : forall (name : Text) (descriptor : Descriptor δ),
      declared.get? name = some descriptor -> descriptor.type = name) {name : Text}
    {record : Descriptor δ} (settles : Settles declared name record) :
    record.type = name ∧ record.parent = none := by
  rcases settles with ⟨own, above, lineage, rfl⟩
  rw [Descriptor.type_combineAll]
  cases lineage with
  | root found last => exact ⟨typed name own found, last⟩
  | child found _ rest =>
      refine ⟨typed name own found, Descriptor.parent_combineAll own ?_⟩
      rintro rfl
      cases rest

end Records

theorem resolved_of_linkOne {classes : Hierarchy ClassDetails} {cls : ClassDescriptor}
    {entries : List Related}
    (links : (SeeAlso.linkOne classes cls).details.seeAlso = some entries) : Resolved entries := by
  rcases Option.bind_eq_some_iff.mp links with ⟨names, _, resolves⟩
  unfold SeeAlso.resolveAll at resolves
  split at resolves
  · cases resolves
  · next references nonempty =>
      cases resolves
      refine ⟨by simpa using nonempty, fun entry member => ?_⟩
      rcases List.mem_map.1 member with ⟨reference, _, rfl⟩
      exact ⟨reference, rfl⟩

/-- The record of linked classes takes its number from its lineage, and its related
classes are resolved. -/
theorem details_of_settles {classes : Hierarchy ClassDetails} {name : Text}
    {record : ClassDescriptor} (settles : Settles (linkAll classes) name record) :
    (record.details.uid ≠ none ↔ HasNumber classes name) ∧
      forall entries : List Related, record.details.seeAlso = some entries -> Resolved entries := by
  rcases settles with ⟨own, above, lineage, rfl⟩
  rcases lineage_linkAll_iff.mp lineage with ⟨described, ofDescribed, chain⟩
  have nearest := nearestClassDetails_combineAll own above
  rw [chain] at nearest
  constructor
  · rw [nearest.uid, List.findSome?_map, ne_eq, List.findSome?_eq_none_iff]
    constructor
    · intro some
      simp only [not_forall] at some
      rcases some with ⟨descriptor, member, filled⟩
      exact ⟨described, ofDescribed, descriptor, member, filled⟩
    · rintro ⟨other, again, descriptor, member, filled⟩ none
      cases ofDescribed.unique again
      exact filled (none descriptor member)
  · intro entries held
    rw [nearest.seeAlso] at held
    rcases List.exists_of_findSome?_eq_some held with ⟨descriptor, member, links⟩
    rcases List.mem_map.1 member with ⟨source, _, rfl⟩
    exact resolved_of_linkOne links

/-! ## Classes -/

section Stages

variable {tree : SchemaTree} {catalog : Catalog} (stages : Stages tree catalog)

include stages

theorem Stages.describedClasses : Described stages.declaredClasses stages.classes :=
  described_of_describeAll (SchemaTree.declared_of_declarations stages.declaresClasses)
    stages.describesClasses

theorem Stages.settledClasses :
    Settled (linkAll stages.classes) stages.flattenedClasses ∧
      stages.flattenedClasses.keys.Perm (linkAll stages.classes).keys ∧
      ∀ name ∈ (linkAll stages.classes).keys, Grounded (linkAll stages.classes) name :=
  grounded_of_flatten (wellFormed_linkAll stages.describedClasses.wellFormed)
    stages.flattensClasses

theorem Stages.identifiedClasses :
    List.Forall₂ (Identifiers.Identifies catalog.categories.entries)
      (Identifiers.numbered stages.flattenedClasses) catalog.classes :=
  Identifiers.forall₂_of_identifyAll ⟨_, stages.settledClasses.1.distinct⟩ stages.identifies

theorem Stages.keys_classes :
    catalog.classes.keys = (Identifiers.numbered stages.flattenedClasses).keys :=
  (OrderedMap.keys_eq_of_forall₂ (fun _ _ identifies => identifies.1)
    stages.identifiedClasses).symm

theorem Stages.nodup_classes : catalog.classes.keys.Nodup := by
  rw [stages.keys_classes]
  exact stages.settledClasses.1.distinct.filter _

/-- The listed classes are those with a number on their lineage. -/
theorem Stages.mem_keys_classes_iff {name : Text} :
    name ∈ catalog.classes.keys ↔
      name ∈ stages.declaredClasses.keys ∧ HasNumber stages.classes name := by
  rcases stages.settledClasses with ⟨settled, names, _⟩
  have numbered : name ∈ catalog.classes.keys ↔
      ∃ record, stages.flattenedClasses.get? name = some record ∧ record.details.uid ≠ none := by
    rw [stages.keys_classes]
    constructor
    · intro member
      rcases List.mem_map.1 member with ⟨entry, kept, rfl⟩
      rcases List.mem_filter.1 kept with ⟨within, uid⟩
      exact ⟨entry.2, settled.distinct.get?_eq_some_iff.mpr within, by
        simpa [Option.isSome_iff_ne_none] using uid⟩
    · rintro ⟨record, found, uid⟩
      refine OrderedMap.mem_keys_of_mem (List.mem_filter.2
        ⟨OrderedMap.mem_of_get?_eq_some found, ?_⟩)
      simpa [Option.isSome_iff_ne_none] using uid
  have declared : stages.flattenedClasses.keys.Perm stages.declaredClasses.keys := by
    rw [keys_linkAll, stages.describedClasses.keys] at names
    exact names
  rw [numbered]
  constructor
  · rintro ⟨record, found, uid⟩
    refine ⟨declared.mem_iff.mp (OrderedMap.mem_keys_of_get?_eq_some found), ?_⟩
    exact (details_of_settles (settled.settles name record found)).1.1 uid
  · rintro ⟨member, number⟩
    rcases OrderedMap.exists_get?_of_mem_keys (declared.mem_iff.mpr member) with ⟨record, found⟩
    exact ⟨record, found, (details_of_settles (settled.settles name record found)).1.2 number⟩

theorem Stages.typed_linkAll (name : Text) (descriptor : ClassDescriptor)
    (found : (linkAll stages.classes).get? name = some descriptor) : descriptor.type = name := by
  rw [linkAll, OrderedMap.get?_mapValues, Option.map_eq_some_iff] at found
  rcases found with ⟨source, held, rfl⟩
  exact stages.describedClasses.typed _ (OrderedMap.mem_of_get?_eq_some held)

/-- Every listed class is the identified record of its lineage. -/
theorem Stages.exists_identified {entry : Text × ClassDescriptor}
    (member : entry ∈ catalog.classes) :
    ∃ record uid, Settles (linkAll stages.classes) entry.1 record ∧
      record.details.uid = some uid ∧
      (Identifiers.identify catalog.categories.entries entry.1 record uid).outcome =
        .ok entry.2 := by
  rcases Outcome.exists_of_mem_right stages.identifiedClasses entry member with
    ⟨⟨_, record⟩, kept, rfl, uid, numbered, identifies⟩
  rcases stages.settledClasses with ⟨settled, _, _⟩
  have found := settled.distinct.get?_eq_some_iff.mpr (List.mem_of_mem_filter kept)
  exact ⟨record, uid, settled.settles entry.1 record found, numbered, identifies⟩

/-- What is listed is well formed. -/
theorem Stages.listedClass {entry : Text × ClassDescriptor} (member : entry ∈ catalog.classes) :
    ListedClass catalog.categories entry.1 entry.2 := by
  rcases stages.exists_identified member with ⟨record, uid, settles, numbered, identifies⟩
  rcases type_of_settles stages.typed_linkAll settles with ⟨type, parent⟩
  rcases Identifiers.identify_eq_ok identifies with
    ⟨ownType, ownParent, details, category, named, known⟩
  refine ⟨?_, ownParent.trans parent, ?_, ?_, ?_⟩
  · rw [ownType, type]
  · rw [details, numbered]
    exact Option.some_ne_none uid
  · exact ⟨category, by rw [details, named], known⟩
  · rw [details]
    exact (details_of_settles settles).2

/-! ## Objects -/

theorem Stages.describedObjects : Described stages.declaredObjects stages.objects :=
  described_of_describeAll (SchemaTree.declared_of_declarations stages.declaresObjects)
    stages.describesObjects

theorem Stages.settledObjects :
    Settled stages.objects stages.flattenedObjects ∧
      stages.flattenedObjects.keys.Perm stages.objects.keys ∧
      ∀ name ∈ stages.objects.keys, Grounded stages.objects name :=
  grounded_of_flatten stages.describedObjects.wellFormed stages.flattensObjects

/-- The objects that are no templates. -/
def Stages.concreteObjects : Hierarchy ObjectDetails :=
  stages.flattenedObjects.filter fun entry => !isAbstract entry.1

/-- The listed objects are the concrete ones up to their links. -/
theorem Stages.forall₂_objects :
    List.Forall₂ (fun entry listed => entry.1 = listed.1 ∧
      listed.2 = { entry.2 with details := listed.2.details })
      stages.concreteObjects catalog.objects := by
  have updates := stages.updatesObjects
  unfold BackReferences.updateObjects at updates
  rcases Outcome.bind_eq_ok_iff.mp updates with ⟨found, _, same⟩
  rw [← Except.ok.inj same, OrderedMap.mapValues, List.forall₂_map_right_iff]
  refine List.forall₂_same.2 fun entry _ => ⟨rfl, ?_⟩
  dsimp only
  split
  · rfl
  · rfl

theorem Stages.keys_objects : catalog.objects.keys = stages.concreteObjects.keys :=
  (OrderedMap.keys_eq_of_forall₂ (fun _ _ same => same.1) stages.forall₂_objects).symm

theorem Stages.nodup_objects : catalog.objects.keys.Nodup := by
  rw [stages.keys_objects]
  exact stages.settledObjects.1.distinct.filter _

/-- The listed objects are all that are declared without an underscore. -/
theorem Stages.mem_keys_objects_iff {name : Text} :
    name ∈ catalog.objects.keys ↔
      name ∈ stages.declaredObjects.keys ∧ isAbstract name = false := by
  have declared : stages.flattenedObjects.keys.Perm stages.declaredObjects.keys := by
    rw [← stages.describedObjects.keys]
    exact stages.settledObjects.2.1
  rw [stages.keys_objects, ← declared.mem_iff]
  constructor
  · intro member
    rcases List.mem_map.1 member with ⟨entry, kept, rfl⟩
    rcases List.mem_filter.1 kept with ⟨within, concrete⟩
    exact ⟨OrderedMap.mem_keys_of_mem within, by simpa using concrete⟩
  · rintro ⟨member, concrete⟩
    rcases List.mem_map.1 member with ⟨entry, within, rfl⟩
    exact OrderedMap.mem_keys_of_mem (List.mem_filter.2 ⟨within, by simpa using concrete⟩)

/-- Every listed object is the record of its lineage, up to its links. -/
theorem Stages.exists_settled {entry : Text × ObjectDescriptor}
    (member : entry ∈ catalog.objects) :
    ∃ record, Settles stages.objects entry.1 record ∧
      entry.2 = { record with details := entry.2.details } := by
  rcases Outcome.exists_of_mem_right stages.forall₂_objects entry member with
    ⟨⟨_, record⟩, kept, rfl, same⟩
  rcases stages.settledObjects with ⟨settled, _, _⟩
  have found := settled.distinct.get?_eq_some_iff.mpr (List.mem_of_mem_filter kept)
  exact ⟨record, settled.settles entry.1 record found, same⟩

theorem Stages.listedObject {entry : Text × ObjectDescriptor} (member : entry ∈ catalog.objects) :
    entry.2.type = entry.1 ∧ entry.2.parent = none := by
  rcases stages.exists_settled member with ⟨record, settles, same⟩
  have typed : forall (name : Text) (descriptor : ObjectDescriptor),
      stages.objects.get? name = some descriptor -> descriptor.type = name :=
    fun _ _ held => stages.describedObjects.typed _ (OrderedMap.mem_of_get?_eq_some held)
  rcases type_of_settles typed settles with ⟨ofType, ofParent⟩
  rw [same]
  exact ⟨ofType, ofParent⟩

end Stages

/-! ## The catalog -/

/-- A loaded catalog lists, each once, the declared classes with a number on their
lineage and the declared objects that are no templates.  All entries stand under
their own type, have no parent, and are complete. -/
theorem load_lists_declared (tree : SchemaTree) (catalog : Catalog)
    (loads : (load tree).outcome = .ok catalog) :
    ∃ (declaredClasses declaredObjects : Declarations) (classes : Hierarchy ClassDetails),
      tree.classDeclarations.outcome = .ok declaredClasses ∧
      (describeAll tree declaredClasses).outcome = .ok classes ∧
      tree.objectDeclarations.outcome = .ok declaredObjects ∧
      catalog.classes.keys.Nodup ∧ catalog.objects.keys.Nodup ∧
      (forall name : Text, name ∈ catalog.classes.keys ↔
        name ∈ declaredClasses.keys ∧ HasNumber classes name) ∧
      (forall name : Text, name ∈ catalog.objects.keys ↔
        name ∈ declaredObjects.keys ∧ isAbstract name = false) ∧
      (∀ entry ∈ catalog.classes, ListedClass catalog.categories entry.1 entry.2) ∧
      ∀ entry ∈ catalog.objects, entry.2.type = entry.1 ∧ entry.2.parent = none := by
  rcases exists_stages loads with ⟨stages⟩
  exact ⟨stages.declaredClasses, stages.declaredObjects, stages.classes, stages.declaresClasses,
    stages.describesClasses, stages.declaresObjects, stages.nodup_classes, stages.nodup_objects,
    fun _ => stages.mem_keys_classes_iff, fun _ => stages.mem_keys_objects_iff,
    fun _ member => stages.listedClass member, fun _ member => stages.listedObject member⟩

/-- What is computed from a class of the catalog holds of a class that is listed there. -/
theorem exists_class_of_computed {tree : SchemaTree} {name : Text} {α : Type}
    {aspect : ClassDescriptor -> α} {value : α}
    (computed : ((load tree).outcome.toOption.bind fun catalog =>
      catalog.classes.get? name).map aspect = some value) :
    ∃ catalog cls, (load tree).outcome = .ok catalog ∧ catalog.classes.get? name = some cls ∧
      aspect cls = value := by
  rcases Option.map_eq_some_iff.mp computed with ⟨cls, found, same⟩
  rcases Option.bind_eq_some_iff.mp found with ⟨catalog, loads, listed⟩
  exact ⟨catalog, cls, Outcome.toOption_eq_some_iff.mp loads, listed, same⟩

/-- A small schema: a class whose number comes from its parent, a class that nothing
gives a number, and an object made from a template. -/
def inheritingTree : SchemaTree :=
  let files : MemoryTree :=
    { files :=
        [(Path.parse "s/categories.json", "\x7b\"attributes\": \x7b\"net\": \x7b\"id\": 4\x7d\x7d\x7d"),
         (Path.parse "s/dictionary.json", "\x7b\x7d"),
         (Path.parse "s/events/a.json",
           "\x7b\"type\": \"flow\", \"extends\": \"base\", \"see_also\": [\"none\"]\x7d"),
         (Path.parse "s/events/b.json",
           "\x7b\"type\": \"base\", \"uid\": 7, \"category\": \"net\"\x7d"),
         (Path.parse "s/events/c.json", "\x7b\"type\": \"rest\"\x7d"),
         (Path.parse "s/objects/a.json", "\x7b\"type\": \"_any\"\x7d"),
         (Path.parse "s/objects/b.json", "\x7b\"type\": \"user\", \"extends\": \"_any\"\x7d")]
      unreadable := [] }
  SchemaTree.below files.source (Path.parse "s") "extensions"

/-- Both numbered classes are listed, and the template is not. -/
theorem load_lists_declared_inheriting :
    ∃ catalog, (load inheritingTree).outcome = .ok catalog ∧
      catalog.classes.keys = (["base", "flow"] : List Text) ∧
      catalog.objects.keys = (["user"] : List Text) ∧
      (∀ entry ∈ catalog.classes, ListedClass catalog.categories entry.1 entry.2) ∧
      ∀ entry ∈ catalog.objects, entry.2.type = entry.1 ∧ entry.2.parent = none := by
  have keys : (load inheritingTree).outcome.toOption.map
      (fun catalog => (catalog.classes.keys, catalog.objects.keys)) =
        some ((["base", "flow"], ["user"]) : List Text × List Text) := by decide +kernel
  cases loads : (load inheritingTree).outcome with
  | error failure =>
      rw [loads] at keys
      cases keys
  | ok catalog =>
      rw [loads] at keys
      rcases Prod.mk.inj (Option.some.inj keys) with ⟨classes, objects⟩
      rcases load_lists_declared inheritingTree catalog loads with
        ⟨_, _, _, _, _, _, _, _, _, _, listedClasses, listedObjects⟩
      exact ⟨catalog, rfl, classes, objects, listedClasses, listedObjects⟩

end Catalog
end EventSchema
