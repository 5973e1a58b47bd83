import EventSchema.Catalog.Loading
import EventSchema.Proofs.Inclusion.Expansion
import EventSchema.Proofs.Inclusion.Origins
import EventSchema.Proofs.Inheritance.Flattening

namespace EventSchema
namespace Catalog

/-!
# The stages of loading

A raw descriptor is described by what its files, with the fragments they
include, say about it.  Loading reads fragments once, but its outcome is that of
describing every descriptor by itself (`outcome_load`), stage after stage.

What the descriptions yield is what flattening starts from: well-formed records,
each under its own type.
-/

variable {δ : Type} [Details δ]

/-! ## Descriptions -/

/-- Describe a raw descriptor, reading all it includes. -/
def describe (tree : SchemaTree) (name : Text) (fields : Fields) : Report (Descriptor δ) := do
  let expanded ← Inclusion.expand (Inclusion.readFragment tree) name fields
  let descriptor ← (SchemaTree.decode (Descriptor δ) name (.obj expanded))
  pure { descriptor with attributes := descriptor.attributes.creditTo name }

/-- Describe all raw descriptors of one kind. -/
def describeAll (tree : SchemaTree) (declared : Declarations) :
    Report (Inheritance.Hierarchy δ) :=
  declared.mapM fun entry => do
    let descriptor ← describe tree entry.1 entry.2
    pure (entry.1, descriptor)

/-- The classes that the files describe. -/
def describedClasses (tree : SchemaTree) : Report (Inheritance.Hierarchy ClassDetails) := do
  let declared ← tree.classDeclarations
  describeAll tree declared

/-- The objects that the files describe. -/
def describedObjects (tree : SchemaTree) : Report (Inheritance.Hierarchy ObjectDetails) := do
  let declared ← tree.objectDeclarations
  describeAll tree declared

/-- Classes with their related classes resolved. -/
def linkAll (classes : Inheritance.Hierarchy ClassDetails) : Inheritance.Hierarchy ClassDetails :=
  classes.mapValues fun _ cls => SeeAlso.linkOne classes cls

theorem outcome_link (classes : Inheritance.Hierarchy ClassDetails) :
    (SeeAlso.link classes).outcome = .ok (linkAll classes) := rfl

theorem follows_readDescriptor (tree : SchemaTree) (name : Text) (fields : Fields) :
    Session.Follows tree (readDescriptor tree name fields : Session (Descriptor δ))
      (describe tree name fields) :=
  (Inclusion.fetches_expand name fields).follows.bind fun _ =>
    (Session.Follows.ofReport _).bind fun _ => Session.Follows.pure _

theorem follows_readDescriptors (tree : SchemaTree) (declared : Declarations) :
    Session.Follows tree (readDescriptors tree declared)
      (describeAll tree declared : Report (Inheritance.Hierarchy δ)) := by
  refine Session.Follows.mapM (fun entry => ?_) declared
  exact (follows_readDescriptor tree entry.1 entry.2).bind fun _ => Session.Follows.pure _

/-! ## Stages -/

/-- Load a catalog without remembering any fragment. -/
def loadAfresh (tree : SchemaTree) : Report Catalog := do
  Report.note .info ("loading schema: " ++ tree.home.text)
  let version ← tree.version
  Report.note .info ("schema version: " ++ version.version)
  let categories ← tree.categories
  let dictionary ← tree.dictionary
  let classes ← describedClasses tree
  let linked ← SeeAlso.link classes
  let resolved ← resolveClasses categories linked
  let objects ← describedObjects tree
  let flattened ← Inheritance.flattenObjects objects
  let catalog ← joinParts version categories dictionary (linked.get? Identifiers.baseEvent)
    resolved flattened
  Report.note .info ("schema loaded: " ++ catalog.summary)
  pure catalog

theorem follows_loadWith (tree : SchemaTree) :
    Session.Follows tree (loadWith tree) (loadAfresh tree) := by
  unfold loadAfresh describedClasses describedObjects
  simp only [bind_assoc]
  unfold loadWith
  apply (Session.Follows.ofReport _).bind
  intro _
  apply (Session.Follows.ofReport _).bind
  intro version
  apply (Session.Follows.ofReport _).bind
  intro _
  apply (Session.Follows.ofReport _).bind
  intro categories
  apply (Session.Follows.ofReport _).bind
  intro dictionary
  apply (Session.Follows.ofReport _).bind
  intro declared
  apply (follows_readDescriptors tree declared).bind
  intro classes
  apply (Session.Follows.ofReport _).bind
  intro linked
  apply (Session.Follows.ofReport _).bind
  intro resolved
  apply (Session.Follows.ofReport _).bind
  intro declared
  apply (follows_readDescriptors tree declared).bind
  intro objects
  apply (Session.Follows.ofReport _).bind
  intro flattened
  apply (Session.Follows.ofReport _).bind
  intro catalog
  exact (Session.Follows.ofReport _).bind fun _ => Session.Follows.pure catalog

/-- Loading comes to the outcomes of its stages, one after another. -/
theorem outcome_load (tree : SchemaTree) :
    (load tree).outcome = (do
      let version ← tree.version.outcome
      let categories ← tree.categories.outcome
      let dictionary ← tree.dictionary.outcome
      let classes ← (describedClasses tree).outcome
      let resolved ← (resolveClasses categories (linkAll classes)).outcome
      let objects ← (describedObjects tree).outcome
      let flattened ← (Inheritance.flattenObjects objects).outcome
      (joinParts version categories dictionary ((linkAll classes).get? Identifiers.baseEvent)
        resolved flattened).outcome) := by
  rw [load, (follows_loadWith tree).outcome [] Session.faithful_nil]
  simp only [loadAfresh, Report.outcome_bind, Report.outcome_note, Report.ok_bind, outcome_link,
    Report.outcome_pure, Report.bind_ok]

/-- The results of the stages of a run that yields a catalog. -/
structure Stages (tree : SchemaTree) (catalog : Catalog) where
  dictionary : Dictionary
  declaredClasses : Declarations
  classes : Inheritance.Hierarchy ClassDetails
  flattenedClasses : Inheritance.Hierarchy ClassDetails
  declaredObjects : Declarations
  objects : Inheritance.Hierarchy ObjectDetails
  flattenedObjects : Inheritance.Hierarchy ObjectDetails
  readsVersion : tree.version.outcome = .ok catalog.version
  readsCategories : tree.categories.outcome = .ok catalog.categories
  readsDictionary : tree.dictionary.outcome = .ok dictionary
  declaresClasses : tree.classDeclarations.outcome = .ok declaredClasses
  describesClasses : (describeAll tree declaredClasses).outcome = .ok classes
  takesCommon : catalog.common = (linkAll classes).get? Identifiers.baseEvent
  flattensClasses : (Inheritance.flatten .eventClass (linkAll classes)).outcome =
    .ok flattenedClasses
  identifies : (Identifiers.identifyAll catalog.categories.entries flattenedClasses).outcome =
    .ok catalog.classes
  declaresObjects : tree.objectDeclarations.outcome = .ok declaredObjects
  describesObjects : (describeAll tree declaredObjects).outcome = .ok objects
  flattensObjects : (Inheritance.flatten .object objects).outcome = .ok flattenedObjects
  updatesDictionary : (BackReferences.updateDictionary dictionary catalog.common catalog.classes
    (flattenedObjects.filter fun entry => !Inheritance.isAbstract entry.1)).outcome =
      .ok catalog.dictionary
  updatesObjects : BackReferences.updateObjects catalog.dictionary
    (flattenedObjects.filter fun entry => !Inheritance.isAbstract entry.1) = .ok catalog.objects

/-- A catalog is only loaded through all stages. -/
theorem exists_stages {tree : SchemaTree} {catalog : Catalog}
    (loads : (load tree).outcome = .ok catalog) : Nonempty (Stages tree catalog) := by
  simp only [outcome_load, describedClasses, describedObjects, resolveClasses,
    Inheritance.flattenObjects, joinParts, Report.outcome_bind, Report.outcome_liftM,
    Report.outcome_pure, Outcome.bind_eq_ok_iff] at loads
  rcases loads with
    ⟨version, readsVersion, categories, readsCategories, dictionary, readsDictionary, classes,
     ⟨declaredClasses, declaresClasses, describesClasses⟩, resolved, ⟨flattenedClasses,
     flattensClasses, identifies⟩, objects, ⟨declaredObjects, declaresObjects, describesObjects⟩,
     concrete, ⟨flattenedObjects, flattensObjects, same⟩, updated, updatesDictionary, linked,
     updatesObjects, gives⟩
  cases same
  cases gives
  exact ⟨{ dictionary, declaredClasses, classes, flattenedClasses, declaredObjects, objects,
           flattenedObjects, readsVersion, readsCategories, readsDictionary, declaresClasses,
           describesClasses, takesCommon := rfl, flattensClasses, identifies, declaresObjects,
           describesObjects, flattensObjects, updatesDictionary, updatesObjects }⟩

/-! ## What is described -/

theorem keys_creditTo (attributes : Attributes) (owner : Text) :
    (attributes.creditTo owner).keys = attributes.keys :=
  OrderedMap.keys_mapValues _ _

/-- A description is a well-formed record of the type that was declared. -/
theorem wellFormed_of_describe {tree : SchemaTree} {name : Text} {fields : Fields}
    {descriptor : Descriptor δ} (keeps : Inclusion.Keeps name fields)
    (describes : (describe tree name fields).outcome = .ok descriptor) :
    descriptor.WellFormed ∧ descriptor.type = name := by
  unfold describe at describes
  simp only [Report.outcome_bind, Report.outcome_liftM, Outcome.bind_eq_ok_iff] at describes
  rcases describes with ⟨expanded, expands, read, decoded, same⟩
  cases same
  have kept := keeps.of_expand expands
  have readFrom := Descriptor.readFrom_of_validate (SchemaTree.decode_eq_ok_iff.mp decoded)
  have wellFormed := readFrom.wellFormed kept.wellFormed
  refine ⟨⟨?_, wellFormed.extra, wellFormed.undeclared, wellFormed.characters⟩, ?_⟩
  · rw [OrderedMap.Distinct, keys_creditTo]
    exact wellFormed.attributes
  · cases readFrom.type.symm.trans kept.typed
    rfl

/-- Every raw descriptor is described under its name. -/
theorem forall₂_of_describeAll {tree : SchemaTree} {declared : Declarations}
    {descriptors : Inheritance.Hierarchy δ}
    (describes : (describeAll tree declared).outcome = .ok descriptors) :
    List.Forall₂ (fun entry described => entry.1 = described.1 ∧
      (describe tree entry.1 entry.2).outcome = .ok described.2) declared descriptors := by
  unfold describeAll at describes
  rw [Report.outcome_mapM, Outcome.mapM_eq_ok_iff] at describes
  refine describes.imp fun entry described gives => ?_
  rw [Report.outcome_bind] at gives
  rcases Outcome.bind_eq_ok_iff.mp gives with ⟨descriptor, read, same⟩
  cases same
  exact ⟨rfl, read⟩

/-- Every description is that of an object which is declared under its name. -/
theorem exists_describe_of_mem {tree : SchemaTree} {declared : Declarations}
    (holds : SchemaTree.Declared declared) {descriptors : Inheritance.Hierarchy δ}
    (describes : (describeAll tree declared).outcome = .ok descriptors)
    {entry : Text × Descriptor δ} (member : entry ∈ descriptors) :
    ∃ fields, (entry.1, fields) ∈ declared ∧ Inclusion.Keeps entry.1 fields ∧
      (describe tree entry.1 fields).outcome = .ok entry.2 := by
  rcases Outcome.exists_of_mem_right (forall₂_of_describeAll describes) entry member with
    ⟨source, within, name, read⟩
  have keeps : Inclusion.Keeps source.1 source.2 :=
    ⟨holds.wellFormed source within, holds.typed source within⟩
  rw [← name]
  exact ⟨source.2, within, keeps, read⟩

/-- Descriptions of all that is declared, each under its type. -/
structure Described (declared : Declarations) (descriptors : Inheritance.Hierarchy δ) : Prop where
  keys : descriptors.keys = declared.keys
  wellFormed : Inheritance.WellFormed descriptors
  typed : ∀ entry ∈ descriptors, entry.2.type = entry.1

theorem described_of_describeAll {tree : SchemaTree} {declared : Declarations}
    (holds : SchemaTree.Declared declared) {descriptors : Inheritance.Hierarchy δ}
    (describes : (describeAll tree declared).outcome = .ok descriptors) :
    Described declared descriptors := by
  have keys : declared.keys = descriptors.keys :=
    OrderedMap.keys_eq_of_forall₂ (fun _ _ described => described.1)
      (forall₂_of_describeAll describes)
  have records : ∀ entry ∈ descriptors, entry.2.WellFormed ∧ entry.2.type = entry.1 := by
    intro entry member
    rcases exists_describe_of_mem holds describes member with ⟨fields, _, keeps, read⟩
    exact wellFormed_of_describe keeps read
  refine ⟨keys.symm, ⟨?_, fun entry member => (records entry member).1⟩,
    fun entry member => (records entry member).2⟩
  rw [OrderedMap.Distinct, ← keys]
  exact holds.distinct

/-! ## Linked classes -/

theorem parent_linkOne (classes : Inheritance.Hierarchy ClassDetails) (cls : ClassDescriptor) :
    (SeeAlso.linkOne classes cls).parent = cls.parent := rfl

theorem keys_linkAll (classes : Inheritance.Hierarchy ClassDetails) :
    (linkAll classes).keys = classes.keys :=
  OrderedMap.keys_mapValues _ _

theorem wellFormed_linkAll {classes : Inheritance.Hierarchy ClassDetails}
    (wellFormed : Inheritance.WellFormed classes) : Inheritance.WellFormed (linkAll classes) where
  distinct := by
    rw [OrderedMap.Distinct, keys_linkAll]
    exact wellFormed.distinct
  records entry member := by
    rcases List.mem_map.1 member with ⟨source, within, rfl⟩
    have record := wellFormed.records source within
    exact ⟨record.attributes, record.extra, record.undeclared, record.characters⟩

/-- The lineages of linked classes are those of the classes. -/
theorem lineage_linkAll_iff {classes : Inheritance.Hierarchy ClassDetails} {name : Text}
    {chain : List ClassDescriptor} :
    Inheritance.Lineage (linkAll classes) name chain ↔
      ∃ described, Inheritance.Lineage classes name described ∧
        chain = described.map (SeeAlso.linkOne classes) := by
  constructor
  · exact Inheritance.Lineage.of_mapValues (parent_linkOne classes)
  · rintro ⟨described, lineage, rfl⟩
    exact lineage.mapValues (parent_linkOne classes)

end Catalog
end EventSchema
