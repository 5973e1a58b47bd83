import EventSchema.Proofs.BackReferences
import EventSchema.Proofs.Catalog.Loading
import EventSchema.Proofs.Identifiers
import EventSchema.Source.Memory

namespace EventSchema
namespace Catalog

/-!
# How loading fails

Loading is meant to yield a catalog or to fail through a fault of the schema.
Data that no stage validates can end it in other ways.  `Escape` lists them, each
with the point that loading has to reach for it: an integer with too many digits
in a file that is read, an included layer that is no object, dispositions of a
class, and entries of the dictionary.

The list is complete and none of its members is idle: loading fails otherwise than
through the schema exactly if there is an escape.
-/

open Inheritance

/-! ## Points that loading reaches -/

/-- The version, the categories and the dictionary are read. -/
structure RegistersRead (tree : SchemaTree) (categories : Categories) (dictionary : Dictionary) :
    Prop where
  readsVersion : ∃ version, tree.version.outcome = .ok version
  readsCategories : tree.categories.outcome = .ok categories
  readsDictionary : tree.dictionary.outcome = .ok dictionary

/-- After the registers, all classes are described. -/
structure ClassesDescribed (tree : SchemaTree) (categories : Categories) (dictionary : Dictionary)
    (classes : Hierarchy ClassDetails) : Prop
    extends RegistersRead tree categories dictionary where
  describesClasses : (describedClasses tree).outcome = .ok classes

/-- After that, all classes are flattened and identified. -/
structure ClassesResolved (tree : SchemaTree) (categories : Categories) (dictionary : Dictionary)
    (classes resolved : Hierarchy ClassDetails) : Prop
    extends ClassesDescribed tree categories dictionary classes where
  resolvesClasses : (resolveClasses categories (linkAll classes)).outcome = .ok resolved

/-- After the classes, all objects are described and flattened. -/
structure ObjectsResolved (tree : SchemaTree) (categories : Categories) (dictionary : Dictionary)
    (classes resolved : Hierarchy ClassDetails) (objects : Hierarchy ObjectDetails) : Prop
    extends ClassesResolved tree categories dictionary classes resolved where
  resolvesObjects : ∃ described, (describedObjects tree).outcome = .ok described ∧
    (flattenObjects described).outcome = .ok objects

/-- A declared descriptor includes a layer that is no object, and all before it can be
described. -/
def FirstLayerFault (δ : Type) [Details δ] (tree : SchemaTree) (declared : Declarations) : Prop :=
  ∃ before entry after, declared = before ++ entry :: after ∧
    (∀ earlier ∈ before, ∃ descriptor : Descriptor δ,
      (describe tree earlier.1 earlier.2).outcome = .ok descriptor) ∧
    Inclusion.LayerFault tree entry.1 entry.2

/-- The ways in which loading fails though the schema is not said to be at fault. -/
inductive Escape (tree : SchemaTree) : Failure -> Prop where
  | integer (path : Path) (asked : path ∈ (load tree).reads) (oversized : tree.Oversized path) :
      Escape tree .oversizeInteger
  | classLayer (categories : Categories) (dictionary : Dictionary) (declared : Declarations)
      (reached : RegistersRead tree categories dictionary)
      (declares : tree.classDeclarations.outcome = .ok declared)
      (first : FirstLayerFault ClassDetails tree declared) :
      Escape tree (.unexpectedShape .layer)
  | codes (categories : Categories) (dictionary : Dictionary)
      (classes flattened : Hierarchy ClassDetails) (failure : Failure)
      (reached : ClassesDescribed tree categories dictionary classes)
      (flattens : (flatten .eventClass (linkAll classes)).outcome = .ok flattened)
      (first : Outcome.FirstFault
        (fun entry other => Identifiers.IdentityFault categories.entries entry.2 other)
        flattened failure)
      (shape : failure.isSchemaFault = false) : Escape tree failure
  | objectLayer (categories : Categories) (dictionary : Dictionary)
      (classes resolved : Hierarchy ClassDetails) (declared : Declarations)
      (reached : ClassesResolved tree categories dictionary classes resolved)
      (declares : tree.objectDeclarations.outcome = .ok declared)
      (first : FirstLayerFault ObjectDetails tree declared) :
      Escape tree (.unexpectedShape .layer)
  | references (categories : Categories) (dictionary : Dictionary)
      (classes resolved : Hierarchy ClassDetails) (objects : Hierarchy ObjectDetails)
      (failure : Failure)
      (reached : ObjectsResolved tree categories dictionary classes resolved objects)
      (first : Outcome.FirstFault
        (BackReferences.EntryFault
          (BackReferences.collect ((linkAll classes).get? Identifiers.baseEvent) resolved objects)
          objects)
        dictionary.entries failure) : Escape tree failure

/-! ## Layers -/

section Layers

variable {δ : Type} [Details δ] {tree : SchemaTree}

/-- A description fails for a layer where its expansion does. -/
theorem describe_eq_layer_iff (steady : tree.source.Steady) {name : Text} {fields : Fields} :
    (describe tree name fields : Report (Descriptor δ)).outcome =
        .error (.unexpectedShape .layer) ↔
      Inclusion.LayerFault tree name fields := by
  rw [← Inclusion.expand_eq_layer_iff steady]
  simp only [describe, Report.outcome_bind, Report.outcome_liftM, Outcome.bind_eq_error_iff]
  apply or_iff_left
  rintro ⟨expanded, _, failed | ⟨_, _, same⟩⟩
  · cases SchemaTree.isSchemaFault_of_decode failed
  · cases same

theorem describeAll_eq_layer_iff (steady : tree.source.Steady) {declared : Declarations} :
    (describeAll tree declared : Report (Hierarchy δ)).outcome =
        .error (.unexpectedShape .layer) ↔
      FirstLayerFault δ tree declared := by
  have single : forall (entry : Text × Fields) (failure : Failure),
      (do let descriptor ← describe tree entry.1 entry.2
          pure (entry.1, descriptor) : Report (Text × Descriptor δ)).outcome = .error failure ↔
        (describe tree entry.1 entry.2 : Report (Descriptor δ)).outcome = .error failure := by
    intro entry failure
    rw [Report.outcome_bind, Outcome.bind_eq_error_iff]
    apply or_iff_left
    rintro ⟨_, _, same⟩
    cases same
  unfold describeAll FirstLayerFault
  rw [Report.outcome_mapM, Outcome.mapM_eq_error_iff]
  simp only [Outcome.exists_ok_iff, ne_eq, single, describe_eq_layer_iff steady]

/-- Describing all descriptors only reads files, layers apart. -/
theorem reading_readDescriptors (steady : tree.source.Steady) (declared : Declarations) :
    Session.Reading tree (fun failure => failure = .unexpectedShape .layer)
      (readDescriptors tree declared : Session (Hierarchy δ)) := by
  have follows : forall entry : Text × Fields, Session.Follows tree
      (readDescriptor tree entry.1 entry.2 : Session (Descriptor δ))
      (describe tree entry.1 entry.2) :=
    fun entry => follows_readDescriptor tree entry.1 entry.2
  have single : forall entry : Text × Fields,
      Session.Reading tree (fun failure => failure = .unexpectedShape .layer)
        (readDescriptor tree entry.1 entry.2 : Session (Descriptor δ)) := by
    intro entry
    refine (Inclusion.reading_expand steady entry.1 entry.2).bind
      (Inclusion.fetches_expand entry.1 entry.2).follows fun expanded _ => ?_
    refine Session.Reading.bind ?_ (Session.Follows.ofReport _) fun _ _ => Session.Reading.pure _
    exact fun _ _ => SchemaTree.Reading.liftM fun _ failed =>
      SchemaTree.isSchemaFault_of_decode failed
  refine Session.Reading.mapM (fun entry => (follows entry).bind fun _ => Session.Follows.pure _)
    (fun entry => ?_) declared
  exact (single entry).bind (follows entry) fun _ _ => Session.Reading.pure _

end Layers

/-! ## Stages -/

section Stages

variable {tree : SchemaTree} {odd : Failure -> Prop}

theorem reads_resolveClasses (categories : Categories) (linked : Hierarchy ClassDetails) :
    (resolveClasses categories linked).reads = [] :=
  Report.reads_bind_eq_nil (reads_flatten _ _) fun flattened =>
    Identifiers.reads_identifyAll flattened

theorem reads_joinParts (version : SchemaVersion) (categories : Categories)
    (dictionary : Dictionary) (common : Option ClassDescriptor) (classes : Hierarchy ClassDetails)
    (objects : Hierarchy ObjectDetails) :
    (joinParts version categories dictionary common classes objects).reads = [] := by
  refine Report.reads_bind_eq_nil ?_ fun _ => ?_
  · exact Report.reads_bind_eq_nil (Report.reads_notes _ _) fun _ => Report.reads_pure _
  · exact Report.reads_bind_eq_nil (Report.reads_liftM _) fun _ => Report.reads_pure _

/-- Classes are not resolved for an obstacle or for the first fault among them. -/
theorem resolveClasses_eq_error_iff {categories : Categories} {linked : Hierarchy ClassDetails}
    (numbers : ∀ entry ∈ categories.entries, Numeral.writable entry.2.id = true)
    {failure : Failure} :
    (resolveClasses categories linked).outcome = .error failure ↔
      (flatten .eventClass linked).outcome = .error failure ∨
        ∃ flattened, (flatten .eventClass linked).outcome = .ok flattened ∧
          Outcome.FirstFault
            (fun entry other => Identifiers.IdentityFault categories.entries entry.2 other)
            flattened failure := by
  simp only [resolveClasses, Report.outcome_bind, Outcome.bind_eq_error_iff,
    Identifiers.identifyAll_eq_error_iff numbers]

/-- The parts are not joined for the first fault among the entries of the
dictionary. -/
theorem joinParts_eq_error_iff {version : SchemaVersion} {categories : Categories}
    {dictionary : Dictionary} {common : Option ClassDescriptor} {classes : Hierarchy ClassDetails}
    {objects : Hierarchy ObjectDetails} {failure : Failure} :
    (joinParts version categories dictionary common classes objects).outcome = .error failure ↔
      Outcome.FirstFault
        (BackReferences.EntryFault (BackReferences.collect common classes objects) objects)
        dictionary.entries failure := by
  have updates := BackReferences.outcome_updateDictionary dictionary common classes objects
  rw [← BackReferences.updateObjects_eq_error_iff updates]
  simp only [joinParts, Report.outcome_bind, updates, Report.ok_bind, Report.outcome_liftM,
    Report.outcome_pure, Outcome.bind_eq_error_iff, reduceCtorEq, and_false, exists_false, or_false]

theorem reading_link (classes : Hierarchy ClassDetails) :
    SchemaTree.Reading tree odd (SeeAlso.link classes) :=
  (SchemaTree.Reading.notes _ _).bind fun _ _ => SchemaTree.Reading.pure _

theorem reading_resolveClasses {categories : Categories} {linked : Hierarchy ClassDetails}
    (numbers : ∀ entry ∈ categories.entries, Numeral.writable entry.2.id = true)
    (wellFormed : WellFormed linked)
    (explains : forall (flattened : Hierarchy ClassDetails) (failure : Failure),
      (flatten .eventClass linked).outcome = .ok flattened ->
      Outcome.FirstFault
        (fun entry other => Identifiers.IdentityFault categories.entries entry.2 other)
        flattened failure ->
      failure.isSchemaFault = false -> odd failure) :
    SchemaTree.Reading tree odd (resolveClasses categories linked) := by
  apply SchemaTree.Reading.of_reads_eq_nil (reads_resolveClasses _ _)
  intro failure failed
  rcases (resolveClasses_eq_error_iff numbers).1 failed with
    obstacle | ⟨flattened, flattens, first⟩
  · exact Or.inl (isSchemaFault_of_flatten wellFormed obstacle)
  · cases schema : failure.isSchemaFault with
    | true => exact Or.inl rfl
    | false => exact Or.inr (explains flattened failure flattens first schema)

theorem reading_flattenObjects {objects : Hierarchy ObjectDetails}
    (wellFormed : WellFormed objects) :
    SchemaTree.Reading tree odd (flattenObjects objects) := by
  refine SchemaTree.Reading.bind ?_ fun _ _ => SchemaTree.Reading.pure _
  exact SchemaTree.Reading.of_reads_eq_nil (reads_flatten _ _) fun _ failed =>
    Or.inl (isSchemaFault_of_flatten wellFormed failed)

theorem reading_joinParts {version : SchemaVersion} {categories : Categories}
    {dictionary : Dictionary} {common : Option ClassDescriptor} {classes : Hierarchy ClassDetails}
    {objects : Hierarchy ObjectDetails}
    (explains : forall failure : Failure, Outcome.FirstFault
        (BackReferences.EntryFault (BackReferences.collect common classes objects) objects)
        dictionary.entries failure -> odd failure) :
    SchemaTree.Reading tree odd
      (joinParts version categories dictionary common classes objects) :=
  SchemaTree.Reading.of_reads_eq_nil (reads_joinParts _ _ _ _ _ _) fun failure failed =>
    Or.inr (explains failure (joinParts_eq_error_iff.1 failed))

/-- Loading only reads files, escapes apart. -/
theorem reading_loadWith (steady : tree.source.Steady) :
    Session.Reading tree (Escape tree) (loadWith tree) := by
  unfold loadWith
  refine (Session.Reading.ofReport (SchemaTree.Reading.note _ _)).bind
    (Session.Follows.ofReport _) fun _ _ => ?_
  refine (Session.Reading.ofReport (SchemaTree.reading_version steady)).bind
    (Session.Follows.ofReport _) fun version readsVersion => ?_
  refine (Session.Reading.ofReport (SchemaTree.Reading.note _ _)).bind
    (Session.Follows.ofReport _) fun _ _ => ?_
  refine (Session.Reading.ofReport (SchemaTree.reading_categories steady)).bind
    (Session.Follows.ofReport _) fun categories readsCategories => ?_
  refine (Session.Reading.ofReport (SchemaTree.reading_dictionary steady)).bind
    (Session.Follows.ofReport _) fun dictionary readsDictionary => ?_
  have registers : RegistersRead tree categories dictionary :=
    ⟨⟨version, readsVersion⟩, readsCategories, readsDictionary⟩
  refine (Session.Reading.ofReport (SchemaTree.reading_declarations steady _)).bind
    (Session.Follows.ofReport _) fun declaredClasses
      (declaresClasses : tree.classDeclarations.outcome = .ok declaredClasses) => ?_
  refine ((reading_readDescriptors steady declaredClasses).imp
    (follows_readDescriptors tree declaredClasses) ?_).bind
      (follows_readDescriptors tree declaredClasses) fun classes describesClasses => ?_
  · rintro failure failed rfl
    exact .classLayer categories dictionary declaredClasses registers declaresClasses
      ((describeAll_eq_layer_iff steady).1 failed)
  have described : ClassesDescribed tree categories dictionary classes := by
    refine ⟨registers, ?_⟩
    rw [describedClasses, Report.outcome_bind, declaresClasses]
    exact describesClasses
  have wellFormed : WellFormed (linkAll classes) := wellFormed_linkAll
    (described_of_describeAll (SchemaTree.declared_of_declarations declaresClasses)
      describesClasses).wellFormed
  refine (Session.Reading.ofReport (reading_link classes)).bind (Session.Follows.ofReport _)
    fun linked links => ?_
  cases links
  have resolves : SchemaTree.Reading tree (Escape tree)
      (resolveClasses categories (linkAll classes)) :=
    reading_resolveClasses (SchemaTree.writable_of_categories readsCategories) wellFormed
      (.codes categories dictionary classes · · described)
  refine (Session.Reading.ofReport resolves).bind (Session.Follows.ofReport _)
    fun resolved resolvesClasses => ?_
  have classesResolved : ClassesResolved tree categories dictionary classes resolved :=
    ⟨described, resolvesClasses⟩
  refine (Session.Reading.ofReport (SchemaTree.reading_declarations steady _)).bind
    (Session.Follows.ofReport _) fun declaredObjects
      (declaresObjects : tree.objectDeclarations.outcome = .ok declaredObjects) => ?_
  refine ((reading_readDescriptors steady declaredObjects).imp
    (follows_readDescriptors tree declaredObjects) ?_).bind
      (follows_readDescriptors tree declaredObjects) fun objects describesObjects => ?_
  · rintro failure failed rfl
    exact .objectLayer categories dictionary classes resolved declaredObjects classesResolved
      declaresObjects ((describeAll_eq_layer_iff steady).1 failed)
  have objectsDescribed : (describedObjects tree).outcome = .ok objects := by
    rw [describedObjects, Report.outcome_bind, declaresObjects]
    exact describesObjects
  have objectsWellFormed : WellFormed objects := (described_of_describeAll
    (SchemaTree.declared_of_declarations declaresObjects) describesObjects).wellFormed
  refine (Session.Reading.ofReport (reading_flattenObjects objectsWellFormed)).bind
    (Session.Follows.ofReport _) fun flattened flattens => ?_
  have joins : SchemaTree.Reading tree (Escape tree) (joinParts version categories dictionary
      ((linkAll classes).get? Identifiers.baseEvent) resolved flattened) :=
    reading_joinParts
      (.references categories dictionary classes resolved flattened ·
        ⟨classesResolved, objects, objectsDescribed, flattens⟩)
  apply (Session.Reading.ofReport joins).bind (Session.Follows.ofReport _)
  intro catalog _
  exact (Session.Reading.ofReport (SchemaTree.Reading.note _ _)).bind
    (Session.Follows.ofReport _) fun _ _ => Session.Reading.pure catalog

end Stages

/-! ## Escapes -/

section Escapes

variable {tree : SchemaTree} {categories : Categories} {dictionary : Dictionary}
  {classes resolved : Hierarchy ClassDetails} {objects : Hierarchy ObjectDetails}

theorem outcome_load_of_registers (reached : RegistersRead tree categories dictionary) :
    ∃ version, (load tree).outcome = (do
      let classes ← (describedClasses tree).outcome
      let resolved ← (resolveClasses categories (linkAll classes)).outcome
      let objects ← (describedObjects tree).outcome
      let flattened ← (flattenObjects objects).outcome
      (joinParts version categories dictionary ((linkAll classes).get? Identifiers.baseEvent)
        resolved flattened).outcome) := by
  rcases reached with ⟨⟨version, readsVersion⟩, readsCategories, readsDictionary⟩
  refine ⟨version, ?_⟩
  rw [outcome_load, readsVersion, readsCategories, readsDictionary]
  rfl

theorem outcome_load_of_classes (reached : ClassesDescribed tree categories dictionary classes) :
    ∃ version, (load tree).outcome = (do
      let resolved ← (resolveClasses categories (linkAll classes)).outcome
      let objects ← (describedObjects tree).outcome
      let flattened ← (flattenObjects objects).outcome
      (joinParts version categories dictionary ((linkAll classes).get? Identifiers.baseEvent)
        resolved flattened).outcome) := by
  rcases outcome_load_of_registers reached.toRegistersRead with ⟨version, loads⟩
  rw [reached.describesClasses] at loads
  exact ⟨version, loads⟩

theorem outcome_load_of_resolved
    (reached : ClassesResolved tree categories dictionary classes resolved) :
    ∃ version, (load tree).outcome = (do
      let objects ← (describedObjects tree).outcome
      let flattened ← (flattenObjects objects).outcome
      (joinParts version categories dictionary ((linkAll classes).get? Identifiers.baseEvent)
        resolved flattened).outcome) := by
  rcases outcome_load_of_classes reached.toClassesDescribed with ⟨version, loads⟩
  rw [reached.resolvesClasses] at loads
  exact ⟨version, loads⟩

theorem outcome_load_of_objects
    (reached : ObjectsResolved tree categories dictionary classes resolved objects) :
    ∃ version, (load tree).outcome =
      (joinParts version categories dictionary ((linkAll classes).get? Identifiers.baseEvent)
        resolved objects).outcome := by
  rcases outcome_load_of_resolved reached.toClassesResolved with ⟨version, loads⟩
  rcases reached.resolvesObjects with ⟨described, describes, flattens⟩
  rw [describes, Report.ok_bind, flattens] at loads
  exact ⟨version, loads⟩

/-- An escape is what loading ends with. -/
theorem outcome_of_escape (steady : tree.source.Steady) {failure : Failure}
    (escape : Escape tree failure) :
    (load tree).outcome = .error failure ∧ failure.isSchemaFault = false := by
  cases escape with
  | integer path asked oversized =>
      exact ⟨(reading_loadWith steady [] Session.faithful_nil).stops ⟨path, asked, oversized⟩, rfl⟩
  | classLayer categories dictionary declared reached declares first =>
      rcases outcome_load_of_registers reached with ⟨version, loads⟩
      rw [loads, describedClasses, Report.outcome_bind, declares, Report.ok_bind,
        (describeAll_eq_layer_iff steady).2 first]
      exact ⟨rfl, rfl⟩
  | codes categories dictionary classes flattened _ reached flattens first shape =>
      rcases outcome_load_of_classes reached with ⟨version, loads⟩
      have numbers := SchemaTree.writable_of_categories reached.readsCategories
      rw [loads, (resolveClasses_eq_error_iff numbers).2 (Or.inr ⟨flattened, flattens, first⟩)]
      exact ⟨rfl, shape⟩
  | objectLayer categories dictionary classes resolved declared reached declares first =>
      rcases outcome_load_of_resolved reached with ⟨version, loads⟩
      rw [loads, describedObjects, Report.outcome_bind, declares, Report.ok_bind,
        (describeAll_eq_layer_iff steady).2 first]
      exact ⟨rfl, rfl⟩
  | references categories dictionary classes resolved objects _ reached first =>
      rcases outcome_load_of_objects reached with ⟨version, loads⟩
      refine ⟨loads.trans (joinParts_eq_error_iff.2 first), ?_⟩
      rcases first with ⟨_, _, _, _, _, fault⟩
      exact fault.isSchemaFault_eq_false

/-- Loading ends with an escape or as it is meant to. -/
theorem escape_iff (steady : tree.source.Steady) {failure : Failure} :
    Escape tree failure ↔
      (load tree).outcome = .error failure ∧ failure.isSchemaFault = false := by
  refine ⟨outcome_of_escape steady, ?_⟩
  rintro ⟨failed, schema⟩
  have reading := reading_loadWith steady [] Session.faithful_nil
  rcases reading.fails failure failed with fault | ⟨rfl, path, asked, oversized⟩ | escape
  · rw [fault] at schema
    cases schema
  · exact .integer path asked oversized
  · exact escape

end Escapes

/-- Loading a tree in memory yields a catalog or fails through the schema exactly if
nothing escapes. -/
theorem load_meets_contract_iff (files : MemoryTree) (home : Path) (extensions : Text) :
    ((∃ catalog, (load (SchemaTree.below files.source home extensions)).outcome = .ok catalog) ∨
        ∃ failure, (load (SchemaTree.below files.source home extensions)).outcome =
          .error failure ∧ failure.isSchemaFault = true) ↔
      forall failure : Failure, ¬Escape (SchemaTree.below files.source home extensions) failure := by
  have steady : (SchemaTree.below files.source home extensions).source.Steady := files.steady
  simp only [escape_iff steady]
  cases (load (SchemaTree.below files.source home extensions)).outcome with
  | ok catalog => simp
  | error failure => cases schema : failure.isSchemaFault <;> simp [schema]

/-- A schema that lists links of its own for an attribute that nothing uses. -/
def unusedLinksTree : SchemaTree :=
  let files : MemoryTree :=
    { files :=
        [(Path.parse "/schema/version.json", "\x7b\"version\": \"1.0.0\"\x7d"),
         (Path.parse "/schema/categories.json", "\x7b\x7d"),
         (Path.parse "/schema/dictionary.json",
           "\x7b\"attributes\": \x7b\"owner\": \x7b\"object_type\": \"user\", \"_links\": 5\x7d\x7d\x7d"),
         (Path.parse "/schema/objects/user.json", "\x7b\"type\": \"user\", \"name\": \"User\"\x7d")]
      unreadable := [] }
  SchemaTree.below files.source (Path.parse "/schema") "extensions"

/-- Such links keep the schema from being loaded, and it is not said to be at
fault. -/
theorem load_unusedLinksTree :
    ¬((∃ catalog, (load unusedLinksTree).outcome = .ok catalog) ∨
      ∃ failure, (load unusedLinksTree).outcome = .error failure ∧
        failure.isSchemaFault = true) := by
  have fails : (load unusedLinksTree).outcome = .error (.unexpectedShape .items) := by
    decide +kernel
  rw [fails]
  rintro (⟨_, same⟩ | ⟨failure, same, schema⟩)
  · cases same
  · cases same
    cases schema

end Catalog
end EventSchema
