import EventSchema.Proofs.Catalog.Listings
import EventSchema.Proofs.Inclusion.Origins
import EventSchema.Proofs.Inheritance.Sources

namespace EventSchema
namespace Catalog

/-!
# Who declares the attributes of listed entries

Attributes are credited twice: to each descriptor once its fragments are included,
and to each class once it is flattened.  In between, the definitions of an
attribute are merged along the lineage, their sources among them.  Where no
source is an object, this credits every attribute to the nearest descriptor
which has it, or to the source that its definition names there.
-/

open Inheritance Attributes

/-! ## Credit along a chain -/

/-- A raw descriptor that is declared, laid over the fragments it includes. -/
def Expands (tree : SchemaTree) (declared : Declarations) (name : Text) (expanded : Fields) :
    Prop :=
  ∃ fields, declared.get? name = some fields ∧
    (Inclusion.expand (Inclusion.readFragment tree) name fields).outcome = .ok expanded

/-- The source of an attribute along a chain of names, the nearest first.  It is
decided by the first of them whose expanded descriptor has the attribute: a source
that is named there is kept, and otherwise it is that descriptor. -/
inductive CreditedBy (tree : SchemaTree) (declared : Declarations) (name : Text) :
    (chain : List Text) -> (source : Json) -> Prop where
  | nearest {nearest : Text} {above : List Text} {expanded definition : Fields}
      (expands : Expands tree declared nearest expanded)
      (has : (Json.obj expanded).at? ["attributes", name] = some (.obj definition)) :
      CreditedBy tree declared name (nearest :: above)
        ((definition.get? sourceKey).getD (.str nearest))
  | above {nearest : Text} {above : List Text} {expanded : Fields} {source : Json}
      (expands : Expands tree declared nearest expanded)
      (lacks : (Json.obj expanded).at? ["attributes", name] = none)
      (rest : CreditedBy tree declared name above source) :
      CreditedBy tree declared name (nearest :: above) source

/-- Attributes all of which name a source; but for some, it is decided along a
chain. -/
def SourcesFollow (tree : SchemaTree) (declared : Declarations) (chain made : List Text)
    (attributes : Attributes) : Prop :=
  forall (name : Text) (definition : Fields), attributes.get? name = some definition ->
    ∃ source, definition.get? sourceKey = some source ∧
      (name ∉ made -> CreditedBy tree declared name chain source)

/-- No file holds an object as a source where it declares an attribute, nor at its
root, from where it may be included in one. -/
structure PlainSources (tree : SchemaTree) : Prop where
  atRoot : ¬tree.Shows [sourceKey] none
  inAttributes : forall name : Text, ¬tree.Shows (Inclusion.inAttribute name [sourceKey]) none

/-! ## Described descriptors -/

section Descriptions

variable {δ : Type} [Details δ] {tree : SchemaTree} {declared : Declarations}

/-- A descriptor that is described by an expanded object: it has the attributes of
the object, credited to it. -/
structure DescribedBy (tree : SchemaTree) (declared : Declarations) (descriptor : Descriptor δ)
    (expanded : Fields) (attributes : Attributes) : Prop where
  expands : Expands tree declared descriptor.type expanded
  places : forall name : Text,
    (Json.obj expanded).at? ["attributes", name] = (attributes.get? name).map Json.obj
  credited : descriptor.attributes = attributes.creditTo descriptor.type

/-- What an object shows among its attributes, the attributes read from it show. -/
theorem at?_attributes {fields : Fields} {descriptor : Descriptor δ}
    (read : descriptor.ReadFrom fields) (name : Text) (rest : List Text) :
    (Json.obj fields).at? (Inclusion.inAttribute name rest) =
      (Json.obj descriptor.attributes.toFields).at? (name :: rest) := by
  rw [Inclusion.inAttribute, Json.at?_obj_cons]
  rcases read.attributes_eq with ⟨absent, none⟩ | found
  · rw [absent, none]
    rfl
  · rw [found]
    rfl

/-- No source is an object in what is expanded from files that hold none. -/
theorem isObject_source_of_expand {name : Text} {fields expanded : Fields}
    {descriptor : Descriptor δ} (plain : PlainSources tree)
    (keeps : Inclusion.Keeps name fields) (origins : tree.FromFiles fields)
    (expands : (Inclusion.expand (Inclusion.readFragment tree) name fields).outcome = .ok expanded)
    (read : descriptor.ReadFrom expanded) {attributeName : Text} {source : Json}
    (found : descriptor.attributes.fieldOf? attributeName sourceKey = some source) :
    source.isObject = false := by
  have shows : Json.shown? (.obj expanded) (Inclusion.inAttribute attributeName [sourceKey]) =
      some source.leaf? := by
    rw [Json.shown?, at?_attributes read, at?_toFields, found, Option.map_some]
  by_contra object
  rw [Bool.not_eq_false] at object
  rw [Json.leaf?_eq_none_iff.mpr object] at shows
  rcases Inclusion.shows_of_expand keeps origins expands shows with there | ⟨_, _, same, included⟩
  · exact plain.inAttributes attributeName there
  · cases same
    exact plain.atRoot included

/-- A descriptor that comes from an expanded object and whose attributes all name their
sources. -/
structure Sourced (tree : SchemaTree) (declared : Declarations) (descriptor : Descriptor δ) :
    Prop where
  credited : descriptor.attributes.Credited
  described : ∃ expanded attributes, DescribedBy tree declared descriptor expanded attributes

/-- Where files hold no objects as sources, what is described is sourced. -/
theorem sourced_of_describe {name : Text} {fields : Fields} {descriptor : Descriptor δ}
    (plain : PlainSources tree) (found : declared.get? name = some fields)
    (keeps : Inclusion.Keeps name fields) (origins : tree.FromFiles fields)
    (describes : (describe tree name fields).outcome = .ok descriptor) :
    Sourced tree declared descriptor := by
  have type := (wellFormed_of_describe keeps describes).2
  unfold describe at describes
  simp only [Report.outcome_bind, Report.outcome_liftM, Outcome.bind_eq_ok_iff] at describes
  rcases describes with ⟨expanded, expands, read, decoded, same⟩
  cases same
  have kept := keeps.of_expand expands
  have readFrom := Descriptor.readFrom_of_validate (SchemaTree.decode_eq_ok_iff.mp decoded)
  constructor
  · exact credited_creditTo (readFrom.wellFormed_attributes kept.wellFormed)
      (fun attributeName source held =>
        isObject_source_of_expand plain keeps origins expands readFrom held) name
  · refine ⟨expanded, read.attributes, ⟨fields, type ▸ found, type ▸ expands⟩, ?_, ?_⟩
    · intro attributeName
      refine (at?_attributes readFrom attributeName []).trans ?_
      rw [Json.at?_obj_cons, get?_toFields]
      cases read.attributes.get? attributeName with
      | none => rfl
      | some definition => rfl
    · exact congrArg (fun owner => read.attributes.creditTo owner) type.symm

/-- All descriptions of one kind are sourced. -/
theorem forall_sourced {folder : Text} {descriptors : Hierarchy δ}
    (plain : PlainSources tree) (declares : (tree.declarations folder).outcome = .ok declared)
    (describes : (describeAll tree declared).outcome = .ok descriptors) :
    ∀ entry ∈ descriptors, Sourced tree declared entry.2 := by
  intro entry member
  have holds := SchemaTree.declared_of_declarations declares
  have origins := SchemaTree.fromFiles_of_declarations declares
  rcases exists_describe_of_mem holds describes member with ⟨fields, within, keeps, read⟩
  have found := holds.distinct.get?_eq_some_iff.mpr within
  exact sourced_of_describe plain found keeps (origins (entry.1, fields) within) read

omit [Details δ] in
/-- The nearest source along a chain of descriptions is that of the nearest expanded
object which has the attribute. -/
theorem creditedBy_of_findSome? {chain : List (Descriptor δ)}
    (sourced : ∀ descriptor ∈ chain, Sourced tree declared descriptor)
    {name : Text} {source : Json}
    (found : chain.findSome? (fun descriptor => descriptor.attributes.fieldOf? name sourceKey) =
      some source) :
    CreditedBy tree declared name (chain.map Descriptor.type) source := by
  induction chain with
  | nil => cases found
  | cons own rest ih =>
      rcases (sourced own List.mem_cons_self).described with ⟨expanded, attributes, comes⟩
      have places := comes.places name
      have stamped := fieldOf?_creditTo_source attributes own.type name
      rw [← comes.credited] at stamped
      rw [findSome?_cons_eq_or, stamped] at found
      cases held : attributes.get? name with
      | some definition =>
          rw [held] at found places
          cases found
          exact .nearest comes.expands places
      | none =>
          rw [held] at found places
          refine .above comes.expands places (ih ?_ found)
          exact fun descriptor member => sourced descriptor (List.mem_cons_of_mem _ member)

variable [Heritable δ]

/-- The attributes of a record follow the chain of its descriptors. -/
theorem sourcesFollow_combineAll {own : Descriptor δ} {above : List (Descriptor δ)}
    (sourced : ∀ descriptor ∈ own :: above, Sourced tree declared descriptor) :
    (own.combineAll above).attributes.Credited ∧
      SourcesFollow tree declared ((own :: above).map Descriptor.type) []
        (own.combineAll above).attributes := by
  have each : ∀ descriptor ∈ own :: above, descriptor.attributes.Credited :=
    fun descriptor member => (sourced descriptor member).credited
  rcases Descriptor.credited_combineAll each with ⟨credited, sources⟩
  refine ⟨credited, fun name definition found => ?_⟩
  rcases credited.sources name definition found with ⟨source, held, _⟩
  refine ⟨source, held, fun _ => creditedBy_of_findSome? sourced ?_⟩
  rw [← sources, fieldOf?, found, Option.bind_some, held]

end Descriptions

/-! ## Listed entries -/

section Stages

variable {tree : SchemaTree} {catalog : Catalog} (stages : Stages tree catalog)

include stages

/-- Linking related classes leaves descriptions what they are. -/
theorem Stages.forall_linked_sourced (plain : PlainSources tree) :
    ∀ entry ∈ linkAll stages.classes, Sourced tree stages.declaredClasses entry.2 := by
  intro entry member
  rcases List.mem_map.1 member with ⟨source, within, rfl⟩
  rcases forall_sourced plain stages.declaresClasses stages.describesClasses source within with
    ⟨credited, expanded, attributes, comes⟩
  exact ⟨credited, expanded, attributes, comes.expands, comes.places, comes.credited⟩

/-- Identification credits nothing that was inherited to the class itself. -/
theorem Stages.sourcesFollow_class (plain : PlainSources tree)
    {entry : Text × ClassDescriptor} (member : entry ∈ catalog.classes) :
    ∃ chain, Lineage stages.classes entry.1 chain ∧
      SourcesFollow tree stages.declaredClasses (chain.map Descriptor.type)
        Identifiers.madeNames entry.2.attributes := by
  rcases stages.exists_identified member with
    ⟨_, uid, ⟨own, above, lineage, rfl⟩, numbered, identifies⟩
  have undeclared := SchemaTree.undeclared_of_categories stages.readsCategories
  have identified := Identifiers.identified_of_identify undeclared numbered identifies
  have sourced : ∀ descriptor ∈ own :: above, Sourced tree stages.declaredClasses descriptor := by
    intro descriptor within
    rcases lineage.exists_entry descriptor within with ⟨other, listed⟩
    exact stages.forall_linked_sourced plain (other, descriptor) listed
  rcases sourcesFollow_combineAll sourced with ⟨credited, follow⟩
  rcases lineage_linkAll_iff.mp lineage with ⟨chain, ofChain, same⟩
  have types : (own :: above).map Descriptor.type = chain.map Descriptor.type := by
    rw [same, List.map_map]
    rfl
  refine ⟨chain, ofChain, fun name definition found => ?_⟩
  by_cases made : name ∈ Identifiers.madeNames
  · exact ⟨_, identified.source made found, fun other => absurd made other⟩
  · rw [Identifiers.get?_attributes_of_identify identifies made, credited.get?_creditTo] at found
    rcases follow name definition found with ⟨source, held, decides⟩
    exact ⟨source, held, fun _ => types ▸ decides List.not_mem_nil⟩

theorem Stages.sourcesFollow_object (plain : PlainSources tree)
    {entry : Text × ObjectDescriptor} (member : entry ∈ catalog.objects) :
    ∃ chain, Lineage stages.objects entry.1 chain ∧
      SourcesFollow tree stages.declaredObjects (chain.map Descriptor.type) []
        entry.2.attributes := by
  rcases stages.exists_settled member with ⟨_, ⟨own, above, lineage, rfl⟩, same⟩
  refine ⟨own :: above, lineage, ?_⟩
  rw [same]
  refine (sourcesFollow_combineAll fun descriptor within => ?_).2
  rcases lineage.exists_entry descriptor within with ⟨other, listed⟩
  exact forall_sourced plain stages.declaresObjects stages.describesObjects
    (other, descriptor) listed

/-- The common set is not flattened, so it answers for its attributes alone. -/
theorem Stages.sourcesFollow_common (plain : PlainSources tree) {shared : ClassDescriptor}
    (held : catalog.common = some shared) :
    SourcesFollow tree stages.declaredClasses [Identifiers.baseEvent] [] shared.attributes := by
  have found := stages.takesCommon.symm.trans held
  have type := stages.typed_linkAll _ _ found
  have sourced : ∀ descriptor ∈ [shared], Sourced tree stages.declaredClasses descriptor := by
    intro descriptor within
    cases List.mem_singleton.1 within
    exact stages.forall_linked_sourced plain _ (OrderedMap.mem_of_get?_eq_some found)
  have follow := (sourcesFollow_combineAll sourced).2
  rw [List.map_singleton, type] at follow
  exact follow

end Stages

/-- What the attributes of a catalog say of their sources.  But for those that
identification makes, the lineage of an entry decides; the common set has no
lineage but itself. -/
structure CreditsAttributes (tree : SchemaTree) (catalog : Catalog)
    (declaredClasses declaredObjects : Declarations) (classes : Hierarchy ClassDetails)
    (objects : Hierarchy ObjectDetails) : Prop where
  classes : ∀ entry ∈ catalog.classes, ∃ chain, Lineage classes entry.1 chain ∧
    SourcesFollow tree declaredClasses (chain.map Descriptor.type) Identifiers.madeNames
      entry.2.attributes
  objects : ∀ entry ∈ catalog.objects, ∃ chain, Lineage objects entry.1 chain ∧
    SourcesFollow tree declaredObjects (chain.map Descriptor.type) [] entry.2.attributes
  common : forall shared : ClassDescriptor, catalog.common = some shared ->
    SourcesFollow tree declaredClasses [Identifiers.baseEvent] [] shared.attributes

/-- Every attribute of a listed class, a listed object and the common set names a
source, and it is decided by the nearest descriptor on the lineage whose expanded
attributes have it. -/
theorem load_credits_attributes (tree : SchemaTree) (catalog : Catalog)
    (plain : PlainSources tree) (loads : (load tree).outcome = .ok catalog) :
    ∃ (declaredClasses declaredObjects : Declarations) (classes : Hierarchy ClassDetails)
        (objects : Hierarchy ObjectDetails),
      tree.classDeclarations.outcome = .ok declaredClasses ∧
      (describeAll tree declaredClasses).outcome = .ok classes ∧
      tree.objectDeclarations.outcome = .ok declaredObjects ∧
      (describeAll tree declaredObjects).outcome = .ok objects ∧
      CreditsAttributes tree catalog declaredClasses declaredObjects classes objects := by
  rcases exists_stages loads with ⟨stages⟩
  exact ⟨stages.declaredClasses, stages.declaredObjects, stages.classes, stages.objects,
    stages.declaresClasses, stages.describesClasses, stages.declaresObjects,
    stages.describesObjects, ⟨fun _ member => stages.sourcesFollow_class plain member,
      fun _ member => stages.sourcesFollow_object plain member,
      fun _ held => stages.sourcesFollow_common plain held⟩⟩

/-! ## Files without objects as sources -/

/-- Whether an object holds no object as a source in any place that counts. -/
def hasPlainSources (fields : Fields) : Bool :=
  (Json.obj fields).shown? [sourceKey] ≠ some none &&
    match fields.get? "attributes" with
    | some (.obj attributes) => attributes.all fun entry => entry.2.shown? [sourceKey] ≠ some none
    | _ => true

/-- Whether all files of a tree in memory are free of objects as sources. -/
def allPlainSources (files : MemoryTree) : Bool :=
  files.files.all fun entry =>
    match Json.read entry.2 with
    | .ok (.obj fields) => hasPlainSources fields
    | _ => true

theorem not_shown?_of_hasPlainSources {fields : Fields} (plain : hasPlainSources fields = true) :
    Json.shown? (.obj fields) [sourceKey] ≠ some none ∧
      forall name : Text,
        Json.shown? (.obj fields) (Inclusion.inAttribute name [sourceKey]) ≠ some none := by
  rw [hasPlainSources, Bool.and_eq_true, decide_eq_true_eq] at plain
  refine ⟨plain.1, fun name shows => ?_⟩
  rw [Inclusion.inAttribute, Json.shown?_obj_cons] at shows
  rcases Option.bind_eq_some_iff.mp shows with ⟨value, held, inner⟩
  have each := plain.2
  rw [held] at each
  cases value with
  | obj attributes =>
      rw [Json.shown?_obj_cons] at inner
      rcases Option.bind_eq_some_iff.mp inner with ⟨definition, found, source⟩
      have own := List.all_eq_true.mp each _ (OrderedMap.mem_of_get?_eq_some found)
      rw [decide_eq_true_eq] at own
      exact own source
  | _ => cases inner

theorem plainSources_of_memory {files : MemoryTree} (plain : allPlainSources files = true)
    (home : Path) (extensions : Text) :
    PlainSources (SchemaTree.below files.source home extensions) := by
  have each : forall (path : List Text), (forall fields : Fields, hasPlainSources fields = true ->
      Json.shown? (.obj fields) path ≠ some none) ->
      ¬(SchemaTree.below files.source home extensions).Shows path none := by
    rintro path free ⟨file, fields, reads, shows⟩
    rcases SchemaTree.readObject_eq_ok_iff.mp reads with ⟨text, stored, read⟩
    refine free fields ?_ shows
    have listed : files.files.get? file = some text := MemoryTree.read_eq_ok_iff.mp stored
    have checked := List.all_eq_true.mp plain _ (OrderedMap.mem_of_get?_eq_some listed)
    rw [read] at checked
    exact checked
  exact ⟨each _ fun fields plain => (not_shown?_of_hasPlainSources plain).1,
    fun name => each _ fun fields plain => (not_shown?_of_hasPlainSources plain).2 name⟩

/-- A schema whose class takes one attribute from its parent, another through a fragment
that names a source, and lays its own definition over a third. -/
def inheritedSourcesTree : MemoryTree where
  files :=
    [(Path.parse "s/categories.json",
       "\x7b\"attributes\": \x7b\"net\": \x7b\"id\": 4\x7d\x7d\x7d"),
     (Path.parse "s/dictionary.json", "\x7b\x7d"),
     (Path.parse "s/zone.json",
       "\x7b\"attributes\": \x7b\"zone\": \x7b\"_source\": \"profile\"\x7d\x7d\x7d"),
     (Path.parse "s/events/a.json",
       "\x7b\"type\": \"flow\", \"extends\": \"base\",
         \"attributes\": \x7b\"time\": \x7b\"x\": 1\x7d\x7d\x7d"),
     (Path.parse "s/events/b.json",
       "\x7b\"type\": \"base\", \"uid\": 7, \"category\": \"net\",
         \"$include\": \"zone.json\",
         \"attributes\":
           \x7b\"time\": \x7b\"y\": 2\x7d, \"user\": \x7b\x7d, \"zone\": \x7b\x7d\x7d\x7d")]
  unreadable := []

/-- The sources of the class are itself, its parent and the one that the fragment
names. -/
theorem load_credits_attributes_inherited :
    let tree := SchemaTree.below inheritedSourcesTree.source (Path.parse "s") "extensions"
    PlainSources tree ∧
      ∃ catalog flow, (load tree).outcome = .ok catalog ∧
        catalog.classes.get? "flow" = some flow ∧
        (["time", "user", "zone"] : List Text).map (flow.attributes.fieldOf? · sourceKey) =
          [some (.str "flow"), some (.str "base"), some (.str "profile")] ∧
        ∃ (declaredClasses declaredObjects : Declarations) (classes : Hierarchy ClassDetails)
            (objects : Hierarchy ObjectDetails),
          tree.classDeclarations.outcome = .ok declaredClasses ∧
          (describeAll tree declaredClasses).outcome = .ok classes ∧
          tree.objectDeclarations.outcome = .ok declaredObjects ∧
          (describeAll tree declaredObjects).outcome = .ok objects ∧
          CreditsAttributes tree catalog declaredClasses declaredObjects classes objects := by
  intro tree
  have plain : PlainSources tree := plainSources_of_memory (by decide +kernel) _ _
  have computed : ((load tree).outcome.toOption.bind fun catalog =>
      catalog.classes.get? "flow").map (fun flow =>
        (["time", "user", "zone"] : List Text).map (flow.attributes.fieldOf? · sourceKey)) =
      some [some (.str "flow"), some (.str "base"), some (.str "profile")] := by
    decide +kernel
  rcases exists_class_of_computed computed with ⟨catalog, flow, loads, listed, sources⟩
  exact ⟨plain, catalog, flow, loads, listed, sources,
    load_credits_attributes tree catalog plain loads⟩

end Catalog
end EventSchema
