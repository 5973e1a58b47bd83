import EventSchema.Proofs.Catalog.Listings
import EventSchema.Proofs.Inclusion.Addition

namespace EventSchema
namespace Catalog

/-!
# What extensions cannot reach

An extension adds classes and objects to a schema.  What the schema lists by itself is
listed with the extension, too, and each entry is the same but for the links of objects,
which tell who uses them.

An entry is made of what its files and the fragments they include say, of its lineage and
of the classes that it names as related.  The files and the fragments of the schema are
what they were (`SchemaTree.Enlarges`), so no name of the schema gets another description.
A lineage that ended among the descriptions of the schema does not go on.  Only a related
class may come to be a class where there was none, and this is what has to be excluded.
-/

open Inheritance

/-! ## Descriptions -/

section Descriptions

variable {δ : Type} [Details δ] {tree : SchemaTree} {declared : Declarations}
  {descriptors : Hierarchy δ}

/-- What is described under a name is what the name declares. -/
theorem get?_describeAll_eq_some_iff (holds : SchemaTree.Declared declared)
    (describes : (describeAll tree declared).outcome = .ok descriptors) {name : Text}
    {descriptor : Descriptor δ} :
    descriptors.get? name = some descriptor ↔
      ∃ fields, declared.get? name = some fields ∧
        (describe tree name fields).outcome = .ok descriptor := by
  constructor
  · intro found
    rcases exists_describe_of_mem holds describes (OrderedMap.mem_of_get?_eq_some found) with
      ⟨fields, member, _, read⟩
    exact ⟨fields, holds.distinct.get?_eq_some_iff.mpr member, read⟩
  · rintro ⟨fields, found, read⟩
    rcases Outcome.exists_of_mem_right (forall₂_of_describeAll describes).flip _
      (OrderedMap.mem_of_get?_eq_some found) with ⟨⟨_, other⟩, member, same, again⟩
    cases same
    cases read.symm.trans again
    have distinct := (described_of_describeAll holds describes).wellFormed.distinct
    exact distinct.get?_eq_some_iff.mpr member

variable {memory : MemoryTree} {added : OrderedMap Path Text} {lower larger : SchemaTree}
  (enlarges : SchemaTree.Enlarges memory added lower larger) {folder : Text}
  {more : Declarations} {others : Hierarchy δ}
  (declares : (lower.declarations folder).outcome = .ok declared)
  (declaresMore : (larger.declarations folder).outcome = .ok more)
  (describes : (describeAll lower declared).outcome = .ok descriptors)
  (describesMore : (describeAll larger more).outcome = .ok others)

include enlarges

theorem keptBy_describe (name : Text) (fields : Fields) :
    Outcome.KeptBy (describe lower name fields : Report (Descriptor δ)).outcome
      (describe larger name fields).outcome := by
  unfold describe
  simp only [Report.outcome_bind]
  exact (Inclusion.keptBy_expand enlarges name fields).bind fun _ => Outcome.KeptBy.refl _

include declares declaresMore describes describesMore

/-- If no new file declares a type of the schema, descriptions stay what they are. -/
theorem within_described (apart : ∀ type ∈ larger.typesIn folder added.keys,
      type ∉ lower.typesIn folder memory.files.keys) : descriptors.Within others := by
  intro name descriptor found
  have holds := SchemaTree.declared_of_declarations declares
  have holdsMore := SchemaTree.declared_of_declarations declaresMore
  rcases (get?_describeAll_eq_some_iff holds describes).mp found with ⟨fields, held, read⟩
  exact (get?_describeAll_eq_some_iff holdsMore describesMore).mpr
    ⟨fields, enlarges.get?_of_declarations apart declares declaresMore held,
      keptBy_describe enlarges name fields descriptor read⟩

/-- A name that nothing describes is only described if a new file declares it. -/
theorem get?_described_eq_none {name : Text} (other : name ∉ larger.typesIn folder added.keys)
    (missing : descriptors.get? name = none) : others.get? name = none := by
  have keys := (described_of_describeAll (SchemaTree.declared_of_declarations declares)
    describes).keys
  have keysMore := (described_of_describeAll (SchemaTree.declared_of_declarations declaresMore)
    describesMore).keys
  rw [OrderedMap.get?_eq_none_iff] at missing ⊢
  rw [keys] at missing
  rw [keysMore, ← OrderedMap.get?_eq_none_iff,
    enlarges.get?_declarations_eq declares declaresMore other, OrderedMap.get?_eq_none_iff]
  exact missing

end Descriptions

/-! ## Related classes -/

/-- The names that the classes of a schema list as related classes. -/
def relatedNames (tree : SchemaTree) : List Text :=
  match (describedClasses tree).outcome with
  | .error _ => []
  | .ok classes => classes.values.flatMap fun cls =>
      (cls.details.seeAlso.getD []).filterMap fun
        | .link _ => none
        | .name name => some name

theorem mem_relatedNames {tree : SchemaTree} {classes : Hierarchy ClassDetails}
    (describes : (describedClasses tree).outcome = .ok classes) {entry : Text × ClassDescriptor}
    (member : entry ∈ classes) {entries : List Related}
    (held : entry.2.details.seeAlso = some entries) {name : Text}
    (listed : Related.name name ∈ entries) : name ∈ relatedNames tree := by
  unfold relatedNames
  rw [describes]
  refine List.mem_flatMap.2 ⟨entry.2, List.mem_map_of_mem member, ?_⟩
  rw [held]
  exact List.mem_filterMap.2 ⟨.name name, listed, rfl⟩

/-- A class is linked alike where the names that it lists are found alike. -/
theorem linkOne_eq {classes others : Hierarchy ClassDetails} {cls : ClassDescriptor}
    (same : forall (entries : List Related) (name : Text), cls.details.seeAlso = some entries ->
      Related.name name ∈ entries -> others.get? name = classes.get? name) :
    SeeAlso.linkOne others cls = SeeAlso.linkOne classes cls := by
  have resolves : cls.details.seeAlso.bind (SeeAlso.resolveAll others) =
      cls.details.seeAlso.bind (SeeAlso.resolveAll classes) := by
    cases held : cls.details.seeAlso with
    | none => rfl
    | some entries =>
        have each : ∀ entry ∈ entries,
            SeeAlso.resolve? others entry = SeeAlso.resolve? classes entry := by
          intro entry member
          cases entry with
          | link reference => rfl
          | name name => rw [SeeAlso.resolve?, SeeAlso.resolve?, same entries name held member]
        rw [Option.bind_some, Option.bind_some, SeeAlso.resolveAll, SeeAlso.resolveAll,
          List.filterMap_congr each]
  unfold SeeAlso.linkOne
  rw [resolves]

/-! ## Two schemas -/

theorem HasNumber.of_within {classes more : Hierarchy ClassDetails} (within : classes.Within more)
    {name : Text} (numbered : HasNumber classes name) : HasNumber more name := by
  rcases numbered with ⟨chain, lineage, descriptor, member, filled⟩
  exact ⟨chain, lineage.of_within within, descriptor, member, filled⟩

/-- New files declare none of the types of a schema, and no type that a class of the schema
lists as related. -/
structure Apart (memory : MemoryTree) (added : OrderedMap Path Text)
    (lower larger : SchemaTree) : Prop where
  classes : ∀ type ∈ larger.typesIn SchemaTree.eventsFolder added.keys,
    type ∉ lower.typesIn SchemaTree.eventsFolder memory.files.keys
  objects : ∀ type ∈ larger.typesIn SchemaTree.objectsFolder added.keys,
    type ∉ lower.typesIn SchemaTree.objectsFolder memory.files.keys
  related : ∀ type ∈ larger.typesIn SchemaTree.eventsFolder added.keys, type ∉ relatedNames lower

/-- A catalog lists what another one lists.  The version and the categories are the same,
and so is each entry, but for the links of objects. -/
structure ListedIn (catalog more : Catalog) : Prop where
  version : more.version = catalog.version
  categories : more.categories = catalog.categories
  common : forall shared : ClassDescriptor, catalog.common = some shared ->
    more.common = some shared
  classes : catalog.classes.Within more.classes
  objects : forall (name : Text) (object : ObjectDescriptor),
    catalog.objects.get? name = some object ->
      ∃ other, more.objects.get? name = some other ∧
        { other with details := object.details } = object

section Stages

variable {memory : MemoryTree} {added : OrderedMap Path Text} {lower larger : SchemaTree}
  {catalog more : Catalog} (enlarges : SchemaTree.Enlarges memory added lower larger)
  (apart : Apart memory added lower larger) (stages : Stages lower catalog)
  (others : Stages larger more)

include enlarges apart stages others

theorem Stages.within_classes : stages.classes.Within others.classes :=
  within_described enlarges stages.declaresClasses others.declaresClasses
    stages.describesClasses others.describesClasses apart.classes

theorem Stages.within_objects : stages.objects.Within others.objects :=
  within_described enlarges stages.declaresObjects others.declaresObjects
    stages.describesObjects others.describesObjects apart.objects

/-- The names that a class of the schema lists are found alike, whether they are classes of the
schema or of none. -/
theorem Stages.get?_related_eq {name : Text} (related : name ∈ relatedNames lower) :
    others.classes.get? name = stages.classes.get? name := by
  cases found : stages.classes.get? name with
  | some target => exact stages.within_classes enlarges apart others name target found
  | none =>
      exact get?_described_eq_none enlarges stages.declaresClasses others.declaresClasses
        stages.describesClasses others.describesClasses
        (fun new => apart.related name new related) found

theorem Stages.within_linkAll : (linkAll stages.classes).Within (linkAll others.classes) := by
  intro name linked found
  rw [linkAll, OrderedMap.get?_mapValues, Option.map_eq_some_iff] at found
  rcases found with ⟨cls, held, rfl⟩
  have describes : (Catalog.describedClasses lower).outcome = .ok stages.classes := by
    rw [Catalog.describedClasses, Report.outcome_bind, stages.declaresClasses, Report.ok_bind,
      stages.describesClasses]
  have same : SeeAlso.linkOne others.classes cls = SeeAlso.linkOne stages.classes cls := by
    refine linkOne_eq fun entries related lists member => ?_
    exact stages.get?_related_eq enlarges apart others
      (mem_relatedNames describes (OrderedMap.mem_of_get?_eq_some held) lists member)
  rw [linkAll, OrderedMap.get?_mapValues, stages.within_classes enlarges apart others name cls held,
    Option.map_some, same]

/-- The larger schema lists each class as it was. -/
theorem Stages.within_listedClasses (categories : more.categories = catalog.categories) :
    catalog.classes.Within more.classes := by
  intro name cls found
  have listed : name ∈ more.classes.keys := by
    have numbered := (stages.mem_keys_classes_iff.mp
      (OrderedMap.mem_keys_of_get?_eq_some found)).2
    have kept := numbered.of_within (stages.within_classes enlarges apart others)
    rcases kept with ⟨chain, lineage, numbers⟩
    rw [others.mem_keys_classes_iff, ← others.describedClasses.keys]
    exact ⟨lineage.mem_keys, chain, lineage, numbers⟩
  rcases OrderedMap.exists_get?_of_mem_keys listed with ⟨other, held⟩
  rcases stages.exists_identified (OrderedMap.mem_of_get?_eq_some found) with
    ⟨record, uid, settles, numbered, identifies⟩
  rcases others.exists_identified (OrderedMap.mem_of_get?_eq_some held) with
    ⟨again, number, settlesAgain, numberedAgain, identifiesAgain⟩
  -- The record only depends on the lineage, and identification on the record.
  cases (settles.of_within (stages.within_linkAll enlarges apart others)).unique settlesAgain
  cases numbered.symm.trans numberedAgain
  rw [categories] at identifiesAgain
  cases identifies.symm.trans identifiesAgain
  exact held

/-- The larger schema lists each object as it was, with links of its own. -/
theorem Stages.exists_listedObject {name : Text} {object : ObjectDescriptor}
    (found : catalog.objects.get? name = some object) :
    ∃ other, more.objects.get? name = some other ∧
      { other with details := object.details } = object := by
  have within := stages.within_objects enlarges apart others
  rcases stages.exists_settled (OrderedMap.mem_of_get?_eq_some found) with ⟨record, settles, same⟩
  have listed : name ∈ more.objects.keys := by
    have concrete := (stages.mem_keys_objects_iff.mp
      (OrderedMap.mem_keys_of_get?_eq_some found)).2
    rcases settles.exists_lineage with ⟨chain, lineage⟩
    rw [others.mem_keys_objects_iff, ← others.describedObjects.keys]
    exact ⟨(lineage.of_within within).mem_keys, concrete⟩
  rcases OrderedMap.exists_get?_of_mem_keys listed with ⟨other, held⟩
  rcases others.exists_settled (OrderedMap.mem_of_get?_eq_some held) with
    ⟨again, settlesAgain, sameAgain⟩
  cases (settles.of_within within).unique settlesAgain
  have replaced := congrArg (fun one : ObjectDescriptor => { one with details := object.details })
    sameAgain
  exact ⟨other, held, replaced.trans same.symm⟩

theorem Stages.listedIn : ListedIn catalog more where
  version := by
    have reads := others.readsVersion
    rw [enlarges.outcome_version_eq] at reads
    exact Except.ok.inj (reads.symm.trans stages.readsVersion)
  categories := enlarges.categories_eq stages.readsCategories others.readsCategories
  common shared held := by
    rw [others.takesCommon]
    exact stages.within_linkAll enlarges apart others _ _ (stages.takesCommon.symm.trans held)
  classes := stages.within_listedClasses enlarges apart others
    (enlarges.categories_eq stages.readsCategories others.readsCategories)
  objects _ _ found := stages.exists_listedObject enlarges apart others found

end Stages

/-- Where a schema loads with and without further files below its extensions folder, it lists
all of its classes and objects in the same way, the links of objects apart.  The files must be
new and lie over none of the version, the categories and the dictionary; they must declare no
type that the schema declares, and no class that one of its classes lists as related. -/
theorem load_isolates_extensions (memory : MemoryTree) (added : OrderedMap Path Text)
    (home : Path) (extensions : Text) (catalog more : Catalog)
    (adds : memory.Adds added (home.child extensions)
      [SchemaTree.versionFile, SchemaTree.categoriesFile, SchemaTree.dictionaryFile])
    (apart : Apart memory added (SchemaTree.below memory.source home extensions)
      (SchemaTree.below (memory.extendedBy added).source home extensions))
    (loads : (load (SchemaTree.below memory.source home extensions)).outcome = .ok catalog)
    (loadsMore : (load (SchemaTree.below (memory.extendedBy added).source home
      extensions)).outcome = .ok more) :
    ListedIn catalog more := by
  rcases exists_stages loads with ⟨stages⟩
  rcases exists_stages loadsMore with ⟨others⟩
  have enlarges : SchemaTree.Enlarges memory added (SchemaTree.below memory.source home extensions)
      (SchemaTree.below (memory.extendedBy added).source home extensions) :=
    ⟨rfl, rfl, rfl, rfl, adds⟩
  exact stages.listedIn enlarges apart others

/-- A schema of one class, which includes its category and names a related class that there
is not, and of one object, which that class uses. -/
def extendedTree : MemoryTree where
  files :=
    [(Path.parse "s/version.json", "\x7b\"version\": \"1.2\"\x7d"),
     (Path.parse "s/categories.json", "\x7b\"attributes\": \x7b\"net\": \x7b\"id\": 4\x7d\x7d\x7d"),
     (Path.parse "s/dictionary.json",
       "\x7b\"attributes\": \x7b\"actor\": \x7b\"object_type\": \"user\"\x7d\x7d\x7d"),
     (Path.parse "s/net.json", "\x7b\"category\": \"net\"\x7d"),
     (Path.parse "s/events/flow.json",
       "\x7b\"type\": \"flow\", \"uid\": 1, \"$include\": \"net.json\", \"see_also\": [\"none\"],
         \"attributes\": \x7b\"actor\": \x7b\x7d\x7d\x7d"),
     (Path.parse "s/objects/user.json", "\x7b\"type\": \"user\"\x7d")]
  unreadable := []

/-- An extension with a class that extends the other one, and with an object. -/
def scanExtension : OrderedMap Path Text :=
  [(Path.parse "s/more/events/scan.json",
     "\x7b\"type\": \"scan\", \"uid\": 2, \"extends\": \"flow\", \"see_also\": [\"flow\"]\x7d"),
   (Path.parse "s/more/objects/host.json", "\x7b\"type\": \"host\"\x7d")]

/-- The objects of a catalog with the types of their users. -/
def usersOf (catalog : Catalog) : List (Text × List Text) :=
  catalog.objects.mapValues fun _ object => (object.details.links.getD []).map Link.type

theorem adds_scanExtension : extendedTree.Adds scanExtension ((Path.parse "s").child "more")
    [SchemaTree.versionFile, SchemaTree.categoriesFile, SchemaTree.dictionaryFile] where
  fresh := by decide +kernel
  below := by decide +kernel
  named := by decide +kernel

theorem apart_scanExtension : Apart extendedTree scanExtension
    (SchemaTree.below extendedTree.source (Path.parse "s") "more")
    (SchemaTree.below (extendedTree.extendedBy scanExtension).source (Path.parse "s") "more") where
  classes := by decide +kernel
  objects := by decide +kernel
  related := by decide +kernel

/-- The new class is another user of the object that was there, and there is another object.
That is all that changes. -/
theorem load_isolates_extensions_of_user :
    ∃ catalog more,
      (load (SchemaTree.below extendedTree.source (Path.parse "s") "more")).outcome = .ok catalog ∧
      (load (SchemaTree.below (extendedTree.extendedBy scanExtension).source (Path.parse "s")
        "more")).outcome = .ok more ∧
      usersOf catalog = ([("user", ["flow"])] : List (Text × List Text)) ∧
      usersOf more = ([("user", ["flow", "scan"]), ("host", [])] : List (Text × List Text)) ∧
      ListedIn catalog more := by
  have first : (load (SchemaTree.below extendedTree.source (Path.parse "s")
      "more")).outcome.toOption.map usersOf =
        some ([("user", ["flow"])] : List (Text × List Text)) := by
    decide +kernel
  have second : (load (SchemaTree.below (extendedTree.extendedBy scanExtension).source
      (Path.parse "s") "more")).outcome.toOption.map usersOf =
        some ([("user", ["flow", "scan"]), ("host", [])] : List (Text × List Text)) := by
    decide +kernel
  rcases Option.map_eq_some_iff.mp first with ⟨catalog, loaded, users⟩
  rcases Option.map_eq_some_iff.mp second with ⟨more, loadedMore, usersMore⟩
  have loads := Outcome.toOption_eq_some_iff.mp loaded
  have loadsMore := Outcome.toOption_eq_some_iff.mp loadedMore
  exact ⟨catalog, more, loads, loadsMore, users, usersMore,
    load_isolates_extensions extendedTree scanExtension (Path.parse "s") "more" catalog more
      adds_scanExtension apart_scanExtension loads loadsMore⟩

end Catalog
end EventSchema
