import EventSchema.Proofs.Catalog.Listings
import EventSchema.Proofs.Record.Categories

namespace EventSchema
namespace Catalog

/-!
# Categories partition the classes

A class names the category it belongs to, and identification refuses a class whose
category is unknown.  So each class is listed under one category, the one that it
names, and each category lists, in the order of the catalog, the classes that name it.

The answer for a single category is its own record with the classes added.  It is
read from the fields of the category, which can be relied on to succeed: what was
read from a file once is read again, and the classes are records already.
-/

open Inheritance

/-- What the listing of a category shows: the category as it stands, except for an
undeclared field named `classes`, and of the classes of the catalog, in their order,
those that name the category. -/
structure Lists (catalog : Catalog) (name : Text) (category : Category)
    (listing : CategoryListing) : Prop where
  built : Record.validate (CategoryListing.sourceFields category listing.classes) =
    .valid listing
  fields : OrderedMap.erase (Record.toFields .full listing) "classes" =
    OrderedMap.erase (Record.toFields .full category) "classes"
  ordered : listing.classes.Sublist catalog.classes.values
  members : forall cls : ClassDescriptor, cls ∈ listing.classes ↔
    cls ∈ catalog.classes.values ∧ cls.details.category = some name

/-- The categories of a catalog share its classes out among them. -/
structure Partitions (catalog : Catalog) : Prop where
  answers : forall name : Text,
    (catalog.category? name).isSome = true ↔ name ∈ catalog.categories.entries.keys
  lists : forall (name : Text) (category : Category) (listing : CategoryListing),
    catalog.categories.entries.get? name = some category ->
    catalog.category? name = some listing -> Lists catalog name category listing
  covers : ∀ cls ∈ catalog.classes.values, ∃ name listing,
    cls.details.category = some name ∧ catalog.category? name = some listing ∧
      listing.classes.count cls = 1 ∧
      forall (other : Text) (others : CategoryListing),
        catalog.category? other = some others -> cls ∈ others.classes -> other = name

/-! ## Records of listed classes -/

/-- Identification keeps a class well formed. -/
theorem wellFormed_identify {categories : OrderedMap Text Category} {name : Text}
    {cls identified : ClassDescriptor} {uid : Int} (wellFormed : cls.WellFormed)
    (identifies : (Identifiers.identify categories name cls uid).outcome = .ok identified) :
    identified.WellFormed := by
  rcases Identifiers.exists_codes_of_identify identifies with ⟨_, _, _, _, _, _, rfl⟩
  refine ⟨?_, wellFormed.extra, wellFormed.undeclared, wellFormed.characters⟩
  have credited : (cls.attributes.creditTo name).Distinct := by
    rw [OrderedMap.Distinct, keys_creditTo]
    exact wellFormed.attributes
  exact ((credited.insert _ _).insert _ _).insert _ _

section Stages

variable {tree : SchemaTree} {catalog : Catalog} (stages : Stages tree catalog)

include stages

theorem Stages.wellFormedRecord_class {entry : Text × ClassDescriptor}
    (member : entry ∈ catalog.classes) : entry.2.WellFormed := by
  rcases stages.exists_identified member with ⟨record, uid, settles, _, identifies⟩
  have linked := wellFormed_linkAll stages.describedClasses.wellFormed
  exact wellFormed_identify (settles.wellFormed linked.records) identifies

/-- Since each stands under its type, no two listed classes are the same record. -/
theorem Stages.nodup_values_classes : catalog.classes.values.Nodup := by
  have typed : catalog.classes.values.map Descriptor.type = catalog.classes.keys := by
    rw [OrderedMap.values, List.map_map, OrderedMap.keys]
    exact List.map_congr_left fun entry member => (stages.listedClass member).type
  exact List.Nodup.of_map Descriptor.type (typed ▸ stages.nodup_classes)

theorem Stages.listedValue {cls : ClassDescriptor} (member : cls ∈ catalog.classes.values) :
    cls.WellFormed ∧ ∃ category, cls.details.category = some category ∧
      category ∈ catalog.categories.entries.keys := by
  rcases List.mem_map.1 member with ⟨entry, listed, rfl⟩
  exact ⟨stages.wellFormedRecord_class listed, (stages.listedClass listed).category⟩

/-! ## Listings -/

/-- The fields that a category keeps can be read again. -/
theorem Stages.readable_category {name : Text} {category : Category}
    (found : catalog.categories.entries.get? name = some category) :
    (∀ key ∈ category.extra.keys, key ∉ Category.declared) ∧
      ∀ key ∈ category.extra.keys, key.hasHalf = false := by
  rcases SchemaTree.exists_source_of_categories stages.readsCategories _
    (OrderedMap.mem_of_get?_eq_some found) with ⟨source, _, validates⟩
  exact ⟨Category.undeclared_of_validate validates, Category.characters_of_validate validates⟩

theorem Stages.lists {name : Text} {category : Category} {listing : CategoryListing}
    (found : catalog.categories.entries.get? name = some category)
    (answers : catalog.category? name = some listing) :
    Lists catalog name category listing := by
  have same : listing = CategoryListing.ofMembers category (catalog.members name) := by
    rw [category?, found] at answers
    exact (Option.some.inj answers).symm
  rw [same]
  rcases stages.readable_category found with ⟨undeclared, characters⟩
  constructor
  case built =>
    apply CategoryListing.validate_sourceFields undeclared characters
    intro cls member
    exact (stages.listedValue ((catalog.mem_members name cls).1 member).1).1
  case fields => exact CategoryListing.erase_toFields_ofMembers category (catalog.members name)
  case ordered => exact List.filter_sublist
  case members => exact catalog.mem_members name

theorem Stages.partitions : Partitions catalog := by
  have answers : forall name : Text, (catalog.category? name).isSome = true ↔
      name ∈ catalog.categories.entries.keys := by
    intro name
    rw [category?, Option.isSome_map, OrderedMap.get?_isSome_iff]
  have found : forall (name : Text) (listing : CategoryListing),
      catalog.category? name = some listing ->
        ∃ category, catalog.categories.entries.get? name = some category ∧
          Lists catalog name category listing := by
    intro name listing answer
    rcases Option.map_eq_some_iff.mp answer with ⟨category, known, _⟩
    exact ⟨category, known, stages.lists known answer⟩
  refine ⟨answers, fun name category listing => stages.lists, fun cls member => ?_⟩
  rcases (stages.listedValue member).2 with ⟨name, names, known⟩
  rcases Option.isSome_iff_exists.1 ((answers name).2 known) with ⟨listing, answer⟩
  rcases found name listing answer with ⟨category, _, lists⟩
  refine ⟨name, listing, names, answer, ?_, fun other others again within => ?_⟩
  · exact List.count_eq_one_of_mem (stages.nodup_values_classes.sublist lists.ordered)
      ((lists.members cls).2 ⟨member, names⟩)
  · rcases found other others again with ⟨_, _, others⟩
    exact Option.some.inj (((others.members cls).1 within).2.symm.trans names)

end Stages

/-- The categories of a loaded catalog share its classes out among them: each class is
listed once, under the category that it names. -/
theorem load_partitions_classes (tree : SchemaTree) (catalog : Catalog)
    (loads : (load tree).outcome = .ok catalog) : Partitions catalog := by
  rcases exists_stages loads with ⟨stages⟩
  exact stages.partitions

/-- A schema of two categories and three classes, one of which inherits its category.
One category has an undeclared field that is named like its classes. -/
def categorizedTree : SchemaTree :=
  let files : MemoryTree :=
    { files :=
        [(Path.parse "s/categories.json",
           "\x7b\"attributes\": \x7b\"net\": \x7b\"id\": 4, \"owner\": \"core\", \"classes\": 1\x7d,
             \"host\": \x7b\"id\": 5\x7d\x7d\x7d"),
         (Path.parse "s/dictionary.json", "\x7b\x7d"),
         (Path.parse "s/events/boot.json",
           "\x7b\"type\": \"boot\", \"uid\": 3, \"category\": \"host\"\x7d"),
         (Path.parse "s/events/flow.json",
           "\x7b\"type\": \"flow\", \"uid\": 1, \"category\": \"net\"\x7d"),
         (Path.parse "s/events/scan.json",
           "\x7b\"type\": \"scan\", \"extends\": \"flow\", \"uid\": 2\x7d")]
      unreadable := [] }
  SchemaTree.below files.source (Path.parse "s") "extensions"

/-- The names of what a listing keeps of its category beside the declared fields, and the
types of its classes. -/
def listingRow (listing : CategoryListing) : List Text × List Text :=
  (listing.category.extra.keys, listing.classes.map Descriptor.type)

/-- Both categories answer, with two classes and with one. -/
theorem load_partitions_classes_of_two_categories :
    ∃ catalog net host, (load categorizedTree).outcome = .ok catalog ∧
      catalog.category? "net" = some net ∧ catalog.category? "host" = some host ∧
      listingRow net = ((["owner"], ["flow", "scan"]) : List Text × List Text) ∧
      listingRow host = (([], ["boot"]) : List Text × List Text) ∧ Partitions catalog := by
  have computed : (load categorizedTree).outcome.toOption.map (fun catalog =>
      (["net", "host"] : List Text).map fun name => (catalog.category? name).map listingRow) =
        some ([some (["owner"], ["flow", "scan"]), some ([], ["boot"])] :
          List (Option (List Text × List Text))) := by
    decide +kernel
  rcases Option.map_eq_some_iff.mp computed with ⟨catalog, loaded, rows⟩
  rcases List.cons_eq_cons.1 rows with ⟨first, rest⟩
  rcases Option.map_eq_some_iff.mp first with ⟨net, netAnswers, netRow⟩
  rcases Option.map_eq_some_iff.mp (List.cons_eq_cons.1 rest).1 with
    ⟨host, hostAnswers, hostRow⟩
  have loads : (load categorizedTree).outcome = .ok catalog :=
    Outcome.toOption_eq_some_iff.mp loaded
  exact ⟨catalog, net, host, loads, netAnswers, hostAnswers, netRow, hostRow,
    load_partitions_classes categorizedTree catalog loads⟩

end Catalog
end EventSchema
