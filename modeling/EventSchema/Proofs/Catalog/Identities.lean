import EventSchema.Proofs.Catalog.Listings
import EventSchema.Proofs.Inheritance.Sources

namespace EventSchema
namespace Catalog

/-!
# The identifiers of listed classes

Every listed class comes out with the same three enumerations, whatever its files,
its parents or the fragments they include say of these attributes.  Its number
and its category may come from different ancestors, and the enumerations follow
the class as it is listed.

Only the enumeration and the source of an attribute are replaced.  All else is
what the descriptors on the lineage declare, merged from the root down.
-/

open Inheritance

/-- The field of an attribute that the descriptors of a lineage declare together,
the nearest descriptor first. -/
def declaredField {δ : Type} (chain : List (Descriptor δ)) (name key : Text) : Option Json :=
  (Json.obj (Fields.mergeAll (chain.reverse.map Descriptor.attributeFields))).at? [name, key]

/-- What a record says of its attributes is what its lineage declares. -/
theorem fieldOf?_combineAll {δ : Type} [Details δ] [Heritable δ] {own : Descriptor δ}
    {above : List (Descriptor δ)}
    (wellFormed : ∀ descriptor ∈ own :: above, descriptor.WellFormed) :
    Attributes.fieldOf? (own.combineAll above).attributes = declaredField (own :: above) := by
  funext name key
  have merged := Descriptor.attributeFields_combineAll wellFormed
  rw [declaredField, ← merged]
  exact (Attributes.at?_toFields _ name key).symm

/-- Every listed class has its enumerations, over what its lineage declares. -/
theorem Stages.identified {tree : SchemaTree} {catalog : Catalog} (stages : Stages tree catalog)
    {entry : Text × ClassDescriptor} (member : entry ∈ catalog.classes) :
    ∃ chain, Lineage stages.classes entry.1 chain ∧
      Identifiers.Identified catalog.categories.entries entry.1 (declaredField chain) entry.2 := by
  rcases stages.exists_identified member with
    ⟨_, uid, ⟨own, above, lineage, rfl⟩, numbered, identifies⟩
  have linked := wellFormed_linkAll stages.describedClasses.wellFormed
  have undeclared := SchemaTree.undeclared_of_categories stages.readsCategories
  have holds := Identifiers.identified_of_identify undeclared numbered identifies
  rw [fieldOf?_combineAll (lineage.wellFormed linked.records)] at holds
  rcases lineage_linkAll_iff.mp lineage with ⟨chain, described, same⟩
  -- Linking related classes alters no attribute.
  have alike : declaredField (own :: above) = declaredField chain := by
    funext name key
    rw [same, declaredField, ← List.map_reverse, List.map_map]
    rfl
  exact ⟨chain, described, alike ▸ holds⟩

end Catalog
end EventSchema
