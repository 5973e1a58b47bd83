import EventSchema.Proofs.Catalog.Listings
import EventSchema.Proofs.Inheritance.Sources

namespace EventSchema

/-!
# The attributes of a catalog are well formed

What is read from files has distinct keys and integers that can be written.  Every
stage of loading keeps the attributes of descriptors so: crediting and identification
only assign fields, flattening merges definitions, and the enumerations that
identification makes are well formed themselves.
-/

namespace Attributes

variable {attributes : Attributes}

theorem wellFormed_definition (wellFormed : Json.WellFormed (.obj attributes.toFields))
    {name : Text} {definition : Fields} (held : attributes.get? name = some definition) :
    Json.WellFormed (.obj definition) := by
  have found : attributes.toFields.get? name = some (.obj definition) := by
    rw [get?_toFields, held, Option.map_some]
  exact wellFormed.of_get? found

theorem wellFormed_insert (wellFormed : Json.WellFormed (.obj attributes.toFields)) (name : Text)
    {definition : Fields} (holds : Json.WellFormed (.obj definition)) :
    Json.WellFormed (.obj (toFields (attributes.insert name definition))) := by
  rw [toFields, OrderedMap.mapValues_insert Json.obj]
  exact wellFormed.insert name holds

end Attributes

theorem Field.wellFormed_ofText? (value : Option Text) : (Field.ofText? value).WellFormed := by
  cases value <;> exact trivial

/-- A form only leaves fields out. -/
theorem Field.mem_of_mem_finish {form : Form} {fields : Fields} {entry : Text × Json}
    (member : entry ∈ form.finish fields) : entry ∈ fields := by
  cases form with
  | full => exact member
  | compact => exact List.mem_of_mem_filter member

namespace Category

/-- What holds of a category that is read from a well-formed object. -/
structure WellFormed (category : Category) : Prop where
  id : Numeral.writable category.id = true
  extra : Json.WellFormed (.obj category.extra)
  undeclared : ∀ key ∈ category.extra.keys, key ∉ declared

theorem wellFormed_declaredFields {category : Category} (wellFormed : category.WellFormed)
    (range : category.classIdRange.WellFormed) :
    ∀ entry ∈ category.declaredFields, entry.2.WellFormed := by
  simp only [declaredFields, List.forall_mem_cons]
  exact ⟨wellFormed.id, Field.wellFormed_ofText? _, Field.wellFormed_ofText? _,
    Field.wellFormed_ofText? _, range, List.forall_mem_nil _⟩

/-- A well-formed category is written as a well-formed object. -/
theorem wellFormed_toJson {category : Category} (wellFormed : category.WellFormed)
    (range : category.classIdRange.WellFormed) (form : Form) :
    (Record.toJson form category).WellFormed := by
  rcases (Json.wellFormed_obj_iff _).1 wellFormed.extra with ⟨distinct, extra⟩
  have all : OrderedMap.Distinct (category.declaredFields ++ category.extra) := by
    rw [OrderedMap.Distinct, OrderedMap.keys_append]
    refine List.Nodup.append (by decide : declared.Nodup) distinct fun key known kept => ?_
    exact wellFormed.undeclared key kept known
  refine (Json.wellFormed_obj_iff _).2 ⟨Field.distinct_finish all form, fun entry member => ?_⟩
  rcases List.mem_append.1 (Field.mem_of_mem_finish member) with own | kept
  · exact wellFormed_declaredFields wellFormed range entry own
  · exact extra entry kept

end Category

/-! ## Identification -/

namespace Identifiers

variable {attributes : Attributes} {cls : ClassDescriptor} {codes : Fields} {name : Text}
  {uid : Int}

/-- An enumeration of one code is well formed if what it says of the code is. -/
theorem wellFormed_single (code : Text) {value : Json} (holds : value.WellFormed) :
    Json.WellFormed (.obj [(code, value)]) :=
  ⟨List.nodup_singleton code, holds, trivial⟩

theorem wellFormed_named (caption name : Text) : (named caption name).WellFormed :=
  wellFormed_single "name" trivial

theorem wellFormed_dispositions (wellFormed : Json.WellFormed (.obj attributes.toFields))
    {enumerated : Fields} (listed : dispositions attributes = .ok enumerated) :
    Json.WellFormed (.obj enumerated) := by
  unfold dispositions at listed
  split at listed
  · cases listed
    exact Json.wellFormed_nil
  · next value found =>
      rcases Option.bind_eq_some_iff.mp found with ⟨definition, held, enum⟩
      have own := (Attributes.wellFormed_definition wellFormed held).of_get? enum
      split at listed
      · cases listed
        exact Json.wellFormed_nil
      · split at listed
        · cases listed
          exact own
        · cases listed

theorem wellFormed_addDisposition {caption : Text} {next : Fields} {entry : Text × Json}
    (holds : Json.WellFormed (.obj codes)) (own : entry.2.WellFormed)
    (adds : (addDisposition name caption uid codes entry).outcome = .ok next) :
    Json.WellFormed (.obj next) := by
  unfold addDisposition at adds
  split at adds
  · cases adds
    exact holds
  · split at adds
    · next definition held =>
        rw [held] at own
        rw [Report.outcome_bind] at adds
        rcases Outcome.bind_eq_ok_iff.mp adds with ⟨code, _, same⟩
        cases same
        exact holds.insert code (own.insert "name" trivial)
    · cases adds

theorem wellFormed_eventCodes (wellFormed : Json.WellFormed (.obj cls.attributes.toFields))
    (made : (eventCodes name cls uid).outcome = .ok codes) : Json.WellFormed (.obj codes) := by
  unfold eventCodes at made
  simp only [Report.outcome_bind, Report.outcome_liftM, Outcome.bind_eq_ok_iff,
    Report.outcome_pure, Report.outcome_foldlM] at made
  rcases made with ⟨enumerated, listed, disposed, folds, unknown, _, same⟩
  cases same
  have each := ((Json.wellFormed_obj_iff _).1 (wellFormed_dispositions wellFormed listed)).2
  have holds : Json.WellFormed (.obj disposed) :=
    Outcome.foldlM_invariant (motive := fun codes => Json.WellFormed (.obj codes))
      (fun entry member _ _ holds adds => wellFormed_addDisposition holds (each entry member) adds)
      Json.wellFormed_nil folds
  exact (holds.insert _ (wellFormed_named _ _)).insert unknown (wellFormed_named _ _)

theorem wellFormed_classCodes (made : classCodes cls uid = .ok codes) :
    Json.WellFormed (.obj codes) := by
  rw [eq_numberCodes made]
  apply wellFormed_single
  refine (Json.wellFormed_obj_iff _).2 ⟨(by decide : (["name", "description"] : List Text).Nodup), ?_⟩
  simp only [List.forall_mem_cons]
  exact ⟨Field.wellFormed_ofText? _, Field.wellFormed_ofText? _, List.forall_mem_nil _⟩

variable {categories : OrderedMap Text Category}

theorem wellFormed_categoryCodes (known : ∀ entry ∈ categories, entry.2.WellFormed)
    (made : categoryCodes categories cls = .ok codes) : Json.WellFormed (.obj codes) := by
  unfold categoryCodes at made
  split at made
  · cases made
  · next category found =>
      rcases Option.bind_eq_some_iff.mp found with ⟨key, _, held⟩
      rcases Outcome.bind_eq_ok_iff.mp made with ⟨code, _, same⟩
      rcases known (key, category) (OrderedMap.mem_of_get?_eq_some held) with
        ⟨id, extra, undeclared⟩
      have ranged : Category.WellFormed { category with classIdRange := .null } :=
        ⟨id, extra, undeclared⟩
      cases same
      exact wellFormed_single code (Category.wellFormed_toJson ranged trivial .compact)

theorem wellFormed_enumerate (wellFormed : Json.WellFormed (.obj attributes.toFields))
    (enumeration : Json.WellFormed (.obj codes)) (name owner : Text) :
    Json.WellFormed (.obj (enumerate attributes name owner codes)) := by
  have declared : Json.WellFormed (.obj ((attributes.get? name).getD [])) := by
    cases held : attributes.get? name with
    | none => exact Json.wellFormed_nil
    | some definition => exact Attributes.wellFormed_definition wellFormed held
  exact (declared.insert "enum" enumeration).insert Attributes.sourceKey trivial

/-- Identification keeps the attributes of a class well formed. -/
theorem wellFormed_identify (known : ∀ entry ∈ categories, entry.2.WellFormed)
    (wellFormed : Json.WellFormed (.obj cls.attributes.toFields)) {identified : ClassDescriptor}
    (identifies : (identify categories name cls uid).outcome = .ok identified) :
    Json.WellFormed (.obj identified.attributes.toFields) := by
  rcases exists_codes_of_identify identifies with
    ⟨events, own, category, made, ownMade, categoryMade, rfl⟩
  have credited := Attributes.wellFormed_creditTo wellFormed name
  have event := wellFormed_enumerate wellFormed (wellFormed_eventCodes wellFormed made)
    "event_uid" name
  have number := wellFormed_enumerate wellFormed (wellFormed_classCodes ownMade) "class_id" name
  have categorized := wellFormed_enumerate wellFormed
    (wellFormed_categoryCodes known categoryMade) "category_id" name
  exact Attributes.wellFormed_insert (Attributes.wellFormed_insert
    (Attributes.wellFormed_insert credited "event_uid" event) "class_id" number)
    "category_id" categorized

end Identifiers

/-! ## Listed entries -/

namespace Catalog

open Inheritance

section Descriptions

variable {δ : Type} [Details δ] {tree : SchemaTree}

/-- What is described has well-formed attributes. -/
theorem wellFormed_attributes_of_describe {name : Text} {fields : Fields}
    {descriptor : Descriptor δ} (keeps : Inclusion.Keeps name fields)
    (describes : (describe tree name fields).outcome = .ok descriptor) :
    Json.WellFormed (.obj descriptor.attributes.toFields) := by
  unfold describe at describes
  simp only [Report.outcome_bind, Report.outcome_liftM, Outcome.bind_eq_ok_iff] at describes
  rcases describes with ⟨expanded, expands, read, decoded, same⟩
  cases same
  have readFrom := Descriptor.readFrom_of_validate (SchemaTree.decode_eq_ok_iff.mp decoded)
  exact Attributes.wellFormed_creditTo
    (readFrom.wellFormed_attributes (keeps.of_expand expands).wellFormed) name

theorem forall_wellFormed_attributes {declared : Declarations} {descriptors : Hierarchy δ}
    (holds : SchemaTree.Declared declared)
    (describes : (describeAll tree declared).outcome = .ok descriptors) :
    ∀ entry ∈ descriptors, Json.WellFormed (.obj entry.2.attributes.toFields) := by
  intro entry member
  rcases exists_describe_of_mem holds describes member with ⟨fields, _, keeps, read⟩
  exact wellFormed_attributes_of_describe keeps read

/-- Flattening keeps attributes well formed. -/
theorem wellFormed_attributes_combineAll [Heritable δ] {own : Descriptor δ}
    {above : List (Descriptor δ)}
    (wellFormed : ∀ descriptor ∈ own :: above,
      Json.WellFormed (.obj descriptor.attributes.toFields)) :
    Json.WellFormed (.obj (own.combineAll above).attributes.toFields) := by
  induction above generalizing own with
  | nil => exact wellFormed own List.mem_cons_self
  | cons parent rest ih =>
      have upper := ih fun descriptor member =>
        wellFormed descriptor (List.mem_cons_of_mem _ member)
      have merged := Fields.wellFormed_merge upper (wellFormed own List.mem_cons_self)
      rw [← Attributes.toFields_merge] at merged
      exact merged

theorem wellFormed_attributes_of_settles [Heritable δ] {declared : Hierarchy δ}
    (wellFormed : ∀ entry ∈ declared, Json.WellFormed (.obj entry.2.attributes.toFields))
    {name : Text} {record : Descriptor δ} (settles : Settles declared name record) :
    Json.WellFormed (.obj record.attributes.toFields) := by
  rcases settles with ⟨own, above, lineage, rfl⟩
  refine wellFormed_attributes_combineAll fun descriptor member => ?_
  rcases lineage.exists_entry descriptor member with ⟨other, listed⟩
  exact wellFormed (other, descriptor) listed

end Descriptions

variable {tree : SchemaTree} {catalog : Catalog} (stages : Stages tree catalog)

include stages

theorem Stages.wellFormed_linked :
    ∀ entry ∈ linkAll stages.classes, Json.WellFormed (.obj entry.2.attributes.toFields) := by
  intro entry member
  rcases List.mem_map.1 member with ⟨source, within, rfl⟩
  exact forall_wellFormed_attributes (SchemaTree.declared_of_declarations stages.declaresClasses)
    stages.describesClasses source within

theorem Stages.wellFormed_categories :
    ∀ entry ∈ catalog.categories.entries, entry.2.WellFormed := by
  intro entry member
  rcases SchemaTree.exists_source_of_categories stages.readsCategories entry member with
    ⟨source, wellFormed, read⟩
  exact ⟨Category.writable_of_validate wellFormed read,
    Category.wellFormed_extra_of_validate wellFormed read, Category.undeclared_of_validate read⟩

theorem Stages.wellFormed_class {entry : Text × ClassDescriptor}
    (member : entry ∈ catalog.classes) :
    Json.WellFormed (.obj entry.2.attributes.toFields) := by
  rcases stages.exists_identified member with ⟨record, uid, settles, _, identifies⟩
  exact Identifiers.wellFormed_identify stages.wellFormed_categories
    (wellFormed_attributes_of_settles stages.wellFormed_linked settles) identifies

theorem Stages.wellFormed_common {shared : ClassDescriptor}
    (held : catalog.common = some shared) :
    Json.WellFormed (.obj shared.attributes.toFields) := by
  have found := stages.takesCommon.symm.trans held
  exact stages.wellFormed_linked _ (OrderedMap.mem_of_get?_eq_some found)

theorem Stages.wellFormed_object {entry : Text × ObjectDescriptor}
    (member : entry ∈ catalog.objects) :
    Json.WellFormed (.obj entry.2.attributes.toFields) := by
  rcases stages.exists_settled member with ⟨record, settles, same⟩
  have described := forall_wellFormed_attributes
    (SchemaTree.declared_of_declarations stages.declaresObjects) stages.describesObjects
  have holds := wellFormed_attributes_of_settles described settles
  rw [same]
  exact holds

end Catalog
end EventSchema
