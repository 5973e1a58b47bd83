import EventSchema.Inheritance
import EventSchema.Proofs.Record.ReadBack

namespace EventSchema

/-!
# A child over its parent, field by field

Laying a child over its parent writes both as objects, assigns the fields of
one to the other and reads the result as a record.  `Descriptor.combine` says
what that result is without objects: the child's value where it has one and the
parent's elsewhere, merged attributes, and no parent.

`Descriptor.inherit_eq_combine` joins the two: on well-formed descriptors the
reading never fails, and nothing is altered by it.
-/

/-! ## Attributes -/

namespace OrderedMap

variable {κ α β : Type} [DecidableEq κ]

/-- Assigning commutes with a function on the values. -/
theorem mapValues_insert (f : α -> β) (entries : OrderedMap κ α) (key : κ) (value : α) :
    (entries.insert key value).mapValues (fun _ held => f held) =
      OrderedMap.insert (entries.mapValues fun _ held => f held) key (f value) := by
  induction entries with
  | nil => rfl
  | cons entry rest ih =>
      rcases entry with ⟨known, old⟩
      by_cases same : known = key
      · simp [insert, mapValues, same]
      · simpa [insert, mapValues, same] using ih

end OrderedMap

namespace Attributes

/-- Lay attributes over others: definitions of the same attribute are merged. -/
def merge (base : Attributes) : (upper : Attributes) -> Attributes
  | [] => base
  | (name, definition) :: rest =>
      merge (base.insert name
        (match base.get? name with
          | some lower => Fields.merge lower definition
          | none => definition)) rest

/-- Attributes as the fields of an object. -/
def toFields (attributes : Attributes) : Fields :=
  attributes.mapValues fun _ definition => .obj definition

/-- No two maps of attributes have the same fields. -/
theorem toFields_injective : Function.Injective toFields := by
  apply List.map_injective_iff.mpr
  rintro ⟨name, definition⟩ ⟨other, otherDefinition⟩ same
  simpa using same

/-- Attributes are merged as the objects that they are. -/
theorem toFields_merge (base upper : Attributes) :
    toFields (merge base upper) = Fields.merge (toFields base) (toFields upper) := by
  induction upper generalizing base with
  | nil => rfl
  | cons entry rest ih =>
      rcases entry with ⟨name, definition⟩
      change toFields (merge (base.insert name _) rest) =
        Fields.merge (toFields base) ((name, .obj definition) :: toFields rest)
      rw [ih, Fields.merge_cons]
      have lower : (toFields base).get? name = (base.get? name).map Json.obj :=
        OrderedMap.get?_mapValues _ _ _
      rw [toFields, OrderedMap.mapValues_insert Json.obj, lower]
      cases base.get? name with
      | none => rfl
      | some held => rfl

theorem distinct_merge {base : Attributes} (distinct : base.Distinct) (upper : Attributes) :
    (merge base upper).Distinct := by
  induction upper generalizing base with
  | nil => exact distinct
  | cons entry rest ih => exact ih (distinct.insert _ _)

end Attributes

/-! ## Details -/

namespace Field

/-- The value of a field where an upper object is laid over a lower one: null
leaves the field open. -/
def layered (lower upper : Json) : Json :=
  if upper = .null then lower else upper

theorem layered_elim {α : Type} {write : α -> Json} (filled : ∀ inner, write inner ≠ .null)
    (lower upper : Option α) :
    layered (lower.elim .null write) (upper.elim .null write) = (upper.or lower).elim .null write := by
  cases upper with
  | none => simp [layered]
  | some inner => simp [layered, filled inner]

theorem layered_text (lower upper : Option Text) :
    layered (ofText? lower) (ofText? upper) = ofText? (upper.or lower) :=
  layered_elim (fun _ => by simp) lower upper

theorem layered_integer (lower upper : Option Int) :
    layered (ofInt? lower) (ofInt? upper) = ofInt? (upper.or lower) :=
  layered_elim (fun _ => by simp) lower upper

end Field

/-- Details that a child takes from its parent field by field. -/
class Heritable (δ : Type) [Details δ] where
  combine : (parent child : δ) -> δ
  value_combine : forall (parent child : δ), ∀ key ∈ Details.declared δ,
    Field.value (Details.toFields .compact (combine parent child)) key =
      Field.layered (Field.value (Details.toFields .compact parent) key)
        (Field.value (Details.toFields .compact child) key)

instance : Heritable ClassDetails where
  combine parent child :=
    { uid := child.uid.or parent.uid
      category := child.category.or parent.category
      seeAlso := child.seeAlso.or parent.seeAlso }
  value_combine parent child key declared := by
    simp only [Details.declared, List.mem_cons, List.not_mem_nil, or_false] at declared
    rcases declared with rfl | rfl | rfl
    · exact (Field.layered_integer parent.uid child.uid).symm
    · exact (Field.layered_text parent.category child.category).symm
    · exact (Field.layered_elim (fun _ => by simp) parent.seeAlso child.seeAlso).symm

instance : Heritable ObjectDetails where
  combine parent child := { links := child.links.or parent.links }
  value_combine parent child key declared := by
    simp only [Details.declared, List.mem_cons, List.not_mem_nil, or_false] at declared
    subst declared
    exact (Field.layered_elim (fun _ => by simp) parent.links child.links).symm

/-! ## Descriptors -/

namespace Descriptor

variable {δ : Type} [Details δ] [Heritable δ]

/-- A child laid over its parent, field by field. -/
def combine (base child : Descriptor δ) : Descriptor δ where
  type := child.type
  name := child.name.or base.name
  caption := child.caption.or base.caption
  description := child.description.or base.description
  parent := none
  attributes := Attributes.merge base.attributes child.attributes
  details := Heritable.combine base.details child.details
  extra := OrderedMap.insertAll (Form.compact.finish base.extra) (Form.compact.finish child.extra)

omit [Heritable δ] in
/-- A written field without nulls is filled. -/
theorem filled_of_get?_compact {descriptor : Descriptor δ} {key : Text} {held : Json}
    (found : OrderedMap.get? (Record.toFields .compact descriptor) key = some held) :
    held ≠ .null := by
  have member := OrderedMap.mem_of_get?_eq_some found
  rw [toFields_eq, Form.finish, List.mem_filter] at member
  simpa using member.2

section Fields

variable [LawfulDetails δ] {base child : Descriptor δ}

omit [Heritable δ]

theorem get?_inheritedFields (wellFormed : child.WellFormed) {key : Text}
    (notAttributes : key ≠ "attributes") (notParent : key ≠ "extends") :
    OrderedMap.get? (inheritedFields base child) key =
      (OrderedMap.get? (Record.toFields .compact child) key).or
        (OrderedMap.get? (Record.toFields .compact base) key) := by
  have distinct := (wellFormed.distinct_toFields .compact).erase "attributes"
  simp only [inheritedFields]
  rw [OrderedMap.get?_erase, if_neg notParent,
    OrderedMap.get?_insert_of_ne _ _ (Ne.symm notAttributes),
    OrderedMap.get?_insertAll distinct, OrderedMap.get?_erase, if_neg notAttributes]

/-- Where the child leaves a field open, the value is that of the parent. -/
theorem value_inheritedFields (baseWellFormed : base.WellFormed)
    (childWellFormed : child.WellFormed) {key : Text}
    (notAttributes : key ≠ "attributes") (notParent : key ≠ "extends") :
    Field.value (inheritedFields base child) key =
      Field.layered (Field.value (base.allFields .compact) key)
        (Field.value (child.allFields .compact) key) := by
  rw [← Field.value_finish (baseWellFormed.distinct_allFields .compact) .compact,
    ← Field.value_finish (childWellFormed.distinct_allFields .compact) .compact,
    ← toFields_eq, ← toFields_eq, Field.value,
    get?_inheritedFields childWellFormed notAttributes notParent]
  cases found : OrderedMap.get? (Record.toFields .compact child) key with
  | none => simp [Field.value, Field.layered, found]
  | some held => simp [Field.value, Field.layered, found, filled_of_get?_compact found]

/-- What the object keeps beside the declared fields: the filled fields of the
parent in their order, with those of the child assigned over them. -/
theorem undeclared_inheritedFields (baseWellFormed : base.WellFormed)
    (childWellFormed : child.WellFormed) :
    Field.undeclared (inheritedFields base child) (sharedKeys ++ Details.declared δ) =
      OrderedMap.insertAll (Form.compact.finish base.extra)
        (Form.compact.finish child.extra) := by
  have ofParts : forall fields : Fields,
      Field.undeclared (OrderedMap.erase fields "attributes") (sharedKeys ++ Details.declared δ) =
        Field.undeclared fields (sharedKeys ++ Details.declared δ) ∧
      Field.undeclared (OrderedMap.erase fields "extends") (sharedKeys ++ Details.declared δ) =
        Field.undeclared fields (sharedKeys ++ Details.declared δ) := by
    intro fields
    constructor
    all_goals
      simp only [Field.undeclared, OrderedMap.erase, List.filter_filter]
      apply List.filter_congr
      intro entry _
      by_cases same : entry.1 = "attributes" ∨ entry.1 = "extends"
      · rcases same with same | same <;> simp [same, sharedKeys]
      · simp only [not_or] at same
        simp [same]
  have compact : forall {descriptor : Descriptor δ}, descriptor.WellFormed ->
      Field.undeclared (Record.toFields .compact descriptor)
        (sharedKeys ++ Details.declared δ) = Form.compact.finish descriptor.extra := by
    intro descriptor wellFormed
    rw [toFields_eq, Field.undeclared_finish, undeclared_allFields wellFormed]
  simp only [inheritedFields]
  rw [(ofParts _).2]
  unfold Field.undeclared
  rw [OrderedMap.filter_key_insert fun key => !(sharedKeys ++ Details.declared δ).contains key,
    if_neg (by simp [sharedKeys]),
    OrderedMap.filter_key_insertAll fun key => !(sharedKeys ++ Details.declared δ).contains key]
  have parent := compact baseWellFormed
  have own := (ofParts _).1.trans (compact childWellFormed)
  unfold Field.undeclared at parent own
  rw [parent, own]

end Fields

variable [LawfulDetails δ] {base child : Descriptor δ}

/-- The object of the laid fields holds the combined descriptor. -/
theorem heldBy_inheritedFields (baseWellFormed : base.WellFormed)
    (childWellFormed : child.WellFormed) :
    (base.combine child).HeldBy (inheritedFields base child) := by
  have shared : forall (key : Text) (descriptor : Descriptor δ), key ∈ sharedKeys ->
      Field.value (descriptor.allFields .compact) key =
        Field.value descriptor.sharedFields key := by
    intro key descriptor member
    rw [Field.value, Field.value, get?_allFields_of_shared _ _ member]
  have laid := fun (key : Text) (notAttributes : key ≠ "attributes") (notParent : key ≠ "extends") =>
    value_inheritedFields baseWellFormed childWellFormed notAttributes notParent
  have optional : forall key : Text, key ∈ sharedKeys -> key ≠ "attributes" ->
      key ≠ "extends" -> Field.value (inheritedFields base child) key =
        Field.layered (Field.value base.sharedFields key) (Field.value child.sharedFields key) := by
    intro key member notAttributes notParent
    rw [laid key notAttributes notParent, shared key base member, shared key child member]
  refine ⟨?_, ?_, ?_, ?_, ?_, ?_, ?_, undeclared_inheritedFields baseWellFormed childWellFormed⟩
  · have own : OrderedMap.get? (Record.toFields .compact child) "type" = some (.str child.type) :=
      Field.get?_finish (childWellFormed.distinct_allFields .compact) .compact
        (get?_allFields_of_shared _ _ (by decide)) (by simp)
    rw [get?_inheritedFields childWellFormed (by decide) (by decide), own]
    rfl
  · rw [optional "name" (by decide) (by decide) (by decide)]
    exact Field.layered_text base.name child.name
  · rw [optional "caption" (by decide) (by decide) (by decide)]
    exact Field.layered_text base.caption child.caption
  · rw [optional "description" (by decide) (by decide) (by decide)]
    exact Field.layered_text base.description child.description
  · simp [inheritedFields, Field.value, OrderedMap.get?_erase, combine, Field.ofText?]
  · simp only [inheritedFields]
    rw [OrderedMap.get?_erase, if_neg (by decide), OrderedMap.get?_insert_self]
    exact congrArg (some ∘ Json.obj)
      (Attributes.toFields_merge base.attributes child.attributes).symm
  · refine ⟨.compact, fun key declared => ?_⟩
    have own := LawfulDetails.declared_own key declared
    have notAttributes : key ≠ "attributes" := fun same => own (same ▸ by decide)
    have notParent : key ≠ "extends" := fun same => own (same ▸ by decide)
    rw [laid key notAttributes notParent, Field.value, Field.value,
      get?_allFields_of_declared _ _ declared, get?_allFields_of_declared _ _ declared]
    exact (Heritable.value_combine base.details child.details key declared).symm

omit [LawfulDetails δ] in
/-- Combining keeps descriptors well formed. -/
theorem WellFormed.combine (baseWellFormed : base.WellFormed)
    (childWellFormed : child.WellFormed) : (base.combine child).WellFormed := by
  have kept : ∀ key ∈ (base.combine child).extra.keys,
      key ∈ base.extra.keys ∨ key ∈ child.extra.keys := by
    intro key member
    rcases OrderedMap.mem_keys_insertAll.1 member with lower | upper
    · exact Or.inl (OrderedMap.mem_keys_of_mem_filter lower)
    · exact Or.inr (OrderedMap.mem_keys_of_mem_filter upper)
  constructor
  · exact Attributes.distinct_merge baseWellFormed.attributes _
  · exact OrderedMap.distinct_insertAll _ (baseWellFormed.extra.filter _)
  · intro key member
    rcases kept key member with lower | upper
    · exact baseWellFormed.undeclared key lower
    · exact childWellFormed.undeclared key upper
  · intro key member
    rcases kept key member with lower | upper
    · exact baseWellFormed.characters key lower
    · exact childWellFormed.characters key upper

/-- Laying a well-formed child over a well-formed parent is always read as a
record again, and that record combines the two field by field. -/
theorem inherit_eq_combine (baseWellFormed : base.WellFormed)
    (childWellFormed : child.WellFormed) : base.inherit child = .ok (base.combine child) := by
  have read := (heldBy_inheritedFields baseWellFormed childWellFormed).validate_eq_valid
    (baseWellFormed.combine childWellFormed).characters
  simp only [inherit, Record.check, Record.ofJson, read]
  rfl

end Descriptor
end EventSchema
