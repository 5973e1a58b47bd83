import EventSchema.Proofs.Inheritance.Combining
import EventSchema.Proofs.Json.Merging

namespace EventSchema

/-!
# The record of a chain

A chain is a descriptor with those above it, the nearest first.  Its record is
made from the top down, each descriptor laid over the record of the ones above.
The laws below read each field of that record off the whole chain at once: a
declared field is that of the nearest descriptor that fills it, attributes are
merged from the top down, and an undeclared field is the nearest filled one.
-/

/-- The first result in a list is that of the head or else one of the rest. -/
theorem findSome?_cons_eq_or {α β : Type} (f : α -> Option β) (head : α) (rest : List α) :
    (head :: rest).findSome? f = (f head).or (rest.findSome? f) := by
  rw [List.findSome?_cons]
  cases f head <;> rfl

namespace Descriptor

variable {δ : Type} [Details δ]

/-- The undeclared field of a descriptor at a key, if it is filled. -/
def filled? (key : Text) (descriptor : Descriptor δ) : Option Json :=
  (descriptor.extra.get? key).filter fun held => held ≠ .null

variable [Heritable δ]

/-- The record of a chain: a descriptor laid over the record of those above it. -/
def combineAll (own : Descriptor δ) : (above : List (Descriptor δ)) -> Descriptor δ
  | [] => own
  | parent :: rest => (combineAll parent rest).combine own

variable {own : Descriptor δ} {above : List (Descriptor δ)}

/-- The record of well-formed descriptors is well formed. -/
theorem WellFormed.combineAll (wellFormed : ∀ descriptor ∈ own :: above, descriptor.WellFormed) :
    (own.combineAll above).WellFormed := by
  induction above generalizing own with
  | nil => exact wellFormed own List.mem_cons_self
  | cons parent rest ih =>
      have upper := ih fun descriptor member => wellFormed descriptor (List.mem_cons_of_mem _ member)
      exact upper.combine (wellFormed own List.mem_cons_self)

/-! ## Declared fields -/

/-- The type of a chain is that of its nearest descriptor. -/
theorem type_combineAll (own : Descriptor δ) (above : List (Descriptor δ)) :
    (own.combineAll above).type = own.type := by
  cases above <;> rfl

/-- Where anything is above, no parent is left. -/
theorem parent_combineAll (own : Descriptor δ) (nonempty : above ≠ []) :
    (own.combineAll above).parent = none := by
  cases above with
  | nil => exact absurd rfl nonempty
  | cons parent rest => rfl

/-- A field that a child takes from its parent where it leaves it open is that of
the nearest descriptor which fills it. -/
theorem field_combineAll {α : Type} (field : Descriptor δ -> Option α)
    (inherited : forall base child : Descriptor δ,
      field (base.combine child) = (field child).or (field base))
    (own : Descriptor δ) (above : List (Descriptor δ)) :
    field (own.combineAll above) = (own :: above).findSome? field := by
  induction above generalizing own with
  | nil => cases held : field own <;> simp [combineAll, held]
  | cons parent rest ih =>
      rw [combineAll, inherited, ih, findSome?_cons_eq_or field own]

/-! ## Attributes -/

/-- The attributes of a chain are merged from the top down. -/
theorem attributeFields_combineAll
    (wellFormed : ∀ descriptor ∈ own :: above, descriptor.WellFormed) :
    (own.combineAll above).attributeFields =
      Fields.mergeAll ((own :: above).reverse.map attributeFields) := by
  induction above generalizing own with
  | nil =>
      have distinct : own.attributeFields.Distinct := by
        rw [OrderedMap.Distinct, attributeFields, OrderedMap.keys_mapValues]
        exact (wellFormed own List.mem_cons_self).attributes
      exact (Fields.merge_nil_left distinct).symm
  | cons parent rest ih =>
      have upper := ih fun descriptor member => wellFormed descriptor (List.mem_cons_of_mem _ member)
      rw [List.reverse_cons, List.map_append, List.map_singleton, Fields.mergeAll_concat, ← upper]
      exact Attributes.toFields_merge _ own.attributes

/-! ## Undeclared fields -/

omit [Heritable δ] in
theorem get?_finish_extra {descriptor : Descriptor δ} (wellFormed : descriptor.WellFormed)
    (key : Text) :
    OrderedMap.get? (Form.compact.finish descriptor.extra) key = descriptor.filled? key :=
  wellFormed.extra.get?_filter_value (fun held => decide (held ≠ Json.null)) key

/-- A child keeps what it fills and takes the rest from its parent. -/
theorem get?_extra_combine {base child : Descriptor δ} (baseWellFormed : base.WellFormed)
    (childWellFormed : child.WellFormed) (key : Text) :
    (base.combine child).extra.get? key = (child.filled? key).or (base.filled? key) := by
  have distinct : OrderedMap.Distinct (Form.compact.finish child.extra) :=
    childWellFormed.extra.filter _
  simp only [combine]
  rw [OrderedMap.get?_insertAll distinct, get?_finish_extra childWellFormed,
    get?_finish_extra baseWellFormed]

omit [Details δ] [Heritable δ] in
theorem filter_filled? (key : Text) (descriptor : Descriptor δ) :
    (descriptor.filled? key).filter (fun held => held ≠ Json.null) = descriptor.filled? key := by
  simp [filled?, Option.filter_filter]

/-- An undeclared field of a chain is the nearest one that is filled. -/
theorem filled?_combineAll (wellFormed : ∀ descriptor ∈ own :: above, descriptor.WellFormed)
    (key : Text) : (own.combineAll above).filled? key = (own :: above).findSome? (filled? key) := by
  induction above generalizing own with
  | nil => cases held : own.filled? key <;> simp [combineAll, held]
  | cons parent rest ih =>
      have others : ∀ descriptor ∈ parent :: rest, descriptor.WellFormed :=
        fun descriptor member => wellFormed descriptor (List.mem_cons_of_mem _ member)
      rw [combineAll, filled?, get?_extra_combine (.combineAll others)
        (wellFormed own List.mem_cons_self), findSome?_cons_eq_or, ← ih others]
      cases held : own.filled? key with
      | none =>
          rw [Option.none_or]
          exact filter_filled? key _
      | some value =>
          rw [Option.some_or, ← held]
          exact filter_filled? key own

/-- Where anything is above, only filled fields are kept. -/
theorem get?_extra_combineAll
    (wellFormed : ∀ descriptor ∈ own :: above, descriptor.WellFormed) (nonempty : above ≠ [])
    (key : Text) :
    (own.combineAll above).extra.get? key = (own :: above).findSome? (filled? key) := by
  cases above with
  | nil => exact absurd rfl nonempty
  | cons parent rest =>
      have others : ∀ descriptor ∈ parent :: rest, descriptor.WellFormed :=
        fun descriptor member => wellFormed descriptor (List.mem_cons_of_mem _ member)
      rw [combineAll, get?_extra_combine (.combineAll others) (wellFormed own List.mem_cons_self),
        filled?_combineAll others, findSome?_cons_eq_or (filled? key) own]

end Descriptor
end EventSchema
