import EventSchema.Proofs.Inheritance.Flattening

namespace EventSchema
namespace Inheritance

/-!
# What a flattened record holds

The record of a name is read off its lineage: attributes are merged from the
root down, and every other field is that of the nearest descriptor which fills
it.  Nothing else of the hierarchy matters, the order of its names included, so
what is kept from earlier names agrees with flattening each lineage alone.
-/

variable {δ : Type} [Details δ]

/-- The record of a descriptor with at least one other above it, where the
nearest comes first. -/
structure Inherits (own : Descriptor δ) (above : List (Descriptor δ))
    (record : Descriptor δ) : Prop where
  type : record.type = own.type
  parent : record.parent = none
  attributes : record.attributeFields =
    Fields.mergeAll ((own :: above).reverse.map Descriptor.attributeFields)
  name : record.name = (own :: above).findSome? Descriptor.name
  caption : record.caption = (own :: above).findSome? Descriptor.caption
  description : record.description = (own :: above).findSome? Descriptor.description
  extra : forall key : Text,
    record.extra.get? key = (own :: above).findSome? (Descriptor.filled? key)

/-- The details of a class are those of the nearest descriptor that fills them. -/
structure NearestClassDetails (chain : List ClassDescriptor) (details : ClassDetails) : Prop where
  uid : details.uid = chain.findSome? fun descriptor => descriptor.details.uid
  category : details.category = chain.findSome? fun descriptor => descriptor.details.category
  seeAlso : details.seeAlso = chain.findSome? fun descriptor => descriptor.details.seeAlso

/-- The details of an object are those of the nearest descriptor that fills them. -/
structure NearestObjectDetails (chain : List ObjectDescriptor) (details : ObjectDetails) :
    Prop where
  links : details.links = chain.findSome? fun descriptor => descriptor.details.links

/-- Flattening reads every record off the lineage of its name.  It never fails
because a laid record is no record, a descriptor without a parent stays as it
is, and no record depends on the order of the names. -/
structure FollowsLineages (kind : DescriptorKind) (declared : Hierarchy δ)
    (nearest : List (Descriptor δ) -> δ -> Prop) : Prop where
  valid : forall found : Violations,
    (flatten kind declared).outcome ≠ .error (.invalidRecord found)
  grounded : forall flattened : Hierarchy δ, (flatten kind declared).outcome = .ok flattened ->
    ∀ name ∈ declared.keys, Grounded declared name
  records : forall flattened : Hierarchy δ, (flatten kind declared).outcome = .ok flattened ->
    forall (name : Text) (own : Descriptor δ) (above : List (Descriptor δ)),
      Lineage declared name (own :: above) ->
        ∃ record, flattened.get? name = some record ∧ (above = [] -> record = own) ∧
          (above ≠ [] -> Inherits own above record ∧ nearest (own :: above) record.details)
  unordered : forall flattened reordered : Hierarchy δ,
    (flatten kind declared).outcome = .ok flattened -> reordered.Perm declared ->
      ∃ other, (flatten kind reordered).outcome = .ok other ∧
        forall name : Text, other.get? name = flattened.get? name

/-! ## Records of lineages -/

variable [Heritable δ] {declared flattened : Hierarchy δ}

/-- The record of a chain holds what its descriptors fill. -/
theorem inherits_combineAll {own : Descriptor δ} {above : List (Descriptor δ)}
    (wellFormed : ∀ descriptor ∈ own :: above, descriptor.WellFormed) (nonempty : above ≠ []) :
    Inherits own above (own.combineAll above) where
  type := Descriptor.type_combineAll own above
  parent := Descriptor.parent_combineAll own nonempty
  attributes := Descriptor.attributeFields_combineAll wellFormed
  name := Descriptor.field_combineAll Descriptor.name (fun _ _ => rfl) own above
  caption := Descriptor.field_combineAll Descriptor.caption (fun _ _ => rfl) own above
  description := Descriptor.field_combineAll Descriptor.description (fun _ _ => rfl) own above
  extra := Descriptor.get?_extra_combineAll wellFormed nonempty

theorem nearestClassDetails_combineAll (own : ClassDescriptor) (above : List ClassDescriptor) :
    NearestClassDetails (own :: above) (own.combineAll above).details where
  uid := Descriptor.field_combineAll (fun descriptor => descriptor.details.uid)
    (fun _ _ => rfl) own above
  category := Descriptor.field_combineAll (fun descriptor => descriptor.details.category)
    (fun _ _ => rfl) own above
  seeAlso := Descriptor.field_combineAll (fun descriptor => descriptor.details.seeAlso)
    (fun _ _ => rfl) own above

theorem nearestObjectDetails_combineAll (own : ObjectDescriptor)
    (above : List ObjectDescriptor) :
    NearestObjectDetails (own :: above) (own.combineAll above).details where
  links := Descriptor.field_combineAll (fun descriptor => descriptor.details.links)
    (fun _ _ => rfl) own above

variable [LawfulDetails δ]

/-- The record of a name is that of its lineage. -/
theorem get?_of_flatten (wellFormed : WellFormed declared) {kind : DescriptorKind}
    (success : (flatten kind declared).outcome = .ok flattened) {name : Text}
    {own : Descriptor δ} {above : List (Descriptor δ)}
    (lineage : Lineage declared name (own :: above)) :
    flattened.get? name = some (own.combineAll above) := by
  rcases grounded_of_flatten wellFormed success with ⟨settled, names, _⟩
  rcases OrderedMap.exists_get?_of_mem_keys (names.mem_iff.mpr lineage.mem_keys) with ⟨record, found⟩
  rcases settled.settles name record found with ⟨other, rest, again, rfl⟩
  cases lineage.unique again
  exact found

/-! ## The order of the names -/

omit [Details δ] [Heritable δ] [LawfulDetails δ] in
/-- A lineage only depends on what is declared for each name. -/
theorem Lineage.of_get?_eq {reordered : Hierarchy δ}
    (same : forall name : Text, reordered.get? name = declared.get? name) {name : Text}
    {chain : List (Descriptor δ)} (lineage : Lineage declared name chain) :
    Lineage reordered name chain :=
  lineage.of_within fun _ _ found => (same _).trans found

omit [Heritable δ] [LawfulDetails δ] in
theorem WellFormed.of_perm {reordered : Hierarchy δ} (wellFormed : WellFormed declared)
    (perm : reordered.Perm declared) : WellFormed reordered where
  distinct := (perm.map Prod.fst).nodup_iff.mpr wellFormed.distinct
  records entry member := wellFormed.records entry (perm.mem_iff.mp member)

/-- Reordering a hierarchy alters no record. -/
theorem get?_flatten_of_perm (wellFormed : WellFormed declared) {kind : DescriptorKind}
    {reordered : Hierarchy δ} (success : (flatten kind declared).outcome = .ok flattened)
    (perm : reordered.Perm declared) :
    ∃ other, (flatten kind reordered).outcome = .ok other ∧
      forall name : Text, other.get? name = flattened.get? name := by
  have reorderedWellFormed := wellFormed.of_perm perm
  have same := fun name => OrderedMap.get?_of_perm reorderedWellFormed.distinct perm name
  rcases grounded_of_flatten wellFormed success with ⟨_, names, grounded⟩
  have keys : reordered.keys.Perm declared.keys := perm.map Prod.fst
  obtain ⟨other, flattens⟩ :=
    exists_flatten_of_grounded reorderedWellFormed kind fun name member => by
      obtain ⟨chain, lineage⟩ := grounded name (keys.mem_iff.mp member)
      exact ⟨chain, lineage.of_get?_eq same⟩
  rcases grounded_of_flatten reorderedWellFormed flattens with ⟨_, otherNames, _⟩
  refine ⟨other, flattens, fun name => ?_⟩
  by_cases known : name ∈ declared.keys
  · rcases grounded name known with ⟨chain, lineage⟩
    cases chain with
    | nil => cases lineage
    | cons own above =>
        rw [get?_of_flatten wellFormed success lineage,
          get?_of_flatten reorderedWellFormed flattens (lineage.of_get?_eq same)]
  · rw [(OrderedMap.get?_eq_none_iff flattened name).2 fun member => known (names.mem_iff.mp member),
      (OrderedMap.get?_eq_none_iff other name).2 fun member =>
        known (keys.mem_iff.mp (otherNames.mem_iff.mp member))]

/-- Flattening reads records off lineages, for any details that follow them. -/
theorem followsLineages_of_combineAll {nearest : List (Descriptor δ) -> δ -> Prop}
    (follows : forall (own : Descriptor δ) (above : List (Descriptor δ)),
      nearest (own :: above) (own.combineAll above).details)
    (kind : DescriptorKind) (wellFormed : WellFormed declared) :
    FollowsLineages kind declared nearest where
  valid found fails := by
    rcases flatten_spec wellFormed kind with ⟨_, flattens, _⟩ | ⟨_, _, _, _, _, _, obstacle, failed⟩
    · cases fails.symm.trans flattens
    · cases fails.symm.trans failed
      cases obstacle
  grounded _ success := (grounded_of_flatten wellFormed success).2.2
  records flattened success name own above lineage := by
    refine ⟨own.combineAll above, get?_of_flatten wellFormed success lineage, ?_, ?_⟩
    · rintro rfl
      rfl
    · intro nonempty
      have chain := lineage.wellFormed wellFormed.records
      exact ⟨inherits_combineAll chain nonempty, follows own above⟩
  unordered _ _ success perm := get?_flatten_of_perm wellFormed success perm

/-- Every class and every object that flattening yields holds what its lineage
fills, the nearest descriptor first; attributes alone are merged.  This depends
on nothing but the lineage, and the laid fields are always a record. -/
theorem flatten_followsLineages (kind : DescriptorKind) :
    (forall declared : Hierarchy ClassDetails, WellFormed declared ->
      FollowsLineages kind declared NearestClassDetails) ∧
    (forall declared : Hierarchy ObjectDetails, WellFormed declared ->
      FollowsLineages kind declared NearestObjectDetails) := by
  constructor
  · intro declared wellFormed
    exact followsLineages_of_combineAll nearestClassDetails_combineAll kind wellFormed
  · intro declared wellFormed
    exact followsLineages_of_combineAll nearestObjectDetails_combineAll kind wellFormed

/-- Along a chain of three the number comes from the middle and the name from the
root, a null field does not hide that of an ancestor, and attributes are merged
with the order of the root first. -/
theorem flatten_followsLineages_chain_of_three :
    let root : ClassDescriptor :=
      { bareClass "root" none with
        name := some "Root"
        attributes := [("time", [("x", .int 1)]), ("user", [])]
        extra := [("note", .str "kept")] }
    let middle : ClassDescriptor :=
      { bareClass "middle" (some "root") with
        attributes := [("time", [("y", .int 2)])]
        details := ⟨some 7, none, none⟩ }
    let leaf : ClassDescriptor :=
      { bareClass "leaf" (some "middle") with
        attributes := [("cause", []), ("time", [("x", .int 3)])]
        extra := [("note", .null)] }
    let declared : Hierarchy ClassDetails := [("leaf", leaf), ("root", root), ("middle", middle)]
    WellFormed declared ∧ ∃ flattened record,
      (flatten .eventClass declared).outcome = .ok flattened ∧
      flattened.get? "leaf" = some record ∧ record.name = some "Root" ∧
      record.details.uid = some 7 ∧ record.extra.get? "note" = some (.str "kept") ∧
      record.attributes =
        ([("time", [("x", .int 3), ("y", .int 2)]), ("user", []), ("cause", [])] : Attributes) := by
  intro root middle leaf declared
  have wellFormed : WellFormed declared := by decide
  have ofRoot : Lineage declared "root" [root] := .root rfl rfl
  have ofMiddle : Lineage declared "middle" [middle, root] := .child rfl rfl ofRoot
  have ofLeaf : Lineage declared "leaf" [leaf, middle, root] := .child rfl rfl ofMiddle
  have grounded : ∀ name ∈ declared.keys, Grounded declared name := by
    intro name member
    simp only [declared, OrderedMap.keys_cons, OrderedMap.keys_nil, List.mem_cons,
      List.not_mem_nil, or_false] at member
    rcases member with rfl | rfl | rfl
    · exact ⟨_, ofLeaf⟩
    · exact ⟨_, ofRoot⟩
    · exact ⟨_, ofMiddle⟩
  rcases exists_flatten_of_grounded wellFormed .eventClass grounded with ⟨flattened, success⟩
  have follows := (flatten_followsLineages .eventClass).1 declared wellFormed
  rcases follows.records flattened success "leaf" leaf [middle, root] ofLeaf with
    ⟨record, found, _, inherited⟩
  rcases inherited (by simp) with ⟨inherits, nearest⟩
  refine ⟨wellFormed, flattened, record, success, found, inherits.name.trans rfl,
    nearest.uid.trans rfl, ?_, ?_⟩
  · rw [inherits.extra]
    rfl
  · exact Attributes.toFields_injective (inherits.attributes.trans rfl)

end Inheritance
end EventSchema
