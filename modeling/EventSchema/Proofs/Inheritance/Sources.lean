import EventSchema.Proofs.Identifiers.Enumerations
import EventSchema.Proofs.Inheritance.Chain
import EventSchema.Proofs.Json.Coverage

namespace EventSchema

/-!
# The sources of inherited attributes

Before anything is inherited, every attribute names its source.  A source that is
no object is laid over others as a whole, so a merged attribute keeps that of
the nearest descriptor which declares it, however much of its definition comes
from further up.  Crediting such attributes once more alters nothing.
-/

namespace Attributes

variable {base upper attributes : Attributes}

theorem get?_toFields (attributes : Attributes) (name : Text) :
    attributes.toFields.get? name = (attributes.get? name).map Json.obj :=
  OrderedMap.get?_mapValues _ _ _

/-- The fields of attributes as places of an object. -/
theorem at?_toFields (attributes : Attributes) (name key : Text) :
    (Json.obj attributes.toFields).at? [name, key] = attributes.fieldOf? name key := by
  rw [Json.at?_obj_cons, get?_toFields, fieldOf?]
  cases attributes.get? name with
  | none => rfl
  | some definition =>
      rw [Option.map_some, Option.bind_some, Option.bind_some, Json.at?_obj_cons]
      cases definition.get? key with
      | none => rfl
      | some value => rw [Option.bind_some, Json.at?_nil]

/-- Where definitions are merged, the values of a field that are no objects are not:
the upper one is taken, and the lower one where there is none. -/
theorem fieldOf?_merge (wellFormed : Json.WellFormed (.obj upper.toFields)) {name key : Text}
    (leaf : forall definition : Fields, upper.get? name = some definition ->
      ∃ value, definition.get? key = some value ∧ value.isObject = false) :
    (merge base upper).fieldOf? name key =
      (upper.fieldOf? name key).or (base.fieldOf? name key) := by
  cases held : upper.get? name with
  | none =>
      have missing : upper.toFields.get? name = none := by rw [get?_toFields, held, Option.map_none]
      have absent : upper.fieldOf? name key = none := by rw [fieldOf?, held, Option.bind_none]
      rw [absent, Option.none_or, ← at?_toFields, ← at?_toFields, toFields_merge, Json.at?_obj_cons,
        Json.at?_obj_cons, Fields.get?_merge wellFormed.distinct, missing, Option.map_none,
        Option.none_or]
  | some definition =>
      rcases leaf definition held with ⟨value, found, plain⟩
      have own : upper.fieldOf? name key = some value := by
        rw [fieldOf?, held, Option.bind_some, found]
      have shows : Json.shown? (.obj upper.toFields) [name, key] = some (some value) :=
        Json.shown?_eq_some_some_iff.mpr ⟨plain, (at?_toFields upper name key).trans own⟩
      have merged : Json.shown? (.obj (Fields.merge base.toFields upper.toFields)) [name, key] =
          some (some value) := Fields.shown?_merge_of_shown? wellFormed.keyed shows
      rw [own, Option.some_or, ← at?_toFields, toFields_merge]
      exact (Json.shown?_eq_some_some_iff.mp merged).2

/-- Attributes that name their sources, none of which is an object. -/
structure Credited (attributes : Attributes) : Prop where
  wellFormed : Json.WellFormed (.obj attributes.toFields)
  sources : forall (name : Text) (definition : Fields), attributes.get? name = some definition ->
    ∃ source, definition.get? sourceKey = some source ∧ source.isObject = false

theorem Credited.fieldOf?_eq_none_iff (credited : Credited attributes) {name : Text} :
    attributes.fieldOf? name sourceKey = none ↔ attributes.get? name = none := by
  rw [fieldOf?]
  cases held : attributes.get? name with
  | none => simp
  | some definition =>
      rcases credited.sources name definition held with ⟨source, found, _⟩
      simp [found]

/-- The source of a merged attribute is that of the upper one, if there is one. -/
theorem Credited.fieldOf?_merge (credited : Credited upper) (base : Attributes) (name : Text) :
    (merge base upper).fieldOf? name sourceKey =
      (upper.fieldOf? name sourceKey).or (base.fieldOf? name sourceKey) :=
  Attributes.fieldOf?_merge credited.wellFormed (credited.sources name)

/-- Merging makes no attribute that neither side has. -/
theorem get?_merge_eq_none (distinct : upper.toFields.Distinct) {name : Text}
    (above : upper.get? name = none) (below : base.get? name = none) :
    (merge base upper).get? name = none := by
  have missing : (merge base upper).toFields.get? name = none := by
    rw [toFields_merge, Fields.get?_merge distinct, get?_toFields, get?_toFields, above, below]
    rfl
  rw [get?_toFields, Option.map_eq_none_iff] at missing
  exact missing

/-- Merged attributes name their sources if all that are merged do. -/
theorem Credited.merge (lower : Credited base) (higher : Credited upper) :
    Credited (Attributes.merge base upper) where
  wellFormed := by
    rw [toFields_merge]
    exact Fields.wellFormed_merge lower.wellFormed higher.wellFormed
  sources name definition found := by
    have merged := higher.fieldOf?_merge base name
    rw [fieldOf?, found, Option.bind_some] at merged
    cases above : upper.get? name with
    | some own =>
        rcases higher.sources name own above with ⟨source, held, plain⟩
        refine ⟨source, ?_, plain⟩
        rw [merged, fieldOf?, above, Option.bind_some, held, Option.some_or]
    | none =>
        cases below : base.get? name with
        | some inherited =>
            rcases lower.sources name inherited below with ⟨source, held, plain⟩
            refine ⟨source, ?_, plain⟩
            rw [merged, higher.fieldOf?_eq_none_iff.mpr above, Option.none_or, fieldOf?, below,
              Option.bind_some, held]
        | none =>
            cases found.symm.trans (get?_merge_eq_none higher.wellFormed.distinct above below)

/-! ## Crediting -/

/-- A credited attribute names its own source, or else its owner. -/
theorem fieldOf?_creditTo_source (attributes : Attributes) (owner name : Text) :
    (attributes.creditTo owner).fieldOf? name sourceKey =
      (attributes.get? name).map fun definition =>
        (definition.get? sourceKey).getD (.str owner) := by
  rw [fieldOf?, creditTo, OrderedMap.get?_mapValues]
  cases attributes.get? name with
  | none => rfl
  | some definition =>
      rw [Option.map_some, Option.bind_some, Option.map_some, OrderedMap.contains]
      cases held : definition.get? sourceKey with
      | none =>
          rw [Option.isSome_none, if_neg Bool.false_ne_true, OrderedMap.get?_insert_self]
          rfl
      | some source =>
          rw [Option.isSome_some, if_pos rfl, held]
          rfl

/-- An object of any kind is credited as the definition of an attribute is. -/
theorem creditValue_obj (owner : Text) (definition : Fields) :
    creditValue (.str owner) (.obj definition) =
      .ok (.obj (if OrderedMap.contains definition sourceKey then definition
        else OrderedMap.insert definition sourceKey (.str owner))) := by
  unfold creditValue namesSource?
  cases named : OrderedMap.contains definition sourceKey <;> simp only [named] <;> rfl

/-- Attributes are credited alike before and after their definitions are known to be
objects. -/
theorem creditValues_toFields (attributes : Attributes) (owner : Text) :
    creditValues (.str owner) attributes.toFields = .ok (attributes.creditTo owner).toFields := by
  refine Outcome.mapM_eq_ok_iff.mpr ?_
  rw [toFields, toFields, creditTo, OrderedMap.mapValues, OrderedMap.mapValues,
    OrderedMap.mapValues, List.map_map, List.forall₂_map_left_iff, List.forall₂_map_right_iff,
    List.forall₂_same]
  intro entry _
  rw [creditValue_obj]
  rfl

/-- Crediting attributes that name their sources alters nothing. -/
theorem Credited.get?_creditTo (credited : Credited attributes) (owner name : Text) :
    (attributes.creditTo owner).get? name = attributes.get? name := by
  rw [creditTo, OrderedMap.get?_mapValues]
  cases found : attributes.get? name with
  | none => rfl
  | some definition =>
      rcases credited.sources name definition found with ⟨source, held, _⟩
      rw [Option.map_some, OrderedMap.contains, held, Option.isSome_some, if_pos rfl]

/-- Crediting keeps attributes well formed. -/
theorem wellFormed_creditTo (wellFormed : Json.WellFormed (.obj attributes.toFields))
    (owner : Text) : Json.WellFormed (.obj (attributes.creditTo owner).toFields) := by
  rcases (Json.wellFormed_obj_iff _).1 wellFormed with ⟨distinct, values⟩
  refine (Json.wellFormed_obj_iff _).2 ⟨?_, fun entry member => ?_⟩
  · rw [OrderedMap.Distinct, toFields, OrderedMap.keys_mapValues, creditTo,
      OrderedMap.keys_mapValues]
    rw [OrderedMap.Distinct, toFields, OrderedMap.keys_mapValues] at distinct
    exact distinct
  · rcases List.mem_map.1 member with ⟨credited, within, rfl⟩
    rcases List.mem_map.1 within with ⟨source, origin, rfl⟩
    have before : Json.WellFormed (.obj source.2) := values _ (List.mem_map_of_mem origin)
    dsimp only
    split
    · exact before
    · exact before.insert sourceKey trivial

/-- Well-formed attributes whose sources are no objects name them once they are
credited. -/
theorem credited_creditTo (wellFormed : Json.WellFormed (.obj attributes.toFields))
    (plain : forall (name : Text) (value : Json), attributes.fieldOf? name sourceKey = some value ->
      value.isObject = false) (owner : Text) : Credited (attributes.creditTo owner) where
  wellFormed := wellFormed_creditTo wellFormed owner
  sources name definition found := by
    have sourced := fieldOf?_creditTo_source attributes owner name
    rw [fieldOf?, found, Option.bind_some] at sourced
    rw [creditTo, OrderedMap.get?_mapValues, Option.map_eq_some_iff] at found
    rcases found with ⟨before, held, _⟩
    rw [held, Option.map_some] at sourced
    refine ⟨_, sourced, ?_⟩
    cases own : before.get? sourceKey with
    | none => rfl
    | some value => exact plain name value (by rw [fieldOf?, held, Option.bind_some, own])

end Attributes

namespace Descriptor

variable {δ : Type} [Details δ] [Heritable δ]

/-- Along a chain, the source of an attribute is that of the nearest descriptor which
has the attribute. -/
theorem credited_combineAll {own : Descriptor δ} {above : List (Descriptor δ)}
    (credited : ∀ descriptor ∈ own :: above, descriptor.attributes.Credited) :
    (own.combineAll above).attributes.Credited ∧
      forall name : Text, (own.combineAll above).attributes.fieldOf? name Attributes.sourceKey =
        (own :: above).findSome? fun descriptor =>
          descriptor.attributes.fieldOf? name Attributes.sourceKey := by
  induction above generalizing own with
  | nil =>
      refine ⟨credited own List.mem_cons_self, fun name => ?_⟩
      rw [findSome?_cons_eq_or, List.findSome?_nil, Option.or_none]
      rfl
  | cons parent rest ih =>
      have nearest := credited own List.mem_cons_self
      rcases ih fun descriptor member => credited descriptor (List.mem_cons_of_mem _ member) with
        ⟨upper, sources⟩
      refine ⟨upper.merge nearest, fun name => ?_⟩
      rw [findSome?_cons_eq_or, ← sources]
      exact nearest.fieldOf?_merge _ name

end Descriptor
end EventSchema
