import EventSchema.Json.Merge
import EventSchema.Proofs.OrderedMap
import Mathlib.Data.List.Induction

namespace EventSchema

/-!
# Merged objects

What merging does to single keys.  A key of the merged object holds what the upper
object lays over the lower one there.
-/

namespace Json

/-- A well-formed object has distinct keys and well-formed values. -/
theorem wellFormed_obj_iff (fields : Fields) :
    WellFormed (.obj fields) ↔ fields.Distinct ∧ ∀ entry ∈ fields, entry.2.WellFormed :=
  and_congr_right fun _ => wellFormedFields_iff fields

theorem WellFormed.distinct {fields : Fields} (wellFormed : WellFormed (.obj fields)) :
    fields.Distinct :=
  wellFormed.1

theorem WellFormed.of_get? {fields : Fields} (wellFormed : WellFormed (.obj fields)) {key : Text}
    {value : Json} (found : fields.get? key = some value) : value.WellFormed :=
  ((wellFormed_obj_iff fields).1 wellFormed).2 _ (OrderedMap.mem_of_get?_eq_some found)

theorem WellFormed.insert {fields : Fields} (wellFormed : WellFormed (.obj fields)) (key : Text)
    {value : Json} (holds : value.WellFormed) :
    WellFormed (.obj (OrderedMap.insert fields key value)) := by
  rcases (wellFormed_obj_iff fields).1 wellFormed with ⟨distinct, values⟩
  refine (wellFormed_obj_iff _).2 ⟨distinct.insert key value, fun entry member => ?_⟩
  rcases OrderedMap.mem_of_mem_insert member with rfl | old
  · exact holds
  · exact values entry old

theorem wellFormed_nil : WellFormed (.obj []) :=
  ⟨List.nodup_nil, trivial⟩

end Json

namespace Fields

/-- What a value becomes where it is laid over what may be there. -/
def laid (lower : Option Json) (upper : Json) : Json :=
  match lower with
  | some held => held.overlay upper
  | none => upper

theorem laid_of_not_isObject {upper : Json} (lower : Option Json)
    (leaf : upper.isObject = false) : laid lower upper = upper := by
  cases lower with
  | none => rfl
  | some held => exact Json.overlay_of_not_isObject held leaf

/-- A value replaces what lies below it unless both are objects, which are merged. -/
theorem laid_eq_or (lower : Option Json) (value : Json) :
    laid lower value = value ∨ ∃ fields inner, lower = some (.obj fields) ∧
      value = .obj inner ∧ laid lower value = .obj (merge fields inner) := by
  cases lower with
  | none => exact Or.inl rfl
  | some held =>
      cases leaf : value.isObject with
      | false => exact Or.inl (Json.overlay_of_not_isObject held leaf)
      | true =>
          cases value with
          | obj inner =>
              cases held with
              | obj fields => exact Or.inr ⟨fields, inner, rfl, rfl, rfl⟩
              | _ => exact Or.inl rfl
          | _ => cases leaf

/-- Whatever lies below, an object stays one, and nothing else becomes one. -/
theorem isObject_laid (lower : Option Json) (value : Json) :
    (laid lower value).isObject = value.isObject := by
  rcases laid_eq_or lower value with same | ⟨fields, inner, _, rfl, merged⟩
  · rw [same]
  · rw [merged]
    rfl

/-- The value of a merged object at a key. -/
theorem get?_merge {upper : Fields} (distinct : upper.Distinct) (base : Fields) (key : Text) :
    OrderedMap.get? (merge base upper) key =
      ((upper.get? key).map (laid (base.get? key))).or (base.get? key) := by
  induction upper generalizing base with
  | nil => rfl
  | cons entry rest ih =>
      rcases entry with ⟨known, value⟩
      rw [merge_cons, ih distinct.tail, OrderedMap.get?_insert, OrderedMap.get?_cons]
      by_cases same : known = key
      · subst known
        have fresh := (OrderedMap.get?_eq_none_iff rest key).2 (List.nodup_cons.1 distinct).1
        rw [if_pos rfl, if_pos rfl, fresh, Option.map_none, Option.none_or, Option.map_some,
          Option.some_or]
        rfl
      · rw [if_neg same, if_neg same]

/-- A merged object has the keys of both. -/
theorem mem_keys_merge {base upper : Fields} {key : Text} :
    key ∈ OrderedMap.keys (merge base upper) ↔
      key ∈ OrderedMap.keys upper ∨ key ∈ OrderedMap.keys base := by
  induction upper generalizing base with
  | nil => simp
  | cons entry rest ih =>
      rcases entry with ⟨known, value⟩
      rw [merge_cons, ih, OrderedMap.mem_keys_insert, OrderedMap.keys_cons, List.mem_cons]
      tauto

theorem distinct_merge {base : Fields} (distinct : base.Distinct) (upper : Fields) :
    (merge base upper).Distinct := by
  induction upper generalizing base with
  | nil => exact distinct
  | cons entry rest ih =>
      rw [merge_cons]
      exact ih (distinct.insert _ _)

/-- The keys of the lower object come first, and the new ones follow in their order. -/
theorem keys_merge {upper : Fields} (distinct : upper.Distinct) (base : Fields) :
    OrderedMap.keys (merge base upper) =
      base.keys ++ upper.keys.filter fun key => key ∉ base.keys := by
  induction upper generalizing base with
  | nil => exact (List.append_nil _).symm
  | cons entry rest ih =>
      rcases entry with ⟨key, value⟩
      have fresh : key ∉ OrderedMap.keys rest := (List.nodup_cons.1 distinct).1
      rw [merge_cons, ih distinct.tail, OrderedMap.keys_insert, OrderedMap.keys_cons,
        List.filter_cons]
      by_cases present : key ∈ base.keys
      · simp [present]
      · simp only [present, if_false, not_false_eq_true, decide_true, if_true,
          List.append_assoc, List.singleton_append]
        congr 2
        refine List.filter_congr fun other member => ?_
        have different : other ≠ key := fun same => fresh (same ▸ member)
        simp [different]

/-- Merged layers have the keys of all of them. -/
theorem mem_keys_mergeAll {layers : List Fields} {key : Text} :
    key ∈ OrderedMap.keys (mergeAll layers) ↔ ∃ layer ∈ layers, key ∈ OrderedMap.keys layer := by
  induction layers using List.reverseRecOn with
  | nil => simp
  | append_singleton layers last ih =>
      rw [mergeAll_concat, mem_keys_merge, ih]
      simp only [List.mem_append, List.mem_singleton, or_and_right, exists_or, exists_eq_left,
        or_comm]

/-- Laying an object over nothing yields the object. -/
theorem merge_nil_left {upper : Fields} (distinct : upper.Distinct) :
    merge [] upper = upper := by
  have appended : forall (rest base : Fields), OrderedMap.Distinct rest ->
      (∀ key ∈ OrderedMap.keys rest, key ∉ OrderedMap.keys base) ->
        merge base rest = base ++ rest := by
    intro rest
    induction rest with
    | nil =>
        intro base _ _
        exact (List.append_nil base).symm
    | cons entry rest ih =>
        intro base distinct fresh
        rcases entry with ⟨key, value⟩
        have missing := (OrderedMap.get?_eq_none_iff base key).2 (fresh key List.mem_cons_self)
        have appends : OrderedMap.insert base key value = base ++ [(key, value)] :=
          OrderedMap.insert_eq_append (fresh key List.mem_cons_self)
        rw [merge_cons, missing, appends, ih _ distinct.tail, List.append_assoc,
          List.singleton_append]
        intro other member known
        rcases List.mem_append.1 (OrderedMap.keys_append base [(key, value)] ▸ known) with old | new
        · exact fresh other (List.mem_cons_of_mem _ member) old
        · rw [OrderedMap.keys_cons, OrderedMap.keys_nil, List.mem_singleton] at new
          exact (List.nodup_cons.1 distinct).1 (new ▸ member)
  exact appended upper [] distinct fun _ _ => List.not_mem_nil

/-- An object is merged over the object that is there, and covers any other value. -/
theorem laid_obj {upper : Fields} (distinct : upper.Distinct) (lower : Option Json) :
    laid lower (.obj upper) = .obj (merge ((lower.bind Json.fields?).getD []) upper) := by
  cases lower with
  | none => rw [Option.bind_none, Option.getD_none, merge_nil_left distinct, laid]
  | some held =>
      cases leaf : held.isObject with
      | false =>
          have none : held.fields? = none := by
            cases held with
            | obj fields => cases leaf
            | _ => rfl
          rw [Option.bind_some, none, Option.getD_none, merge_nil_left distinct]
          exact Json.overlay_obj_of_not_isObject upper leaf
      | true =>
          cases held with
          | obj fields => rfl
          | _ => cases leaf

/-- What the upper object holds beside objects is held by the merged one. -/
theorem get?_merge_of_not_isObject {upper : Fields} (distinct : upper.Distinct) (base : Fields)
    {key : Text} {value : Json} (found : upper.get? key = some value)
    (leaf : value.isObject = false) : OrderedMap.get? (merge base upper) key = some value := by
  rw [get?_merge distinct, found, Option.map_some, laid_of_not_isObject _ leaf, Option.some_or]

end Fields
end EventSchema
