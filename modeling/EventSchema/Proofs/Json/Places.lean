import EventSchema.Proofs.Json.Merging

namespace EventSchema

/-!
# Places in values

A place in a value is a path of keys.  It shows an object, a value that is none,
or nothing at all; the fields of an object are places of their own.  Assigning to
a key and removing it only alter what is shown below that key.

A value is known by what it shows as far as the keys of its objects are distinct
(`Json.Keyed`).
-/

namespace Json

/-- The value itself where it is no object; an object counts as having none. -/
def leaf? : Json -> Option Json
  | .obj _ => none
  | value => some value

/-- What a place shows: a value that is no object, an object, or nothing. -/
def shown? (value : Json) (path : List Text) : Option (Option Json) :=
  (value.at? path).map leaf?

theorem leaf?_eq_none_iff {value : Json} : value.leaf? = none ↔ value.isObject = true := by
  cases value <;> simp [leaf?, isObject]

theorem leaf?_eq_some_iff {value leaf : Json} :
    value.leaf? = some leaf ↔ value.isObject = false ∧ value = leaf := by
  cases value <;> simp [leaf?, isObject]

theorem shown?_obj_cons (fields : Fields) (key : Text) (rest : List Text) :
    shown? (.obj fields) (key :: rest) =
      (fields.get? key).bind fun inner => inner.shown? rest := by
  rw [shown?, at?_obj_cons, Option.map_bind]
  rfl

/-- Below a key, an object shows what its value there shows. -/
theorem shown?_of_get? {fields : Fields} {key : Text} {value : Json}
    (found : fields.get? key = some value) (rest : List Text) :
    shown? (.obj fields) (key :: rest) = value.shown? rest := by
  rw [shown?_obj_cons, found, Option.bind_some]

/-- A place shows a value that is no object exactly where the value holds it. -/
theorem shown?_eq_some_some_iff {value leaf : Json} {path : List Text} :
    value.shown? path = some (some leaf) ↔
      leaf.isObject = false ∧ value.at? path = some leaf := by
  rw [shown?, Option.map_eq_some_iff]
  simp only [leaf?_eq_some_iff]
  constructor
  · rintro ⟨held, found, plain, rfl⟩
    exact ⟨plain, found⟩
  · rintro ⟨plain, found⟩
    exact ⟨leaf, found, plain, rfl⟩

/-- Every place on the way to another one is an object. -/
theorem exists_obj_of_prefix {value inner : Json} {place path : List Text}
    (leads : value.at? path = some inner) (within : place <+: path) (proper : place ≠ path) :
    ∃ fields, value.at? place = some (.obj fields) := by
  induction place generalizing value path with
  | nil =>
      cases path with
      | nil => exact absurd rfl proper
      | cons key rest =>
          cases value with
          | obj fields => exact ⟨fields, at?_nil _⟩
          | _ => cases leads
  | cons key place ih =>
      rcases within with ⟨more, rfl⟩
      cases value with
      | obj fields =>
          rw [List.cons_append, at?_obj_cons] at leads
          rcases Option.bind_eq_some_iff.mp leads with ⟨below, found, further⟩
          have shorter : place ≠ place ++ more := fun same => proper (congrArg (key :: ·) same)
          rcases ih further (List.prefix_append place more) shorter with ⟨fields, held⟩
          refine ⟨fields, ?_⟩
          rw [at?_obj_cons, found, Option.bind_some, held]
      | _ => cases leads

/-! ## Distinct keys -/

/-- Every object to which a path of keys leads has distinct keys. -/
def Keyed (value : Json) : Prop :=
  forall (path : List Text) (fields : Fields), value.at? path = some (.obj fields) ->
    fields.Distinct

theorem Keyed.distinct {fields : Fields} (keyed : Keyed (.obj fields)) : fields.Distinct :=
  keyed [] fields (at?_nil _)

theorem Keyed.of_get? {fields : Fields} (keyed : Keyed (.obj fields)) {key : Text} {value : Json}
    (found : fields.get? key = some value) : value.Keyed := by
  intro path inner leads
  apply keyed (key :: path) inner
  rw [at?_obj_cons, found, Option.bind_some]
  exact leads

theorem keyed_obj_of_get? {fields : Fields} (distinct : fields.Distinct)
    (values : forall (key : Text) (value : Json), fields.get? key = some value -> value.Keyed) :
    Keyed (.obj fields) := by
  intro path inner leads
  cases path with
  | nil =>
      rw [at?_nil] at leads
      cases leads
      exact distinct
  | cons key rest =>
      rw [at?_obj_cons] at leads
      rcases Option.bind_eq_some_iff.mp leads with ⟨value, found, further⟩
      exact values key value found rest inner further

theorem WellFormed.of_at? {value inner : Json} (wellFormed : value.WellFormed) {path : List Text}
    (leads : value.at? path = some inner) : inner.WellFormed := by
  induction path generalizing value with
  | nil =>
      rw [at?_nil] at leads
      cases leads
      exact wellFormed
  | cons key rest ih =>
      cases value with
      | obj outer =>
          rw [at?_obj_cons] at leads
          rcases Option.bind_eq_some_iff.mp leads with ⟨below, found, further⟩
          exact ih (wellFormed.of_get? found) further
      | _ => cases leads

theorem WellFormed.keyed {value : Json} (wellFormed : value.WellFormed) : value.Keyed :=
  fun _ _ leads => (wellFormed.of_at? leads).distinct

/-- A value is well formed if its keys are distinct and all that it shows beside objects is
well formed. -/
theorem wellFormed_iff {value : Json} :
    value.WellFormed ↔ value.Keyed ∧ forall (path : List Text) (leaf : Json),
      value.shown? path = some (some leaf) -> leaf.WellFormed := by
  constructor
  · intro wellFormed
    exact ⟨wellFormed.keyed, fun path leaf shows =>
      wellFormed.of_at? (shown?_eq_some_some_iff.mp shows).2⟩
  · induction value using Json.induct with
    | obj fields ih =>
        rintro ⟨keyed, leaves⟩
        refine (wellFormed_obj_iff fields).2 ⟨keyed.distinct, fun entry member => ?_⟩
        have found := keyed.distinct.get?_eq_some_iff.mpr member
        refine ih entry member ⟨keyed.of_get? found, fun path leaf shows => ?_⟩
        exact leaves (entry.1 :: path) leaf ((shown?_of_get? found path).trans shows)
    | _ => exact fun ⟨_, leaves⟩ => leaves [] _ rfl

theorem Keyed.insert {fields : Fields} (keyed : Keyed (.obj fields)) (key : Text) {value : Json}
    (own : value.Keyed) : Keyed (.obj (OrderedMap.insert fields key value)) := by
  refine keyed_obj_of_get? (keyed.distinct.insert key value) fun other held found => ?_
  rw [OrderedMap.get?_insert] at found
  split at found
  · cases found
    exact own
  · exact keyed.of_get? found

theorem Keyed.erase {fields : Fields} (keyed : Keyed (.obj fields)) (key : Text) :
    Keyed (.obj (OrderedMap.erase fields key)) := by
  refine keyed_obj_of_get? (keyed.distinct.erase key) fun other held found => ?_
  rw [OrderedMap.get?_erase] at found
  split at found
  · cases found
  · exact keyed.of_get? found

end Json

namespace Fields

open Json

/-- Removing a key hides what is shown below that key alone. -/
theorem shown?_erase (fields : Fields) (key : Text) (path : List Text) :
    shown? (.obj (OrderedMap.erase fields key)) path =
      if path.head? = some key then none else shown? (.obj fields) path := by
  cases path with
  | nil => rfl
  | cons first rest =>
      rw [shown?_obj_cons, shown?_obj_cons, OrderedMap.get?_erase, List.head?_cons]
      by_cases same : first = key
      · rw [if_pos same, if_pos (congrArg some same), Option.bind_none]
      · rw [if_neg same, if_neg fun equal => same (Option.some.inj equal)]

/-- Assigning to a key alters what is shown below that key alone. -/
theorem shown?_insert (fields : Fields) (key : Text) (value : Json) (first : Text)
    (rest : List Text) :
    shown? (.obj (OrderedMap.insert fields key value)) (first :: rest) =
      if key = first then value.shown? rest else shown? (.obj fields) (first :: rest) := by
  rw [shown?_obj_cons, shown?_obj_cons, OrderedMap.get?_insert]
  split
  · rfl
  · rfl

end Fields
end EventSchema
