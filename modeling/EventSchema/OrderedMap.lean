namespace EventSchema

/-!
# Maps in insertion order

An `OrderedMap` is a finite map that remembers the order in which its keys
arrived.  Assigning to a key that is present keeps the key's place, and a new
key goes last.  The order is part of every answer the library gives, so the
map is the plain list of its entries and equality of maps is equality of
those lists.

The list does not say by its type that its keys are distinct, because the
fields of a JSON object are such a map and hold objects in turn, and a type
cannot be nested in a proof about itself.  A record that holds a map of its own
has a field for it, and a `KeyedMap` is a map together with that proof.

The view of a map is `get?` together with `keys`.  The lemmas below say what
each operation does to that view, so that later proofs need not unfold it.
-/

/-- A finite map as the list of its entries, oldest key first. -/
abbrev OrderedMap (κ α : Type) := List (κ × α)

namespace OrderedMap

variable {κ α β : Type} [DecidableEq κ]

/-- The value at a key: that of the first entry which carries the key. -/
def get? (entries : OrderedMap κ α) (key : κ) : Option α :=
  match entries with
  | [] => none
  | (known, value) :: rest => if known = key then some value else get? rest key

/-- Assign a value to a key.  A present key keeps its place and a new key
goes last. -/
def insert (entries : OrderedMap κ α) (key : κ) (value : α) : OrderedMap κ α :=
  match entries with
  | [] => [(key, value)]
  | (known, old) :: rest =>
      if known = key then (known, value) :: rest
      else (known, old) :: insert rest key value

/-- The keys in order. -/
def keys (entries : OrderedMap κ α) : List κ :=
  entries.map Prod.fst

/-- The values in the order of their keys. -/
def values (entries : OrderedMap κ α) : List α :=
  entries.map Prod.snd

/-- Whether some entry carries the key. -/
def contains (entries : OrderedMap κ α) (key : κ) : Bool :=
  (entries.get? key).isSome

/-- The map without a key; the others keep their order. -/
def erase (entries : OrderedMap κ α) (key : κ) : OrderedMap κ α :=
  entries.filter fun entry => entry.1 ≠ key

/-- Apply a function to every value, with its key at hand. -/
def mapValues (f : κ -> α -> β) (entries : OrderedMap κ α) : OrderedMap κ β :=
  entries.map fun entry => (entry.1, f entry.1 entry.2)

/-- Assign all entries of a second map, in order. -/
def insertAll (entries : OrderedMap κ α) (more : OrderedMap κ α) : OrderedMap κ α :=
  more.foldl (fun known entry => known.insert entry.1 entry.2) entries

/-- The map that arises by assigning the entries of a list one after another:
a key that occurs twice has its first place and its last value. -/
def ofEntries (entries : List (κ × α)) : OrderedMap κ α :=
  insertAll [] entries

/-- No key occurs twice. -/
def Distinct (entries : OrderedMap κ α) : Prop :=
  entries.keys.Nodup

instance (entries : OrderedMap κ α) : Decidable entries.Distinct :=
  inferInstanceAs (Decidable entries.keys.Nodup)

omit [DecidableEq κ] in
@[simp] theorem keys_nil : keys ([] : OrderedMap κ α) = [] := rfl

omit [DecidableEq κ] in
@[simp] theorem keys_cons (key : κ) (value : α) (rest : OrderedMap κ α) :
    keys ((key, value) :: rest) = key :: keys rest := rfl

@[simp] theorem get?_nil (key : κ) : get? ([] : OrderedMap κ α) key = none := rfl

theorem get?_cons (known : κ) (value : α) (rest : OrderedMap κ α) (key : κ) :
    get? ((known, value) :: rest) key =
      if known = key then some value else get? rest key := rfl

/-- A key has a value exactly when it is among the keys. -/
theorem get?_isSome_iff (entries : OrderedMap κ α) (key : κ) :
    (entries.get? key).isSome = true ↔ key ∈ entries.keys := by
  induction entries with
  | nil => simp
  | cons entry rest ih =>
      obtain ⟨known, value⟩ := entry
      by_cases h : known = key
      · simp [get?_cons, h]
      · have h' : key ≠ known := fun eq => h eq.symm
        simpa [get?_cons, h, h'] using ih

theorem get?_eq_none_iff (entries : OrderedMap κ α) (key : κ) :
    entries.get? key = none ↔ key ∉ entries.keys := by
  rw [← get?_isSome_iff, Bool.not_eq_true, Option.isSome_eq_false_iff,
    Option.isNone_iff_eq_none]

/-- The assigned value is the one found at the key. -/
@[simp] theorem get?_insert_self (entries : OrderedMap κ α) (key : κ) (value : α) :
    (entries.insert key value).get? key = some value := by
  induction entries with
  | nil => simp [insert, get?]
  | cons entry rest ih =>
      obtain ⟨known, old⟩ := entry
      by_cases h : known = key
      · simp [insert, get?, h]
      · simp [insert, get?, h, ih]

/-- Other keys do not see the assignment. -/
theorem get?_insert_of_ne (entries : OrderedMap κ α) {key other : κ} (value : α)
    (different : key ≠ other) :
    (entries.insert key value).get? other = entries.get? other := by
  induction entries with
  | nil => simp [insert, get?, different]
  | cons entry rest ih =>
      obtain ⟨known, old⟩ := entry
      by_cases h : known = key
      · subst h
        simp [insert, get?, different]
      · simp [insert, get?, h, ih]

/-- Assignment appends the key exactly when it is new. -/
theorem keys_insert (entries : OrderedMap κ α) (key : κ) (value : α) :
    (entries.insert key value).keys =
      if key ∈ entries.keys then entries.keys else entries.keys ++ [key] := by
  induction entries with
  | nil => simp [insert]
  | cons entry rest ih =>
      obtain ⟨known, old⟩ := entry
      by_cases h : known = key
      · simp [insert, h]
      · have h' : key ≠ known := fun eq => h eq.symm
        by_cases member : key ∈ keys rest
        · simp [insert, h, ih, member]
        · simp [insert, h, h', ih, member]

/-- Assignment keeps the keys distinct. -/
theorem Distinct.insert {entries : OrderedMap κ α} (distinct : entries.Distinct)
    (key : κ) (value : α) : (OrderedMap.insert entries key value).Distinct := by
  unfold Distinct at *
  rw [keys_insert]
  by_cases member : key ∈ entries.keys
  · simpa [member] using distinct
  · simp only [member, if_false]
    rw [List.nodup_append]
    refine ⟨distinct, by simp, ?_⟩
    intro a present b only same
    simp at only
    subst only
    exact member (same ▸ present)

/-- Repeated assignment to an empty map yields distinct keys. -/
theorem distinct_insertAll (more : OrderedMap κ α) :
    forall {entries : OrderedMap κ α}, entries.Distinct ->
      (insertAll entries more).Distinct := by
  induction more with
  | nil => exact fun distinct => distinct
  | cons entry rest ih =>
      intro entries distinct
      exact ih (distinct.insert entry.1 entry.2)

theorem distinct_ofEntries (entries : List (κ × α)) : (ofEntries entries).Distinct :=
  distinct_insertAll entries (by simp [Distinct])

end OrderedMap

/-- A map no key of which occurs twice. -/
structure KeyedMap (κ α : Type) where
  entries : OrderedMap κ α
  distinct : entries.Distinct

instance {κ α : Type} : Coe (KeyedMap κ α) (OrderedMap κ α) where
  coe := KeyedMap.entries

namespace OrderedMap

variable {κ α β : Type} [DecidableEq κ]

/-- The value at a key that is present. -/
def get (entries : OrderedMap κ α) (key : κ) (present : key ∈ entries.keys) : α :=
  (entries.get? key).get ((get?_isSome_iff entries key).2 present)

theorem get?_eq_some_get (entries : OrderedMap κ α) (key : κ) (present : key ∈ entries.keys) :
    entries.get? key = some (entries.get key present) :=
  (Option.some_get _).symm

/-- Removing a key leaves the other keys in order. -/
theorem keys_erase (entries : OrderedMap κ α) (key : κ) :
    (entries.erase key).keys = entries.keys.filter fun known => known ≠ key := by
  simp [erase, keys, List.filter_map, Function.comp_def]

omit [DecidableEq κ] in
@[simp] theorem keys_mapValues (f : κ -> α -> β) (entries : OrderedMap κ α) :
    (entries.mapValues f).keys = entries.keys := by
  simp [mapValues, keys, Function.comp_def]

theorem get?_mapValues (f : κ -> α -> β) (entries : OrderedMap κ α) (key : κ) :
    (entries.mapValues f).get? key = (entries.get? key).map (f key) := by
  induction entries with
  | nil => rfl
  | cons entry rest ih =>
      obtain ⟨known, value⟩ := entry
      by_cases h : known = key
      · subst h
        simp [mapValues, get?]
      · simpa [mapValues, get?, h] using ih

end OrderedMap

end EventSchema
