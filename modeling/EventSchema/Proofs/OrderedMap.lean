import EventSchema.OrderedMap
import Mathlib.Data.List.Basic
import Mathlib.Data.List.Nodup

namespace EventSchema
namespace OrderedMap

/-!
# Laws of maps in insertion order

The view of a map under every operation that the library uses: what is found at
a key after an assignment, a removal or a restriction, and which keys there
are.  Restrictions to some of the keys commute with assignments, which is what
keeps the order of the entries under control.

A map whose keys are distinct is known by its entries, so a lookup and
membership say the same there.
-/

variable {κ α β : Type} [DecidableEq κ]

/-! ## Lookups and membership -/

theorem get?_insert (entries : OrderedMap κ α) (key other : κ) (value : α) :
    (entries.insert key value).get? other =
      if key = other then some value else entries.get? other := by
  by_cases same : key = other
  · subst other
    rw [get?_insert_self, if_pos rfl]
  · rw [get?_insert_of_ne entries value same, if_neg same]

theorem mem_keys_insert {entries : OrderedMap κ α} {key other : κ} {value : α} :
    other ∈ (entries.insert key value).keys ↔ other = key ∨ other ∈ entries.keys := by
  rw [keys_insert]
  by_cases present : key ∈ entries.keys
  · rw [if_pos present]
    constructor
    · exact Or.inr
    · rintro (same | old)
      · exact same ▸ present
      · exact old
  · rw [if_neg present, List.mem_append, List.mem_singleton, or_comm]

/-- A new key goes last. -/
theorem insert_eq_append {entries : OrderedMap κ α} {key : κ} {value : α}
    (fresh : key ∉ entries.keys) : entries.insert key value = entries ++ [(key, value)] := by
  induction entries with
  | nil => rfl
  | cons entry rest ih =>
      rcases entry with ⟨known, old⟩
      rw [keys_cons, List.mem_cons, not_or] at fresh
      rw [insert, if_neg (Ne.symm fresh.1), ih fresh.2, List.cons_append]

/-- Assigning to a present key alters the value there and nothing else. -/
theorem insert_eq_mapValues {entries : OrderedMap κ α} (distinct : entries.Distinct) {key : κ}
    (present : key ∈ entries.keys) (value : α) :
    entries.insert key value =
      entries.mapValues fun other held => if other = key then value else held := by
  have untouched : forall rest : OrderedMap κ α, key ∉ rest.keys ->
      rest.mapValues (fun other held => if other = key then value else held) = rest := by
    intro rest fresh
    refine (List.map_congr_left fun entry member => ?_).trans (List.map_id rest)
    have different : entry.1 ≠ key := by
      rintro rfl
      exact fresh (List.mem_map_of_mem member)
    exact congrArg (entry.1, ·) (if_neg different)
  induction entries with
  | nil => cases present
  | cons entry rest ih =>
      rcases entry with ⟨known, old⟩
      rcases List.nodup_cons.1 distinct with ⟨fresh, distinctRest⟩
      by_cases same : known = key
      · subst known
        rw [insert, if_pos rfl, mapValues, List.map_cons, if_pos rfl]
        exact congrArg _ (untouched rest fresh).symm
      · have later : key ∈ OrderedMap.keys rest :=
          (List.mem_cons.1 present).resolve_left fun equal => same equal.symm
        rw [insert, if_neg same, mapValues, List.map_cons, if_neg same, ih distinctRest later]
        rfl

/-- Assigning what is there alters nothing. -/
theorem insert_of_get?_eq_some {entries : OrderedMap κ α} {key : κ} {value : α}
    (held : entries.get? key = some value) : entries.insert key value = entries := by
  induction entries with
  | nil => cases held
  | cons entry rest ih =>
      rcases entry with ⟨known, old⟩
      rw [get?_cons] at held
      by_cases same : known = key
      · rw [if_pos same] at held
        cases held
        rw [insert, if_pos same]
      · rw [if_neg same] at held
        rw [insert, if_neg same, ih held]

/-- The last of two assignments to a key counts. -/
theorem insert_insert (entries : OrderedMap κ α) (key : κ) (first last : α) :
    (entries.insert key first).insert key last = entries.insert key last := by
  induction entries with
  | nil => simp [insert]
  | cons entry rest ih =>
      rcases entry with ⟨known, old⟩
      by_cases same : known = key
      · simp only [insert, if_pos same]
      · simp only [insert, if_neg same, ih]

omit [DecidableEq κ] in
theorem keys_append (entries more : OrderedMap κ α) :
    keys (entries ++ more) = entries.keys ++ more.keys :=
  List.map_append

omit [DecidableEq κ] in
theorem values_append (entries more : OrderedMap κ α) :
    values (entries ++ more) = entries.values ++ more.values :=
  List.map_append

omit [DecidableEq κ] in
theorem mapValues_id (entries : OrderedMap κ α) :
    entries.mapValues (fun _ held => id held) = entries :=
  List.map_id entries

omit [DecidableEq κ] in
theorem Distinct.mapValues {entries : OrderedMap κ α} (distinct : entries.Distinct)
    (f : κ -> α -> β) : (OrderedMap.mapValues f entries).Distinct := by
  rwa [Distinct, keys_mapValues]

omit [DecidableEq κ] in
theorem values_mapValues (f : κ -> α -> β) (entries : OrderedMap κ α) :
    (entries.mapValues f).values = entries.map fun entry => f entry.1 entry.2 :=
  List.map_map

/-- What a lookup finds is an entry. -/
theorem mem_of_get?_eq_some {entries : OrderedMap κ α} {key : κ} {value : α}
    (found : entries.get? key = some value) : (key, value) ∈ entries := by
  induction entries with
  | nil => cases found
  | cons entry rest ih =>
      rcases entry with ⟨known, head⟩
      rw [get?_cons] at found
      by_cases same : known = key
      · rw [if_pos same] at found
        cases found
        exact same ▸ List.mem_cons_self
      · rw [if_neg same] at found
        exact List.mem_cons_of_mem _ (ih found)

omit [DecidableEq κ] in
theorem mem_keys_of_mem {entries : OrderedMap κ α} {key : κ} {value : α}
    (member : (key, value) ∈ entries) : key ∈ entries.keys :=
  List.mem_map.2 ⟨(key, value), member, rfl⟩

theorem mem_keys_of_get?_eq_some {entries : OrderedMap κ α} {key : κ} {value : α}
    (found : entries.get? key = some value) : key ∈ entries.keys :=
  mem_keys_of_mem (mem_of_get?_eq_some found)

theorem exists_get?_of_mem_keys {entries : OrderedMap κ α} {key : κ}
    (member : key ∈ entries.keys) : ∃ value, entries.get? key = some value :=
  ⟨_, get?_eq_some_get entries key member⟩

omit [DecidableEq κ] in
theorem Distinct.tail {entry : κ × α} {rest : OrderedMap κ α}
    (distinct : Distinct (entry :: rest)) : Distinct rest :=
  (List.nodup_cons.1 distinct).2

/-- Where keys are distinct every entry is found. -/
theorem Distinct.get?_eq_some_iff {entries : OrderedMap κ α} (distinct : entries.Distinct)
    {key : κ} {value : α} : entries.get? key = some value ↔ (key, value) ∈ entries := by
  refine ⟨mem_of_get?_eq_some, ?_⟩
  induction entries with
  | nil => intro member; cases member
  | cons entry rest ih =>
      intro member
      rcases entry with ⟨known, head⟩
      rw [get?_cons]
      rcases List.mem_cons.1 member with same | old
      · cases same
        rw [if_pos rfl]
      · have different : known ≠ key := by
          intro same
          exact (List.nodup_cons.1 distinct).1 (same ▸ mem_keys_of_mem old)
        rw [if_neg different]
        exact ih distinct.tail old

omit [DecidableEq κ] in
/-- Entries that are related one by one, each to one under its key, have the same
keys. -/
theorem keys_eq_of_forall₂ {related : κ × α -> κ × β -> Prop}
    {entries : OrderedMap κ α} {results : OrderedMap κ β}
    (same : forall entry result, related entry result -> entry.1 = result.1)
    (all : List.Forall₂ related entries results) : entries.keys = results.keys := by
  induction all with
  | nil => rfl
  | cons first _ ih => exact congrArg₂ List.cons (same _ _ first) ih

/-- Maps with the same distinct keys in the same order and the same values are the same. -/
theorem Distinct.eq_of_get? {entries others : OrderedMap κ α} (distinct : entries.Distinct)
    (keys : entries.keys = others.keys)
    (values : ∀ key ∈ entries.keys, entries.get? key = others.get? key) : entries = others := by
  induction entries generalizing others with
  | nil => exact (List.map_eq_nil_iff.mp keys.symm).symm
  | cons entry rest ih =>
      rcases entry with ⟨_, value⟩
      rcases List.map_eq_cons_iff.mp keys.symm with ⟨⟨key, other⟩, more, rfl, rfl, same⟩
      rw [keys_cons, List.forall_mem_cons] at values
      have first := values.1
      rw [get?_cons, get?_cons, if_pos rfl, if_pos rfl] at first
      cases first
      refine congrArg _ (ih distinct.tail same.symm fun later member => ?_)
      have held := values.2 later member
      have different : key ≠ later := fun equal =>
        (List.nodup_cons.1 distinct).1 (equal ▸ member)
      rwa [get?_cons, get?_cons, if_neg different, if_neg different] at held

/-- Reordering a map with distinct keys alters no value. -/
theorem get?_of_perm {entries reordered : OrderedMap κ α} (distinct : reordered.Distinct)
    (perm : reordered.Perm entries) (key : κ) : reordered.get? key = entries.get? key := by
  have entriesDistinct : entries.Distinct := (perm.map Prod.fst).nodup_iff.mp distinct
  apply Option.ext
  intro value
  rw [distinct.get?_eq_some_iff, entriesDistinct.get?_eq_some_iff, perm.mem_iff]

/-- Whatever a map has under a key, another one has there, too. -/
def Within (entries more : OrderedMap κ α) : Prop :=
  forall (key : κ) (value : α), entries.get? key = some value -> more.get? key = some value

/-! ## Restrictions -/

theorem get?_append (entries more : OrderedMap κ α) (key : κ) :
    get? (entries ++ more) key = (entries.get? key).or (more.get? key) := by
  induction entries with
  | nil => rfl
  | cons entry rest ih =>
      rcases entry with ⟨known, value⟩
      rw [List.cons_append, get?_cons, get?_cons]
      by_cases same : known = key
      · rw [if_pos same, if_pos same, Option.some_or]
      · rw [if_neg same, if_neg same, ih]

/-- A restriction to some of the keys. -/
theorem get?_filter_key (p : κ -> Bool) (entries : OrderedMap κ α) (key : κ) :
    get? (entries.filter fun entry => p entry.1) key =
      if p key then entries.get? key else none := by
  induction entries with
  | nil => simp
  | cons entry rest ih =>
      rcases entry with ⟨known, value⟩
      by_cases same : known = key
      · subst known
        by_cases kept : p key = true
        · simp [kept, get?_cons]
        · simp [kept, ih]
      · by_cases kept : p known = true
        · simp only [List.filter_cons, kept, if_true, get?_cons, if_neg same, ih]
        · simpa [List.filter_cons, kept, get?_cons, same] using ih

theorem get?_erase (entries : OrderedMap κ α) (key other : κ) :
    (entries.erase key).get? other = if other = key then none else entries.get? other := by
  have restricted := get?_filter_key (fun known => decide (known ≠ key)) entries other
  by_cases same : other = key
  · simpa [erase, same] using restricted
  · simpa [erase, same] using restricted

omit [DecidableEq κ] in
/-- Distinct keys remain so in every part of a map. -/
theorem Distinct.filter {entries : OrderedMap κ α} (distinct : entries.Distinct)
    (p : κ × α -> Bool) : Distinct (entries.filter p) :=
  distinct.sublist (List.filter_sublist.map Prod.fst)

theorem Distinct.erase {entries : OrderedMap κ α} (distinct : entries.Distinct) (key : κ) :
    (OrderedMap.erase entries key).Distinct :=
  distinct.filter _

/-- A restriction to some of the values, where keys are distinct. -/
theorem Distinct.get?_filter_value {entries : OrderedMap κ α} (distinct : entries.Distinct)
    (p : α -> Bool) (key : κ) :
    get? (entries.filter fun entry => p entry.2) key = (entries.get? key).filter p := by
  ext value
  rw [(distinct.filter _).get?_eq_some_iff, List.mem_filter, Option.filter_eq_some_iff,
    distinct.get?_eq_some_iff]

omit [DecidableEq κ] in
theorem mem_keys_of_mem_filter {entries : OrderedMap κ α} {p : κ × α -> Bool} {key : κ}
    (member : key ∈ keys (entries.filter p)) : key ∈ entries.keys :=
  (List.filter_sublist.map Prod.fst).subset member

/-- Assigning and then restricting to some of the keys. -/
theorem filter_key_insert (p : κ -> Bool) (entries : OrderedMap κ α) (key : κ) (value : α) :
    (entries.insert key value).filter (fun entry => p entry.1) =
      if p key then OrderedMap.insert (entries.filter fun entry => p entry.1) key value
      else entries.filter fun entry => p entry.1 := by
  induction entries with
  | nil => by_cases kept : p key = true <;> simp [insert, kept]
  | cons entry rest ih =>
      rcases entry with ⟨known, old⟩
      by_cases same : known = key
      · subst known
        by_cases kept : p key = true <;> simp [insert, kept]
      · by_cases keptKnown : p known = true
        · by_cases kept : p key = true
          · simp [insert, same, keptKnown, kept, ih]
          · simp [insert, same, keptKnown, kept, ih]
        · simp [insert, same, keptKnown, ih]

/-! ## Many assignments -/

@[simp] theorem insertAll_nil (entries : OrderedMap κ α) : entries.insertAll [] = entries := rfl

theorem insertAll_cons (entries : OrderedMap κ α) (key : κ) (value : α)
    (rest : OrderedMap κ α) :
    entries.insertAll ((key, value) :: rest) = (entries.insert key value).insertAll rest := rfl

theorem insertAll_append (entries first later : OrderedMap κ α) :
    entries.insertAll (first ++ later) = (entries.insertAll first).insertAll later :=
  List.foldl_append

/-- Where no key occurs twice, assignments only append. -/
theorem insertAll_eq_append {entries more : OrderedMap κ α} (distinct : Distinct (entries ++ more)) :
    entries.insertAll more = entries ++ more := by
  induction more generalizing entries with
  | nil => simp
  | cons entry rest ih =>
      rcases entry with ⟨key, value⟩
      have split : entries ++ (key, value) :: rest = (entries ++ [(key, value)]) ++ rest := by simp
      have fresh : key ∉ entries.keys := by
        rw [Distinct, keys_append, keys_cons, List.nodup_append'] at distinct
        exact fun member => distinct.2.2 member List.mem_cons_self
      rw [split] at distinct ⊢
      rw [insertAll_cons, insert_eq_append fresh, ih distinct]

/-- A map is what its own entries make. -/
theorem Distinct.ofEntries {entries : OrderedMap κ α} (distinct : entries.Distinct) :
    OrderedMap.ofEntries entries = entries :=
  insertAll_eq_append distinct

/-- What is assigned wins over what was there. -/
theorem get?_insertAll {more : OrderedMap κ α} (distinct : more.Distinct)
    (entries : OrderedMap κ α) (key : κ) :
    (entries.insertAll more).get? key = (more.get? key).or (entries.get? key) := by
  induction more generalizing entries with
  | nil => rfl
  | cons entry rest ih =>
      rcases entry with ⟨known, value⟩
      rw [insertAll_cons, ih distinct.tail, get?_insert, get?_cons]
      by_cases same : known = key
      · subst known
        have fresh := (get?_eq_none_iff rest key).2 (List.nodup_cons.1 distinct).1
        rw [if_pos rfl, if_pos rfl, fresh, Option.none_or, Option.some_or]
      · rw [if_neg same, if_neg same]

theorem mem_keys_insertAll {entries more : OrderedMap κ α} {key : κ} :
    key ∈ (entries.insertAll more).keys ↔ key ∈ entries.keys ∨ key ∈ more.keys := by
  induction more generalizing entries with
  | nil => simp
  | cons entry rest ih =>
      rcases entry with ⟨known, value⟩
      rw [insertAll_cons, ih, mem_keys_insert, keys_cons, List.mem_cons]
      tauto

/-- Where values are assigned one after another, new keys follow in the order in which
they come first. -/
theorem keys_foldl_insert [BEq κ] [LawfulBEq κ] {γ : Type} (key : γ -> κ) (value : OrderedMap κ α -> γ -> α)
    (additions : List γ) (entries : OrderedMap κ α) :
    (additions.foldl (fun known addition =>
        known.insert (key addition) (value known addition)) entries).keys =
      entries.keys ++ ((additions.map key).filter fun added => added ∉ entries.keys).eraseDups := by
  induction additions generalizing entries with
  | nil => simp
  | cons addition rest ih =>
      rw [List.foldl_cons, ih, keys_insert, List.map_cons, List.filter_cons]
      by_cases present : key addition ∈ entries.keys
      · simp [present]
      · simp only [present, if_false, not_false_eq_true, decide_true, if_true,
          List.eraseDups_cons, List.append_assoc, List.singleton_append, List.filter_filter]
        congr 3
        apply List.filter_congr
        intro other _
        by_cases same : other = key addition <;> simp [same]

/-- The keys of a list of entries stand in the order in which they come first. -/
theorem keys_ofEntries (entries : List (κ × α)) :
    (ofEntries entries).keys = (entries.map Prod.fst).eraseDups := by
  rw [ofEntries, insertAll, keys_foldl_insert Prod.fst fun _ entry => entry.2]
  simp

/-- Of all values that are assigned to a key, the last one counts. -/
theorem get?_insertAll_eq_getLast? (entries more : OrderedMap κ α) (key : κ) :
    (entries.insertAll more).get? key =
      ((more.filter fun entry => entry.1 = key).getLast?.map Prod.snd).or (entries.get? key) := by
  induction more generalizing entries with
  | nil => rfl
  | cons entry rest ih =>
      rcases entry with ⟨known, value⟩
      rw [insertAll_cons, ih, get?_insert, List.filter_cons]
      by_cases same : known = key
      · rw [if_pos same, if_pos (decide_eq_true same), List.getLast?_cons]
        cases (rest.filter fun entry => entry.1 = key).getLast? <;> rfl
      · rw [if_neg same, if_neg (by simpa using same)]

theorem get?_ofEntries (entries : List (κ × α)) (key : κ) :
    (ofEntries entries).get? key =
      (entries.filter fun entry => entry.1 = key).getLast?.map Prod.snd := by
  rw [ofEntries, get?_insertAll_eq_getLast?, get?_nil, Option.or_none]

/-- Keys that are not assigned keep their values. -/
theorem get?_insertAll_of_not_mem {entries more : OrderedMap κ α} {key : κ}
    (untouched : key ∉ more.keys) : (entries.insertAll more).get? key = entries.get? key := by
  have none : more.filter (fun entry => entry.1 = key) = [] := by
    refine List.filter_eq_nil_iff.mpr fun entry member same => untouched ?_
    exact of_decide_eq_true same ▸ List.mem_map_of_mem member
  rw [get?_insertAll_eq_getLast?, none]
  rfl

/-- The keys of before are kept in their order. -/
theorem filter_keys_insertAll (entries more : OrderedMap κ α) :
    ((entries.insertAll more).keys.filter fun key => decide (key ∈ entries.keys)) =
      entries.keys := by
  have added : ((more.map Prod.fst).filter fun key => key ∉ entries.keys).eraseDups.filter
      (fun key => decide (key ∈ entries.keys)) = [] := by
    refine List.filter_eq_nil_iff.mpr fun key member old => ?_
    have new := (List.mem_filter.1 (List.mem_eraseDups.1 member)).2
    exact of_decide_eq_true new (of_decide_eq_true old)
  rw [insertAll, keys_foldl_insert Prod.fst fun _ entry => entry.2, List.filter_append,
    List.filter_eq_self.mpr fun key member => decide_eq_true member, added, List.append_nil]

/-- A restriction to some of the keys commutes with assignments. -/
theorem filter_key_insertAll (p : κ -> Bool) (entries more : OrderedMap κ α) :
    (entries.insertAll more).filter (fun entry => p entry.1) =
      OrderedMap.insertAll (entries.filter fun entry => p entry.1)
        (more.filter fun entry => p entry.1) := by
  induction more generalizing entries with
  | nil => rfl
  | cons entry rest ih =>
      rcases entry with ⟨known, value⟩
      rw [insertAll_cons, ih, filter_key_insert]
      by_cases kept : p known = true
      · simp only [kept, if_true, List.filter_cons, insertAll_cons]
      · simp [kept]

/-! ## Entries -/

/-- An entry is the assigned one or an old one. -/
theorem mem_of_mem_insert {entries : OrderedMap κ α} {key : κ} {value : α} {entry : κ × α}
    (member : entry ∈ entries.insert key value) : entry = (key, value) ∨ entry ∈ entries := by
  induction entries with
  | nil => exact Or.inl (List.mem_singleton.1 member)
  | cons head rest ih =>
      rcases head with ⟨known, old⟩
      by_cases same : known = key
      · rw [insert, if_pos same, List.mem_cons] at member
        rcases member with rfl | later
        · exact Or.inl (same ▸ rfl)
        · exact Or.inr (List.mem_cons_of_mem _ later)
      · rw [insert, if_neg same, List.mem_cons] at member
        rcases member with rfl | later
        · exact Or.inr List.mem_cons_self
        · exact (ih later).imp_right (List.mem_cons_of_mem _)

theorem mem_of_mem_insertAll {entries more : OrderedMap κ α} {entry : κ × α}
    (member : entry ∈ entries.insertAll more) : entry ∈ entries ∨ entry ∈ more := by
  induction more generalizing entries with
  | nil => exact Or.inl member
  | cons head rest ih =>
      rcases head with ⟨key, value⟩
      rw [insertAll_cons] at member
      rcases ih member with old | new
      · rcases mem_of_mem_insert old with rfl | older
        · exact Or.inr List.mem_cons_self
        · exact Or.inl older
      · exact Or.inr (List.mem_cons_of_mem _ new)

theorem mem_of_mem_ofEntries {entries : List (κ × α)} {entry : κ × α}
    (member : entry ∈ ofEntries entries) : entry ∈ entries :=
  (mem_of_mem_insertAll member).resolve_left List.not_mem_nil

end OrderedMap
end EventSchema
