import EventSchema.Sorting
import Mathlib.Data.List.Sort

namespace EventSchema
namespace Sorting

/-!
# Sorted lists

Sorting is the insertion sort of the library, for an order that is computed.  What is
known of that one is carried over.  Beyond it, sorting is related to leaving entries out
and to the order in which they come: that order does not matter exactly if no two entries
compare equal.
-/

variable {α : Type}

/-- Putting an entry in its place is ordered insertion. -/
theorem insert_eq_orderedInsert (le : α -> α -> Bool) (entry : α) (entries : List α) :
    insert le entry entries = entries.orderedInsert (fun a b => le a b = true) entry := by
  induction entries with
  | nil => rfl
  | cons head rest ih => rw [insert, List.orderedInsert_cons, ih]

/-- Sorting is insertion sort. -/
theorem sort_eq_insertionSort (le : α -> α -> Bool) (entries : List α) :
    sort le entries = entries.insertionSort fun a b => le a b = true := by
  induction entries with
  | nil => rfl
  | cons head rest ih =>
      rw [List.insertionSort_cons, ← ih, ← insert_eq_orderedInsert]
      rfl

/-- Sorting neither loses nor invents an entry. -/
theorem sort_perm (le : α -> α -> Bool) (entries : List α) :
    (sort le entries).Perm entries := by
  rw [sort_eq_insertionSort]
  exact List.perm_insertionSort _ entries

@[simp] theorem mem_sort {le : α -> α -> Bool} {entries : List α} {entry : α} :
    entry ∈ sort le entries ↔ entry ∈ entries :=
  (sort_perm le entries).mem_iff

/-- The result is sorted whenever the comparison is total and transitive. -/
theorem sort_pairwise {le : α -> α -> Bool}
    (total : forall a b, le a b = true ∨ le b a = true)
    (trans : forall a b c, le a b = true -> le b c = true -> le a c = true)
    (entries : List α) : (sort le entries).Pairwise fun a b => le a b = true := by
  have : Std.Total fun a b => le a b = true := ⟨total⟩
  have : IsTrans α fun a b => le a b = true := ⟨trans⟩
  rw [sort_eq_insertionSort]
  exact List.pairwise_insertionSort _ entries

/-- In a sorted list an entry finds the same place whether others are left out before or
after it is put there. -/
theorem filter_insert {le : α -> α -> Bool}
    (trans : forall a b c, le a b = true -> le b c = true -> le a c = true) (p : α -> Bool)
    (entry : α) {entries : List α} (sorted : entries.Pairwise fun a b => le a b = true) :
    (insert le entry entries).filter p =
      if p entry then insert le entry (entries.filter p) else entries.filter p := by
  induction entries with
  | nil => by_cases kept : p entry = true <;> simp [insert, kept]
  | cons head rest ih =>
      obtain ⟨first, tail⟩ := List.pairwise_cons.1 sorted
      by_cases here : le entry head = true
      · -- All that follows comes after the entry too, so it goes in front of what is kept.
        have front : forall kept : List α, (∀ other ∈ kept, le entry other = true) ->
            insert le entry kept = entry :: kept := by
          intro kept after
          cases kept with
          | nil => rfl
          | cons next others => simp [insert, after next List.mem_cons_self]
        have after : ∀ other ∈ (head :: rest).filter p, le entry other = true := by
          intro other member
          rcases List.mem_cons.1 (List.mem_filter.1 member).1 with rfl | later
          · exact here
          · exact trans _ _ _ here (first other later)
        rw [front _ after, insert, if_pos here, List.filter_cons]
      · rw [insert, if_neg here, List.filter_cons, List.filter_cons, ih tail]
        by_cases kept : p head = true
        · by_cases own : p entry = true
          · simp [kept, own, insert, here]
          · simp [kept, own]
        · simp [kept]

/-- Entries may be left out before sorting or after it. -/
theorem filter_sort {le : α -> α -> Bool}
    (total : forall a b, le a b = true ∨ le b a = true)
    (trans : forall a b c, le a b = true -> le b c = true -> le a c = true) (p : α -> Bool)
    (entries : List α) : (sort le entries).filter p = sort le (entries.filter p) := by
  induction entries with
  | nil => rfl
  | cons head rest ih =>
      change (insert le head (sort le rest)).filter p = _
      rw [filter_insert trans p head (sort_pairwise total trans rest), ih, List.filter_cons]
      by_cases kept : p head = true
      · rw [if_pos kept, if_pos kept]
        rfl
      · rw [if_neg kept, if_neg kept]

/-- A function that keeps the order may be applied before sorting or after it. -/
theorem sort_map {β : Type} {le : α -> α -> Bool} {leMapped : β -> β -> Bool} {f : α -> β}
    {entries : List α}
    (keeps : ∀ first ∈ entries, ∀ second ∈ entries, leMapped (f first) (f second) = le first second) :
    sort leMapped (entries.map f) = (sort le entries).map f := by
  rw [sort_eq_insertionSort, sort_eq_insertionSort]
  refine (List.map_insertionSort _ _ f entries fun first firstMember second secondMember => ?_).symm
  rw [keeps first firstMember second secondMember]

/-- A sorted list stays as it is. -/
theorem sort_eq_self {le : α -> α -> Bool} {entries : List α}
    (sorted : entries.Pairwise fun a b => le a b = true) : sort le entries = entries := by
  rw [sort_eq_insertionSort]
  exact sorted.insertionSort_eq

/-- A list without repetitions that reads the same in both directions has one member at
most. -/
theorem eq_of_reverse_eq_self {entries : List α} (nodup : entries.Nodup)
    (same : entries.reverse = entries) {first second : α} (firstMember : first ∈ entries)
    (secondMember : second ∈ entries) : first = second := by
  have middle : forall (index : Nat) (bound : index < entries.length),
      entries.length - 1 - index = index := by
    intro index bound
    have mirrored : entries[entries.length - 1 - index] = entries[index] := by
      rw [← List.getElem_reverse (by simpa using bound)]
      simp only [same]
    have apart := List.pairwise_iff_getElem.mp nodup
    rcases Nat.lt_trichotomy (entries.length - 1 - index) index with lower | equal | upper
    · exact absurd mirrored (apart _ _ _ _ lower)
    · exact equal
    · exact absurd mirrored.symm (apart _ _ _ _ upper)
  rcases List.mem_iff_getElem.mp firstMember with ⟨i, iBound, rfl⟩
  rcases List.mem_iff_getElem.mp secondMember with ⟨j, jBound, rfl⟩
  have here := middle i iBound
  have there := middle j jBound
  have together : i = j := by omega
  simp only [together]

/-- The order in which entries come does not matter once they are sorted, exactly if no
two of them compare equal. -/
theorem forall_perm_sort_eq_iff {le : α -> α -> Bool}
    (total : forall a b, le a b = true ∨ le b a = true)
    (trans : forall a b c, le a b = true -> le b c = true -> le a c = true)
    {entries : List α} (nodup : entries.Nodup) :
    (forall order : List α, order.Perm entries -> sort le order = sort le entries) ↔
      ∀ first ∈ entries, ∀ second ∈ entries,
        le first second = true -> le second first = true -> first = second := by
  constructor
  · intro settled first firstMember second secondMember lower upper
    -- Entries that compare equal to the first keep their order, also the reverse one.
    let equal (entry : α) : Bool := le first entry && le entry first
    have kept : forall order : List α, (∀ entry ∈ order, equal entry = true) ->
        sort le order = order := by
      intro order all
      refine sort_eq_self (List.pairwise_of_forall_mem_list fun a aMember b bMember => ?_)
      have aEqual := Bool.and_eq_true_iff.mp (all a aMember)
      have bEqual := Bool.and_eq_true_iff.mp (all b bMember)
      exact trans a first b aEqual.2 bEqual.1
    have mirrored : (entries.filter equal).reverse = entries.filter equal := by
      have backwards := congrArg (List.filter equal) (settled _ entries.reverse_perm)
      rw [filter_sort total trans, filter_sort total trans, List.filter_reverse,
        kept _ (by simp), kept _ (by simp)] at backwards
      exact backwards
    refine eq_of_reverse_eq_self (nodup.filter equal) mirrored (List.mem_filter.mpr ?_)
      (List.mem_filter.mpr ?_)
    · have itself : le first first = true := (total first first).elim id id
      exact ⟨firstMember, Bool.and_eq_true_iff.mpr ⟨itself, itself⟩⟩
    · exact ⟨secondMember, Bool.and_eq_true_iff.mpr ⟨lower, upper⟩⟩
  · intro apart order perm
    have same : (sort le order).Perm (sort le entries) :=
      (sort_perm le order).trans (perm.trans (sort_perm le entries).symm)
    refine List.Perm.eq_of_pairwise ?_ (sort_pairwise total trans order)
      (sort_pairwise total trans entries) same
    intro first second firstMember secondMember
    exact apart first (perm.mem_iff.mp (mem_sort.mp firstMember)) second
      (mem_sort.mp secondMember)

/-- Of equal entries only the first is kept. -/
theorem nodup_eraseDups [DecidableEq α] : (entries : List α) -> entries.eraseDups.Nodup
  | [] => List.nodup_nil
  | head :: rest => by
      rw [List.eraseDups_cons, List.nodup_cons, List.mem_eraseDups]
      exact ⟨by simp, nodup_eraseDups _⟩
termination_by entries => entries.length
decreasing_by exact Nat.lt_succ_of_le (List.length_filter_le _ _)

/-- A function that tells the entries of a list apart may be applied before repeated
entries are erased or after it. -/
theorem eraseDups_map {β : Type} [DecidableEq α] [DecidableEq β] {f : α -> β} :
    (entries : List α) ->
      (∀ first ∈ entries, ∀ second ∈ entries, f first = f second -> first = second) ->
      (entries.map f).eraseDups = entries.eraseDups.map f
  | [], _ => rfl
  | head :: rest, apart => by
      have others : (rest.filter fun other => !f other == f head) =
          rest.filter fun other => !other == head := by
        apply List.filter_congr
        intro other member
        have told : (f other == f head) = (other == head) := by
          rw [Bool.eq_iff_iff, beq_iff_eq, beq_iff_eq]
          exact ⟨apart other (List.mem_cons_of_mem _ member) head List.mem_cons_self,
            fun same => congrArg f same⟩
        rw [told]
      rw [List.map_cons, List.eraseDups_cons, List.eraseDups_cons, List.map_cons,
        List.filter_map, Function.comp_def, others]
      congr 1
      apply eraseDups_map
      intro first firstMember second secondMember
      exact apart first (List.mem_cons_of_mem _ (List.mem_filter.1 firstMember).1) second
        (List.mem_cons_of_mem _ (List.mem_filter.1 secondMember).1)
termination_by entries => entries.length
decreasing_by exact Nat.lt_succ_of_le (List.length_filter_le _ _)

end Sorting
end EventSchema
