import Mathlib.Data.List.Forall2

namespace EventSchema
namespace Outcome

/-!
# Outcomes of steps in a row

A row of steps ends with the first failure.  The lemmas below take such a row
apart: it succeeds if every step does, and it fails with the failure of a step
before which all others succeed.
-/

variable {ε α β : Type}

theorem bind_eq_ok_iff {first : Except ε α} {next : α -> Except ε β} {result : β} :
    (first >>= next) = .ok result ↔ ∃ value, first = .ok value ∧ next value = .ok result := by
  cases first with
  | error fault => exact ⟨fun same => (by cases same), fun ⟨_, same, _⟩ => (by cases same)⟩
  | ok value => exact ⟨fun later => ⟨value, rfl, later⟩, fun ⟨_, same, later⟩ => by cases same; exact later⟩

theorem bind_eq_error_iff {first : Except ε α} {next : α -> Except ε β} {fault : ε} :
    (first >>= next) = .error fault ↔
      first = .error fault ∨ ∃ value, first = .ok value ∧ next value = .error fault := by
  cases first with
  | error other =>
      refine ⟨fun same => Or.inl (by cases same; rfl), ?_⟩
      rintro (same | ⟨_, same, _⟩) <;> cases same
      rfl
  | ok value =>
      refine ⟨fun later => Or.inr ⟨value, rfl, later⟩, ?_⟩
      rintro (same | ⟨_, same, later⟩) <;> cases same
      exact later

/-! ## Steps over a list -/

/-- A list of results arises from the results of the steps one by one. -/
theorem mapM_eq_ok_iff {step : α -> Except ε β} {entries : List α} {results : List β} :
    entries.mapM step = .ok results ↔
      List.Forall₂ (fun entry result => step entry = .ok result) entries results := by
  induction entries generalizing results with
  | nil =>
      rw [List.mapM_nil, List.forall₂_nil_left_iff]
      exact ⟨fun same => (Except.ok.inj same).symm, fun same => by rw [same]; rfl⟩
  | cons entry rest ih =>
      rw [List.mapM_cons, bind_eq_ok_iff, List.forall₂_cons_left_iff]
      constructor
      · rintro ⟨result, first, others⟩
        rcases bind_eq_ok_iff.mp others with ⟨more, mapped, same⟩
        exact ⟨result, more, first, ih.1 mapped, (Except.ok.inj same).symm⟩
      · rintro ⟨result, more, first, mapped, rfl⟩
        exact ⟨result, first, bind_eq_ok_iff.mpr ⟨more, ih.2 mapped, rfl⟩⟩

theorem mapM_eq_error_iff {step : α -> Except ε β} {entries : List α} {fault : ε} :
    entries.mapM step = .error fault ↔
      ∃ before entry after, entries = before ++ entry :: after ∧
        (∀ earlier ∈ before, ∃ result, step earlier = .ok result) ∧
        step entry = .error fault := by
  induction entries with
  | nil =>
      rw [List.mapM_nil]
      exact ⟨fun same => (by cases same), fun ⟨before, _, _, split, _⟩ => by simp at split⟩
  | cons entry rest ih =>
      rw [List.mapM_cons, bind_eq_error_iff]
      constructor
      · rintro (fails | ⟨result, first, others⟩)
        · exact ⟨[], entry, rest, rfl, by simp, fails⟩
        · rcases bind_eq_error_iff.mp others with later | ⟨more, _, same⟩
          · rcases ih.1 later with ⟨before, failing, after, split, fine, fails⟩
            refine ⟨entry :: before, failing, after, by rw [split]; rfl, ?_, fails⟩
            intro earlier member
            rcases List.mem_cons.1 member with rfl | old
            · exact ⟨result, first⟩
            · exact fine earlier old
          · cases same
      · rintro ⟨before, failing, after, split, fine, fails⟩
        cases before with
        | nil =>
            rcases List.cons.inj split with ⟨rfl, rfl⟩
            exact Or.inl fails
        | cons head others =>
            rcases List.cons.inj split with ⟨rfl, tail⟩
            rcases fine entry List.mem_cons_self with ⟨result, first⟩
            refine Or.inr ⟨result, first, bind_eq_error_iff.mpr (Or.inl (ih.2 ?_))⟩
            exact ⟨others, failing, after, tail,
              fun earlier member => fine earlier (List.mem_cons_of_mem _ member), fails⟩

/-- What every step of a fold preserves holds at its end. -/
theorem foldlM_invariant {step : β -> α -> Except ε β} {motive : β -> Prop} {entries : List α}
    (preserves : ∀ entry ∈ entries, forall state next : β, motive state ->
      step state entry = .ok next -> motive next)
    {start result : β} (holds : motive start) (folds : entries.foldlM step start = .ok result) :
    motive result := by
  induction entries generalizing start with
  | nil => exact Except.ok.inj folds ▸ holds
  | cons entry rest ih =>
      rw [List.foldlM_cons] at folds
      rcases bind_eq_ok_iff.mp folds with ⟨middle, first, others⟩
      exact ih (fun other member => preserves other (List.mem_cons_of_mem _ member))
        (preserves entry List.mem_cons_self start middle holds first) others

theorem foldlM_eq_error_iff {step : β -> α -> Except ε β} {entries : List α} {start : β}
    {fault : ε} :
    entries.foldlM step start = .error fault ↔
      ∃ before entry after state, entries = before ++ entry :: after ∧
        before.foldlM step start = .ok state ∧ step state entry = .error fault := by
  induction entries generalizing start with
  | nil =>
      exact ⟨fun same => (by cases same), fun ⟨before, _, _, _, split, _⟩ => by simp at split⟩
  | cons entry rest ih =>
      rw [List.foldlM_cons, bind_eq_error_iff]
      constructor
      · rintro (fails | ⟨middle, first, others⟩)
        · exact ⟨[], entry, rest, start, rfl, rfl, fails⟩
        · rcases ih.1 others with ⟨before, failing, after, state, split, folds, fails⟩
          refine ⟨entry :: before, failing, after, state, by rw [split]; rfl, ?_, fails⟩
          rw [List.foldlM_cons]
          exact bind_eq_ok_iff.mpr ⟨middle, first, folds⟩
      · rintro ⟨before, failing, after, state, split, folds, fails⟩
        cases before with
        | nil =>
            rcases List.cons.inj split with ⟨rfl, rfl⟩
            cases folds
            exact Or.inl fails
        | cons head others =>
            rcases List.cons.inj split with ⟨rfl, tail⟩
            rw [List.foldlM_cons] at folds
            rcases bind_eq_ok_iff.mp folds with ⟨middle, first, later⟩
            exact Or.inr ⟨middle, first, ih.2 ⟨others, failing, after, state, tail, later, fails⟩⟩

/-- A fold whose steps all succeed is the fold of what they do. -/
theorem foldlM_eq_ok_of_forall₂ {γ : Type} {step : β -> α -> Except ε β} {next : β -> γ -> β}
    {entries : List α} {given : List γ}
    (all : List.Forall₂ (fun entry own => forall state : β, step state entry = .ok (next state own))
      entries given) (start : β) :
    entries.foldlM step start = .ok (given.foldl next start) := by
  induction all generalizing start with
  | nil => rfl
  | cons first _ ih =>
      rw [List.foldlM_cons, List.foldl_cons, first start]
      exact ih _

/-- A fold that succeeds is the fold of what its steps have done. -/
theorem exists_forall₂_of_foldlM {γ : Type} {step : β -> α -> Except ε β} {next : β -> γ -> β}
    {given : α -> γ -> Prop} {entries : List α}
    (steps : ∀ entry ∈ entries, forall state result : β, step state entry = .ok result ->
      ∃ own, given entry own ∧ result = next state own)
    {start result : β} (folds : entries.foldlM step start = .ok result) :
    ∃ all, List.Forall₂ given entries all ∧ result = all.foldl next start := by
  induction entries generalizing start with
  | nil => exact ⟨[], List.Forall₂.nil, (Except.ok.inj folds).symm⟩
  | cons entry rest ih =>
      rw [List.forall_mem_cons] at steps
      rw [List.foldlM_cons] at folds
      rcases bind_eq_ok_iff.mp folds with ⟨middle, first, others⟩
      rcases steps.1 start middle first with ⟨own, holds, rfl⟩
      rcases ih steps.2 others with ⟨all, each, same⟩
      exact ⟨own :: all, List.Forall₂.cons holds each, same⟩

/-! ## Outcomes that are kept -/

/-- Whatever the first of two outcomes yields, the second one yields, too. -/
def KeptBy (first second : Except ε α) : Prop :=
  forall value : α, first = .ok value -> second = .ok value

namespace KeptBy

theorem refl (outcome : Except ε α) : KeptBy outcome outcome := fun _ yields => yields

theorem bind {first second : Except ε α} {next later : α -> Except ε β}
    (starts : KeptBy first second) (goes : forall value : α, KeptBy (next value) (later value)) :
    KeptBy (first >>= next) (second >>= later) := by
  intro result yields
  rcases bind_eq_ok_iff.mp yields with ⟨value, begun, ends⟩
  exact bind_eq_ok_iff.mpr ⟨value, starts value begun, goes value result ends⟩

end KeptBy

/-! ## First faults -/

/-- The first entry of a list that has a fault has this one. -/
def FirstFault (fault : α -> ε -> Prop) (entries : List α) (failure : ε) : Prop :=
  ∃ before entry after, entries = before ++ entry :: after ∧
    (∀ earlier ∈ before, forall other : ε, ¬fault earlier other) ∧ fault entry failure

theorem not_firstFault_iff {fault : α -> ε -> Prop} {entries : List α} :
    (forall failure : ε, ¬FirstFault fault entries failure) ↔
      ∀ entry ∈ entries, forall failure : ε, ¬fault entry failure := by
  constructor
  · intro none
    induction entries with
    | nil => simp
    | cons head rest ih =>
        have here : forall failure : ε, ¬fault head failure := fun failure holds =>
          none failure ⟨[], head, rest, rfl, by simp, holds⟩
        refine List.forall_mem_cons.2 ⟨here, ih fun failure later => ?_⟩
        rcases later with ⟨before, entry, after, rfl, fine, holds⟩
        exact none failure ⟨head :: before, entry, after, rfl,
          List.forall_mem_cons.2 ⟨here, fine⟩, holds⟩
  · rintro none failure ⟨before, entry, after, rfl, _, holds⟩
    exact none entry (by simp) failure holds

/-- The first fault is that of the entries before faultless ones. -/
theorem firstFault_append_iff {fault : α -> ε -> Prop} {entries clean : List α} {failure : ε}
    (fine : ∀ entry ∈ clean, forall other : ε, ¬fault entry other) :
    FirstFault fault (entries ++ clean) failure ↔ FirstFault fault entries failure := by
  constructor
  · rintro ⟨before, entry, after, split, earlier, holds⟩
    rcases List.append_eq_append_iff.mp split with ⟨others, rfl, rest⟩ | ⟨others, rfl, rest⟩
    · exact absurd holds (fine entry (rest ▸ by simp) failure)
    · cases others with
      | nil => exact absurd holds (fine entry (by rw [List.nil_append] at rest; simp [← rest]) failure)
      | cons head tail =>
          rcases List.cons.inj rest with ⟨rfl, rfl⟩
          exact ⟨before, entry, tail, rfl, earlier, holds⟩
  · rintro ⟨before, entry, after, rfl, earlier, holds⟩
    exact ⟨before, entry, after ++ clean, by simp, earlier, holds⟩

theorem firstFault_map_iff {fault : β -> ε -> Prop} {f : α -> β} {entries : List α} {failure : ε} :
    FirstFault fault (entries.map f) failure ↔
      FirstFault (fun entry other => fault (f entry) other) entries failure := by
  constructor
  · rintro ⟨before, entry, after, split, earlier, holds⟩
    rcases List.map_eq_append_iff.mp split with ⟨lower, upper, rfl, rfl, rest⟩
    rcases List.map_eq_cons_iff.mp rest with ⟨source, others, rfl, rfl, rfl⟩
    exact ⟨lower, source, others, rfl,
      fun other member => earlier (f other) (List.mem_map_of_mem member), holds⟩
  · rintro ⟨before, entry, after, rfl, earlier, holds⟩
    refine ⟨before.map f, f entry, after.map f, by simp, fun other member => ?_, holds⟩
    rcases List.mem_map.1 member with ⟨source, within, rfl⟩
    exact earlier source within

theorem toOption_eq_some_iff {outcome : Except ε α} {value : α} :
    outcome.toOption = some value ↔ outcome = .ok value := by
  cases outcome with
  | ok other => simp [Except.toOption]
  | error fault => simp [Except.toOption]

theorem exists_ok_iff {outcome : Except ε α} :
    (∃ value, outcome = .ok value) ↔ forall fault : ε, outcome ≠ .error fault := by
  cases outcome with
  | ok value => simp
  | error fault => simp

/-- A list of steps that each have their own faults fails with the first of them. -/
theorem mapM_eq_error_iff_firstFault {step : α -> Except ε β} {fault : α -> ε -> Prop}
    (faults : forall (entry : α) (failure : ε), step entry = .error failure ↔ fault entry failure)
    {entries : List α} {failure : ε} :
    entries.mapM step = .error failure ↔ FirstFault fault entries failure := by
  rw [mapM_eq_error_iff]
  simp only [exists_ok_iff, ne_eq, faults, FirstFault]

/-- So does a fold, where the faults do not depend on its state. -/
theorem foldlM_eq_error_iff_firstFault {step : β -> α -> Except ε β} {fault : α -> ε -> Prop}
    (faults : forall (state : β) (entry : α) (failure : ε),
      step state entry = .error failure ↔ fault entry failure)
    {entries : List α} {start : β} {failure : ε} :
    entries.foldlM step start = .error failure ↔ FirstFault fault entries failure := by
  have fine : forall (rest : List α) (state : β), (∃ result, rest.foldlM step state = .ok result) ↔
      ∀ entry ∈ rest, forall other : ε, ¬fault entry other := by
    intro rest
    induction rest with
    | nil => exact fun state => ⟨fun _ _ member => (by cases member), fun _ => ⟨state, rfl⟩⟩
    | cons entry rest ih =>
        intro state
        rw [List.foldlM_cons, List.forall_mem_cons]
        simp only [bind_eq_ok_iff]
        constructor
        · rintro ⟨result, middle, first, others⟩
          refine ⟨fun other holds => ?_, (ih middle).1 ⟨result, others⟩⟩
          cases first.symm.trans ((faults state entry other).2 holds)
        · rintro ⟨here, later⟩
          rcases exists_ok_iff.mpr fun other failed => here other ((faults state entry other).1
              failed) with
            ⟨middle, first⟩
          rcases (ih middle).2 later with ⟨result, others⟩
          exact ⟨result, middle, first, others⟩
  rw [foldlM_eq_error_iff]
  constructor
  · rintro ⟨before, entry, after, state, split, folds, fails⟩
    exact ⟨before, entry, after, split, (fine before start).1 ⟨state, folds⟩,
      (faults state entry failure).1 fails⟩
  · rintro ⟨before, entry, after, split, clean, holds⟩
    rcases (fine before start).2 clean with ⟨state, folds⟩
    exact ⟨before, entry, after, state, split, folds, (faults state entry failure).2 holds⟩

/-! ## Lookups over a list -/

/-- Lookups that all find something find it one by one. -/
theorem mapM_eq_some_iff {find : α -> Option β} {entries : List α} {results : List β} :
    entries.mapM find = some results ↔
      List.Forall₂ (fun entry result => find entry = some result) entries results := by
  induction entries generalizing results with
  | nil =>
      rw [List.mapM_nil, List.forall₂_nil_left_iff]
      exact ⟨fun same => (Option.some.inj same).symm, fun same => by rw [same]; rfl⟩
  | cons entry rest ih =>
      simp only [List.mapM_cons, Option.bind_eq_bind, Option.bind_eq_some_iff, ih,
        List.forall₂_cons_left_iff]
      constructor
      · rintro ⟨result, first, more, mapped, same⟩
        exact ⟨result, more, first, mapped, (Option.some.inj same).symm⟩
      · rintro ⟨result, more, first, mapped, rfl⟩
        exact ⟨result, first, more, mapped, rfl⟩

theorem mapM_eq_none_iff {find : α -> Option β} {entries : List α} :
    entries.mapM find = none ↔ ∃ entry ∈ entries, find entry = none := by
  induction entries with
  | nil => simp
  | cons entry rest ih =>
      cases first : find entry with
      | none => simp [List.mapM_cons, first]
      | some result => cases others : rest.mapM find <;> simp_all [List.mapM_cons]

/-- Members that all have a partner form a list with the list of their partners. -/
theorem exists_forall₂ {related : α -> β -> Prop} {entries : List α}
    (each : ∀ entry ∈ entries, ∃ result, related entry result) :
    ∃ results, List.Forall₂ related entries results := by
  induction entries with
  | nil => exact ⟨[], List.Forall₂.nil⟩
  | cons entry rest ih =>
      rcases each entry List.mem_cons_self with ⟨result, first⟩
      rcases ih fun other member => each other (List.mem_cons_of_mem _ member) with ⟨results, others⟩
      exact ⟨result :: results, List.Forall₂.cons first others⟩

/-- Where each member determines its partner, the partners are an image. -/
theorem eq_map_of_forall₂ {f : α -> β} {entries : List α} {results : List β}
    (each : List.Forall₂ (fun entry result => result = f entry) entries results) :
    results = entries.map f := by
  induction each with
  | nil => rfl
  | cons first _ ih => rw [first, ih, List.map_cons]

/-- What two lists are related by holds of each member and a partner. -/
theorem exists_of_mem_right {related : α -> β -> Prop} {entries : List α} {results : List β}
    (all : List.Forall₂ related entries results) :
    ∀ result ∈ results, ∃ entry ∈ entries, related entry result := by
  induction all with
  | nil => simp
  | cons first _ ih =>
      intro result member
      rcases List.mem_cons.1 member with rfl | old
      · exact ⟨_, List.mem_cons_self, first⟩
      · rcases ih result old with ⟨entry, within, holds⟩
        exact ⟨entry, List.mem_cons_of_mem _ within, holds⟩

end Outcome
end EventSchema
