import EventSchema.Proofs.Inclusion.Congruence
import EventSchema.Proofs.OrderedMap
import EventSchema.Proofs.Source

namespace EventSchema
namespace Session

/-!
# Fragments that are remembered

A session reads each fragment once and remembers it.  What it remembers is what
reading again would give, so the outcome of a session is that of the same steps
without memory (`Follows`), whatever was remembered at its start.

Sessions that read nothing but fragments are built in a few ways (`Fetches`), and
expansion is such a session.  What holds of all of them is proved by induction on
how they are built.
-/

variable {α β : Type} {tree : SchemaTree}

/-! ## Sessions as reports -/

/-- The report of two sessions in a row: the second starts with the memory of the
first. -/
theorem fst_bind (session : Session α) (next : α -> Session β) (known : Fragments) :
    ((session >>= next) known).1 =
      (session known).1 >>= fun value => (next value (session known).2).1 := by
  show (session.bind next known).1 = (session known).1.bind _
  unfold bind Report.bind
  rcases session known with ⟨⟨events, outcome⟩, later⟩
  cases outcome <;> rfl

/-- The memory after two sessions in a row. -/
theorem snd_bind (session : Session α) (next : α -> Session β) (known : Fragments) :
    ((session >>= next) known).2 =
      match (session known).1.outcome with
      | .ok value => (next value (session known).2).2
      | .error _ => (session known).2 := by
  show (session.bind next known).2 = _
  unfold bind
  rcases session known with ⟨⟨events, outcome⟩, later⟩
  cases outcome <;> rfl

instance : LawfulMonad Session :=
  LawfulMonad.mk' Session
    (fun session => by
      funext known
      refine Prod.ext ?_ ?_
      · exact (fst_bind session pure known).trans (bind_pure (session known).1)
      · apply (snd_bind session pure known).trans
        cases (session known).1.outcome <;> rfl)
    (fun value next => by
      funext known
      refine Prod.ext ?_ ?_
      · exact (fst_bind (pure value) next known).trans (pure_bind value _)
      · exact snd_bind (pure value) next known)
    (fun session first second => by
      funext known
      show (session.bind first).bind second known =
        session.bind (fun value => (first value).bind second) known
      simp only [bind]
      rcases session known with ⟨⟨events, outcome⟩, later⟩
      cases outcome with
      | error failure => rfl
      | ok value =>
          dsimp only
          rcases first value later with ⟨⟨more, result⟩, last⟩
          cases result with
          | error failure => rfl
          | ok middle => simp only [List.append_assoc])

/-- A session that never fails, with the outcome of another as its value. -/
def attempt (session : Session α) : Session (Except Failure α) :=
  fun known => ((session known).1.attempt, (session known).2)

/-! ## Sessions and steps without memory -/

/-- What is remembered is what reading gives. -/
def Faithful (tree : SchemaTree) (known : Fragments) : Prop :=
  forall (path : Path) (fragment : Fields), known.get? path = some fragment ->
    (tree.isFile path).outcome = .ok true ∧ (tree.readObject path).outcome = .ok fragment

/-- A session has the outcome of a report and leaves a faithful memory, if it
starts from one. -/
structure Follows (tree : SchemaTree) (session : Session α) (report : Report α) : Prop where
  outcome : forall known : Fragments, Faithful tree known ->
    (session known).1.outcome = report.outcome
  faithful : forall known : Fragments, Faithful tree known -> Faithful tree (session known).2

theorem faithful_nil : Faithful tree [] :=
  fun _ _ found => by cases found

namespace Follows

theorem ofReport (report : Report α) : Follows tree (Session.ofReport report) report where
  outcome _ _ := rfl
  faithful _ holds := holds

theorem pure (value : α) : Follows tree (Pure.pure value) (Pure.pure value) :=
  ofReport (Pure.pure value)

theorem bind {session : Session α} {report : Report α} {next : α -> Session β}
    {later : α -> Report β} (first : Follows tree session report)
    (follows : forall value : α, Follows tree (next value) (later value)) :
    Follows tree (session >>= next) (report >>= later) where
  outcome known holds := by
    rw [fst_bind, Report.outcome_bind, Report.outcome_bind, first.outcome known holds]
    congr 1
    funext value
    exact (follows value).outcome _ (first.faithful known holds)
  faithful known holds := by
    rw [snd_bind]
    split
    · exact (follows _).faithful _ (first.faithful known holds)
    · exact first.faithful known holds

/-- Steps that follow others do so when they are put together. -/
theorem respects : Inclusion.Respects (m := Session) (n := Report) fun _ => Follows tree where
  pure := pure
  liftM _ := ofReport _
  bind := bind

theorem mapM {step : α -> Session β} {plain : α -> Report β}
    (follows : forall entry : α, Follows tree (step entry) (plain entry)) (entries : List α) :
    Follows tree (entries.mapM step) (entries.mapM plain) :=
  respects.mapM follows entries

theorem attempt {session : Session α} {report : Report α}
    (follows : Follows tree session report) : Follows tree session.attempt report.attempt where
  outcome known holds := congrArg Except.ok (follows.outcome known holds)
  faithful known holds := follows.faithful known holds

end Follows

/-! ## Fetching a fragment -/

section Fetch

variable {known : Fragments} {owner reference : Text} {fragment : Fields}

theorem fetch_of_known (found : known.get? (Inclusion.locate tree reference) = some fragment) :
    fetch tree owner reference known = (pure fragment, known) := by
  simp only [fetch, found]

theorem fetch_of_read (fresh : known.get? (Inclusion.locate tree reference) = none)
    (read : (Inclusion.readFragment tree owner reference).outcome = .ok fragment) :
    fetch tree owner reference known =
      (Inclusion.readFragment tree owner reference,
        known.insert (Inclusion.locate tree reference) fragment) := by
  simp only [fetch, fresh, read]

theorem fetch_of_error {failure : Failure}
    (fresh : known.get? (Inclusion.locate tree reference) = none)
    (failed : (Inclusion.readFragment tree owner reference).outcome = .error failure) :
    fetch tree owner reference known = (Inclusion.readFragment tree owner reference, known) := by
  simp only [fetch, fresh, failed]

/-- A fragment is read from a file that is there. -/
theorem readFragment_eq_ok_iff :
    (Inclusion.readFragment tree owner reference).outcome = .ok fragment ↔
      (tree.isFile (Inclusion.locate tree reference)).outcome = .ok true ∧
        (tree.readObject (Inclusion.locate tree reference)).outcome = .ok fragment := by
  rw [Inclusion.readFragment, Report.outcome_bind, Outcome.bind_eq_ok_iff]
  constructor
  · rintro ⟨there, looked, read⟩
    cases there with
    | true => exact ⟨looked, read⟩
    | false => cases read
  · rintro ⟨looked, read⟩
    exact ⟨true, looked, read⟩

/-- What is remembered of a file is what reading it gives. -/
theorem Faithful.insert (holds : Faithful tree known)
    (read : (Inclusion.readFragment tree owner reference).outcome = .ok fragment) :
    Faithful tree (OrderedMap.insert known (Inclusion.locate tree reference) fragment) := by
  intro path held found
  rw [OrderedMap.get?_insert] at found
  split at found
  · next same =>
      cases found
      exact same ▸ readFragment_eq_ok_iff.mp read
  · exact holds path held found

end Fetch

/-- Fetching a fragment follows reading it. -/
theorem follows_fetch (tree : SchemaTree) (owner reference : Text) :
    Follows tree (fetch tree owner reference) (Inclusion.readFragment tree owner reference) where
  outcome known holds := by
    cases found : known.get? (Inclusion.locate tree reference) with
    | some fragment =>
        rw [fetch_of_known found, readFragment_eq_ok_iff.mpr (holds _ _ found)]
        rfl
    | none =>
        cases read : (Inclusion.readFragment tree owner reference).outcome with
        | ok fragment => rw [fetch_of_read found read, read]
        | error failure => rw [fetch_of_error found read, read]
  faithful known holds := by
    cases found : known.get? (Inclusion.locate tree reference) with
    | some fragment =>
        rw [fetch_of_known found]
        exact holds
    | none =>
        cases read : (Inclusion.readFragment tree owner reference).outcome with
        | ok fragment =>
            rw [fetch_of_read found read]
            exact holds.insert read
        | error failure =>
            rw [fetch_of_error found read]
            exact holds

/-! ## Sessions that read fragments -/

/-- A session that reads nothing but fragments, with the report of the same steps
without memory. -/
inductive Fetches (tree : SchemaTree) : forall {α : Type}, Session α -> Report α -> Prop
  | report {α : Type} (report : Report α) (silent : report.reads = []) :
      Fetches tree (ofReport report) report
  | fetch (owner reference : Text) :
      Fetches tree (Session.fetch tree owner reference) (Inclusion.readFragment tree owner reference)
  | bind {α β : Type} {session : Session α} {report : Report α} {next : α -> Session β}
      {later : α -> Report β} (first : Fetches tree session report)
      (further : forall value : α, Fetches tree (next value) (later value)) :
      Fetches tree (session >>= next) (report >>= later)
  | attempt {α : Type} {session : Session α} {report : Report α}
      (tried : Fetches tree session report) : Fetches tree session.attempt report.attempt

namespace Fetches

theorem pure (value : α) : Fetches tree (Pure.pure value) (Pure.pure value) :=
  report (Pure.pure value) rfl

theorem liftM (outcome : Except Failure α) :
    Fetches tree (MonadLiftT.monadLift outcome : Session α)
      (MonadLiftT.monadLift outcome : Report α) :=
  report _ rfl

/-- Sessions that read nothing but fragments remain so when they are put together. -/
theorem respects : Inclusion.Respects (m := Session) (n := Report) fun _ => Fetches tree where
  pure := pure
  liftM := liftM
  bind := bind

theorem mapM {step : α -> Session β} {plain : α -> Report β}
    (fetches : forall entry : α, Fetches tree (step entry) (plain entry)) (entries : List α) :
    Fetches tree (entries.mapM step) (entries.mapM plain) :=
  respects.mapM fetches entries

theorem follows {session : Session α} {report : Report α} (fetches : Fetches tree session report) :
    Follows tree session report := by
  induction fetches with
  | report report _ => exact Follows.ofReport report
  | fetch owner reference => exact follows_fetch tree owner reference
  | bind _ _ first further => exact first.bind further
  | attempt _ tried => exact tried.attempt

end Fetches

end Session

namespace Inclusion

variable {tree : SchemaTree}

open Session (Fetches)

theorem fetches_fragments (owner : Text) (value : Json) :
    Fetches tree (fragments (Session.fetch tree) owner value)
      (fragments (readFragment tree) owner value) :=
  Fetches.respects.fragments Fetches.fetch owner value

theorem fetches_expandWhole (owner : Text) (fields : Fields) :
    Fetches tree (expandWhole (Session.fetch tree) owner fields)
      (expandWhole (readFragment tree) owner fields) :=
  Fetches.respects.expandWhole Fetches.fetch owner fields

theorem fetches_expandAttributes (owner : Text) (fields : Fields) :
    Fetches tree (expandAttributes (Session.fetch tree) owner fields)
      (expandAttributes (readFragment tree) owner fields) :=
  Fetches.respects.expandAttributes Fetches.fetch owner fields

theorem follows_expandAttribute (owner : Text) (entry : Text × Json) :
    Session.Follows tree (expandAttribute (Session.fetch tree) owner entry)
      (expandAttribute (readFragment tree) owner entry) :=
  (Fetches.respects.expandAttribute Fetches.fetch owner entry).follows

theorem fetches_expandEach (owner : Text) (fields : Fields) :
    Fetches tree (expandEach (Session.fetch tree) owner fields)
      (expandEach (readFragment tree) owner fields) :=
  Fetches.respects.expandEach Fetches.fetch owner fields

/-- Expanding a descriptor reads nothing but fragments. -/
theorem fetches_expand (owner : Text) (fields : Fields) :
    Fetches tree (Session.expand tree owner fields) (expand (readFragment tree) owner fields) :=
  Fetches.respects.expand Fetches.fetch owner fields

end Inclusion
end EventSchema
