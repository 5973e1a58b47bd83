import EventSchema.Proofs.Inclusion.Sequences
import EventSchema.Proofs.Repetition

namespace EventSchema

/-!
# Sessions that are repeated elsewhere

A fragment that was found is a file that was read, whatever its name ends in.  So a session
that succeeded repeats wherever the files that it read are the same, and it leaves the same
memory there.
-/

namespace Session

variable {α β : Type} {agreed : Path -> Prop} {first second : SchemaTree} {known : Fragments}
  {owner reference : Text}

/-- The second session is like the first one wherever that succeeds and reads only agreed
files, whatever is known before. -/
def Repeats (agreed : Path -> Prop) (first second : Session α) : Prop :=
  forall (known : Fragments) (value : α), (first known).1.outcome = .ok value ->
    (∀ path ∈ (first known).1.reads, agreed path) -> second known = first known

namespace Repeats

theorem refl (session : Session α) : Repeats agreed session session :=
  fun _ _ _ _ => rfl

/-- A step that reads no fragment is repeated as a report. -/
theorem ofReport {report other : Report α} (repeats : Report.Repeats agreed report other) :
    Repeats agreed (Session.ofReport report) (Session.ofReport other) := by
  intro known value success reads
  exact congrArg (·, known) (repeats value success reads)

/-- One session after another; both are repeated. -/
theorem bind {session other : Session α} {next later : α -> Session β}
    (starts : Repeats agreed session other)
    (goes : forall value : α, Repeats agreed (next value) (later value)) :
    Repeats agreed (session >>= next) (other >>= later) := by
  intro known result success reads
  rw [fst_bind, Report.outcome_bind, Outcome.bind_eq_ok_iff] at success
  rcases success with ⟨value, held, success⟩
  rw [fst_bind, Report.reads_bind, held, List.forall_mem_append] at reads
  have same := goes value (session known).2 result success reads.2
  have again := starts known value held reads.1
  refine Prod.ext ?_ ?_
  · rw [fst_bind, fst_bind, again]
    exact Report.bind_eq_bind_of_outcome held (congrArg Prod.fst same)
  · rw [snd_bind, snd_bind, again, held]
    dsimp only
    rw [same]

/-- Sessions that repeat do so when they are put together. -/
theorem respects :
    Inclusion.Respects (m := Session) (n := Session) fun _ => Repeats agreed where
  pure _ := refl _
  liftM _ := refl _
  bind := bind

end Repeats

variable (agree : SchemaTree.AgreeOn agreed first second)

include agree

/-- A fragment that was read is found again where its file is the same. -/
theorem repeats_readFragment (owner reference : Text) :
    Report.Repeats agreed (Inclusion.readFragment first owner reference)
      (Inclusion.readFragment second owner reference) := by
  intro fragment success reads
  rw [reads_of_read success] at reads
  have same := reads _ (List.mem_singleton_self _)
  unfold Inclusion.locate at same
  unfold Inclusion.readFragment Inclusion.locate
  rw [agree.home]
  dsimp only
  rw [agree.isFile_eq same, agree.readObject_eq same]

theorem repeats_fetch (owner reference : Text) :
    Repeats agreed (fetch first owner reference) (fetch second owner reference) := by
  intro known fragment success reads
  have located : Inclusion.locate second reference = Inclusion.locate first reference := by
    rw [Inclusion.locate, Inclusion.locate, agree.home]
  cases found : known.get? (Inclusion.locate first reference) with
  | some held =>
      rw [fetch_of_known found]
      exact fetch_of_known (located ▸ found)
  | none =>
      cases read : (Inclusion.readFragment first owner reference).outcome with
      | error failure =>
          rw [fetch_of_error found read, read] at success
          cases success
      | ok held =>
          rw [fetch_of_read found read] at reads ⊢
          have again := repeats_readFragment agree owner reference held read reads
          rw [fetch_of_read (located ▸ found) (again ▸ read), again, located]

theorem repeats_expand (owner : Text) (fields : Fields) :
    Repeats agreed (expand first owner fields) (expand second owner fields) :=
  Repeats.respects.expand (repeats_fetch agree) owner fields

end Session
end EventSchema
