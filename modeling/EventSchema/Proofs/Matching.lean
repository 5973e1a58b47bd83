import EventSchema.Failure
import EventSchema.Proofs.Outcomes

namespace EventSchema

/-!
# Outcomes that match

Two runs that differ only in where their files lie come to matching outcomes: to related
values, or to failures of the same kind.  A failure names files and folders, and those it
names are all that its kind leaves out.

Steps that match match in a row and over lists.
-/

/-- A fault of access apart from the path that it is about. -/
def AccessFault.unplaced : AccessFault -> AccessFault
  | .missing _ => .missing ⟨.here, []⟩
  | .notFolder _ => .notFolder ⟨.here, []⟩
  | .isFolder _ => .isFolder ⟨.here, []⟩
  | .denied _ => .denied ⟨.here, []⟩
  | .overlong _ => .overlong ⟨.here, []⟩
  | .unlisted _ => .unlisted ⟨.here, []⟩
  | .notText fault => .notText fault
  | .unusable fault => .unusable fault

/-- A reason for which nothing can be decoded, apart from a path in it. -/
def DecodeReason.unplaced : DecodeReason -> DecodeReason
  | .unreadable fault => .unreadable fault.unplaced
  | reason => reason

namespace Failure

/-- A failure apart from the files and folders that it names. -/
def unplaced : Failure -> Failure
  | .undecodable _ reason => .undecodable "" reason.unplaced
  | .inaccessible _ faults => .inaccessible ⟨.here, []⟩ (faults.map AccessFault.unplaced)
  | .missingInclude owner _ => .missingInclude owner ⟨.here, []⟩
  | .unreachable fault => .unreachable fault.unplaced
  | failure => failure

/-- Failures that differ at most in the files and folders that they name. -/
def SameKind (first second : Failure) : Prop :=
  first.unplaced = second.unplaced

instance (first second : Failure) : Decidable (first.SameKind second) :=
  inferInstanceAs (Decidable (_ = _))

end Failure

/-- Outcomes that match: related values, or failures of the same kind. -/
inductive Matches {α β : Type} (related : α -> β -> Prop) :
    Except Failure α -> Except Failure β -> Prop
  | ok {first : α} {second : β} (values : related first second) :
      Matches related (.ok first) (.ok second)
  | error {first second : Failure} (kind : first.SameKind second) :
      Matches related (.error first) (.error second)

namespace Matches

variable {α β γ δ : Type} {related : α -> β -> Prop} {further : γ -> δ -> Prop}

theorem refl (outcome : Except Failure α) : Matches Eq outcome outcome := by
  cases outcome with
  | ok value => exact ok rfl
  | error failure => exact error rfl

theorem symm {first second : Except Failure α} (same : Matches Eq first second) :
    Matches Eq second first := by
  cases same with
  | ok values => exact ok values.symm
  | error kind => exact error (Eq.symm kind)

theorem trans {first second third : Except Failure α} (lower : Matches Eq first second)
    (upper : Matches Eq second third) : Matches Eq first third := by
  cases lower with
  | ok values => exact values ▸ upper
  | error kind =>
      cases upper with
      | error again => exact error (Eq.trans kind again)

/-- One step after another; the second steps match for related results of the first. -/
theorem bind {first : Except Failure α} {second : Except Failure β}
    {next : α -> Except Failure γ} {later : β -> Except Failure δ}
    (starts : Matches related first second)
    (goes : forall (one : α) (other : β), related one other -> second = .ok other ->
      Matches further (next one) (later other)) :
    Matches further (first >>= next) (second >>= later) := by
  cases starts with
  | ok values => exact goes _ _ values rfl
  | error kind => exact error kind

/-- First steps with the same result are followed by steps that match for it. -/
theorem bind_same {first second : Except Failure α} {next : α -> Except Failure γ}
    {later : α -> Except Failure δ} (starts : Matches Eq first second)
    (goes : forall value : α, second = .ok value -> Matches further (next value) (later value)) :
    Matches further (first >>= next) (second >>= later) :=
  starts.bind fun _ other same holds => same ▸ goes other holds

theorem mapM {step plain : α -> Except Failure β} {entries : List α}
    (steps : ∀ entry ∈ entries, Matches Eq (step entry) (plain entry)) :
    Matches Eq (entries.mapM step) (entries.mapM plain) := by
  induction entries with
  | nil => exact refl _
  | cons entry rest ih =>
      rw [List.forall_mem_cons] at steps
      rw [List.mapM_cons, List.mapM_cons]
      exact steps.1.bind_same fun _ _ => (ih steps.2).bind_same fun _ _ => refl _

/-- Folding steps over entries that are placed elsewhere. -/
theorem foldlM {place : α -> γ} {step : β -> γ -> Except Failure β}
    {plain : β -> α -> Except Failure β} {entries : List α}
    (steps : ∀ entry ∈ entries, forall state : β,
      Matches Eq (step state (place entry)) (plain state entry)) (start : β) :
    Matches Eq ((entries.map place).foldlM step start) (entries.foldlM plain start) := by
  induction entries generalizing start with
  | nil => exact refl _
  | cons entry rest ih =>
      rw [List.forall_mem_cons] at steps
      rw [List.map_cons, List.foldlM_cons, List.foldlM_cons]
      exact (steps.1 start).bind_same fun state _ => ih steps.2 state

end Matches
end EventSchema
