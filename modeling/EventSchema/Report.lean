import EventSchema.Failure

namespace EventSchema

/-!
# Reports

A step of loading has an outcome, which is a value or a failure, and events on
the way there: log entries, and the files it read.  The events of a failed step
are kept, so a log is complete up to the failure.

`Report.outcome` is a morphism of monads (`outcome_bind`), so a statement about
the result of loading never has to mention the log.
-/

/-- The weight of a log entry. -/
inductive Level where
  | debug
  | info
  | warning
  | error
  deriving DecidableEq, Repr

namespace Level

def name : Level -> String
  | debug => "DEBUG"
  | info => "INFO"
  | warning => "WARNING"
  | error => "ERROR"

def rank : Level -> Nat
  | debug => 0
  | info => 1
  | warning => 2
  | error => 3

/-- Whether an entry is at least as weighty as a threshold. -/
def reaches (level threshold : Level) : Bool :=
  threshold.rank ≤ level.rank

end Level

/-- Something that happens while a schema is loaded. -/
inductive Event where
  | note (level : Level) (text : Text)
  /-- The text of a file is asked for. -/
  | reading (path : Path)
  deriving DecidableEq, Repr

/-- An outcome and the events that led to it, in order. -/
structure Report (α : Type) where
  events : List Event
  outcome : Except Failure α

namespace Report

variable {α β : Type}

def bind (report : Report α) (next : α -> Report β) : Report β :=
  match report.outcome with
  | .ok value => ⟨report.events ++ (next value).events, (next value).outcome⟩
  | .error failure => ⟨report.events, .error failure⟩

instance : Monad Report where
  pure value := ⟨[], .ok value⟩
  bind := bind

/-- Report an outcome without events. -/
def ofExcept (outcome : Except Failure α) : Report α :=
  ⟨[], outcome⟩

instance : MonadLift (Except Failure) Report := ⟨ofExcept⟩

def fail (failure : Failure) : Report α :=
  ofExcept (.error failure)

/-- A report of the outcome itself, which never fails. -/
def attempt (report : Report α) : Report (Except Failure α) :=
  ⟨report.events, .ok report.outcome⟩

/-- Report one event. -/
def event (happened : Event) : Report Unit :=
  ⟨[happened], .ok ()⟩

/-- Report one log entry. -/
def note (level : Level) (text : Text) : Report Unit :=
  event (.note level text)

/-- Report log entries of one level. -/
def notes (level : Level) (texts : List Text) : Report Unit :=
  ⟨texts.map (Event.note level), .ok ()⟩

/-- The log entries from a level up. -/
def log (report : Report α) (threshold : Level) : List (Level × Text) :=
  report.events.filterMap fun
    | .note level text => if level.reaches threshold then some (level, text) else none
    | .reading _ => none

/-- The files that were read, failed attempts included. -/
def reads (report : Report α) : List Path :=
  report.events.filterMap fun
    | .reading path => some path
    | .note .. => none

@[simp] theorem outcome_pure (value : α) : (pure value : Report α).outcome = .ok value := rfl

@[simp] theorem outcome_bind (report : Report α) (next : α -> Report β) :
    (report >>= next).outcome = report.outcome >>= fun value => (next value).outcome := by
  show (report.bind next).outcome = _
  unfold bind
  cases report.outcome <;> rfl

@[simp] theorem outcome_ofExcept (outcome : Except Failure α) :
    (ofExcept outcome).outcome = outcome := rfl

@[simp] theorem outcome_attempt (report : Report α) :
    report.attempt.outcome = .ok report.outcome := rfl

@[simp] theorem outcome_note (level : Level) (text : Text) :
    (note level text).outcome = .ok () := rfl

@[simp] theorem outcome_notes (level : Level) (texts : List Text) :
    (notes level texts).outcome = .ok () := rfl

@[simp] theorem outcome_event (happened : Event) : (event happened).outcome = .ok () := rfl

@[simp] theorem outcome_fail (failure : Failure) :
    (fail failure : Report α).outcome = .error failure := rfl

@[simp] theorem outcome_liftM (outcome : Except Failure α) :
    (liftM outcome : Report α).outcome = outcome := rfl

@[simp] theorem ok_bind {ε : Type} (value : α) (next : α -> Except ε β) :
    (Except.ok value >>= next) = next value := rfl

@[simp] theorem error_bind {ε : Type} (fault : ε) (next : α -> Except ε β) :
    (Except.error fault >>= next) = Except.error fault := rfl

@[simp] theorem bind_ok {ε : Type} (outcome : Except ε α) :
    (outcome >>= Except.ok) = outcome := by
  cases outcome <;> rfl

/-- The outcome of a fold is the fold of the outcomes. -/
theorem outcome_foldlM (step : β -> α -> Report β) (entries : List α) (start : β) :
    (entries.foldlM step start).outcome =
      entries.foldlM (fun state entry => (step state entry).outcome) start := by
  induction entries generalizing start with
  | nil => rfl
  | cons entry rest ih => simp only [List.foldlM_cons, outcome_bind, ih]

@[simp] theorem reads_pure (value : α) : (pure value : Report α).reads = [] := rfl

/-- A failed step is followed by no reading. -/
theorem reads_bind (report : Report α) (next : α -> Report β) :
    (report >>= next).reads = report.reads ++
      match report.outcome with
      | .ok value => (next value).reads
      | .error _ => [] := by
  show (report.bind next).reads = _
  unfold bind reads
  cases report.outcome with
  | ok value => exact List.filterMap_append
  | error failure => exact (List.append_nil _).symm

@[simp] theorem reads_ofExcept (outcome : Except Failure α) : (ofExcept outcome).reads = [] := rfl

@[simp] theorem reads_liftM (outcome : Except Failure α) :
    (liftM outcome : Report α).reads = [] := rfl

@[simp] theorem reads_fail (failure : Failure) : (fail failure : Report α).reads = [] := rfl

@[simp] theorem reads_note (level : Level) (text : Text) : (note level text).reads = [] := rfl

@[simp] theorem reads_notes (level : Level) (texts : List Text) :
    (notes level texts).reads = [] := by
  unfold notes reads
  induction texts with
  | nil => rfl
  | cons text rest ih => exact ih

@[simp] theorem reads_event_reading (path : Path) : (event (.reading path)).reads = [path] := rfl

theorem bind_bind {γ : Type} (report : Report α) (first : α -> Report β)
    (second : β -> Report γ) :
    (report.bind first).bind second = report.bind fun value => (first value).bind second := by
  unfold bind
  cases report.outcome with
  | error failure => rfl
  | ok value => cases inner : (first value).outcome <;> simp [inner, List.append_assoc]

instance : LawfulMonad Report :=
  LawfulMonad.mk' Report
    (fun report => by
      show report.bind (fun value => ⟨[], .ok value⟩) = report
      obtain ⟨events, outcome⟩ := report
      cases outcome <;> simp [bind])
    (fun value next => by
      show bind ⟨[], .ok value⟩ next = next value
      simp [bind])
    (fun report first second => bind_bind report first second)

/-- Steps that read nothing read nothing in a row. -/
theorem reads_bind_eq_nil {report : Report α} {next : α -> Report β} (first : report.reads = [])
    (later : forall value : α, (next value).reads = []) : (report >>= next).reads = [] := by
  rw [reads_bind, first]
  cases report.outcome with
  | ok value => exact later value
  | error failure => rfl

theorem reads_foldlM_eq_nil {step : β -> α -> Report β}
    (steps : forall (state : β) (entry : α), (step state entry).reads = []) (entries : List α)
    (start : β) : (entries.foldlM step start).reads = [] := by
  induction entries generalizing start with
  | nil => rfl
  | cons entry rest ih =>
      rw [List.foldlM_cons]
      exact reads_bind_eq_nil (steps start entry) ih

/-- The outcome of steps over a list is that of their outcomes. -/
theorem outcome_mapM (step : α -> Report β) (entries : List α) :
    (entries.mapM step).outcome = entries.mapM fun entry => (step entry).outcome := by
  induction entries with
  | nil => rfl
  | cons entry rest ih => simp only [List.mapM_cons, outcome_bind, ih, outcome_pure]; rfl

end Report
end EventSchema
