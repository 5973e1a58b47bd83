import EventSchema.Proofs.Outcomes
import EventSchema.SchemaTree
import EventSchema.Source.Memory

namespace EventSchema

/-!
# Steps that read files

Loading reads files one after another and stops at the first that cannot be
used.  A file that is missing or holds no JSON object is a fault of the schema.
An integer with too many digits is not: the reader refuses it for a reason of its
own.  `SchemaTree.Reading` says of a step that nothing else goes wrong in it, and
that it fails in this way exactly if one of the files it read holds such an
integer.

The sources considered are steady: every path can be looked up.  Trees in memory
are.
-/

/-- A source in which every path can be looked up. -/
structure Source.Steady (source : Source) : Prop where
  isFile : forall path : Path, ∃ found, source.isFile path = .ok found
  isFolder : forall path : Path, ∃ found, source.isFolder path = .ok found
  read : forall (path : Path) (fault : Text.ByteFault),
    source.read path ≠ .error (.unusable fault)

theorem MemoryTree.steady (tree : MemoryTree) : tree.source.Steady where
  isFile path := ⟨tree.isFile path, rfl⟩
  isFolder path := ⟨tree.isFolder path, rfl⟩
  read path fault := by
    change tree.read path ≠ _
    unfold MemoryTree.read
    split <;> simp

theorem MemoryTree.read_eq_ok_iff {tree : MemoryTree} {path : Path} {text : Text} :
    tree.read path = .ok text ↔ tree.files.get? path = some text := by
  unfold MemoryTree.read
  cases tree.files.get? path with
  | none => simp
  | some held => simp

namespace SchemaTree

variable {tree : SchemaTree} {odd : Failure -> Prop} {α β : Type}

/-- A file that holds an integer with more digits than are read. -/
def Oversized (tree : SchemaTree) (path : Path) : Prop :=
  ∃ text, tree.source.read path = .ok text ∧ Json.read text = .error .oversizeInteger

/-- A step that reads files.  Apart from odd failures it fails through a fault of
the schema, or through an oversized integer in one of the files it read, which
always stops it. -/
structure Reading (tree : SchemaTree) (odd : Failure -> Prop) (report : Report α) : Prop where
  fails : forall failure : Failure, report.outcome = .error failure ->
    failure.isSchemaFault = true ∨
      (failure = .oversizeInteger ∧ ∃ path ∈ report.reads, tree.Oversized path) ∨ odd failure
  stops : (∃ path ∈ report.reads, tree.Oversized path) -> report.outcome = .error .oversizeInteger

namespace Reading

/-- A step that reads nothing. -/
theorem of_reads_eq_nil {report : Report α} (reads : report.reads = [])
    (fails : forall failure : Failure, report.outcome = .error failure ->
      failure.isSchemaFault = true ∨ odd failure) : Reading tree odd report where
  fails failure failed := (fails failure failed).imp_right Or.inr
  stops := by
    rintro ⟨path, member, _⟩
    rw [reads] at member
    cases member

theorem pure (value : α) : Reading tree odd (Pure.pure value : Report α) :=
  of_reads_eq_nil rfl fun _ failed => by cases failed

theorem note (level : Level) (text : Text) : Reading tree odd (Report.note level text) :=
  of_reads_eq_nil rfl fun _ failed => by cases failed

theorem notes (level : Level) (texts : List Text) : Reading tree odd (Report.notes level texts) :=
  of_reads_eq_nil (Report.reads_notes level texts) fun _ failed => by cases failed

/-- A step that ends with a fault of the schema. -/
theorem fail {failure : Failure} (schema : failure.isSchemaFault = true) :
    Reading tree odd (Report.fail failure : Report α) := by
  apply of_reads_eq_nil rfl
  intro other failed
  cases failed
  exact Or.inl schema

/-- An outcome that is a value or a fault of the schema. -/
theorem liftM {outcome : Except Failure α}
    (faults : forall failure : Failure, outcome = .error failure ->
      failure.isSchemaFault = true) : Reading tree odd (MonadLiftT.monadLift outcome : Report α) :=
  of_reads_eq_nil rfl fun failure failed => Or.inl (faults failure failed)

/-- One step after another; the second is only taken after the first
succeeded. -/
theorem bind {report : Report α} {next : α -> Report β} (first : Reading tree odd report)
    (later : forall value : α, report.outcome = .ok value -> Reading tree odd (next value)) :
    Reading tree odd (report >>= next) where
  fails failure failed := by
    rw [Report.outcome_bind, Outcome.bind_eq_error_iff] at failed
    rw [Report.reads_bind]
    rcases failed with early | ⟨value, held, late⟩
    · refine (first.fails failure early).imp_right (Or.imp_left ?_)
      rintro ⟨same, path, member, oversized⟩
      exact ⟨same, path, List.mem_append_left _ member, oversized⟩
    · refine ((later value held).fails failure late).imp_right (Or.imp_left ?_)
      rintro ⟨same, path, member, oversized⟩
      rw [held]
      exact ⟨same, path, List.mem_append_right _ member, oversized⟩
  stops := by
    rintro ⟨path, member, oversized⟩
    rw [Report.reads_bind, List.mem_append] at member
    rw [Report.outcome_bind]
    rcases member with early | late
    · rw [first.stops ⟨path, early, oversized⟩, Report.error_bind]
    · cases held : report.outcome with
      | error failure =>
          rw [held] at late
          cases late
      | ok value =>
          rw [held] at late
          exact (later value held).stops ⟨path, late, oversized⟩

theorem foldlM {step : β -> α -> Report β} {entries : List α}
    (steps : ∀ entry ∈ entries, forall state : β, Reading tree odd (step state entry))
    (start : β) : Reading tree odd (entries.foldlM step start) := by
  induction entries generalizing start with
  | nil => exact pure start
  | cons entry rest ih =>
      rw [List.foldlM_cons]
      exact (steps entry List.mem_cons_self start).bind fun state _ =>
        ih (fun other member => steps other (List.mem_cons_of_mem _ member)) state

end Reading

/-! ## Single files -/

/-- A value that is not a record is a fault of the schema. -/
theorem isSchemaFault_of_decode {ρ : Type} [Record ρ] {source : Text} {value : Json}
    {failure : Failure} (failed : decode ρ source value = .error failure) :
    failure.isSchemaFault = true := by
  unfold decode at failed
  cases checked : Record.check ρ value with
  | error found =>
      rw [checked] at failed
      cases failed
      rfl
  | ok record =>
      rw [checked] at failed
      cases failed

theorem decode_eq_ok_iff {ρ : Type} [Record ρ] {source : Text} {fields : Fields} {record : ρ} :
    decode ρ source (.obj fields) = .ok record ↔
      (Record.validate fields : Validated ρ) = .valid record := by
  unfold decode Record.check Record.ofJson
  cases read : (Record.validate fields : Validated ρ) with
  | valid held => simp [Except.mapError, read]
  | invalid issues => simp [Except.mapError, read]

/-- What reading a file comes to, apart from what is noted. -/
def objectOutcome (tree : SchemaTree) (path : Path) : Except Failure Fields :=
  match tree.source.read path with
  | .error (.unusable fault) => .error (.unreachable (.unusable fault))
  | .error fault => .error (.undecodable path.text (.unreadable fault))
  | .ok text =>
      match Json.read text with
      | .error .oversizeInteger => .error .oversizeInteger
      | .error (.malformed found) => .error (.undecodable path.text (.malformed found))
      | .ok (.obj fields) => .ok fields
      | .ok _ => .error (.undecodable path.text .notObject)

theorem outcome_readObject (path : Path) :
    (tree.readObject path).outcome = tree.objectOutcome path := by
  unfold readObject objectOutcome
  rw [Report.outcome_bind, Report.outcome_event, Report.ok_bind]
  cases tree.source.read path with
  | error fault => cases fault <;> rfl
  | ok text =>
      dsimp only
      cases Json.read text with
      | error fault => cases fault <;> rfl
      | ok value => cases value <;> rfl

/-- A single file is read once. -/
theorem reads_readObject (path : Path) : (tree.readObject path).reads = [path] := by
  unfold readObject
  rw [Report.reads_bind, Report.reads_event_reading, Report.outcome_event]
  dsimp only
  split
  · rfl
  · rfl
  · split <;> rfl

/-- A file holds an object. -/
def Holds (tree : SchemaTree) (path : Path) (fields : Fields) : Prop :=
  ∃ text, tree.source.read path = .ok text ∧ Json.read text = .ok (.obj fields)

theorem readObject_eq_ok_iff {path : Path} {fields : Fields} :
    (tree.readObject path).outcome = .ok fields ↔ tree.Holds path fields := by
  unfold Holds
  rw [outcome_readObject, objectOutcome]
  cases held : tree.source.read path with
  | error fault => cases fault <;> simp
  | ok text =>
      cases read : Json.read text with
      | error fault => cases fault <;> simp [read]
      | ok value => cases value <;> simp [read]

variable (steady : tree.source.Steady)

include steady

theorem reading_isFile (path : Path) : Reading tree odd (tree.isFile path) := by
  rcases steady.isFile path with ⟨found, looked⟩
  unfold SchemaTree.isFile
  rw [looked]
  exact Reading.pure found

theorem reading_isFolder (path : Path) : Reading tree odd (tree.isFolder path) := by
  rcases steady.isFolder path with ⟨found, looked⟩
  unfold SchemaTree.isFolder
  rw [looked]
  exact Reading.pure found

theorem reading_readObject (path : Path) : Reading tree odd (tree.readObject path) where
  fails failure failed := by
    rw [outcome_readObject, objectOutcome] at failed
    rw [reads_readObject]
    split at failed
    · next held => exact absurd held (steady.read path _)
    · cases failed
      exact Or.inl rfl
    · next text held =>
        split at failed <;> cases failed
        · next read =>
            exact Or.inr (Or.inl ⟨rfl, path, List.mem_singleton_self path, text, held, read⟩)
        · exact Or.inl rfl
        · exact Or.inl rfl
  stops := by
    rintro ⟨other, member, text, held, read⟩
    rw [reads_readObject, List.mem_singleton] at member
    subst member
    simp only [outcome_readObject, objectOutcome, held, read]

/-! ## Files of a folder -/

theorem reading_filesBelow (folder : Path) : Reading tree odd (tree.filesBelow folder) := by
  unfold filesBelow
  apply (reading_isFolder steady folder).bind
  intro found _
  split
  · exact Reading.pure []
  dsimp only
  split
  · exact Reading.pure _
  · exact (Reading.notes _ _).bind fun _ _ => Reading.fail rfl

theorem reading_extensionFiles (selected : Path -> Bool) :
    Reading tree odd (tree.extensionFiles selected) :=
  (reading_filesBelow steady _).bind fun _ _ => Reading.pure _

theorem reading_readLayered (name : Text) : Reading tree odd (tree.readLayered name) := by
  apply (reading_readObject steady _).bind
  intro base _
  apply (reading_extensionFiles steady _).bind
  intro overlays _
  refine Reading.foldlM (fun path _ fields => ?_) base
  exact (Reading.note _ _).bind fun _ _ =>
    (reading_readObject steady path).bind fun _ _ => Reading.pure _

theorem reading_version : Reading tree odd tree.version := by
  unfold version
  apply (reading_isFile steady _).bind
  intro found _
  split
  · exact (reading_readObject steady _).bind fun _ _ =>
      Reading.liftM fun _ failed => isSchemaFault_of_decode failed
  · exact (Reading.note _ _).bind fun _ _ => Reading.pure _

theorem reading_categories : Reading tree odd tree.categories :=
  (reading_readLayered steady _).bind fun _ _ =>
    Reading.liftM fun _ failed => isSchemaFault_of_decode failed

theorem reading_dictionary : Reading tree odd tree.dictionary :=
  (reading_readLayered steady _).bind fun _ _ =>
    Reading.liftM fun _ failed => isSchemaFault_of_decode failed

theorem reading_readDescriptor (declared : Declarations) (path : Path) :
    Reading tree odd (tree.readDescriptor declared path) := by
  apply (reading_readObject steady path).bind
  intro fields _
  split
  · exact Reading.fail rfl
  · exact Reading.pure _

theorem reading_declarations (folder : Text) : Reading tree odd (tree.declarations folder) := by
  apply (reading_filesBelow steady _).bind
  intro base _
  refine Reading.bind ?_ fun declared _ => ?_
  · exact Reading.foldlM (fun path _ declared => reading_readDescriptor steady declared path) []
  apply (reading_extensionFiles steady _).bind
  intro overlays _
  refine Reading.bind ?_ fun _ _ => (Reading.note _ _).bind fun _ _ => Reading.pure _
  refine Reading.foldlM (fun path _ declared => ?_) declared
  exact (Reading.note _ _).bind fun _ _ => reading_readDescriptor steady declared path

end SchemaTree
end EventSchema
