import EventSchema.Proofs.Path
import EventSchema.Proofs.Source

namespace EventSchema

/-!
# Steps that are repeated elsewhere

A step that succeeded may be taken again in another tree of files.  If the files that it
read are the same there, it repeats: it comes to the same value, with the same events on
the way.  Which other files there are is only asked where JSON files are listed, and they
are no JSON files.

A step that fails need not repeat, as it may have failed for want of a file.
-/

namespace Report

variable {α β : Type} {agreed : Path -> Prop}

/-- After a step that succeeds only what follows its value counts. -/
theorem bind_eq_bind_of_outcome {report : Report α} {value : α}
    (held : report.outcome = .ok value) {next later : α -> Report β}
    (same : later value = next value) : report >>= later = report >>= next := by
  show report.bind later = report.bind next
  unfold Report.bind
  rw [held]
  dsimp only
  rw [same]

/-- The second report is the first one if that succeeded and only agreed files were read. -/
def Repeats (agreed : Path -> Prop) (first second : Report α) : Prop :=
  forall value : α, first.outcome = .ok value -> (∀ path ∈ first.reads, agreed path) ->
    second = first

namespace Repeats

theorem refl (report : Report α) : Repeats agreed report report :=
  fun _ _ _ => rfl

/-- One step after another; both are repeated. -/
theorem bind {first second : Report α} {next later : α -> Report β}
    (starts : Repeats agreed first second)
    (goes : forall value : α, Repeats agreed (next value) (later value)) :
    Repeats agreed (first >>= next) (second >>= later) := by
  intro result success reads
  rw [Report.outcome_bind, Outcome.bind_eq_ok_iff] at success
  rcases success with ⟨value, held, success⟩
  rw [Report.reads_bind, held, List.forall_mem_append] at reads
  rw [starts value held reads.1]
  exact bind_eq_bind_of_outcome held (goes value result success reads.2)

theorem foldlM {step other : β -> α -> Report β}
    (steps : forall (state : β) (entry : α), Repeats agreed (step state entry) (other state entry))
    (entries : List α) (start : β) :
    Repeats agreed (entries.foldlM step start) (entries.foldlM other start) := by
  induction entries generalizing start with
  | nil => exact refl _
  | cons entry rest ih =>
      rw [List.foldlM_cons, List.foldlM_cons]
      exact (steps start entry).bind ih

end Repeats
end Report

namespace SchemaTree

/-- Two trees of files with the same folders that hold a schema.  They list the same JSON
files, and the agreed files, among which all JSON files are, are the same. -/
structure AgreeOn (agreed : Path -> Prop) (first second : SchemaTree) : Prop where
  home : second.home = first.home
  extensions : second.extensions = first.extensions
  files : forall folder : Path, second.filesBelow folder = first.filesBelow folder
  isFile : forall path : Path, agreed path ->
    second.source.isFile path = first.source.isFile path
  read : forall path : Path, agreed path -> second.source.read path = first.source.read path
  json : forall path : Path, path.isJson = true -> agreed path

namespace AgreeOn

open Report (Repeats)

variable {agreed : Path -> Prop} {first second : SchemaTree} (agree : AgreeOn agreed first second)

include agree

theorem isFile_eq {path : Path} (same : agreed path) : second.isFile path = first.isFile path := by
  rw [SchemaTree.isFile, SchemaTree.isFile, agree.isFile path same]

theorem readObject_eq {path : Path} (same : agreed path) :
    second.readObject path = first.readObject path := by
  rw [readObject, readObject, agree.read path same]

theorem repeats_readObject (path : Path) :
    Repeats agreed (first.readObject path) (second.readObject path) := by
  intro fields _ reads
  rw [reads_readObject] at reads
  exact agree.readObject_eq (reads path (List.mem_singleton_self path))

theorem extensionFiles_eq (selected : Path -> Bool) :
    second.extensionFiles selected = first.extensionFiles selected := by
  rw [extensionFiles, extensionFiles, agree.extensions, agree.files]

theorem repeats_readLayered (name : Text) :
    Repeats agreed (first.readLayered name) (second.readLayered name) := by
  unfold readLayered
  rw [agree.home, agree.extensionFiles_eq]
  refine (agree.repeats_readObject _).bind fun base => (Repeats.refl _).bind fun overlays => ?_
  refine Repeats.foldlM (fun fields path => ?_) overlays base
  exact (Repeats.refl _).bind fun _ => (agree.repeats_readObject path).bind fun _ => Repeats.refl _

theorem repeats_version : Repeats agreed first.version second.version := by
  have same : agreed (first.home.child versionFile) := by
    apply agree.json
    have named : (first.home.child versionFile).name = versionFile :=
      Path.name_child ⟨versionFile, by decide, by decide, by decide⟩ first.home
    rw [Path.isJson, named]
    decide
  unfold version
  dsimp only
  rw [agree.home, agree.isFile_eq same]
  refine (Repeats.refl _).bind fun there => ?_
  split
  · exact (agree.repeats_readObject _).bind fun _ => Repeats.refl _
  · exact Repeats.refl _

theorem repeats_categories : Repeats agreed first.categories second.categories := by
  unfold categories
  rw [agree.home]
  exact (agree.repeats_readLayered _).bind fun _ => Repeats.refl _

theorem repeats_dictionary : Repeats agreed first.dictionary second.dictionary := by
  unfold dictionary
  rw [agree.home]
  exact (agree.repeats_readLayered _).bind fun _ => Repeats.refl _

theorem repeats_readDescriptor (declared : Declarations) (path : Path) :
    Repeats agreed (first.readDescriptor declared path) (second.readDescriptor declared path) :=
  (agree.repeats_readObject path).bind fun _ => Repeats.refl _

theorem repeats_declarations (folder : Text) :
    Repeats agreed (first.declarations folder) (second.declarations folder) := by
  unfold declarations
  rw [agree.home, agree.files, agree.extensionFiles_eq]
  refine (Repeats.refl _).bind fun base => ?_
  refine (Repeats.foldlM agree.repeats_readDescriptor base []).bind fun declared => ?_
  refine (Repeats.refl _).bind fun overlays => ?_
  refine (Repeats.foldlM (fun declared path => ?_) overlays declared).bind fun _ => Repeats.refl _
  exact (Repeats.refl _).bind fun _ => agree.repeats_readDescriptor declared path

end AgreeOn
end SchemaTree
end EventSchema
