import EventSchema.Proofs.Matching
import EventSchema.Proofs.Source
import EventSchema.Proofs.Source.Placement

namespace EventSchema

/-!
# Schemas that lie elsewhere

A schema that lies below a home folder is seen from there as a schema of relative paths.
Where a source answers about the paths below the home as another one does about the
relative paths (`SeenFrom`), whatever is read from files matches: the version, the
categories, the dictionary and the raw descriptors are the same, and a failure is of the
same kind.

What makes this true is that every test on a path that is found below a folder, whether it
is a JSON file, which name it has and which folders lead to it, speaks of the names that
follow the folder.
-/

/-- The schema that lies below a home folder is seen from there as another one. -/
structure SchemaTree.SeenFrom (home : Path) (placed seen : SchemaTree) : Prop where
  isFile : forall path : Path, path.Relative ->
    placed.source.isFile (home.join path) = seen.source.isFile path
  isFolder : forall folder : Path, folder.Relative ->
    placed.source.isFolder (home.join folder) = seen.source.isFolder folder
  files : forall folder : Path, folder.Relative ->
    (placed.source.list (home.join folder)).files =
      (seen.source.list folder).files.map home.join
  faults : forall folder : Path, folder.Relative ->
    (placed.source.list (home.join folder)).faults.map AccessFault.unplaced =
      (seen.source.list folder).faults.map AccessFault.unplaced
  below : forall folder : Path, folder.Relative ->
    ∀ path ∈ (seen.source.list folder).files, path.Relative ∧ path.names ≠ []
  read : forall path : Path, path.Relative ->
    (∃ text, placed.source.read (home.join path) = .ok text ∧ seen.source.read path = .ok text) ∨
      (placed.source.read (home.join path) = .error (.unlisted (home.join path)) ∧
        seen.source.read path = .error (.unlisted path))
  placedHome : placed.home = home
  seenHome : seen.home = ⟨.here, []⟩
  extensions : placed.extensions = home.join seen.extensions
  relative : seen.extensions.Relative

namespace MemoryTree

/-- The schema of a tree that is placed below a home folder. -/
def schemaBelow (memory : MemoryTree) (home : Path) (extensions : Text) : SchemaTree :=
  SchemaTree.below (memory.placedBelow home).source home extensions

/-- The schema of a tree as it is seen from the home folder. -/
def schema (memory : MemoryTree) (extensions : Text) : SchemaTree :=
  SchemaTree.below memory.source ⟨.here, []⟩ extensions

/-- Reading a path from the empty relative path changes nothing. -/
theorem join_here {path : Path} (relative : path.Relative) : Path.join ⟨.here, []⟩ path = path := by
  rcases path with ⟨start, names⟩
  cases relative
  rfl

/-- Wherever a tree is placed, it is seen from there as it was given. -/
theorem seenFrom_schemaBelow {memory : MemoryTree} (relative : memory.Relative) (home : Path)
    {extensions : Text} (inside : (Path.parse extensions).Relative) :
    SchemaTree.SeenFrom home (memory.schemaBelow home extensions) (memory.schema extensions) where
  isFile path own := congrArg Except.ok (isFile_placedBelow relative home own)
  isFolder folder own := congrArg Except.ok (isFolder_placedBelow relative home own)
  files folder own := visible_placedBelow relative home own
  faults folder own := by
    change (((memory.placedBelow home).blocked (home.join folder)).map AccessFault.denied).map _ =
      ((memory.blocked folder).map AccessFault.denied).map _
    rw [blocked_placedBelow relative home own, List.map_map, List.map_map, List.map_map]
    rfl
  below folder own path member := by
    rcases below_of_mem_visible member with ⟨listed, below⟩
    rcases Path.isBelow_iff.mp below with ⟨names, given, rfl⟩
    exact ⟨relative.files _ listed, List.append_ne_nil_of_right_ne_nil _ given⟩
  read path own := by
    change (∃ text, (memory.placedBelow home).read (home.join path) = .ok text ∧
      memory.read path = .ok text) ∨ (memory.placedBelow home).read (home.join path) = _ ∧
        memory.read path = _
    rw [read_placedBelow relative home own, read]
    cases memory.files.get? path with
    | none => exact Or.inr ⟨rfl, rfl⟩
    | some text => exact Or.inl ⟨text, rfl, rfl⟩
  placedHome := rfl
  seenHome := rfl
  extensions := by
    change home.join (Path.parse extensions) =
      home.join (Path.join ⟨.here, []⟩ (Path.parse extensions))
    rw [join_here inside]
  relative := by
    change (Path.join ⟨.here, []⟩ (Path.parse extensions)).Relative
    rw [join_here inside]
    exact inside

end MemoryTree

namespace SchemaTree

/-- What is decoded does not depend on where it was found. -/
theorem matches_decode {ρ : Type} [Record ρ] (first second : Text) (value : Json) :
    Matches Eq (decode ρ first value) (decode ρ second value) := by
  unfold decode
  cases Record.check ρ value with
  | ok record => exact Matches.ok rfl
  | error found => exact Matches.error rfl

namespace SeenFrom

variable {home : Path} {placed seen : SchemaTree} (seenFrom : SeenFrom home placed seen)
  {path folder : Path} {name : Text}

include seenFrom

/-! ## Paths -/

theorem child_home (relative : (Path.parse name).Relative) :
    seen.home.child name = Path.parse name ∧ placed.home.child name = home.join (seen.home.child name) := by
  rw [seenFrom.seenHome, seenFrom.placedHome]
  have same : Path.child ⟨.here, []⟩ name = Path.parse name := MemoryTree.join_here relative
  rw [same]
  exact ⟨rfl, rfl⟩

theorem relative_child (relative : (Path.parse name).Relative) : (seen.home.child name).Relative := by
  rw [(seenFrom.child_home relative).1]
  exact relative

theorem matches_isFile (relative : path.Relative) :
    Matches Eq (placed.isFile (home.join path)).outcome (seen.isFile path).outcome := by
  rw [SchemaTree.isFile, SchemaTree.isFile, seenFrom.isFile path relative]
  exact Matches.refl _

theorem matches_isFolder (relative : folder.Relative) :
    Matches Eq (placed.isFolder (home.join folder)).outcome (seen.isFolder folder).outcome := by
  rw [SchemaTree.isFolder, SchemaTree.isFolder, seenFrom.isFolder folder relative]
  exact Matches.refl _

/-! ## Files -/

theorem matches_readObject (relative : path.Relative) :
    Matches Eq (placed.readObject (home.join path)).outcome (seen.readObject path).outcome := by
  rw [outcome_readObject, outcome_readObject, objectOutcome, objectOutcome]
  rcases seenFrom.read path relative with ⟨text, there, here⟩ | ⟨there, here⟩
  · rw [there, here]
    dsimp only
    split
    · exact Matches.error rfl
    · exact Matches.error rfl
    · exact Matches.ok rfl
    · exact Matches.error rfl
  · rw [there, here]
    exact Matches.error rfl

/-- The files that are placed below the home folder are those that are seen from there. -/
def Placed (home : Path) (files others : List Path) : Prop :=
  files = others.map home.join ∧ ∀ path ∈ others, path.Relative

theorem matches_filesBelow (relative : folder.Relative) :
    Matches (Placed home) (placed.filesBelow (home.join folder)).outcome
      (seen.filesBelow folder).outcome := by
  unfold filesBelow
  rw [Report.outcome_bind, Report.outcome_bind]
  refine (seenFrom.matches_isFolder relative).bind_same fun there _ => ?_
  have faults := seenFrom.faults folder relative
  have complete : (placed.source.list (home.join folder)).complete =
      (seen.source.list folder).complete := by
    have same := congrArg List.isEmpty faults
    rwa [List.isEmpty_map, List.isEmpty_map] at same
  cases there with
  | false => exact Matches.ok ⟨rfl, by simp⟩
  | true =>
      simp only [Bool.not_true, Bool.false_eq_true, if_false, complete]
      split
      · have below := seenFrom.below folder relative
        refine Matches.ok ⟨?_, fun path member => (below path (List.mem_of_mem_filter member)).1⟩
        rw [seenFrom.files folder relative, List.filter_map]
        congr 1
        apply List.filter_congr
        intro path member
        exact Path.isJson_join home (below path member).1 (below path member).2
      · exact Matches.error (congrArg (Failure.inaccessible ⟨.here, []⟩) faults)

theorem matches_extensionFiles (selected : Path -> Bool) :
    Matches (Placed home) (placed.extensionFiles selected).outcome
      (seen.extensionFiles selected).outcome := by
  unfold extensionFiles
  rw [Report.outcome_bind, Report.outcome_bind, seenFrom.extensions]
  refine (seenFrom.matches_filesBelow seenFrom.relative).bind ?_
  rintro _ files ⟨rfl, own⟩ _
  refine Matches.ok ⟨?_, fun path member => own path (List.mem_of_mem_filter member)⟩
  rw [List.filter_map]
  congr 1
  apply List.filter_congr
  intro path member
  rw [Function.comp_apply, Path.relativeTo_join home (own path member) seenFrom.relative]

/-- A file of the home folder with all extension files of its name over it. -/
theorem matches_readLayered (relative : (Path.parse name).Relative) :
    Matches Eq (placed.readLayered name).outcome (seen.readLayered name).outcome := by
  unfold readLayered
  simp only [Report.outcome_bind, Report.outcome_foldlM]
  rw [(seenFrom.child_home relative).2]
  refine (seenFrom.matches_readObject (seenFrom.relative_child relative)).bind_same fun base _ => ?_
  refine (seenFrom.matches_extensionFiles _).bind ?_
  rintro _ files ⟨rfl, own⟩ _
  refine Matches.foldlM (fun path member fields => ?_) base
  simp only [announce, Report.outcome_note, Report.ok_bind, Report.outcome_pure]
  exact (seenFrom.matches_readObject (own path member)).bind_same fun _ _ => Matches.refl _

theorem matches_version : Matches Eq placed.version.outcome seen.version.outcome := by
  have relative : (Path.parse versionFile).Relative := by decide
  unfold version
  simp only [Report.outcome_bind]
  rw [(seenFrom.child_home relative).2]
  refine (seenFrom.matches_isFile (seenFrom.relative_child relative)).bind_same fun there _ => ?_
  cases there with
  | false => exact Matches.refl _
  | true =>
      simp only [if_true, Report.outcome_bind, Report.outcome_liftM]
      exact (seenFrom.matches_readObject (seenFrom.relative_child relative)).bind_same
        fun fields _ => matches_decode _ _ _

theorem matches_categories : Matches Eq placed.categories.outcome seen.categories.outcome := by
  unfold categories
  rw [Report.outcome_bind, Report.outcome_bind]
  exact (seenFrom.matches_readLayered (by decide)).bind_same fun fields _ => matches_decode _ _ _

theorem matches_dictionary : Matches Eq placed.dictionary.outcome seen.dictionary.outcome := by
  unfold dictionary
  rw [Report.outcome_bind, Report.outcome_bind]
  exact (seenFrom.matches_readLayered (by decide)).bind_same fun fields _ => matches_decode _ _ _

/-! ## Descriptors -/

theorem matches_readDescriptor (declared : Declarations) (relative : path.Relative) :
    Matches Eq (placed.readDescriptor declared (home.join path)).outcome
      (seen.readDescriptor declared path).outcome := by
  unfold readDescriptor
  rw [Report.outcome_bind, Report.outcome_bind]
  refine (seenFrom.matches_readObject relative).bind_same fun fields _ => ?_
  split
  · exact Matches.error rfl
  · exact Matches.refl _

/-- All files of one kind are laid over one another in the same order. -/
theorem matches_declarations (relative : (Path.parse name).Relative) :
    Matches Eq (placed.declarations name).outcome (seen.declarations name).outcome := by
  unfold declarations
  simp only [Report.outcome_bind, Report.outcome_foldlM]
  rw [(seenFrom.child_home relative).2]
  refine (seenFrom.matches_filesBelow (seenFrom.relative_child relative)).bind ?_
  rintro _ base ⟨rfl, ownBase⟩ _
  refine Matches.bind_same (Matches.foldlM (fun path member declared =>
    seenFrom.matches_readDescriptor declared (ownBase path member)) []) fun declared _ => ?_
  refine (seenFrom.matches_extensionFiles _).bind ?_
  rintro _ overlays ⟨rfl, ownOverlays⟩ _
  refine Matches.bind_same (Matches.foldlM (fun path member declared => ?_) declared)
    fun _ _ => Matches.refl _
  simp only [announce, Report.outcome_note, Report.ok_bind]
  exact seenFrom.matches_readDescriptor declared (ownOverlays path member)

end SeenFrom
end SchemaTree
end EventSchema
