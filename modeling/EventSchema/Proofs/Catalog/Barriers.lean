import EventSchema.Proofs.Catalog.Loading
import EventSchema.Proofs.Declarations.Addition

namespace EventSchema

/-!
# Folders that cannot be listed

Loading lists three folders, those of the events, of the objects and of the extensions.
A listing fails where it meets a folder that cannot be listed, and so does loading.

But a folder is only listed if it is there, and a tree in memory takes a folder to be
there if a file lies below it or if it is marked as unreadable itself.  An unreadable
folder further down does not count.  A folder that holds such folders alone is passed
over as if it were missing, and nothing is known of what could not be listed.

A tree loads exactly if it loads with all its folders open and no listing fails.
-/

/-! ## Closed folders -/

namespace MemoryTree

variable {memory : MemoryTree} {folder : Path}

/-- The tree with all its folders open to listing. -/
def opened (memory : MemoryTree) : MemoryTree :=
  { memory with unreadable := [] }

/-- A folder that is found and cannot be listed completely. -/
structure Closed (memory : MemoryTree) (folder : Path) : Prop where
  there : folder ∈ memory.unreadable ∨ ∃ file ∈ memory.files.keys, file.isBelow folder = true
  barred : ∃ barrier ∈ memory.unreadable, isWithin barrier folder = true

theorem mem_blocked_iff {barrier : Path} :
    barrier ∈ memory.blocked folder ↔
      barrier ∈ memory.unreadable ∧ isWithin barrier folder = true := by
  rw [blocked, Path.sorted, Sorting.mem_sort, List.mem_eraseDups, List.mem_filter]

theorem blocked_ne_nil_iff :
    memory.blocked folder ≠ [] ↔ ∃ barrier ∈ memory.unreadable, isWithin barrier folder = true := by
  rw [ne_eq, List.eq_nil_iff_forall_not_mem, not_forall_not]
  exact exists_congr fun _ => mem_blocked_iff

theorem isFolder_iff :
    memory.isFolder folder = true ↔
      folder ∈ memory.unreadable ∨ ∃ file ∈ memory.files.keys, file.isBelow folder = true := by
  rw [isFolder, Bool.or_eq_true, List.any_eq_true, List.contains_iff_mem, or_comm]

theorem closed_iff :
    memory.Closed folder ↔ memory.isFolder folder = true ∧ memory.blocked folder ≠ [] := by
  rw [isFolder_iff, blocked_ne_nil_iff]
  exact ⟨fun closed => ⟨closed.there, closed.barred⟩, fun both => ⟨both.1, both.2⟩⟩

end MemoryTree

namespace SchemaTree

/-! ## Schemas of the same files -/

/-- The folders that loading lists. -/
def listedFolders (tree : SchemaTree) : List Path :=
  [tree.home.child eventsFolder, tree.home.child objectsFolder, tree.extensions]

/-- Two schemas of the same files, the second of which lists what the first one lists. -/
structure ListedBy (first second : SchemaTree) : Prop where
  home : second.home = first.home
  extensions : second.extensions = first.extensions
  isFile : second.source.isFile = first.source.isFile
  read : second.source.read = first.source.read
  lists : ∀ folder ∈ first.listedFolders,
    Outcome.KeptBy (first.filesBelow folder).outcome (second.filesBelow folder).outcome

namespace ListedBy

variable {first second : SchemaTree} (listedBy : ListedBy first second)

include listedBy

theorem readObject_eq : second.readObject = first.readObject := by
  funext path
  rw [readObject, readObject, listedBy.read]

theorem isFile_eq : SchemaTree.isFile second = SchemaTree.isFile first := by
  funext path
  rw [SchemaTree.isFile, SchemaTree.isFile, listedBy.isFile]

theorem readFragment_eq : Inclusion.readFragment second = Inclusion.readFragment first := by
  funext owner reference
  rw [Inclusion.readFragment, Inclusion.readFragment, Inclusion.locate, Inclusion.locate,
    listedBy.home, listedBy.isFile_eq, listedBy.readObject_eq]

theorem readDescriptor_eq : second.readDescriptor = first.readDescriptor := by
  funext declared path
  rw [readDescriptor, readDescriptor, listedBy.readObject_eq]

theorem version_eq : second.version = first.version := by
  rw [version, version, listedBy.home, listedBy.isFile_eq, listedBy.readObject_eq]

theorem keptBy_extensionFiles (selected : Path -> Bool) :
    Outcome.KeptBy (first.extensionFiles selected).outcome
      (second.extensionFiles selected).outcome := by
  unfold extensionFiles
  rw [Report.outcome_bind, Report.outcome_bind, listedBy.extensions]
  exact (listedBy.lists _ (by simp [listedFolders])).bind fun _ => Outcome.KeptBy.refl _

theorem keptBy_readLayered (name : Text) :
    Outcome.KeptBy (first.readLayered name).outcome (second.readLayered name).outcome := by
  unfold readLayered
  simp only [Report.outcome_bind, listedBy.home, listedBy.readObject_eq]
  exact (Outcome.KeptBy.refl _).bind fun _ =>
    (listedBy.keptBy_extensionFiles _).bind fun _ => Outcome.KeptBy.refl _

theorem keptBy_categories : Outcome.KeptBy first.categories.outcome second.categories.outcome := by
  unfold categories
  rw [Report.outcome_bind, Report.outcome_bind, listedBy.home]
  exact (listedBy.keptBy_readLayered _).bind fun _ => Outcome.KeptBy.refl _

theorem keptBy_dictionary : Outcome.KeptBy first.dictionary.outcome second.dictionary.outcome := by
  unfold dictionary
  rw [Report.outcome_bind, Report.outcome_bind, listedBy.home]
  exact (listedBy.keptBy_readLayered _).bind fun _ => Outcome.KeptBy.refl _

theorem keptBy_declarations {folder : Text} (listed : first.home.child folder ∈ first.listedFolders) :
    Outcome.KeptBy (first.declarations folder).outcome (second.declarations folder).outcome := by
  unfold declarations
  simp only [Report.outcome_bind, listedBy.home, listedBy.readDescriptor_eq]
  refine (listedBy.lists _ listed).bind fun _ => (Outcome.KeptBy.refl _).bind fun _ => ?_
  exact (listedBy.keptBy_extensionFiles _).bind fun _ => Outcome.KeptBy.refl _

end ListedBy

variable {memory : MemoryTree} {home : Path} {extensions : Text}

/-- What is listed in a tree is listed once its folders are open. -/
theorem listedBy_opened (memory : MemoryTree) (home : Path) (extensions : Text) :
    ListedBy (below memory.source home extensions) (below memory.opened.source home extensions) where
  home := rfl
  extensions := rfl
  isFile := rfl
  read := rfl
  lists folder _ files finds := by
    have held : (below memory.source home extensions).source = memory.source := rfl
    have opened : (below memory.opened.source home extensions).source = memory.opened.source := rfl
    rw [files_of_filesBelow held finds]
    exact outcome_filesBelow opened rfl folder

/-- Where no listed folder is closed, opening all folders makes no difference. -/
theorem listedBy_of_not_closed
    (unclosed : ∀ folder ∈ (below memory.source home extensions).listedFolders,
      ¬memory.Closed folder) :
    ListedBy (below memory.opened.source home extensions) (below memory.source home extensions) where
  home := rfl
  extensions := rfl
  isFile := rfl
  read := rfl
  lists folder listed files finds := by
    have held : (below memory.source home extensions).source = memory.source := rfl
    have opened : (below memory.opened.source home extensions).source = memory.opened.source := rfl
    rw [files_of_filesBelow opened finds, outcome_filesBelow_eq held, if_neg]
    · rfl
    · rw [← MemoryTree.closed_iff]
      exact unclosed folder listed

/-- A closed folder is not listed. -/
theorem not_closed_of_filesBelow {tree : SchemaTree} (held : tree.source = memory.source)
    {folder : Path} {files : List Path} (finds : (tree.filesBelow folder).outcome = .ok files) :
    ¬memory.Closed folder := by
  intro closed
  rw [outcome_filesBelow_eq held, if_pos (MemoryTree.closed_iff.mp closed)] at finds
  cases finds

end SchemaTree

namespace Catalog

/-! ## Loading -/

section ListedBy

variable {first second : SchemaTree} (listedBy : SchemaTree.ListedBy first second)

include listedBy

theorem describeAll_eq {δ : Type} [Details δ] (declared : Declarations) :
    (describeAll second declared : Report (Inheritance.Hierarchy δ)) = describeAll first declared := by
  unfold describeAll describe
  rw [listedBy.readFragment_eq]

/-- What is loaded from a schema is loaded from one that lists the same and more. -/
theorem keptBy_load : Outcome.KeptBy (load first).outcome (load second).outcome := by
  rw [outcome_load, outcome_load, listedBy.version_eq]
  unfold describedClasses describedObjects
  simp only [Report.outcome_bind, describeAll_eq listedBy]
  apply (Outcome.KeptBy.refl _).bind
  intro version
  apply listedBy.keptBy_categories.bind
  intro categories
  apply listedBy.keptBy_dictionary.bind
  intro dictionary
  apply Outcome.KeptBy.bind
  · exact (listedBy.keptBy_declarations (by simp [SchemaTree.listedFolders])).bind fun _ =>
      Outcome.KeptBy.refl _
  intro classes
  apply (Outcome.KeptBy.refl _).bind
  intro resolved
  apply Outcome.KeptBy.bind
  · exact (listedBy.keptBy_declarations (by simp [SchemaTree.listedFolders])).bind fun _ =>
      Outcome.KeptBy.refl _
  exact fun _ => Outcome.KeptBy.refl _

end ListedBy

/-- A catalog is only loaded where all listings succeed. -/
theorem Stages.not_closed {tree : SchemaTree} {catalog : Catalog} (stages : Stages tree catalog)
    {memory : MemoryTree} (held : tree.source = memory.source) :
    ∀ folder ∈ tree.listedFolders, ¬memory.Closed folder := by
  rcases SchemaTree.exists_entries_of_declarations stages.declaresClasses with
    ⟨_, _, _, findsEvents, findsExtensions, _⟩
  rcases SchemaTree.exists_entries_of_declarations stages.declaresObjects with
    ⟨_, _, _, findsObjects, _⟩
  unfold SchemaTree.extensionFiles at findsExtensions
  rw [Report.outcome_bind] at findsExtensions
  rcases Outcome.bind_eq_ok_iff.mp findsExtensions with ⟨_, finds, _⟩
  simp only [SchemaTree.listedFolders, List.forall_mem_cons]
  exact ⟨SchemaTree.not_closed_of_filesBelow held findsEvents,
    SchemaTree.not_closed_of_filesBelow held findsObjects,
    SchemaTree.not_closed_of_filesBelow held finds, List.forall_mem_nil _⟩

/-- A tree loads to a catalog exactly if it does so with all its folders open and none of
the folders that loading lists is closed. -/
theorem load_eq_ok_iff_not_closed (memory : MemoryTree) (home : Path) (extensions : Text)
    (catalog : Catalog) :
    (load (SchemaTree.below memory.source home extensions)).outcome = .ok catalog ↔
      (load (SchemaTree.below memory.opened.source home extensions)).outcome = .ok catalog ∧
        ∀ folder ∈ [home.child SchemaTree.eventsFolder, home.child SchemaTree.objectsFolder,
          home.child extensions], ¬memory.Closed folder := by
  constructor
  · intro loads
    rcases exists_stages loads with ⟨stages⟩
    exact ⟨keptBy_load (SchemaTree.listedBy_opened memory home extensions) catalog loads,
      stages.not_closed rfl⟩
  · rintro ⟨loads, unclosed⟩
    exact keptBy_load (SchemaTree.listedBy_of_not_closed unclosed) catalog loads

/-- A tree without descriptors, whose folder of events holds one that cannot be listed. -/
def barredTree : MemoryTree where
  files :=
    [(Path.parse "s/categories.json", "\x7b\x7d"), (Path.parse "s/dictionary.json", "\x7b\x7d")]
  unreadable := [Path.parse "s/events/locked"]

/-- It is loaded all the same. -/
theorem load_passes_over_barrier :
    (∃ barrier ∈ barredTree.unreadable,
      MemoryTree.isWithin barrier ((Path.parse "s").child SchemaTree.eventsFolder) = true) ∧
    ∃ catalog, (load (SchemaTree.below barredTree.source (Path.parse "s") "extensions")).outcome =
      .ok catalog := by
  have barred : ∃ barrier ∈ barredTree.unreadable,
      MemoryTree.isWithin barrier ((Path.parse "s").child SchemaTree.eventsFolder) = true :=
    ⟨_, List.mem_singleton_self _, by decide +kernel⟩
  have computed : (load (SchemaTree.below barredTree.source (Path.parse "s")
      "extensions")).outcome.toOption.isSome = true := by
    decide +kernel
  rcases Option.isSome_iff_exists.mp computed with ⟨catalog, loaded⟩
  exact ⟨barred, catalog, Outcome.toOption_eq_some_iff.mp loaded⟩

end Catalog
end EventSchema
