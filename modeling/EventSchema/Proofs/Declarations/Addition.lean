import EventSchema.Proofs.Declarations.Layers

namespace EventSchema

/-!
# What further extension files leave as it was

Files may be added to a schema below its extensions folder.  A file under a new path is
found among the others in its place, and leaving the new ones out of a listing gives the
listing of before.  So every type that no new file declares has the same layers, and what
is read from files of fixed names is the same, as long as no new file has such a name.
-/

/-! ## Trees with further files -/

namespace MemoryTree

/-- The tree with further files. -/
def extendedBy (memory : MemoryTree) (added : OrderedMap Path Text) : MemoryTree :=
  { memory with
    files := memory.files.insertAll added
    distinct := OrderedMap.distinct_insertAll added memory.distinct }

/-- The further files lie at new paths below a folder, and none has a reserved name. -/
structure Adds (memory : MemoryTree) (added : OrderedMap Path Text) (folder : Path)
    (reserved : List Text) : Prop where
  fresh : ∀ path ∈ added.keys, path ∉ memory.files.keys
  below : ∀ path ∈ added.keys, path.isBelow folder = true
  named : ∀ path ∈ added.keys, path.name ∉ reserved

variable {memory : MemoryTree} {added : OrderedMap Path Text} {path : Path}

theorem mem_keys_extendedBy :
    path ∈ (memory.extendedBy added).files.keys ↔ path ∈ memory.files.keys ∨ path ∈ added.keys :=
  OrderedMap.mem_keys_insertAll

theorem get?_extendedBy_of_not_mem (old : path ∉ added.keys) :
    (memory.extendedBy added).files.get? path = memory.files.get? path :=
  OrderedMap.get?_insertAll_of_not_mem old

/-- Without the new files a listing is that of before. -/
theorem jsonBelow_eq_filter (memory : MemoryTree) (added : OrderedMap Path Text) (folder : Path) :
    memory.jsonBelow folder =
      ((memory.extendedBy added).jsonBelow folder).filter fun path =>
        decide (path ∈ memory.files.keys) := by
  let known : Path -> Bool := fun path => decide (path ∈ memory.files.keys)
  let below : Path -> Bool := fun path => path.isBelow folder
  have old : (memory.extendedBy added).files.keys.filter known = memory.files.keys :=
    OrderedMap.filter_keys_insertAll memory.files added
  have swap : forall (first second : Path -> Bool) (files : List Path),
      (files.filter first).filter second = (files.filter second).filter first := by
    intro first second files
    rw [List.filter_filter, List.filter_filter]
    exact List.filter_congr fun path _ => Bool.and_comm _ _
  calc memory.jsonBelow folder
    _ = (Path.sorted (((memory.extendedBy added).files.keys.filter known).filter below)).filter
          Path.isJson := by rw [old]; rfl
    _ = ((Path.sorted ((memory.extendedBy added).files.keys.filter below)).filter known).filter
          Path.isJson := by rw [swap known below, Path.filter_sorted known]
    _ = ((memory.extendedBy added).jsonBelow folder).filter known := by
          rw [swap, jsonBelow]

end MemoryTree

namespace SchemaTree

/-! ## Types that files declare -/

/-- The types that those among the given files declare which are of a kind. -/
def typesIn (tree : SchemaTree) (folder : Text) (files : List Path) : List Text :=
  files.filterMap fun path =>
    if tree.BaseFile folder path ∨ tree.ExtensionFile folder path then
      (tree.readObject path).outcome.toOption.bind declaredType?
    else none

variable {tree lower larger : SchemaTree} {memory : MemoryTree} {added : OrderedMap Path Text}
  {folder name type : Text} {path : Path}

theorem mem_typesIn_iff {files : List Path} :
    type ∈ tree.typesIn folder files ↔
      ∃ path ∈ files, (tree.BaseFile folder path ∨ tree.ExtensionFile folder path) ∧
        ∃ fields, tree.HoldsDescriptor path (type, fields) := by
  rw [typesIn, List.mem_filterMap]
  refine exists_congr fun path => and_congr_right fun _ => ?_
  by_cases selected : tree.BaseFile folder path ∨ tree.ExtensionFile folder path
  · rw [if_pos selected, and_iff_right selected]
    simp only [Option.bind_eq_some_iff, Outcome.toOption_eq_some_iff, readObject_eq_ok_iff,
      declaredType?_eq_some_iff]
    exact exists_congr fun fields =>
      ⟨fun ⟨holds, typed, given⟩ => ⟨holds, typed, given⟩,
        fun ⟨holds, typed, given⟩ => ⟨holds, typed, given⟩⟩
  · rw [if_neg selected]
    exact iff_of_false (by simp) fun both => selected both.1

theorem Holds.unique {first second : Fields} (holds : tree.Holds path first)
    (again : tree.Holds path second) : first = second := by
  have same := (readObject_eq_ok_iff.mpr holds).symm.trans (readObject_eq_ok_iff.mpr again)
  exact Except.ok.inj same

theorem HoldsDescriptor.unique {first second : Text × Fields}
    (holds : tree.HoldsDescriptor path first) (again : tree.HoldsDescriptor path second) :
    first = second := by
  have fields := holds.holds.unique again.holds
  have typed := holds.typed
  rw [fields] at typed
  exact Prod.ext (Json.str.inj (Option.some.inj (typed.symm.trans again.typed))) fields

/-! ## What was read -/

/-- A listing that succeeds is complete. -/
theorem files_of_filesBelow (held : tree.source = memory.source) {below : Path}
    {files : List Path} (finds : (tree.filesBelow below).outcome = .ok files) :
    files = memory.jsonBelow below := by
  rw [outcome_filesBelow_eq held] at finds
  split at finds
  · cases finds
  · exact (Except.ok.inj finds).symm

theorem files_of_extensionFiles (held : tree.source = memory.source) {selected : Path -> Bool}
    {files : List Path} (finds : (tree.extensionFiles selected).outcome = .ok files) :
    files = (memory.jsonBelow tree.extensions).filter fun path =>
      selected (path.relativeTo tree.extensions) := by
  unfold extensionFiles at finds
  rw [Report.outcome_bind] at finds
  rcases Outcome.bind_eq_ok_iff.mp finds with ⟨all, found, same⟩
  rw [← Except.ok.inj same, files_of_filesBelow held found]

/-- A file of fixed name is read with the files laid over it. -/
theorem exists_layers_of_readLayered {fields : Fields}
    (reads : (tree.readLayered name).outcome = .ok fields) :
    ∃ base overlays layers, tree.Holds (tree.home.child name) base ∧
      (tree.extensionFiles fun path => path.name = name).outcome = .ok overlays ∧
      List.Forall₂ tree.Holds overlays layers ∧ fields = layers.foldl Fields.merge base := by
  unfold readLayered at reads
  simp only [Report.outcome_bind, Outcome.bind_eq_ok_iff, Report.outcome_foldlM] at reads
  rcases reads with ⟨base, read, overlays, finds, folds⟩
  have steps : ∀ path ∈ overlays, forall state next : Fields,
      (announce path >>= fun _ => tree.readObject path >>= fun overlay =>
        pure (state.merge overlay)).outcome = .ok next ->
      ∃ layer, tree.Holds path layer ∧ next = state.merge layer := by
    intro path _ state next step
    simp only [announce, Report.outcome_bind, Report.outcome_note, Report.ok_bind,
      Outcome.bind_eq_ok_iff, Report.outcome_pure] at step
    rcases step with ⟨layer, laid, same⟩
    exact ⟨layer, readObject_eq_ok_iff.mp laid, (Except.ok.inj same).symm⟩
  simp only [Report.outcome_bind] at steps
  rcases Outcome.exists_forall₂_of_foldlM steps folds with ⟨layers, each, same⟩
  exact ⟨base, overlays, layers, readObject_eq_ok_iff.mp read, finds, each, same⟩

theorem exists_entry_of_readDescriptor {declared next : Declarations}
    (reads : (tree.readDescriptor declared path).outcome = .ok next) :
    ∃ entry, tree.HoldsDescriptor path entry ∧ next = declareEntry declared entry := by
  unfold readDescriptor at reads
  rw [Report.outcome_bind] at reads
  rcases Outcome.bind_eq_ok_iff.mp reads with ⟨fields, read, step⟩
  split at step
  · cases step
  · next type found =>
      rcases declaredType?_eq_some_iff.mp found with ⟨typed, given⟩
      exact ⟨(type, fields), ⟨readObject_eq_ok_iff.mp read, typed, given⟩,
        (Except.ok.inj step).symm⟩

/-- What is declared is declared by the base files and the extension files in order. -/
theorem exists_entries_of_declarations {declared : Declarations}
    (reads : (tree.declarations folder).outcome = .ok declared) :
    ∃ base overlays entries,
      (tree.filesBelow (tree.home.child folder)).outcome = .ok base ∧
      (tree.extensionFiles fun path => path.hasFolder folder).outcome = .ok overlays ∧
      List.Forall₂ tree.HoldsDescriptor (base ++ overlays) entries ∧
      declared = entries.foldl declareEntry [] := by
  unfold declarations at reads
  simp only [Report.outcome_bind, Outcome.bind_eq_ok_iff, Report.outcome_foldlM, announce,
    Report.outcome_note, Report.ok_bind] at reads
  rcases reads with ⟨base, findsBase, first, folds, overlays, findsOverlays, second, lays, same⟩
  cases same
  rcases Outcome.exists_forall₂_of_foldlM
    (fun _ _ _ _ step => exists_entry_of_readDescriptor step) folds with ⟨lower, ofBase, rfl⟩
  rcases Outcome.exists_forall₂_of_foldlM
    (fun _ _ _ _ step => exists_entry_of_readDescriptor step) lays with ⟨upper, ofOverlays, rfl⟩
  exact ⟨base, overlays, lower ++ upper, findsBase, findsOverlays,
    List.rel_append ofBase ofOverlays, (List.foldl_append).symm⟩

/-- Only files of a kind are found for it. -/
theorem selected_of_mem (held : tree.source = memory.source) {base overlays : List Path}
    (findsBase : (tree.filesBelow (tree.home.child folder)).outcome = .ok base)
    (findsOverlays : (tree.extensionFiles fun path => path.hasFolder folder).outcome =
      .ok overlays) :
    ∀ path ∈ base ++ overlays, path ∈ memory.files.keys ∧
      (tree.BaseFile folder path ∨ tree.ExtensionFile folder path) := by
  intro path member
  rw [files_of_filesBelow held findsBase, files_of_extensionFiles held findsOverlays,
    List.mem_append, List.mem_filter, MemoryTree.mem_jsonBelow_iff,
    MemoryTree.mem_jsonBelow_iff] at member
  rcases member with ⟨listed, below, json⟩ | ⟨⟨listed, below, json⟩, passes⟩
  · exact ⟨listed, Or.inl ((baseFile_iff tree folder path).mp ⟨below, json⟩)⟩
  · refine ⟨listed, Or.inr ((extensionFile_iff tree folder path).mp ⟨below, ?_⟩)⟩
    rw [passes, json]
    rfl

theorem layersOf_cons (first : Text × Fields) (rest : List (Text × Fields)) (type : Text) :
    layersOf (first :: rest) type =
      if first.1 = type then first.2 :: layersOf rest type else layersOf rest type := by
  unfold layersOf
  by_cases same : first.1 = type <;> simp [same]

/-- Files that declare other types may be left out. -/
theorem layersOf_of_filter {known : Path -> Bool} {files : List Path}
    {entries kept : List (Text × Fields)} (all : List.Forall₂ tree.HoldsDescriptor files entries)
    (own : List.Forall₂ tree.HoldsDescriptor (files.filter known) kept)
    (apart : ∀ path ∈ files, known path = false -> forall entry : Text × Fields,
      tree.HoldsDescriptor path entry -> entry.1 ≠ type) :
    layersOf kept type = layersOf entries type := by
  induction all generalizing kept with
  | nil =>
      cases own
      rfl
  | @cons path entry files entries first _ ih =>
      rw [List.forall_mem_cons] at apart
      cases chosen : known path with
      | true =>
          rw [List.filter_cons_of_pos chosen] at own
          rcases List.forall₂_cons_left_iff.mp own with ⟨same, rest, again, others, rfl⟩
          cases first.unique again
          rw [layersOf_cons, layersOf_cons, ih others apart.2]
      | false =>
          rw [List.filter_cons_of_neg (by simp [chosen])] at own
          rw [layersOf_cons, if_neg (apart.1 chosen entry first), ih own apart.2]

/-! ## A schema with further extension files -/

/-- A schema in memory, and the same one with further files below its extensions folder.
None of them is laid over the version, the categories or the dictionary. -/
structure Enlarges (memory : MemoryTree) (added : OrderedMap Path Text)
    (lower larger : SchemaTree) : Prop where
  lowerSource : lower.source = memory.source
  largerSource : larger.source = (memory.extendedBy added).source
  home : larger.home = lower.home
  extensions : larger.extensions = lower.extensions
  adds : memory.Adds added lower.extensions [versionFile, categoriesFile, dictionaryFile]

namespace Enlarges

variable (enlarges : Enlarges memory added lower larger)

include enlarges

/-! ### Single files -/

theorem read_eq (old : path ∉ added.keys) : larger.source.read path = lower.source.read path := by
  rw [enlarges.largerSource, enlarges.lowerSource]
  change (memory.extendedBy added).read path = memory.read path
  unfold MemoryTree.read
  rw [MemoryTree.get?_extendedBy_of_not_mem old]

theorem outcome_readObject_eq (old : path ∉ added.keys) :
    (larger.readObject path).outcome = (lower.readObject path).outcome := by
  rw [outcome_readObject, outcome_readObject, objectOutcome, objectOutcome, enlarges.read_eq old]

theorem outcome_isFile_eq (old : path ∉ added.keys) :
    (larger.isFile path).outcome = (lower.isFile path).outcome := by
  unfold isFile
  rw [enlarges.largerSource, enlarges.lowerSource]
  change Except.ok ((memory.extendedBy added).files.get? path).isSome =
    Except.ok (memory.files.get? path).isSome
  rw [MemoryTree.get?_extendedBy_of_not_mem old]

/-- A file that is read in the schema is none of the new ones. -/
theorem not_mem_of_isFile (found : (lower.isFile path).outcome = .ok true) :
    path ∉ added.keys := by
  intro new
  refine enlarges.adds.fresh path new ((OrderedMap.get?_isSome_iff _ _).mp ?_)
  unfold isFile at found
  rw [enlarges.lowerSource] at found
  exact Except.ok.inj found

theorem not_mem_of_holds {fields : Fields} (holds : lower.Holds path fields) :
    path ∉ added.keys := by
  intro new
  rcases holds with ⟨text, stored, _⟩
  rw [enlarges.lowerSource] at stored
  exact enlarges.adds.fresh path new
    (OrderedMap.mem_keys_of_get?_eq_some (MemoryTree.read_eq_ok_iff.mp stored))

theorem holds {fields : Fields} (holds : lower.Holds path fields) : larger.Holds path fields := by
  unfold Holds
  rw [enlarges.read_eq (enlarges.not_mem_of_holds holds)]
  exact holds

theorem holdsDescriptor {entry : Text × Fields} (describes : lower.HoldsDescriptor path entry) :
    larger.HoldsDescriptor path entry :=
  ⟨enlarges.holds describes.holds, describes.typed, describes.given⟩

/-- A file of the home folder with a reserved name is none of the new ones. -/
theorem child_not_mem (reserved : name ∈ [versionFile, categoriesFile, dictionaryFile]) :
    lower.home.child name ∉ added.keys := by
  have proper : name ≠ "" ∧ name ≠ "." ∧ Symbol.char '/' ∉ name := by
    revert name
    decide
  have named : (lower.home.child name).name = name :=
    Path.name_child ⟨name, proper.1, proper.2.1, proper.2.2⟩ lower.home
  exact fun new => enlarges.adds.named _ new (named.symm ▸ reserved)

/-! ### The version and layered files -/

/-- The version is read as before. -/
theorem outcome_version_eq : larger.version.outcome = lower.version.outcome := by
  have old : lower.home.child versionFile ∉ added.keys := enlarges.child_not_mem (by decide)
  unfold version
  rw [enlarges.home, Report.outcome_bind, Report.outcome_bind, enlarges.outcome_isFile_eq old]
  congr 1
  funext found
  cases found with
  | false => rfl
  | true =>
      simp only [if_true, Report.outcome_bind]
      rw [enlarges.outcome_readObject_eq old]

/-- The files found below a folder are those of before, in order, if the new ones are left
out. -/
theorem filesBelow_eq_filter {folder : Path} {files more : List Path}
    (finds : (lower.filesBelow folder).outcome = .ok files)
    (again : (larger.filesBelow folder).outcome = .ok more) :
    files = more.filter fun path => decide (path ∈ memory.files.keys) := by
  rw [files_of_filesBelow enlarges.lowerSource finds,
    files_of_filesBelow enlarges.largerSource again]
  exact MemoryTree.jsonBelow_eq_filter memory added folder

theorem extensionFiles_eq_filter {selected : Path -> Bool} {files more : List Path}
    (finds : (lower.extensionFiles selected).outcome = .ok files)
    (again : (larger.extensionFiles selected).outcome = .ok more) :
    files = more.filter fun path => decide (path ∈ memory.files.keys) := by
  rw [files_of_extensionFiles enlarges.lowerSource finds,
    files_of_extensionFiles enlarges.largerSource again, enlarges.extensions,
    MemoryTree.jsonBelow_eq_filter memory added, List.filter_filter, List.filter_filter]
  exact List.filter_congr fun path _ => Bool.and_comm _ _

/-- No new file is laid over a file of a reserved name. -/
theorem overlays_eq (reserved : name ∈ [versionFile, categoriesFile, dictionaryFile])
    {files more : List Path}
    (finds : (lower.extensionFiles fun path => path.name = name).outcome = .ok files)
    (again : (larger.extensionFiles fun path => path.name = name).outcome = .ok more) :
    files = more := by
  rw [enlarges.extensionFiles_eq_filter finds again, List.filter_eq_self]
  intro path member
  rw [files_of_extensionFiles enlarges.largerSource again, List.mem_filter,
    MemoryTree.mem_jsonBelow_iff, MemoryTree.mem_keys_extendedBy, decide_eq_true_eq] at member
  rcases member with ⟨⟨listed, below, _⟩, named⟩
  rw [Path.name_relativeTo below] at named
  rcases listed with old | new
  · exact decide_eq_true old
  · exact absurd (named ▸ reserved) (enlarges.adds.named path new)

/-- What is read from a file of a reserved name is what was read before. -/
theorem readLayered_eq (reserved : name ∈ [versionFile, categoriesFile, dictionaryFile])
    {fields others : Fields} (reads : (lower.readLayered name).outcome = .ok fields)
    (again : (larger.readLayered name).outcome = .ok others) : others = fields := by
  rcases exists_layers_of_readLayered reads with ⟨base, overlays, layers, held, finds, each, rfl⟩
  rcases exists_layers_of_readLayered again with ⟨first, files, more, own, found, all, rfl⟩
  rw [enlarges.home] at own
  cases enlarges.overlays_eq reserved finds found
  have bases : base = first := (enlarges.holds held).unique own
  have same : layers = more := List.right_unique_forall₂' (fun _ _ _ one other => one.unique other)
    (each.imp fun _ _ laid => enlarges.holds laid) all
  rw [bases, same]

theorem categories_eq {categories others : Categories}
    (reads : lower.categories.outcome = .ok categories)
    (again : larger.categories.outcome = .ok others) : others = categories := by
  unfold SchemaTree.categories at reads again
  simp only [Report.outcome_bind, Outcome.bind_eq_ok_iff] at reads again
  rcases reads with ⟨fields, layered, decoded⟩
  rcases again with ⟨more, laid, read⟩
  cases enlarges.readLayered_eq (by decide) layered laid
  rw [enlarges.home] at read
  exact Except.ok.inj (read.symm.trans decoded)

/-! ### Declarations -/

/-- Every type that the schema declares is declared by one of its files. -/
theorem mem_typesIn_of_declarations {declared : Declarations}
    (reads : (lower.declarations folder).outcome = .ok declared) (member : type ∈ declared.keys) :
    type ∈ lower.typesIn folder memory.files.keys := by
  rcases exists_entries_of_declarations reads with
    ⟨base, overlays, entries, findsBase, findsOverlays, each, rfl⟩
  rcases ((laidByType_foldl_declareEntry (distinct_of_holdsDescriptor each)).declares type).1
    member with ⟨⟨_, fields⟩, within, rfl⟩
  rcases Outcome.exists_of_mem_right each _ within with ⟨path, found, holds⟩
  rcases selected_of_mem enlarges.lowerSource findsBase findsOverlays path found with
    ⟨listed, selected⟩
  exact mem_typesIn_iff.mpr ⟨path, listed, selected, fields, holds⟩

/-- A type that no new file declares is declared as before. -/
theorem get?_declarations_eq {declared more : Declarations}
    (reads : (lower.declarations folder).outcome = .ok declared)
    (again : (larger.declarations folder).outcome = .ok more)
    (other : type ∉ larger.typesIn folder added.keys) : more.get? type = declared.get? type := by
  rcases exists_entries_of_declarations reads with
    ⟨base, overlays, entries, findsBase, findsOverlays, each, rfl⟩
  rcases exists_entries_of_declarations again with
    ⟨moreBase, moreOverlays, all, findsMoreBase, findsMoreOverlays, eachMore, rfl⟩
  rw [enlarges.home] at findsMoreBase
  have own : base ++ overlays = (moreBase ++ moreOverlays).filter fun path =>
      decide (path ∈ memory.files.keys) := by
    rw [enlarges.filesBelow_eq_filter findsBase findsMoreBase,
      enlarges.extensionFiles_eq_filter findsOverlays findsMoreOverlays, List.filter_append]
  rw [own] at each
  have selected := selected_of_mem enlarges.largerSource (enlarges.home ▸ findsMoreBase)
    findsMoreOverlays
  have layers : layersOf entries type = layersOf all type := by
    refine layersOf_of_filter eachMore (each.imp fun _ _ => enlarges.holdsDescriptor) ?_
    rintro path member unknown ⟨_, fields⟩ holds rfl
    rcases selected path member with ⟨listed, chosen⟩
    have new : path ∈ added.keys :=
      (MemoryTree.mem_keys_extendedBy.mp listed).resolve_left (of_decide_eq_false unknown)
    exact other (mem_typesIn_iff.mpr ⟨path, new, chosen, fields, holds⟩)
  rw [get?_foldl_declareEntry (distinct_of_holdsDescriptor each),
    get?_foldl_declareEntry (distinct_of_holdsDescriptor eachMore), layers]

/-- If no new file declares a type of the schema, what was declared stays declared. -/
theorem get?_of_declarations {declared more : Declarations} {fields : Fields}
    (apart : ∀ type ∈ larger.typesIn folder added.keys,
      type ∉ lower.typesIn folder memory.files.keys)
    (reads : (lower.declarations folder).outcome = .ok declared)
    (again : (larger.declarations folder).outcome = .ok more)
    (found : declared.get? type = some fields) : more.get? type = some fields := by
  have known := enlarges.mem_typesIn_of_declarations reads
    (OrderedMap.mem_keys_of_get?_eq_some found)
  rw [enlarges.get?_declarations_eq reads again fun new => apart type new known, found]

end Enlarges

end SchemaTree
end EventSchema
