import EventSchema.Proofs.Declarations
import EventSchema.Proofs.Source.Memory

namespace EventSchema
namespace SchemaTree

/-!
# The layers of what is declared

Which files of a tree in memory declare descriptors, and what they add up to.  The
base files of a kind are the JSON files below its folder, at any depth, and the
extension files are those on the way to which a folder of the same name is passed
below the extensions folder.  Base files come first and extension files second, each
group in the order of paths, and the contents that declare one type are merged in
that order.  The categories and the dictionary are layered alike.

The conditions on paths speak of the names that lead to a file.  They can be decided,
so a tree can be checked before its files are read.
-/

variable {memory : MemoryTree} {tree : SchemaTree} {folder name type : Text} {path : Path}

/-! ## The selected files -/

/-- A base file of a kind: a JSON file below the folder of the kind. -/
def BaseFile (tree : SchemaTree) (folder : Text) (path : Path) : Prop :=
  ∃ (passed : List PathName) (last : PathName) (stem : Text), stem ≠ [] ∧
    last.text = stem ++ ".json" ∧ path = (tree.home.child folder).descend (passed ++ [last])

/-- An extension file of a kind: a JSON file below the extensions folder, on the way to
which a folder of the kind is passed. -/
def ExtensionFile (tree : SchemaTree) (folder : Text) (path : Path) : Prop :=
  ∃ (passed : List PathName) (last : PathName) (stem : Text),
    folder ∈ passed.map PathName.text ∧ stem ≠ [] ∧ last.text = stem ++ ".json" ∧
      path = tree.extensions.descend (passed ++ [last])

/-- A file of the given name at any depth below the extensions folder. -/
def Overlay (tree : SchemaTree) (name : Text) (path : Path) : Prop :=
  ∃ (passed : List PathName) (last : PathName),
    last.text = name ∧ path = tree.extensions.descend (passed ++ [last])

/-- A name of a JSON file. -/
def IsJsonName (name : Text) : Prop :=
  ∃ stem : Text, stem ≠ [] ∧ name = stem ++ ".json"

theorem baseFile_iff (tree : SchemaTree) (folder : Text) (path : Path) :
    (path.isBelow (tree.home.child folder) = true ∧ path.isJson = true) ↔
      tree.BaseFile folder path :=
  Path.isBelow_and_isJson_iff

theorem extensionFile_iff (tree : SchemaTree) (folder : Text) (path : Path) :
    (path.isBelow tree.extensions = true ∧
        ((path.relativeTo tree.extensions).hasFolder folder && path.isJson) = true) ↔
      tree.ExtensionFile folder path := by
  rw [Bool.and_eq_true, and_comm (a := _ = true) (b := path.isJson = true), ← and_assoc,
    Path.isBelow_and_isJson_iff]
  constructor
  · rintro ⟨⟨passed, last, stem, something, named, rfl⟩, within⟩
    exact ⟨passed, last, stem, Path.hasFolder_relativeTo_iff.mp within, something, named, rfl⟩
  · rintro ⟨passed, last, stem, within, something, named, rfl⟩
    exact ⟨⟨passed, last, stem, something, named, rfl⟩, Path.hasFolder_relativeTo_iff.mpr within⟩

theorem overlay_iff (tree : SchemaTree) (name : Text) (path : Path) :
    (path.isBelow tree.extensions = true ∧ (path.relativeTo tree.extensions).name = name) ↔
      tree.Overlay name path := by
  rw [Path.isBelow_iff]
  constructor
  · rintro ⟨⟨names, given, rfl⟩, named⟩
    rcases List.eq_nil_or_concat' names with none | ⟨passed, last, rfl⟩
    · exact absurd none given
    · rw [Path.relativeTo_descend] at named
      exact ⟨passed, last, by simpa [Path.name] using named, rfl⟩
  · rintro ⟨passed, last, rfl, rfl⟩
    refine ⟨⟨_, by simp, rfl⟩, ?_⟩
    rw [Path.relativeTo_descend]
    simp [Path.name]

/-- A file that carries the name of a JSON file is one. -/
theorem Overlay.isJson (overlay : tree.Overlay name path) (json : IsJsonName name) :
    path.isJson = true := by
  rcases overlay with ⟨passed, last, named, rfl⟩
  rcases json with ⟨stem, something, rfl⟩
  exact Path.isJson_iff.mpr ⟨stem, something, (Path.name_descend_concat _ _ _).trans named⟩

theorem overlay_and_isJson_iff (tree : SchemaTree) (json : IsJsonName name) (path : Path) :
    (path.isBelow tree.extensions = true ∧
        (decide ((path.relativeTo tree.extensions).name = name) && path.isJson) = true) ↔
      tree.Overlay name path := by
  rw [Bool.and_eq_true, decide_eq_true_eq, ← and_assoc, overlay_iff]
  exact and_iff_left_of_imp fun overlay => overlay.isJson json

instance : Decidable (tree.BaseFile folder path) :=
  decidable_of_iff _ (baseFile_iff tree folder path)

instance : Decidable (tree.ExtensionFile folder path) :=
  decidable_of_iff _ (extensionFile_iff tree folder path)

instance : Decidable (tree.Overlay name path) :=
  decidable_of_iff _ (overlay_iff tree name path)

/-- A tree in memory finds the JSON files below a folder in order, unless the folder is there
and is blocked or has blocked folders below it. -/
theorem outcome_filesBelow_eq (held : tree.source = memory.source) (folder : Path) :
    (tree.filesBelow folder).outcome =
      if memory.isFolder folder = true ∧ memory.blocked folder ≠ [] then
        .error (.inaccessible folder ((memory.blocked folder).map AccessFault.denied))
      else .ok (memory.jsonBelow folder) := by
  have looks : (tree.isFolder folder).outcome = .ok (memory.isFolder folder) := by
    unfold SchemaTree.isFolder
    rw [held]
    rfl
  have lists : tree.source.list folder = memory.list folder := by rw [held]; rfl
  unfold filesBelow
  rw [Report.outcome_bind, looks, Report.ok_bind, lists]
  cases found : memory.isFolder folder with
  | false => simp [MemoryTree.jsonBelow_of_isFolder_eq_false found]
  | true =>
      by_cases free : memory.blocked folder = []
      · have visible := MemoryTree.visible_of_blocked_eq_nil free
        simp [free, visible, MemoryTree.list, MemoryTree.jsonBelow, Listing.complete]
      · simp [free, MemoryTree.list, Listing.complete]

/-- Where every folder can be listed, all JSON files below a folder are found. -/
theorem outcome_filesBelow (held : tree.source = memory.source)
    (readable : memory.unreadable = []) (folder : Path) :
    (tree.filesBelow folder).outcome = .ok (memory.jsonBelow folder) := by
  have free : memory.blocked folder = [] := by
    unfold MemoryTree.blocked
    rw [readable]
    rfl
  rw [outcome_filesBelow_eq held, if_neg fun blocked => blocked.2 free]

theorem outcome_extensionFiles (held : tree.source = memory.source)
    (readable : memory.unreadable = []) (selected : Path -> Bool) :
    (tree.extensionFiles selected).outcome =
      .ok ((Path.sorted (memory.files.keys.filter fun path => path.isBelow tree.extensions)).filter
        fun path => selected (path.relativeTo tree.extensions) && path.isJson) := by
  unfold extensionFiles
  rw [Report.outcome_bind, outcome_filesBelow held readable, Report.ok_bind, Report.outcome_pure,
    MemoryTree.jsonBelow, List.filter_filter]

/-! ## What files declare together -/

/-- A file holds an object that declares a type, which is not empty. -/
structure HoldsDescriptor (tree : SchemaTree) (path : Path) (entry : Text × Fields) : Prop where
  holds : tree.Holds path entry.2
  typed : entry.2.get? "type" = some (.str entry.1)
  given : entry.1 ≠ ""

theorem distinct_of_holdsDescriptor {files : List Path} {entries : List (Text × Fields)}
    (each : List.Forall₂ tree.HoldsDescriptor files entries) :
    ∀ entry ∈ entries, entry.2.Distinct := by
  intro entry member
  rcases Outcome.exists_of_mem_right each entry member with ⟨path, _, holds⟩
  exact (wellFormed_of_readObject (readObject_eq_ok_iff.mpr holds.holds)).distinct

/-- Lay a descriptor over what is declared for its type so far. -/
def declareEntry (declared : Declarations) (entry : Text × Fields) : Declarations :=
  declare declared entry.1 entry.2

/-- The contents that declare a type, in order. -/
def layersOf (entries : List (Text × Fields)) (type : Text) : List Fields :=
  (entries.filter fun entry => entry.1 = type).map Prod.snd

/-- Descriptors laid over one another by type: each type has its layers merged, and the
types stand in the order of their first occurrence. -/
structure LaidByType (entries : List (Text × Fields)) (declared : Declarations) : Prop where
  keys : declared.keys = (entries.map Prod.fst).eraseDups
  declares : forall type : Text, type ∈ declared.keys ↔ ∃ entry ∈ entries, entry.1 = type
  merged : ∀ type ∈ declared.keys,
    declared.get? type = some (Fields.mergeAll (layersOf entries type))

theorem declaredType?_eq_some_iff {fields : Fields} :
    declaredType? fields = some type ↔ fields.get? "type" = some (.str type) ∧ type ≠ "" := by
  refine ⟨fun declares => ⟨get?_type_of_declaredType? declares, ?_⟩, ?_⟩
  · rintro rfl
    unfold declaredType? at declares
    rw [get?_type_of_declaredType? declares] at declares
    cases declares
  · rintro ⟨typed, given⟩
    simp only [declaredType?, typed, if_neg given]

theorem layersOf_concat (entries : List (Text × Fields)) (last : Text × Fields) (type : Text) :
    layersOf (entries ++ [last]) type =
      if last.1 = type then layersOf entries type ++ [last.2] else layersOf entries type := by
  unfold layersOf
  rw [List.filter_append, List.map_append]
  by_cases same : last.1 = type <;> simp [same]

/-- One after another, descriptors add up to the merged layers of each type. -/
theorem get?_foldl_declareEntry {entries : List (Text × Fields)}
    (distinct : ∀ entry ∈ entries, entry.2.Distinct) (type : Text) :
    OrderedMap.get? (entries.foldl declareEntry []) type =
      if layersOf entries type = [] then none
      else some (Fields.mergeAll (layersOf entries type)) := by
  induction entries using List.reverseRecOn with
  | nil => rfl
  | append_singleton entries last ih =>
      have below := ih fun entry member => distinct entry (List.mem_append_left _ member)
      rw [List.foldl_append, List.foldl_cons, List.foldl_nil, layersOf_concat, declareEntry, declare,
        OrderedMap.get?_insert]
      by_cases same : last.1 = type
      · subst type
        have more : layersOf entries last.1 ++ [last.2] ≠ [] := by simp
        rw [if_pos rfl, if_pos rfl, if_neg more, Fields.mergeAll_concat]
        by_cases first : layersOf entries last.1 = []
        · have own := distinct last (by simp)
          rw [if_pos first] at below
          rw [below, first, Fields.mergeAll_nil, Fields.merge_nil_left own]
        · rw [if_neg first] at below
          rw [below]
      · rw [if_neg same, if_neg same]
        exact below

theorem layersOf_eq_nil_iff {entries : List (Text × Fields)} :
    layersOf entries type = [] ↔ ¬∃ entry ∈ entries, entry.1 = type := by
  rw [layersOf, List.map_eq_nil_iff, List.filter_eq_nil_iff, not_exists]
  exact forall_congr' fun entry => by rw [decide_eq_true_eq, not_and]

theorem laidByType_foldl_declareEntry {entries : List (Text × Fields)}
    (distinct : ∀ entry ∈ entries, entry.2.Distinct) :
    LaidByType entries (entries.foldl declareEntry []) := by
  have keys : OrderedMap.keys (entries.foldl declareEntry []) =
      (entries.map Prod.fst).eraseDups := by
    refine (OrderedMap.keys_foldl_insert Prod.fst _ entries []).trans ?_
    simp
  have declares : forall type : Text, type ∈ OrderedMap.keys (entries.foldl declareEntry []) ↔
      ∃ entry ∈ entries, entry.1 = type := by
    intro type
    rw [keys, List.mem_eraseDups, List.mem_map]
  refine ⟨keys, declares, fun type member => ?_⟩
  rw [get?_foldl_declareEntry distinct, if_neg]
  rw [layersOf_eq_nil_iff, not_not]
  exact (declares type).1 member

theorem outcome_readDescriptor {entry : Text × Fields} (holds : tree.HoldsDescriptor path entry)
    (declared : Declarations) :
    (tree.readDescriptor declared path).outcome = .ok (declareEntry declared entry) := by
  unfold readDescriptor
  rw [Report.outcome_bind, readObject_eq_ok_iff.mpr holds.holds, Report.ok_bind,
    declaredType?_eq_some_iff.mpr ⟨holds.typed, holds.given⟩]
  rfl

/-- Files that all hold descriptors are declared one after another, base files
first. -/
theorem outcome_declarations {base overlays : List Path} {entries : List (Text × Fields)}
    (findsBase : (tree.filesBelow (tree.home.child folder)).outcome = .ok base)
    (findsOverlays : (tree.extensionFiles fun path => path.hasFolder folder).outcome = .ok overlays)
    (each : List.Forall₂ tree.HoldsDescriptor (base ++ overlays) entries) :
    (tree.declarations folder).outcome = .ok (entries.foldl declareEntry []) := by
  have reads : List.Forall₂ (fun path entry => forall declared : Declarations,
      (tree.readDescriptor declared path).outcome = .ok (declareEntry declared entry))
      (base ++ overlays) entries :=
    each.imp fun _ _ holds => outcome_readDescriptor holds
  have folds := Outcome.foldlM_eq_ok_of_forall₂ reads []
  rw [List.foldlM_append] at folds
  rcases Outcome.bind_eq_ok_iff.mp folds with ⟨lower, first, second⟩
  unfold declarations
  simp only [Report.outcome_bind, findsBase, findsOverlays, Report.ok_bind, Report.outcome_foldlM,
    announce, Report.outcome_note, first, second, Report.outcome_pure]

/-! ## Files that are laid over a base file -/

theorem outcome_readLayered {base : Fields} {overlays : List Path} {layers : List Fields}
    (holds : tree.Holds (tree.home.child name) base)
    (finds : (tree.extensionFiles fun path => path.name = name).outcome = .ok overlays)
    (each : List.Forall₂ tree.Holds overlays layers) :
    (tree.readLayered name).outcome = .ok (Fields.mergeAll (base :: layers)) := by
  have own : base.Distinct := (wellFormed_of_readObject (readObject_eq_ok_iff.mpr holds)).distinct
  have lays : List.Forall₂ (fun path layer => forall fields : Fields,
      (do let overlay ← (tree.readObject path).outcome
          .ok (fields.merge overlay) : Except Failure Fields) = .ok (fields.merge layer))
      overlays layers :=
    each.imp fun _ _ laid fields => by rw [readObject_eq_ok_iff.mpr laid, Report.ok_bind]
  have folds := Outcome.foldlM_eq_ok_of_forall₂ lays base
  unfold readLayered
  simp only [Report.outcome_bind, readObject_eq_ok_iff.mpr holds, finds, Report.ok_bind,
    Report.outcome_foldlM, announce, Report.outcome_note, Report.outcome_pure]
  rw [Fields.mergeAll, List.foldl_cons, Fields.merge_nil_left own]
  exact folds

/-! ## Trees in memory -/

theorem exists_holds_iff :
    (∃ fields, tree.Holds path fields) ↔ (tree.readObject path).outcome.toOption.isSome = true := by
  simp only [Option.isSome_iff_exists, Outcome.toOption_eq_some_iff, readObject_eq_ok_iff]

theorem exists_holdsDescriptor_iff :
    (∃ entry, tree.HoldsDescriptor path entry) ↔
      ((tree.readObject path).outcome.toOption.bind declaredType?).isSome = true := by
  simp only [Option.isSome_iff_exists, Option.bind_eq_some_iff, Outcome.toOption_eq_some_iff,
    readObject_eq_ok_iff, declaredType?_eq_some_iff]
  constructor
  · rintro ⟨⟨type, fields⟩, holds, typed, given⟩
    exact ⟨type, fields, holds, typed, given⟩
  · rintro ⟨type, fields, holds, typed, given⟩
    exact ⟨⟨type, fields⟩, holds, typed, given⟩

instance : Decidable (∃ fields, tree.Holds path fields) :=
  decidable_of_iff _ exists_holds_iff.symm

instance : Decidable (∃ entry, tree.HoldsDescriptor path entry) :=
  decidable_of_iff _ exists_holdsDescriptor_iff.symm

/-- Every selected file of a kind holds a descriptor that says its type. -/
def AllDescribe (memory : MemoryTree) (tree : SchemaTree) (folder : Text) : Prop :=
  ∀ path ∈ memory.files.keys, tree.BaseFile folder path ∨ tree.ExtensionFile folder path ->
    ∃ entry, tree.HoldsDescriptor path entry

instance : Decidable (AllDescribe memory tree folder) :=
  inferInstanceAs (Decidable (∀ path ∈ memory.files.keys, _ -> _))

/-- A file of the home folder and all that are laid over it hold objects. -/
structure AllHold (memory : MemoryTree) (tree : SchemaTree) (name : Text) : Prop where
  base : ∃ fields, tree.Holds (tree.home.child name) fields
  overlays : ∀ path ∈ memory.files.keys, tree.Overlay name path -> ∃ fields, tree.Holds path fields

instance : Decidable (AllHold memory tree name) :=
  decidable_of_iff
    ((∃ fields, tree.Holds (tree.home.child name) fields) ∧
      ∀ path ∈ memory.files.keys, tree.Overlay name path -> ∃ fields, tree.Holds path fields)
    ⟨fun ⟨base, overlays⟩ => ⟨base, overlays⟩, fun ⟨base, overlays⟩ => ⟨base, overlays⟩⟩

/-- The descriptors of a kind are those of the base files and then of the extension files,
each group in the order of paths, laid over one another by type. -/
def ReadsByType (memory : MemoryTree) (tree : SchemaTree) (folder : Text)
    (report : Report Declarations) : Prop :=
  ∃ base extensions entries declared,
    memory.Ascending (tree.BaseFile folder) base ∧
    memory.Ascending (tree.ExtensionFile folder) extensions ∧
    List.Forall₂ tree.HoldsDescriptor (base ++ extensions) entries ∧
    report.outcome = .ok declared ∧ LaidByType entries declared

/-- A record is read from a file of the home folder over which all files of that name below
the extensions folder are laid in the order of paths. -/
def ReadsLayered {ρ : Type} [Record ρ] (memory : MemoryTree) (tree : SchemaTree) (name : Text)
    (report : Report ρ) : Prop :=
  ∃ base overlays layers,
    tree.Holds (tree.home.child name) base ∧
    memory.Ascending (tree.Overlay name) overlays ∧
    List.Forall₂ tree.Holds overlays layers ∧
    (tree.readLayered name).outcome = .ok (Fields.mergeAll (base :: layers)) ∧
    report.outcome = decode ρ (tree.home.child name).text (.obj (Fields.mergeAll (base :: layers)))

section Memory

variable (held : tree.source = memory.source) (readable : memory.unreadable = [])

include held readable

theorem exists_baseFiles (folder : Text) : ∃ base,
    memory.Ascending (tree.BaseFile folder) base ∧
      (tree.filesBelow (tree.home.child folder)).outcome = .ok base :=
  ⟨_, memory.ascending (baseFile_iff tree folder), outcome_filesBelow held readable _⟩

theorem exists_extensionFiles (folder : Text) : ∃ extensions,
    memory.Ascending (tree.ExtensionFile folder) extensions ∧
      (tree.extensionFiles fun path => path.hasFolder folder).outcome = .ok extensions :=
  ⟨_, memory.ascending (extensionFile_iff tree folder), outcome_extensionFiles held readable _⟩

theorem exists_overlays (json : IsJsonName name) : ∃ overlays,
    memory.Ascending (tree.Overlay name) overlays ∧
      (tree.extensionFiles fun path => path.name = name).outcome = .ok overlays :=
  ⟨_, memory.ascending (overlay_and_isJson_iff tree json), outcome_extensionFiles held readable _⟩

theorem readsByType (describe : AllDescribe memory tree folder) :
    ReadsByType memory tree folder (tree.declarations folder) := by
  rcases exists_baseFiles held readable folder with ⟨base, baseFiles, findsBase⟩
  rcases exists_extensionFiles held readable folder with
    ⟨extensions, extensionFiles, findsExtensions⟩
  have hold : ∀ path ∈ base ++ extensions, ∃ entry, tree.HoldsDescriptor path entry := by
    intro path member
    rcases List.mem_append.1 member with lower | upper
    · rcases (baseFiles.complete path).1 lower with ⟨listed, selected⟩
      exact describe path listed (Or.inl selected)
    · rcases (extensionFiles.complete path).1 upper with ⟨listed, selected⟩
      exact describe path listed (Or.inr selected)
  rcases Outcome.exists_forall₂ hold with ⟨entries, each⟩
  refine ⟨base, extensions, entries, _, baseFiles, extensionFiles, each,
    outcome_declarations findsBase findsExtensions each,
    laidByType_foldl_declareEntry (distinct_of_holdsDescriptor each)⟩

theorem readsLayered {ρ : Type} [Record ρ] (json : IsJsonName name)
    (hold : AllHold memory tree name) {report : Report ρ}
    (reads : forall fields : Fields, (tree.readLayered name).outcome = .ok fields ->
      report.outcome = decode ρ (tree.home.child name).text (.obj fields)) :
    ReadsLayered memory tree name report := by
  rcases exists_overlays held readable json with ⟨overlays, files, finds⟩
  rcases hold.base with ⟨base, own⟩
  have objects : ∀ path ∈ overlays, ∃ layer, tree.Holds path layer := by
    intro path member
    rcases (files.complete path).1 member with ⟨listed, selected⟩
    exact hold.overlays path listed selected
  rcases Outcome.exists_forall₂ objects with ⟨layers, each⟩
  have layered := outcome_readLayered own finds each
  exact ⟨base, overlays, layers, own, files, each, layered, reads _ layered⟩

end Memory

/-- In a tree that contents fill and all of whose folders can be listed, classes and
objects are read from the base files and the extension files of their kind, merged by
type in the order of paths.  The categories and the dictionary are read from the file
of the home folder with all files of its name below the extensions folder laid over
it. -/
theorem files_are_laid_in_order (contents : List (Text × Json)) (home : Path)
    (extensions : Text) :
    let memory := MemoryTree.ofContents contents []
    let tree := SchemaTree.below memory.source home extensions
    (AllDescribe memory tree eventsFolder ->
        ReadsByType memory tree eventsFolder tree.classDeclarations) ∧
      (AllDescribe memory tree objectsFolder ->
        ReadsByType memory tree objectsFolder tree.objectDeclarations) ∧
      (AllHold memory tree categoriesFile ->
        ReadsLayered memory tree categoriesFile tree.categories) ∧
      (AllHold memory tree dictionaryFile ->
        ReadsLayered memory tree dictionaryFile tree.dictionary) := by
  intro memory tree
  have readable : memory.unreadable = [] := MemoryTree.unreadable_ofContents contents []
  refine ⟨readsByType rfl readable, readsByType rfl readable, fun hold => ?_,
    fun hold => ?_⟩
  · refine readsLayered rfl readable ⟨"categories", by decide, by decide⟩ hold ?_
    intro fields layered
    rw [categories, Report.outcome_bind, layered]
    rfl
  · refine readsLayered rfl readable ⟨"dictionary", by decide, by decide⟩ hold ?_
    intro fields layered
    rw [dictionary, Report.outcome_bind, layered]
    rfl

/-- A schema in which four files declare one class and one lies where it does not
count.  By its text `a-b.json` would come before `a/b.json`. -/
def layeredContents : List (Text × Json) :=
  [("s/categories.json",
     .str "\x7b\"attributes\": \x7b\"net\": \x7b\"id\": 4\x7d\x7d\x7d"),
   ("s/dictionary.json", .str "\x7b\x7d"),
   ("s/events/a-b.json", .str "\x7b\"type\": \"flow\", \"x\": 1\x7d"),
   ("s/events/a/b.json", .str "\x7b\"type\": \"flow\", \"x\": 2, \"y\": 0\x7d"),
   ("s/events/a/notes.txt", .str "no JSON"),
   ("s/extensions/z/events/c.json", .str "\x7b\"type\": \"flow\", \"y\": 3\x7d"),
   ("s/extensions/z/events.json", .str "[]"),
   ("s/extensions/z/categories.json",
     .str "\x7b\"attributes\": \x7b\"net\": \x7b\"caption\": \"Net\"\x7d\x7d\x7d")]

/-- The file in the folder `a` is the lowest layer of the class, and the extension is the
highest. -/
theorem files_are_laid_in_order_part_by_part :
    let memory := MemoryTree.ofContents layeredContents []
    let tree := SchemaTree.below memory.source (Path.parse "s") "extensions"
    AllDescribe memory tree eventsFolder ∧ AllDescribe memory tree objectsFolder ∧
      AllHold memory tree categoriesFile ∧ AllHold memory tree dictionaryFile ∧
      tree.classDeclarations.outcome.toOption =
        some [(("flow" : Text), ([("type", .str "flow"), ("x", .int 1), ("y", .int 3)] : Fields))] ∧
      ReadsByType memory tree eventsFolder tree.classDeclarations ∧
      ReadsByType memory tree objectsFolder tree.objectDeclarations ∧
      ReadsLayered memory tree categoriesFile tree.categories ∧
      ReadsLayered memory tree dictionaryFile tree.dictionary := by
  intro memory tree
  have checked : (AllDescribe memory tree eventsFolder ∧ AllDescribe memory tree objectsFolder ∧
      AllHold memory tree categoriesFile ∧ AllHold memory tree dictionaryFile) ∧
      tree.classDeclarations.outcome.toOption =
        some [(("flow" : Text), ([("type", .str "flow"), ("x", .int 1), ("y", .int 3)] : Fields))] := by
    decide +kernel
  rcases checked with ⟨⟨classes, objects, categories, dictionary⟩, computed⟩
  have laid := files_are_laid_in_order layeredContents (Path.parse "s") "extensions"
  exact ⟨classes, objects, categories, dictionary, computed, laid.1 classes, laid.2.1 objects,
    laid.2.2.1 categories, laid.2.2.2 dictionary⟩

end SchemaTree
end EventSchema
