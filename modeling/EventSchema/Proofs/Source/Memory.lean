import EventSchema.Proofs.OrderedMap
import EventSchema.Proofs.Path
import EventSchema.Source.Memory

namespace EventSchema
namespace MemoryTree

/-!
# What a tree in memory lists

A tree holds each path once.  Where all its folders can be listed, a listing is
complete and finds the files below the folder in order.
-/

variable {memory : MemoryTree}

/-- All files of a tree that meet a condition, in the order of paths. -/
structure Ascending (memory : MemoryTree) (selected : Path -> Prop) (files : List Path) : Prop where
  increasing : files.Pairwise Path.Before
  complete : forall path : Path, path ∈ files ↔ path ∈ memory.files.keys ∧ selected path

/-- A content is stored as a text. -/
theorem exists_add_eq_addText (memory : MemoryTree) (path : Path) (content : Json) :
    ∃ text, memory.add path content = memory.addText path text := by
  cases content with
  | str text => exact ⟨text, rfl⟩
  | _ => exact ⟨_, rfl⟩

/-- What filling a tree with contents keeps from one content to the next. -/
theorem ofContents_invariant {motive : MemoryTree -> Prop} {unreadable : List Text}
    (start : motive { empty with unreadable := unreadable.map Path.parse })
    (step : forall (memory : MemoryTree) (path text : Text), motive memory ->
      motive (memory.addText (Path.parse path) text)) (contents : List (Text × Json)) :
    motive (ofContents contents unreadable) := by
  unfold ofContents
  generalize { empty with unreadable := unreadable.map Path.parse } = memory at start
  induction contents generalizing memory with
  | nil => exact start
  | cons content rest ih =>
      rw [List.foldl_cons]
      rcases exists_add_eq_addText memory (Path.parse content.1) content.2 with ⟨text, stores⟩
      rw [stores]
      exact ih _ (step memory content.1 text start)

theorem unreadable_ofContents (contents : List (Text × Json)) (unreadable : List Text) :
    (ofContents contents unreadable).unreadable = unreadable.map Path.parse :=
  ofContents_invariant (motive := fun memory => memory.unreadable = unreadable.map Path.parse)
    rfl (fun _ _ _ same => same) contents

/-- The JSON files below a folder in order, those that an unreadable folder hides included. -/
def jsonBelow (memory : MemoryTree) (folder : Path) : List Path :=
  (Path.sorted (memory.files.keys.filter fun path => path.isBelow folder)).filter Path.isJson

theorem mem_jsonBelow_iff {folder path : Path} :
    path ∈ memory.jsonBelow folder ↔
      path ∈ memory.files.keys ∧ path.isBelow folder = true ∧ path.isJson = true := by
  rw [jsonBelow, List.mem_filter, Path.sorted, Sorting.mem_sort, List.mem_filter, and_assoc]

/-- Where no folder at or below a folder is blocked, nothing hides a file there. -/
theorem visible_of_blocked_eq_nil {folder : Path} (free : memory.blocked folder = []) :
    memory.visible folder =
      Path.sorted (memory.files.keys.filter fun path => path.isBelow folder) := by
  unfold visible
  rw [free]
  simp

/-- A folder that is not there has no file below it. -/
theorem jsonBelow_of_isFolder_eq_false {folder : Path} (missing : memory.isFolder folder = false) :
    memory.jsonBelow folder = [] := by
  unfold isFolder at missing
  rw [Bool.or_eq_false_iff, List.any_eq_false] at missing
  rw [jsonBelow, List.filter_eq_nil_iff.mpr missing.1]
  rfl

/-- The files below a folder that pass a test are found in the order of paths. -/
theorem ascending (memory : MemoryTree) {below test : Path -> Bool} {selected : Path -> Prop}
    (passes : forall path : Path, below path = true ∧ test path = true ↔ selected path) :
    memory.Ascending selected
      ((Path.sorted (memory.files.keys.filter below)).filter test) where
  increasing := by
    have nodup : (memory.files.keys.filter below).Nodup := List.Nodup.filter _ memory.distinct
    exact (Path.pairwise_before_sorted nodup).filter test
  complete path := by
    rw [List.mem_filter, Path.sorted, Sorting.mem_sort, List.mem_filter, and_assoc, passes]

/-! ## The order of filling -/

/-- Two trees that hold the same texts under the same paths and cannot list the same
folders, in whatever order these came. -/
structure SameContents (left right : MemoryTree) : Prop where
  files : forall (path : Path) (text : Text),
    (path, text) ∈ left.files ↔ (path, text) ∈ right.files
  unreadable : forall folder : Path, folder ∈ left.unreadable ↔ folder ∈ right.unreadable

section SameContents

variable {left right : MemoryTree} (same : SameContents left right)

include same

/-- The unreadable folders below a folder are found in the order of paths. -/
theorem SameContents.blocked_eq (folder : Path) : left.blocked folder = right.blocked folder := by
  unfold blocked
  refine Path.sorted_eq_of_perm ((List.perm_ext_iff_of_nodup (Sorting.nodup_eraseDups _)
    (Sorting.nodup_eraseDups _)).mpr fun path => ?_)
  rw [List.mem_eraseDups, List.mem_eraseDups, List.mem_filter, List.mem_filter, same.unreadable]

theorem SameContents.perm : left.files.Perm right.files :=
  (List.perm_ext_iff_of_nodup left.distinct.of_map right.distinct.of_map).mpr
    fun entry => same.files entry.1 entry.2

/-- A source answers by its contents: the order in which they were stored shows in no
answer. -/
theorem SameContents.source_eq : left.source = right.source := by
  have perm := same.perm
  have keys : left.files.keys.Perm right.files.keys := perm.map Prod.fst
  have texts : forall path : Path, left.files.get? path = right.files.get? path :=
    OrderedMap.get?_of_perm left.distinct perm
  have isFile : left.isFile = right.isFile := by
    funext path
    rw [MemoryTree.isFile, MemoryTree.isFile, OrderedMap.contains, OrderedMap.contains, texts]
  have isFolder : left.isFolder = right.isFolder := by
    funext path
    have marked : left.unreadable.contains path = right.unreadable.contains path := by
      rw [Bool.eq_iff_iff, List.contains_iff_mem, List.contains_iff_mem, same.unreadable]
    rw [MemoryTree.isFolder, MemoryTree.isFolder, keys.any_eq, marked]
  have list : left.list = right.list := by
    funext folder
    have visible : left.visible folder = right.visible folder := by
      unfold visible
      rw [same.blocked_eq]
      exact Path.sorted_eq_of_perm (keys.filter _)
    rw [MemoryTree.list, MemoryTree.list, visible, same.blocked_eq]
  have read : left.read = right.read := by
    funext path
    rw [MemoryTree.read, MemoryTree.read, texts]
  rw [source, source, isFile, isFolder, list, read]

end SameContents

end MemoryTree
end EventSchema
