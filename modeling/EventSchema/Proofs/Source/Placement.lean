import EventSchema.Proofs.Path
import EventSchema.Proofs.OrderedMap
import EventSchema.Source.Memory

namespace EventSchema
namespace MemoryTree

/-!
# Trees placed below a home folder

A tree may be given relative to a home folder that is chosen later.  Placing it below a
home puts the home in front of all its paths.  A placed tree answers about a placed path
what the relative tree answers about the relative one: names are compared from the left,
and what all paths begin with makes no difference between them.
-/

/-- The files and the unreadable folders of a tree are given relative to a home. -/
structure Relative (memory : MemoryTree) : Prop where
  files : ∀ path ∈ memory.files.keys, path.Relative
  unreadable : ∀ folder ∈ memory.unreadable, folder.Relative

/-- The tree with its files and its unreadable folders below a home folder. -/
def placedBelow (memory : MemoryTree) (home : Path) : MemoryTree where
  files := OrderedMap.ofEntries (memory.files.map fun entry => (home.join entry.1, entry.2))
  unreadable := memory.unreadable.map home.join
  distinct := OrderedMap.distinct_ofEntries _

section Placed

variable {memory : MemoryTree} (relative : memory.Relative) (home : Path) {path folder : Path}
  (own : path.Relative) (ownFolder : folder.Relative)

include relative

/-- Relative paths stay apart below a home, so that no file takes the place of another. -/
theorem files_placedBelow : (memory.placedBelow home).files =
    memory.files.map fun entry => (home.join entry.1, entry.2) := by
  have keys : OrderedMap.keys (memory.files.map fun entry => (home.join entry.1, entry.2)) =
      memory.files.keys.map home.join := by
    simp only [OrderedMap.keys, List.map_map, Function.comp_def]
  refine OrderedMap.Distinct.ofEntries ?_
  rw [OrderedMap.Distinct, keys]
  refine memory.distinct.map_on fun first firstMember second secondMember same => ?_
  exact (Path.join_inj home (relative.files first firstMember)
    (relative.files second secondMember)).mp same

theorem keys_placedBelow :
    (memory.placedBelow home).files.keys = memory.files.keys.map home.join := by
  rw [files_placedBelow relative, OrderedMap.keys, List.map_map, OrderedMap.keys, List.map_map]
  rfl

section Files

include own

/-- A placed path leads to what the relative one leads to. -/
theorem get?_placedBelow :
    (memory.placedBelow home).files.get? (home.join path) = memory.files.get? path := by
  have placed : forall entries : OrderedMap Path Text, (∀ other ∈ entries.keys, other.Relative) ->
      OrderedMap.get? (entries.map fun entry => (home.join entry.1, entry.2)) (home.join path) =
        entries.get? path := by
    intro entries given
    induction entries with
    | nil => rfl
    | cons entry rest ih =>
        rcases entry with ⟨known, text⟩
        rw [OrderedMap.keys_cons, List.forall_mem_cons] at given
        rw [List.map_cons, OrderedMap.get?_cons, OrderedMap.get?_cons, ih given.2]
        simp only [Path.join_inj home given.1 own]
  rw [files_placedBelow relative]
  exact placed memory.files relative.files

theorem isFile_placedBelow : (memory.placedBelow home).isFile (home.join path) = memory.isFile path :=
  congrArg Option.isSome (get?_placedBelow relative home own)

/-- A file that is not there is missed at its place. -/
theorem read_placedBelow : (memory.placedBelow home).read (home.join path) =
    match memory.read path with
    | .ok text => .ok text
    | .error _ => .error (.unlisted (home.join path)) := by
  unfold read
  rw [get?_placedBelow relative home own]
  cases memory.files.get? path with
  | none => rfl
  | some text => rfl

end Files

section Folders

include ownFolder

theorem isFolder_placedBelow :
    (memory.placedBelow home).isFolder (home.join folder) = memory.isFolder folder := by
  have below : (memory.placedBelow home).files.keys.any (fun file => file.isBelow (home.join folder)) =
      memory.files.keys.any fun file => file.isBelow folder := by
    rw [keys_placedBelow relative, List.any_map, Bool.eq_iff_iff, List.any_eq_true, List.any_eq_true]
    refine exists_congr fun file => and_congr_right fun member => ?_
    rw [Function.comp_apply, Path.isBelow_join home (relative.files file member) ownFolder]
  have marked : (memory.placedBelow home).unreadable.contains (home.join folder) =
      memory.unreadable.contains folder := by
    rw [Bool.eq_iff_iff, List.contains_iff_mem, List.contains_iff_mem, placedBelow, List.mem_map]
    constructor
    · rintro ⟨other, member, same⟩
      exact (Path.join_inj home (relative.unreadable other member) ownFolder).mp same ▸ member
    · exact fun member => ⟨folder, member, rfl⟩
  rw [isFolder, isFolder, below, marked]

omit relative in
theorem isWithin_join (own : path.Relative) :
    isWithin (home.join path) (home.join folder) = isWithin path folder := by
  simp only [isWithin, Path.join_inj home own ownFolder, Path.isBelow_join home own ownFolder]

/-- The folders that cannot be listed are those of the relative tree, in the same order. -/
theorem blocked_placedBelow :
    (memory.placedBelow home).blocked (home.join folder) = (memory.blocked folder).map home.join := by
  have selected : (memory.placedBelow home).unreadable.filter
      (fun path => isWithin path (home.join folder)) =
        (memory.unreadable.filter fun path => isWithin path folder).map home.join := by
    rw [placedBelow, List.filter_map]
    congr 1
    apply List.filter_congr
    intro path member
    exact isWithin_join home ownFolder (relative.unreadable path member)
  have given : ∀ path ∈ memory.unreadable.filter fun path => isWithin path folder, path.Relative :=
    fun path member => relative.unreadable path (List.mem_of_mem_filter member)
  unfold blocked Path.sorted
  rw [selected, Sorting.eraseDups_map, Sorting.sort_map]
  · intro first firstMember second secondMember
    exact Path.le_join home (given first (List.mem_eraseDups.1 firstMember))
      (given second (List.mem_eraseDups.1 secondMember))
  · intro first firstMember second secondMember same
    exact (Path.join_inj home (given first firstMember) (given second secondMember)).mp same

/-- So are the files below a folder. -/
theorem visible_placedBelow :
    (memory.placedBelow home).visible (home.join folder) = (memory.visible folder).map home.join := by
  have blocked := blocked_placedBelow relative home ownFolder
  have barriers : ∀ barrier ∈ memory.blocked folder, barrier.Relative := fun barrier member =>
    relative.unreadable barrier
      (List.mem_of_mem_filter (List.mem_eraseDups.1 (Sorting.mem_sort.1 member)))
  unfold visible Path.sorted
  rw [keys_placedBelow relative, List.filter_map, blocked, ← Sorting.sort_map (f := home.join)]
  · congr 2
    apply List.filter_congr
    intro path member
    have own := relative.files path member
    have hidden : ((memory.blocked folder).map home.join).any (fun barrier =>
        (home.join path).isBelow barrier) =
          (memory.blocked folder).any fun barrier => path.isBelow barrier := by
      rw [List.any_map, Bool.eq_iff_iff, List.any_eq_true, List.any_eq_true]
      refine exists_congr fun barrier => and_congr_right fun within => ?_
      rw [Function.comp_apply, Path.isBelow_join home own (barriers barrier within)]
    rw [Function.comp_apply, Path.isBelow_join home own ownFolder, hidden]
  · intro first firstMember second secondMember
    exact Path.le_join home (relative.files first (List.mem_of_mem_filter firstMember))
      (relative.files second (List.mem_of_mem_filter secondMember))

omit relative ownFolder in
/-- What is listed lies below the folder. -/
theorem below_of_mem_visible (member : path ∈ memory.visible folder) :
    path ∈ memory.files.keys ∧ path.isBelow folder = true := by
  have kept := List.mem_filter.1 (Sorting.mem_sort.1 member)
  rw [Bool.and_eq_true] at kept
  exact ⟨kept.1, kept.2.1⟩

end Folders
end Placed

end MemoryTree
end EventSchema
