import EventSchema.Proofs.Catalog.Loading
import EventSchema.Proofs.Declarations.Layers
import EventSchema.Proofs.Inclusion.Repetition

namespace EventSchema

/-!
# Files that are not read

A file that is no JSON file is only read where a descriptor includes it.  If it is not read,
it shows in nothing that is loaded, whatever it holds and whatever folders are only there
for its sake.
-/

namespace SchemaTree

/-- The schema that contents make below a home folder, all of whose folders can be listed. -/
def ofContents (contents : List (Text × Json)) (home : Path) (extensions : Text) : SchemaTree :=
  below (MemoryTree.ofContents contents []).source home extensions

/-- Where every folder can be listed, the JSON files below a folder are found without a
word. -/
theorem filesBelow_eq {tree : SchemaTree} {memory : MemoryTree}
    (held : tree.source = memory.source) (readable : memory.unreadable = []) (folder : Path) :
    tree.filesBelow folder = pure (memory.jsonBelow folder) := by
  have looks : tree.isFolder folder = pure (memory.isFolder folder) := by
    unfold SchemaTree.isFolder
    rw [held]
    rfl
  have free : memory.blocked folder = [] := by
    unfold MemoryTree.blocked
    rw [readable]
    rfl
  have lists : tree.source.list folder = memory.list folder := by rw [held]; rfl
  unfold filesBelow
  rw [looks, pure_bind, lists]
  cases found : memory.isFolder folder with
  | false => simp [MemoryTree.jsonBelow_of_isFolder_eq_false found]
  | true =>
      have visible := MemoryTree.visible_of_blocked_eq_nil free
      simp [free, visible, MemoryTree.list, MemoryTree.jsonBelow, Listing.complete]

end SchemaTree

namespace MemoryTree

variable {first second : MemoryTree}

/-- Trees that hold the same text, or both none, under a path. -/
def SameAt (first second : MemoryTree) (path : Path) : Prop :=
  first.files.get? path = second.files.get? path

instance (first second : MemoryTree) (path : Path) : Decidable (SameAt first second path) :=
  inferInstanceAs (Decidable (_ = _))

/-- Where trees differ one of them has a file. -/
theorem mem_keys_of_not_sameAt {path : Path} (differ : ¬SameAt first second path) :
    path ∈ first.files.keys ++ second.files.keys := by
  by_contra neither
  rw [List.mem_append, not_or] at neither
  refine differ ?_
  rw [SameAt, (OrderedMap.get?_eq_none_iff _ _).mpr neither.1,
    (OrderedMap.get?_eq_none_iff _ _).mpr neither.2]

theorem SameAt.isFile_eq {path : Path} (same : SameAt first second path) :
    second.isFile path = first.isFile path := by
  rw [isFile, isFile, OrderedMap.contains, OrderedMap.contains, same]

theorem SameAt.read_eq {path : Path} (same : SameAt first second path) :
    second.read path = first.read path := by
  rw [read, read, same]

/-- Trees with the same JSON files list them alike. -/
theorem jsonBelow_eq (json : forall path : Path, path.isJson = true -> SameAt first second path)
    (folder : Path) : second.jsonBelow folder = first.jsonBelow folder := by
  have selects : forall memory : MemoryTree, memory.jsonBelow folder = Path.sorted
      ((memory.files.keys.filter fun path => path.isBelow folder).filter Path.isJson) :=
    fun memory => Path.filter_sorted _ _
  rw [selects, selects]
  have nodup : forall memory : MemoryTree,
      ((memory.files.keys.filter fun path => path.isBelow folder).filter Path.isJson).Nodup :=
    fun memory => List.Nodup.filter _ (List.Nodup.filter _ memory.distinct)
  refine Path.sorted_eq_of_perm ((List.perm_ext_iff_of_nodup (nodup second) (nodup first)).mpr
    fun path => ?_)
  rw [List.mem_filter, List.mem_filter, List.mem_filter, List.mem_filter]
  refine and_congr_left fun isJson => and_congr_left fun _ => ?_
  rw [← OrderedMap.get?_isSome_iff, ← OrderedMap.get?_isSome_iff, json path isJson]

/-- Trees with the same JSON files agree on all files that are the same. -/
theorem agreeOn (firstReadable : first.unreadable = []) (secondReadable : second.unreadable = [])
    (json : forall path : Path, path.isJson = true -> SameAt first second path) (home : Path)
    (extensions : Text) :
    SchemaTree.AgreeOn (SameAt first second) (SchemaTree.below first.source home extensions)
      (SchemaTree.below second.source home extensions) where
  home := rfl
  extensions := rfl
  files folder := by
    have finds : forall memory : MemoryTree, memory.unreadable = [] ->
        (SchemaTree.below memory.source home extensions).filesBelow folder =
          pure (memory.jsonBelow folder) :=
      fun memory readable => SchemaTree.filesBelow_eq rfl readable folder
    rw [finds first firstReadable, finds second secondReadable, jsonBelow_eq json]
  isFile path same := congrArg Except.ok same.isFile_eq
  read path same := same.read_eq
  json := json

end MemoryTree

namespace Catalog

open Session (Repeats)

section AgreeOn

variable {δ : Type} [Details δ] {agreed : Path -> Prop} {first second : SchemaTree}
  (agree : SchemaTree.AgreeOn agreed first second)

include agree

theorem repeats_readDescriptor (name : Text) (fields : Fields) :
    Repeats agreed (readDescriptor first name fields : Session (Descriptor δ))
      (readDescriptor second name fields) :=
  (Session.repeats_expand agree name fields).bind fun _ => Repeats.refl _

theorem repeats_readDescriptors (declared : Declarations) :
    Repeats agreed (readDescriptors first declared : Session (OrderedMap Text (Descriptor δ)))
      (readDescriptors second declared) := by
  refine Repeats.respects.mapM (fun entry => ?_) declared
  exact (repeats_readDescriptor agree entry.1 entry.2).bind fun _ => Repeats.refl _

/-- A load that succeeded repeats where the files that it read are the same. -/
theorem repeats_loadWith : Repeats agreed (loadWith first) (loadWith second) := by
  unfold loadWith
  rw [agree.home]
  refine (Repeats.refl _).bind fun _ => ?_
  refine (Repeats.ofReport agree.repeats_version).bind fun version => ?_
  refine (Repeats.refl _).bind fun _ => ?_
  refine (Repeats.ofReport agree.repeats_categories).bind fun categories => ?_
  refine (Repeats.ofReport agree.repeats_dictionary).bind fun dictionary => ?_
  refine (Repeats.ofReport (agree.repeats_declarations _)).bind fun declared => ?_
  refine (repeats_readDescriptors agree declared).bind fun classes => ?_
  refine (Repeats.refl _).bind fun linked => ?_
  refine (Repeats.refl _).bind fun resolved => ?_
  refine (Repeats.ofReport (agree.repeats_declarations _)).bind fun declared => ?_
  exact (repeats_readDescriptors agree declared).bind fun objects => Repeats.refl _

end AgreeOn

/-- A schema that loads does so again, to the same catalog with the same log, after files
that are no JSON files and were not read have been added, removed or changed. -/
theorem load_ignores_unread_files (first second : List (Text × Json)) (home : Path)
    (extensions : Text) {catalog : Catalog}
    (loads : (load (SchemaTree.ofContents first home extensions)).outcome = .ok catalog)
    (unread : forall path : Path,
      ¬MemoryTree.SameAt (MemoryTree.ofContents first []) (MemoryTree.ofContents second []) path ->
        path.isJson = false ∧ path ∉ (load (SchemaTree.ofContents first home extensions)).reads) :
    load (SchemaTree.ofContents second home extensions) =
      load (SchemaTree.ofContents first home extensions) := by
  have json : forall path : Path, path.isJson = true ->
      MemoryTree.SameAt (MemoryTree.ofContents first []) (MemoryTree.ofContents second []) path := by
    intro path isJson
    by_contra differ
    rw [(unread path differ).1] at isJson
    cases isJson
  have agree := MemoryTree.agreeOn (MemoryTree.unreadable_ofContents first [])
    (MemoryTree.unreadable_ofContents second []) json home extensions
  refine congrArg Prod.fst (repeats_loadWith agree [] catalog loads fun path member => ?_)
  by_contra differ
  exact (unread path differ).2 member

/-- A schema with notes in its folders, and a fragment that is no JSON file. -/
def notedContents : List (Text × Json) :=
  [("s/categories.json", .str "\x7b\"attributes\": \x7b\"net\": \x7b\"id\": 4\x7d\x7d\x7d"),
   ("s/dictionary.json", .obj []),
   ("s/parts/net.txt", .str "\x7b\"category\": \"net\"\x7d"),
   ("s/parts/disk.txt", .str "\x7b\"category\": \"disk\"\x7d"),
   ("s/events/flow.json",
     .str "\x7b\"type\": \"flow\", \"uid\": 1, \"$include\": \"parts/net.txt\"\x7d"),
   ("s/objects/notes.md", .str "None so far.")]

/-- The same schema without its notes and with other ones, in a folder of extensions, and
with another text of the fragment that is not included. -/
def renotedContents : List (Text × Json) :=
  [("s/extensions/x/events/notes.md", .str "To do"),
   ("s/categories.json", .str "\x7b\"attributes\": \x7b\"net\": \x7b\"id\": 4\x7d\x7d\x7d"),
   ("s/dictionary.json", .obj []),
   ("s/events/flow.json",
     .str "\x7b\"type\": \"flow\", \"uid\": 1, \"$include\": \"parts/net.txt\"\x7d"),
   ("s/parts/net.txt", .str "\x7b\"category\": \"net\"\x7d"),
   ("s/parts/disk.txt", .str "\x7b")]

/-- The included fragment is read, and neither the folder that is gone nor the new ones make
a difference. -/
theorem load_ignores_unread_files_beside_fragment :
    let noted := SchemaTree.ofContents notedContents (Path.parse "s") "extensions"
    let renoted := SchemaTree.ofContents renotedContents (Path.parse "s") "extensions"
    ∃ catalog, (load noted).outcome = .ok catalog ∧
      catalog.classes.keys = (["flow"] : List Text) ∧
      Path.parse "s/parts/net.txt" ∈ (load noted).reads ∧
      noted.source.isFolder (Path.parse "s/objects") ≠
        renoted.source.isFolder (Path.parse "s/objects") ∧
      noted.source.isFolder (Path.parse "s/extensions") ≠
        renoted.source.isFolder (Path.parse "s/extensions") ∧
      load renoted = load noted := by
  intro noted renoted
  have computed : (load noted).outcome.toOption.map (fun catalog => catalog.classes.keys) =
      some (["flow"] : List Text) := by
    decide +kernel
  have included : Path.parse "s/parts/net.txt" ∈ (load noted).reads := by decide +kernel
  have changes : ∀ path ∈ (MemoryTree.ofContents notedContents []).files.keys ++
      (MemoryTree.ofContents renotedContents []).files.keys,
      ¬MemoryTree.SameAt (MemoryTree.ofContents notedContents [])
        (MemoryTree.ofContents renotedContents []) path ->
          path.isJson = false ∧ path ∉ (load noted).reads := by
    decide +kernel
  rcases Option.map_eq_some_iff.mp computed with ⟨catalog, loaded, keys⟩
  have loads := Outcome.toOption_eq_some_iff.mp loaded
  refine ⟨catalog, loads, keys, included, by decide +kernel, by decide +kernel, ?_⟩
  refine load_ignores_unread_files notedContents renotedContents _ _ loads fun path differ => ?_
  exact changes path (MemoryTree.mem_keys_of_not_sameAt differ) differ

end Catalog
end EventSchema
