import EventSchema.Catalog.Loading
import EventSchema.Proofs.Source.Memory

namespace EventSchema
namespace Catalog

/-!
# What loading depends on

Two schemas may be held in different ways and still be the same schema.  Loading
only asks its source, so whatever shows in no answer of the source shows neither in
the catalog nor in the failure, and not even in the log.
-/

/-- Trees in memory that hold the same texts under the same paths, and have the same
unreadable folders, load alike: to the same catalog, or to the same failure with the
same events before it.  The order in which their contents were stored, and what was
stored only to be replaced, make no difference. -/
theorem load_ignores_filling_order (first second : List (Text × Json))
    (firstUnreadable secondUnreadable : List Text) (home : Path) (extensions : Text)
    (same : MemoryTree.SameContents (MemoryTree.ofContents first firstUnreadable)
      (MemoryTree.ofContents second secondUnreadable)) :
    load (SchemaTree.below (MemoryTree.ofContents first firstUnreadable).source home extensions) =
      load (SchemaTree.below (MemoryTree.ofContents second secondUnreadable).source home
        extensions) := by
  rw [same.source_eq]

/-- A schema of two classes, stored in the order of paths. -/
def orderedContents : List (Text × Json) :=
  [("s/categories.json", .str "\x7b\"attributes\": \x7b\"net\": \x7b\"id\": 4\x7d\x7d\x7d"),
   ("s/dictionary.json", .obj []),
   ("s/events/a.json", .str "\x7b\"type\": \"flow\", \"extends\": \"base\"\x7d"),
   ("s/events/b.json", .str "\x7b\"type\": \"base\", \"uid\": 7, \"category\": \"net\"\x7d")]

/-- The same schema, stored the other way round, with a dictionary that is replaced and a
path that is written in another way. -/
def shuffledContents : List (Text × Json) :=
  [("s/dictionary.json", .str "no JSON"),
   ("s/events/b.json", .str "\x7b\"type\": \"base\", \"uid\": 7, \"category\": \"net\"\x7d"),
   ("s//events/./a.json", .str "\x7b\"type\": \"flow\", \"extends\": \"base\"\x7d"),
   ("s/categories.json", .str "\x7b\"attributes\": \x7b\"net\": \x7b\"id\": 4\x7d\x7d\x7d"),
   ("s/dictionary.json", .str "\x7b\x7d")]

/-- Both load to the same two classes, in the order in which flattening meets them. -/
theorem load_ignores_filling_order_of_two_classes :
    let ordered := MemoryTree.ofContents orderedContents ["t/x", "t/y"]
    let shuffled := MemoryTree.ofContents shuffledContents ["t/y", "t/x", "t//y/"]
    let tree := SchemaTree.below ordered.source (Path.parse "s") "extensions"
    MemoryTree.SameContents ordered shuffled ∧
      (load tree).outcome.toOption.map (fun catalog => catalog.classes.keys) =
        some (["base", "flow"] : List Text) ∧
      load tree = load (SchemaTree.below shuffled.source (Path.parse "s") "extensions") := by
  intro ordered shuffled tree
  have files : ordered.files.Perm shuffled.files := by decide +kernel
  have folders : (∀ folder ∈ ordered.unreadable, folder ∈ shuffled.unreadable) ∧
      ∀ folder ∈ shuffled.unreadable, folder ∈ ordered.unreadable := by
    decide +kernel
  have same : MemoryTree.SameContents ordered shuffled :=
    ⟨fun _ _ => files.mem_iff, fun folder => ⟨folders.1 folder, folders.2 folder⟩⟩
  have classes : (load tree).outcome.toOption.map (fun catalog => catalog.classes.keys) =
      some (["base", "flow"] : List Text) := by
    decide +kernel
  exact ⟨same, classes, load_ignores_filling_order orderedContents shuffledContents
    ["t/x", "t/y"] ["t/y", "t/x", "t//y/"] (Path.parse "s") "extensions" same⟩

end Catalog
end EventSchema
