import EventSchema.Proofs.Json.RoundTrip
import EventSchema.Proofs.Source

namespace EventSchema

/-!
# Objects stored in memory

A tree in memory keeps texts, so an object is written where it is stored and read
where a file is asked for.  In between it is a text like that of any other file.
Storing replaces what the path held, and the object comes back as it was, the
fields of every object in it in their order.
-/

/-- A file that holds an object is read without a note. -/
theorem SchemaTree.readObject_of_holds {tree : SchemaTree} {path : Path} {fields : Fields}
    (holds : tree.Holds path fields) : tree.readObject path = ⟨[.reading path], .ok fields⟩ := by
  rcases holds with ⟨text, held, read⟩
  unfold readObject
  rw [held]
  simp only [read]
  rfl

namespace MemoryTree

/-- What is stored under a path is the text at that path. -/
theorem read_addText (memory : MemoryTree) (path : Path) (text : Text) :
    (memory.addText path text).read path = .ok text :=
  read_eq_ok_iff.mpr (OrderedMap.get?_insert_self memory.files path text)

/-- An object that is stored under a path is read back from there with all its
fields in order, whatever the tree held before, and nothing is noted. -/
theorem readObject_add (memory : MemoryTree) (path home : Path) (extensions : Text)
    {fields : Fields} (portable : Json.Portable (.obj fields)) :
    (SchemaTree.below (memory.add path (.obj fields)).source home extensions).readObject path =
      ⟨[.reading path], .ok fields⟩ :=
  SchemaTree.readObject_of_holds ⟨_, read_addText memory path _, Json.read_write portable⟩

/-- Quotes, controls and characters beyond the basic plane come back, in keys and in
values, from a path that held another text before. -/
theorem readObject_add_awkward :
    let home := Path.parse "/schema"
    let path := home.child "dictionary.json"
    let memory := ofContents [("/schema/dictionary.json", .str "[")] ["/schema"]
    let fields : Fields :=
      [("z\"\\/",
         .arr [.null, .bool true, .int (-120), .int 100000000000000000000, .arr [], .obj []]),
       ("a\u00e9\x00", .obj [("😀", .str "\n\x7f\u2028"), ("", .str "")])]
    Json.Portable (.obj fields) ∧
      (SchemaTree.below (memory.add path (.obj fields)).source home "extensions").readObject path =
        ⟨[.reading path], .ok fields⟩ := by
  intro home path memory fields
  have portable : Json.Portable (.obj fields) := by
    simp only [fields, Json.Portable, Json.PortableItems, Json.PortableFields]
    decide +kernel
  exact ⟨portable, readObject_add memory path home "extensions" portable⟩

end MemoryTree
end EventSchema
