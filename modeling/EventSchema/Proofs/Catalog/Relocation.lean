import EventSchema.Proofs.Catalog.Loading
import EventSchema.Proofs.Inclusion.Relocation

namespace EventSchema

/-!
# A schema loads to the same catalog wherever it lies

Loading reads files and then computes with what it has read.  The first part is the same
below every home folder (`SchemaTree.SeenFrom`, `Inclusion.matches_expand`), and the second
part speaks of no paths at all.
-/

/-- No directive in a file of a tree names a path that starts at a root. -/
def MemoryTree.RefersLocally (memory : MemoryTree) : Prop :=
  ∀ entry ∈ memory.files, ∀ value ∈ (Json.read entry.2).toOption, ∀ fields ∈ value.fields?,
    Inclusion.RefersLocally fields

instance (memory : MemoryTree) : Decidable memory.RefersLocally :=
  inferInstanceAs (Decidable (∀ entry ∈ memory.files, ∀ value ∈ (Json.read entry.2).toOption,
    ∀ fields ∈ value.fields?, Inclusion.RefersLocally fields))

theorem MemoryTree.RefersLocally.of_holds {memory : MemoryTree} (refers : memory.RefersLocally)
    {extensions : Text} (file : Path) (fields : Fields)
    (holds : (memory.schema extensions).Holds file fields) : Inclusion.RefersLocally fields := by
  rcases holds with ⟨text, stored, read⟩
  have listed : memory.files.get? file = some text := MemoryTree.read_eq_ok_iff.mp stored
  refine refers (file, text) (OrderedMap.mem_of_get?_eq_some listed) (.obj fields) ?_ fields rfl
  rw [read]
  rfl

namespace Catalog

variable {δ : Type} [Details δ]

section SeenFrom

variable {home : Path} {placed seen : SchemaTree} (seenFrom : SchemaTree.SeenFrom home placed seen)
  (localFiles : forall (file : Path) (fields : Fields),
    seen.Holds file fields -> Inclusion.RefersLocally fields)

include seenFrom localFiles

theorem matches_describe {name : Text} {fields : Fields} (keyed : Json.Keyed (.obj fields))
    (origins : seen.FromFiles fields) :
    Matches Eq (describe placed name fields : Report (Descriptor δ)).outcome
      (describe seen name fields).outcome := by
  unfold describe
  simp only [Report.outcome_bind]
  exact (Inclusion.matches_expand seenFrom name localFiles keyed origins).bind_same
    fun _ _ => Matches.refl _

theorem matches_describeAll {declared : Declarations} {folder : Text}
    (declares : (seen.declarations folder).outcome = .ok declared) :
    Matches Eq (describeAll placed declared : Report (Inheritance.Hierarchy δ)).outcome
      (describeAll seen declared).outcome := by
  have holds := SchemaTree.declared_of_declarations declares
  have origins := SchemaTree.fromFiles_of_declarations declares
  unfold describeAll
  rw [Report.outcome_mapM, Report.outcome_mapM]
  refine Matches.mapM fun entry member => ?_
  rw [Report.outcome_bind, Report.outcome_bind]
  exact (matches_describe seenFrom localFiles (holds.wellFormed entry member).keyed
    (origins entry member)).bind_same fun _ _ => Matches.refl _

theorem matches_described {folder : Text} (relative : (Path.parse folder).Relative) :
    Matches Eq
      (placed.declarations folder >>= (describeAll placed : _ -> Report (Inheritance.Hierarchy δ))).outcome
      (seen.declarations folder >>= describeAll seen).outcome := by
  rw [Report.outcome_bind, Report.outcome_bind]
  exact (seenFrom.matches_declarations relative).bind_same
    fun declared declares => matches_describeAll seenFrom localFiles declares

/-- What is loaded below a home folder matches what is loaded as seen from there. -/
theorem matches_load : Matches Eq (load placed).outcome (load seen).outcome := by
  rw [outcome_load, outcome_load]
  apply seenFrom.matches_version.bind_same
  intro version _
  apply seenFrom.matches_categories.bind_same
  intro categories _
  apply seenFrom.matches_dictionary.bind_same
  intro dictionary _
  apply (matches_described seenFrom localFiles (by decide)).bind_same
  intro classes _
  apply (Matches.refl _).bind_same
  intro resolved _
  apply (matches_described seenFrom localFiles (by decide)).bind_same
  intro objects _
  exact Matches.refl _

end SeenFrom

/-- A schema whose files are given relative to its home loads alike below any two homes: to
the same catalog, or to failures that differ at most in the files and folders they name. -/
theorem load_ignores_home (memory : MemoryTree) (extensions : Text) (first second : Path)
    (relative : memory.Relative) (inside : (Path.parse extensions).Relative)
    (refers : memory.RefersLocally) :
    Matches Eq (load (memory.schemaBelow first extensions)).outcome
      (load (memory.schemaBelow second extensions)).outcome := by
  have loads : forall home : Path, Matches Eq (load (memory.schemaBelow home extensions)).outcome
      (load (memory.schema extensions)).outcome := fun home =>
    matches_load (MemoryTree.seenFrom_schemaBelow relative home inside) refers.of_holds
  exact (loads first).trans (loads second).symm

/-- A schema of relative paths, with a fragment, an extension and an unreadable folder. -/
def movableTree : MemoryTree where
  files :=
    [(Path.parse "categories.json", "\x7b\"attributes\": \x7b\"net\": \x7b\"id\": 4\x7d\x7d\x7d"),
     (Path.parse "dictionary.json", "\x7b\x7d"),
     (Path.parse "parts/net.json", "\x7b\"category\": \"net\"\x7d"),
     (Path.parse "events/flow.json",
       "\x7b\"type\": \"flow\", \"uid\": 1, \"$include\": \"parts/net.json\"\x7d"),
     (Path.parse "more/x/events/scan.json",
       "\x7b\"type\": \"scan\", \"uid\": 2, \"extends\": \"flow\"\x7d")]
  unreadable := [Path.parse "private"]

/-- Below a home that has the names of the schema's folders it is the same catalog, with the
class of the extension. -/
theorem load_ignores_home_named_events :
    movableTree.Relative ∧ movableTree.RefersLocally ∧
      ∃ catalog, (load (movableTree.schemaBelow (Path.parse "s") "more")).outcome = .ok catalog ∧
        (load (movableTree.schemaBelow (Path.parse "/events/objects/more") "more")).outcome =
          .ok catalog ∧
        catalog.classes.keys = (["flow", "scan"] : List Text) := by
  have relative : movableTree.Relative := ⟨by decide +kernel, by decide +kernel⟩
  have refers : movableTree.RefersLocally := by decide +kernel
  have alike := load_ignores_home movableTree "more" (Path.parse "s")
    (Path.parse "/events/objects/more") relative (by decide +kernel) refers
  have computed : (load (movableTree.schemaBelow (Path.parse "s") "more")).outcome.toOption.map
      (fun catalog => catalog.classes.keys) = some (["flow", "scan"] : List Text) := by
    decide +kernel
  rcases Option.map_eq_some_iff.mp computed with ⟨catalog, loaded, keys⟩
  have loads := Outcome.toOption_eq_some_iff.mp loaded
  refine ⟨relative, refers, catalog, loads, ?_, keys⟩
  rw [loads] at alike
  generalize (load (movableTree.schemaBelow (Path.parse "/events/objects/more") "more")).outcome =
    other at alike ⊢
  cases alike with
  | ok same => exact congrArg Except.ok same.symm

end Catalog
end EventSchema
