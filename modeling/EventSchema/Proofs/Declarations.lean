import EventSchema.Proofs.Json.Coverage
import EventSchema.Proofs.Json.Reading
import EventSchema.Proofs.Record.Established
import EventSchema.Proofs.Source

namespace EventSchema
namespace SchemaTree

/-!
# What the files declare

Objects that are read from files are well formed, and merging keeps them so.
`Declared` says what holds of the raw descriptors at any time while files are
laid over one another: each type once, and under each type an object that says
that type.
-/

variable {tree : SchemaTree}

theorem wellFormed_of_readObject {path : Path} {fields : Fields}
    (reads : (tree.readObject path).outcome = .ok fields) : Json.WellFormed (.obj fields) := by
  rcases readObject_eq_ok_iff.mp reads with ⟨text, _, read⟩
  exact Json.wellFormed_of_read read

theorem wellFormed_of_readLayered {name : Text} {fields : Fields}
    (reads : (tree.readLayered name).outcome = .ok fields) : Json.WellFormed (.obj fields) := by
  unfold readLayered at reads
  simp only [Report.outcome_bind, Outcome.bind_eq_ok_iff, Report.outcome_foldlM] at reads
  rcases reads with ⟨base, read, overlays, _, folds⟩
  refine Outcome.foldlM_invariant (motive := fun fields => Json.WellFormed (.obj fields)) ?_
    (wellFormed_of_readObject read) folds
  intro path _ state next holds step
  simp only [announce, Report.outcome_note, Report.ok_bind, Outcome.bind_eq_ok_iff,
    Report.outcome_pure] at step
  rcases step with ⟨overlay, laid, same⟩
  cases same
  exact Fields.wellFormed_merge holds (wellFormed_of_readObject laid)

/-- Every category is read from a well-formed object. -/
theorem exists_source_of_categories {categories : Categories}
    (reads : tree.categories.outcome = .ok categories) :
    ∀ entry ∈ categories.entries, ∃ source, Json.WellFormed (.obj source) ∧
      Record.validate source = .valid entry.2 := by
  unfold SchemaTree.categories at reads
  simp only [Report.outcome_bind, Outcome.bind_eq_ok_iff] at reads
  rcases reads with ⟨fields, layered, decoded⟩
  exact Categories.exists_source (wellFormed_of_readLayered layered) (decode_eq_ok_iff.mp decoded)

/-- The numbers of the categories can be written. -/
theorem writable_of_categories {categories : Categories}
    (reads : tree.categories.outcome = .ok categories) :
    ∀ entry ∈ categories.entries, Numeral.writable entry.2.id = true := by
  intro entry member
  rcases exists_source_of_categories reads entry member with ⟨source, wellFormed, read⟩
  exact Category.writable_of_validate wellFormed read

/-- What the categories keep beside the declared fields has other names. -/
theorem undeclared_of_categories {categories : Categories}
    (reads : tree.categories.outcome = .ok categories) :
    ∀ entry ∈ categories.entries, ∀ key ∈ entry.2.extra.keys, key ∉ Category.declared := by
  intro entry member
  rcases exists_source_of_categories reads entry member with ⟨source, _, read⟩
  exact Category.undeclared_of_validate read

/-- Raw descriptors by type: each type is declared once, by a well-formed object
that says it. -/
structure Declared (declared : Declarations) : Prop where
  distinct : declared.Distinct
  wellFormed : ∀ entry ∈ declared, Json.WellFormed (.obj entry.2)
  typed : ∀ entry ∈ declared, entry.2.get? "type" = some (.str entry.1)

theorem get?_type_of_declaredType? {fields : Fields} {type : Text}
    (declares : declaredType? fields = some type) : fields.get? "type" = some (.str type) := by
  unfold declaredType? at declares
  split at declares
  · next name found =>
      split at declares
      · cases declares
      · cases declares
        exact found
  · cases declares

/-- One more file is laid over what is declared for its type. -/
theorem Declared.declare {declared : Declarations} (holds : Declared declared) {type : Text}
    {fields : Fields} (wellFormed : Json.WellFormed (.obj fields))
    (typed : fields.get? "type" = some (.str type)) :
    Declared (SchemaTree.declare declared type fields) := by
  have laid : forall layered : Fields, Json.WellFormed (.obj layered) ->
      layered.get? "type" = some (.str type) ->
        Declared (OrderedMap.insert declared type layered) := by
    intro layered layeredWellFormed layeredTyped
    refine ⟨holds.distinct.insert type layered, ?_, ?_⟩
    all_goals
      intro entry member
      rcases OrderedMap.mem_of_mem_insert member with rfl | old
    · exact layeredWellFormed
    · exact holds.wellFormed entry old
    · exact layeredTyped
    · exact holds.typed entry old
  unfold SchemaTree.declare
  split
  · exact laid fields wellFormed typed
  · next known found =>
      have member := OrderedMap.mem_of_get?_eq_some found
      apply laid _ (Fields.wellFormed_merge (holds.wellFormed _ member) wellFormed)
      exact Fields.get?_merge_of_not_isObject wellFormed.distinct known typed rfl

theorem Declared.of_readDescriptor {declared next : Declarations} {path : Path}
    (holds : Declared declared)
    (reads : (tree.readDescriptor declared path).outcome = .ok next) : Declared next := by
  unfold readDescriptor at reads
  rw [Report.outcome_bind] at reads
  rcases Outcome.bind_eq_ok_iff.mp reads with ⟨fields, read, step⟩
  split at step
  · cases step
  · next type found =>
      cases step
      exact holds.declare (wellFormed_of_readObject read) (get?_type_of_declaredType? found)

/-- What holds at first and is kept by every file holds of all that is declared. -/
theorem declarations_invariant {motive : Declarations -> Prop} (start : motive [])
    (step : forall (declared next : Declarations) (path : Path), motive declared ->
      (tree.readDescriptor declared path).outcome = .ok next -> motive next)
    {folder : Text} {declared : Declarations}
    (reads : (tree.declarations folder).outcome = .ok declared) : motive declared := by
  unfold declarations at reads
  simp only [Report.outcome_bind, Outcome.bind_eq_ok_iff, Report.outcome_foldlM] at reads
  rcases reads with ⟨base, _, lower, folds, overlays, _, upper, laid, _, _, same⟩
  cases same
  have ofBase : motive lower :=
    Outcome.foldlM_invariant (motive := motive)
      (fun path _ state next holds reads => step state next path holds reads) start folds
  refine Outcome.foldlM_invariant (motive := motive) ?_ ofBase laid
  intro path _ state next holds reads
  simp only [announce, Report.outcome_note, Report.ok_bind] at reads
  exact step state next path holds reads

/-- All files of one kind are laid over one another. -/
theorem declared_of_declarations {folder : Text} {declared : Declarations}
    (reads : (tree.declarations folder).outcome = .ok declared) : Declared declared := by
  have start : Declared [] := ⟨List.nodup_nil, by simp, by simp⟩
  exact declarations_invariant start (fun _ _ _ holds reads => holds.of_readDescriptor reads) reads

end SchemaTree
end EventSchema
