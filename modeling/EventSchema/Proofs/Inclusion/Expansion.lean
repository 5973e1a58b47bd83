import EventSchema.Proofs.Inclusion.Memory

namespace EventSchema

/-!
# How expansion fails

Beside the faults of reading there is one way to fail: among the attributes of a
descriptor a fragment is included whose own attributes are no object
(`LayerFault`).
-/

/-! ## Reading fragments -/

namespace Session

variable {α β : Type} {tree : SchemaTree} {odd : Failure -> Prop}

/-- A session that only reads files, if what it remembers was read from them. -/
def Reading (tree : SchemaTree) (odd : Failure -> Prop) (session : Session α) : Prop :=
  forall known : Fragments, Faithful tree known -> SchemaTree.Reading tree odd (session known).1

namespace Reading

theorem ofReport {report : Report α} (reading : SchemaTree.Reading tree odd report) :
    Reading tree odd (Session.ofReport report) :=
  fun _ _ => reading

theorem pure (value : α) : Reading tree odd (Pure.pure value : Session α) :=
  fun _ _ => SchemaTree.Reading.pure value

/-- One session after another.  The second is only needed for values that the first
has without memory. -/
theorem bind {session : Session α} {report : Report α} {next : α -> Session β}
    (first : Reading tree odd session) (follows : Follows tree session report)
    (later : forall value : α, report.outcome = .ok value -> Reading tree odd (next value)) :
    Reading tree odd (session >>= next) := by
  intro known holds
  rw [fst_bind]
  apply (first known holds).bind
  intro value held
  exact later value ((follows.outcome known holds).symm.trans held) _ (follows.faithful known holds)

theorem mapM {step : α -> Session β} {plain : α -> Report β}
    (follows : forall entry : α, Follows tree (step entry) (plain entry))
    (steps : forall entry : α, Reading tree odd (step entry)) (entries : List α) :
    Reading tree odd (entries.mapM step) := by
  induction entries with
  | nil =>
      rw [List.mapM_nil]
      exact pure []
  | cons entry rest ih =>
      rw [List.mapM_cons]
      exact (steps entry).bind (follows entry) fun _ _ =>
        ih.bind (Follows.mapM follows rest) fun _ _ => pure _

/-- The same steps without memory fail in the same ways. -/
theorem fails {session : Session α} {report : Report α} (reading : Reading tree odd session)
    (follows : Follows tree session report) {failure : Failure}
    (failed : report.outcome = .error failure) :
    failure.isSchemaFault = true ∨ failure = .oversizeInteger ∨ odd failure :=
  ((reading [] faithful_nil).fails failure
    ((follows.outcome [] faithful_nil).trans failed)).imp_right (Or.imp_left And.left)

/-- A failure is as odd as it is without memory. -/
theorem imp {session : Session α} {report : Report α} {other : Failure -> Prop}
    (reading : Reading tree odd session) (follows : Follows tree session report)
    (explains : forall failure : Failure, report.outcome = .error failure -> odd failure ->
      other failure) : Reading tree other session := fun known holds =>
  { fails := fun failure failed => ((reading known holds).fails failure failed).imp_right
      (Or.imp_right (explains failure ((follows.outcome known holds).symm.trans failed)))
    stops := (reading known holds).stops }

end Reading

variable (steady : tree.source.Steady)

include steady

theorem reading_fetch (owner reference : Text) :
    Reading tree odd (fetch tree owner reference) := by
  intro known _
  have read : SchemaTree.Reading tree odd (Inclusion.readFragment tree owner reference) := by
    apply (SchemaTree.reading_isFile steady _).bind
    intro found _
    split
    · exact (SchemaTree.Reading.note _ _).bind fun _ _ => SchemaTree.reading_readObject steady _
    · exact SchemaTree.Reading.fail rfl
  dsimp only [fetch]
  split
  · exact SchemaTree.Reading.pure _
  · split
    · exact read
    · exact read

end Session

namespace Inclusion

variable {tree : SchemaTree} {odd : Failure -> Prop}

theorem isSchemaFault_of_references {owner : Text} {value : Json} {failure : Failure}
    (failed : references owner value = .error failure) : failure.isSchemaFault = true := by
  unfold references at failed
  split at failed
  · cases failed
  · split at failed
    · cases failed
    · cases failed
      rfl
  · cases failed
    rfl

section Reading

variable (steady : tree.source.Steady)

include steady

theorem reading_fragments (owner : Text) (value : Json) :
    Session.Reading tree odd (fragments (Session.fetch tree) owner value) := by
  refine Session.Reading.bind ?_ (Session.Follows.ofReport _) fun references _ =>
    Session.Reading.mapM (Session.follows_fetch tree owner) (Session.reading_fetch steady owner)
      references
  exact fun _ _ => SchemaTree.Reading.liftM fun _ failed => isSchemaFault_of_references failed

theorem reading_expandWhole (owner : Text) (fields : Fields) :
    Session.Reading tree odd (expandWhole (Session.fetch tree) owner fields) := by
  unfold expandWhole
  split
  · exact Session.Reading.pure fields
  · exact Session.Reading.pure fields
  · exact (reading_fragments steady owner _).bind (fetches_fragments owner _).follows fun _ _ =>
      Session.Reading.pure _

theorem reading_expandAttribute (owner : Text) (entry : Text × Json) :
    Session.Reading tree odd (expandAttribute (Session.fetch tree) owner entry) := by
  unfold expandAttribute
  split
  · exact (reading_expandWhole steady _ _).bind (fetches_expandWhole _ _).follows fun _ _ =>
      Session.Reading.pure _
  · exact Session.Reading.pure entry

theorem reading_expandEach (owner : Text) (fields : Fields) :
    Session.Reading tree odd (expandEach (Session.fetch tree) owner fields) := by
  unfold expandEach
  split
  · exact (Session.Reading.mapM (follows_expandAttribute owner)
      (reading_expandAttribute steady owner) _).bind
        (Session.Follows.mapM (follows_expandAttribute owner) _) fun _ _ => Session.Reading.pure _
  · exact Session.Reading.pure fields

/-- Layers that are no objects are the one failure that is not of reading. -/
theorem reading_expand (owner : Text) (fields : Fields) :
    Session.Reading tree (fun failure => failure = .unexpectedShape .layer)
      (Session.expand tree owner fields) := by
  refine (reading_expandWhole steady owner fields).bind (fetches_expandWhole owner fields).follows
    fun whole _ => ?_
  refine Session.Reading.bind ?_ (fetches_expandAttributes owner whole).follows fun attributes _ =>
    reading_expandEach steady owner attributes
  unfold expandAttributes
  split
  · split
    · exact Session.Reading.pure whole
    · apply (reading_fragments steady owner _).bind (fetches_fragments owner _).follows
      intro layers _
      split
      · refine fun _ _ => SchemaTree.Reading.of_reads_eq_nil rfl fun failure failed => ?_
        cases failed
        exact Or.inr rfl
      · exact Session.Reading.pure _
  · exact Session.Reading.pure whole

end Reading

/-! ## Layers that are no objects -/

/-- Among the attributes of a descriptor a fragment is included whose attributes are
no object; all fragments up to there can be read. -/
inductive LayerFault (tree : SchemaTree) (owner : Text) (fields : Fields) : Prop where
  | intro (whole attributes layer : Fields) (value : Json) (layers : List Fields)
      (expands : (expandWhole (readFragment tree) owner fields).outcome = .ok whole)
      (held : whole.get? "attributes" = some (.obj attributes))
      (included : attributes.get? directive = some value)
      (read : (fragments (readFragment tree) owner value).outcome = .ok layers)
      (member : layer ∈ layers) (shape : (attributesOf layer).isObject = false)

theorem mergeLayers?_eq_none_iff {layers : List Json} :
    Fields.mergeLayers? layers = none ↔ ∃ layer ∈ layers, layer.isObject = false := by
  unfold Fields.mergeLayers?
  rw [Option.map_eq_none_iff, Outcome.mapM_eq_none_iff]
  refine exists_congr fun layer => and_congr_right fun _ => ?_
  cases layer <;> simp [Json.fields?, Json.isObject]

/-- What only reads files does not fail for a layer. -/
theorem ne_layer_of_reading {α : Type} {session : Session α} {report : Report α}
    (reading : Session.Reading tree (fun _ => False) session)
    (follows : Session.Follows tree session report) :
    report.outcome ≠ .error (.unexpectedShape .layer) := by
  intro failed
  rcases reading.fails follows failed with schema | same | none
  · cases schema
  · cases same
  · exact none

/-- Expansion fails for a layer exactly where the descriptor has such a fault. -/
theorem expand_eq_layer_iff (steady : tree.source.Steady) {owner : Text} {fields : Fields} :
    (expand (readFragment tree) owner fields).outcome = .error (.unexpectedShape .layer) ↔
      LayerFault tree owner fields := by
  simp only [expand, Report.outcome_bind, Outcome.bind_eq_error_iff]
  constructor
  · rintro (early | ⟨whole, expands, middle | ⟨attributes, _, late⟩⟩)
    · exact absurd early (ne_layer_of_reading (reading_expandWhole steady owner fields)
        (fetches_expandWhole owner fields).follows)
    · unfold expandAttributes at middle
      split at middle
      · next attributes held =>
          split at middle
          · cases middle
          · next value included =>
              rw [Report.outcome_bind, Outcome.bind_eq_error_iff] at middle
              rcases middle with unread | ⟨layers, read, merged⟩
              · exact absurd unread (ne_layer_of_reading (reading_fragments steady owner value)
                  (fetches_fragments owner value).follows)
              · split at merged
                · next shapes =>
                    rcases mergeLayers?_eq_none_iff.mp shapes with ⟨shape, member, leaf⟩
                    rcases List.mem_map.1 member with ⟨layer, within, rfl⟩
                    exact .intro whole attributes layer value layers expands held included read
                      within leaf
                · cases merged
      · cases middle
    · exact absurd late (ne_layer_of_reading (reading_expandEach steady owner attributes)
        (fetches_expandEach owner attributes).follows)
  · rintro ⟨whole, attributes, layer, value, layers, expands, held, included, read, member, shape⟩
    have shapes : Fields.mergeLayers? (layers.map attributesOf) = none :=
      mergeLayers?_eq_none_iff.mpr ⟨_, List.mem_map_of_mem member, shape⟩
    refine Or.inr ⟨whole, expands, Or.inl ?_⟩
    simp only [expandAttributes, held, included, Report.outcome_bind, read, Report.ok_bind, shapes]
    rfl

end Inclusion
end EventSchema
