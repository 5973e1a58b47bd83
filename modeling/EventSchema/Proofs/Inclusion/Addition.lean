import EventSchema.Proofs.Declarations.Addition
import EventSchema.Proofs.Inclusion.Memory

namespace EventSchema
namespace Inclusion

/-!
# Inclusion beside further extension files

A fragment that is found in a schema is found in the larger one, too, and it is the same.
So whatever a descriptor of the schema expands to, it expands to that beside further
extension files as well.  The converse fails: a fragment may be one of the new files.
-/

/-- Steps that yield what others do go on doing so when they are put together. -/
theorem respects_keptBy : Respects (m := Report) (n := Report) fun _ first second =>
    Outcome.KeptBy first.outcome second.outcome where
  pure _ := Outcome.KeptBy.refl _
  liftM _ := Outcome.KeptBy.refl _
  bind starts goes := by
    rw [Report.outcome_bind, Report.outcome_bind]
    exact starts.bind goes

variable {memory : MemoryTree} {added : OrderedMap Path Text} {lower larger : SchemaTree}
  (enlarges : SchemaTree.Enlarges memory added lower larger)

include enlarges

theorem keptBy_readFragment (owner reference : Text) :
    Outcome.KeptBy (readFragment lower owner reference).outcome
      (readFragment larger owner reference).outcome := by
  intro fragment reads
  rcases Session.readFragment_eq_ok_iff.mp reads with ⟨there, read⟩
  have old := enlarges.not_mem_of_isFile there
  rw [← enlarges.outcome_isFile_eq old] at there
  rw [← enlarges.outcome_readObject_eq old] at read
  refine Session.readFragment_eq_ok_iff.mpr ?_
  unfold locate
  rw [enlarges.home]
  exact ⟨there, read⟩

/-- What includes fragments of a schema includes the same ones in the larger schema. -/
theorem keptBy_expand (owner : Text) (fields : Fields) :
    Outcome.KeptBy (expand (readFragment lower) owner fields).outcome
      (expand (readFragment larger) owner fields).outcome :=
  respects_keptBy.expand (keptBy_readFragment enlarges) owner fields

end Inclusion
end EventSchema
