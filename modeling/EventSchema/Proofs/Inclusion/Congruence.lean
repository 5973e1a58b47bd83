import EventSchema.Inclusion

namespace EventSchema
namespace Inclusion

/-!
# Expansion as its steps are

Expansion is written over any way of fetching a fragment, and it only puts such steps
together.  A relation between steps of two kinds that respects putting together
(`Respects`) therefore holds of two expansions as soon as it holds of fetching.
-/

variable {m n : Type -> Type} [Monad m] [Monad n] [MonadLiftT (Except Failure) m]
  [MonadLiftT (Except Failure) n] {related : forall α : Type, m α -> n α -> Prop}

/-- A relation between steps of two kinds that holds of steps with the same outcome which
fetch nothing, and of related steps in a row. -/
structure Respects (related : forall α : Type, m α -> n α -> Prop) : Prop where
  pure : forall {α : Type} (value : α), related _ (Pure.pure value) (Pure.pure value)
  liftM : forall {α : Type} (outcome : Except Failure α),
    related _ (liftM outcome : m α) (liftM outcome : n α)
  bind : forall {α β : Type} {first : m α} {second : n α} {next : α -> m β} {later : α -> n β},
    related _ first second -> (forall value : α, related _ (next value) (later value)) ->
      related _ (first >>= next) (second >>= later)

namespace Respects

variable (respects : Respects related)

include respects

theorem mapM [LawfulMonad m] [LawfulMonad n] {α β : Type} {step : α -> m β} {other : α -> n β}
    (steps : forall entry : α, related _ (step entry) (other entry)) (entries : List α) :
    related _ (entries.mapM step) (entries.mapM other) := by
  induction entries with
  | nil =>
      rw [List.mapM_nil, List.mapM_nil]
      exact respects.pure []
  | cons entry rest ih =>
      rw [List.mapM_cons, List.mapM_cons]
      exact respects.bind (steps entry) fun _ => respects.bind ih fun _ => respects.pure _

variable [LawfulMonad m] [LawfulMonad n] {fetch : Text -> Text -> m Fields}
  {other : Text -> Text -> n Fields}
  (fetches : forall owner reference : Text, related _ (fetch owner reference) (other owner reference))

include fetches

theorem fragments (owner : Text) (value : Json) :
    related _ (Inclusion.fragments fetch owner value) (Inclusion.fragments other owner value) :=
  respects.bind (respects.liftM _) fun references => respects.mapM (fetches owner) references

theorem expandWhole (owner : Text) (fields : Fields) :
    related _ (Inclusion.expandWhole fetch owner fields)
      (Inclusion.expandWhole other owner fields) := by
  unfold Inclusion.expandWhole
  split
  · exact respects.pure fields
  · exact respects.pure fields
  · exact respects.bind (respects.fragments fetches owner _) fun _ => respects.pure _

theorem expandAttributes (owner : Text) (fields : Fields) :
    related _ (Inclusion.expandAttributes fetch owner fields)
      (Inclusion.expandAttributes other owner fields) := by
  unfold Inclusion.expandAttributes
  split
  · split
    · exact respects.pure fields
    · refine respects.bind (respects.fragments fetches owner _) fun layers => ?_
      split
      · exact respects.liftM _
      · exact respects.pure _
  · exact respects.pure fields

theorem expandAttribute (owner : Text) (entry : Text × Json) :
    related _ (Inclusion.expandAttribute fetch owner entry)
      (Inclusion.expandAttribute other owner entry) := by
  unfold Inclusion.expandAttribute
  split
  · exact respects.bind (respects.expandWhole fetches _ _) fun _ => respects.pure _
  · exact respects.pure entry

theorem expandEach (owner : Text) (fields : Fields) :
    related _ (Inclusion.expandEach fetch owner fields)
      (Inclusion.expandEach other owner fields) := by
  unfold Inclusion.expandEach
  split
  · exact respects.bind (respects.mapM (respects.expandAttribute fetches owner) _)
      fun _ => respects.pure _
  · exact respects.pure fields

/-- What holds of fetching holds of expansion. -/
theorem expand (owner : Text) (fields : Fields) :
    related _ (Inclusion.expand fetch owner fields) (Inclusion.expand other owner fields) :=
  respects.bind (respects.expandWhole fetches owner fields) fun whole =>
    respects.bind (respects.expandAttributes fetches owner whole) fun attributes =>
      respects.expandEach fetches owner attributes

end Respects

end Inclusion
end EventSchema
