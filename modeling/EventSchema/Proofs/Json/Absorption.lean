import EventSchema.Proofs.Json.Precedence

namespace EventSchema

/-!
# Absorbed merges

A merge leaves the lower object as it is exactly if that shows already whatever the upper
object shows.  As a merge shows whatever its upper object shows, laying that object over it
once more alters nothing, and neither does laying an object over itself.
-/

namespace Json

/-- Whatever a value shows, another one shows there, too. -/
def Within (value other : Json) : Prop :=
  forall (path : List Text) (content : Option Json),
    value.shown? path = some content -> other.shown? path = some content

variable {base upper : Json}

theorem Within.refl (value : Json) : value.Within value :=
  fun _ _ shows => shows

/-- Only an object shows what an object shows. -/
theorem Within.exists_obj {fields : Fields} (within : Within (.obj fields) base) :
    ∃ held, base = .obj held := by
  have object := within [] none (shown?_nil (.obj fields))
  rw [shown?_nil, Option.some_inj, leaf?_eq_none_iff, isObject_iff] at object
  exact object

/-- What is shown below a key is shown by the value there. -/
theorem Within.of_get? {lower higher : Fields} (within : Within (.obj higher) (.obj lower))
    {key : Text} {above : Json} (found : higher.get? key = some above) :
    ∃ below, lower.get? key = some below ∧ above.Within below := by
  have shows : forall (path : List Text) (content : Option Json),
      above.shown? path = some content ->
        shown? (.obj lower) (key :: path) = some content := by
    intro path content shows
    exact within (key :: path) content ((shown?_of_get? found path).trans shows)
  have present := shows [] above.leaf? (shown?_nil above)
  rw [shown?_obj_cons] at present
  rcases Option.bind_eq_some_iff.mp present with ⟨below, held, _⟩
  refine ⟨below, held, fun path content shown => ?_⟩
  rw [← shown?_of_get? held path]
  exact shows path content shown

/-- A value that is no object is shown by itself alone. -/
theorem Within.eq_of_not_isObject (within : upper.Within base) (leaf : upper.isObject = false) :
    base = upper := by
  have own : upper.leaf? = some upper := leaf?_eq_some_iff.mpr ⟨leaf, rfl⟩
  have same := within [] upper.leaf? (shown?_nil upper)
  rw [shown?_nil, Option.some_inj, own] at same
  exact (leaf?_eq_some_iff.mp same).2

end Json

namespace Fields

open Json

/-- A merge alters nothing if no entry of the upper object alters what is held at its key. -/
theorem merge_eq_self_of_entries {base upper : Fields}
    (absorbs : ∀ entry ∈ upper, ∃ held, base.get? entry.1 = some held ∧
      held.overlay entry.2 = held) : merge base upper = base := by
  induction upper with
  | nil => rfl
  | cons entry rest ih =>
      rcases entry with ⟨key, value⟩
      rcases absorbs (key, value) List.mem_cons_self with ⟨held, found, same⟩
      have others := ih fun other member => absorbs other (List.mem_cons_of_mem _ member)
      dsimp only at found same
      rw [merge_cons, found]
      dsimp only
      rw [same, OrderedMap.insert_of_get?_eq_some found, others]

end Fields

namespace Json

/-- A value absorbs whatever shows nothing that it does not show itself. -/
theorem overlay_eq_self {base upper : Json} (keyed : upper.Keyed) (within : upper.Within base) :
    base.overlay upper = base := by
  induction upper using Json.induct generalizing base with
  | obj higher ih =>
      rcases within.exists_obj with ⟨lower, rfl⟩
      refine congrArg Json.obj (Fields.merge_eq_self_of_entries fun entry member => ?_)
      have found := keyed.distinct.get?_eq_some_iff.mpr member
      rcases within.of_get? found with ⟨below, held, inner⟩
      exact ⟨below, held, ih entry member (keyed.of_get? found) inner⟩
  | _ => rw [overlay_of_not_isObject base rfl, within.eq_of_not_isObject rfl]

end Json

namespace Fields

open Json

variable {base upper : Fields}

/-- A merge shows all that its upper object shows. -/
theorem within_merge (keyed : Keyed (.obj upper)) (base : Fields) :
    Within (.obj upper) (.obj (merge base upper)) :=
  fun _ _ shows => shown?_merge_of_shown? keyed shows

/-- A merge alters nothing exactly if the lower object shows all that the upper one shows. -/
theorem merge_eq_self_iff (keyed : Keyed (.obj upper)) :
    merge base upper = base ↔ Within (.obj upper) (.obj base) := by
  constructor
  · intro same
    have within := within_merge keyed base
    rwa [same] at within
  · exact fun within => Json.obj.inj (overlay_eq_self keyed within)

/-- Merging is idempotent: what was laid over an object is absorbed by the result, and every
object absorbs itself.  An object absorbs exactly those that show nothing new. -/
theorem merge_absorbs :
    (forall base upper : Fields, Keyed (.obj upper) ->
      merge (merge base upper) upper = merge base upper) ∧
    (forall fields : Fields, Keyed (.obj fields) -> merge fields fields = fields) ∧
    (forall base upper : Fields, Keyed (.obj upper) ->
      (merge base upper = base ↔ Within (.obj upper) (.obj base))) :=
  ⟨fun base _ keyed => (merge_eq_self_iff keyed).mpr (within_merge keyed base),
    fun _ keyed => (merge_eq_self_iff keyed).mpr (Within.refl _),
    fun _ _ keyed => merge_eq_self_iff keyed⟩

/-- An object with leaves over objects and objects over leaves is absorbed once it is laid
over another one, and alters that one before. -/
theorem merge_absorbs_clashing :
    Keyed (.obj upperShapes) ∧
    (merge lowerShapes upperShapes = mergedShapes ∧
      merge (merge lowerShapes upperShapes) upperShapes = merge lowerShapes upperShapes) ∧
    merge upperShapes upperShapes = upperShapes ∧
    ¬Within (.obj upperShapes) (.obj lowerShapes) := by
  have wellFormed : WellFormed (.obj upperShapes) := by
    simp [upperShapes, WellFormed, WellFormedFields, WellFormedItems, OrderedMap.Distinct]
  have keyed := wellFormed.keyed
  have alters : merge lowerShapes upperShapes ≠ lowerShapes := by decide
  exact ⟨keyed, ⟨by decide, merge_absorbs.1 lowerShapes upperShapes keyed⟩,
    merge_absorbs.2.1 upperShapes keyed,
    fun within => alters ((merge_absorbs.2.2 lowerShapes upperShapes keyed).mpr within)⟩

end Fields
end EventSchema
