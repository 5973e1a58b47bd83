import EventSchema.Proofs.Json.Places

namespace EventSchema

/-!
# Open and covered places

The upper of two objects holds something at a place, or it holds a value that is no object
on the way there and so covers the place, or it leaves the place open.  Their merge holds
there what the upper object lays over the lower one, or nothing, or what the lower object
holds.

Where both hold an object, its keys are those of the lower one with the new keys of the
upper one after them.  An object that only one of them holds is taken over as it is.

So a merge only selects: what it shows at a place is shown there by one of the two objects,
and by the upper one wherever that shows anything.
-/

namespace Json

variable {value inner : Json} {fields : Fields} {key : Text} {path rest : List Text}

theorem isObject_iff : value.isObject = true ↔ ∃ fields, value = .obj fields := by
  cases value <;> simp [isObject]

/-- A value leaves a place open: it holds nothing there, and nothing but objects on the way
there. -/
structure LeavesOpen (value : Json) (path : List Text) : Prop where
  missing : value.at? path = none
  objects : forall (place : List Text) (held : Json), place <+: path -> place ≠ path ->
    value.at? place = some held -> held.isObject = true

/-- A value covers a place: on the way there it holds a value that is no object. -/
def Covers (value : Json) (path : List Text) : Prop :=
  ∃ place held, place <+: path ∧ place ≠ path ∧ value.at? place = some held ∧
    held.isObject = false

/-- Nothing is held at a covered place. -/
theorem Covers.at?_eq_none (covers : value.Covers path) : value.at? path = none := by
  rcases covers with ⟨place, held, within, proper, found, leaf⟩
  cases leads : value.at? path with
  | none => rfl
  | some inner =>
      rcases exists_obj_of_prefix leads within proper with ⟨fields, object⟩
      cases found.symm.trans object
      cases leaf

theorem covers_or_leavesOpen_of_missing (missing : value.at? path = none) :
    value.Covers path ∨ value.LeavesOpen path := by
  by_cases covers : value.Covers path
  · exact Or.inl covers
  · refine Or.inr ⟨missing, fun place held within proper found => ?_⟩
    by_contra leaf
    exact covers ⟨place, held, within, proper, found, Bool.eq_false_iff.mpr leaf⟩

/-- No place below a value is open unless the value is an object. -/
theorem LeavesOpen.isObject (leavesOpen : value.LeavesOpen path) : value.isObject = true := by
  cases path with
  | nil =>
      have missing := leavesOpen.missing
      rw [at?_nil] at missing
      cases missing
  | cons key rest =>
      exact leavesOpen.objects [] value List.nil_prefix (List.cons_ne_nil key rest).symm
        (at?_nil value)

/-- A place that is left open below a key is so by the value there. -/
theorem LeavesOpen.of_get? (leavesOpen : LeavesOpen (.obj fields) (key :: rest))
    (found : fields.get? key = some inner) : inner.LeavesOpen rest := by
  have below : forall place : List Text,
      at? (.obj fields) (key :: place) = inner.at? place := by
    intro place
    rw [at?_obj_cons, found, Option.bind_some]
  refine ⟨(below rest).symm.trans leavesOpen.missing, fun place held within proper leads => ?_⟩
  refine leavesOpen.objects (key :: place) held (List.cons_prefix_cons.mpr ⟨rfl, within⟩) ?_
    ((below place).trans leads)
  exact fun same => proper (List.cons.inj same).2

/-- What a value holds that comes of laying one over another.  Values that are no objects,
and objects, are those of the upper one, and those of the lower one at open places.  An
object that both hold has the keys of the lower one and then the new ones, each in their
order, and an object of only one of them is taken over with all that it holds. -/
structure Combines (base upper result : Json) : Prop where
  leaves : forall (path : List Text) (leaf : Json), leaf.isObject = false ->
    (result.at? path = some leaf ↔
      upper.at? path = some leaf ∨ (base.at? path = some leaf ∧ upper.LeavesOpen path))
  objects : forall path : List Text,
    (∃ fields, result.at? path = some (.obj fields)) ↔
      (∃ fields, upper.at? path = some (.obj fields)) ∨
        ((∃ fields, base.at? path = some (.obj fields)) ∧ upper.LeavesOpen path)
  keys : forall (path : List Text) (lower higher : Fields),
    base.at? path = some (.obj lower) -> upper.at? path = some (.obj higher) ->
      ∃ fields, result.at? path = some (.obj fields) ∧
        OrderedMap.keys fields = lower.keys ++ higher.keys.filter fun key => key ∉ lower.keys
  ofUpper : forall (path : List Text) (higher : Fields), upper.at? path = some (.obj higher) ->
    (forall lower : Fields, base.at? path ≠ some (.obj lower)) ->
      result.at? path = some (.obj higher)
  ofBase : forall (path : List Text) (lower : Fields), base.at? path = some (.obj lower) ->
    upper.LeavesOpen path -> result.at? path = some (.obj lower)

end Json

namespace Fields

open Json

variable {base upper : Fields} {path : List Text}

/-- What is laid shows what it showed before. -/
theorem leaf?_laid (lower : Option Json) (value : Json) :
    (laid lower value).leaf? = value.leaf? := by
  rcases laid_eq_or lower value with same | ⟨fields, inner, _, rfl, merged⟩
  · rw [same]
  · rw [merged]
    rfl

/-- A merge holds what the upper object lays over the lower one. -/
theorem at?_merge_of_at? (keyed : Keyed (.obj upper)) {value : Json}
    (held : at? (.obj upper) path = some value) :
    at? (.obj (merge base upper)) path = some (laid (at? (.obj base) path) value) := by
  induction path generalizing base upper with
  | nil =>
      rw [at?_nil] at held
      cases held
      rw [at?_nil, at?_nil]
      rfl
  | cons key rest ih =>
      rw [at?_obj_cons, Option.bind_eq_some_iff] at held
      rcases held with ⟨inner, found, further⟩
      rw [at?_obj_cons, at?_obj_cons, get?_merge keyed.distinct, found, Option.map_some,
        Option.some_or, Option.bind_some]
      -- The merge goes on below the key where both hold an object.  Anywhere else the upper
      -- value stands alone.
      cases inner with
      | obj inner =>
          cases base.get? key with
          | none => exact further
          | some below =>
              cases below with
              | obj below => exact ih (keyed.of_get? found) further
              | _ =>
                  cases rest with
                  | nil => cases further; rfl
                  | cons next rest => exact further
      | _ =>
          cases rest with
          | nil =>
              cases further
              cases base.get? key <;> rfl
          | cons next rest => cases further

/-- A merge holds what the lower object holds where the upper one leaves the place open. -/
theorem at?_merge_of_leavesOpen (keyed : Keyed (.obj upper))
    (leavesOpen : LeavesOpen (.obj upper) path) :
    at? (.obj (merge base upper)) path = at? (.obj base) path := by
  induction path generalizing base upper with
  | nil => cases leavesOpen.missing
  | cons key rest ih =>
      rw [at?_obj_cons, at?_obj_cons, get?_merge keyed.distinct]
      cases found : upper.get? key with
      | none => rw [Option.map_none, Option.none_or]
      | some inner =>
          have below := leavesOpen.of_get? found
          rw [Option.map_some, Option.some_or, Option.bind_some]
          cases inner with
          | obj inner =>
              cases base.get? key with
              | none => exact below.missing
              | some held =>
                  cases held with
                  | obj held => exact ih (keyed.of_get? found) below
                  | _ =>
                      cases rest with
                      | nil => cases below.missing
                      | cons next rest => exact below.missing
          | _ => cases below.isObject

/-- A merge holds nothing where the upper object covers the place. -/
theorem at?_merge_of_covers (keyed : Keyed (.obj upper)) (covers : Covers (.obj upper) path) :
    at? (.obj (merge base upper)) path = none := by
  rcases covers with ⟨place, held, within, proper, found, leaf⟩
  refine Covers.at?_eq_none ⟨place, held, within, proper, ?_, leaf⟩
  rw [at?_merge_of_at? keyed found, laid_of_not_isObject _ leaf]

/-- What a merge holds at a place comes of what the upper object holds there, or is held by
the lower one at an open place. -/
theorem at?_merge_eq_some_iff (keyed : Keyed (.obj upper)) {value : Json} :
    at? (.obj (merge base upper)) path = some value ↔
      (∃ own, at? (.obj upper) path = some own ∧ laid (at? (.obj base) path) own = value) ∨
        (at? (.obj base) path = some value ∧ LeavesOpen (.obj upper) path) := by
  cases held : at? (.obj upper) path with
  | some own =>
      have closed : ¬LeavesOpen (.obj upper) path := fun leavesOpen => by
        cases held.symm.trans leavesOpen.missing
      rw [at?_merge_of_at? keyed held]
      simp [closed]
  | none =>
      rcases covers_or_leavesOpen_of_missing held with covers | leavesOpen
      · have closed : ¬LeavesOpen (.obj upper) path := by
          rintro ⟨_, objects⟩
          rcases covers with ⟨place, other, within, proper, found, leaf⟩
          rw [objects place other within proper found] at leaf
          cases leaf
        rw [at?_merge_of_covers keyed covers]
        simp [closed]
      · rw [at?_merge_of_leavesOpen keyed leavesOpen]
        simp [leavesOpen]

/-- A merge has distinct keys wherever both objects have. -/
theorem keyed_merge (lower : Keyed (.obj base)) (higher : Keyed (.obj upper)) :
    Keyed (.obj (merge base upper)) := by
  intro path fields leads
  rcases (at?_merge_eq_some_iff higher).1 leads with ⟨own, held, same⟩ | ⟨held, _⟩
  · rcases laid_eq_or (at? (.obj base) path) own with replaced | ⟨below, inner, found, rfl, merged⟩
    · exact higher path fields (held.trans (congrArg some (replaced.symm.trans same)))
    · cases merged.symm.trans same
      exact distinct_merge (lower path below found) inner
  · exact lower path fields held

theorem keyed_mergeAll {layers : List Fields} (keyed : ∀ layer ∈ layers, Keyed (.obj layer)) :
    Keyed (.obj (mergeAll layers)) := by
  induction layers using List.reverseRecOn with
  | nil => exact wellFormed_nil.keyed
  | append_singleton layers last ih =>
      rw [mergeAll_concat]
      exact keyed_merge (ih fun layer member => keyed layer (List.mem_append_left _ member))
        (keyed last (by simp))

/-- A merge shows what the upper object shows. -/
theorem shown?_merge_of_shown? (keyed : Keyed (.obj upper)) {content : Option Json}
    (shows : shown? (.obj upper) path = some content) :
    shown? (.obj (merge base upper)) path = some content := by
  rcases Option.map_eq_some_iff.mp shows with ⟨value, held, rfl⟩
  rw [shown?, at?_merge_of_at? keyed held, Option.map_some, leaf?_laid]

/-- What a merge shows, one of the two objects does. -/
theorem shown?_of_shown?_merge (keyed : Keyed (.obj upper)) {content : Option Json}
    (shows : shown? (.obj (merge base upper)) path = some content) :
    shown? (.obj base) path = some content ∨ shown? (.obj upper) path = some content := by
  rcases Option.map_eq_some_iff.mp shows with ⟨value, leads, rfl⟩
  rcases (at?_merge_eq_some_iff keyed).1 leads with ⟨own, held, rfl⟩ | ⟨held, _⟩
  · right
    rw [shown?, held, Option.map_some, leaf?_laid]
  · left
    rw [shown?, held, Option.map_some]

theorem wellFormed_merge (lower : WellFormed (.obj base)) (higher : WellFormed (.obj upper)) :
    WellFormed (.obj (merge base upper)) := by
  refine wellFormed_iff.mpr ⟨keyed_merge lower.keyed higher.keyed, fun path leaf shows => ?_⟩
  rcases shown?_of_shown?_merge higher.keyed shows with below | above
  · exact (wellFormed_iff.mp lower).2 path leaf below
  · exact (wellFormed_iff.mp higher).2 path leaf above

/-- What layers show together below a key, one of them does. -/
theorem exists_shown?_of_mergeAll {layers : List Fields}
    (keyed : ∀ layer ∈ layers, Keyed (.obj layer)) {key : Text} {rest : List Text}
    {content : Option Json}
    (shows : shown? (.obj (mergeAll layers)) (key :: rest) = some content) :
    ∃ layer ∈ layers, shown? (.obj layer) (key :: rest) = some content := by
  induction layers using List.reverseRecOn with
  | nil => cases shows
  | append_singleton layers last ih =>
      rw [mergeAll_concat] at shows
      rcases shown?_of_shown?_merge (keyed last (by simp)) shows with lower | upper
      · rcases ih (fun layer member => keyed layer (List.mem_append_left _ member)) lower with
          ⟨layer, member, found⟩
        exact ⟨layer, List.mem_append_left _ member, found⟩
      · exact ⟨last, by simp, upper⟩

/-- Merging two objects combines all that they hold. -/
theorem merge_combines (base : Fields) (keyed : Keyed (.obj upper)) :
    Combines (.obj base) (.obj upper) (.obj (merge base upper)) where
  leaves path leaf plain := by
    rw [at?_merge_eq_some_iff keyed]
    refine or_congr_left ⟨?_, fun held => ⟨leaf, held, laid_of_not_isObject _ plain⟩⟩
    rintro ⟨own, held, rfl⟩
    rw [isObject_laid] at plain
    rw [held, laid_of_not_isObject _ plain]
  objects path := by
    have stays : forall own : Json,
        (∃ fields, laid (at? (.obj base) path) own = .obj fields) ↔ ∃ fields, own = .obj fields :=
      fun own => by rw [← isObject_iff, isObject_laid, isObject_iff]
    simp only [at?_merge_eq_some_iff keyed, exists_or, exists_and_right]
    refine or_congr_left ⟨?_, ?_⟩
    · rintro ⟨fields, own, held, object⟩
      rcases (stays own).1 ⟨fields, object⟩ with ⟨inner, rfl⟩
      exact ⟨inner, held⟩
    · rintro ⟨inner, held⟩
      rcases (stays (.obj inner)).2 ⟨inner, rfl⟩ with ⟨fields, object⟩
      exact ⟨fields, _, held, object⟩
  keys path lower higher below above := by
    have distinct : higher.Distinct := keyed path higher above
    refine ⟨merge lower higher, ?_, keys_merge distinct lower⟩
    rw [at?_merge_of_at? keyed above, below]
    rfl
  ofUpper path higher above alone := by
    rw [at?_merge_of_at? keyed above]
    rcases laid_eq_or (at? (.obj base) path) (.obj higher) with same | ⟨lower, _, below, _⟩
    · rw [same]
    · exact absurd below (alone lower)
  ofBase path lower below leavesOpen := by
    rw [at?_merge_of_leavesOpen keyed leavesOpen, below]

/-- An object with an object, a leaf and a null at its keys. -/
def lowerShapes : Fields :=
  [("open", .obj [("x", .str "below")]), ("both", .obj [("x", .null), ("y", .obj [])]),
   ("leaf", .str "below"), ("object", .obj [("x", .str "below")])]

/-- An object that has a leaf where the other one has an object, and the other way round. -/
def upperShapes : Fields :=
  [("object", .null), ("new", .arr [.obj []]),
   ("both", .obj [("z", .str "above"), ("y", .str "above"), ("x", .obj [])]),
   ("leaf", .obj [("x", .str "above")])]

/-- The first one with the second one laid over it. -/
def mergedShapes : Fields :=
  [("open", .obj [("x", .str "below")]),
   ("both", .obj [("x", .obj []), ("y", .str "above"), ("z", .str "above")]),
   ("leaf", .obj [("x", .str "above")]), ("object", .null), ("new", .arr [.obj []])]

/-- Where two objects clash, they are combined as everywhere else. -/
theorem merge_combines_clashing :
    Keyed (.obj upperShapes) ∧ merge lowerShapes upperShapes = mergedShapes ∧
      Combines (.obj lowerShapes) (.obj upperShapes) (.obj (merge lowerShapes upperShapes)) := by
  have wellFormed : WellFormed (.obj upperShapes) := by
    simp [upperShapes, WellFormed, WellFormedFields, WellFormedItems, OrderedMap.Distinct]
  exact ⟨wellFormed.keyed, by decide, merge_combines lowerShapes wellFormed.keyed⟩

end Fields
end EventSchema
