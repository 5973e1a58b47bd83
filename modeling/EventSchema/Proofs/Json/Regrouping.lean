import EventSchema.Proofs.Json.Precedence

namespace EventSchema

/-!
# Regrouped merges

Merging cannot be regrouped in general.  A value that is no object and lies between two
objects parts them: laid over the lower one first, it leaves nothing of it, but it is gone
itself once the upper one is laid over it.

Wherever no value parts two objects, three objects may be merged from either end.  Layers
that never clash may be cut anywhere, as no value parts what is merged of them.
-/

namespace Json

variable {value inner : Json} {path : List Text}

/-! ## The places of a value -/

mutual

/-- The paths of keys that lead anywhere in a value. -/
def places : Json -> List (List Text)
  | .obj fields => [] :: placesBelow fields
  | _ => [[]]

/-- The paths of keys that lead anywhere in fields. -/
def placesBelow : List (Text × Json) -> List (List Text)
  | [] => []
  | (key, value) :: rest => value.places.map (key :: ·) ++ placesBelow rest

end

theorem mem_placesBelow_of_mem {fields : Fields} {key : Text} (member : (key, value) ∈ fields)
    (below : path ∈ value.places) : key :: path ∈ placesBelow fields := by
  induction fields with
  | nil => cases member
  | cons entry rest ih =>
      rw [placesBelow, List.mem_append]
      rcases List.mem_cons.mp member with rfl | later
      · exact Or.inl (List.mem_map_of_mem below)
      · exact Or.inr (ih later)

theorem mem_places_of_at? (leads : value.at? path = some inner) : path ∈ value.places := by
  induction path generalizing value with
  | nil => cases value <;> exact List.mem_cons_self
  | cons key rest ih =>
      cases value with
      | obj fields =>
          rw [at?_obj_cons] at leads
          rcases Option.bind_eq_some_iff.mp leads with ⟨below, found, further⟩
          exact List.mem_cons_of_mem _
            (mem_placesBelow_of_mem (OrderedMap.mem_of_get?_eq_some found) (ih further))
      | _ => cases leads

theorem mem_places_of_shown? {content : Option Json} (shows : value.shown? path = some content) :
    path ∈ value.places := by
  rcases Option.map_eq_some_iff.mp shows with ⟨_, leads, _⟩
  exact mem_places_of_at? leads

/-! ## Values between objects -/

/-- At some place, a value that is no object lies between two objects. -/
def Parts (middle lower upper : Json) : Prop :=
  ∃ path, lower.shown? path = some none ∧ (∃ leaf, middle.shown? path = some (some leaf)) ∧
    upper.shown? path = some none

/-- A value that parts two others below a key does so where they are. -/
theorem Parts.of_get? {lower middle upper : Fields} {key : Text} {below between above : Json}
    (parts : Parts between below above) (lowerFound : lower.get? key = some below)
    (middleFound : middle.get? key = some between) (upperFound : upper.get? key = some above) :
    Parts (.obj middle) (.obj lower) (.obj upper) := by
  rcases parts with ⟨path, object, ⟨leaf, plain⟩, other⟩
  refine ⟨key :: path, ?_, ⟨leaf, ?_⟩, ?_⟩
  · rw [shown?_of_get? lowerFound, object]
  · rw [shown?_of_get? middleFound, plain]
  · rw [shown?_of_get? upperFound, other]

/-- Only the places of the value between have to be looked at. -/
theorem parts_iff {lower middle upper : Json} : Parts middle lower upper ↔
    ∃ path ∈ middle.places, lower.shown? path = some none ∧
      (∃ content ∈ middle.shown? path, content.isSome) ∧ upper.shown? path = some none := by
  constructor
  · rintro ⟨path, object, ⟨leaf, plain⟩, other⟩
    exact ⟨path, mem_places_of_shown? plain, object, ⟨some leaf, plain, rfl⟩, other⟩
  · rintro ⟨path, _, object, ⟨content, plain, given⟩, other⟩
    rcases Option.isSome_iff_exists.mp given with ⟨leaf, rfl⟩
    exact ⟨path, object, ⟨leaf, plain⟩, other⟩

instance (lower middle upper : Json) : Decidable (Parts middle lower upper) :=
  decidable_of_iff _ parts_iff.symm

theorem clash_iff {views : List View} : Clash views ↔
    some none ∈ views ∧ ∃ view ∈ views, ∃ content ∈ view, content.isSome := by
  refine and_congr_right fun _ => ⟨?_, ?_⟩
  · rintro ⟨leaf, member⟩
    exact ⟨_, member, _, rfl, rfl⟩
  · rintro ⟨_, member, _, rfl, given⟩
    rcases Option.isSome_iff_exists.mp given with ⟨leaf, rfl⟩
    exact ⟨leaf, member⟩

instance (views : List View) : Decidable (Clash views) :=
  decidable_of_iff _ clash_iff.symm

end Json

namespace Fields

open Json

/-! ## Three objects -/

/-- Three objects may be merged from either end where that holds of their values at every
key. -/
theorem merge_assoc_of_values (lower middle upper : KeyedMap Text Json)
    (values : forall (key : Text) (below between above : Json),
      lower.entries.get? key = some below -> middle.entries.get? key = some between ->
      upper.entries.get? key = some above ->
        (below.overlay between).overlay above = below.overlay (between.overlay above)) :
    merge (merge lower middle) upper = merge lower (merge middle upper) := by
  rcases lower with ⟨lower, distinct⟩
  rcases middle with ⟨middle, middleDistinct⟩
  rcases upper with ⟨upper, upperDistinct⟩
  have bothDistinct := distinct_merge middleDistinct upper
  refine (distinct_merge (distinct_merge distinct middle) upper).eq_of_get? ?_ fun key _ => ?_
  · rw [keys_merge upperDistinct, keys_merge middleDistinct, keys_merge bothDistinct,
      keys_merge upperDistinct, List.filter_append, List.append_assoc, List.filter_filter]
    congr 2
    refine List.filter_congr fun key _ => ?_
    rw [← keys_merge middleDistinct]
    simp [mem_keys_merge, Bool.and_comm]
  · rw [get?_merge upperDistinct, get?_merge middleDistinct, get?_merge bothDistinct,
      get?_merge upperDistinct]
    cases aboveFound : upper.get? key with
    | none => rfl
    | some above =>
        cases betweenFound : middle.get? key with
        | none => rfl
        | some between =>
            cases belowFound : lower.get? key with
            | none => rfl
            | some below =>
                exact congrArg some
                  (values key below between above belowFound betweenFound aboveFound)

end Fields

namespace Json

/-- Three values may be laid over one another from either end where none parts the two
others. -/
theorem overlay_assoc {lower middle upper : Json} (lowerKeyed : lower.Keyed)
    (middleKeyed : middle.Keyed) (upperKeyed : upper.Keyed) (whole : ¬Parts middle lower upper) :
    (lower.overlay middle).overlay upper = lower.overlay (middle.overlay upper) := by
  induction upper using Json.induct generalizing lower middle with
  | obj upper ih =>
      cases middle with
      | obj middle =>
          cases lower with
          | obj lower =>
              refine congrArg Json.obj (Fields.merge_assoc_of_values ⟨lower, lowerKeyed.distinct⟩
                ⟨middle, middleKeyed.distinct⟩ ⟨upper, upperKeyed.distinct⟩ ?_)
              intro key below between above belowFound betweenFound aboveFound
              exact ih (key, above) (OrderedMap.mem_of_get?_eq_some aboveFound)
                (lowerKeyed.of_get? belowFound) (middleKeyed.of_get? betweenFound)
                (upperKeyed.of_get? aboveFound)
                fun parts => whole (parts.of_get? belowFound betweenFound aboveFound)
          | _ => rfl
      | _ =>
          cases lower with
          | obj lower => exact absurd ⟨[], rfl, ⟨_, rfl⟩, rfl⟩ whole
          | _ => rfl
  | _ => rfl

end Json

namespace Fields

open Json

variable {lower middle upper : Fields} {layers : List Fields}

/-- Three objects may be merged from either end where none parts the two others. -/
theorem merge_assoc (lowerKeyed : Keyed (.obj lower)) (middleKeyed : Keyed (.obj middle))
    (upperKeyed : Keyed (.obj upper)) (whole : ¬Parts (.obj middle) (.obj lower) (.obj upper)) :
    merge (merge lower middle) upper = merge lower (merge middle upper) :=
  Json.obj.inj (overlay_assoc lowerKeyed middleKeyed upperKeyed whole)

/-! ## Rows of layers -/

/-- No two layers clash at any place. -/
def Agree (layers : List Fields) : Prop :=
  forall path : List Text, ¬Clash (layers.map fun layer => shown? (.obj layer) path)

/-- Only the places of the layers have to be looked at. -/
theorem agree_iff : Agree layers ↔ ∀ layer ∈ layers, ∀ path ∈ places (.obj layer),
    ¬Clash (layers.map fun layer => shown? (.obj layer) path) := by
  refine ⟨fun agree _ _ path _ => agree path, fun agree path clash => ?_⟩
  rcases List.mem_map.mp clash.1 with ⟨layer, member, object⟩
  exact agree layer member path (mem_places_of_shown? object) clash

instance (layers : List Fields) : Decidable (Agree layers) :=
  decidable_of_iff _ agree_iff.symm

theorem Agree.of_append {others : List Fields} (agree : Agree (layers ++ others)) :
    Agree layers := by
  intro path clash
  refine agree path (clash.mono fun content shown => ?_)
  rw [List.map_append]
  exact List.mem_append_left _ shown

/-- What is merged of layers that agree parts nothing. -/
theorem not_parts_of_agree {lows highs : List Fields} (upper : Json)
    (keyed : ∀ layer ∈ lows ++ highs, Keyed (.obj layer)) (agree : Agree (lows ++ highs)) :
    ¬Parts (.obj (mergeAll highs)) (.obj (mergeAll lows)) upper := by
  rintro ⟨path, object, ⟨leaf, plain⟩, _⟩
  cases path with
  | nil => cases plain
  | cons key rest =>
      have lowKeyed : ∀ layer ∈ lows, Keyed (.obj layer) :=
        fun layer member => keyed layer (List.mem_append_left _ member)
      have highKeyed : ∀ layer ∈ highs, Keyed (.obj layer) :=
        fun layer member => keyed layer (List.mem_append_right _ member)
      rcases exists_shown?_of_mergeAll lowKeyed object with ⟨low, lowMember, lowShows⟩
      rcases exists_shown?_of_mergeAll highKeyed plain with ⟨high, highMember, highShows⟩
      refine agree (key :: rest) ⟨?_, leaf, ?_⟩
      · exact List.mem_map.mpr ⟨low, List.mem_append_left _ lowMember, lowShows⟩
      · exact List.mem_map.mpr ⟨high, List.mem_append_right _ highMember, highShows⟩

/-- A row of layers that agree may be cut anywhere. -/
theorem mergeAll_append {lows highs : List Fields}
    (keyed : ∀ layer ∈ lows ++ highs, Keyed (.obj layer)) (agree : Agree (lows ++ highs)) :
    mergeAll (lows ++ highs) = merge (mergeAll lows) (mergeAll highs) := by
  induction highs using List.reverseRecOn with
  | nil => rw [List.append_nil, mergeAll_nil, merge_nil]
  | append_singleton highs last ih =>
      rw [← List.append_assoc] at keyed agree ⊢
      have shorter : ∀ layer ∈ lows ++ highs, Keyed (.obj layer) :=
        fun layer member => keyed layer (List.mem_append_left _ member)
      rw [mergeAll_concat, mergeAll_concat, ih shorter agree.of_append]
      refine merge_assoc ?_ ?_ ?_ (not_parts_of_agree _ shorter agree.of_append)
      · exact keyed_mergeAll fun layer member => shorter layer (List.mem_append_left _ member)
      · exact keyed_mergeAll fun layer member => shorter layer (List.mem_append_right _ member)
      · exact keyed last (by simp)

/-- Merging may be regrouped: for three objects unless the one between parts the others, and
for layers that agree wherever they are cut. -/
theorem merge_regroups :
    (forall lower middle upper : Fields, Keyed (.obj lower) -> Keyed (.obj middle) ->
      Keyed (.obj upper) -> ¬Parts (.obj middle) (.obj lower) (.obj upper) ->
        merge (merge lower middle) upper = merge lower (merge middle upper)) ∧
    (forall lows highs : List Fields, (∀ layer ∈ lows ++ highs, Keyed (.obj layer)) ->
      Agree (lows ++ highs) ->
        mergeAll (lows ++ highs) = merge (mergeAll lows) (mergeAll highs)) :=
  ⟨fun _ _ _ => merge_assoc, fun _ _ => mergeAll_append⟩

/-- Objects and leaves that clash with those of other layers. -/
def firstLayer : Fields :=
  [("inner", .obj [("x", .str "first"), ("y", .obj [])]), ("leaf", .str "first"),
   ("object", .obj [("x", .null)])]

/-- Another layer, with an object over a leaf and a leaf over an object. -/
def secondLayer : Fields :=
  [("new", .arr []), ("object", .str "second"), ("leaf", .obj [("x", .str "second")]),
   ("inner", .obj [("z", .null), ("x", .str "second")])]

/-- A layer with no object where the second one has a leaf. -/
def thirdLayer : Fields :=
  [("leaf", .obj [("y", .str "third")]), ("object", .bool true), ("last", .null),
   ("inner", .obj [("y", .obj [("deep", .null)])])]

/-- What they all hold below one key does not clash. -/
def innerLayers : List Fields :=
  [firstLayer, secondLayer, thirdLayer].map fun layer => layer.filter fun entry =>
    entry.1 = "inner"

/-- Layers that clash but part nothing are merged from either end, and layers that agree are
cut after the first one. -/
theorem merge_regroups_three_layers :
    ((Keyed (.obj firstLayer) ∧ Keyed (.obj secondLayer) ∧ Keyed (.obj thirdLayer) ∧
        ¬Parts (.obj secondLayer) (.obj firstLayer) (.obj thirdLayer)) ∧
      merge (merge firstLayer secondLayer) thirdLayer =
        merge firstLayer (merge secondLayer thirdLayer)) ∧
    (((∀ layer ∈ innerLayers, Keyed (.obj layer)) ∧ Agree innerLayers) ∧
      mergeAll innerLayers = merge (mergeAll (innerLayers.take 1))
        (mergeAll (innerLayers.drop 1))) := by
  have wellFormed : ∀ layer ∈ [firstLayer, secondLayer, thirdLayer] ++ innerLayers,
      WellFormed (.obj layer) := by
    simp [innerLayers, firstLayer, secondLayer, thirdLayer, WellFormed, WellFormedFields,
      WellFormedItems, OrderedMap.Distinct]
  have first := (wellFormed firstLayer (by simp)).keyed
  have second := (wellFormed secondLayer (by simp)).keyed
  have third := (wellFormed thirdLayer (by simp)).keyed
  have innerKeyed : ∀ layer ∈ innerLayers, Keyed (.obj layer) :=
    fun layer member => (wellFormed layer (List.mem_append_right _ member)).keyed
  have whole : ¬Parts (.obj secondLayer) (.obj firstLayer) (.obj thirdLayer) := by decide
  have agree : Agree innerLayers := by decide
  exact ⟨⟨⟨first, second, third, whole⟩,
      merge_regroups.1 firstLayer secondLayer thirdLayer first second third whole⟩,
    ⟨innerKeyed, agree⟩,
    merge_regroups.2 (innerLayers.take 1) (innerLayers.drop 1) innerKeyed agree⟩

/-- A value that parts two objects makes a difference. -/
example : merge (merge [("k", .obj [("x", .null)])] [("k", .null)]) [("k", .obj [])] ≠
    merge [("k", .obj [("x", .null)])] (merge [("k", .null)] [("k", .obj [])]) := by
  decide

end Fields
end EventSchema
