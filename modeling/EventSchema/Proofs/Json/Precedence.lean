import EventSchema.Proofs.Json.Coverage
import Mathlib.Data.List.ReduceOption

namespace EventSchema

/-!
# Which layer wins

Layers are seen at a place one by one, from the lowest to the highest, and the highest
that shows anything is on top.  A merge shows what is on top of its layers as long as
these do not clash on the way to the place, one having an object where another has a
value that is none.
-/

namespace Json

/-- What one layer shows at a place. -/
abbrev View := Option (Option Json)

/-- What is seen of layers from above: the last that is shown. -/
def topmost (views : List View) : View :=
  views.reduceOption.getLast?

/-- One layer shows an object where another one shows a value that is none. -/
def Clash (views : List View) : Prop :=
  some none ∈ views ∧ ∃ leaf, some (some leaf) ∈ views

variable {lower upper views : List View} {view : View} {content : Option Json}

@[simp] theorem topmost_nil : topmost [] = none := rfl

@[simp] theorem topmost_singleton (view : View) : topmost [view] = view := by
  cases view <;> rfl

theorem topmost_append (lower upper : List View) :
    topmost (lower ++ upper) = (topmost upper).or (topmost lower) := by
  rw [topmost, List.reduceOption_append, List.getLast?_append]
  rfl

/-- What is seen is shown by a layer. -/
theorem mem_of_topmost (seen : topmost views = some content) : some content ∈ views :=
  List.reduceOption_mem_iff.mp (List.mem_of_getLast? seen)

/-- Less that is shown is less that clashes. -/
theorem Clash.mono (clash : Clash lower)
    (shows : forall content : Option Json, some content ∈ lower -> some content ∈ upper) :
    Clash upper := by
  rcases clash with ⟨object, leaf, other⟩
  exact ⟨shows none object, leaf, shows (some leaf) other⟩

@[simp] theorem shown?_nil (value : Json) : value.shown? [] = some value.leaf? := by
  rw [shown?, at?_nil, Option.map_some]

/-- An object that lies below a value that is none clashes with it. -/
theorem clash_of_at? {lower upper leaf : Json} {fields : Fields} {place : List Text}
    (object : lower.at? place = some (.obj fields)) (plain : leaf.isObject = false)
    (found : upper.at? place = some leaf) : Clash [lower.shown? place, upper.shown? place] := by
  have below : lower.shown? place = some none := by
    rw [shown?, object, Option.map_some, leaf?]
  rw [below, shown?_eq_some_some_iff.mpr ⟨plain, found⟩]
  exact ⟨by simp, leaf, by simp⟩

end Json

namespace Fields

open Json

variable {base upper : Fields} {layers : List Fields} {path : List Text}

/-- A merge of two objects that do not clash shows what is on top. -/
theorem shown?_merge (keyed : Keyed (.obj upper))
    (agree : forall place : List Text, place <+: path -> place ≠ [] ->
      ¬Clash [shown? (.obj base) place, shown? (.obj upper) place]) :
    shown? (.obj (merge base upper)) path =
      (shown? (.obj upper) path).or (shown? (.obj base) path) := by
  cases above : shown? (.obj upper) path with
  | some content => rw [shown?_merge_of_shown? keyed above, Option.some_or]
  | none =>
      rw [Option.none_or]
      rcases covers_or_leavesOpen_of_missing (Option.map_eq_none_iff.mp above) with covers | opens
      · -- A leaf of the upper object on the way clashes with whatever the lower one shows.
        rw [shown?, shown?, at?_merge_of_covers keyed covers]
        cases below : at? (.obj base) path with
        | none => rfl
        | some held =>
            rcases covers with ⟨place, leaf, within, proper, found, plain⟩
            rcases exists_obj_of_prefix below within proper with ⟨fields, object⟩
            have something : place ≠ [] := by
              rintro rfl
              rw [at?_nil] at found
              cases found
              cases plain
            exact absurd (clash_of_at? object plain found) (agree place within something)
      · rw [shown?, shown?, at?_merge_of_leavesOpen keyed opens]

/-- Fields that come from laying some over others.  A value that is no object is found
wherever the upper fields hold it.  One that the lower fields hold is found unless the
upper ones hold anything there, or such a value on the way there. -/
structure LaidOver (base upper result : Fields) : Prop where
  keeps : forall (path : List Text) (leaf : Json), leaf.isObject = false ->
    (Json.obj upper).at? path = some leaf -> (Json.obj result).at? path = some leaf
  fills : forall (path : List Text) (leaf : Json), leaf.isObject = false ->
    (Json.obj base).at? path = some leaf -> (Json.obj upper).at? path = none ->
    (forall (place : List Text) (held : Json), place <+: path -> place ≠ path ->
      (Json.obj upper).at? place = some held -> held.isObject = true) ->
    (Json.obj result).at? path = some leaf

theorem laidOver_merge (keyed : Keyed (.obj upper)) (base : Fields) :
    LaidOver base upper (merge base upper) where
  keeps path leaf plain held := by
    rw [at?_merge_of_at? keyed held, laid_of_not_isObject _ plain]
  fills path leaf plain held missing objects := by
    rw [at?_merge_of_leavesOpen keyed ⟨missing, objects⟩, held]

/-- Where two objects show what is on top of their layers, a merge does so for all layers. -/
theorem shown?_merge_eq_topmost (keyed : Keyed (.obj upper)) (given : path ≠ [])
    (lows highs : List Text -> List View)
    (below : forall place : List Text, place <+: path -> place ≠ [] ->
      shown? (.obj base) place = topmost (lows place))
    (above : forall place : List Text, place <+: path -> place ≠ [] ->
      shown? (.obj upper) place = topmost (highs place))
    (agree : forall place : List Text, place <+: path -> place ≠ [] ->
      ¬Clash (lows place ++ highs place)) :
    shown? (.obj (merge base upper)) path = topmost (lows path ++ highs path) := by
  have apart : forall place : List Text, place <+: path -> place ≠ [] ->
      ¬Clash [shown? (.obj base) place, shown? (.obj upper) place] := by
    intro place within something clash
    refine agree place within something (clash.mono fun content shown => ?_)
    rw [below place within something, above place within something] at shown
    rcases List.mem_cons.mp shown with lower | higher
    · exact List.mem_append_left _ (mem_of_topmost lower.symm)
    · exact List.mem_append_right _ (mem_of_topmost (List.mem_singleton.mp higher).symm)
  rw [shown?_merge keyed apart, below path List.prefix_rfl given, above path List.prefix_rfl given,
    topmost_append]

/-- Layers that do not clash, merged in order, show what is on top. -/
theorem shown?_mergeAll (keyed : ∀ layer ∈ layers, Keyed (.obj layer)) (given : path ≠ [])
    (agree : forall place : List Text, place <+: path -> place ≠ [] ->
      ¬Clash (layers.map fun layer => shown? (.obj layer) place)) :
    shown? (.obj (mergeAll layers)) path =
      topmost (layers.map fun layer => shown? (.obj layer) path) := by
  -- The last layer lies over the merge of all others, so the induction starts at the bottom.
  induction layers using List.reverseRecOn generalizing path with
  | nil =>
      cases path with
      | nil => exact absurd rfl given
      | cons key rest => rfl
  | append_singleton layers last ih =>
      rw [mergeAll_concat, List.map_append]
      refine shown?_merge_eq_topmost (keyed last (by simp)) given
        (fun place => layers.map fun layer => shown? (.obj layer) place)
        (fun place => [shown? (.obj last) place]) ?_ ?_ ?_
      · intro place within something
        refine ih (fun layer member => keyed layer (List.mem_append_left _ member)) something ?_
        intro inner further some clash
        refine agree inner (further.trans within) some (clash.mono fun content shown => ?_)
        rw [List.map_append]
        exact List.mem_append_left _ shown
      · exact fun place _ _ => (topmost_singleton _).symm
      · intro place within something
        have apart := agree place within something
        rwa [List.map_append] at apart

end Fields
end EventSchema
