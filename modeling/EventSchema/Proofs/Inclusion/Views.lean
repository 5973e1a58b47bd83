import EventSchema.Proofs.Inclusion.Layers
import EventSchema.Proofs.Json.Precedence

namespace EventSchema
namespace Inclusion

/-!
# The views of a place in a descriptor

A place of a descriptor is seen through its layers.  From the lowest to the highest these
are the fragments of the attribute in which the place lies, those that are included among
the attributes, those of the root, and the descriptor itself; within one directive later
fragments lie over earlier ones.  Below a directive that was served the layers that had it
are no longer seen.

Each of the three steps of expansion lays an object over fragments, so what a step does to
the views of a place is stated once (`under`).  `Layers.Included.views_cases` says which
object is shown at a place and by which step its views came about.
-/

open Json

variable {fragments? : Option (List Fields)} {place : List Text} {content : Option Json}

/-! ## Fragments under an object -/

/-- A place below the directive that named the fragments. -/
def Served (fragments? : Option (List Fields)) (place : List Text) : Prop :=
  fragments?.isSome = true ∧ place.head? = some directive

instance : Decidable (Served fragments? place) :=
  inferInstanceAs (Decidable (_ ∧ _))

/-- The views of a place once fragments lie under what was seen there. -/
def under (fragments? : Option (List Fields)) (shows : Fields -> View) (place : List Text)
    (upper : List View) : List View :=
  (fragments?.getD []).map shows ++ if Served fragments? place then [] else upper

theorem under_none (shows : Fields -> View) (place : List Text) (upper : List View) :
    under none shows place upper = upper := by
  rw [under, if_neg (by simp [Served])]
  rfl

theorem mem_under_of_mem {shows : Fields -> View} {upper : List View} {view : View}
    (unserved : ¬Served fragments? place) (member : view ∈ upper) :
    view ∈ under fragments? shows place upper := by
  rw [under, if_neg unserved]
  exact List.mem_append_right _ member

theorem served_map_iff {f : List Fields -> List Fields} :
    Served (fragments?.map f) place ↔ Served fragments? place := by
  rw [Served, Served, Option.isSome_map]

theorem not_served_nil : ¬Served fragments? [] := by
  simp [Served]

/-- What is on top stays there while its layer is seen. -/
theorem topmost_under {shows : Fields -> View} {upper : List View}
    (unserved : ¬Served fragments? place) (top : topmost upper = some content) :
    topmost (under fragments? shows place upper) = some content := by
  rw [under, if_neg unserved, topmost_append, top, Option.some_or]

theorem head?_eq_of_leads {start : List Text} (leads : start <+: place) (given : start ≠ []) :
    start.head? = place.head? := by
  rcases leads with ⟨rest, rfl⟩
  cases start with
  | nil => exact absurd rfl given
  | cons key inner => rfl

/-- What leads to a place lies below no directive if the place does not. -/
theorem not_served_of_leads {start : List Text} (unserved : ¬Served fragments? place)
    (leads : start <+: place) : ¬Served fragments? start := by
  rintro ⟨laid, head⟩
  have given : start ≠ [] := by
    rintro rfl
    cases head
  exact unserved ⟨laid, (head?_eq_of_leads leads given).symm.trans head⟩

/-! ## The views of a place -/

/-- A place within an attribute of a descriptor. -/
def inAttribute (name : Text) (place : List Text) : List Text :=
  "attributes" :: name :: place

namespace Layers

section Views

variable (layers : Layers)

/-- The descriptor over the fragments of its root. -/
def viewsOfRoot (path : List Text) : List View :=
  under layers.root (fun fragment => shown? (.obj fragment) path) path
    [shown? (.obj layers.own) path]

/-- These over the fragments among the attributes, at a place within the attributes. -/
def viewsAmong (place : List Text) : List View :=
  under layers.among (fun fragment => shown? (.obj fragment) ("attributes" :: place)) place
    (layers.viewsOfRoot ("attributes" :: place))

/-- These over the fragments of an attribute, at a place within the attribute. -/
def viewsWithin (name : Text) (place : List Text) : List View :=
  under (layers.within name) (fun fragment => shown? (.obj fragment) place) place
    (layers.viewsAmong (name :: place))

/-- What the layers show at a place, the lowest first. -/
def views : (path : List Text) -> List View
  | [] => layers.viewsOfRoot []
  | key :: rest =>
      if key = "attributes" then
        match rest with
        | [] => layers.viewsAmong []
        | name :: place => layers.viewsWithin name place
      else layers.viewsOfRoot (key :: rest)

/-- No two layers clash on the way to a place. -/
def Agree (path : List Text) : Prop :=
  forall start : List Text, start <+: path -> ¬Clash (layers.views start)

end Views

variable {layers : Layers} {tree : SchemaTree} {path : List Text} {key name : Text}

theorem views_of_ne (other : key ≠ "attributes") (rest : List Text) :
    layers.views (key :: rest) = layers.viewsOfRoot (key :: rest) :=
  if_neg other

theorem views_attributes (layers : Layers) : layers.views ["attributes"] = layers.viewsAmong [] := by
  rw [views, if_pos rfl]

theorem views_attribute (layers : Layers) (name : Text) (place : List Text) :
    layers.views ("attributes" :: name :: place) = layers.viewsWithin name place := by
  rw [views, if_pos rfl]

/-! ## What is shown where -/

theorem attributes?_eq_none_iff : layers.attributes? = none ↔ attributesIn layers.whole = none :=
  Option.map_eq_none_iff

theorem shown?_expanded_of_none (missing : layers.attributes? = none) (path : List Text) :
    shown? (.obj layers.expanded) path = shown? (.obj layers.whole) path := by
  rw [expanded, missing]

section Attributes

variable {attributes : Fields} (laid : layers.attributes? = some attributes)

include laid

theorem shown?_expanded_of_ne (other : key ≠ "attributes") (rest : List Text) :
    shown? (.obj layers.expanded) (key :: rest) = shown? (.obj layers.whole) (key :: rest) := by
  rw [expanded, laid, Fields.shown?_insert, if_neg (Ne.symm other)]

theorem shown?_expanded_attributes : shown? (.obj layers.expanded) ["attributes"] = some none := by
  rw [expanded, laid, Fields.shown?_insert, if_pos rfl]
  rfl

theorem shown?_expanded_attribute (name : Text) (place : List Text) :
    shown? (.obj layers.expanded) ("attributes" :: name :: place) =
      match layers.definition? name with
      | none => shown? (.obj attributes) (name :: place)
      | some definition => shown? (.obj (lay (layers.within name) definition)) place := by
  rw [expanded, laid, Fields.shown?_insert, if_pos rfl, shown?_obj_cons, shown?_obj_cons,
    OrderedMap.get?_mapValues, definition?, laid, Option.bind_some]
  cases attributes.get? name with
  | none => rfl
  | some value => cases value <;> rfl

end Attributes

/-! ## Absent places of directives -/

theorem Included.among_eq_none (included : layers.Included tree)
    (missing : attributesIn layers.whole = none) : layers.among = none := by
  have expands := included.among
  rwa [missing] at expands

theorem Included.within_eq_none (included : layers.Included tree)
    (missing : layers.definition? name = none) : layers.within name = none := by
  have expands := included.within name
  rwa [missing] at expands

theorem Included.viewsAmong_of_none (included : layers.Included tree)
    (missing : attributesIn layers.whole = none) (place : List Text) :
    layers.viewsAmong place = layers.viewsOfRoot ("attributes" :: place) := by
  rw [viewsAmong, included.among_eq_none missing, under_none]

theorem Included.viewsWithin_of_none (included : layers.Included tree)
    (missing : layers.definition? name = none) (place : List Text) :
    layers.viewsWithin name place = layers.viewsAmong (name :: place) := by
  rw [viewsWithin, included.within_eq_none missing, under_none]

/-- Without attributes that are an object, the views are those of the root. -/
theorem Included.views_of_none (included : layers.Included tree)
    (missing : attributesIn layers.whole = none) (path : List Text) :
    layers.views path = layers.viewsOfRoot path := by
  have undefined : forall name : Text, layers.definition? name = none := by
    intro name
    rw [definition?, attributes?_eq_none_iff.mpr missing]
    rfl
  cases path with
  | nil => rfl
  | cons key rest =>
      by_cases same : key = "attributes"
      · subst key
        cases rest with
        | nil => rw [views_attributes, included.viewsAmong_of_none missing]
        | cons name place =>
            rw [views_attribute, included.viewsWithin_of_none (undefined name),
              included.viewsAmong_of_none missing]
      · exact views_of_ne same rest

theorem definition?_eq_some_iff {attributes definition : Fields}
    (laid : layers.attributes? = some attributes) :
    layers.definition? name = some definition ↔
      attributes.get? name = some (.obj definition) := by
  rw [definition?, laid, Option.bind_some, Option.bind_eq_some_iff]
  constructor
  · rintro ⟨value, held, same⟩
    cases value with
    | obj inner => cases same; exact held
    | _ => cases same
  · intro held
    exact ⟨_, held, rfl⟩

/-- A place lies at the root or beside the attributes, it is that of the attributes, or it
lies within an attribute, which is an object or not. -/
theorem Included.views_cases (included : layers.Included tree)
    {motive : List Text -> View -> List View -> Prop}
    (root : forall path : List Text,
      (forall start : List Text, start <+: path -> layers.views start = layers.viewsOfRoot start) ->
      motive path (shown? (.obj layers.whole) path) (layers.viewsOfRoot path))
    (attributes : forall attributes : Fields, layers.attributes? = some attributes ->
      motive ["attributes"] (shown? (.obj attributes) []) (layers.viewsAmong []))
    (plain : forall (attributes : Fields) (name : Text) (place : List Text),
      layers.attributes? = some attributes -> layers.definition? name = none ->
      motive ("attributes" :: name :: place) (shown? (.obj attributes) (name :: place))
        (layers.viewsAmong (name :: place)))
    (defined : forall (attributes definition : Fields) (name : Text) (place : List Text),
      layers.attributes? = some attributes -> attributes.get? name = some (.obj definition) ->
      motive ("attributes" :: name :: place)
        (shown? (.obj (lay (layers.within name) definition)) place) (layers.viewsWithin name place))
    (path : List Text) : motive path (shown? (.obj layers.expanded) path) (layers.views path) := by
  cases laid : layers.attributes? with
  | none =>
      have all := included.views_of_none (attributes?_eq_none_iff.mp laid)
      rw [shown?_expanded_of_none laid, all]
      exact root path fun start _ => all start
  | some own =>
      rcases path with _ | ⟨key, rest⟩
      · exact root [] fun start leads => by rw [List.prefix_nil.mp leads]; rfl
      by_cases same : key = "attributes"
      · subst key
        rcases rest with _ | ⟨name, place⟩
        · rw [shown?_expanded_attributes laid, views_attributes]
          exact attributes own laid
        · rw [shown?_expanded_attribute laid, views_attribute]
          cases found : layers.definition? name with
          | none =>
              rw [included.viewsWithin_of_none found]
              exact plain own name place laid found
          | some definition =>
              exact defined own definition name place laid ((definition?_eq_some_iff laid).mp found)
      · rw [shown?_expanded_of_ne laid same, views_of_ne same]
        refine root (key :: rest) fun start leads => ?_
        rcases start with _ | ⟨first, inner⟩
        · rfl
        · rw [(List.cons_prefix_cons.mp leads).1]
          exact views_of_ne same inner

end Layers
end Inclusion
end EventSchema
