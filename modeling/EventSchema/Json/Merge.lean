import EventSchema.Json.Basic

namespace EventSchema

/-!
# Merging objects

`base.merge upper` lays one object over another.  Where both hold an object at
a key, those are merged in turn; anywhere else the upper value replaces the
lower one, lists and null included.  Keys of the lower object keep their
places and new keys follow in the order of the upper object.

Every layer of a schema is joined this way: extension files over base files,
a descriptor over the fragments it includes, a child over its parent.
-/

mutual

/-- The value that results where `upper` is laid over `base`. -/
def Json.overlay (base : Json) : (upper : Json) -> Json
  | .obj upper =>
      match base with
      | .obj fields => .obj (Fields.merge fields upper)
      | _ => .obj upper
  | .null => .null
  | .bool value => .bool value
  | .int value => .int value
  | .float value => .float value
  | .str value => .str value
  | .arr items => .arr items

/-- The object that results where the entries of `upper` are laid over `base`,
one after another. -/
def Fields.merge (base : Fields) : (upper : List (Text × Json)) -> Fields
  | [] => base
  | (key, value) :: rest =>
      let laid :=
        match base.get? key with
        | some lower => lower.overlay value
        | none => value
      Fields.merge (base.insert key laid) rest

end

namespace Fields

/-- Merge layers in order, each over the result so far. -/
def mergeAll (layers : List Fields) : Fields :=
  layers.foldl merge []

/-- Merge layers that should all be objects; nothing if one is not. -/
def mergeLayers? (layers : List Json) : Option Fields :=
  (layers.mapM Json.fields?).map mergeAll

@[simp] theorem merge_nil (base : Fields) : base.merge [] = base := rfl

theorem merge_cons (base : Fields) (key : Text) (value : Json) (rest : Fields) :
    base.merge ((key, value) :: rest) =
      merge (base.insert key
        (match base.get? key with
          | some lower => lower.overlay value
          | none => value)) rest := rfl

@[simp] theorem mergeAll_nil : mergeAll [] = [] := rfl

/-- A further layer is merged over the result of the others. -/
theorem mergeAll_concat (layers : List Fields) (last : Fields) :
    mergeAll (layers ++ [last]) = (mergeAll layers).merge last := by
  simp [mergeAll]

end Fields

namespace Json

@[simp] theorem overlay_obj_obj (base upper : Fields) :
    overlay (.obj base) (.obj upper) = .obj (base.merge upper) := rfl

/-- Whatever is no object replaces what lies below it. -/
theorem overlay_of_not_isObject {upper : Json} (base : Json)
    (leaf : upper.isObject = false) : base.overlay upper = upper := by
  cases upper with
  | obj fields => simp [isObject] at leaf
  | _ => rfl

/-- An object replaces anything else that lies below it. -/
theorem overlay_obj_of_not_isObject {base : Json} (upper : Fields)
    (leaf : base.isObject = false) : base.overlay (.obj upper) = .obj upper := by
  cases base with
  | obj fields => simp [isObject] at leaf
  | _ => rfl

end Json
end EventSchema
