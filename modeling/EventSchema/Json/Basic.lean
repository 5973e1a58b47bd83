import EventSchema.OrderedMap
import EventSchema.Number.Binary64
import EventSchema.Number.Numeral

namespace EventSchema

/-!
# JSON values

The data of a schema is open: a descriptor may carry any field, so values are
kept as they were written.  Objects are maps in insertion order, integers are
unbounded and apart from numbers with a fraction or an exponent.

`Json.at?` looks a value up by its path of keys.  It is the view in which
merging is specified: a place holds an object, holds any other value, or holds
nothing.
-/

/-- A JSON value; the fields of an object stand in their order. -/
inductive Json where
  | null
  | bool (value : Bool)
  | int (value : Int)
  | float (value : Binary64)
  | str (value : Text)
  | arr (items : List Json)
  | obj (fields : List (Text × Json))
  deriving Inhabited

/-- The fields of an object in insertion order. -/
abbrev Fields := OrderedMap Text Json

namespace Json

mutual

/-- Equality of values is decided by recursion on both. -/
def decEq : (left right : Json) -> Decidable (left = right)
  | .null, right =>
      match right with
      | .null => isTrue rfl
      | .bool _ | .int _ | .float _ | .str _ | .arr _ | .obj _ => isFalse (by simp)
  | .bool a, right =>
      match right with
      | .bool b => decidable_of_iff (a = b) (by simp)
      | .null | .int _ | .float _ | .str _ | .arr _ | .obj _ => isFalse (by simp)
  | .int a, right =>
      match right with
      | .int b => decidable_of_iff (a = b) (by simp)
      | .null | .bool _ | .float _ | .str _ | .arr _ | .obj _ => isFalse (by simp)
  | .float a, right =>
      match right with
      | .float b => decidable_of_iff (a = b) (by simp)
      | .null | .bool _ | .int _ | .str _ | .arr _ | .obj _ => isFalse (by simp)
  | .str a, right =>
      match right with
      | .str b => decidable_of_iff (a = b) (by simp)
      | .null | .bool _ | .int _ | .float _ | .arr _ | .obj _ => isFalse (by simp)
  | .arr a, right =>
      match right with
      | .arr b =>
          match decEqItems a b with
          | isTrue h => isTrue (by rw [h])
          | isFalse h => isFalse (by simpa using h)
      | .null | .bool _ | .int _ | .float _ | .str _ | .obj _ => isFalse (by simp)
  | .obj a, right =>
      match right with
      | .obj b =>
          match decEqFields a b with
          | isTrue h => isTrue (by rw [h])
          | isFalse h => isFalse (by simpa using h)
      | .null | .bool _ | .int _ | .float _ | .str _ | .arr _ => isFalse (by simp)

def decEqItems : (left right : List Json) -> Decidable (left = right)
  | [], [] => isTrue rfl
  | [], _ :: _ => isFalse (by simp)
  | _ :: _, [] => isFalse (by simp)
  | a :: as, b :: bs =>
      match decEq a b, decEqItems as bs with
      | isTrue h, isTrue t => isTrue (by rw [h, t])
      | isFalse h, _ => isFalse (by simp [h])
      | _, isFalse t => isFalse (by simp [t])

def decEqFields : (left right : List (Text × Json)) -> Decidable (left = right)
  | [], [] => isTrue rfl
  | [], _ :: _ => isFalse (by simp)
  | _ :: _, [] => isFalse (by simp)
  | (j, a) :: as, (k, b) :: bs =>
      if key : j = k then
        match decEq a b, decEqFields as bs with
        | isTrue h, isTrue t => isTrue (by rw [key, h, t])
        | isFalse h, _ => isFalse (by simp [h])
        | _, isFalse t => isFalse (by simp [t])
      else isFalse (by simp [key])

end

instance : DecidableEq Json := decEq

/-- The fields of an object. -/
def fields? : Json -> Option Fields
  | .obj fields => some fields
  | _ => none

/-- Whether the value is an object. -/
def isObject : Json -> Bool
  | .obj _ => true
  | _ => false

/-- The items over which a value ranges: those of a list, the symbols of a text,
the keys of an object. -/
def items? : Json -> Option (List Json)
  | .arr items => some items
  | .str text => some (text.map fun symbol => .str [symbol])
  | .obj fields => some ((OrderedMap.keys fields).map .str)
  | _ => none

/-- The value at a path of keys through nested objects. -/
def at? (value : Json) : (path : List Text) -> Option Json
  | [] => some value
  | key :: rest =>
      match value with
      | .obj fields => (OrderedMap.get? fields key).bind fun inner => inner.at? rest
      | _ => none

/-- Whether a value counts as given: null, false, zero and the empty text,
list and object do not. -/
def isGiven : Json -> Bool
  | .null => false
  | .bool value => value
  | .int value => value ≠ 0
  | .float value => !value.isZero
  | .str value => !value.isEmpty
  | .arr items => !items.isEmpty
  | .obj fields => !fields.isEmpty

mutual

/-- What holds of every value that is read from a text: at any depth, the keys of
an object are distinct and an integer has no more digits than may be written. -/
def WellFormed : Json -> Prop
  | .int value => Numeral.writable value = true
  | .arr items => WellFormedItems items
  | .obj fields => OrderedMap.Distinct fields ∧ WellFormedFields fields
  | _ => True

def WellFormedItems : List Json -> Prop
  | [] => True
  | item :: rest => item.WellFormed ∧ WellFormedItems rest

def WellFormedFields : List (Text × Json) -> Prop
  | [] => True
  | (_, value) :: rest => value.WellFormed ∧ WellFormedFields rest

end

/-- Induction over values with a hypothesis for each item and each field. -/
@[elab_as_elim]
theorem induct {motive : Json -> Prop}
    (null : motive .null) (bool : forall b, motive (.bool b)) (int : forall n, motive (.int n))
    (float : forall x, motive (.float x)) (str : forall s, motive (.str s))
    (arr : forall items, (∀ item ∈ items, motive item) -> motive (.arr items))
    (obj : forall fields, (∀ entry ∈ fields, motive entry.2) -> motive (.obj fields))
    (value : Json) : motive value := by
  refine Json.rec (motive_1 := motive)
    (motive_2 := fun items => ∀ item ∈ items, motive item)
    (motive_3 := fun fields => ∀ entry ∈ fields, motive entry.2)
    (motive_4 := fun entry => motive entry.2)
    null bool int float str arr obj ?_ ?_ ?_ ?_ ?_ value
  · simp
  · intro head rest first others item member
    rcases List.mem_cons.1 member with rfl | old
    · exact first
    · exact others item old
  · simp
  · intro head rest first others entry member
    rcases List.mem_cons.1 member with rfl | old
    · exact first
    · exact others entry old
  · intro key inner holds
    exact holds

theorem wellFormedItems_iff (items : List Json) :
    WellFormedItems items ↔ ∀ item ∈ items, item.WellFormed := by
  induction items with
  | nil => simp [WellFormedItems]
  | cons head rest ih => simp [WellFormedItems, ih]

theorem wellFormedFields_iff (fields : List (Text × Json)) :
    WellFormedFields fields ↔ ∀ entry ∈ fields, entry.2.WellFormed := by
  induction fields with
  | nil => simp [WellFormedFields]
  | cons head rest ih => simp [WellFormedFields, ih]

@[simp] theorem at?_nil (value : Json) : value.at? [] = some value := by
  cases value <;> rfl

theorem at?_obj_cons (fields : Fields) (key : Text) (rest : List Text) :
    at? (.obj fields) (key :: rest) =
      (fields.get? key).bind fun inner => inner.at? rest := rfl

end Json
end EventSchema
