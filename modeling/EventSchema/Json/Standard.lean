import EventSchema.Json.Basic
import EventSchema.Text.Quoted

namespace EventSchema
namespace Json

/-!
# Values in standard JSON

Standard JSON has no word for an infinity or for a number that is none, and no
way to name half of a surrogate pair in a key.  `standard` writes null in the
place of the former, at every depth.  What becomes of the latter depends on how
much is declared about the object.  In a map whose values are declared,
replacement characters stand for the half, and keys that become the same have
the first place and the last value.  In a value about which nothing is declared
such a key is a fault, and so is nesting beyond a limit.  Texts are kept, halves
included.
-/

/-- What is declared about a value. -/
inductive Layout where
  /-- Nothing: any value that nests no deeper than a number of levels.  The value
  itself is the first of them, and the parts of a list or object are one
  further. -/
  | free (levels : Nat)
  /-- A text, an integer, or a list or record of such. -/
  | fixed
  | list (items : Layout)
  /-- Any keys, and values of one layout. -/
  | map (values : Layout)
  /-- Declared fields of known layouts, and free fields beside them. -/
  | record (declared : List (Text × Layout))

/-- Why a value has no standard form. -/
inductive StandardFault where
  /-- A key in a free value holds half of a surrogate pair. -/
  | brokenKey (key : Text)
  /-- A free value nests too deep. -/
  | tooDeep
  deriving DecidableEq, Repr

namespace Layout

/-- The number of levels to which a free value may nest. -/
def levelLimit : Nat := 255

/-- Any value within the limit. -/
def anything : Layout := .free levelLimit

/-- Declared fields that are fixed. -/
def fixedFields (keys : List Text) : List (Text × Layout) :=
  keys.map fun key => (key, .fixed)

/-- The layout of the items of a list. -/
def item : Layout -> Layout
  | .free levels => .free (levels - 1)
  | .list items => items
  | _ => .fixed

/-- The layout of the value at a key of an object. -/
def field (key : Text) : Layout -> Layout
  | .free levels => .free (levels - 1)
  | .map values => values
  | .record declared => (OrderedMap.get? declared key).getD anything
  | _ => .fixed

/-- A key as it is written. -/
def key (text : Text) : Layout -> Except StandardFault Text
  | .free _ => if text.hasHalf then .error (.brokenKey text) else .ok text
  | .map _ => .ok (Text.ofChars text.characters)
  | _ => .ok text

/-- Whether no level is left. -/
def isSpent : Layout -> Bool
  | .free 0 => true
  | _ => false

end Layout

def StandardFault.message : StandardFault -> Text
  | brokenKey key => "the key " ++ Text.quoted key ++ " holds half of a surrogate pair"
  | tooDeep => s!"a value nests deeper than {Layout.levelLimit} levels"

mutual

/-- A value in standard form.  Faults are met in the order of the parts, a key
before its value. -/
def standard (layout : Layout) (value : Json) : Except StandardFault Json :=
  if layout.isSpent then .error .tooDeep
  else
    match value with
    | .float value => .ok (if value.isFinite then .float value else .null)
    | .arr items => do
        let items ← standardItems layout.item items
        pure (.arr items)
    | .obj fields => do
        let entries ← standardEntries layout fields
        pure (.obj (OrderedMap.ofEntries entries))
    | .null => .ok .null
    | .bool value => .ok (.bool value)
    | .int value => .ok (.int value)
    | .str value => .ok (.str value)

def standardItems (layout : Layout) : List Json -> Except StandardFault (List Json)
  | [] => .ok []
  | item :: rest => do
      let item ← item.standard layout
      let rest ← standardItems layout rest
      pure (item :: rest)

def standardEntries (layout : Layout) :
    List (Text × Json) -> Except StandardFault (List (Text × Json))
  | [] => .ok []
  | (key, value) :: rest => do
      let written ← layout.key key
      let value ← value.standard (layout.field key)
      let rest ← standardEntries layout rest
      pure ((written, value) :: rest)

end

example : standard (.free 1) (.arr []) = .ok (.arr []) := rfl
example : standard (.free 1) (.arr [.null]) = .error .tooDeep := rfl

end Json
end EventSchema
