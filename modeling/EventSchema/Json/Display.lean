import EventSchema.Json.Basic
import EventSchema.Number.Shortest
import EventSchema.Text.Quoted

namespace EventSchema
namespace Json

/-!
# Values in messages

How a message shows a value: `None`, `True` and `False` for the constants,
numbers by their text, strings quoted, and lists and objects in brackets with
their parts separated by a comma and a blank.
-/

mutual

/-- A value as a message shows it. -/
def shown : Json -> Text
  | .null => "None"
  | .bool true => "True"
  | .bool false => "False"
  | .int value => toString value
  | .float value => value.text
  | .str value => Text.quoted value
  | .arr items => "[" ++ shownItems items ++ "]"
  | .obj fields => "\x7b" ++ shownEntries fields ++ "\x7d"

def shownItems : List Json -> Text
  | [] => ""
  | [item] => item.shown
  | item :: next :: rest => item.shown ++ ", " ++ shownItems (next :: rest)

def shownEntries : List (Text × Json) -> Text
  | [] => ""
  | [(key, value)] => Text.quoted key ++ ": " ++ value.shown
  | (key, value) :: next :: rest =>
      Text.quoted key ++ ": " ++ value.shown ++ ", " ++ shownEntries (next :: rest)

end

/-- A value as running text: strings stand unquoted, all else is shown. -/
def plain : Json -> Text
  | .str value => value
  | value => value.shown

example : shown (.arr [.str "a'b", .null, .obj [("k", .bool true)]]) =
    "[\"a'b\", None, \x7b'k': True\x7d]" := by decide

end Json
end EventSchema
