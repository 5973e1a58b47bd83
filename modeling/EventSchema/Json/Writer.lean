import EventSchema.Json.Basic
import EventSchema.Number.Shortest
import EventSchema.Text.Hex

namespace EventSchema
namespace Json

/-!
# Writing JSON text

A value is written on one line, with a blank after each comma and each colon.
The text is ASCII: every other character, and each control character without
an escape of its own, is written as the escapes of its sixteen-bit units.
-/

/-- The escape of one sixteen-bit unit. -/
def unicodeEscape (unit : Nat) : List Char :=
  '\\' :: 'u' :: Text.hexDigits 4 unit

/-- One character as it stands in a string. -/
def writeChar (c : Char) : List Char :=
  if c = '"' then ['\\', '"']
  else if c = '\\' then ['\\', '\\']
  else if c = '\n' then ['\\', 'n']
  else if c = '\r' then ['\\', 'r']
  else if c = '\t' then ['\\', 't']
  else if c = '\x08' then ['\\', 'b']
  else if c = '\x0c' then ['\\', 'f']
  else if 0x20 ≤ c.toNat && c.toNat < 0x7F then [c]
  else if c.toNat < 0x10000 then unicodeEscape c.toNat
  else
    unicodeEscape (0xD800 + (c.toNat - 0x10000) / 0x400) ++
      unicodeEscape (0xDC00 + (c.toNat - 0x10000) % 0x400)

/-- One symbol as it stands in a string.  A half is a unit by itself. -/
def writeSymbol : Symbol -> List Char
  | .char c => writeChar c
  | .half offset => unicodeEscape (Symbol.half offset).code

/-- A string between quotes. -/
def writeString (text : Text) : List Char :=
  '"' :: text.flatMap writeSymbol ++ ['"']

/-- A number with a fraction or an exponent. -/
def writeFloat : Binary64 -> String
  | .nan => "NaN"
  | .infinity negative => if negative then "-Infinity" else "Infinity"
  | number => number.text

mutual

/-- The characters of a value. -/
def writeChars : Json -> List Char
  | .null => ['n', 'u', 'l', 'l']
  | .bool true => ['t', 'r', 'u', 'e']
  | .bool false => ['f', 'a', 'l', 's', 'e']
  | .int value => (toString value).toList
  | .float value => (writeFloat value).toList
  | .str value => writeString value
  | .arr items => '[' :: (writeItems items ++ [']'])
  | .obj fields => '\x7b' :: (writeEntries fields ++ ['\x7d'])

/-- Items with a comma between two. -/
def writeItems : List Json -> List Char
  | [] => []
  | [item] => writeChars item
  | item :: next :: rest => writeChars item ++ (',' :: ' ' :: writeItems (next :: rest))

/-- Entries with a comma between two. -/
def writeEntries : List (Text × Json) -> List Char
  | [] => []
  | [(key, value)] => writeString key ++ (':' :: ' ' :: writeChars value)
  | (key, value) :: next :: rest =>
      writeString key ++ (':' :: ' ' :: (writeChars value ++
        (',' :: ' ' :: writeEntries (next :: rest))))

end

/-- The text of a value. -/
def write (value : Json) : String :=
  String.ofList (writeChars value)

end Json
end EventSchema
