import EventSchema.Text.Hex
import EventSchema.Text.Printable

namespace EventSchema
namespace Text

/-!
# Quoted text

How a message shows a piece of text: between single quotes, or between double
quotes when the text holds a single quote and no double one.  Backslashes, the
chosen quote and unprintable characters are escaped, the latter with the
shortest of three fixed widths that holds the code point.
-/

/-- The quote that surrounds a text. -/
def quoteMark (text : Text) : Symbol :=
  if text.contains '\'' && !text.contains '"' then '"' else '\''

/-- The escape of a code point: a letter and hexadecimal digits. -/
def escape (letter : Char) (width code : Nat) : Text :=
  ofChars ('\\' :: letter :: hexDigits width code)

/-- One symbol as it stands between the given quotes. -/
def quotedSymbol (mark symbol : Symbol) : Text :=
  if symbol = '\\' || symbol = mark then ['\\', symbol]
  else if symbol = '\n' then "\\n"
  else if symbol = '\r' then "\\r"
  else if symbol = '\t' then "\\t"
  else if isPrintable symbol then [symbol]
  else if symbol.code ≤ 0xFF then escape 'x' 2 symbol.code
  else if symbol.code ≤ 0xFFFF then escape 'u' 4 symbol.code
  else escape 'U' 8 symbol.code

/-- A text between quotes. -/
def quoted (text : Text) : Text :=
  let mark := quoteMark text
  mark :: text.flatMap (quotedSymbol mark) ++ [mark]

example : quoted "a" = "'a'" := by decide
example : quoted "it's" = "\"it's\"" := by decide
example : quoted "\"'" = "'\"\\''" := by decide
example : quoted "\n\x00" = "'\\n\\x00'" := by decide
example : quoted [.half 0] = "'\\ud800'" := by decide +kernel

end Text
end EventSchema
