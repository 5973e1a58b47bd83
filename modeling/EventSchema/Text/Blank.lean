import EventSchema.Text.Basic

namespace EventSchema
namespace Text

/-!
# Blank characters

The white space of Unicode, which is stripped from both ends of a numeral.
The separators U+001C to U+001F are not in the class.
-/

/-- The code points with the property `White_Space`, as closed ranges. -/
def blankRanges : List (Nat × Nat) :=
  [(0x9, 0xD), (0x20, 0x20), (0x85, 0x85), (0xA0, 0xA0), (0x1680, 0x1680),
   (0x2000, 0x200A), (0x2028, 0x2029), (0x202F, 0x202F), (0x205F, 0x205F),
   (0x3000, 0x3000)]

/-- Whether a symbol is white space. -/
def isBlank (symbol : Symbol) : Bool :=
  blankRanges.any fun range => range.1 ≤ symbol.code && symbol.code ≤ range.2

/-- Drop the blanks at both ends. -/
def trim (text : Text) : Text :=
  ((text.dropWhile isBlank).reverse.dropWhile isBlank).reverse

example : trim " 7\n" = "7" := by decide
example : trim "\x1f7" = "\x1f7" := by decide

end Text
end EventSchema
