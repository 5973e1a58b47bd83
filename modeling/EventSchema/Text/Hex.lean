import EventSchema.Text.Basic

namespace EventSchema
namespace Text

/-!
# Hexadecimal digits

Escapes write a code point with a fixed number of lower-case hexadecimal
digits, and read digits of either case.
-/

/-- The lower-case digit of a value below sixteen. -/
def hexDigit (value : Nat) : Char :=
  if value < 10 then Char.ofNat ('0'.toNat + value) else Char.ofNat ('a'.toNat + (value - 10))

/-- The last `width` hexadecimal digits of a number, most significant first. -/
def hexDigits : (width : Nat) -> (value : Nat) -> List Char
  | 0, _ => []
  | width + 1, value => hexDigits width (value / 16) ++ [hexDigit (value % 16)]

/-- The value of a hexadecimal digit of either case. -/
def hexValue? (symbol : Symbol) : Option Nat :=
  let code := symbol.code
  if '0'.toNat ≤ code && code ≤ '9'.toNat then some (code - '0'.toNat)
  else if 'a'.toNat ≤ code && code ≤ 'f'.toNat then some (code - 'a'.toNat + 10)
  else if 'A'.toNat ≤ code && code ≤ 'F'.toNat then some (code - 'A'.toNat + 10)
  else none

/-- The number that a row of hexadecimal digits writes. -/
def hexNumber? (digits : Text) : Option Nat :=
  digits.foldl (fun total? symbol => do
    let total ← total?
    let value ← hexValue? symbol
    pure (16 * total + value)) (some 0)

/-- A digit reads back as the value it was written for. -/
theorem hexValue?_hexDigit {value : Nat} (small : value < 16) :
    hexValue? (hexDigit value) = some value := by
  have all : forall v : Fin 16, hexValue? (hexDigit v) = some v.val := by decide
  exact all ⟨value, small⟩

example : hexDigits 4 0xE9 = ['0', '0', 'e', '9'] := by decide
example : hexNumber? "00E9" = some 0xE9 := by decide

end Text
end EventSchema
