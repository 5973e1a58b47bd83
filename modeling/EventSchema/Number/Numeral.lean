import EventSchema.Number.Power
import EventSchema.Text.Blank
import EventSchema.Text.Digit

namespace EventSchema
namespace Numeral

/-!
# Decimal integers as text

Integers are unbounded, but their texts are not: no text of more than
`digitLimit` digits is read or written.  A numeral is a row of decimal digits
in which single underscores may separate digits, with an optional sign and
blanks at both ends.

Two kinds of places hold numerals.  Keys of an enumeration admit the digits of
every script.  Fields of records admit the ten ASCII ones and a fraction of
zeros, and are lenient about what stands between leading zeros.
-/

/-- The greatest number of decimal digits that is read or written. -/
def digitLimit : Nat := 4300

/-- Whether the text of an integer stays within the limit. -/
def writable (n : Int) : Bool :=
  n.natAbs < tenTo digitLimit

/-- The decimal text of an integer, unless it would exceed the limit. -/
def write? (n : Int) : Option Text :=
  if writable n then some (toString n) else none

/-- The digit values of a row of digits with single underscores between
digits. -/
def digitRow? (value? : Symbol -> Option Nat) : Text -> Option (List Nat)
  | [] => none
  | [c] => (value? c).map fun digit => [digit]
  | c :: .char '_' :: rest => do
      let digit ← value? c
      let digits ← digitRow? value? rest
      pure (digit :: digits)
  | c :: rest => do
      let digit ← value? c
      let digits ← digitRow? value? rest
      pure (digit :: digits)

/-- The number whose decimal digits are given, most significant first. -/
def ofDigits (digits : List Nat) : Nat :=
  digits.foldl (fun total digit => 10 * total + digit) 0

/-- Split off an optional sign: whether it is negative, and the rest. -/
def splitSign : Text -> Bool × Text
  | .char '-' :: rest => (true, rest)
  | .char '+' :: rest => (false, rest)
  | text => (false, text)

/-- A magnitude with its sign. -/
def signed (negative : Bool) (magnitude : Nat) : Int :=
  if negative then -(magnitude : Int) else magnitude

/-- Read an integer written in the digits of any script.  Leading zeros are
allowed and count towards the limit. -/
def readAnyScript? (text : Text) : Option Int := do
  let (negative, row) := splitSign (Text.trim text)
  let digits ← digitRow? Text.digitValue? row
  if digits.length ≤ digitLimit then some (signed negative (ofDigits digits)) else none

/-! ## Integers as fields of records -/

/-- Why a text is no integer value of a record field. -/
inductive Misreading where
  | notUnicode
  | notInteger
  | tooManyDigits
  deriving DecidableEq, Repr

/-- The values of a row of ASCII digits that has no separators. -/
def plainDigits? (row : Text) : Option (List Nat) :=
  row.mapM Text.asciiDigitValue?

/-- Read a plain numeral: an optional minus and ASCII digits, of which the first
is a zero only if it is the only one. -/
def readPlain? (text : Text) : Option Int := do
  let (negative, row) :=
    match text with
    | .char '-' :: rest => (true, rest)
    | _ => (false, text)
  let digits ← plainDigits? row
  match digits with
  | [] => none
  | 0 :: _ :: _ => none
  | _ => if digits.length ≤ digitLimit then some (signed negative (ofDigits digits)) else none

/-- Whether a text starts as a plain numeral of too many digits, whatever
follows them. -/
def isOversize (text : Text) : Bool :=
  let row :=
    match text with
    | .char '-' :: rest => rest
    | _ => text
  row.head? ≠ some (.char '0') && digitLimit < (row.takeWhile Text.isAsciiDigit).length

/-- Whether a character is a digit other than zero. -/
def isNonzeroDigit (c : Symbol) : Bool :=
  Text.isAsciiDigit c && c ≠ '0'

/-- Pass over zeros and underscores until the number starts, which it may do with
a minus.  Of nothing but these, and before a point, the last one is kept. -/
def passZeros (last : Symbol) : Text -> Option Text
  | [] => some [last]
  | c :: rest =>
      if c = '0' || c = '_' then passZeros c rest
      else if isNonzeroDigit c || c = '-' then some (c :: rest)
      else if c = '.' then some (last :: c :: rest)
      else none

/-- Drop the zeros in front of a row that starts with a digit. -/
def dropLeadingZeros : Text -> Option Text
  | [] => none
  | c :: rest =>
      if c = '0' then passZeros c rest
      else if isNonzeroDigit c then some (c :: rest)
      else none

/-- Drop a decimal point that is followed by one or more zeros and nothing
else. -/
def dropZeroFraction (row : Text) : Text :=
  match row.dropWhile fun (c : Symbol) => c ≠ '.' with
  | .char '.' :: fraction =>
      if !fraction.isEmpty && fraction.all fun c => c = '0' then
        row.takeWhile fun (c : Symbol) => c ≠ '.'
      else row
  | _ => row

/-- Whether two underscores stand side by side. -/
def hasDoubleUnderscore : Text -> Bool
  | .char '_' :: .char '_' :: _ => true
  | _ :: rest => hasDoubleUnderscore rest
  | [] => false

/-- Drop single underscores between other characters. -/
def dropUnderscores (row : Text) : Text :=
  if row.head? = some (.char '_') || row.getLast? = some (.char '_') ||
      hasDoubleUnderscore row then row
  else row.filter fun c => c ≠ '_'

/-- The plain numeral that a text stands for, if it stands for one: blanks, a
plus, leading zeros, a zero fraction and separators are dropped. -/
def tidy? (text : Text) : Option Text := do
  let (negative, row) := splitSign (Text.trim text)
  let row ← dropLeadingZeros row
  let row := dropUnderscores (dropZeroFraction row)
  pure (if negative then '-' :: row else row)

/-- Read the value of an integer field. -/
def readField (text : Text) : Except Misreading Int :=
  if text.hasHalf then .error .notUnicode
  else if isOversize text then .error .tooManyDigits
  else
    match (tidy? text).bind readPlain? with
    | some value => .ok value
    | none => .error .notInteger

example : readAnyScript? " +1_0 " = some 10 := by decide
example : readAnyScript? "\u0663" = some 3 ∧ readAnyScript? "1__0" = none := by decide
example : readField "\u0663" = .error .notInteger ∧ readField "7." = .error .notInteger :=
  ⟨rfl, rfl⟩
example : readField "-007.0" = .ok (-7) ∧ readField "0_-1" = .ok (-1) := ⟨rfl, rfl⟩
example : readField "0__7_0.00" = .ok 70 ∧ readField "-0-1" = .error .notInteger := ⟨rfl, rfl⟩

end Numeral
end EventSchema
