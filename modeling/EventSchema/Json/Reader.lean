import EventSchema.Json.Basic
import EventSchema.Number.Numeral
import EventSchema.Text.Hex

namespace EventSchema
namespace Json

/-!
# Reading JSON text

The reader accepts the JSON grammar, and in addition the three numbers `NaN`,
`Infinity` and `-Infinity`.  A key that occurs twice in an object has its first
place and its last value.  Numbers with a fraction or an exponent become
binary64 numbers, all others integers, which may have at most
`Numeral.digitLimit` digits.

A text that is no JSON is refused at a definite place.  The reader names that
place by the symbols left from there, and `read` turns it into an offset, a
line and a column.
-/

/-- What is wrong at the place where reading stops. -/
inductive Complaint where
  | missingValue
  | missingName
  | missingColon
  | missingComma
  | unterminatedString
  | controlCharacter
  | unknownEscape
  | badUnicodeEscape
  | extraData
  | byteOrderMark
  deriving DecidableEq, Repr

def Complaint.message : Complaint -> String
  | .missingValue => "Expecting value"
  | .missingName => "Expecting property name enclosed in double quotes"
  | .missingColon => "Expecting ':' delimiter"
  | .missingComma => "Expecting ',' delimiter"
  | .unterminatedString => "Unterminated string starting at"
  | .controlCharacter => "Invalid control character at"
  | .unknownEscape => "Invalid \\escape"
  | .badUnicodeEscape => "Invalid \\uXXXX escape"
  | .extraData => "Extra data"
  | .byteOrderMark => "Unexpected UTF-8 BOM (decode using utf-8-sig)"

/-- A complaint with its place: `offset` counts symbols from zero, lines and
columns count from one. -/
structure Malformation where
  complaint : Complaint
  line : Nat
  column : Nat
  offset : Nat
  deriving DecidableEq, Repr

def Malformation.message (found : Malformation) : String :=
  found.complaint.message ++ s!": line {found.line} column {found.column} (char {found.offset})"

/-- Why a text yields no value. -/
inductive ReadFault where
  | malformed (found : Malformation)
  | oversizeInteger
  deriving DecidableEq, Repr

/-- Why the reader stops: a complaint at the place where `left` begins, or an
integer with too many digits. -/
inductive Stop where
  | complaint (what : Complaint) (left : Text)
  | oversizeInteger

/-- What was read from the front of a text, with the rest of the text. -/
abbrev Front (α : Type) := α × Text

/-- The white space of JSON. -/
def isSpace (symbol : Symbol) : Bool :=
  symbol = ' ' || symbol = '\t' || symbol = '\n' || symbol = '\r'

def skipSpace (text : Text) : Text :=
  text.dropWhile isSpace

/-! ## Strings

A string is read as a list of parts: symbols as they are written, and the
sixteen-bit units of escapes.  Pairs of surrogates are joined afterwards. -/

/-- A part of a string: a symbol, or the unit of an escape. -/
inductive Part where
  | written (symbol : Symbol)
  | escaped (unit : Nat)

/-- The character of a one-letter escape. -/
def shortEscape? : Char -> Option Char
  | '"' => some '"'
  | '\\' => some '\\'
  | '/' => some '/'
  | 'b' => some '\x08'
  | 'f' => some '\x0c'
  | 'n' => some '\n'
  | 'r' => some '\r'
  | 't' => some '\t'
  | _ => none

/-- Read the parts up to the closing quote.  `opened` is the text from the
opening quote on.  A `u` must be followed by four digits and at least one more
symbol. -/
def readParts (opened : Text) : Text -> Except Stop (Front (List Part))
  | [] => .error (.complaint .unterminatedString opened)
  | .char '"' :: rest => .ok ([], rest)
  | .char '\\' :: .char 'u' :: a :: b :: c :: d :: next :: rest =>
      match Text.hexNumber? [a, b, c, d] with
      | none => .error (.complaint .badUnicodeEscape ('u' :: a :: b :: c :: d :: next :: rest))
      | some unit => do
          let (parts, rest) ← readParts opened (next :: rest)
          pure (.escaped unit :: parts, rest)
  | [.char '\\'] => .error (.complaint .unterminatedString opened)
  | .char '\\' :: .half offset :: rest =>
      .error (.complaint .unknownEscape ('\\' :: .half offset :: rest))
  | .char '\\' :: .char c :: rest =>
      if c = 'u' then .error (.complaint .badUnicodeEscape (c :: rest))
      else
        match shortEscape? c with
        | none => .error (.complaint .unknownEscape ('\\' :: c :: rest))
        | some meant => do
            let (parts, rest) ← readParts opened rest
            pure (.written meant :: parts, rest)
  | symbol :: rest =>
      if symbol.code < 0x20 then .error (.complaint .controlCharacter (symbol :: rest))
      else do
        let (parts, rest) ← readParts opened rest
        pure (.written symbol :: parts, rest)

def isHighSurrogate (unit : Nat) : Bool :=
  0xD800 ≤ unit && unit ≤ 0xDBFF

def isLowSurrogate (unit : Nat) : Bool :=
  0xDC00 ≤ unit && unit ≤ 0xDFFF

/-- The symbols of a list of parts: escapes of a high and a low surrogate in a
row name one character, and either of them alone is half of a pair. -/
def joinParts : List Part -> Text
  | [] => []
  | .written symbol :: rest => symbol :: joinParts rest
  | [.escaped unit] => [.ofCode unit]
  | .escaped unit :: .written symbol :: rest => .ofCode unit :: symbol :: joinParts rest
  | .escaped high :: .escaped low :: rest =>
      if isHighSurrogate high && isLowSurrogate low then
        .ofCode (0x10000 + (high - 0xD800) * 0x400 + (low - 0xDC00)) :: joinParts rest
      else .ofCode high :: joinParts (.escaped low :: rest)

/-- Read a string after its opening quote. -/
def readString (opened text : Text) : Except Stop (Front Text) := do
  let (parts, rest) ← readParts opened text
  pure (joinParts parts, rest)

/-! ## Numbers -/

/-- The parts of a number as written. -/
structure NumberText where
  negative : Bool
  whole : Text
  fraction : Text
  exponent : Option (Bool × Text)

/-- The digits of the integer part: a lone zero, or a row that does not start
with one. -/
def splitWhole? : Text -> Option (Text × Text)
  | .char '0' :: rest => some ("0", rest)
  | text =>
      let digits := text.takeWhile Text.isAsciiDigit
      if digits.isEmpty then none else some (digits, text.dropWhile Text.isAsciiDigit)

/-- The digits after a decimal point, if at least one follows it. -/
def splitFraction (text : Text) : Text × Text :=
  match text with
  | .char '.' :: rest =>
      let digits := rest.takeWhile Text.isAsciiDigit
      if digits.isEmpty then ([], text) else (digits, rest.dropWhile Text.isAsciiDigit)
  | _ => ([], text)

/-- The sign and digits of an exponent, if it has at least one digit. -/
def splitExponent (text : Text) : Option (Bool × Text) × Text :=
  match text with
  | mark :: rest =>
      if mark = 'e' || mark = 'E' then
        let (negative, row) := Numeral.splitSign rest
        let digits := row.takeWhile Text.isAsciiDigit
        if digits.isEmpty then (none, text)
        else (some (negative, digits), row.dropWhile Text.isAsciiDigit)
      else (none, text)
  | [] => (none, text)

/-- Split the longest number off the front of a text. -/
def splitNumber? (text : Text) : Option (NumberText × Text) := do
  let (negative, row) :=
    match text with
    | .char '-' :: rest => (true, rest)
    | _ => (false, text)
  let (whole, rest) ← splitWhole? row
  let (fraction, rest) := splitFraction rest
  let (exponent, rest) := splitExponent rest
  pure ({ negative, whole, fraction, exponent }, rest)

/-- The number that a row of ASCII digits writes. -/
def digitsValue (digits : Text) : Nat :=
  Numeral.ofDigits (digits.map fun digit => digit.code - '0'.toNat)

/-- The value of a number; integers have neither a fraction nor an exponent. -/
def NumberText.value (number : NumberText) : Except Stop Json :=
  if number.fraction.isEmpty && number.exponent.isNone then
    if number.whole.length ≤ Numeral.digitLimit then
      .ok (.int (Numeral.signed number.negative (digitsValue number.whole)))
    else .error .oversizeInteger
  else
    let power :=
      match number.exponent with
      | none => 0
      | some (negative, digits) => Numeral.signed negative (digitsValue digits)
    .ok (.float (Binary64.ofDecimal number.negative (digitsValue (number.whole ++ number.fraction))
      (power - number.fraction.length)))

/-- Read a number; nothing that starts otherwise is a value. -/
def readNumber (text : Text) : Except Stop (Front Json) :=
  match splitNumber? text with
  | none => .error (.complaint .missingValue text)
  | some (number, rest) => do
      let value ← number.value
      pure (value, rest)

/-! ## Values -/

/-- The values that are written as one word. -/
def words : List (Text × Json) :=
  [("null", .null), ("true", .bool true), ("false", .bool false), ("NaN", .float .nan),
   ("Infinity", .float (.infinity false)), ("-Infinity", .float (.infinity true))]

/-- Read a word or a number. -/
def readAtom (text : Text) : Except Stop (Front Json) :=
  match words.find? fun word => word.1.isPrefixOf text with
  | some (word, value) => .ok (value, text.drop word.length)
  | none => readNumber text

mutual

/-- Read a value that starts with the first symbol of the text.  Each step takes
a symbol or descends without taking one, never twice in a row, so `fuel` of
twice the length suffices. -/
def readValue : (fuel : Nat) -> (text : Text) -> Except Stop (Front Json)
  | 0, text => .error (.complaint .missingValue text)
  | fuel + 1, text =>
      match text with
      | .char '"' :: rest => do
          let (value, rest) ← readString text rest
          pure (.str value, rest)
      | .char '[' :: rest =>
          match skipSpace rest with
          | .char ']' :: rest => .ok (.arr [], rest)
          | inner => do
              let (items, rest) ← readItems fuel inner
              pure (.arr items, rest)
      | .char '\x7b' :: rest =>
          match skipSpace rest with
          | .char '\x7d' :: rest => .ok (.obj [], rest)
          | inner => do
              let (entries, rest) ← readEntries fuel inner
              pure (.obj (OrderedMap.ofEntries entries), rest)
      | _ => readAtom text

/-- Read items, at least one, up to the closing bracket. -/
def readItems : (fuel : Nat) -> (text : Text) -> Except Stop (Front (List Json))
  | 0, text => .error (.complaint .missingValue text)
  | fuel + 1, text => do
      let (item, rest) ← readValue fuel text
      match skipSpace rest with
      | .char ']' :: rest => pure ([item], rest)
      | .char ',' :: rest =>
          let (items, rest) ← readItems fuel (skipSpace rest)
          pure (item :: items, rest)
      | rest => .error (.complaint .missingComma rest)

/-- Read entries, at least one, up to the closing brace. -/
def readEntries : (fuel : Nat) -> (text : Text) -> Except Stop (Front (List (Text × Json)))
  | 0, text => .error (.complaint .missingName text)
  | fuel + 1, text =>
      match text with
      | .char '"' :: rest => do
          let (key, rest) ← readString text rest
          match skipSpace rest with
          | .char ':' :: rest =>
              let (value, rest) ← readValue fuel (skipSpace rest)
              match skipSpace rest with
              | .char '\x7d' :: rest => pure ([(key, value)], rest)
              | .char ',' :: rest =>
                  let (entries, rest) ← readEntries fuel (skipSpace rest)
                  pure ((key, value) :: entries, rest)
              | rest => .error (.complaint .missingComma rest)
          | rest => .error (.complaint .missingColon rest)
      | _ => .error (.complaint .missingName text)

end

/-- Read a text that is one value between white space. -/
def readText (text : Text) : Except Stop Json :=
  if text.head? = some (.char '\ufeff') then .error (.complaint .byteOrderMark text)
  else do
    let (value, rest) ← readValue (2 * text.length + 2) (skipSpace text)
    match skipSpace rest with
    | [] => pure value
    | rest => .error (.complaint .extraData rest)

/-- The place in a text from which `left` is left. -/
def locate (text : Text) (complaint : Complaint) (left : Text) : Malformation :=
  let offset := text.length - left.length
  let before := text.take offset
  { complaint
    line := before.count (.char '\n') + 1
    column := (before.reverse.takeWhile fun (symbol : Symbol) => symbol ≠ '\n').length + 1
    offset }

/-- Read a text as one JSON value. -/
def read (text : Text) : Except ReadFault Json :=
  match readText text with
  | .ok value => .ok value
  | .error (.complaint what left) => .error (.malformed (locate text what left))
  | .error .oversizeInteger => .error .oversizeInteger

example : (read "[1, \"\\ud83d\\ude00\"]").toOption = some (.arr [.int 1, .str "😀"]) := by
  decide +kernel
example : (read "\"\\ud83d\"").toOption = some (.str [.half 0x3D]) := by decide +kernel

end Json
end EventSchema
