import EventSchema.Text.Utf8

namespace EventSchema
namespace Text

/-!
# Texts as rows of bytes

A system keeps the names on its disks and the values of its variables as rows
of bytes.  A character stands for the bytes of its UTF-8 form.  A byte that is
part of no character is above 0x7F, and one of the halves from U+DC80 to U+DCFF
stands for it, so that every row of bytes has a text.

Different texts may stand for the same bytes: halves whose bytes together make
a character are as good as that character.  `ofBytes` finds the text in which
as much as possible is written in characters.  The other halves stand for
nothing, and a NUL ends a row, so a text that holds either is not known to the
system.
-/

/-- Whether a symbol stands for bytes. -/
def isEncodable : Symbol -> Bool
  | .char _ => true
  | .half offset => 0x480 ≤ offset.val && offset.val < 0x500

/-- The bytes for which a symbol stands: those of a character, or the one that
has the last two hexadecimal digits of a half. -/
def symbolBytes : Symbol -> List UInt8
  | .char c => String.utf8EncodeChar c
  | .half offset => [offset.val.toUInt8]

/-- The bytes for which a text stands. -/
def bytes (text : Text) : List UInt8 :=
  text.flatMap symbolBytes

/-- The half that stands for a byte. -/
def strayByte (byte : UInt8) : Symbol :=
  .ofCode (0xDC00 + byte.toNat)

/-- The character at the start of a row of bytes, with the number of its bytes. -/
def firstCharacter? (lead : UInt8) (rest : List UInt8) : Option (Char × Nat) :=
  (sequenceLength? lead).bind fun length =>
    match decodeUtf8 ((lead :: rest).take length) with
    | .ok [c] => some (c, length)
    | _ => none

/-- The text of a row of bytes after some that are already read. -/
def ofBytesAfter (read : Nat) : List UInt8 -> Text
  | [] => []
  | lead :: rest =>
      match read with
      | left + 1 => ofBytesAfter left rest
      | 0 =>
          match firstCharacter? lead rest with
          | some (c, length) => .char c :: ofBytesAfter (length - 1) rest
          | none => strayByte lead :: ofBytesAfter 0 rest

/-- The text of a row of bytes: characters wherever the bytes make one, and halves
for all other bytes. -/
def ofBytes (row : List UInt8) : Text :=
  ofBytesAfter 0 row

/-- Why a text is not known to the system. -/
inductive ByteFault where
  /-- It holds half of a surrogate pair that stands for no byte. -/
  | unencodable
  | holdsNul
  deriving DecidableEq, Repr

def ByteFault.message : ByteFault -> String
  | unencodable => "surrogates not allowed"
  | holdsNul => "embedded null byte"

/-- Why a text is not known to the system, if it is not. -/
def byteFault? (text : Text) : Option ByteFault :=
  if !text.all isEncodable then some .unencodable
  else if text.contains '\x00' then some .holdsNul
  else none

example : bytes [.char 'é', .half 0x4FF] = [0xC3, 0xA9, 0xFF] := by decide
example : ofBytes [0xC3, 0xA9, 0xFF] = [.char 'é', .half 0x4FF] := by decide
example : ofBytes (bytes [.half 0x4C3, .half 0x4A9]) = [.char 'é'] := by decide
example : ofBytes [0xE2, 0x82, 0x41] = [.half 0x4E2, .half 0x482, .char 'A'] := by decide

end Text
end EventSchema
