import EventSchema.Text.Hex

namespace EventSchema
namespace Text

/-!
# Strict UTF-8

Decoding accepts the shortest form of each scalar value and nothing else.  A
fault names the bytes to blame: the lead byte alone when it can start no
character, the bytes read so far when the next one does not continue them, and
everything that is left when the text ends inside a character.
-/

/-- Why bytes are not UTF-8. -/
inductive Utf8Reason where
  | invalidStart
  | invalidContinuation
  | unexpectedEnd
  deriving DecidableEq, Repr

/-- The first fault of a byte sequence: where it starts, the bytes to blame and
what is wrong with them. -/
structure Utf8Fault where
  start : Nat
  blamed : List UInt8
  reason : Utf8Reason
  deriving DecidableEq, Repr

def Utf8Reason.message : Utf8Reason -> String
  | .invalidStart => "invalid start byte"
  | .invalidContinuation => "invalid continuation byte"
  | .unexpectedEnd => "unexpected end of data"

/-- The fault in words; a single byte is shown, several are counted. -/
def Utf8Fault.message (fault : Utf8Fault) : String :=
  match fault.blamed with
  | [byte] =>
      "'utf-8' codec can't decode byte 0x" ++ String.ofList (hexDigits 2 byte.toNat) ++
        s!" in position {fault.start}: " ++ fault.reason.message
  | blamed =>
      s!"'utf-8' codec can't decode bytes in position {fault.start}-" ++
        toString (fault.start + blamed.length - 1) ++ ": " ++ fault.reason.message

/-- Whether a byte has the form of a second or later byte of a character. -/
def isContinuation (byte : UInt8) : Bool :=
  0x80 ≤ byte && byte ≤ 0xBF

/-- Whether a byte may come second after a given lead byte.  The narrower
ranges exclude overlong forms, surrogates and values above U+10FFFF. -/
def maySecond (lead byte : UInt8) : Bool :=
  isContinuation byte &&
    (if lead = 0xE0 then 0xA0 ≤ byte
     else if lead = 0xED then byte < 0xA0
     else if lead = 0xF0 then 0x90 ≤ byte
     else if lead = 0xF4 then byte < 0x90
     else true)

/-- The number of bytes of a character with the given lead byte, if there is
one. -/
def sequenceLength? (lead : UInt8) : Option Nat :=
  if lead < 0x80 then some 1
  else if lead < 0xC2 then none
  else if lead < 0xE0 then some 2
  else if lead < 0xF0 then some 3
  else if lead < 0xF5 then some 4
  else none

/-- The six bits that a continuation byte carries. -/
def payload (byte : UInt8) : Nat :=
  byte.toNat % 64

/-- Decode the bytes from position `start` on. -/
def decodeFrom (start : Nat) : List UInt8 -> Except Utf8Fault (List Char)
  | [] => .ok []
  | lead :: rest =>
      match sequenceLength? lead with
      | none => .error ⟨start, [lead], .invalidStart⟩
      | some 1 => do
          let text ← decodeFrom (start + 1) rest
          pure (Char.ofNat lead.toNat :: text)
      | some length =>
          match rest with
          | [] => .error ⟨start, [lead], .unexpectedEnd⟩
          | second :: rest =>
              if !maySecond lead second then .error ⟨start, [lead], .invalidContinuation⟩
              else if length = 2 then do
                let text ← decodeFrom (start + 2) rest
                pure (Char.ofNat ((lead.toNat - 0xC0) * 64 + payload second) :: text)
              else
                match rest with
                | [] => .error ⟨start, [lead, second], .unexpectedEnd⟩
                | third :: rest =>
                    if !isContinuation third then
                      .error ⟨start, [lead, second], .invalidContinuation⟩
                    else if length = 3 then do
                      let text ← decodeFrom (start + 3) rest
                      pure (Char.ofNat (((lead.toNat - 0xE0) * 64 + payload second) * 64 +
                        payload third) :: text)
                    else
                      match rest with
                      | [] => .error ⟨start, [lead, second, third], .unexpectedEnd⟩
                      | fourth :: rest =>
                          if !isContinuation fourth then
                            .error ⟨start, [lead, second, third], .invalidContinuation⟩
                          else do
                            let text ← decodeFrom (start + 4) rest
                            pure (Char.ofNat ((((lead.toNat - 0xF0) * 64 + payload second) * 64 +
                              payload third) * 64 + payload fourth) :: text)

/-- Decode a whole byte sequence. -/
def decodeUtf8 (bytes : List UInt8) : Except Utf8Fault (List Char) :=
  decodeFrom 0 bytes

/-- Write every line end, be it CR LF or a lone CR, as LF. -/
def unifyLineEnds : List Char -> List Char
  | [] => []
  | '\r' :: '\n' :: rest => '\n' :: unifyLineEnds rest
  | c :: rest => (if c = '\r' then '\n' else c) :: unifyLineEnds rest

example : decodeUtf8 [0x61, 0xC3, 0xA9] = .ok ['a', 'é'] := rfl
example : decodeUtf8 [0xE2, 0x82] = .error ⟨0, [0xE2, 0x82], .unexpectedEnd⟩ := rfl
example : decodeUtf8 [0xED, 0xA0, 0x80] = .error ⟨0, [0xED], .invalidContinuation⟩ := rfl
example : unifyLineEnds ['\r', '\n', '\r', 'x'] = ['\n', '\n', 'x'] := by decide

end Text
end EventSchema
