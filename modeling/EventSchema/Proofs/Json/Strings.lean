import EventSchema.Json.Reader
import EventSchema.Json.Writer
import Mathlib.Algebra.Group.Nat.Defs

namespace EventSchema

/-!
# Strings are read back

A string is written character by character, and what is written for a character
does not depend on its neighbours.  The reader works in two steps, parts first and
symbols second, and neither step alone undoes the writer: a character beyond the
basic plane is written as two escapes, which are two parts.  `Json.Spells` says of
some characters what both steps together make of them, whatever follows.  It
passes from two rows of characters to the one after the other, so a string is read
back if each character is.
-/

namespace Symbol

/-- The code points of characters leave out the halves of pairs. -/
theorem toNat_bounds (c : Char) :
    c.toNat < 0xD800 ∨ (0xDFFF < c.toNat ∧ c.toNat < 0x110000) := by
  have valid := c.valid
  simp only [UInt32.isValidChar, Nat.isValidChar] at valid
  simp only [Char.toNat]
  omega

/-- A character is the symbol of its code point. -/
theorem ofCode_toNat (c : Char) : ofCode c.toNat = .char c := by
  have bounds := toNat_bounds c
  have notHalf : ¬(firstHalf ≤ c.toNat ∧ c.toNat - firstHalf < 0x800) := by
    rw [firstHalf]
    omega
  rw [ofCode, dif_neg notHalf, Char.ofNat_toNat]

end Symbol

namespace Text

/-- As many digits as a number needs read back as the number. -/
theorem hexNumber?_hexDigits {width value : Nat} (small : value < 16 ^ width) :
    hexNumber? (ofChars (hexDigits width value)) = some value := by
  induction width generalizing value with
  | zero =>
      have zero : value = 0 := by simpa using small
      rw [zero]
      rfl
  | succ width ih =>
      have front : hexNumber? (ofChars (hexDigits width (value / 16))) = some (value / 16) :=
        ih (by rw [Nat.pow_succ] at small; omega)
      have last := hexValue?_hexDigit (Nat.mod_lt value (show 0 < 16 by decide))
      have whole : 16 * (value / 16) + value % 16 = value := Nat.div_add_mod value 16
      unfold hexNumber? at front ⊢
      rw [hexDigits, ofChars, List.map_append, ← ofChars, List.foldl_append, front]
      simp [last, whole]

end Text

namespace Json

/-- Characters that the reader takes for the given parts, whatever it reads
after them. -/
def ReadsAs (written : List Char) (parts : List Part) : Prop :=
  forall (opened more rest : Text) (others : List Part), readParts opened more = .ok (others, rest) ->
    readParts opened (Text.ofChars written ++ more) = .ok (parts ++ others, rest)

/-- Parts that are joined to a text, whatever parts come after them. -/
def JoinsTo (parts : List Part) (text : Text) : Prop :=
  forall others : List Part, joinParts (parts ++ others) = text ++ joinParts others

/-- Characters inside a string that stand for a text. -/
def Spells (written : List Char) (text : Text) : Prop :=
  ∃ parts, ReadsAs written parts ∧ JoinsTo parts text

theorem ReadsAs.append {first second : List Char} {front back : List Part}
    (before : ReadsAs first front) (after : ReadsAs second back) :
    ReadsAs (first ++ second) (front ++ back) := by
  intro opened more rest others reads
  rw [Text.ofChars, List.map_append, List.append_assoc, List.append_assoc]
  exact before _ _ _ _ (after _ _ _ _ reads)

theorem JoinsTo.append {front back : List Part} {first second : Text}
    (before : JoinsTo front first) (after : JoinsTo back second) :
    JoinsTo (front ++ back) (first ++ second) := by
  intro others
  rw [List.append_assoc, before, after, List.append_assoc]

namespace Spells

theorem nil : Spells [] [] :=
  ⟨[], fun _ _ _ _ reads => reads, fun _ => rfl⟩

theorem append {first second : List Char} {before after : Text} (front : Spells first before)
    (back : Spells second after) : Spells (first ++ second) (before ++ after) := by
  rcases front with ⟨parts, reads, joins⟩
  rcases back with ⟨others, readsBack, joinsBack⟩
  exact ⟨parts ++ others, reads.append readsBack, joins.append joinsBack⟩

/-- A part that is written as it stands is a symbol of the text. -/
theorem of_written {written : List Char} {symbol : Symbol}
    (reads : ReadsAs written [.written symbol]) : Spells written [symbol] :=
  ⟨_, reads, fun _ => rfl⟩

end Spells

/-! ## The ways to write a character -/

/-- A printing character other than the quote and the backslash stands for
itself. -/
theorem readsAs_self {c : Char} (quote : c ≠ '"') (backslash : c ≠ '\\')
    (printing : 0x20 ≤ c.toNat) : ReadsAs [c] [.written c] := by
  intro opened more rest others reads
  have noControl : ¬(Symbol.char c).code < 0x20 := Nat.not_lt.2 printing
  change readParts opened (.char c :: more) = _
  rw [readParts, if_neg noControl, reads]
  · rfl
  · exact fun same => quote (Symbol.char.inj same)
  all_goals simp [backslash]

/-- A backslash and a letter stand for the character that the letter names. -/
theorem readsAs_shortEscape {letter meant : Char} (names : shortEscape? letter = some meant) :
    ReadsAs ['\\', letter] [.written meant] := by
  intro opened more rest others reads
  have notUnit : letter ≠ 'u' := by
    rintro rfl
    cases names
  change readParts opened (.char '\\' :: .char letter :: more) = _
  rw [readParts, if_neg notUnit, names]
  · simp only [reads]
    rfl
  · exact fun _ _ _ _ _ _ _ same => notUnit same

/-- The escape of a unit is read as that unit.  The reader wants a symbol behind
the digits, and there is one where a string goes on or ends. -/
theorem readsAs_unicodeEscape {unit : Nat} (small : unit < 16 ^ 4) :
    ReadsAs (unicodeEscape unit) [.escaped unit] := by
  intro opened more rest others reads
  have value := Text.hexNumber?_hexDigits small
  obtain ⟨a, b, c, d, digits⟩ : ∃ a b c d, Text.hexDigits 4 unit = [a, b, c, d] :=
    ⟨_, _, _, _, rfl⟩
  rw [digits] at value
  cases more with
  | nil => cases reads
  | cons next more =>
      rw [unicodeEscape, digits]
      change readParts opened (.char '\\' :: .char 'u' :: a :: b :: c :: d :: next :: more) = _
      rw [readParts]
      change Text.hexNumber? [.char a, .char b, .char c, .char d] = some unit at value
      simp only [value, reads]
      rfl

/-- A unit that does not open a pair is joined to the symbol of that code
point. -/
theorem joinsTo_unit {unit : Nat} (alone : isHighSurrogate unit = false) :
    JoinsTo [.escaped unit] [.ofCode unit] := by
  intro others
  -- Only another escape could be joined to the unit.
  rcases others with _ | ⟨symbol | low, others⟩
  · rfl
  · rfl
  · change joinParts (.escaped unit :: .escaped low :: others) = _
    rw [joinParts, alone]
    rfl

/-- The two units of a character beyond the basic plane are joined to it. -/
theorem joinsTo_pair {code : Nat} (beyond : 0x10000 ≤ code) (last : code < 0x110000) :
    JoinsTo [.escaped (0xD800 + (code - 0x10000) / 0x400),
      .escaped (0xDC00 + (code - 0x10000) % 0x400)] [.ofCode code] := by
  intro others
  have high : isHighSurrogate (0xD800 + (code - 0x10000) / 0x400) = true := by
    simp only [isHighSurrogate, Bool.and_eq_true, decide_eq_true_eq]
    omega
  have low : isLowSurrogate (0xDC00 + (code - 0x10000) % 0x400) = true := by
    simp only [isLowSurrogate, Bool.and_eq_true, decide_eq_true_eq]
    omega
  have joined : 0x10000 + (0xD800 + (code - 0x10000) / 0x400 - 0xD800) * 0x400 +
      (0xDC00 + (code - 0x10000) % 0x400 - 0xDC00) = code := by omega
  rw [List.cons_append, List.cons_append, joinParts, high, low, joined]
  rfl

/-! ## Characters and strings -/

/-- What is written for a character stands for it. -/
theorem spells_writeChar (c : Char) : Spells (writeChar c) [.char c] := by
  have bounds := Symbol.toNat_bounds c
  unfold writeChar
  -- The seven characters with an escape of their own come first.
  iterate 7
    split
    · next same =>
        subst same
        exact .of_written (readsAs_shortEscape rfl)
  split
  · next quote backslash _ _ _ _ _ printing =>
      simp only [Bool.and_eq_true, decide_eq_true_eq] at printing
      exact .of_written (readsAs_self quote backslash printing.1)
  rw [← Symbol.ofCode_toNat c]
  split
  · next small =>
      refine ⟨_, readsAs_unicodeEscape small, joinsTo_unit ?_⟩
      simp only [isHighSurrogate, Bool.and_eq_false_iff, decide_eq_false_iff_not]
      omega
  · next beyond =>
      have high : 0xD800 + (c.toNat - 0x10000) / 0x400 < 16 ^ 4 := by omega
      have low : 0xDC00 + (c.toNat - 0x10000) % 0x400 < 16 ^ 4 := by omega
      exact ⟨_, (readsAs_unicodeEscape high).append (readsAs_unicodeEscape low),
        joinsTo_pair (by omega) (by omega)⟩

/-- Without halves, what is written between the quotes stands for the text. -/
theorem spells_text {text : Text} (whole : text.hasHalf = false) :
    Spells (text.flatMap writeSymbol) text := by
  induction text with
  | nil => exact .nil
  | cons symbol rest ih =>
      rw [Text.hasHalf, List.any_cons, Bool.or_eq_false_iff] at whole
      cases symbol with
      | char c => exact (spells_writeChar c).append (ih whole.2)
      | half offset => cases whole.1

/-- A text without halves is read back from its string. -/
theorem readString_writeString {text : Text} (whole : text.hasHalf = false) (opened rest : Text) :
    readString opened (Text.ofChars (text.flatMap writeSymbol) ++ .char '"' :: rest) =
      .ok (text, rest) := by
  rcases spells_text whole with ⟨parts, reads, joins⟩
  have read := reads opened (.char '"' :: rest) rest [] (by rw [readParts])
  have joined := joins []
  rw [List.append_nil] at read
  rw [List.append_nil, joinParts, List.append_nil] at joined
  rw [readString, read]
  change Except.ok (joinParts parts, rest) = _
  rw [joined]

end Json
end EventSchema
