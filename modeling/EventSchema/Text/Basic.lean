namespace EventSchema

/-!
# Texts

An escape in JSON may name one half of a surrogate pair without the other.
Such a half is no character, yet it belongs to the text: two keys that differ
in it alone are different keys.  A text is therefore a list of symbols, each of
which is a character or a half that stands alone.

Every string is a text without halves, and string literals stand for texts.
Texts are ordered symbol by symbol by their code points.
-/

/-- A character, or one of the 2048 halves of surrogate pairs. -/
inductive Symbol where
  | char (value : Char)
  | half (offset : Fin 0x800)
  deriving DecidableEq, Repr

namespace Symbol

instance : Coe Char Symbol := ⟨char⟩

/-- The first code point of the halves, which follow one another. -/
def firstHalf : Nat := 0xD800

/-- The code point of a symbol. -/
def code : Symbol -> Nat
  | char value => value.toNat
  | half offset => firstHalf + offset

/-- The symbol of a code point; there is none above U+10FFFF, where U+0000 stands
in. -/
def ofCode (code : Nat) : Symbol :=
  if h : firstHalf ≤ code ∧ code - firstHalf < 0x800 then half ⟨code - firstHalf, h.2⟩
  else char (Char.ofNat code)

/-- Whether a symbol is half of a surrogate pair. -/
def isHalf : Symbol -> Bool
  | char _ => false
  | half _ => true

/-- The characters that stand for a symbol where halves are not admitted: one
replacement character for each of the three bytes that a half would take. -/
def characters : Symbol -> List Char
  | char value => [value]
  | half _ => ['\ufffd', '\ufffd', '\ufffd']

/-- A symbol is known by its code point. -/
theorem code_inj {left right : Symbol} : left.code = right.code ↔ left = right := by
  constructor
  · intro same
    cases left with
    | char a =>
        cases right with
        | char b => exact congrArg char (Char.toNat_inj.1 same)
        | half j =>
            have valid := a.valid
            simp only [code, firstHalf] at same
            simp only [UInt32.isValidChar, Nat.isValidChar, Char.toNat] at valid same
            have := j.isLt
            omega
    | half i =>
        cases right with
        | char b =>
            have valid := b.valid
            simp only [code, firstHalf] at same
            simp only [UInt32.isValidChar, Nat.isValidChar, Char.toNat] at valid same
            have := i.isLt
            omega
        | half j =>
            simp only [code] at same
            exact congrArg half (Fin.ext (by omega))
  · rintro rfl
    rfl

end Symbol

/-- A text: a list of symbols. -/
abbrev Text := List Symbol

namespace Text

/-- The text of a list of characters. -/
def ofChars (characters : List Char) : Text :=
  characters.map Symbol.char

/-- The text of a string. -/
def ofString (string : String) : Text :=
  ofChars string.toList

instance : Coe String Text := ⟨ofString⟩

/-- Texts that compare as equal are equal. -/
instance lawfulBEq : LawfulBEq Text := inferInstance

/-- The characters of a text, in which replacement characters stand for halves. -/
def characters (text : Text) : List Char :=
  text.flatMap Symbol.characters

/-- The string of a text, in which replacement characters stand for halves. -/
def toStringLossy (text : Text) : String :=
  String.ofList text.characters

/-- Whether a text holds half of a surrogate pair. -/
def hasHalf (text : Text) : Bool :=
  text.any Symbol.isHalf

/-- Whether a text is a part of another. -/
def isPartOf (part : Text) : Text -> Bool
  | [] => part.isEmpty
  | symbol :: rest => part.isPrefixOf (symbol :: rest) || isPartOf part rest

/-- Whether a text comes before another or is the same. -/
def le : (left right : Text) -> Bool
  | [], _ => true
  | _ :: _, [] => false
  | first :: left, second :: right =>
      first.code < second.code || first = second && le left right

theorem ofChars_inj {left right : List Char} : ofChars left = ofChars right ↔ left = right :=
  List.map_inj_right fun _ _ same => Symbol.char.inj same

/-- Characters are read back from their text. -/
@[simp] theorem characters_ofChars (given : List Char) : (ofChars given).characters = given := by
  induction given with
  | nil => rfl
  | cons c rest ih => simpa [characters, ofChars, Symbol.characters] using ih

/-- Texts of different strings differ. -/
@[simp] theorem ofString_inj {left right : String} :
    ofString left = ofString right ↔ left = right := by
  rw [ofString, ofString, ofChars_inj, String.toList_inj]

/-- A string is read back from its text. -/
@[simp] theorem toStringLossy_ofString (string : String) :
    (ofString string).toStringLossy = string := by
  simp [toStringLossy, ofString]

/-- A text comes before or after any other. -/
theorem le_total (left right : Text) : le left right = true ∨ le right left = true := by
  induction left generalizing right with
  | nil => simp [le]
  | cons first left ih =>
      cases right with
      | nil => simp [le]
      | cons second right =>
          rcases Nat.lt_trichotomy first.code second.code with less | same | more
          · simp [le, less]
          · have same := Symbol.code_inj.1 same
            subst same
            simpa [le] using ih right
          · simp [le, more]

/-- The order of texts is transitive. -/
theorem le_trans {first second third : Text} (lower : le first second = true)
    (upper : le second third = true) : le first third = true := by
  induction first generalizing second third with
  | nil => simp [le]
  | cons a first ih =>
      cases second with
      | nil => simp [le] at lower
      | cons b second =>
          cases third with
          | nil => simp [le] at upper
          | cons c third =>
              simp only [le, Bool.or_eq_true, Bool.and_eq_true, decide_eq_true_eq] at *
              rcases lower with less | ⟨rfl, lower⟩
              · rcases upper with less' | ⟨rfl, upper⟩
                · exact Or.inl (Nat.lt_trans less less')
                · exact Or.inl less
              · rcases upper with less' | ⟨rfl, upper⟩
                · exact Or.inl less'
                · exact Or.inr ⟨rfl, ih lower upper⟩

/-- Texts that come before one another are the same. -/
theorem le_antisymm {left right : Text} (lower : le left right = true)
    (upper : le right left = true) : left = right := by
  induction left generalizing right with
  | nil =>
      cases right with
      | nil => rfl
      | cons second right => simp [le] at upper
  | cons first left ih =>
      cases right with
      | nil => simp [le] at lower
      | cons second right =>
          simp only [le, Bool.or_eq_true, Bool.and_eq_true, decide_eq_true_eq] at *
          rcases lower with less | ⟨rfl, lower⟩
          · rcases upper with less' | ⟨rfl, upper⟩
            · omega
            · omega
          · rcases upper with less' | ⟨_, upper⟩
            · omega
            · rw [ih lower upper]

example : ("type" : Text) ≠ "name" := by decide
example : le "a/b" "a0" = true ∧ le "b" "ab" = false := by decide
example : Symbol.ofCode 0xD801 = .half 1 ∧ Symbol.ofCode 0x61 = 'a' := by decide

end Text
end EventSchema
