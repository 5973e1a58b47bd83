import EventSchema.Json.Reader
import EventSchema.Proofs.Number.Numeral
import Mathlib.Data.List.TakeWhile

namespace EventSchema
namespace Json

/-!
# Integers are read back

The text of an integer is a number without fraction and exponent.  The reader takes
as many digits as it finds, so what stands behind the number decides whether it
ends with its last digit.  Behind a value of a list or an object there is a comma
or a closing bracket, and nothing behind a value that stands alone.
-/

/-- A text that does not continue a number. -/
def EndsNumber (rest : Text) : Prop :=
  ∀ symbol ∈ rest.head?,
    Text.isAsciiDigit symbol = false ∧ symbol ≠ '.' ∧ symbol ≠ 'e' ∧ symbol ≠ 'E'

theorem endsNumber_cons {symbol : Symbol} {rest : Text}
    (other : Text.isAsciiDigit symbol = false ∧ symbol ≠ '.' ∧ symbol ≠ 'e' ∧ symbol ≠ 'E') :
    EndsNumber (symbol :: rest) := by
  intro first head
  cases head
  exact other

/-- The decimal digits of a number, without leading zeros. -/
def decimals (magnitude : Nat) : Text :=
  Text.ofChars (Nat.toDigits 10 magnitude)

/-! ## The digits of a number -/

theorem isAsciiDigit_of_isDigit {c : Char} (digit : c.isDigit = true) :
    Text.isAsciiDigit (.char c) = true := by
  simp only [Char.isDigit, Bool.and_eq_true, decide_eq_true_eq] at digit
  have within : ('0'.toNat ≤ c.toNat && c.toNat ≤ '9'.toNat) = true := by
    rw [Bool.and_eq_true, decide_eq_true_eq, decide_eq_true_eq]
    exact digit
  rw [Text.isAsciiDigit, Text.asciiDigitValue?, Symbol.code, if_pos within]
  rfl

theorem ne_of_isAsciiDigit {digit other : Symbol} (decimal : Text.isAsciiDigit digit = true)
    (odd : Text.isAsciiDigit other = false) : digit ≠ other := by
  rintro rfl
  rw [odd] at decimal
  cases decimal

theorem isAsciiDigit_decimals (magnitude : Nat) :
    ∀ symbol ∈ decimals magnitude, Text.isAsciiDigit symbol = true := by
  intro symbol member
  rcases List.mem_map.1 member with ⟨c, written, rfl⟩
  exact isAsciiDigit_of_isDigit (Nat.isDigit_of_mem_toDigits (by decide) (by decide) written)

/-- Every number has a first digit. -/
theorem exists_decimals_eq_digit (magnitude : Nat) :
    ∃ digit others, decimals magnitude = digit :: others ∧ Text.isAsciiDigit digit = true := by
  cases same : decimals magnitude with
  | nil => exact absurd (List.map_eq_nil_iff.1 same) Nat.toDigits_ne_nil
  | cons digit others =>
      have decimal := isAsciiDigit_decimals magnitude
      rw [same] at decimal
      exact ⟨digit, others, rfl, decimal digit List.mem_cons_self⟩

/-- A number other than zero starts with a digit other than zero. -/
theorem exists_decimals_eq_cons {magnitude : Nat} (positive : 0 < magnitude) :
    ∃ first others, decimals magnitude = .char first :: others ∧ first ≠ '0' := by
  induction magnitude using Nat.strongRecOn with
  | ind magnitude ih =>
      rcases Nat.lt_or_ge magnitude 10 with small | large
      · have lead : forall digit : Fin 10, 0 < digit.val -> digit.val.digitChar ≠ '0' := by decide
        rw [decimals, Nat.toDigits_of_lt_base small]
        exact ⟨_, _, rfl, lead ⟨magnitude, small⟩ positive⟩
      · rcases ih (magnitude / 10) (by omega) (by omega) with ⟨first, others, starts, lead⟩
        rw [decimals] at starts
        rw [decimals, Nat.toDigits_of_base_le (by decide) large, Text.ofChars, List.map_append,
          ← Text.ofChars, starts]
        exact ⟨_, _, rfl, lead⟩

/-- The digits of a number have its value. -/
theorem digitsValue_decimals (magnitude : Nat) : digitsValue (decimals magnitude) = magnitude := by
  rw [digitsValue, decimals, Text.ofChars, List.map_map, Numeral.ofDigits, List.foldl_map]
  exact (Nat.ofDigitChars_eq_foldl).symm.trans Nat.ofDigitChars_ten_toDigits

/-- A number below a power of ten has no more digits than its exponent says. -/
theorem length_decimals_le {magnitude limit : Nat} (some : 0 < limit)
    (small : magnitude < tenTo limit) : (decimals magnitude).length ≤ limit := by
  rw [decimals, Text.ofChars, List.length_map]
  exact (Nat.length_toDigits_le_iff (by decide) some).2 small

/-! ## Splitting a number off -/

/-- Of digits with such a text behind them, exactly the digits are taken. -/
theorem EndsNumber.takeWhile_append {rest digits : Text} (ends : EndsNumber rest)
    (decimal : ∀ symbol ∈ digits, Text.isAsciiDigit symbol = true) :
    (digits ++ rest).takeWhile Text.isAsciiDigit = digits ∧
      (digits ++ rest).dropWhile Text.isAsciiDigit = rest := by
  rw [List.takeWhile_append_of_pos decimal, List.dropWhile_append_of_pos decimal]
  cases rest with
  | nil => simp
  | cons symbol rest =>
      have other := (ends symbol rfl).1
      simp [other]

/-- All digits of a number are split off, whether it is zero or not. -/
theorem splitWhole?_decimals {rest : Text} (ends : EndsNumber rest) (magnitude : Nat) :
    splitWhole? (decimals magnitude ++ rest) = some (decimals magnitude, rest) := by
  -- A zero in front ends the number for the reader, so zero is a case of its own.
  rcases Nat.eq_zero_or_pos magnitude with rfl | positive
  · rfl
  have ⟨taken, dropped⟩ := ends.takeWhile_append (isAsciiDigit_decimals magnitude)
  rcases exists_decimals_eq_cons positive with ⟨first, others, starts, lead⟩
  rw [starts] at taken dropped ⊢
  rw [List.cons_append] at taken dropped ⊢
  rw [splitWhole?]
  · simp only [taken, dropped]
    rfl
  · exact fun _ same => lead (Symbol.char.inj (List.cons.inj same).1)

theorem EndsNumber.splitFraction {rest : Text} (ends : EndsNumber rest) :
    splitFraction rest = ([], rest) := by
  unfold Json.splitFraction
  split
  · exact absurd rfl (ends _ rfl).2.1
  · rfl

theorem EndsNumber.splitExponent {rest : Text} (ends : EndsNumber rest) :
    splitExponent rest = (none, rest) := by
  unfold Json.splitExponent
  split
  · next mark rest =>
      rcases (ends mark rfl).2.2 with ⟨lower, upper⟩
      simp [lower, upper]
  · rfl

/-! ## Integers -/

/-- The sign of an integer as it is written. -/
def signText (value : Int) : Text :=
  if value < 0 then ['-'] else []

/-- The text of an integer is its sign and the digits of its magnitude. -/
theorem ofString_toString (value : Int) :
    Text.ofString (toString value) = signText value ++ decimals value.natAbs := by
  rw [Text.ofString, Numeral.toList_toString, signText]
  by_cases negative : value < 0
  · have magnitude : (-value).toNat = value.natAbs := by omega
    rw [if_neg (by omega), if_pos negative, magnitude]
    rfl
  · have magnitude : value.toNat = value.natAbs := by omega
    rw [if_pos (by omega), if_neg negative, magnitude]
    rfl

/-- The text of an integer is split off as a sign and digits alone. -/
theorem splitNumber?_toString {rest : Text} (ends : EndsNumber rest) (value : Int) :
    splitNumber? (Text.ofString (toString value) ++ rest) =
      some (⟨value < 0, decimals value.natAbs, [], none⟩, rest) := by
  have whole := splitWhole?_decimals ends value.natAbs
  rw [ofString_toString, signText]
  by_cases negative : value < 0
  · rw [if_pos negative]
    change splitNumber? (.char '-' :: (decimals value.natAbs ++ rest)) = _
    simp [splitNumber?, whole, ends.splitFraction, ends.splitExponent, negative]
  · rcases exists_decimals_eq_digit value.natAbs with ⟨digit, others, starts, decimal⟩
    rw [if_neg negative, List.nil_append]
    unfold splitNumber?
    split
    next signed =>
      split at signed
      · next same =>
          rw [starts] at same
          exact absurd (List.cons.inj same).1 (ne_of_isAsciiDigit decimal rfl)
      · cases signed
        simp [whole, ends.splitFraction, ends.splitExponent, negative]

/-- No word starts like a number. -/
theorem readAtom_of_digit {digit : Symbol} (decimal : Text.isAsciiDigit digit = true) (rest : Text) :
    readAtom (digit :: rest) = readNumber (digit :: rest) ∧
      readAtom (.char '-' :: digit :: rest) = readNumber (.char '-' :: digit :: rest) := by
  have letter : forall c : Char, Text.isAsciiDigit c = false -> Symbol.char c ≠ digit :=
    fun _ odd => (ne_of_isAsciiDigit decimal odd).symm
  have noWord : forall text : Text, (words.find? fun word => word.1.isPrefixOf text) = none ->
      readAtom text = readNumber text := by
    intro text none
    rw [readAtom, none]
  refine ⟨noWord _ ?_, noWord _ ?_⟩
  all_goals
    simp [words, Text.ofString, Text.ofChars, letter 'n' rfl, letter 't' rfl, letter 'f' rfl,
      letter 'N' rfl, letter 'I' rfl, letter '-' rfl]

/-- An integer within the limit is read back from its text. -/
theorem readAtom_toString {rest : Text} (ends : EndsNumber rest) {value : Int}
    (writable : Numeral.writable value = true) :
    readAtom (Text.ofString (toString value) ++ rest) = .ok (.int value, rest) := by
  have number : readAtom (Text.ofString (toString value) ++ rest) =
      readNumber (Text.ofString (toString value) ++ rest) := by
    rcases exists_decimals_eq_digit value.natAbs with ⟨digit, others, starts, decimal⟩
    rw [ofString_toString, signText, starts]
    split
    · exact (readAtom_of_digit decimal _).2
    · exact (readAtom_of_digit decimal _).1
  have within := length_decimals_le (by decide) ((Numeral.writable_iff value).1 writable)
  have signed : Numeral.signed (value < 0) value.natAbs = value := by
    simp only [Numeral.signed, decide_eq_true_eq]
    split <;> omega
  rw [number, readNumber, splitNumber?_toString ends]
  simp [NumberText.value, within, digitsValue_decimals, signed]

end Json
end EventSchema
