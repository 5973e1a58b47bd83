import EventSchema.Number.Numeral
import EventSchema.Proofs.Outcomes

namespace EventSchema
namespace Numeral

/-!
# Integers that can be written

Whatever is read from a row of digits within the limit can be written again, and
what is written tells integers apart.
-/

/-- The value of a row of decimal digits is below the power of its length. -/
theorem ofDigits_lt {digits : List Nat} (decimal : ∀ digit ∈ digits, digit ≤ 9) :
    ofDigits digits < tenTo digits.length := by
  have bounded : forall (rest : List Nat) (total : Nat), (∀ digit ∈ rest, digit ≤ 9) ->
      rest.foldl (fun total digit => 10 * total + digit) total + 1 ≤
        (total + 1) * tenTo rest.length := by
    intro rest
    induction rest with
    | nil =>
        intro total _
        simp [tenTo]
    | cons digit rest ih =>
        intro total decimal
        have small := decimal digit List.mem_cons_self
        have later := ih (10 * total + digit) fun other member =>
          decimal other (List.mem_cons_of_mem _ member)
        calc (digit :: rest).foldl (fun total digit => 10 * total + digit) total + 1
            ≤ (10 * total + digit + 1) * tenTo rest.length := later
          _ ≤ ((total + 1) * 10) * tenTo rest.length := by
              exact Nat.mul_le_mul_right _ (by omega)
          _ = (total + 1) * tenTo (digit :: rest).length := by
              rw [List.length_cons, tenTo_succ, Nat.mul_assoc]
  have total := bounded digits 0 decimal
  rw [Nat.zero_add, Nat.one_mul] at total
  exact total

theorem writable_iff (value : Int) : writable value = true ↔ value.natAbs < tenTo digitLimit := by
  rw [writable, decide_eq_true_iff]

theorem natAbs_signed (negative : Bool) (magnitude : Nat) :
    (signed negative magnitude).natAbs = magnitude := by
  cases negative <;> simp [signed]

theorem tenTo_le_tenTo {lower upper : Nat} (less : lower ≤ upper) : tenTo lower ≤ tenTo upper :=
  Nat.pow_le_pow_right (by decide) less

/-- An integer of at most as many digits as the limit can be written. -/
theorem writable_signed_ofDigits (negative : Bool) {digits : List Nat}
    (decimal : ∀ digit ∈ digits, digit ≤ 9) (within : digits.length ≤ digitLimit) :
    writable (signed negative (ofDigits digits)) = true := by
  rw [writable_iff, natAbs_signed]
  exact Nat.lt_of_lt_of_le (ofDigits_lt decimal) (tenTo_le_tenTo within)

theorem asciiDigitValue_le {symbol : Symbol} {digit : Nat}
    (read : Text.asciiDigitValue? symbol = some digit) : digit ≤ 9 := by
  unfold Text.asciiDigitValue? at read
  split at read
  · next within =>
      cases read
      simp only [Bool.and_eq_true, decide_eq_true_eq] at within
      have upper : symbol.code ≤ 57 := within.2
      change symbol.code - 48 ≤ 9
      omega
  · cases read

theorem plainDigits?_le {row : Text} {digits : List Nat}
    (read : plainDigits? row = some digits) : ∀ digit ∈ digits, digit ≤ 9 := by
  intro digit member
  rcases Outcome.exists_of_mem_right (Outcome.mapM_eq_some_iff.mp read) digit member with
    ⟨symbol, _, value⟩
  exact asciiDigitValue_le value

theorem writable_of_readPlain? {text : Text} {value : Int} (read : readPlain? text = some value) :
    writable value = true := by
  unfold readPlain? at read
  simp only [Option.bind_eq_bind, Option.bind_eq_some_iff] at read
  rcases read with ⟨digits, plain, read⟩
  split at read
  · cases read
  · cases read
  · split at read
    · next within =>
        cases read
        exact writable_signed_ofDigits _ (plainDigits?_le plain) within
    · cases read

/-- An integer field is only read from an integer that can be written. -/
theorem writable_of_readField {text : Text} {value : Int} (read : readField text = .ok value) :
    writable value = true := by
  unfold readField at read
  split at read
  · cases read
  split at read
  · cases read
  split at read
  · next plain =>
      cases read
      rcases Option.bind_eq_some_iff.mp plain with ⟨row, _, plain⟩
      exact writable_of_readPlain? plain
  · cases read

theorem write?_eq_some_iff {value : Int} {text : Text} :
    write? value = some text ↔ writable value = true ∧ text = toString value := by
  unfold write?
  split
  · next holds => simp [holds, eq_comm]
  · next fails => simp [fails]

/-! ## The text of an integer -/

/-- The characters of the text of an integer. -/
theorem toList_toString (value : Int) :
    (toString value).toList =
      if 0 ≤ value then Nat.toDigits 10 value.toNat else '-' :: Nat.toDigits 10 (-value).toNat := by
  rw [Int.toString_eq_repr, Int.repr_eq_if]
  split
  · exact Nat.toList_repr
  · simp [Nat.toList_repr]

theorem toDigits_injective {left right : Nat}
    (same : Nat.toDigits 10 left = Nat.toDigits 10 right) : left = right := by
  rw [← @Nat.ofDigitChars_ten_toDigits left, same, Nat.ofDigitChars_ten_toDigits]

theorem minus_not_mem_toDigits (value : Nat) : '-' ∉ Nat.toDigits 10 value := by
  intro member
  have digit := Nat.isDigit_of_mem_toDigits (by decide) (by decide) member
  revert digit
  decide

/-- Integers with the same text are the same. -/
theorem toString_text_inj {left right : Int} :
    (toString left : Text) = toString right ↔ left = right := by
  refine ⟨fun same => ?_, fun same => same ▸ rfl⟩
  have characters := congrArg String.toList (Text.ofString_inj.mp same)
  rw [toList_toString, toList_toString] at characters
  split at characters <;> split at characters
  · have magnitudes := toDigits_injective characters
    omega
  · exact absurd (characters ▸ List.mem_cons_self) (minus_not_mem_toDigits left.toNat)
  · exact absurd (characters ▸ List.mem_cons_self) (minus_not_mem_toDigits right.toNat)
  · have magnitudes := toDigits_injective (List.cons.inj characters).2
    omega

end Numeral
end EventSchema
