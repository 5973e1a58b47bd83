import EventSchema.Number.Binary64
import Mathlib.Algebra.Order.Field.Rat
import Mathlib.Tactic.Ring

namespace EventSchema
namespace Binary64

/-!
# Numbers in canonical form

A finite number is a mantissa times a power of two, and the canonical form settles
which of the many such products is meant: no two canonical forms have the same value
(`Canonical.unique`).  Whatever is read from decimal text is in that form, as the exponent
is chosen so that the quotient lies between two neighbouring powers of two.

Quotients and powers with a negative exponent are compared as rational numbers.
-/

variable {numerator denominator : Nat}

theorem cast_twoTo (exponent : Nat) : ((twoTo exponent : Nat) : Rat) = 2 ^ exponent :=
  Nat.cast_pow 2 exponent

theorem twoTo_pos (exponent : Nat) : 0 < twoTo exponent :=
  Nat.pow_pos (by decide)

theorem tenTo_pos (exponent : Nat) : 0 < tenTo exponent :=
  Nat.pow_pos (by decide)

/-! ## Rounding -/

/-- Rounding goes to one of the two integers next to a quotient. -/
theorem roundHalfEven_eq_or (numerator denominator : Nat) :
    roundHalfEven numerator denominator = numerator / denominator ∨
      roundHalfEven numerator denominator = numerator / denominator + 1 := by
  unfold roundHalfEven
  dsimp only
  split
  · exact Or.inl rfl
  · split
    · exact Or.inr rfl
    · split
      · exact Or.inl rfl
      · exact Or.inr rfl

theorem le_roundHalfEven {bound : Nat} (positive : 0 < denominator)
    (lower : bound * denominator ≤ numerator) : bound ≤ roundHalfEven numerator denominator := by
  have quotient : bound ≤ numerator / denominator := (Nat.le_div_iff_mul_le positive).mpr lower
  rcases roundHalfEven_eq_or numerator denominator with same | same
  · rwa [same]
  · rw [same]
    exact Nat.le_succ_of_le quotient

theorem roundHalfEven_le {bound : Nat} (positive : 0 < denominator)
    (upper : numerator < bound * denominator) : roundHalfEven numerator denominator ≤ bound := by
  have quotient : numerator / denominator < bound := (Nat.div_lt_iff_lt_mul positive).mpr upper
  rcases roundHalfEven_eq_or numerator denominator with same | same
  · rw [same]
    exact Nat.le_of_lt quotient
  · rwa [same]

/-! ## Scaling -/

/-- One of the two powers is one, so a quotient is scaled on one side only. -/
theorem scaledQuotient_eq (numerator denominator : Nat) (shift : Int) :
    scaledQuotient numerator denominator shift =
      roundHalfEven (numerator * twoTo (-shift).toNat) (denominator * twoTo shift.toNat) := by
  unfold scaledQuotient
  by_cases positive : 0 ≤ shift
  · have none : (-shift).toNat = 0 := by omega
    rw [if_pos positive, none]
    exact congrArg (roundHalfEven · _) (Nat.mul_one numerator).symm
  · have none : shift.toNat = 0 := by omega
    rw [if_neg positive, none]
    exact congrArg (roundHalfEven _) (Nat.mul_one denominator).symm

/-- Comparing after scaling is comparing with the scaled bound. -/
theorem scaled_lt_iff {bound : Nat} {shift : Int} :
    numerator * twoTo (-shift).toNat < bound * twoTo shift.toNat ↔
      (numerator : Rat) < bound * 2 ^ shift := by
  have powers : (2 : Rat) ^ shift = twoTo shift.toNat / twoTo (-shift).toNat := by
    rw [cast_twoTo, cast_twoTo, ← zpow_natCast, ← zpow_natCast, ← zpow_sub₀ two_ne_zero]
    congr 1
    omega
  have positive : (0 : Rat) < twoTo (-shift).toNat := Nat.cast_pos.mpr (twoTo_pos _)
  rw [powers, ← mul_div_assoc, lt_div_iff₀ positive]
  exact_mod_cast Iff.rfl

theorem le_scaled_iff {bound : Nat} {shift : Int} :
    bound * twoTo shift.toNat ≤ numerator * twoTo (-shift).toNat ↔
      (bound : Rat) * 2 ^ shift ≤ numerator := by
  rw [← not_lt, scaled_lt_iff, not_lt]

/-! ## The exponent of a quotient -/

/-- A quotient is known from the numbers of bits up to a factor of two on either side. -/
theorem quotient_bounds (given : numerator ≠ 0) (positive : denominator ≠ 0) :
    (denominator : Rat) * 2 ^ ((numerator.log2 : Int) - denominator.log2 - 1) < numerator ∧
      (numerator : Rat) < denominator * 2 ^ ((numerator.log2 : Int) - denominator.log2 + 1) := by
  have power : forall (size : Nat) (shift : Int),
      (2 : Rat) ^ size * 2 ^ shift = 2 ^ ((size : Int) + shift) := by
    intro size shift
    rw [zpow_add₀ two_ne_zero, zpow_natCast]
  constructor
  · have upper : (denominator : Rat) < 2 ^ (denominator.log2 + 1) := by
      exact_mod_cast Nat.lt_log2_self
    calc (denominator : Rat) * 2 ^ ((numerator.log2 : Int) - denominator.log2 - 1)
        < 2 ^ (denominator.log2 + 1) * 2 ^ ((numerator.log2 : Int) - denominator.log2 - 1) := by
          exact mul_lt_mul_of_pos_right upper (zpow_pos two_pos _)
      _ = 2 ^ numerator.log2 := by
          rw [power, ← zpow_natCast]
          congr 1
          push_cast
          ring
      _ ≤ numerator := by exact_mod_cast Nat.log2_self_le given
  · have lower : (2 : Rat) ^ denominator.log2 ≤ denominator := by
      exact_mod_cast Nat.log2_self_le positive
    calc (numerator : Rat) < 2 ^ (numerator.log2 + 1) := by exact_mod_cast Nat.lt_log2_self
      _ = 2 ^ denominator.log2 * 2 ^ ((numerator.log2 : Int) - denominator.log2 + 1) := by
          rw [power, ← zpow_natCast]
          congr 1
          push_cast
          ring
      _ ≤ denominator * 2 ^ ((numerator.log2 : Int) - denominator.log2 + 1) := by
          exact mul_le_mul_of_nonneg_right lower (zpow_pos two_pos _).le

/-- What the exponent of a quotient is for: the mantissa has at most the bits of the format,
and it has all of them unless the exponent is the least. -/
structure Scales (numerator denominator : Nat) (exponent : Int) : Prop where
  least : minExponent ≤ exponent
  below : (numerator : Rat) < (twoTo precision * denominator : Nat) * 2 ^ exponent
  full : (twoTo (precision - 1) * denominator : Nat) * (2 : Rat) ^ exponent ≤ numerator ∨
    exponent = minExponent

/-- A larger exponent makes the mantissa smaller, so the least exponent may take the place
of one that is too small. -/
theorem Scales.of_max {exponent : Int}
    (below : (numerator : Rat) < (twoTo precision * denominator : Nat) * 2 ^ exponent)
    (full : (twoTo (precision - 1) * denominator : Nat) * (2 : Rat) ^ exponent ≤ numerator) :
    Scales numerator denominator (max minExponent exponent) where
  least := le_max_left _ _
  below := by
    have larger : (2 : Rat) ^ exponent ≤ 2 ^ max minExponent exponent :=
      zpow_le_zpow_right₀ one_le_two (le_max_right _ _)
    exact below.trans_le (mul_le_mul_of_nonneg_left larger (Nat.cast_nonneg _))
  full := by
    rcases le_total minExponent exponent with lower | upper
    · rw [max_eq_right lower]
      exact Or.inl full
    · exact Or.inr (max_eq_left upper)

/-- Whether a quotient has a full mantissa at an exponent, as it is tested. -/
theorem full_iff {exponent : Int} :
    (if 0 ≤ exponent then decide (denominator * twoTo exponent.toNat * twoTo 52 ≤ numerator)
      else decide (denominator * twoTo 52 ≤ numerator * twoTo (-exponent).toNat)) = true ↔
        (twoTo 52 * denominator : Nat) * (2 : Rat) ^ exponent ≤ numerator := by
  rw [← le_scaled_iff, Nat.mul_comm (twoTo 52)]
  split
  · next positive =>
      have none : (-exponent).toNat = 0 := by omega
      rw [decide_eq_true_iff, none, Nat.mul_right_comm]
      exact iff_of_eq (congrArg (_ ≤ ·) (Nat.mul_one numerator).symm)
  · next negative =>
      have none : exponent.toNat = 0 := by omega
      rw [decide_eq_true_iff, none]
      exact iff_of_eq (congrArg (· ≤ _) (Nat.mul_one (denominator * twoTo 52)).symm)

theorem scales_exponentOf (given : numerator ≠ 0) (positive : denominator ≠ 0) :
    Scales numerator denominator (exponentOf numerator denominator) := by
  rcases quotient_bounds given positive with ⟨lower, upper⟩
  have scaled : forall {size : Nat} {shift total : Int}, (size : Int) + shift = total ->
      ((twoTo size * denominator : Nat) : Rat) * 2 ^ shift = denominator * 2 ^ total := by
    rintro size shift _ rfl
    rw [zpow_add₀ two_ne_zero, zpow_natCast, Nat.cast_mul, cast_twoTo, mul_left_comm, mul_assoc]
  have bits : (precision : Int) = 53 := rfl
  have fewer : ((precision - 1 : Nat) : Int) = 52 := rfl
  unfold exponentOf
  dsimp only
  rw [if_congr full_iff rfl rfl]
  generalize guessed : (numerator.log2 : Int) - denominator.log2 - 52 = guess
  split
  · next full =>
      refine Scales.of_max ?_ full
      rwa [scaled (show _ = (numerator.log2 : Int) - denominator.log2 + 1 by omega)]
  · next small =>
      refine Scales.of_max ?_ ?_
      · rw [scaled (show _ = (52 : Nat) + guess by omega), ← scaled rfl]
        exact not_le.mp small
      · rw [scaled (show _ = (numerator.log2 : Int) - denominator.log2 - 1 by omega)]
        exact lower.le

/-! ## Canonical form -/

/-- Rounding may carry into one bit more than the format has, and no further. -/
theorem Scales.scaledQuotient_le {exponent : Int} (scales : Scales numerator denominator exponent)
    (positive : 0 < denominator) :
    scaledQuotient numerator denominator exponent ≤ twoTo precision := by
  rw [scaledQuotient_eq]
  refine roundHalfEven_le (Nat.mul_pos positive (twoTo_pos _)) ?_
  rw [← Nat.mul_assoc]
  exact scaled_lt_iff.mpr scales.below

theorem Scales.le_scaledQuotient_or {exponent : Int}
    (scales : Scales numerator denominator exponent) (positive : 0 < denominator) :
    twoTo (precision - 1) ≤ scaledQuotient numerator denominator exponent ∨
      exponent = minExponent := by
  refine scales.full.imp_left fun reaches => ?_
  rw [scaledQuotient_eq]
  refine le_roundHalfEven (Nat.mul_pos positive (twoTo_pos _)) ?_
  rw [← Nat.mul_assoc]
  exact le_scaled_iff.mpr reaches

theorem canonical_ofQuotient (negative : Bool) (numerator : Nat) (positive : 0 < denominator) :
    (ofQuotient negative numerator denominator).Canonical := by
  unfold ofQuotient
  split
  · exact ⟨twoTo_pos precision, le_rfl, by decide, Or.inr rfl⟩
  · next given =>
      have scales := scales_exponentOf given positive.ne'
      have below := scales.scaledQuotient_le positive
      have full := scales.le_scaledQuotient_or positive
      dsimp only
      generalize scaledQuotient numerator denominator (exponentOf numerator denominator) =
        mantissa at below full
      by_cases carried : mantissa = twoTo precision
      · simp only [carried, decide_true, if_true]
        split
        · trivial
        · next within =>
            refine ⟨by decide, ?_, not_lt.mp within, Or.inl le_rfl⟩
            exact Int.le_add_one scales.least
      · simp only [carried, decide_false, Bool.false_eq_true, if_false]
        split
        · trivial
        · next within =>
            exact ⟨lt_of_le_of_ne below carried, scales.least, not_lt.mp within, full⟩

/-- What is read from decimal text is in canonical form. -/
theorem canonical_ofDecimal (negative : Bool) (digits : Nat) (exponent : Int) :
    (ofDecimal negative digits exponent).Canonical := by
  unfold ofDecimal
  dsimp only
  split
  · exact ⟨twoTo_pos precision, le_rfl, by decide, Or.inr rfl⟩
  · split
    · trivial
    · split
      · exact canonical_ofQuotient negative _ Nat.one_pos
      · exact canonical_ofQuotient negative digits (tenTo_pos _)

/-- A finite number has one canonical form: the value determines mantissa and exponent. -/
theorem Canonical.unique {negative : Bool} {mantissa other : Nat} {exponent shift : Int}
    (first : (finite negative mantissa exponent).Canonical)
    (second : (finite negative other shift).Canonical)
    (same : (mantissa : Rat) * 2 ^ exponent = other * 2 ^ shift) :
    finite negative mantissa exponent = finite negative other shift := by
  wlog lower : exponent ≤ shift generalizing mantissa other exponent shift
  · exact (this second first same.symm (le_of_not_ge lower)).symm
  rcases first with ⟨small, least, -, -⟩
  rcases second with ⟨-, -, -, full⟩
  obtain ⟨further, rfl⟩ : ∃ further : Nat, shift = exponent + further :=
    ⟨(shift - exponent).toNat, by omega⟩
  have scaled : mantissa = other * 2 ^ further := by
    rw [zpow_add₀ two_ne_zero, mul_left_comm, mul_comm, zpow_natCast] at same
    exact_mod_cast mul_left_cancel₀ (zpow_ne_zero exponent two_ne_zero) same
  cases further with
  | zero => simp [scaled]
  | succ further =>
      -- A full mantissa cannot be shifted up, and the least exponent is not above another.
      rcases full with full | above
      · exfalso
        have doubled : twoTo precision ≤ other * 2 ^ (further + 1) := by
          calc twoTo precision = twoTo (precision - 1) * 2 := by decide
            _ ≤ other * 2 ^ (further + 1) := by
              refine Nat.mul_le_mul full ?_
              rw [pow_succ]
              exact Nat.le_mul_of_pos_left 2 (Nat.pow_pos two_pos)
        omega
      · omega

end Binary64
end EventSchema
