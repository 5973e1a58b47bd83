import EventSchema.Number.Power

namespace EventSchema

/-!
# Binary floating-point numbers of 64 bits

A number with a fraction or an exponent is kept in the format binary64 and
nothing is ever computed with it: it is read from decimal text, tested for
being zero or an integer, and written again.  The type therefore holds the
value itself, a signed mantissa times a power of two, and no bit fields.
-/

/-- A binary64 number.  A finite one is `± mantissa * 2 ^ exponent`; zero has
both signs. -/
inductive Binary64 where
  | nan
  | infinity (negative : Bool)
  | finite (negative : Bool) (mantissa : Nat) (exponent : Int)
  deriving DecidableEq, Repr, Inhabited

namespace Binary64

/-- The number of bits of a mantissa. -/
def precision : Nat := 53

/-- The exponent of the smallest positive number. -/
def minExponent : Int := -1074

/-- The exponent of the largest finite numbers. -/
def maxExponent : Int := 971

/-- The form each finite number has exactly once: a full mantissa, or a
smaller one at the least exponent. -/
def Canonical : Binary64 -> Prop
  | nan => True
  | infinity _ => True
  | finite _ mantissa exponent =>
      mantissa < twoTo precision ∧ minExponent ≤ exponent ∧ exponent ≤ maxExponent ∧
        (twoTo (precision - 1) ≤ mantissa ∨ exponent = minExponent)

/-- The integer nearest to a quotient, the even one of two equally near. -/
def roundHalfEven (numerator denominator : Nat) : Nat :=
  let quotient := numerator / denominator
  let twice := 2 * (numerator % denominator)
  if twice < denominator then quotient
  else if denominator < twice then quotient + 1
  else if quotient % 2 = 0 then quotient else quotient + 1

/-- The quotient `numerator / denominator * 2 ^ (-shift)`, rounded. -/
def scaledQuotient (numerator denominator : Nat) (shift : Int) : Nat :=
  if 0 ≤ shift then roundHalfEven numerator (denominator * twoTo shift.toNat)
  else roundHalfEven (numerator * twoTo (-shift).toNat) denominator

/-- The exponent at which a positive quotient has a full mantissa, or the least
one. -/
def exponentOf (numerator denominator : Nat) : Int :=
  let guess : Int := (numerator.log2 : Int) - denominator.log2 - 52
  let full : Bool :=
    if 0 ≤ guess then denominator * twoTo guess.toNat * twoTo 52 ≤ numerator
    else denominator * twoTo 52 ≤ numerator * twoTo (-guess).toNat
  max minExponent (if full then guess else guess - 1)

/-- The number nearest to a quotient, ties to even; infinite when the quotient
is too large. -/
def ofQuotient (negative : Bool) (numerator denominator : Nat) : Binary64 :=
  if numerator = 0 then finite negative 0 minExponent
  else
    let exponent := exponentOf numerator denominator
    let mantissa := scaledQuotient numerator denominator exponent
    let carried : Bool := mantissa = twoTo precision
    let mantissa := if carried then twoTo (precision - 1) else mantissa
    let exponent := if carried then exponent + 1 else exponent
    if maxExponent < exponent then infinity negative
    else finite negative mantissa exponent

/-- The number nearest to `± digits * 10 ^ exponent`.  Quotients far outside
the range of the format are settled by their size alone, so that a huge
exponent costs nothing. -/
def ofDecimal (negative : Bool) (digits : Nat) (exponent : Int) : Binary64 :=
  let size : Int := (Nat.toDigits 10 digits).length + exponent
  if digits = 0 || size < -330 then finite negative 0 minExponent
  else if 310 < size then infinity negative
  else if 0 ≤ exponent then ofQuotient negative (digits * tenTo exponent.toNat) 1
  else ofQuotient negative digits (tenTo (-exponent).toNat)

/-- Whether the number is neither infinite nor a NaN. -/
def isFinite : Binary64 -> Bool
  | finite .. => true
  | _ => false

/-- Whether the number is a zero of either sign. -/
def isZero : Binary64 -> Bool
  | finite _ mantissa _ => mantissa = 0
  | _ => false

/-- The value of a finite number without a fraction. -/
def toInt? : Binary64 -> Option Int
  | finite negative mantissa exponent =>
      let magnitude? : Option Nat :=
        if 0 ≤ exponent then some (mantissa * twoTo exponent.toNat)
        else if mantissa % twoTo (-exponent).toNat = 0 then
          some (mantissa / twoTo (-exponent).toNat)
        else none
      magnitude?.map fun magnitude => if negative then -(magnitude : Int) else magnitude
  | _ => none

example : ofDecimal false 15 (-1) = finite false (3 * twoTo 51) (-52) := by decide +kernel
example : (ofDecimal true 7 0).toInt? = some (-7) := by decide +kernel
example : ofDecimal false 1 400 = infinity false := by decide +kernel

end Binary64
end EventSchema
