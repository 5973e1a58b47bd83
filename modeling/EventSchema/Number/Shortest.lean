import EventSchema.Number.Binary64

namespace EventSchema
namespace Shortest

/-!
# The fewest decimal digits that read back

Of all decimals that round to a given binary64 number, the one with the fewest
digits is written, and of several with that many digits the nearest.  The
numbers that round to `mantissa * 2 ^ exponent` form an interval around it,
whose ends belong to it exactly when the mantissa is even.  On a grid of
decimals with `n` digits only the two neighbours of the number need a look: if
any point of the grid lies in the interval, one of them does.
-/

/-- Quantities in quarters of the unit in the last place: the number itself
and the two ends of the interval that rounds to it. -/
structure Interval where
  low : Nat
  middle : Nat
  high : Nat
  closed : Bool

/-- The interval around a positive mantissa.  Just above a power of two the
numbers below are twice as dense. -/
def interval (mantissa : Nat) (exponent : Int) : Interval where
  low :=
    if mantissa = twoTo (Binary64.precision - 1) && Binary64.minExponent < exponent then
      4 * mantissa - 1
    else 4 * mantissa - 2
  middle := 4 * mantissa
  high := 4 * mantissa + 2
  closed := mantissa % 2 = 0

/-- The two sides of a comparison of quarters with multiples of a power of ten:
`quarters * 2 ^ (exponent - 2)` against `digits * 10 ^ scale` compares as
`quarters * quarter` against `digits * unit`. -/
structure Grid where
  quarter : Nat
  unit : Nat

def grid (exponent scale : Int) : Grid where
  quarter := twoTo (exponent - 2).toNat * tenTo (-scale).toNat
  unit := twoTo (2 - exponent).toNat * tenTo scale.toNat

/-- Whether a point of the grid lies in the interval. -/
def covers (range : Interval) (mesh : Grid) (digits : Nat) : Bool :=
  let point := digits * mesh.unit
  let low := range.low * mesh.quarter
  let high := range.high * mesh.quarter
  if range.closed then low ≤ point && point ≤ high else low < point && point < high

/-- The point of the grid in the interval that is nearest to its middle, the
even one of two equally near. -/
def nearest? (range : Interval) (mesh : Grid) : Option Nat :=
  let middle := range.middle * mesh.quarter
  let below := middle / mesh.unit
  let above := below + 1
  match covers range mesh below, covers range mesh above with
  | false, false => none
  | true, false => some below
  | false, true => some above
  | true, true =>
      let down := middle - below * mesh.unit
      let up := above * mesh.unit - middle
      if down < up then some below
      else if up < down then some above
      else if below % 2 = 0 then some below else some above

/-- The exponent `e` with `10 ^ (e - 1) ≤ value < 10 ^ e`.  Every positive
number exceeds `10 ^ (-400)`. -/
def magnitude (mantissa : Nat) (exponent : Int) : Int :=
  let scaled := mantissa * tenTo 400 * twoTo exponent.toNat / twoTo (-exponent).toNat
  ((Nat.toDigits 10 scaled).length : Int) - 400

/-- Drop trailing zeros into the exponent; `fuel` bounds the number of digits. -/
def normalize : (fuel : Nat) -> Nat × Int -> Nat × Int
  | 0, decimal => decimal
  | fuel + 1, (digits, exponent) =>
      if digits % 10 = 0 && digits ≠ 0 then normalize fuel (digits / 10, exponent + 1)
      else (digits, exponent)

/-- The shortest decimal `digits * 10 ^ exponent` that rounds to a positive
number.  Seventeen digits always suffice. -/
def decimal (mantissa : Nat) (exponent : Int) : Nat × Int :=
  let size := magnitude mantissa exponent
  let range := interval mantissa exponent
  let found := (List.range 17).findSome? fun n =>
    let scale := size - ((n + 1 : Nat) : Int)
    (nearest? range (grid exponent scale)).map fun digits => (digits, scale)
  normalize 20 (found.getD (mantissa, exponent))

end Shortest

namespace Binary64

/-- Lay out `0.digits * 10 ^ point`: positionally, with at least one digit
after the point, when the leading digit stands between the fourth place after
the point and the sixteenth before it, and otherwise with an exponent of at
least two digits. -/
def layOut (digits : List Char) (point : Int) : List Char :=
  if -4 < point && point ≤ 16 then
    if point ≤ 0 then '0' :: '.' :: List.replicate (-point).toNat '0' ++ digits
    else if digits.length ≤ point.toNat then
      digits ++ List.replicate (point.toNat - digits.length) '0' ++ ['.', '0']
    else digits.take point.toNat ++ '.' :: digits.drop point.toNat
  else
    let power := point - 1
    let size := Nat.toDigits 10 power.natAbs
    let size := if size.length < 2 then '0' :: size else size
    let fraction := digits.drop 1
    digits.take 1 ++ (if fraction.isEmpty then [] else '.' :: fraction) ++
      'e' :: (if power < 0 then '-' else '+') :: size

/-- The text of a number: its shortest decimal, laid out; `inf`, `-inf` and
`nan` for the numbers that have none. -/
def text : Binary64 -> String
  | nan => "nan"
  | infinity negative => if negative then "-inf" else "inf"
  | finite negative mantissa exponent =>
      let sign := if negative then ['-'] else []
      if mantissa = 0 then String.ofList (sign ++ ['0', '.', '0'])
      else
        let (digits, scale) := Shortest.decimal mantissa exponent
        let row := Nat.toDigits 10 digits
        String.ofList (sign ++ layOut row (scale + row.length))

example : (ofDecimal false 1 (-1)).text = "0.1" := by decide +kernel
example : (ofDecimal true 25 15).text = "-2.5e+16" := by decide +kernel
example : (ofDecimal false 5 (-324)).text = "5e-324" := by decide +kernel

end Binary64
end EventSchema
