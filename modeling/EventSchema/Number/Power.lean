namespace EventSchema

/-!
# Powers of two and ten

The bases of binary and of decimal notation.
-/

/-- A power of two. -/
def twoTo (exponent : Nat) : Nat :=
  Nat.pow 2 exponent

/-- A power of ten. -/
def tenTo (exponent : Nat) : Nat :=
  Nat.pow 10 exponent

theorem tenTo_succ (exponent : Nat) : tenTo (exponent + 1) = 10 * tenTo exponent :=
  Nat.mul_comm (tenTo exponent) 10

end EventSchema
