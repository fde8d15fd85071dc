import Calculator.Binary64

/-! Decimal numbers `coefficient * 10 ^ exponent` without a sign, and the double nearest to one. -/
namespace Calculator

structure Decimal where
  coefficient : Nat
  exponent : Int
deriving DecidableEq

namespace Decimal

/-- Moves trailing zeros of the coefficient into the exponent, so that each value has one form. -/
def normal (coefficient : Nat) (exponent : Int) : Decimal :=
  if h : coefficient = 0 then ⟨0, 0⟩
  else if coefficient % 10 = 0 then
    have : coefficient / 10 < coefficient := Nat.div_lt_self (by omega) (by decide)
    normal (coefficient / 10) (exponent + 1)
  else ⟨coefficient, exponent⟩
termination_by coefficient

/-- The bits of the nearest magnitude. The two guards answer for exponents so far out that the power
of ten need not be computed: from `10 ^ 310` all is infinite, and `coefficient < 2 ^ (log2 + 1)`
with `10 ^ k ≥ 2 ^ (3 * k)` leaves less than half of the smallest magnitude. -/
def nearestBits (d : Decimal) : Nat :=
  if d.coefficient = 0 then 0
  else
    match d.exponent with
    | .ofNat k =>
      if 310 ≤ k then Binary64.infinityBits else Binary64.nearest (d.coefficient * Nat.pow 10 k) 1
    | .negSucc k =>
      if d.coefficient.log2 + 1077 ≤ 3 * (k + 1) then 0
      else Binary64.nearest d.coefficient (Nat.pow 10 (k + 1))

def toFloat (negative : Bool) (d : Decimal) : Float :=
  Binary64.ofBits negative d.nearestBits

end Decimal
end Calculator
