import Calculator.Decimal

/-! The fewest digits that read back to a given double. For one digit, two digits and so on, only
the two neighbours of the value on the grid of that many digits can be the answer. -/
namespace Calculator

/-- Which neighbour is taken when the value lies exactly halfway between the two. -/
inductive Tie where
  | up
  | even
deriving DecidableEq

namespace Decimal

def exact (bits : Nat) : Decimal := ⟨Binary64.units bits * Nat.pow 5 1074, -1074⟩

/-- The power of ten of the leading digit. No positive double is below `4 * 10 ^ (-324)`. -/
def leadingExponent (bits : Nat) : Int :=
  (Nat.toDigits 10 (Binary64.units bits * Nat.pow 10 324 / Binary64.unitsPerOne)).length - 325

/-- The value over `10 ^ exponent`, as a numerator and a denominator. -/
def overPowerOfTen (bits : Nat) : Int → Nat × Nat
  | .ofNat k => (Binary64.units bits, Binary64.unitsPerOne * Nat.pow 10 k)
  | .negSucc k => (Binary64.units bits * Nat.pow 10 (k + 1), Binary64.unitsPerOne)

def readsBack (bits : Nat) (d : Decimal) : Bool := d.nearestBits = bits

/-- The neighbour on the grid of multiples of `10 ^ exponent` that reads back; the nearer of two. -/
def onGrid? (tie : Tie) (bits : Nat) (exponent : Int) : Option Decimal :=
  let (num, den) := overPowerOfTen bits exponent
  let low : Decimal := ⟨num / den, exponent⟩
  let high : Decimal := ⟨num / den + 1, exponent⟩
  match readsBack bits low, readsBack bits high with
  | false, false => none
  | true, false => some low
  | false, true => some high
  | true, true =>
    match compare (2 * (num % den)) den with
    | .lt => some low
    | .gt => some high
    | .eq =>
      match tie with
      | .up => some high
      | .even => if low.coefficient % 2 = 0 then some low else some high

/-- Seventeen digits suffice for every double; the exact value stands behind them so that reading
back needs no such argument. -/
def shortest (tie : Tie) (bits : Nat) : Decimal :=
  let lead := leadingExponent bits
  let found := (List.range 17).findSome? fun (behind : Nat) => onGrid? tie bits (lead - behind)
  let d := found.getD (exact bits)
  normal d.coefficient d.exponent

end Decimal
end Calculator
