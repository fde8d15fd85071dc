/-! Double precision numbers through their bits. Without the sign bit, the bits of a finite number
are its rank among the finite numbers from zero upwards, and each of these is a whole number of
units of `2 ^ (-1074)`. Rounding a fraction to the nearest double is therefore arithmetic on `Nat`.
-/
namespace Calculator.Binary64

def signBit : Nat := Nat.pow 2 63

/-- How many magnitudes share one exponent. -/
def binade : Nat := Nat.pow 2 52

def unitsPerOne : Nat := Nat.pow 2 1074

/-- The bits of positive infinity; finite magnitudes lie below, the bits of no number above. -/
def infinityBits : Nat := 0x7FF * binade

def magnitudeBits (x : Float) : Nat := x.toBits.toNat % signBit

def isNegative (x : Float) : Bool := signBit ≤ x.toBits.toNat

def ofBits (negative : Bool) (bits : Nat) : Float :=
  Float.ofBits (UInt64.ofNat (if negative then signBit + bits else bits))

/-- The value of a finite magnitude in units of `2 ^ (-1074)`. -/
def units (bits : Nat) : Nat :=
  if bits < binade then bits else (binade + bits % binade) * Nat.pow 2 (bits / binade - 1)

/-- The quotient rounded to the nearest integer, a half to the even one. -/
def divNearestEven (num den : Nat) : Nat :=
  let q := num / den
  match compare (2 * (num % den)) den with
  | .lt => q
  | .gt => q + 1
  | .eq => q + q % 2

/-- The magnitude nearest to `num / den`, a half to the one with even bits. The quotient keeps 53
binary digits above a step of `2 ^ k` units. A carry out of the 53 digits moves the rank to the next
step, and a rank past the finite ones is infinity. -/
def nearest (num den : Nat) : Nat :=
  let unitCount := num * unitsPerOne
  let k := (unitCount / den).log2 - 52
  min (k * binade + divNearestEven unitCount (den * Nat.pow 2 k)) infinityBits

/-- The magnitude of the rounded product of two finite magnitudes. -/
def mulBits (a b : Nat) : Nat := nearest (units a * units b) (unitsPerOne * unitsPerOne)

end Calculator.Binary64
