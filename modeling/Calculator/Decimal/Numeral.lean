import Calculator.Decimal

/-! Reading the spellings of numbers. A hexadecimal digit has either letter case, and an unsigned
number of 64 bits is written with ASCII digits after at most one plus sign. A double has an optional
sign, then a word for infinity or for no number in any letter case, or decimal digits with an
optional point and exponent. At least one digit stands beside the point, and nothing may follow. -/
namespace Calculator.Text

def hexValue? (c : Char) : Option Nat :=
  if '0' ≤ c && c ≤ '9' then some (c.toNat - '0'.toNat)
  else if 'a' ≤ c && c ≤ 'f' then some (c.toNat - 'a'.toNat + 10)
  else if 'A' ≤ c && c ≤ 'F' then some (c.toNat - 'A'.toNat + 10)
  else none

def isDigits (cs : List Char) : Bool := !cs.isEmpty && cs.all Char.isDigit

def skipPlus : List Char → List Char
  | '+' :: cs => cs
  | cs => cs

def readUInt64? (text : String) : Option UInt64 :=
  let digits := skipPlus text.toList
  let n := Nat.ofDigitChars 10 digits 0
  if isDigits digits && n < UInt64.size then some (UInt64.ofNat n) else none

end Calculator.Text

namespace Calculator.Decimal

def splitSign : List Char → Bool × List Char
  | '-' :: cs => (true, cs)
  | '+' :: cs => (false, cs)
  | cs => (false, cs)

theorem length_splitSign_snd_le (cs : List Char) : (splitSign cs).2.length ≤ cs.length := by
  unfold splitSign
  split <;> simp

/-- What stands behind the digits of a significand: nothing, or a power of ten. -/
def exponentPart? : List Char → Option Int
  | [] => some 0
  | c :: cs =>
    let (negative, digits) := splitSign cs
    if (c = 'e' || c = 'E') && Text.isDigits digits then
      let e := Nat.ofDigitChars 10 digits 0
      some (if negative then -e else e)
    else none

/-- The digits before a point, those behind it, and what follows the significand. -/
def splitSignificand (cs : List Char) : List Char × List Char × List Char :=
  let whole := cs.takeWhile Char.isDigit
  match cs.dropWhile Char.isDigit with
  | '.' :: rest => (whole, rest.takeWhile Char.isDigit, rest.dropWhile Char.isDigit)
  | rest => (whole, [], rest)

def ofNumeral? (cs : List Char) : Option Decimal :=
  let (whole, fraction, rest) := splitSignificand cs
  let digits := whole ++ fraction
  if digits = [] then none
  else (exponentPart? rest).map fun e => ⟨Nat.ofDigitChars 10 digits 0, e - fraction.length⟩

def word? (negative : Bool) (cs : List Char) : Option Float :=
  let lower := String.ofList (cs.map Char.toLower)
  if lower = "inf" || lower = "infinity" then
    some (Binary64.ofBits negative Binary64.infinityBits)
  else if lower = "nan" then some (0 / 0)
  else none

/-- The double nearest to a number's spelling. -/
def readFloat? (text : String) : Option Float :=
  let (negative, cs) := splitSign text.toList
  match ofNumeral? cs with
  | some d => some (d.toFloat negative)
  | none => word? negative cs

end Calculator.Decimal
