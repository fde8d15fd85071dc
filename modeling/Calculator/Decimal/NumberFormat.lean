import Calculator.Decimal.Shortest

/-! Writing doubles with their shortest digits. What differs between outputs is a record: where
positional notation ends, whether whole numbers keep a point, the sign of a positive exponent. -/
namespace Calculator

structure NumberFormat where
  tie : Tie
  /-- Whether a number whose leading digit has this power of ten is written without an exponent. -/
  positional : Int → Bool
  wholeKeepsPoint : Bool
  plusBeforeExponent : Bool

namespace NumberFormat

/-- The digits before and after the point of `coefficient * 10 ^ exponent`, for the digits of the
coefficient. There is always a digit before the point. -/
def splitAtPoint (digits : List Char) : Int → List Char × List Char
  | .ofNat zeros => (digits ++ List.replicate zeros '0', [])
  | .negSucc k =>
    if k + 1 < digits.length then digits.splitAt (digits.length - (k + 1))
    else (['0'], List.replicate (k + 1 - digits.length) '0' ++ digits)

def positionalText (f : NumberFormat) (digits : List Char) (exponent : Int) : List Char :=
  match splitAtPoint digits exponent with
  | (whole, []) => if f.wholeKeepsPoint then whole ++ ['.', '0'] else whole
  | (whole, fraction) => whole ++ '.' :: fraction

def exponentText (f : NumberFormat) : Int → List Char
  | .ofNat e => 'e' :: ((if f.plusBeforeExponent then ['+'] else []) ++ Nat.toDigits 10 e)
  | .negSucc e => 'e' :: '-' :: Nat.toDigits 10 (e + 1)

def scientificText (f : NumberFormat) (digits : List Char) (lead : Int) : List Char :=
  match digits with
  | [] => []
  | [d] => d :: f.exponentText lead
  | d :: more => d :: '.' :: more ++ f.exponentText lead

def decimalText (f : NumberFormat) (d : Decimal) : List Char :=
  let digits := Nat.toDigits 10 d.coefficient
  let lead := d.exponent + digits.length - 1
  if f.positional lead then f.positionalText digits d.exponent else f.scientificText digits lead

def signedText (f : NumberFormat) (negative : Bool) (d : Decimal) : List Char :=
  (if negative then ['-'] else []) ++ f.decimalText d

/-- Any double, with words for the values that have no digits. -/
def floatText (f : NumberFormat) (x : Float) : String :=
  let bits := Binary64.magnitudeBits x
  if bits < Binary64.infinityBits then
    String.ofList (f.signedText (Binary64.isNegative x) (Decimal.shortest f.tie bits))
  else if bits = Binary64.infinityBits then if Binary64.isNegative x then "-inf" else "inf"
  else "NaN"

/-- Results for a reader: every digit in its place and no point behind whole numbers. -/
def plain : NumberFormat where
  tie := .up
  positional _ := true
  wholeKeepsPoint := false
  plusBeforeExponent := false

end NumberFormat
end Calculator
