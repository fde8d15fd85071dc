import Calculator.Operator
import Calculator.Text.Quoted

/-! Tokens of an expression. A number keeps its spelling; it becomes a value only where an operand
is wanted. Offsets count bytes of the source in UTF-8. -/
namespace Calculator

inductive Token where
  | number (text : String)
  | operator (op : Operator)
  | openParen
  | closeParen
deriving DecidableEq

namespace Token

def text : Token → String
  | number text => text
  | operator op => op.symbol.toString
  | openParen => "("
  | closeParen => ")"

/-- Names the token for a reader of diagnostics; the spelling of a number is quoted. -/
def description : Token → String
  | number text => "Number(" ++ Text.quoted text ++ ")"
  | operator .add => "Plus"
  | operator .sub => "Minus"
  | operator .mul => "Star"
  | operator .div => "Slash"
  | openParen => "LParen"
  | closeParen => "RParen"

def operator? : Token → Option Operator
  | operator op => some op
  | _ => none

end Token

structure PlacedToken where
  token : Token
  offset : Nat
deriving DecidableEq

end Calculator
