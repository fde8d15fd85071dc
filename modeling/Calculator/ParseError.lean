/-! Why an expression is refused. Every cause but the first points at a byte offset of the source.
-/
namespace Calculator

inductive ParseError where
  | invalidExpression
  | unexpectedToken (text : String) (offset : Nat)
  | unexpectedEndOfInput (offset : Nat)
  | expectedClosingParen (offset : Nat)
  | trailingInput (text : String) (offset : Nat)
  | nestingTooDeep (limit : UInt64) (offset : Nat)
deriving DecidableEq

namespace ParseError

def kind : ParseError → String
  | invalidExpression => "InvalidExpression"
  | unexpectedToken .. => "UnexpectedToken"
  | unexpectedEndOfInput .. => "UnexpectedEndOfInput"
  | expectedClosingParen .. => "ExpectedClosingParen"
  | trailingInput .. => "TrailingInput"
  | nestingTooDeep .. => "NestingTooDeep"

def offset? : ParseError → Option Nat
  | invalidExpression => none
  | unexpectedToken _ offset | unexpectedEndOfInput offset | expectedClosingParen offset
  | trailingInput _ offset | nestingTooDeep _ offset => some offset

def token? : ParseError → Option String
  | unexpectedToken text _ | trailingInput text _ => some text
  | _ => none

def limit? : ParseError → Option UInt64
  | nestingTooDeep limit _ => some limit
  | _ => none

/-- The offset is left out, so that a message does not depend on where the fault stands. -/
def message : ParseError → String
  | invalidExpression => "Invalid expression"
  | unexpectedToken text _ => "Unexpected token: " ++ text
  | unexpectedEndOfInput _ => "Unexpected end of input"
  | expectedClosingParen _ => "Expected closing parenthesis"
  | trailingInput .. => "Unexpected input remaining"
  | nestingTooDeep limit _ => "Parentheses nested deeper than " ++ toString limit.toNat ++ " levels"

end ParseError
end Calculator
