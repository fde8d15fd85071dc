import Calculator.Decimal.Numeral
import Calculator.Parser
import Calculator.Token.Lexer

/-! Evaluating a source in double precision. Division by zero is no error: infinities and values
that are no numbers pass through like any others. -/
namespace Calculator

def binary64 : Arithmetic Float where
  convert? := Decimal.readFloat?
  apply
    | .add, left, right => left + right
    | .sub, left, right => left - right
    | .mul, left, right => left * right
    | .div, left, right => left / right

/-- Evaluates tokens which may be written by hand: their offsets are only reported, never compared.
-/
def evaluateTokens (n : Nesting) (ts : List PlacedToken) : Except ParseError Float :=
  Parser.sentence binary64 n ts

def evaluateWithLimit (source : String) (limit : UInt64) : Except ParseError Float :=
  match tokenize source with
  | .error e => .error e
  | .ok ts => evaluateTokens (Nesting.start limit source.utf8ByteSize) ts

def evaluate (source : String) : Except ParseError Float :=
  evaluateWithLimit source Nesting.defaultLimit

end Calculator
