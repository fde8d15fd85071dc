/-! The four binary operators, the two precedence classes in which chains of operands are folded, and
where numbers live. Within one class every chain is folded from the left. The parser is written over
any carrier, so what it accepts cannot depend on the values it computes. -/
namespace Calculator

inductive Precedence where
  | additive
  | multiplicative
deriving DecidableEq

inductive Operator where
  | add
  | sub
  | mul
  | div
deriving DecidableEq

namespace Operator

def precedence : Operator → Precedence
  | add | sub => .additive
  | mul | div => .multiplicative

def symbol : Operator → Char
  | add => '+'
  | sub => '-'
  | mul => '*'
  | div => '/'

def ofSymbol? : Char → Option Operator
  | '+' => some add
  | '-' => some sub
  | '*' => some mul
  | '/' => some div
  | _ => none

@[simp] theorem ofSymbol?_symbol (op : Operator) : ofSymbol? op.symbol = some op := by
  cases op <;> rfl

theorem symbol_of_ofSymbol? {c : Char} {op : Operator} (h : ofSymbol? c = some op) :
    op.symbol = c := by
  unfold ofSymbol? at h
  split at h <;> cases h <;> rfl

def isAdditive (op : Operator) : Bool := op.precedence = .additive

def isMultiplicative (op : Operator) : Bool := op.precedence = .multiplicative

end Operator

/-- A reading of the spellings of numbers and the four operations. -/
structure Arithmetic (α : Type) where
  convert? : String → Option α
  apply : Operator → α → α → α

namespace Arithmetic

/-- Folds a chain of operands from the left and records the value after each step. -/
def runningFold (A : Arithmetic α) (start : α) : List (Operator × α) → List α
  | [] => []
  | (op, right) :: steps =>
    let value := A.apply op start right
    value :: A.runningFold value steps

end Arithmetic
end Calculator
