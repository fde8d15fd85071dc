import Calculator.ParseError
import Calculator.Token

/-! Evaluation in one pass without recursion into groups. A stack holds what was suspended at each
open parenthesis, and a frame holds at most one pending sum and one pending product. -/
namespace Calculator.Machine

structure Frame (α : Type) where
  sum? : Option (α × Operator) := none
  product? : Option (α × Operator) := none

/-- Either an operand is wanted, or a term has been read and an operator may follow. -/
inductive Mode (α : Type) where
  | operand
  | operator (term : α)

structure State (α : Type) where
  mode : Mode α := .operand
  frame : Frame α := {}
  suspended : List (Nat × Frame α) := []

def foldPending (A : Arithmetic α) : Option (α × Operator) → α → α
  | some (left, op), right => A.apply op left right
  | none, right => right

namespace State

/-- Takes an operand, folding it into a pending product. -/
def withOperand (A : Arithmetic α) (s : State α) (v : α) : State α :=
  { s with mode := .operator (foldPending A s.frame.product? v)
           frame := { s.frame with product? := none } }

@[simp] theorem withOperand_suspended (A : Arithmetic α) (s : State α) (v : α) :
    (s.withOperand A v).suspended = s.suspended := rfl

/-- Puts the term read so far in front of an operator. -/
def withOperator (A : Arithmetic α) (s : State α) (term : α) (op : Operator) : State α :=
  match op with
  | .mul | .div =>
    { s with mode := .operand, frame := { s.frame with product? := some (term, op) } }
  | .add | .sub =>
    { s with mode := .operand, frame := ⟨some (foldPending A s.frame.sum? term, op), none⟩ }

@[simp] theorem withOperator_suspended (A : Arithmetic α) (s : State α) (term : α)
    (op : Operator) : (s.withOperator A term op).suspended = s.suspended := by
  unfold withOperator
  split <;> rfl

def stepOperand (A : Arithmetic α) (limit : UInt64) (s : State α) (t : PlacedToken) :
    Except ParseError (State α) :=
  match t.token with
  | .number text =>
    match A.convert? text with
    | some v => .ok (s.withOperand A v)
    | none => .error (.unexpectedToken text t.offset)
  | .openParen =>
    if limit.toNat ≤ s.suspended.length then .error (.nestingTooDeep limit t.offset)
    else .ok ⟨.operand, {}, (t.offset, s.frame) :: s.suspended⟩
  | token => .error (.unexpectedToken token.text t.offset)

def stepOperator (A : Arithmetic α) (s : State α) (term : α) (t : PlacedToken) :
    Except ParseError (State α) :=
  match t.token, s.suspended with
  | .operator op, _ => .ok (s.withOperator A term op)
  | .closeParen, (_, frame) :: suspended =>
    .ok (withOperand A ⟨.operand, frame, suspended⟩ (foldPending A s.frame.sum? term))
  | _, (offset, _) :: _ => .error (.expectedClosingParen offset)
  | token, [] => .error (.trailingInput token.text t.offset)

def step (A : Arithmetic α) (limit : UInt64) (s : State α) (t : PlacedToken) :
    Except ParseError (State α) :=
  match s.mode with
  | .operand => s.stepOperand A limit t
  | .operator term => s.stepOperator A term t

def finish (A : Arithmetic α) (sourceEnd : Nat) (s : State α) : Except ParseError α :=
  match s.mode, s.suspended with
  | .operand, _ => .error (.unexpectedEndOfInput sourceEnd)
  | .operator _, (offset, _) :: _ => .error (.expectedClosingParen offset)
  | .operator term, [] => .ok (foldPending A s.frame.sum? term)

end State

/-- Runs over the tokens and stops at the first error. -/
def run (A : Arithmetic α) (limit : UInt64) (sourceEnd : Nat) (ts : List PlacedToken) :
    Except ParseError α := do
  let s ← ts.foldlM (State.step A limit) {}
  s.finish A sourceEnd

end Calculator.Machine
