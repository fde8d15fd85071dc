import Calculator.Decimal.Numeral
import Calculator.Token

/-! Expression trees and how they are written. Parentheses stand where another tree would be read
without them; redundant ones may be added around any subtree. Between tokens there may be anything
that is no part of a token. -/
namespace Calculator

/-- Digits, or digits on both sides of one point. -/
inductive IsNumeral : List Char → Prop where
  | whole {digits : List Char} (h : Text.isDigits digits) : IsNumeral digits
  | fraction {digits behind : List Char} (h : Text.isDigits digits) (h' : Text.isDigits behind) :
      IsNumeral (digits ++ '.' :: behind)

structure Numeral where
  text : String
  isNumeral : IsNumeral text.toList

inductive Expression where
  | literal (n : Numeral)
  | binary (op : Operator) (left right : Expression)

/-- Puts pairs of parentheses around tokens. -/
def Token.parenthesize : Nat → List Token → List Token
  | 0, ts => ts
  | pairs + 1, ts => openParen :: (parenthesize pairs ts ++ [closeParen])

namespace Expression

def value? (A : Arithmetic α) : Expression → Option α
  | literal n => A.convert? n.text
  | binary op left right =>
    match left.value? A, right.value? A with
    | some v, some w => some (A.apply op v w)
    | _, _ => none

/-- How many pairs of parentheses an operand on the left of `op` needs. -/
def pairsLeft (op : Operator) : Expression → Nat
  | literal _ => 0
  | binary inner _ _ => if op ∈ [.mul, .div] ∧ inner ∈ [.add, .sub] then 1 else 0

/-- On the right of an operator even one of its own class needs them. -/
def pairsRight (op : Operator) : Expression → Nat
  | literal _ => 0
  | binary inner _ _ => if op ∈ [.mul, .div] ∨ inner ∈ [.add, .sub] then 1 else 0

/-- The tokens with only the parentheses that are needed. -/
def tokens : Expression → List Token
  | literal n => [.number n.text]
  | binary op left right =>
    Token.parenthesize (left.pairsLeft op) left.tokens ++
      .operator op :: Token.parenthesize (right.pairsRight op) right.tokens

/-- A number of redundant pairs of parentheses for each subtree. -/
inductive Redundant : Expression → Type where
  | literal (pairs : Nat) (n : Numeral) : Redundant (.literal n)
  | binary (pairs : Nat) (op : Operator) {left right : Expression} (l : Redundant left)
      (r : Redundant right) : Redundant (.binary op left right)

namespace Redundant

/-- No redundant parentheses at all. -/
def none : (e : Expression) → Redundant e
  | .literal n => .literal 0 n
  | .binary op left right => .binary 0 op (none left) (none right)

def tokens {e : Expression} : Redundant e → List Token
  | literal pairs n => Token.parenthesize pairs [.number n.text]
  | @binary pairs op left right l r =>
    Token.parenthesize pairs (Token.parenthesize (left.pairsLeft op) l.tokens ++
      .operator op :: Token.parenthesize (right.pairsRight op) r.tokens)

@[simp] theorem tokens_none (e : Expression) : (none e).tokens = e.tokens := by
  induction e with
  | literal n => rfl
  | binary op left right hleft hright =>
    simp only [none, tokens, Expression.tokens, Token.parenthesize, hleft, hright]

end Redundant
end Expression

/-- Text between tokens. Points are left out as well, for one between digits belongs to a number. -/
structure Gap where
  text : String
  filler : ∀ c ∈ text.toList, c.isDigit = false ∧ c ≠ '.' ∧ c ∉ "+-*/()".toList

/-- Writes tokens with a gap in front of each and one behind the last. -/
def Token.spread (gap : Nat → Gap) : List Token → String
  | [] => (gap 0).text
  | t :: ts => (gap 0).text ++ (t.text ++ spread (fun i => gap (i + 1)) ts)

end Calculator
