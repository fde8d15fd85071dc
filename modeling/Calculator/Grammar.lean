import Calculator.Token

/-! Derivations of expressions. A chain of one precedence is an operand, or a chain joined with one
more operand on its right; the operands of sums are products, and those of products are numbers and
groups. A derivation has a value as soon as all its numbers convert. -/
namespace Calculator

/-- The operators that join the operands of a sum, and those of a product. -/
def Precedence.operators : Precedence → List Operator
  | .additive => [.add, .sub]
  | .multiplicative => [.mul, .div]

mutual

inductive Chain : Precedence → Type where
  | operand {p : Precedence} (first : Operand p) : Chain p
  | join {p : Precedence} (left : Chain p) (op : Operator) (h : op ∈ p.operators)
      (right : Operand p) : Chain p

inductive Operand : Precedence → Type where
  | product (c : Chain .multiplicative) : Operand .additive
  | number (text : String) : Operand .multiplicative
  | group (inner : Chain .additive) : Operand .multiplicative

end

/-- A derivation of a whole expression. -/
abbrev Sentence := Chain .additive

mutual

def Chain.tokens : Chain p → List Token
  | .operand first => first.tokens
  | .join left op _ right => left.tokens ++ .operator op :: right.tokens

def Operand.tokens : Operand p → List Token
  | .product c => c.tokens
  | .number text => [.number text]
  | .group inner => .openParen :: (inner.tokens ++ [.closeParen])

end

mutual

/-- The value, folding each chain from the left. -/
def Chain.value? (A : Arithmetic α) : Chain p → Option α
  | .operand first => first.value? A
  | .join left op _ right =>
    match left.value? A, right.value? A with
    | some v, some w => some (A.apply op v w)
    | _, _ => none

def Operand.value? (A : Arithmetic α) : Operand p → Option α
  | .product c => c.value? A
  | .number text => A.convert? text
  | .group inner => inner.value? A

end

mutual

/-- How deep groups nest. -/
def Chain.depth : Chain p → Nat
  | .operand first => first.depth
  | .join left _ _ right => max left.depth right.depth

def Operand.depth : Operand p → Nat
  | .product c => c.depth
  | .number _ => 0
  | .group inner => inner.depth + 1

end

/-- The most parentheses open at once in `ts` when `opened` are open before it. -/
def Token.maxOpen (opened : Nat) : List Token → Nat
  | [] => opened
  | .openParen :: ts => max opened (maxOpen (opened + 1) ts)
  | .closeParen :: ts => max opened (maxOpen (opened - 1) ts)
  | _ :: ts => maxOpen opened ts

end Calculator
