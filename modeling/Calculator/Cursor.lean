import Calculator.Parser

/-! Productions called one after the other on a shared supply of tokens. Each call starts where the
call before it stopped, also when that one failed. -/
namespace Calculator

structure Cursor where
  left : List PlacedToken
  nesting : Nesting

namespace Cursor

inductive Call where
  | sum
  | product
  | next
  | descend
deriving DecidableEq

inductive Answer (α : Type) where
  | value (outcome : Except ParseError α)
  | taken (token? : Option PlacedToken)
  | descended
  | refused (e : ParseError)

def afterParse (c : Cursor) (r : Parse α) : Answer α × Cursor :=
  (.value r.outcome, { c with left := r.rest })

/-- Descending is for the parenthesis in front, and a refusal leaves the nesting as it was. -/
def call (A : Arithmetic α) (c : Cursor) : Call → Answer α × Cursor
  | .sum => c.afterParse (Parser.sum A c.nesting c.left)
  | .product => c.afterParse (Parser.product A c.nesting c.left)
  | .next => (.taken c.left.head?, { c with left := c.left.tail })
  | .descend =>
    match c.nesting.descend ((c.left.head?.map PlacedToken.offset).getD c.nesting.sourceEnd) with
    | .ok inner => (.descended, { c with nesting := inner })
    | .error e => (.refused e, c)

/-- The answer to each call, with the tokens that it left. -/
def run (A : Arithmetic α) (c : Cursor) : List Call → List (Answer α × List PlacedToken)
  | [] => []
  | k :: ks =>
    let (answer, c) := c.call A k
    (answer, c.left) :: c.run A ks

end Cursor
end Calculator
