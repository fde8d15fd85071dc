import Calculator.ParseError
import Calculator.Token

/-! Cutting a source into pieces. Every character belongs to exactly one piece: a token, a blank, or
a character that is dropped. Placement is a separate step, so offsets are running sums of byte
sizes. -/
namespace Calculator

inductive Piece where
  | token (t : Token)
  | blank (c : Char)
  | dropped (c : Char)
deriving DecidableEq

namespace Piece

def text : Piece → String
  | token t => t.text
  | blank c | dropped c => c.toString

def size (p : Piece) : Nat := p.text.utf8ByteSize

end Piece

namespace Lexer

def isBlank (c : Char) : Bool :=
  c = ' ' || c = '\t' || c = '\r' || c = '\n' || c = '\x0c'

def symbol? : Char → Option Token
  | '(' => some .openParen
  | ')' => some .closeParen
  | c => (Operator.ofSymbol? c).map .operator

/-- The piece that a character other than a digit makes by itself. -/
def single (c : Char) : Piece :=
  match symbol? c with
  | some t => .token t
  | none => if isBlank c then .blank c else .dropped c

/-- Splits off the longest number in front. A point belongs to it only between two digits. -/
def splitNumber (cs : List Char) : List Char × List Char :=
  let whole := cs.takeWhile Char.isDigit
  match cs.dropWhile Char.isDigit with
  | '.' :: rest =>
    match rest.takeWhile Char.isDigit with
    | [] => (whole, '.' :: rest)
    | fraction => (whole ++ '.' :: fraction, rest.dropWhile Char.isDigit)
  | rest => (whole, rest)

theorem splitNumber_append (cs : List Char) :
    (splitNumber cs).1 ++ (splitNumber cs).2 = cs := by
  have h := List.takeWhile_append_dropWhile (p := Char.isDigit) (l := cs)
  unfold splitNumber
  split
  next rest hrest =>
    rw [hrest] at h
    split
    next => exact h
    next fraction _ =>
      rw [List.append_assoc, List.cons_append, List.takeWhile_append_dropWhile]
      exact h
  next => exact h

theorem splitNumber_fst_ne_nil {c : Char} (hc : c.isDigit) (cs : List Char) :
    (splitNumber (c :: cs)).1 ≠ [] := by
  unfold splitNumber
  split
  next => split <;> simp [hc]
  next => simp [hc]

theorem length_splitNumber_snd_lt {c : Char} (hc : c.isDigit) (cs : List Char) :
    (splitNumber (c :: cs)).2.length < (c :: cs).length := by
  have h := congrArg List.length (splitNumber_append (c :: cs))
  have := List.length_pos_iff.mpr (splitNumber_fst_ne_nil hc cs)
  rw [List.length_append] at h
  omega

def pieces : List Char → List Piece
  | [] => []
  | c :: cs =>
    if h : c.isDigit then
      have := length_splitNumber_snd_lt h cs
      .token (.number (String.ofList (splitNumber (c :: cs)).1)) :: pieces (splitNumber (c :: cs)).2
    else single c :: pieces cs
termination_by cs => cs.length
decreasing_by
  · exact this
  · exact Nat.lt_succ_self _

/-- Pairs each piece with the byte offset at which it starts when the first one starts at `offset`.
-/
def place (offset : Nat) : List Piece → List (Piece × Nat)
  | [] => []
  | p :: ps => (p, offset) :: place (offset + p.size) ps

def placed (source : String) : List (Piece × Nat) :=
  place 0 (pieces source.toList)

def tokens (ps : List (Piece × Nat)) : List PlacedToken :=
  ps.filterMap fun
    | (.token t, offset) => some ⟨t, offset⟩
    | _ => none

/-- The characters that are neither blank nor part of a token, each with its offset. -/
def dropped (ps : List (Piece × Nat)) : List (Char × Nat) :=
  ps.filterMap fun
    | (.dropped c, offset) => some (c, offset)
    | _ => none

end Lexer

def tokenize (source : String) : Except ParseError (List PlacedToken) :=
  match Lexer.tokens (Lexer.placed source) with
  | [] => .error .invalidExpression
  | ts => .ok ts

def droppedCharacters (source : String) : List (Char × Nat) :=
  Lexer.dropped (Lexer.placed source)

end Calculator
