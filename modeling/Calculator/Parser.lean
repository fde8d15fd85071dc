import Calculator.Nesting
import Calculator.Token

/-! Recursive descent over placed tokens, computing the value on the way. A chain of operands is
read at one precedence: a sum is a chain of products, a product a chain of factors. Every production
also returns the tokens it did not consume, after a failure as well as after a success, and whether
it failed for want of a token. -/
namespace Calculator

structure Parse (α : Type) where
  outcome : Except ParseError α
  rest : List PlacedToken
  /-- A token was to be consumed where none was left; looking ahead does not count. -/
  starved : Bool

namespace Parse

def andThen (r : Parse α) (f : α → List PlacedToken → Parse β) : Parse β :=
  match r.outcome with
  | .ok v => f v r.rest
  | .error e => ⟨.error e, r.rest, r.starved⟩

@[simp] theorem andThen_ok (v : α) (rest : List PlacedToken) (starved : Bool)
    (f : α → List PlacedToken → Parse β) : andThen ⟨.ok v, rest, starved⟩ f = f v rest := rfl

@[simp] theorem andThen_error (e : ParseError) (rest : List PlacedToken) (starved : Bool)
    (f : α → List PlacedToken → Parse β) :
    andThen ⟨.error e, rest, starved⟩ f = ⟨.error e, rest, starved⟩ := rfl

end Parse

namespace Parser

/-- Consumes the token behind a group that was opened at `offset`. -/
def closeGroup (offset : Nat) (v : α) : List PlacedToken → Parse α
  | ⟨.closeParen, _⟩ :: rest => ⟨.ok v, rest, false⟩
  | _ :: rest => ⟨.error (.expectedClosingParen offset), rest, false⟩
  | [] => ⟨.error (.expectedClosingParen offset), [], true⟩

theorem length_rest_closeGroup_le (offset : Nat) (v : α) (ts : List PlacedToken) :
    (closeGroup offset v ts).rest.length ≤ ts.length := by
  unfold closeGroup
  split <;> simp

namespace Descent

/-- A success consumes at least one token; this is why the descent ends. -/
abbrev Advance (α : Type) (ts : List PlacedToken) : Type :=
  { r : Parse α // ∀ v, r.outcome = .ok v → r.rest.length < ts.length }

abbrev Extension (α : Type) (ts : List PlacedToken) : Type :=
  { r : Parse α // ∀ v, r.outcome = .ok v → r.rest.length ≤ ts.length }

/-- Going down from sums to products to factors consumes nothing, so precedence counts too. -/
def height : Precedence → Nat
  | .additive => 3
  | .multiplicative => 1

theorem height_le (p : Precedence) : height p ≤ 3 := by cases p <;> decide

mutual

def chain (A : Arithmetic α) (p : Precedence) (n : Nesting) (ts : List PlacedToken) :
    Advance α ts :=
  match operand A p n ts with
  | ⟨⟨.error e, rest, starved⟩, _⟩ => ⟨⟨.error e, rest, starved⟩, nofun⟩
  | ⟨⟨.ok v, rest, _⟩, h⟩ =>
    have h : rest.length < ts.length := h v rfl
    match extend A p n v rest with
    | ⟨r, hr⟩ => ⟨r, fun w hw => Nat.lt_of_le_of_lt (hr w hw) h⟩
termination_by 6 * ts.length + height p + 1
decreasing_by
  · exact Nat.lt_succ_self _
  · have := height_le p; omega

def operand (A : Arithmetic α) (p : Precedence) (n : Nesting) (ts : List PlacedToken) :
    Advance α ts :=
  match p with
  | .additive => chain A .multiplicative n ts
  | .multiplicative => factor A n ts
termination_by 6 * ts.length + height p
decreasing_by
  · exact Nat.add_lt_add_left (by decide : height .multiplicative + 1 < height .additive) _
  · exact Nat.lt_succ_self _

def extend (A : Arithmetic α) (p : Precedence) (n : Nesting) (v : α) (ts : List PlacedToken) :
    Extension α ts :=
  match ts with
  | [] => ⟨⟨.ok v, [], false⟩, fun _ _ => Nat.le_refl _⟩
  | t :: rest =>
    match t.token.operator? with
    | none => ⟨⟨.ok v, t :: rest, false⟩, fun _ _ => Nat.le_refl _⟩
    | some op =>
      if op.precedence = p then
        match operand A p n rest with
        | ⟨⟨.error e, left, starved⟩, _⟩ => ⟨⟨.error e, left, starved⟩, nofun⟩
        | ⟨⟨.ok w, left, _⟩, h⟩ =>
          have h : left.length < rest.length := h w rfl
          match extend A p n (A.apply op v w) left with
          | ⟨r, hr⟩ =>
            ⟨r, fun u hu => Nat.le_trans (hr u hu) (Nat.le_succ_of_le (Nat.le_of_lt h))⟩
      else ⟨⟨.ok v, t :: rest, false⟩, fun _ _ => Nat.le_refl _⟩
termination_by 6 * ts.length + 5
decreasing_by
  · have := height_le p; simp only [List.length_cons]; omega
  · simp only [List.length_cons]; omega

def factor (A : Arithmetic α) (n : Nesting) (ts : List PlacedToken) : Advance α ts :=
  match ts with
  | [] => ⟨⟨.error (.unexpectedEndOfInput n.sourceEnd), [], true⟩, nofun⟩
  | ⟨.number text, offset⟩ :: rest =>
    match A.convert? text with
    | some v => ⟨⟨.ok v, rest, false⟩, fun _ _ => Nat.lt_succ_self _⟩
    | none => ⟨⟨.error (.unexpectedToken text offset), rest, false⟩, nofun⟩
  | ⟨.openParen, offset⟩ :: rest =>
    match n.descend offset with
    | .error e => ⟨⟨.error e, rest, false⟩, nofun⟩
    | .ok inner =>
      match chain A .additive inner rest with
      | ⟨⟨.error e, left, starved⟩, _⟩ => ⟨⟨.error e, left, starved⟩, nofun⟩
      | ⟨⟨.ok v, left, _⟩, h⟩ =>
        have h : left.length < rest.length := h v rfl
        ⟨closeGroup offset v left, fun _ _ =>
          Nat.lt_succ_of_lt (Nat.lt_of_le_of_lt (length_rest_closeGroup_le offset v left) h)⟩
  | ⟨token, offset⟩ :: rest => ⟨⟨.error (.unexpectedToken token.text offset), rest, false⟩, nofun⟩
termination_by 6 * ts.length
decreasing_by simp only [height, List.length_cons]; omega

end

end Descent

/-- Operands of precedence `p` joined by its operators, folded from the left. -/
def chain (A : Arithmetic α) (p : Precedence) (n : Nesting) (ts : List PlacedToken) : Parse α :=
  (Descent.chain A p n ts).val

/-- What a chain of precedence `p` joins. -/
def operand (A : Arithmetic α) (p : Precedence) (n : Nesting) (ts : List PlacedToken) : Parse α :=
  (Descent.operand A p n ts).val

/-- Folds further operands into `v` while an operator of precedence `p` stands in front. -/
def extend (A : Arithmetic α) (p : Precedence) (n : Nesting) (v : α) (ts : List PlacedToken) :
    Parse α :=
  (Descent.extend A p n v ts).val

/-- A number or a group; consumes one token before it decides. -/
def factor (A : Arithmetic α) (n : Nesting) (ts : List PlacedToken) : Parse α :=
  (Descent.factor A n ts).val

theorem chain_eq (A : Arithmetic α) (p : Precedence) (n : Nesting) (ts : List PlacedToken) :
    chain A p n ts = (operand A p n ts).andThen (extend A p n) := by
  unfold chain operand extend
  rw [Descent.chain]
  split <;> rename_i h <;> rw [h] <;> rfl

theorem operand_additive (A : Arithmetic α) (n : Nesting) (ts : List PlacedToken) :
    operand A .additive n ts = chain A .multiplicative n ts := by
  rw [operand, Descent.operand, chain]

theorem operand_multiplicative (A : Arithmetic α) (n : Nesting) (ts : List PlacedToken) :
    operand A .multiplicative n ts = factor A n ts := by
  rw [operand, Descent.operand, factor]

@[simp] theorem extend_nil (A : Arithmetic α) (p : Precedence) (n : Nesting) (v : α) :
    extend A p n v [] = ⟨.ok v, [], false⟩ := by
  rw [extend, Descent.extend]

theorem extend_cons (A : Arithmetic α) (p : Precedence) (n : Nesting) (v : α) (t : PlacedToken)
    (rest : List PlacedToken) :
    extend A p n v (t :: rest) =
      match t.token.operator? with
      | none => ⟨.ok v, t :: rest, false⟩
      | some op =>
        if op.precedence = p then
          (operand A p n rest).andThen fun w left => extend A p n (A.apply op v w) left
        else ⟨.ok v, t :: rest, false⟩ := by
  unfold extend operand
  rw [Descent.extend]
  split
  next => rfl
  next =>
    split
    next => split <;> rename_i h <;> rw [h] <;> rfl
    next => rfl

@[simp] theorem factor_nil (A : Arithmetic α) (n : Nesting) :
    factor A n [] = ⟨.error (.unexpectedEndOfInput n.sourceEnd), [], true⟩ := by
  rw [factor, Descent.factor]

theorem factor_number (A : Arithmetic α) (n : Nesting) (text : String) (offset : Nat)
    (rest : List PlacedToken) :
    factor A n (⟨.number text, offset⟩ :: rest) =
      match A.convert? text with
      | some v => ⟨.ok v, rest, false⟩
      | none => ⟨.error (.unexpectedToken text offset), rest, false⟩ := by
  unfold factor
  rw [Descent.factor]
  split <;> rfl

theorem factor_openParen (A : Arithmetic α) (n : Nesting) (offset : Nat)
    (rest : List PlacedToken) :
    factor A n (⟨.openParen, offset⟩ :: rest) =
      match n.descend offset with
      | .error e => ⟨.error e, rest, false⟩
      | .ok inner => (chain A .additive inner rest).andThen (closeGroup offset) := by
  unfold factor chain
  rw [Descent.factor]
  split
  next => rfl
  next => split <;> rename_i h <;> rw [h] <;> rfl

theorem factor_operator (A : Arithmetic α) (n : Nesting) (op : Operator) (offset : Nat)
    (rest : List PlacedToken) :
    factor A n (⟨.operator op, offset⟩ :: rest) =
      ⟨.error (.unexpectedToken op.symbol.toString offset), rest, false⟩ := by
  rw [factor, Descent.factor]
  · rfl
  · simp
  · simp

theorem factor_closeParen (A : Arithmetic α) (n : Nesting) (offset : Nat)
    (rest : List PlacedToken) :
    factor A n (⟨.closeParen, offset⟩ :: rest) =
      ⟨.error (.unexpectedToken ")" offset), rest, false⟩ := by
  rw [factor, Descent.factor]
  · rfl
  · simp
  · simp

theorem length_rest_lt_of_chain {A : Arithmetic α} {p : Precedence} {n : Nesting}
    {ts : List PlacedToken} {v : α} (h : (chain A p n ts).outcome = .ok v) :
    (chain A p n ts).rest.length < ts.length :=
  (Descent.chain A p n ts).property v h

def sum (A : Arithmetic α) (n : Nesting) (ts : List PlacedToken) : Parse α :=
  chain A .additive n ts

def product (A : Arithmetic α) (n : Nesting) (ts : List PlacedToken) : Parse α :=
  chain A .multiplicative n ts

/-- A sum that takes all of `ts`. A leftover token is an error although a value was computed. -/
def sentence (A : Arithmetic α) (n : Nesting) (ts : List PlacedToken) : Except ParseError α :=
  match sum A n ts with
  | ⟨.error e, _, _⟩ => .error e
  | ⟨.ok v, [], _⟩ => .ok v
  | ⟨.ok _, t :: _, _⟩ => .error (.trailingInput t.token.text t.offset)

end Parser
end Calculator
