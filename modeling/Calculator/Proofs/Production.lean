import Calculator.Parser
import Calculator.Proofs.Derivation

/-! The descent as a big-step relation. One relation covers the productions, which call one another,
so that a property of all of them is a single induction with one case for each way a call can go. -/
namespace Calculator
namespace Parser

open Token (FrontBelow)

/-- What a call reads. An operand is a chain or a factor, so it is no production of its own. -/
inductive Production (α : Type) where
  | chain (p : Precedence)
  | extend (p : Precedence) (v : α)
  | factor

namespace Production

def operand : Precedence → Production α
  | .additive => .chain .multiplicative
  | .multiplicative => .factor

/-- How many calls on the same tokens lie below. -/
def rank : Production α → Nat
  | .chain .additive => 2
  | .chain .multiplicative => 1
  | _ => 0

theorem rank_operand_lt (p : Precedence) :
    (operand p : Production α).rank < (chain p : Production α).rank := by
  cases p <;> exact Nat.lt_succ_self _

end Production

def parse (A : Arithmetic α) : Production α → Nesting → List PlacedToken → Parse α
  | .chain p, n, ts => chain A p n ts
  | .extend p v, n, ts => extend A p n v ts
  | .factor, n, ts => factor A n ts

theorem parse_operand (A : Arithmetic α) (p : Precedence) (n : Nesting) (ts : List PlacedToken) :
    parse A (.operand p) n ts = operand A p n ts := by
  cases p
  · exact (operand_additive A n ts).symm
  · exact (operand_multiplicative A n ts).symm

/-- The operator in front, on which a chain decides whether to go on. -/
def front? (ts : List PlacedToken) : Option Operator := ts.head?.bind (·.token.operator?)

/-- A token that is no operand and does not open one. -/
def Refused (A : Arithmetic α) : Token → Prop
  | .number text => A.convert? text = none
  | .openParen => False
  | _ => True

inductive Run (A : Arithmetic α) :
    Production α → Nesting → List PlacedToken → Parse α → Prop where
  | chainFailed {p : Precedence} (first : Run A (.operand p) n ts ⟨.error e, rest, starved⟩) :
      Run A (.chain p) n ts ⟨.error e, rest, starved⟩
  | chain (p : Precedence) (v : α) (first : Run A (.operand p) n ts ⟨.ok v, mid, starved⟩)
      (more : Run A (.extend p v) n mid r) : Run A (.chain p) n ts r
  | stop (p : Precedence) (v : α) (h : ∀ op ∈ front? ts, op.precedence ≠ p) :
      Run A (.extend p v) n ts ⟨.ok v, ts, false⟩
  | turnFailed (p : Precedence) (v : α) (h : op.precedence = p)
      (right : Run A (.operand p) n ts ⟨.error e, rest, starved⟩) :
      Run A (.extend p v) n (⟨.operator op, offset⟩ :: ts) ⟨.error e, rest, starved⟩
  | turn (p : Precedence) (v w : α) (op : Operator) (offset : Nat) (h : op.precedence = p)
      (right : Run A (.operand p) n ts ⟨.ok w, mid, starved⟩)
      (more : Run A (.extend p (A.apply op v w)) n mid r) :
      Run A (.extend p v) n (⟨.operator op, offset⟩ :: ts) r
  | ended : Run A .factor n [] ⟨.error (.unexpectedEndOfInput n.sourceEnd), [], true⟩
  | number {v : α} (h : A.convert? text = some v) :
      Run A .factor n (⟨.number text, offset⟩ :: ts) ⟨.ok v, ts, false⟩
  | refused (h : Refused A t.token) :
      Run A .factor n (t :: ts) ⟨.error (.unexpectedToken t.token.text t.offset), ts, false⟩
  | tooDeep (h : n.limit ≤ n.depth) :
      Run A .factor n (⟨.openParen, opening⟩ :: ts)
        ⟨.error (.nestingTooDeep n.limit opening), ts, false⟩
  | groupFailed {inner : Nesting} (h : n.descend opening = .ok inner)
      (body : Run A (.chain .additive) inner ts ⟨.error e, rest, starved⟩) :
      Run A .factor n (⟨.openParen, opening⟩ :: ts) ⟨.error e, rest, starved⟩
  | group {inner : Nesting} {v : α} (opening closing : Nat) (h : n.descend opening = .ok inner)
      (body : Run A (.chain .additive) inner ts ⟨.ok v, ⟨.closeParen, closing⟩ :: rest, starved⟩) :
      Run A .factor n (⟨.openParen, opening⟩ :: ts) ⟨.ok v, rest, false⟩
  | unclosed {inner : Nesting} (v : α) (h : n.descend opening = .ok inner)
      (body : Run A (.chain .additive) inner ts ⟨.ok v, t :: rest, starved⟩)
      (ht : t.token ≠ .closeParen) :
      Run A .factor n (⟨.openParen, opening⟩ :: ts)
        ⟨.error (.expectedClosingParen opening), rest, false⟩
  | unclosedAtEnd {inner : Nesting} {v : α} (h : n.descend opening = .ok inner)
      (body : Run A (.chain .additive) inner ts ⟨.ok v, [], starved⟩) :
      Run A .factor n (⟨.openParen, opening⟩ :: ts)
        ⟨.error (.expectedClosingParen opening), [], true⟩

section
variable {α : Type} {A : Arithmetic α}

private theorem run_chain {p : Precedence} {n : Nesting} {ts : List PlacedToken}
    (first : Run A (.operand p) n ts (operand A p n ts))
    (more : ∀ v, (operand A p n ts).outcome = .ok v →
      Run A (.extend p v) n (operand A p n ts).rest (extend A p n v (operand A p n ts).rest)) :
    Run A (.chain p) n ts (chain A p n ts) := by
  rw [chain_eq]
  match h : operand A p n ts with
  | ⟨.error e, rest, starved⟩ => exact .chainFailed (h ▸ first)
  | ⟨.ok v, mid, starved⟩ =>
    have hmore := more v (by rw [h])
    rw [h] at first hmore
    exact .chain p v first hmore

private theorem run_extend {p : Precedence} {n : Nesting} {v : α} {t : PlacedToken}
    {ts : List PlacedToken} (right : Run A (.operand p) n ts (operand A p n ts))
    (more : ∀ w u, (operand A p n ts).outcome = .ok w →
      Run A (.extend p u) n (operand A p n ts).rest (extend A p n u (operand A p n ts).rest)) :
    Run A (.extend p v) n (t :: ts) (extend A p n v (t :: ts)) := by
  rw [extend_cons]
  obtain ⟨token, offset⟩ := t
  cases token with
  | operator op =>
    by_cases hp : op.precedence = p
    · simp only [Token.operator?, if_pos hp]
      match h : operand A p n ts with
      | ⟨.error e, rest, starved⟩ => exact .turnFailed p v hp (h ▸ right)
      | ⟨.ok w, mid, starved⟩ =>
        have hmore := more w (A.apply op v w) (by rw [h])
        rw [h] at right hmore
        exact .turn p v w op offset hp right hmore
    · simp only [Token.operator?, if_neg hp]
      exact .stop p v (by simpa [front?, Token.operator?] using hp)
  | number | openParen | closeParen => exact .stop p v (by simp [front?, Token.operator?])

private theorem run_group {n inner : Nesting} {offset : Nat} {ts : List PlacedToken}
    (h : n.descend offset = .ok inner)
    (body : Run A (.chain .additive) inner ts (chain A .additive inner ts)) :
    Run A .factor n (⟨.openParen, offset⟩ :: ts)
      ((chain A .additive inner ts).andThen (closeGroup offset)) := by
  match hr : chain A .additive inner ts with
  | ⟨.error e, rest, starved⟩ => exact .groupFailed h (hr ▸ body)
  | ⟨.ok v, [], starved⟩ => exact .unclosedAtEnd h (hr ▸ body)
  | ⟨.ok v, ⟨.closeParen, closing⟩ :: rest, starved⟩ => exact .group offset closing h (hr ▸ body)
  | ⟨.ok v, ⟨.number text, _⟩ :: rest, starved⟩ => exact .unclosed v h (hr ▸ body) (by simp)
  | ⟨.ok v, ⟨.operator op, _⟩ :: rest, starved⟩ => exact .unclosed v h (hr ▸ body) (by simp)
  | ⟨.ok v, ⟨.openParen, _⟩ :: rest, starved⟩ => exact .unclosed v h (hr ▸ body) (by simp)

variable (A)

theorem length_rest_lt_of_operand {p : Precedence} {n : Nesting} {ts : List PlacedToken} {v : α}
    (h : (operand A p n ts).outcome = .ok v) : (operand A p n ts).rest.length < ts.length :=
  (Descent.operand A p n ts).property v h

/-- Every call of the descent is a run. -/
theorem run_parse (k : Production α) (n : Nesting) (ts : List PlacedToken) :
    Run A k n ts (parse A k n ts) := by
  match k, ts with
  | .chain p, ts =>
    have := Production.rank_operand_lt (α := α) p
    exact run_chain (parse_operand A p n ts ▸ run_parse (.operand p) n ts) fun v hv =>
      have := length_rest_lt_of_operand A hv
      run_parse (.extend p v) n _
  | .extend p v, [] =>
    rw [parse, extend_nil]
    exact .stop p v (by simp [front?])
  | .extend p v, t :: ts =>
    exact run_extend (parse_operand A p n ts ▸ run_parse (.operand p) n ts) fun w u hw =>
      have := length_rest_lt_of_operand A hw
      run_parse (.extend p u) n _
  | .factor, [] =>
    rw [parse, factor_nil]
    exact .ended
  | .factor, ⟨.number text, offset⟩ :: ts =>
    rw [parse, factor_number]
    cases h : A.convert? text with
    | some v => exact .number h
    | none => exact .refused h
  | .factor, ⟨.operator op, offset⟩ :: ts =>
    rw [parse, factor_operator]
    exact .refused trivial
  | .factor, ⟨.closeParen, offset⟩ :: ts =>
    rw [parse, factor_closeParen]
    exact .refused trivial
  | .factor, ⟨.openParen, offset⟩ :: ts =>
    rw [parse, factor_openParen]
    cases h : n.descend offset with
    | error e =>
      obtain ⟨hle, rfl⟩ := Nesting.descend_eq_error h
      exact .tooDeep hle
    | ok inner => exact run_group h (run_parse (.chain .additive) inner ts)
termination_by (ts.length, k.rank)
decreasing_by all_goals simp_wf; omega

variable {A}

/-! Each call has one result, and consumes tokens from the front. -/

theorem extend_of_front? {p : Precedence} {n : Nesting} {v : α} {ts : List PlacedToken}
    (h : ∀ op ∈ front? ts, op.precedence ≠ p) : extend A p n v ts = ⟨.ok v, ts, false⟩ := by
  cases ts with
  | nil => exact extend_nil ..
  | cons t ts =>
    rw [extend_cons]
    cases hop : t.token.operator? with
    | none => rfl
    | some op => exact if_neg (h op hop)

theorem factor_of_refused {n : Nesting} {t : PlacedToken} (h : Refused A t.token)
    (ts : List PlacedToken) :
    factor A n (t :: ts) = ⟨.error (.unexpectedToken t.token.text t.offset), ts, false⟩ := by
  obtain ⟨token, offset⟩ := t
  cases token with
  | number text =>
    have hnone : A.convert? text = none := h
    rw [factor_number, hnone]
    rfl
  | operator op => exact factor_operator ..
  | openParen => exact absurd h id
  | closeParen => exact factor_closeParen ..

theorem extend_operator {p : Precedence} {op : Operator} (h : op.precedence = p) (n : Nesting)
    (v : α) (offset : Nat) (ts : List PlacedToken) :
    extend A p n v (⟨.operator op, offset⟩ :: ts) =
      (operand A p n ts).andThen fun w rest => extend A p n (A.apply op v w) rest := by
  rw [extend_cons]
  exact if_pos h

theorem factor_of_descend {n inner : Nesting} {opening : Nat} (h : n.descend opening = .ok inner)
    (ts : List PlacedToken) :
    factor A n (⟨.openParen, opening⟩ :: ts) =
      (chain A .additive inner ts).andThen (closeGroup opening) := by
  rw [factor_openParen, h]

theorem closeGroup_of_ne {t : PlacedToken} (h : t.token ≠ .closeParen) (opening : Nat) (v : α)
    (ts : List PlacedToken) :
    closeGroup opening v (t :: ts) = ⟨.error (.expectedClosingParen opening), ts, false⟩ := by
  obtain ⟨token, offset⟩ := t
  cases token with
  | closeParen => exact absurd rfl h
  | number | operator | openParen => rfl

/-- A run is what the descent does. -/
theorem Run.parse_eq {k : Production α} {n : Nesting} {ts : List PlacedToken} {r : Parse α}
    (h : Run A k n ts r) : parse A k n ts = r := by
  induction h with
  | chainFailed _ first =>
    rw [parse_operand] at first
    rw [parse, chain_eq, first, Parse.andThen_error]
  | chain p v _ _ first more =>
    rw [parse_operand] at first
    rw [parse, chain_eq, first, Parse.andThen_ok]
    exact more
  | stop p v h => exact extend_of_front? h
  | turnFailed p v h _ right =>
    rw [parse_operand] at right
    rw [parse, extend_operator h, right, Parse.andThen_error]
  | turn p v w op offset h _ _ right more =>
    rw [parse_operand] at right
    rw [parse, extend_operator h, right, Parse.andThen_ok]
    exact more
  | ended => exact factor_nil ..
  | number h => rw [parse, factor_number, h]
  | refused h => exact factor_of_refused h _
  | @tooDeep n opening ts h =>
    have hdescend : n.descend opening = .error (.nestingTooDeep n.limit opening) :=
      dif_neg (UInt64.not_lt.mpr h)
    rw [parse, factor_openParen, hdescend]
  | groupFailed h _ body =>
    rw [parse] at body
    rw [parse, factor_of_descend h, body, Parse.andThen_error]
  | group opening closing h _ body =>
    rw [parse] at body
    rw [parse, factor_of_descend h, body, Parse.andThen_ok, closeGroup]
  | unclosed v h _ ht body =>
    rw [parse] at body
    rw [parse, factor_of_descend h, body, Parse.andThen_ok, closeGroup_of_ne ht]
  | unclosedAtEnd h _ body =>
    rw [parse] at body
    rw [parse, factor_of_descend h, body, Parse.andThen_ok, closeGroup]

/-- What a call leaves is the end of its tokens. -/
theorem Run.suffix {k : Production α} {n : Nesting} {ts : List PlacedToken} {r : Parse α}
    (h : Run A k n ts r) : r.rest <:+ ts := by
  induction h with
  | chainFailed _ first => exact first
  | chain _ _ _ _ first more => exact more.trans first
  | stop => exact List.suffix_rfl
  | turnFailed _ _ _ _ right => exact right.trans (List.suffix_cons ..)
  | turn _ _ _ _ _ _ _ _ right more => exact more.trans (right.trans (List.suffix_cons ..))
  | ended => exact List.suffix_rfl
  | number | refused | tooDeep => exact List.suffix_cons ..
  | groupFailed _ _ body => exact body.trans (List.suffix_cons ..)
  | group _ _ _ _ body | unclosed _ _ _ _ body =>
    exact (List.suffix_cons ..).trans (body.trans (List.suffix_cons ..))
  | unclosedAtEnd => exact List.nil_suffix

/-! Where a successful call stops. -/

theorem frontBelow_of_front? {p : Precedence} {ts : List PlacedToken}
    (h : ∀ op ∈ front? ts, op.precedence ≠ p)
    (hts : FrontBelow (p.rank + 1) (ts.map (·.token))) :
    FrontBelow p.rank (ts.map (·.token)) := by
  match ts with
  | [] | ⟨.number _, _⟩ :: _ | ⟨.openParen, _⟩ :: _ | ⟨.closeParen, _⟩ :: _ => trivial
  | ⟨.operator op, _⟩ :: _ =>
    have hne : op.precedence ≠ p := h op rfl
    simp only [List.map_cons, FrontBelow.operator] at hts ⊢
    revert hne hts
    cases p <;> cases op <;> decide

theorem front?_ne_of_frontBelow {p : Precedence} {ts : List PlacedToken}
    (h : FrontBelow p.rank (ts.map (·.token))) : ∀ op ∈ front? ts, op.precedence ≠ p := by
  cases ts with
  | nil => simp [front?]
  | cons t ts =>
    obtain ⟨token, offset⟩ := t
    cases token with
    | operator op =>
      rintro _ ⟨⟩ rfl
      simp at h
    | number | openParen | closeParen => simp [front?, Token.operator?]

theorem operator?_eq_none {t : Token} {ts : List Token} (h : FrontBelow 0 (t :: ts)) :
    t.operator? = none := by
  cases t with
  | operator op => simp at h
  | number | openParen | closeParen => rfl

/-- What is known of the tokens that a successful call leaves. -/
def Production.Stops (ts rest : List Token) : Production α → Prop
  | .chain p => FrontBelow p.rank rest
  | .extend p _ => FrontBelow (p.rank + 1) ts → FrontBelow p.rank rest
  | .factor => True

theorem Production.Stops.frontBelow {p : Precedence} {ts rest : List Token}
    (h : (Production.operand p : Production α).Stops ts rest) : FrontBelow (p.rank + 1) rest := by
  cases p with
  | additive => exact h
  | multiplicative => exact .multiplicative rest

theorem Run.stops {k : Production α} {n : Nesting} {ts : List PlacedToken} {r : Parse α}
    (h : Run A k n ts r) : ∀ v, r.outcome = .ok v →
    k.Stops (ts.map (·.token)) (r.rest.map (·.token)) := by
  induction h with
  | chainFailed | turnFailed =>
    intro v hv
    contradiction
  | chain _ _ _ _ first more => exact fun v hv => more v hv (first _ rfl).frontBelow
  | stop _ _ h => exact fun _ _ hts => frontBelow_of_front? h hts
  | turn _ _ _ _ _ _ _ _ right more => exact fun v hv _ => more v hv (right _ rfl).frontBelow
  | _ => exact fun _ _ => trivial

theorem Run.starved_eq_false {k : Production α} {n : Nesting} {ts : List PlacedToken} {r : Parse α}
    (h : Run A k n ts r) : ∀ v, r.outcome = .ok v → r.starved = false := by
  induction h with
  | chain _ _ _ _ _ more | turn _ _ _ _ _ _ _ _ _ more => exact more
  | stop | number | group => exact fun _ _ => rfl
  | _ =>
    intro v hv
    contradiction

end

end Parser
end Calculator
