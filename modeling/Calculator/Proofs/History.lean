import Calculator.Proofs.Production

/-! The descent with a record of what it does: where it enters a factor, where a loop looks at the
token in front, which tokens it takes, which groups it reads and which operators it applies. It goes
on from call to call as the descent does, and without the record it is the descent. -/
namespace Calculator
namespace Parser

section
variable {α : Type} {A : Arithmetic α}

/-! Calls. -/

/-- A call of a descent that computes with `A`. -/
structure Call (A : Arithmetic α) where
  production : Production α
  nesting : Nesting
  left : List PlacedToken

/-- The call on the right makes the one on the left. A group is read by the factor that opens it. -/
inductive Calls : Call A → Call A → Prop where
  | operand (p : Precedence) (n : Nesting) (ts : List PlacedToken) :
      Calls ⟨.operand p, n, ts⟩ ⟨.chain p, n, ts⟩
  | loop {p : Precedence} {n : Nesting} {ts left : List PlacedToken} {v : α} {starved : Bool}
      (first : Run A (.operand p) n ts ⟨.ok v, left, starved⟩) :
      Calls ⟨.extend p v, n, left⟩ ⟨.chain p, n, ts⟩
  | right {p : Precedence} {op : Operator} (h : op.precedence = p) (n : Nesting) (v : α)
      (offset : Nat) (ts : List PlacedToken) :
      Calls ⟨.operand p, n, ts⟩ ⟨.extend p v, n, ⟨.operator op, offset⟩ :: ts⟩
  | turn {p : Precedence} {op : Operator} {n : Nesting} {ts left : List PlacedToken} {w : α}
      {starved : Bool} (h : op.precedence = p) (v : α) (offset : Nat)
      (right : Run A (.operand p) n ts ⟨.ok w, left, starved⟩) :
      Calls ⟨.extend p (A.apply op v w), n, left⟩ ⟨.extend p v, n, ⟨.operator op, offset⟩ :: ts⟩
  | body {n inner : Nesting} {opening : Nat} (h : n.descend opening = .ok inner)
      (ts : List PlacedToken) :
      Calls ⟨.chain .additive, inner, ts⟩ ⟨.factor, n, ⟨.openParen, opening⟩ :: ts⟩

theorem Run.length_rest_lt {p : Precedence} {n : Nesting} {ts rest : List PlacedToken} {v : α}
    {starved : Bool} (h : Run A (.operand p) n ts ⟨.ok v, rest, starved⟩) :
    rest.length < ts.length := by
  have hparse := h.parse_eq
  rw [parse_operand] at hparse
  have hlt := length_rest_lt_of_operand (v := v) A (by rw [hparse])
  rwa [hparse] at hlt

theorem Production.rank_le (k : Production α) : k.rank ≤ 2 := by
  match k with
  | .chain .additive | .chain .multiplicative | .extend .. | .factor => simp [rank]

/-- A token counts more than the whole way down through the grammar, on which none is taken. -/
def Call.measure (c : Call A) : Nat := 3 * c.left.length + c.production.rank

theorem Calls.measure_lt {c c' : Call A} (h : Calls c' c) : c'.measure < c.measure := by
  have of_shorter (hlt : c'.left.length < c.left.length) : c'.measure < c.measure := by
    have := c'.production.rank_le
    unfold Call.measure
    omega
  cases h with
  | operand p n ts => exact Nat.add_lt_add_left (Production.rank_operand_lt p) _
  | loop first => exact of_shorter first.length_rest_lt
  | right => exact of_shorter (Nat.lt_succ_self _)
  | turn _ _ _ right => exact of_shorter (Nat.lt_succ_of_lt right.length_rest_lt)
  | body => exact of_shorter (Nat.lt_succ_self _)

theorem wellFounded_calls : WellFounded (Calls (A := A)) :=
  Subrelation.wf Calls.measure_lt (InvImage.wf Call.measure Nat.lt_wfRel.wf)

instance : WellFoundedRelation (Call A) := ⟨Calls, wellFounded_calls⟩

end

/-! Records. -/

/-- One thing that a parse does. The tokens `left` are those not taken yet. -/
inductive Event (α : Type) where
  | factor (n : Nesting) (left : List PlacedToken)
  /-- A loop of precedence `p` looks at the token in front. -/
  | look (p : Precedence) (n : Nesting) (left : List PlacedToken)
  | take (t : PlacedToken)
  /-- Takes the parenthesis at `opening` and starts to read its group. -/
  | enter (opening : Nat) (n inner : Nesting)
  /-- The group is read, or its reading failed. -/
  | leave
  | apply (op : Operator) (v w : α)

section
variable {α : Type}

/-- Behind what was read one more token is taken, whatever it is. -/
def takeBehind (r : Parse α) : List (Event α) :=
  match r.outcome with
  | .ok _ => (r.rest.head?.map .take).toList
  | .error _ => []

/-- The events of a call in their order, beside what comes of it. -/
inductive Traced (A : Arithmetic α) :
    Production α → Nesting → List PlacedToken → Parse α → List (Event α) → Prop where
  | chainFailed {p : Precedence}
      (first : Traced A (.operand p) n ts ⟨.error e, rest, starved⟩ es) :
      Traced A (.chain p) n ts ⟨.error e, rest, starved⟩ es
  | chain {p : Precedence} {v : α} (first : Traced A (.operand p) n ts ⟨.ok v, mid, starved⟩ es)
      (more : Traced A (.extend p v) n mid r fs) : Traced A (.chain p) n ts r (es ++ fs)
  | stop (p : Precedence) (n : Nesting) (v : α) (h : ∀ op ∈ front? ts, op.precedence ≠ p) :
      Traced A (.extend p v) n ts ⟨.ok v, ts, false⟩ [.look p n ts]
  | turnFailed {p : Precedence} {op : Operator} (v : α) (offset : Nat) (h : op.precedence = p)
      (right : Traced A (.operand p) n ts ⟨.error e, rest, starved⟩ es) :
      Traced A (.extend p v) n (⟨.operator op, offset⟩ :: ts) ⟨.error e, rest, starved⟩
        (.look p n (⟨.operator op, offset⟩ :: ts) :: .take ⟨.operator op, offset⟩ :: es)
  | turn {p : Precedence} {op : Operator} {w : α} (v : α) (offset : Nat) (h : op.precedence = p)
      (right : Traced A (.operand p) n ts ⟨.ok w, mid, starved⟩ es)
      (more : Traced A (.extend p (A.apply op v w)) n mid r fs) :
      Traced A (.extend p v) n (⟨.operator op, offset⟩ :: ts) r
        (.look p n (⟨.operator op, offset⟩ :: ts) :: .take ⟨.operator op, offset⟩ ::
          (es ++ .apply op v w :: fs))
  | ended (n : Nesting) :
      Traced A .factor n [] ⟨.error (.unexpectedEndOfInput n.sourceEnd), [], true⟩
        [.factor n []]
  | number {text : String} {v : α} (n : Nesting) (offset : Nat) (ts : List PlacedToken)
      (h : A.convert? text = some v) :
      Traced A .factor n (⟨.number text, offset⟩ :: ts) ⟨.ok v, ts, false⟩
        [.factor n (⟨.number text, offset⟩ :: ts), .take ⟨.number text, offset⟩]
  | refused (n : Nesting) (ts : List PlacedToken) (h : Refused A t.token) :
      Traced A .factor n (t :: ts) ⟨.error (.unexpectedToken t.token.text t.offset), ts, false⟩
        [.factor n (t :: ts), .take t]
  | tooDeep (opening : Nat) (ts : List PlacedToken) (h : n.limit ≤ n.depth) :
      Traced A .factor n (⟨.openParen, opening⟩ :: ts)
        ⟨.error (.nestingTooDeep n.limit opening), ts, false⟩
        [.factor n (⟨.openParen, opening⟩ :: ts), .take ⟨.openParen, opening⟩]
  | group {inner : Nesting} (h : n.descend opening = .ok inner)
      (body : Traced A (.chain .additive) inner ts r es) :
      Traced A .factor n (⟨.openParen, opening⟩ :: ts) (r.andThen (closeGroup opening))
        (.factor n (⟨.openParen, opening⟩ :: ts) :: .enter opening n inner ::
          (es ++ (takeBehind r ++ [.leave])))

variable {A : Arithmetic α}

theorem Run.andThen_closeGroup {n inner : Nesting} {opening : Nat} {ts : List PlacedToken}
    {r : Parse α} (h : n.descend opening = .ok inner) (body : Run A (.chain .additive) inner ts r) :
    Run A .factor n (⟨.openParen, opening⟩ :: ts) (r.andThen (closeGroup opening)) := by
  have hrun := run_parse A .factor n (⟨.openParen, opening⟩ :: ts)
  have hbody : Parser.chain A .additive inner ts = r := body.parse_eq
  rwa [parse, factor_of_descend h, hbody] at hrun

/-- A group with a value is its body and the parenthesis behind it. -/
theorem closed_of_andThen_closeGroup {r : Parse α} {opening : Nat} {v : α}
    (h : (r.andThen (closeGroup opening)).outcome = .ok v) :
    r.outcome = .ok v ∧ ∃ closing,
      r.rest = ⟨.closeParen, closing⟩ :: (r.andThen (closeGroup opening)).rest := by
  obtain ⟨outcome, rest, starved⟩ := r
  cases outcome with
  | error e => contradiction
  | ok w =>
    cases rest with
    | nil => contradiction
    | cons t rest =>
      obtain ⟨token, closing⟩ := t
      cases token with
      | closeParen => exact ⟨h, closing, rfl⟩
      | number | operator | openParen => contradiction

/-- Without its events a call is one of the descent. -/
theorem Traced.run {k : Production α} {n : Nesting} {ts : List PlacedToken} {r : Parse α}
    {es : List (Event α)} (h : Traced A k n ts r es) : Run A k n ts r := by
  induction h with
  | chainFailed _ first => exact .chainFailed first
  | chain _ _ first more => exact .chain _ _ first more
  | stop p _ v h => exact .stop p v h
  | turnFailed v _ h _ right => exact .turnFailed _ v h right
  | turn v offset h _ _ right more => exact .turn _ v _ _ offset h right more
  | ended => exact .ended
  | number _ _ _ h => exact .number h
  | refused _ _ h => exact .refused h
  | tooDeep _ _ h => exact .tooDeep h
  | group h _ body => exact .andThen_closeGroup h body

/-- What comes of a call, with its events. -/
structure Recorded (A : Arithmetic α) (k : Production α) (n : Nesting)
    (ts : List PlacedToken) where
  parse : Parse α
  events : List (Event α)
  traced : Traced A k n ts parse events

/-- The descent, with its events. -/
def record (A : Arithmetic α) (k : Production α) (n : Nesting) (ts : List PlacedToken) :
    Recorded A k n ts :=
  match k, ts with
  | .chain p, ts =>
    match record A (.operand p) n ts with
    | ⟨⟨.error _, _, _⟩, _, first⟩ => ⟨_, _, .chainFailed first⟩
    | ⟨⟨.ok v, mid, _⟩, _, first⟩ =>
      have := first.run
      ⟨_, _, .chain first (record A (.extend p v) n mid).traced⟩
  | .extend p v, ⟨.operator op, offset⟩ :: ts =>
    if h : op.precedence = p then
      match record A (.operand p) n ts with
      | ⟨⟨.error _, _, _⟩, _, right⟩ => ⟨_, _, .turnFailed v offset h right⟩
      | ⟨⟨.ok w, mid, _⟩, _, right⟩ =>
        have := right.run
        ⟨_, _, .turn v offset h right (record A (.extend p (A.apply op v w)) n mid).traced⟩
    else ⟨_, _, .stop p n v (by simpa [front?, Token.operator?] using h)⟩
  | .extend p v, [] => ⟨_, _, .stop p n v (by simp [front?])⟩
  | .extend p v, ⟨.number _, _⟩ :: _ => ⟨_, _, .stop p n v (by simp [front?, Token.operator?])⟩
  | .extend p v, ⟨.openParen, _⟩ :: _ => ⟨_, _, .stop p n v (by simp [front?, Token.operator?])⟩
  | .extend p v, ⟨.closeParen, _⟩ :: _ => ⟨_, _, .stop p n v (by simp [front?, Token.operator?])⟩
  | .factor, [] => ⟨_, _, .ended n⟩
  | .factor, ⟨.number text, offset⟩ :: ts =>
    match h : A.convert? text with
    | some _ => ⟨_, _, .number n offset ts h⟩
    | none => ⟨_, _, .refused n ts h⟩
  | .factor, ⟨.operator _, _⟩ :: ts => ⟨_, _, .refused n ts trivial⟩
  | .factor, ⟨.closeParen, _⟩ :: ts => ⟨_, _, .refused n ts trivial⟩
  | .factor, ⟨.openParen, opening⟩ :: ts =>
    match h : n.descend opening with
    | .error _ => ⟨_, _, .tooDeep opening ts (Nesting.descend_eq_error h).1⟩
    | .ok inner => ⟨_, _, .group h (record A (.chain .additive) inner ts).traced⟩
termination_by (⟨k, n, ts⟩ : Call A)
decreasing_by
  · exact .operand p n ts
  · exact .loop this
  · exact .right h n v offset ts
  · exact .turn h v offset this
  · exact .body h ts

/-- The record is kept beside the descent, which it does not change. -/
theorem record_parse (A : Arithmetic α) (k : Production α) (n : Nesting) (ts : List PlacedToken) :
    (record A k n ts).parse = parse A k n ts :=
  ((record A k n ts).traced.run.parse_eq).symm

/-- The events of a whole parse. Behind the sum a token is wanted that must not be there. -/
def history (A : Arithmetic α) (n : Nesting) (ts : List PlacedToken) : List (Event α) :=
  (record A (.chain .additive) n ts).events ++ takeBehind (record A (.chain .additive) n ts).parse

end

end Parser
end Calculator
