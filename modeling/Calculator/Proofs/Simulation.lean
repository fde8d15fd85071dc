import Calculator.Machine
import Calculator.Proofs.Production

/-! The descent and the one-pass machine agree. What a call of the descent still has to do when it
goes into an operand or a group is what the machine keeps pending and suspended, so each production
is one stretch of a run of the machine, from any stack as high as the depth of the call. -/
namespace Calculator

open Token (FrontBelow)

namespace Machine

variable {α : Type} {A : Arithmetic α} {limit : UInt64} {sourceEnd : Nat}

/-- The run from a state reached before `ts`. -/
def resume (A : Arithmetic α) (limit : UInt64) (sourceEnd : Nat) (s : State α)
    (ts : List PlacedToken) : Except ParseError α := do
  let s ← ts.foldlM (State.step A limit) s
  s.finish A sourceEnd

@[simp] theorem resume_nil (s : State α) :
    resume A limit sourceEnd s [] = s.finish A sourceEnd := rfl

theorem resume_of_ok {s s' : State α} {t : PlacedToken} (h : s.step A limit t = .ok s')
    (ts : List PlacedToken) :
    resume A limit sourceEnd s (t :: ts) = resume A limit sourceEnd s' ts := by
  rw [resume, List.foldlM_cons, h]
  rfl

theorem resume_of_error {s : State α} {t : PlacedToken} {e : ParseError}
    (h : s.step A limit t = .error e) (ts : List PlacedToken) :
    resume A limit sourceEnd s (t :: ts) = .error e := by
  rw [resume, List.foldlM_cons, h]
  rfl

/-! Single steps. -/

variable {frame : Frame α} {suspended : List (Nat × Frame α)}

theorem step_number {text : String} {v : α} (h : A.convert? text = some v) (offset : Nat) :
    State.step A limit ⟨.operand, frame, suspended⟩ ⟨.number text, offset⟩ =
      .ok (State.withOperand A ⟨.operand, frame, suspended⟩ v) := by
  simp [State.step, State.stepOperand, h]

theorem step_refused {t : PlacedToken} (h : Parser.Refused A t.token) :
    State.step A limit ⟨.operand, frame, suspended⟩ t =
      .error (.unexpectedToken t.token.text t.offset) := by
  obtain ⟨token, offset⟩ := t
  cases token with
  | number text =>
    have hnone : A.convert? text = none := h
    simp [State.step, State.stepOperand, hnone, Token.text]
  | openParen => exact absurd h id
  | operator | closeParen => rfl

theorem step_openParen (h : suspended.length < limit.toNat) (offset : Nat) :
    State.step A limit ⟨.operand, frame, suspended⟩ ⟨.openParen, offset⟩ =
      .ok ⟨.operand, {}, (offset, frame) :: suspended⟩ :=
  if_neg (Nat.not_le.mpr h)

theorem step_tooDeep (h : limit.toNat ≤ suspended.length) (offset : Nat) :
    State.step A limit ⟨.operand, frame, suspended⟩ ⟨.openParen, offset⟩ =
      .error (.nestingTooDeep limit offset) :=
  if_pos h

theorem step_product (term : α) {op : Operator} (h : op.precedence = .multiplicative)
    (sum? : Option (α × Operator)) (offset : Nat) :
    State.step A limit ⟨.operator term, ⟨sum?, none⟩, suspended⟩ ⟨.operator op, offset⟩ =
      .ok ⟨.operand, ⟨sum?, some (term, op)⟩, suspended⟩ := by
  cases op with
  | mul | div => rfl
  | add | sub => contradiction

theorem step_sum (term : α) {op : Operator} (h : op.precedence = .additive)
    (sum? : Option (α × Operator)) (offset : Nat) :
    State.step A limit ⟨.operator term, ⟨sum?, none⟩, suspended⟩ ⟨.operator op, offset⟩ =
      .ok ⟨.operand, ⟨some (foldPending A sum? term, op), none⟩, suspended⟩ := by
  cases op with
  | add | sub => rfl
  | mul | div => contradiction

theorem step_closeParen (term : α) (opening closing : Nat) :
    State.step A limit ⟨.operator term, {}, (opening, frame) :: suspended⟩ ⟨.closeParen, closing⟩ =
      .ok (State.withOperand A ⟨.operand, frame, suspended⟩ term) := rfl

theorem step_unclosed (term : α) {t : PlacedToken} {ts : List Token}
    (hfront : FrontBelow 0 (t.token :: ts)) (ht : t.token ≠ .closeParen) (opening : Nat) :
    State.step A limit ⟨.operator term, {}, (opening, frame) :: suspended⟩ t =
      .error (.expectedClosingParen opening) := by
  obtain ⟨token, offset⟩ := t
  cases token with
  | operator op => simp at hfront
  | closeParen => exact absurd rfl ht
  | number | openParen => rfl

theorem step_trailing (term : α) {t : PlacedToken} {ts : List Token}
    (hfront : FrontBelow 0 (t.token :: ts)) :
    State.step A limit ⟨.operator term, {}, []⟩ t =
      .error (.trailingInput t.token.text t.offset) := by
  obtain ⟨token, offset⟩ := t
  cases token with
  | operator op => simp at hfront
  | number | openParen | closeParen => rfl

/-- In front of anything but an operator it does not matter whether the pending sum is folded. -/
theorem resume_settled {ts : List PlacedToken} (h : FrontBelow 0 (ts.map (·.token)))
    (sum? : Option (α × Operator)) (term : α) :
    resume A limit sourceEnd ⟨.operator term, ⟨sum?, none⟩, suspended⟩ ts =
      resume A limit sourceEnd ⟨.operator (foldPending A sum? term), {}, suspended⟩ ts := by
  match ts, suspended with
  | [], [] | [], _ :: _ => rfl
  | ⟨.operator op, _⟩ :: _, _ => simp at h
  | ⟨.number _, _⟩ :: _, [] | ⟨.number _, _⟩ :: _, _ :: _ => rfl
  | ⟨.openParen, _⟩ :: _, [] | ⟨.openParen, _⟩ :: _, _ :: _ => rfl
  | ⟨.closeParen, _⟩ :: _, [] | ⟨.closeParen, _⟩ :: _, _ :: _ => rfl

end Machine

namespace Parser

open Machine

variable {α : Type} {A : Arithmetic α}

/-- Goes on with the value and the tokens that a call left. -/
def resolve (r : Parse α) (f : α → List PlacedToken → Except ParseError β) : Except ParseError β :=
  match r.outcome with
  | .ok v => f v r.rest
  | .error e => .error e

@[simp] theorem resolve_ok (v : α) (rest : List PlacedToken) (starved : Bool)
    (f : α → List PlacedToken → Except ParseError β) :
    resolve ⟨.ok v, rest, starved⟩ f = f v rest := rfl

@[simp] theorem resolve_error (e : ParseError) (rest : List PlacedToken) (starved : Bool)
    (f : α → List PlacedToken → Except ParseError β) :
    resolve ⟨.error e, rest, starved⟩ f = .error e := rfl

/-- The stretch of the machine's run that belongs to a call. A chain starts with nothing pending at
its own precedence or above. In a sum the loop may find its value still split into a pending sum
and a term. -/
def Production.Simulates (A : Arithmetic α) (n : Nesting) (ts : List PlacedToken) (r : Parse α)
    (suspended : List (Nat × Frame α)) : Production α → Prop
  | .chain .additive =>
    resume A n.limit n.sourceEnd ⟨.operand, {}, suspended⟩ ts =
      resolve r fun v rest => resume A n.limit n.sourceEnd ⟨.operator v, {}, suspended⟩ rest
  | .chain .multiplicative => ∀ sum?,
    resume A n.limit n.sourceEnd ⟨.operand, ⟨sum?, none⟩, suspended⟩ ts =
      resolve r fun v rest =>
        resume A n.limit n.sourceEnd ⟨.operator v, ⟨sum?, none⟩, suspended⟩ rest
  | .extend .additive v => ∀ sum? term, foldPending A sum? term = v →
    FrontBelow 1 (ts.map (·.token)) →
    resume A n.limit n.sourceEnd ⟨.operator term, ⟨sum?, none⟩, suspended⟩ ts =
      resolve r fun w rest => resume A n.limit n.sourceEnd ⟨.operator w, {}, suspended⟩ rest
  | .extend .multiplicative v => ∀ sum?,
    resume A n.limit n.sourceEnd ⟨.operator v, ⟨sum?, none⟩, suspended⟩ ts =
      resolve r fun w rest =>
        resume A n.limit n.sourceEnd ⟨.operator w, ⟨sum?, none⟩, suspended⟩ rest
  | .factor => ∀ frame,
    resume A n.limit n.sourceEnd ⟨.operand, frame, suspended⟩ ts =
      resolve r fun v rest =>
        resume A n.limit n.sourceEnd (.withOperand A ⟨.operand, frame, suspended⟩ v) rest

/-- A failed operand fails the production that wants it, whatever is pending. -/
theorem Production.Simulates.of_operand_error {p : Precedence} {n : Nesting}
    {ts rest : List PlacedToken} {e : ParseError} {starved : Bool}
    {suspended : List (Nat × Frame α)}
    (h : (Production.operand p).Simulates A n ts ⟨.error e, rest, starved⟩ suspended) :
    (Production.chain p).Simulates A n ts ⟨.error e, rest, starved⟩ suspended := by
  cases p with
  | additive => exact h none
  | multiplicative => exact fun sum? => h ⟨sum?, none⟩

/-- What a group adds to the stack for the time of its body. -/
theorem resume_group {n inner : Nesting} {opening : Nat} {ts : List PlacedToken} {r : Parse α}
    (h : n.descend opening = .ok inner)
    (body : ∀ suspended : List (Nat × Frame α), suspended.length = inner.depth.toNat →
      (Production.chain .additive).Simulates A inner ts r suspended)
    {suspended : List (Nat × Frame α)} (hlen : suspended.length = n.depth.toNat)
    (frame : Frame α) :
    resume A n.limit n.sourceEnd ⟨.operand, frame, suspended⟩ (⟨.openParen, opening⟩ :: ts) =
      resolve r fun v rest =>
        resume A n.limit n.sourceEnd ⟨.operator v, {}, (opening, frame) :: suspended⟩ rest := by
  obtain ⟨hlt, hdepth, hlimit, hend⟩ := Nesting.descend_eq_ok h
  have hbody := body ((opening, frame) :: suspended) (by simp [hlen, hdepth])
  rw [Production.Simulates, hlimit, hend] at hbody
  rw [resume_of_ok (step_openParen (hlen ▸ UInt64.lt_iff_toNat_lt.mp hlt) opening), hbody]

theorem Run.simulates {k : Production α} {n : Nesting} {ts : List PlacedToken} {r : Parse α}
    (h : Run A k n ts r) : ∀ suspended : List (Nat × Frame α),
    suspended.length = n.depth.toNat → k.Simulates A n ts r suspended := by
  induction h with
  | chainFailed _ first => exact fun suspended hlen => (first suspended hlen).of_operand_error
  | chain p v operand _ first more =>
    intro suspended hlen
    cases p with
    | additive =>
      exact (first suspended hlen none).trans
        (more suspended hlen none v rfl (operand.stops v rfl))
    | multiplicative =>
      exact fun sum? => (first suspended hlen ⟨sum?, none⟩).trans (more suspended hlen sum?)
  | stop p v h =>
    intro suspended _
    cases p with
    | additive =>
      rintro sum? term rfl hfront
      exact resume_settled (frontBelow_of_front? h hfront) sum? term
    | multiplicative => exact fun _ => rfl
  | turnFailed p v h _ right =>
    intro suspended hlen
    cases p with
    | additive =>
      intro sum? term _ _
      exact (resume_of_ok (step_sum term h sum? _) _).trans (right suspended hlen _)
    | multiplicative =>
      exact fun sum? => (resume_of_ok (step_product v h sum? _) _).trans (right suspended hlen _)
  | turn p v w op offset h operand _ right more =>
    intro suspended hlen
    cases p with
    | additive =>
      rintro sum? term rfl _
      rw [resume_of_ok (step_sum term h sum? offset)]
      exact (right suspended hlen _).trans
        (more suspended hlen _ w rfl (operand.stops w rfl))
    | multiplicative =>
      intro sum?
      rw [resume_of_ok (step_product v h sum? offset)]
      exact (right suspended hlen _).trans (more suspended hlen sum?)
  | ended => exact fun _ _ _ => rfl
  | number h => exact fun _ _ _ => resume_of_ok (step_number h _) _
  | refused h => exact fun _ _ _ => resume_of_error (step_refused h) _
  | tooDeep h =>
    intro suspended hlen _
    exact resume_of_error (step_tooDeep (hlen ▸ UInt64.le_iff_toNat_le.mp h) _) _
  | groupFailed h _ body => exact fun _ hlen => resume_group h body hlen
  | group opening closing h _ body =>
    intro suspended hlen frame
    rw [resume_group h body hlen, resolve_ok, resume_of_ok (step_closeParen _ opening closing)]
    rfl
  | unclosed v h run ht body =>
    intro suspended hlen frame
    rw [resume_group h body hlen, resolve_ok,
      resume_of_error (step_unclosed v (run.stops v rfl) ht _)]
    rfl
  | unclosedAtEnd h _ body =>
    intro suspended hlen frame
    rw [resume_group h body hlen]
    rfl

theorem run_eq_sentence {n : Nesting} (h : n.depth = 0) (ts : List PlacedToken) :
    Machine.run A n.limit n.sourceEnd ts = sentence A n ts := by
  have hrun := run_parse A (.chain .additive) n ts
  have hsim : resume A n.limit n.sourceEnd ⟨.operand, {}, []⟩ ts =
      resolve (chain A .additive n ts) fun v rest =>
        resume A n.limit n.sourceEnd ⟨.operator v, {}, []⟩ rest :=
    hrun.simulates [] (by simp [h])
  have hstops := hrun.stops
  simp only [parse] at hstops
  show resume A n.limit n.sourceEnd ⟨.operand, {}, []⟩ ts = _
  rw [hsim, sentence, sum]
  generalize chain A .additive n ts = r at hstops ⊢
  obtain ⟨outcome, rest, starved⟩ := r
  cases outcome with
  | error e => rfl
  | ok v =>
    cases rest with
    | nil => rfl
    | cons t rest => exact resume_of_error (step_trailing v (hstops v rfl)) rest

/-- The machine gives the very outcome of the descent: the value, or the same error at the same
offset. -/
theorem sentence_eq_machine_run (A : Arithmetic α) (limit : UInt64) (sourceEnd : Nat)
    (ts : List PlacedToken) :
    sentence A (.start limit sourceEnd) ts = Machine.run A limit sourceEnd ts :=
  (run_eq_sentence rfl ts).symm

end Parser
end Calculator
