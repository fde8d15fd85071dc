import Calculator.Cursor
import Calculator.Proofs.Evaluation
import Calculator.Proofs.FirstProblem

/-! What calls on a shared supply of tokens consume. A success takes the tokens of one derivation
and stops in front of a token that cannot go on with it; a failure takes everything up to the token
at fault. Each call leaves the end of the tokens that it found. -/
namespace Calculator

open Token (FrontBelow IsSentence)

namespace Parser

variable {α : Type} {A : Arithmetic α}

/-- What a call reports of the token that it found behind `front`, or of the end of the tokens if it
found none. The tokens in front are read from the outline `s` on, and `n` is the nesting of the
call, so a parenthesis is too deep when `n.room` groups are open that were not open in `s`. -/
inductive Reports (A : Arithmetic α) (n : Nesting) (s : Outline) (front : List PlacedToken) :
    Option PlacedToken → ParseError → Prop where
  | refused {opened : Nat} {t : PlacedToken}
      (hfront : s.read? (front.map (·.token)) = some ⟨opened, true⟩) (h : Refused A t.token) :
      Reports A n s front (some t) (.unexpectedToken t.token.text t.offset)
  | ended {opened : Nat} (hfront : s.read? (front.map (·.token)) = some ⟨opened, true⟩) :
      Reports A n s front none (.unexpectedEndOfInput n.sourceEnd)
  | tooDeep {opening : Nat}
      (hfront : s.read? (front.map (·.token)) = some ⟨s.opened + n.room, true⟩) :
      Reports A n s front (some ⟨.openParen, opening⟩) (.nestingTooDeep n.limit opening)
  | unclosed {opened opening : Nat} {found? : Option PlacedToken} (before body : List PlacedToken)
      (hfront : front = before ++ ⟨.openParen, opening⟩ :: body)
      (hbefore : s.read? (before.map (·.token)) = some ⟨opened, true⟩)
      (h : IsSentence (body.map (·.token)))
      (hfound : ∀ t ∈ found?, t.token ≠ .closeParen ∧ t.token.operator? = none) :
      Reports A n s front found? (.expectedClosingParen opening)

/-- A failed call has consumed the token that it reports and all in front of it, or everything. -/
inductive Failed (A : Arithmetic α) (n : Nesting) (s : Outline) :
    List PlacedToken → Parse α → Prop where
  | onToken {e : ParseError} (front rest : List PlacedToken) (t : PlacedToken)
      (h : Reports A n s front (some t) e) :
      Failed A n s (front ++ t :: rest) ⟨.error e, rest, false⟩
  | atEnd {e : ParseError} (ts : List PlacedToken) (h : Reports A n s ts none e) :
      Failed A n s ts ⟨.error e, [], true⟩

variable {n n' : Nesting} {s s' : Outline}

/-- The tokens `us` in front may open a group, which then counts as open and no more against the
nesting. -/
theorem Reports.append {front : List PlacedToken} {found? : Option PlacedToken} {e : ParseError}
    (us : List PlacedToken) (h : Reports A n' s' front found? e)
    (hus : s.read? (us.map (·.token)) = some s') (hroom : s'.opened + n'.room = s.opened + n.room)
    (hlimit : n'.limit = n.limit) (hend : n'.sourceEnd = n.sourceEnd) :
    Reports A n s (us ++ front) found? e := by
  have hread (ts : List PlacedToken) :
      s.read? ((us ++ ts).map (·.token)) = s'.read? (ts.map (·.token)) := by
    rw [List.map_append, Outline.read?_append, hus, Option.bind_some]
  cases h with
  | refused hfront h => exact .refused ((hread _).trans hfront) h
  | ended hfront => exact hend ▸ .ended ((hread _).trans hfront)
  | tooDeep hfront => exact hlimit ▸ .tooDeep (hroom ▸ (hread _).trans hfront)
  | unclosed before body hfront hbefore h hfound =>
    refine .unclosed (us ++ before) body ?_ ((hread _).trans hbefore) h hfound
    rw [hfront, List.append_assoc]

theorem Failed.append {ts : List PlacedToken} {r : Parse α} (us : List PlacedToken)
    (h : Failed A n' s' ts r) (hus : s.read? (us.map (·.token)) = some s')
    (hroom : s'.opened + n'.room = s.opened + n.room) (hlimit : n'.limit = n.limit)
    (hend : n'.sourceEnd = n.sourceEnd) : Failed A n s (us ++ ts) r := by
  cases h with
  | onToken front rest t h =>
    rw [← List.append_assoc]
    exact .onToken _ rest t (h.append us hus hroom hlimit hend)
  | atEnd ts h => exact .atEnd _ (h.append us hus hroom hlimit hend)

theorem read?_of_spells {p : Precedence} {x : Operand p} {room : Nat} {used : List PlacedToken}
    {v : α} (h : x.Spells A room used v) (opened : Nat) :
    Outline.read? ⟨opened, true⟩ (used.map (·.token)) = some ⟨opened, false⟩ := by
  rw [← h.tokens]
  simpa using Outline.read?_operand opened [] x

theorem Run.failed {k : Production α} {ts : List PlacedToken} {r : Parse α}
    (h : Run A k n ts r) : ∀ e, r.outcome = .error e → ∀ opened,
    Failed A n ⟨opened, k.wantsOperand⟩ ts r := by
  induction h with simp only [Production.wantsOperand_chain, Production.wantsOperand_extend,
    Production.wantsOperand_factor, Production.wantsOperand_operand] at *
  | chainFailed _ first => exact first
  | chain p v operand _ _ more =>
    intro e he opened
    obtain ⟨x, used, rfl, hx⟩ := (operand.reads v rfl).operand
    exact (more e he opened).append used (read?_of_spells hx opened) rfl rfl rfl
  | turnFailed _ _ _ _ right =>
    intro e he opened
    exact (right e he opened).append [_] rfl rfl rfl rfl
  | turn p v w op offset _ operand _ _ more =>
    intro e he opened
    obtain ⟨x, used, rfl, hx⟩ := (operand.reads w rfl).operand
    have hmore := (more e he opened).append used (read?_of_spells hx opened) rfl rfl rfl
    exact hmore.append [⟨.operator op, offset⟩] rfl rfl rfl rfl
  | ended => exact fun _ _ opened => .atEnd [] (.ended rfl)
  | refused h => exact fun _ _ opened => .onToken [] _ _ (.refused rfl h)
  | @tooDeep n opening ts h =>
    intro _ _ opened
    have hroom : n.room = 0 := Nat.sub_eq_zero_of_le (UInt64.le_iff_toNat_le.mp h)
    exact .onToken [] _ _ (.tooDeep (by rw [hroom]; rfl))
  | groupFailed h _ body =>
    intro e he opened
    obtain ⟨_, _, hlimit, hend⟩ := Nesting.descend_eq_ok h
    have hroom := Nesting.room_of_descend h
    exact (body e he (opened + 1)).append [_] rfl (by dsimp only; omega) hlimit hend
  | unclosed v _ run ht =>
    intro _ _ opened
    have hoperator := operator?_eq_none (run.stops v rfl)
    obtain ⟨c, used, rfl, hc⟩ := run.reads v rfl
    refine .onToken (_ :: used) _ _ (.unclosed [] used rfl rfl ⟨c, hc.tokens⟩ ?_)
    rintro _ ⟨⟩
    exact ⟨ht, hoperator⟩
  | unclosedAtEnd _ run =>
    intro _ _ opened
    obtain ⟨c, used, hused, hc⟩ := run.reads _ rfl
    rw [List.append_nil] at hused
    exact .atEnd _ (.unclosed [] used (congrArg _ hused) rfl ⟨c, hc.tokens⟩ (by simp))
  | _ =>
    intro _ he
    contradiction

end Parser

namespace Cursor

variable {α : Type} {A : Arithmetic α}

/-- The call that reads a chain of precedence `p`. -/
def Call.chain : Precedence → Call
  | .additive => .sum
  | .multiplicative => .product

theorem call_chain (A : Arithmetic α) (c : Cursor) (p : Precedence) :
    c.call A (.chain p) = c.afterParse (Parser.chain A p c.nesting c.left) := by
  cases p <;> rfl

theorem call_chain_eq_iff {c : Cursor} {p : Precedence} {outcome : Except ParseError α}
    {rest : List PlacedToken} :
    c.call A (.chain p) = (.value outcome, { c with left := rest }) ↔
      (Parser.chain A p c.nesting c.left).outcome = outcome ∧
        (Parser.chain A p c.nesting c.left).rest = rest := by
  simp [call_chain, afterParse]

/-- What can be left of `ts` after calls one after the other, each with a nesting of its own. -/
inductive Leaves (A : Arithmetic α) (ts : List PlacedToken) : List PlacedToken → Prop where
  | none : Leaves A ts ts
  | call {left : List PlacedToken} (n : Nesting) (k : Call) (h : Leaves A ts left) :
      Leaves A ts (Cursor.call A ⟨left, n⟩ k).2.left

theorem left_call_suffix (A : Arithmetic α) (c : Cursor) (k : Call) :
    (c.call A k).2.left <:+ c.left := by
  cases k with
  | sum => exact (Parser.run_parse A (.chain .additive) c.nesting c.left).suffix
  | product => exact (Parser.run_parse A (.chain .multiplicative) c.nesting c.left).suffix
  | next => exact List.tail_suffix _
  | descend =>
    simp only [call]
    split <;> exact List.suffix_rfl

theorem Leaves.suffix {ts left : List PlacedToken} (h : Leaves A ts left) : left <:+ ts := by
  induction h with
  | none => exact List.suffix_rfl
  | call n k _ ih => exact (left_call_suffix A ⟨_, n⟩ k).trans ih

theorem left_run_suffix (A : Arithmetic α) (c : Cursor) (ks : List Call) :
    ∀ answered ∈ c.run A ks, answered.2 <:+ c.left := by
  induction ks generalizing c with
  | nil => exact List.forall_mem_nil _
  | cons k ks ih =>
    have hfirst := left_call_suffix A c k
    exact List.forall_mem_cons.mpr ⟨hfirst, fun answered h => (ih _ answered h).trans hfirst⟩

theorem call_chain_eq_ok_iff {c : Cursor} {p : Precedence} {rest : List PlacedToken} {v : α} :
    c.call A (.chain p) = (.value (.ok v), { c with left := rest }) ↔
      FrontBelow p.rank (rest.map (·.token)) ∧
        ∃ (d : Chain p) (used : List PlacedToken),
          c.left = used ++ rest ∧ d.Spells A c.nesting.room used v := by
  have hstarved : ∀ v, (Parser.chain A p c.nesting c.left).outcome = .ok v →
      (Parser.chain A p c.nesting c.left).starved = false :=
    (Parser.run_parse A (.chain p) c.nesting c.left).starved_eq_false
  rw [call_chain_eq_iff, ← Parser.chain_eq_ok_iff]
  generalize Parser.chain A p c.nesting c.left = r at hstarved
  obtain ⟨outcome, left, starved⟩ := r
  constructor
  · rintro ⟨rfl, rfl⟩
    rw [show starved = false from hstarved v rfl]
  · rintro ⟨⟩
    exact ⟨rfl, rfl⟩

theorem reports_of_call_chain {c : Cursor} {p : Precedence} {rest : List PlacedToken}
    {e : ParseError} (h : c.call A (.chain p) = (.value (.error e), { c with left := rest })) :
    (∃ front t, c.left = front ++ t :: rest ∧
        Parser.Reports A c.nesting .start front (some t) e) ∨
      (rest = [] ∧ Parser.Reports A c.nesting .start c.left none e) := by
  have hrun : Parser.Run A (.chain p) c.nesting c.left (Parser.chain A p c.nesting c.left) :=
    Parser.run_parse A (.chain p) c.nesting c.left
  obtain ⟨houtcome, rfl⟩ := call_chain_eq_iff.mp h
  have hfailed : Parser.Failed A c.nesting .start c.left
      (Parser.chain A p c.nesting c.left) := hrun.failed e houtcome 0
  generalize Parser.chain A p c.nesting c.left = r at hfailed houtcome ⊢
  generalize c.left = ts at hfailed ⊢
  cases hfailed with
  | onToken front rest t hreports =>
    obtain rfl := Except.error.inj houtcome
    exact .inl ⟨front, t, rfl, hreports⟩
  | atEnd _ hreports =>
    obtain rfl := Except.error.inj houtcome
    exact .inr ⟨rfl, hreports⟩

/-- What calls leave is always the end of the tokens, whatever nesting each of them is given. A sum
or a product succeeds on the only derivation in front that it can stop behind, if that has a value
and nests no deeper than there is room, and then leaves what follows. When it fails it has consumed
the token at fault and those in front of it, or all tokens when it wanted one more. -/
theorem call_consumes (A : Arithmetic α) (c : Cursor) :
    (∀ ks, ∀ answered ∈ c.run A ks, answered.2 <:+ c.left) ∧
    (∀ left, Leaves A c.left left → left <:+ c.left) ∧
    ∀ p : Precedence,
      (∀ v rest, c.call A (.chain p) = (.value (.ok v), { c with left := rest }) ↔
        FrontBelow p.rank (rest.map (·.token)) ∧
          ∃ (d : Chain p) (used : List PlacedToken),
            c.left = used ++ rest ∧ d.Spells A c.nesting.room used v) ∧
      (∀ (d d' : Chain p) (used used' rest rest' : List PlacedToken),
        c.left = used ++ rest → c.left = used' ++ rest' →
        d.tokens = used.map (·.token) → d'.tokens = used'.map (·.token) →
        FrontBelow p.rank (rest.map (·.token)) → FrontBelow p.rank (rest'.map (·.token)) →
        d = d' ∧ used = used' ∧ rest = rest') ∧
      ∀ e rest, c.call A (.chain p) = (.value (.error e), { c with left := rest }) →
        (∃ front t, c.left = front ++ t :: rest ∧
          Parser.Reports A c.nesting .start front (some t) e) ∨
        (rest = [] ∧ Parser.Reports A c.nesting .start c.left none e) := by
  refine ⟨left_run_suffix A c, fun left => Leaves.suffix, fun p => ⟨?succeeds, ?unique, ?fails⟩⟩
  case succeeds => exact fun v rest => call_chain_eq_ok_iff
  case unique =>
    intro d d' used used' rest rest' hleft hleft' hused hused' hrest hrest'
    have happend : used ++ rest = used' ++ rest' := hleft.symm.trans hleft'
    have htokens : d.tokens ++ rest.map (·.token) = d'.tokens ++ rest'.map (·.token) := by
      rw [hused, hused', ← List.map_append, ← List.map_append, happend]
    obtain rfl := (Chain.eq_of_append_eq hrest hrest' htokens).1
    have hlength : used.length = used'.length := by
      simpa using congrArg List.length (hused.symm.trans hused')
    exact ⟨rfl, List.append_inj happend hlength⟩
  case fails => exact fun e rest => reports_of_call_chain

end Cursor
end Calculator
