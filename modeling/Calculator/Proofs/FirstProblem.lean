import Calculator.Proofs.Outline
import Calculator.Proofs.Simulation

/-! The first problem is the one reported. What is read in front of a failure can be continued to a
sentence, and together with the token that failed it cannot. -/
namespace Calculator

variable {α : Type} {A : Arithmetic α}

/-- How reading fails when it starts from the outline `s` and the numbers convert. Only nesting is
no matter of the grammar. -/
inductive Outline.Fails (s : Outline) (sourceEnd : Nat) : List PlacedToken → Parse α → Prop where
  | tooDeep (ts : List PlacedToken) (limit : UInt64) (offset : Nat) (rest : List PlacedToken) :
      Fails s sourceEnd ts ⟨.error (.nestingTooDeep limit offset), rest, false⟩
  | onToken (used : List PlacedToken) {t : PlacedToken} {rest : List PlacedToken} {s' : Outline}
      {e : ParseError}
      (hread : s.read? (used.map (·.token)) = some s') (hstuck : s'.next? t.token = none)
      (he : e = .unexpectedToken t.token.text t.offset ∨
        ∃ opening, e = .expectedClosingParen opening) :
      Fails s sourceEnd (used ++ t :: rest) ⟨.error e, rest, false⟩
  | atEnd {ts : List PlacedToken} {s' : Outline} {e : ParseError}
      (hread : s.read? (ts.map (·.token)) = some s') (hopen : s' ≠ complete)
      (he : e = .unexpectedEndOfInput sourceEnd ∨ ∃ opening, e = .expectedClosingParen opening) :
      Fails s sourceEnd ts ⟨.error e, [], true⟩

theorem Outline.Fails.append {s s' : Outline} {sourceEnd : Nat} {ts : List PlacedToken}
    {r : Parse α} (h : s'.Fails sourceEnd ts r) (us : List PlacedToken)
    (hus : s.read? (us.map (·.token)) = some s') : s.Fails sourceEnd (us ++ ts) r := by
  cases h with
  | tooDeep => exact .tooDeep ..
  | onToken used hread hstuck he =>
    rw [← List.append_assoc]
    exact .onToken _ (by rw [List.map_append, read?_append, hus, Option.bind_some, hread]) hstuck he
  | atEnd hread hopen he =>
    exact .atEnd (by rw [List.map_append, read?_append, hus, Option.bind_some, hread]) hopen he

/-- A call that starts from the outline `s` goes on from `after`, or fails as it should. -/
structure Outline.Follows (s after : Outline) (sourceEnd : Nat) (ts : List PlacedToken)
    (r : Parse α) : Prop where
  ok : ∀ v, r.outcome = .ok v →
    ∃ used, ts = used ++ r.rest ∧ s.read? (used.map (·.token)) = some after
  error : ∀ e, r.outcome = .error e → s.Fails sourceEnd ts r

namespace Outline.Follows

variable {s s' after : Outline} {sourceEnd : Nat} {ts : List PlacedToken} {r : Parse α}

theorem append (h : s'.Follows after sourceEnd ts r) (us : List PlacedToken)
    (hus : s.read? (us.map (·.token)) = some s') : s.Follows after sourceEnd (us ++ ts) r where
  ok := by
    intro v hv
    obtain ⟨used, hts, hread⟩ := h.ok v hv
    refine ⟨us ++ used, by rw [hts, List.append_assoc], ?_⟩
    rw [List.map_append, read?_append, hus, Option.bind_some, hread]
  error := fun e he => (h.error e he).append us hus

theorem of_fails {e : ParseError} {rest : List PlacedToken} {starved : Bool}
    (h : s.Fails (α := α) sourceEnd ts ⟨.error e, rest, starved⟩) :
    s.Follows (α := α) after sourceEnd ts ⟨.error e, rest, starved⟩ :=
  ⟨fun _ hv => by contradiction, fun _ _ => h⟩

end Outline.Follows

namespace Parser

open Nesting Outline
open Token (FrontBelow Viable IsSentence)

/-- A chain starts with an operand, and its loop behind one. -/
def Production.wantsOperand : Production α → Bool
  | .extend .. => false
  | _ => true

@[simp] theorem Production.wantsOperand_chain (p : Precedence) :
    (Production.chain p : Production α).wantsOperand = true := rfl

@[simp] theorem Production.wantsOperand_extend (p : Precedence) (v : α) :
    (Production.extend p v).wantsOperand = false := rfl

@[simp] theorem Production.wantsOperand_factor :
    (Production.factor : Production α).wantsOperand = true := rfl

@[simp] theorem Production.wantsOperand_operand (p : Precedence) :
    (Production.operand p : Production α).wantsOperand = true := by cases p <;> rfl

theorem next?_of_refused {t : Token} {ts : List Token} (h : Refused A t)
    (hconverts : A.Converts (t :: ts)) (opened : Nat) : next? ⟨opened, true⟩ t = none := by
  cases t with
  | number text =>
    have hsome := hconverts text (List.mem_cons_self ..)
    rw [show A.convert? text = none from h] at hsome
    contradiction
  | openParen => exact absurd h id
  | operator | closeParen => rfl

/-- Behind the body of a group only its closing parenthesis can be read. -/
theorem next?_of_unclosed {t : Token} {ts : List Token} (hfront : FrontBelow 0 (t :: ts))
    (ht : t ≠ .closeParen) (opened : Nat) : next? ⟨opened, false⟩ t = none := by
  cases t with
  | operator op => simp at hfront
  | closeParen => exact absurd rfl ht
  | number | openParen => rfl

theorem next?_complete {t : Token} {ts : List Token} (hfront : FrontBelow 0 (t :: ts)) :
    complete.next? t = none := by
  cases t with
  | operator op => simp at hfront
  | number | openParen | closeParen => rfl

theorem Run.follows {k : Production α} {n : Nesting} {ts : List PlacedToken} {r : Parse α}
    (h : Run A k n ts r) : A.Converts (ts.map (·.token)) → ∀ opened,
    Follows ⟨opened, k.wantsOperand⟩ ⟨opened, false⟩ n.sourceEnd ts r := by
  induction h with simp only [Production.wantsOperand_chain, Production.wantsOperand_extend,
    Production.wantsOperand_factor, Production.wantsOperand_operand] at *
  | chainFailed _ first => exact first
  | chain p v _ _ first more =>
    intro hconverts opened
    obtain ⟨used, rfl, hread⟩ := (first hconverts opened).ok v rfl
    exact (more (hconverts.mono (by simp)) opened).append used hread
  | stop => exact fun _ _ => ⟨fun _ _ => ⟨[], rfl, rfl⟩, fun _ he => by contradiction⟩
  | turnFailed p v h _ right =>
    intro hconverts opened
    exact (right (hconverts.mono (by simp)) opened).append [_] rfl
  | turn p v w op offset h _ _ right more =>
    intro hconverts opened
    obtain ⟨used, rfl, hread⟩ := (right (hconverts.mono (by simp)) opened).ok w rfl
    have hmore := (more (hconverts.mono (by simp)) opened).append used hread
    exact hmore.append [⟨.operator op, offset⟩] rfl
  | ended => exact fun _ _ => .of_fails (.atEnd rfl (by simp [complete]) (.inl rfl))
  | number => exact fun _ _ => ⟨fun _ _ => ⟨[_], rfl, rfl⟩, fun _ he => by contradiction⟩
  | refused h =>
    intro hconverts opened
    exact .of_fails (.onToken [] rfl (next?_of_refused h hconverts opened) (.inl rfl))
  | tooDeep => exact fun _ _ => .of_fails (.tooDeep ..)
  | groupFailed h _ body =>
    intro hconverts opened
    have hbody := (body (hconverts.mono (by simp)) (opened + 1)).error _ rfl
    rw [(Nesting.descend_eq_ok h).2.2.2] at hbody
    exact .of_fails (hbody.append [_] rfl)
  | group opening closing h _ body =>
    intro hconverts opened
    refine ⟨fun v hv => ?_, fun e he => by contradiction⟩
    obtain ⟨used, rfl, hread⟩ := (body (hconverts.mono (by simp)) (opened + 1)).ok _ rfl
    refine ⟨⟨.openParen, opening⟩ :: (used ++ [⟨.closeParen, closing⟩]), by simp, ?_⟩
    simp [next?, read?_append, hread]
  | unclosed v h run ht body =>
    intro hconverts opened
    obtain ⟨used, rfl, hread⟩ := (body (hconverts.mono (by simp)) (opened + 1)).ok v rfl
    have hstuck := next?_of_unclosed (run.stops v rfl) ht (opened + 1)
    exact .of_fails (.onToken (_ :: used) hread hstuck (.inr ⟨_, rfl⟩))
  | unclosedAtEnd h _ body =>
    intro hconverts opened
    obtain ⟨used, rfl, hread⟩ := (body (hconverts.mono (by simp)) (opened + 1)).ok _ rfl
    exact .of_fails (.atEnd (by simpa [next?] using hread) (by simp [complete]) (.inr ⟨_, rfl⟩))

/-! Where a failure is raised. -/

inductive Site where
  | token (index : Nat)
  | ending
deriving DecidableEq

/-- A failure is raised at the token consumed last, unless a token was wanted and none was left. -/
def failureSite? (A : Arithmetic α) (n : Nesting) (ts : List PlacedToken) : Option Site :=
  match sum A n ts with
  | ⟨.error _, rest, false⟩ => some (.token (ts.length - rest.length - 1))
  | ⟨.error _, _, true⟩ => some .ending
  | ⟨.ok _, _ :: rest, _⟩ => some (.token (ts.length - rest.length - 1))
  | ⟨.ok _, [], _⟩ => none

theorem length_sub_rest (used rest : List PlacedToken) (t : PlacedToken) :
    (used ++ t :: rest).length - rest.length - 1 = used.length := by
  rw [List.length_append, List.length_cons]
  omega

/-- What is reported of a failure at the token with index `i`. -/
structure RaisedAt (ts : List PlacedToken) (i : Nat) (e : ParseError) : Prop where
  names : ∃ t, ts[i]? = some t ∧
    (e = .unexpectedToken t.token.text t.offset ∨ e = .trailingInput t.token.text t.offset ∨
      ∃ opening, e = .expectedClosingParen opening)
  viable : Viable ((ts.take i).map (·.token))
  not_viable : ¬Viable ((ts.take (i + 1)).map (·.token))
  trailing : ∀ text offset, e = .trailingInput text offset →
    IsSentence ((ts.take i).map (·.token)) ∧ ∀ t ∈ ts[i]?, t.token.operator? = none

/-- What is reported of a failure at the end of the tokens. -/
structure RaisedAtEnd (ts : List PlacedToken) (sourceEnd : Nat) (e : ParseError) : Prop where
  names : e = .unexpectedEndOfInput sourceEnd ∨ ∃ opening, e = .expectedClosingParen opening
  viable : Viable (ts.map (·.token))
  not_sentence : ¬IsSentence (ts.map (·.token))

theorem raisedAt_of_stuck {used rest : List PlacedToken} {t : PlacedToken} {s : Outline}
    {e : ParseError} (hread : start.read? (used.map (·.token)) = some s)
    (hstuck : s.next? t.token = none)
    (names : e = .unexpectedToken t.token.text t.offset ∨
      e = .trailingInput t.token.text t.offset ∨ ∃ opening, e = .expectedClosingParen opening)
    (trailing : ∀ text offset, e = .trailingInput text offset → s = complete) :
    RaisedAt (used ++ t :: rest) used.length e where
  names := ⟨t, by simp, names⟩
  viable := by rw [List.take_left, viable_iff, hread]; rfl
  not_viable := by
    rw [List.take_length_add_append, viable_iff]
    simp [read?_append, hread, hstuck]
  trailing := by
    intro text offset he
    obtain rfl := trailing text offset he
    refine ⟨by rw [List.take_left, isSentence_iff, hread], ?_⟩
    obtain ⟨token, offset⟩ := t
    cases token with
    | operator => contradiction
    | number | openParen | closeParen => simp [Token.operator?]

theorem raisedAtEnd_of_open {ts : List PlacedToken} {sourceEnd : Nat} {s : Outline}
    {e : ParseError} (hread : start.read? (ts.map (·.token)) = some s) (hopen : s ≠ complete)
    (names : e = .unexpectedEndOfInput sourceEnd ∨ ∃ opening, e = .expectedClosingParen opening) :
    RaisedAtEnd ts sourceEnd e where
  names := names
  viable := by rw [viable_iff, hread]; rfl
  not_sentence := by
    rw [isSentence_iff, hread]
    exact fun h => hopen (Option.some.inj h)

/-- What the outcome and the place of the failure say together. -/
inductive Verdict (ts : List PlacedToken) (sourceEnd : Nat) :
    Except ParseError α → Option Site → Prop where
  | accepted (v : α) (h : IsSentence (ts.map (·.token))) : Verdict ts sourceEnd (.ok v) none
  | atToken {e : ParseError} (i : Nat) (h : RaisedAt ts i e) :
      Verdict ts sourceEnd (.error e) (some (.token i))
  | atEnd {e : ParseError} (h : RaisedAtEnd ts sourceEnd e) :
      Verdict ts sourceEnd (.error e) (some .ending)

theorem verdict {n : Nesting} {ts : List PlacedToken} (hconverts : A.Converts (ts.map (·.token)))
    (hnesting : ¬TooDeep (sentence A n ts)) :
    Verdict ts n.sourceEnd (sentence A n ts) (failureSite? A n ts) := by
  have hrun : Run A (.chain .additive) n ts (sum A n ts) := run_parse A (.chain .additive) n ts
  have hfollows : Follows start complete n.sourceEnd ts (sum A n ts) := hrun.follows hconverts 0
  have hstops := hrun.stops
  unfold sentence failureSite? at *
  match hsum : sum A n ts with
  | ⟨.error e, rest, starved⟩ =>
    rw [hsum] at hfollows hnesting
    cases hfollows.error e rfl with
    | tooDeep => exact absurd ⟨_, _, rfl⟩ hnesting
    | @onToken used t rest _ _ hread hstuck he =>
      simp only [length_sub_rest]
      refine .atToken _ (raisedAt_of_stuck hread hstuck (he.imp_right .inr) ?_)
      rintro text offset rfl
      simp at he
    | atEnd hread hopen he => exact .atEnd (raisedAtEnd_of_open hread hopen he)
  | ⟨.ok v, rest, starved⟩ =>
    rw [hsum] at hfollows hstops
    obtain ⟨used, rfl, hread⟩ := hfollows.ok v rfl
    match rest with
    | [] => exact .accepted v ((isSentence_iff _).mpr (by simpa using hread))
    | t :: rest =>
      have hstuck := next?_complete (hstops v rfl)
      simp only [length_sub_rest]
      exact .atToken _ (raisedAt_of_stuck hread hstuck (.inr (.inl rfl)) fun _ _ _ => rfl)

/-- A failure other than for nesting is raised at the first token that rules out every
continuation, or at the end of the tokens when more of them could still make a sentence. So the
tokens can be continued to a sentence exactly when they are accepted or fail at their end. -/
theorem raised_at_first_problem (A : Arithmetic α) (limit : UInt64) (sourceEnd : Nat)
    (ts : List PlacedToken) (hconverts : A.Converts (ts.map (·.token)))
    (hnesting : ¬TooDeep (sentence A (.start limit sourceEnd) ts)) :
    (∀ e, sentence A (.start limit sourceEnd) ts = .error e →
      (∃ i, failureSite? A (.start limit sourceEnd) ts = some (.token i) ∧ RaisedAt ts i e) ∨
      (failureSite? A (.start limit sourceEnd) ts = some .ending ∧
        RaisedAtEnd ts sourceEnd e)) ∧
    (Viable (ts.map (·.token)) ↔ (∃ v, sentence A (.start limit sourceEnd) ts = .ok v) ∨
      failureSite? A (.start limit sourceEnd) ts = some .ending) := by
  have hverdict := verdict hconverts hnesting
  generalize sentence A (.start limit sourceEnd) ts = outcome at hverdict ⊢
  generalize failureSite? A (.start limit sourceEnd) ts = site? at hverdict ⊢
  cases hverdict with
  | accepted v h =>
    refine ⟨fun e he => ?_, fun _ => .inl ⟨v, rfl⟩, fun _ => h.viable⟩
    contradiction
  | atToken i h =>
    refine ⟨fun e he => ?_, fun hviable => ?_, by simp⟩
    · cases he
      exact .inl ⟨i, rfl, h⟩
    · rw [← List.take_append_drop (i + 1) ts, List.map_append] at hviable
      exact absurd hviable.of_append h.not_viable
  | atEnd h =>
    refine ⟨fun e he => ?_, fun _ => .inr rfl, fun _ => h.viable⟩
    cases he
    exact .inr ⟨rfl, h⟩

/-- In `(1 2` the second number is at fault although the report points at the parenthesis. -/
theorem raised_at_first_problem_unclosed :
    ∃ i, failureSite? (⟨fun _ => some (), fun _ _ _ => ()⟩ : Arithmetic Unit) (.start 256 4)
        [⟨.openParen, 0⟩, ⟨.number "1", 1⟩, ⟨.number "2", 3⟩] = some (.token i) ∧
      RaisedAt [⟨.openParen, 0⟩, ⟨.number "1", 1⟩, ⟨.number "2", 3⟩] i
        (.expectedClosingParen 0) := by
  have hresult : sentence (⟨fun _ => some (), fun _ _ _ => ()⟩ : Arithmetic Unit) (.start 256 4)
      [⟨.openParen, 0⟩, ⟨.number "1", 1⟩, ⟨.number "2", 3⟩] = .error (.expectedClosingParen 0) := by
    rw [← run_eq_sentence rfl]
    rfl
  have hproblem := raised_at_first_problem (⟨fun _ => some (), fun _ _ _ => ()⟩ : Arithmetic Unit)
    256 4 [⟨.openParen, 0⟩, ⟨.number "1", 1⟩, ⟨.number "2", 3⟩] (fun _ _ => rfl)
    (by simp [TooDeep, hresult])
  refine (hproblem.1 _ hresult).resolve_right fun h => ?_
  exact absurd ((viable_iff _).mp h.2.viable) (by decide)

end Parser
end Calculator
