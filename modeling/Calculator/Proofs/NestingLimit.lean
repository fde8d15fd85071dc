import Mathlib.Data.Nat.Find
import Mathlib.Tactic.Choose
import Calculator.Evaluate
import Calculator.Proofs.Derivation
import Calculator.Proofs.Placement
import Calculator.Proofs.Simulation

/-! Runs of one source under different limits. They agree until the shallower one fails, and it
fails at the first parenthesis that goes beyond its limit. -/
namespace Calculator

/-- Behind `ts`, `d` parentheses are open when `opened` were open in front of it. -/
def Token.Balance (opened : Nat) (ts : List Token) (d : Nat) : Prop :=
  opened + ts.count .openParen = ts.count .closeParen + d

@[simp] theorem Token.balance_nil (opened d : Nat) : Balance opened [] d ↔ opened = d := by
  simp [Balance]

theorem Token.balance_cons {opened opened' : Nat} {t : Token} (ht : Balance opened [t] opened')
    (ts : List Token) (d : Nat) : Balance opened (t :: ts) d ↔ Balance opened' ts d := by
  unfold Balance at ht ⊢
  rw [← List.singleton_append, List.count_append, List.count_append]
  omega

theorem Token.Balance.le {opened opened' : Nat} {t : Token} (h : Balance opened [t] opened')
    (ht : t ≠ .openParen) : opened' ≤ opened := by
  unfold Balance at h
  rw [List.count_singleton, if_neg (by simpa using ht)] at h
  omega

theorem Token.lt_maxOpen_of_balance {opened d : Nat} {ts us : List Token}
    (h : Balance opened ts d) : d < maxOpen opened (ts ++ .openParen :: us) := by
  unfold Balance at h
  induction ts generalizing opened d with
  | nil =>
    have := le_maxOpen (opened + 1) us
    simp only [List.count_nil, List.nil_append, maxOpen] at h ⊢
    omega
  | cons t ts ih =>
    rw [List.cons_append]
    cases t with
    | openParen =>
      have := @ih (opened + 1) d (by simp at h; omega)
      rw [maxOpen]
      omega
    | closeParen =>
      rw [maxOpen]
      match opened with
      | 0 =>
        -- One closed too many leaves none open, so one more has to be opened behind it.
        have := @ih 0 (d + 1) (by simp at h; omega)
        rw [Nat.zero_sub]
        omega
      | opened + 1 =>
        have := @ih opened d (by simp at h; omega)
        rw [Nat.add_sub_cancel]
        omega
    | number | operator => exact ih (by simpa using h)

theorem Token.maxOpen_le (opened : Nat) (ts : List Token) :
    maxOpen opened ts ≤ opened + ts.count .openParen := by
  induction ts generalizing opened with
  | nil => exact Nat.le_refl _
  | cons t ts ih =>
    cases t with
    | openParen =>
      have := ih (opened + 1)
      simp [maxOpen]
      omega
    | closeParen =>
      have := ih (opened - 1)
      simp [maxOpen]
      omega
    | number | operator => simpa [maxOpen] using ih opened

/-- `offset` is the place of the first parenthesis in `ts` that finds `d` others open. -/
def OpensAt (opened : Nat) (ts : List PlacedToken) (d offset : Nat) : Prop :=
  ∃ before after, ts = before ++ ⟨.openParen, offset⟩ :: after ∧
    Token.Balance opened (before.map (·.token)) d ∧
    ∀ us o vs, before = us ++ ⟨.openParen, o⟩ :: vs → ¬Token.Balance opened (us.map (·.token)) d

namespace OpensAt

variable {opened opened' d offset : Nat} {ts : List PlacedToken}

theorem here (d offset : Nat) (ts : List PlacedToken) :
    OpensAt d (⟨.openParen, offset⟩ :: ts) d offset :=
  ⟨[], ts, rfl, (Token.balance_nil d d).mpr rfl, by simp⟩

theorem cons (h : OpensAt opened' ts d offset) {t : PlacedToken}
    (ht : Token.Balance opened [t.token] opened') (hne : t.token = .openParen → opened ≠ d) :
    OpensAt opened (t :: ts) d offset := by
  obtain ⟨before, after, rfl, hbefore, hfirst⟩ := h
  refine ⟨t :: before, after, rfl, (Token.balance_cons ht _ d).mpr hbefore, ?_⟩
  intro us o vs hsplit
  cases us with
  | nil =>
    obtain ⟨rfl, rfl⟩ := List.cons.inj hsplit
    simpa using hne rfl
  | cons u us =>
    obtain ⟨rfl, hrest⟩ := List.cons.inj hsplit
    rw [List.map_cons, Token.balance_cons ht]
    exact hfirst us o vs hrest

theorem mem (h : OpensAt opened ts d offset) : ⟨.openParen, offset⟩ ∈ ts := by
  obtain ⟨before, after, rfl, _⟩ := h
  simp

theorem lt_maxOpen (h : OpensAt opened ts d offset) :
    d < Token.maxOpen opened (ts.map (·.token)) := by
  obtain ⟨before, after, rfl, hbefore, _⟩ := h
  rw [List.map_append, List.map_cons]
  exact Token.lt_maxOpen_of_balance hbefore

end OpensAt

namespace Machine

open Nesting (TooDeep)
open Token (Balance)

variable {α : Type} {A : Arithmetic α} {limit limit' : UInt64} {sourceEnd : Nat} {s : State α}
  {ts : List PlacedToken}

/-- What a step does to the stack. Only opening a parenthesis asks for the limit. -/
inductive Effect (A : Arithmetic α) (s : State α) (t : PlacedToken) : Prop where
  | fails (e : ParseError) (he : ∀ limit offset, e ≠ .nestingTooDeep limit offset)
      (h : ∀ limit, s.step A limit t = .error e)
  | moves (s' : State α) (ht : t.token ≠ .openParen)
      (hlen : Balance s.suspended.length [t.token] s'.suspended.length)
      (h : ∀ limit, s.step A limit t = .ok s')
  | opens (s' : State α) (offset : Nat) (ht : t = ⟨.openParen, offset⟩)
      (hlen : s'.suspended.length = s.suspended.length + 1)
      (hdeep : ∀ limit, limit.toNat ≤ s.suspended.length →
        s.step A limit t = .error (.nestingTooDeep limit offset))
      (h : ∀ limit, s.suspended.length < limit.toNat → s.step A limit t = .ok s')

theorem effect (A : Arithmetic α) (s : State α) (t : PlacedToken) : Effect A s t := by
  obtain ⟨mode, frame, suspended⟩ := s
  obtain ⟨token, offset⟩ := t
  cases mode with
  | operand =>
    cases token with
    | number text =>
      cases hv : A.convert? text with
      | some v => exact .moves _ nofun (by simp [Balance]) fun _ => step_number hv offset
      | none => exact .fails _ (by simp) fun _ => step_refused hv
    | openParen =>
      exact .opens ⟨.operand, {}, (offset, frame) :: suspended⟩ offset rfl rfl
        (fun _ hle => step_tooDeep hle offset) fun _ hlt => step_openParen hlt offset
    | operator | closeParen => exact .fails _ (by simp) fun _ => rfl
  | operator term =>
    cases token with
    | operator op =>
      exact .moves (.withOperator A _ term op) nofun (by simp [Balance]) fun _ => rfl
    | closeParen =>
      match suspended with
      | [] => exact .fails _ (by simp) fun _ => rfl
      | _ :: _ => exact .moves _ nofun (by simp [Balance, Nat.add_comm]) fun _ => rfl
    | number | openParen => cases suspended <;> exact .fails _ (by simp) fun _ => rfl

theorem not_tooDeep_finish (s : State α) : ¬TooDeep (s.finish A sourceEnd) := by
  rintro ⟨limit, offset, h⟩
  unfold State.finish at h
  split at h <;> cases h

/-! Whole runs. -/

theorem resume_raise (hle : limit ≤ limit') (h : ¬TooDeep (resume A limit sourceEnd s ts)) :
    resume A limit' sourceEnd s ts = resume A limit sourceEnd s ts := by
  induction ts generalizing s with
  | nil => rfl
  | cons t ts ih =>
    cases effect A s t with
    | fails e _ hstep => rw [resume_of_error (hstep limit), resume_of_error (hstep limit')]
    | moves s' _ _ hstep =>
      rw [resume_of_ok (hstep limit)] at h ⊢
      rw [resume_of_ok (hstep limit')]
      exact ih h
    | opens s' offset _ _ hdeep hstep =>
      have hlt : s.suspended.length < limit.toNat := by
        refine Nat.not_le.mp fun hle => h ?_
        exact ⟨limit, offset, resume_of_error (hdeep limit hle) ts⟩
      rw [resume_of_ok (hstep limit hlt)] at h ⊢
      rw [resume_of_ok (hstep limit' (Nat.lt_of_lt_of_le hlt (UInt64.le_iff_toNat_le.mp hle)))]
      exact ih h

theorem opensAt_of_resume {l : UInt64} {offset : Nat} (hs : s.suspended.length ≤ limit.toNat)
    (h : resume A limit sourceEnd s ts = .error (.nestingTooDeep l offset)) :
    l = limit ∧ OpensAt s.suspended.length ts limit.toNat offset := by
  induction ts generalizing s with
  | nil => exact absurd ⟨_, _, h⟩ (not_tooDeep_finish s)
  | cons t ts ih =>
    cases effect A s t with
    | fails e he hstep =>
      rw [resume_of_error (hstep limit)] at h
      exact absurd (Except.error.inj h) (he l offset)
    | moves s' ht hlen hstep =>
      rw [resume_of_ok (hstep limit)] at h
      obtain ⟨rfl, hopens⟩ := ih (Nat.le_trans (hlen.le ht) hs) h
      exact ⟨rfl, hopens.cons hlen fun hopen => absurd hopen ht⟩
    | opens s' opening ht hlen hdeep hstep =>
      subst ht
      by_cases hlt : s.suspended.length < limit.toNat
      · rw [resume_of_ok (hstep limit hlt)] at h
        obtain ⟨rfl, hopens⟩ := ih (hlen ▸ hlt) h
        exact ⟨rfl, hopens.cons (by simp [Balance, hlen]) fun _ => Nat.ne_of_lt hlt⟩
      · -- The stack never outgrows the limit, so here it is as high as that.
        have hle := Nat.not_lt.mp hlt
        rw [resume_of_error (hdeep limit hle)] at h
        obtain ⟨rfl, rfl⟩ := ParseError.nestingTooDeep.inj (Except.error.inj h)
        rw [Nat.le_antisymm hs hle]
        exact ⟨rfl, .here ..⟩

/-- Of two limits that are both too low, the lower one is exceeded first. -/
theorem offset_lt_of_resume {offset offset' : Nat} (hlt : limit < limit')
    (hs : s.suspended.length ≤ limit.toNat) (hts : ts.Pairwise (·.offset < ·.offset))
    (h : resume A limit sourceEnd s ts = .error (.nestingTooDeep limit offset))
    (h' : resume A limit' sourceEnd s ts = .error (.nestingTooDeep limit' offset')) :
    offset < offset' := by
  have hlt := UInt64.lt_iff_toNat_lt.mp hlt
  induction ts generalizing s with
  | nil => exact absurd ⟨_, _, h⟩ (not_tooDeep_finish s)
  | cons t ts ih =>
    obtain ⟨hfirst, hrest⟩ := List.pairwise_cons.mp hts
    cases effect A s t with
    | fails e he hstep =>
      rw [resume_of_error (hstep limit)] at h
      exact absurd (Except.error.inj h) (he limit offset)
    | moves s' ht hlen hstep =>
      rw [resume_of_ok (hstep limit)] at h
      rw [resume_of_ok (hstep limit')] at h'
      exact ih (Nat.le_trans (hlen.le ht) hs) hrest h h'
    | opens s' opening ht hlen hdeep hstep =>
      subst ht
      rw [resume_of_ok (hstep limit' (Nat.lt_of_le_of_lt hs hlt))] at h'
      by_cases hroom : s.suspended.length < limit.toNat
      · rw [resume_of_ok (hstep limit hroom)] at h
        exact ih (hlen ▸ hroom) hrest h h'
      · rw [resume_of_error (hdeep limit (Nat.not_lt.mp hroom))] at h
        obtain ⟨_, rfl⟩ := ParseError.nestingTooDeep.inj (Except.error.inj h)
        have hopens := (opensAt_of_resume (by omega) h').2
        exact hfirst _ hopens.mem

end Machine

open Lexer (tokens placed)
open Nesting (TooDeep)

namespace Parser

variable {α : Type} {A : Arithmetic α} {limit limit' : UInt64} {sourceEnd : Nat}
  {ts : List PlacedToken}

theorem sentence_raise (hle : limit ≤ limit')
    (h : ¬TooDeep (sentence A (.start limit sourceEnd) ts)) :
    sentence A (.start limit' sourceEnd) ts = sentence A (.start limit sourceEnd) ts := by
  rw [← run_eq_sentence rfl] at h
  rw [← run_eq_sentence rfl, ← run_eq_sentence rfl]
  exact Machine.resume_raise hle h

theorem opensAt_of_sentence {l : UInt64} {offset : Nat}
    (h : sentence A (.start limit sourceEnd) ts = .error (.nestingTooDeep l offset)) :
    l = limit ∧ OpensAt 0 ts limit.toNat offset := by
  rw [← run_eq_sentence rfl] at h
  exact Machine.opensAt_of_resume (Nat.zero_le _) h

theorem offset_lt_of_sentence {offset offset' : Nat} (hlt : limit < limit')
    (hts : ts.Pairwise (·.offset < ·.offset))
    (h : sentence A (.start limit sourceEnd) ts = .error (.nestingTooDeep limit offset))
    (h' : sentence A (.start limit' sourceEnd) ts = .error (.nestingTooDeep limit' offset')) :
    offset < offset' := by
  rw [← run_eq_sentence rfl] at h h'
  exact Machine.offset_lt_of_resume hlt (Nat.zero_le _) hts h h'

end Parser

/-! Sources. -/

theorem evaluateWithLimit_eq (source : String) (limit : UInt64) :
    evaluateWithLimit source limit =
      if tokens (placed source) = [] then .error .invalidExpression else
        Parser.sentence binary64 (.start limit source.utf8ByteSize) (tokens (placed source)) := by
  unfold evaluateWithLimit tokenize
  cases tokens (placed source) <;> rfl

theorem evaluateWithLimit_raise {source : String} {limit limit' : UInt64} (hle : limit ≤ limit')
    (h : ¬TooDeep (evaluateWithLimit source limit)) :
    evaluateWithLimit source limit' = evaluateWithLimit source limit := by
  rw [evaluateWithLimit_eq] at h
  rw [evaluateWithLimit_eq, evaluateWithLimit_eq]
  split
  next => rfl
  next hne =>
    rw [if_neg hne] at h
    exact Parser.sentence_raise hle h

theorem sentence_of_evaluateWithLimit {source : String} {limit l : UInt64} {offset : Nat}
    (h : evaluateWithLimit source limit = .error (.nestingTooDeep l offset)) :
    Parser.sentence binary64 (.start limit source.utf8ByteSize) (tokens (placed source)) =
      .error (.nestingTooDeep l offset) := by
  rw [evaluateWithLimit_eq] at h
  split at h
  next => cases h
  next => exact h

theorem opensAt_of_evaluateWithLimit {source : String} {limit : UInt64}
    (h : TooDeep (evaluateWithLimit source limit)) :
    ∃ offset, evaluateWithLimit source limit = .error (.nestingTooDeep limit offset) ∧
      OpensAt 0 (tokens (placed source)) limit.toNat offset := by
  obtain ⟨l, offset, h⟩ := h
  obtain ⟨rfl, hopens⟩ := Parser.opensAt_of_sentence (sentence_of_evaluateWithLimit h)
  exact ⟨offset, h, hopens⟩

theorem not_tooDeep_of_maxOpen_le {source : String} {limit : UInt64}
    (h : Token.maxOpen 0 ((tokens (placed source)).map (·.token)) ≤ limit.toNat) :
    ¬TooDeep (evaluateWithLimit source limit) := by
  intro hdeep
  obtain ⟨offset, _, hopens⟩ := opensAt_of_evaluateWithLimit hdeep
  exact Nat.not_lt.mpr h hopens.lt_maxOpen

theorem offset_lt_of_evaluateWithLimit {source : String} {limit limit' : UInt64}
    {offset offset' : Nat} (hlt : limit < limit')
    (h : evaluateWithLimit source limit = .error (.nestingTooDeep limit offset))
    (h' : evaluateWithLimit source limit' = .error (.nestingTooDeep limit' offset')) :
    offset < offset' :=
  Parser.offset_lt_of_sentence hlt (Lexer.pairwise_offset_tokens source)
    (sentence_of_evaluateWithLimit h) (sentence_of_evaluateWithLimit h')

/-- What is too deep stays so under lower limits, so some limit is the least that is high enough. -/
theorem exists_tooDeep_iff (source : String) :
    ∃ levels ≤ Token.maxOpen 0 ((tokens (placed source)).map (·.token)),
      ∀ d : UInt64, TooDeep (evaluateWithLimit source d) ↔ d.toNat < levels := by
  classical
  have hexists : ∃ levels, ∀ d : UInt64, levels ≤ d.toNat → ¬TooDeep (evaluateWithLimit source d) :=
    ⟨_, fun _ => not_tooDeep_of_maxOpen_le⟩
  refine ⟨Nat.find hexists, Nat.find_min' hexists fun _ => not_tooDeep_of_maxOpen_le, fun d => ?_⟩
  constructor
  · intro hdeep
    exact Nat.not_le.mp fun hle => Nat.find_spec hexists d hle hdeep
  · intro hlt
    by_contra hdeep
    refine Nat.find_min hexists hlt fun d' hle => ?_
    rwa [evaluateWithLimit_raise (UInt64.le_iff_toNat_le.mpr hle) hdeep]

/-- A limit of `levels` or more makes no difference to a source. Under a lower limit `d` the first
parenthesis too many is reported, which is at `offset d`. -/
structure NestingThreshold (source : String) (levels : Nat) (offset : UInt64 → Nat) : Prop where
  le_count : levels ≤ source.toList.count '('
  /-- Groups side by side do not add up. -/
  le_maxOpen : levels ≤ Token.maxOpen 0 ((tokens (placed source)).map (·.token))
  enough : ∀ d : UInt64, levels ≤ d.toNat → ¬TooDeep (evaluateWithLimit source d)
  same : ∀ d d' : UInt64, levels ≤ d.toNat → levels ≤ d'.toNat →
    evaluateWithLimit source d = evaluateWithLimit source d'
  short : ∀ d : UInt64, d.toNat < levels →
    evaluateWithLimit source d = .error (.nestingTooDeep d (offset d)) ∧
      OpensAt 0 (tokens (placed source)) d.toNat (offset d)
  increasing : ∀ d d' : UInt64, d < d' → d'.toNat < levels → offset d < offset d'
  raise : ∀ d d' : UInt64, d ≤ d' → ¬TooDeep (evaluateWithLimit source d) →
    evaluateWithLimit source d' = evaluateWithLimit source d

/-- The limit matters only up to the threshold, and only by ending a run early. -/
theorem exists_nestingThreshold (source : String) :
    ∃ levels offset, NestingThreshold source levels offset := by
  obtain ⟨levels, hmaxOpen, hlevels⟩ := exists_tooDeep_iff source
  have enough (d : UInt64) (hd : levels ≤ d.toNat) : ¬TooDeep (evaluateWithLimit source d) :=
    fun hdeep => Nat.not_lt.mpr hd ((hlevels d).mp hdeep)
  have hoffset (d : UInt64) : ∃ offset, d.toNat < levels →
      evaluateWithLimit source d = .error (.nestingTooDeep d offset) ∧
        OpensAt 0 (tokens (placed source)) d.toNat offset := by
    by_cases hd : d.toNat < levels
    · obtain ⟨offset, h⟩ := opensAt_of_evaluateWithLimit ((hlevels d).mpr hd)
      exact ⟨offset, fun _ => h⟩
    · exact ⟨0, fun h => absurd h hd⟩
  choose offset short using hoffset
  refine ⟨levels, offset, ?_⟩
  exact {
    le_count := by
      have := Token.maxOpen_le 0 ((tokens (placed source)).map (·.token))
      have := Lexer.count_openParen_tokens_le source
      omega
    le_maxOpen := hmaxOpen
    enough := enough
    same := by
      intro d d' hd hd'
      obtain hle | hle := UInt64.le_total d d'
      · exact (evaluateWithLimit_raise hle (enough d hd)).symm
      · exact evaluateWithLimit_raise hle (enough d' hd')
    short := short
    increasing := by
      intro d d' hlt hd'
      have hd := Nat.lt_trans (UInt64.lt_iff_toNat_lt.mp hlt) hd'
      exact offset_lt_of_evaluateWithLimit hlt (short d hd).1 (short d' hd').1
    raise := fun d d' hle hdeep => evaluateWithLimit_raise hle hdeep }

end Calculator
