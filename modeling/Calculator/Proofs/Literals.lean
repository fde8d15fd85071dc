import Calculator.Proofs.Composition
import Calculator.Proofs.Control
import Calculator.Proofs.DoubleBits
import Calculator.Proofs.Spans

/-! Number literals. What the lexer takes for a number always has a value, so no parse ends at one
that cannot be read, and how a number is spelled does not decide whether a source is accepted. -/
namespace Calculator

namespace Machine

variable {α : Type} {A B : Arithmetic α} {limit : UInt64} {sourceEnd : Nat}

/-- Of the spellings, a step reads only that of its own token. -/
theorem State.step_congr (happly : B.apply = A.apply) {t : PlacedToken}
    (h : ∀ text, t.token = .number text → B.convert? text = A.convert? text) (s : State α) :
    s.step B limit t = s.step A limit t := by
  obtain ⟨convert, apply⟩ := A
  obtain ⟨convert', _⟩ := B
  obtain rfl : _ = apply := happly
  obtain ⟨mode, frame, suspended⟩ := s
  obtain ⟨token, offset⟩ := t
  cases mode with
  | operand =>
    cases token with
    | number text =>
      have htext : convert' text = convert text := h text rfl
      simp only [step, stepOperand, htext]
      rfl
    | operator | openParen | closeParen => rfl
  | operator term => rfl

theorem resume_congr (happly : B.apply = A.apply) {ts : List PlacedToken}
    (h : ∀ t ∈ ts, ∀ text, t.token = .number text → B.convert? text = A.convert? text)
    (s : State α) : resume B limit sourceEnd s ts = resume A limit sourceEnd s ts := by
  induction ts generalizing s with
  | nil =>
    obtain ⟨convert, apply⟩ := A
    obtain ⟨convert', _⟩ := B
    obtain rfl : _ = apply := happly
    rfl
  | cons t ts ih =>
    obtain ⟨ht, hts⟩ := List.forall_mem_cons.mp h
    have hstep : s.step B limit t = s.step A limit t := State.step_congr happly ht s
    cases hs : s.step A limit t with
    | error e => rw [resume_of_error hs, resume_of_error (hstep.trans hs)]
    | ok s' => rw [resume_of_ok hs, resume_of_ok (hstep.trans hs), ih hts]

end Machine

/-- What a token is, whatever the spelling of a number. -/
inductive Token.Kind where
  | number
  | operator (op : Operator)
  | openParen
  | closeParen
deriving DecidableEq

def Token.kind : Token → Kind
  | number _ => .number
  | operator op => .operator op
  | openParen => .openParen
  | closeParen => .closeParen

theorem Token.sameKind_of_kind {A : Arithmetic α} {B : Arithmetic β} {t u : Token}
    (h : t.kind = u.kind) (ht : A.Converts [t]) (hu : B.Converts [u]) : SameKind A B t u := by
  cases t with
  | number text =>
    cases u with
    | number text' => exact .number (ht text (by simp)) (hu text' (by simp))
    | operator | openParen | closeParen => contradiction
  | operator op =>
    cases u with
    | operator op' =>
      obtain rfl := Kind.operator.inj h
      exact .operator op
    | number | openParen | closeParen => contradiction
  | openParen =>
    cases u with
    | openParen => exact .openParen
    | number | operator | closeParen => contradiction
  | closeParen =>
    cases u with
    | closeParen => exact .closeParen
    | number | operator | openParen => contradiction

theorem Token.sameKinds_of_kinds {A : Arithmetic α} {B : Arithmetic β} {ts us : List PlacedToken}
    (h : ts.map (·.token.kind) = us.map (·.token.kind)) (hts : A.Converts (ts.map (·.token)))
    (hus : B.Converts (us.map (·.token))) : SameKinds A B ts us := by
  induction ts generalizing us with
  | nil =>
    obtain rfl := List.map_eq_nil_iff.mp h.symm
    exact .nil
  | cons t ts ih =>
    cases us with
    | nil => contradiction
    | cons u us =>
      obtain ⟨hkind, hkinds⟩ := List.cons.inj h
      have hfirst {a : Token} {as : List Token} : [a] ⊆ a :: as := by simp
      exact .cons (sameKind_of_kind hkind (hts.mono hfirst) (hus.mono hfirst))
        (ih hkinds (hts.mono (List.subset_cons_self _ _)) (hus.mono (List.subset_cons_self _ _)))

theorem convert?_of_tokenize {source text : String} {ts : List PlacedToken} {offset : Nat}
    (hts : tokenize source = .ok ts) (h : ⟨.number text, offset⟩ ∈ ts) :
    ∃ x : Float, binary64.convert? text = some x ∧ Binary64.isNegative x = false ∧
      x.isNaN = false := by
  obtain ⟨-, rfl⟩ := tokenize_eq_ok_iff.mp hts
  have hmem : .number text ∈ Lexer.kinds source := List.mem_map_of_mem h
  obtain ⟨d, hd⟩ := Decimal.exists_readFloat? (Lexer.isNumeral_of_mem_kinds hmem)
  exact ⟨_, hd, Binary64.isNegative_toFloat false d, Binary64.isNaN_toFloat false d⟩

open Lexer (tokensFrom)

/-- Sources whose tokens are of the same kinds are accepted together. -/
theorem exists_evaluateWithLimit_congr {source source' : String}
    (h : (tokensFrom 0 source).map (·.token.kind) = (tokensFrom 0 source').map (·.token.kind))
    (limit : UInt64) :
    (∃ v, evaluateWithLimit source limit = .ok v) ↔
      ∃ v, evaluateWithLimit source' limit = .ok v := by
  have hsentence (text : String) : (∃ v, evaluateWithLimit text limit = .ok v) ↔
      ∃ v, Parser.sentence binary64 (.start limit text.utf8ByteSize) (tokensFrom 0 text)
        = .ok v := by
    simp only [evaluateWithLimit_eq_ok_iff, Parser.sentence_eq_ok_iff, Nesting.room_start]
  have hkinds := Token.sameKinds_of_kinds h (converts_kinds source) (converts_kinds source')
  have hn : (Nesting.start limit source.utf8ByteSize).SameDepth
      (.start limit source'.utf8ByteSize) := ⟨rfl, rfl⟩
  rw [hsentence, hsentence]
  obtain ⟨hv, hw⟩ | ⟨_, ⟨⟨d, hd, _⟩, _⟩, ⟨⟨e, he, _⟩, _⟩⟩ := Parser.sentence_alike hn hkinds
  · exact iff_of_true hv hw
  · rw [hd, he]
    exact iff_of_false (by simp) (by simp)

/-- The outcome is the same for every reading of numbers that reads what `binary64` reads. -/
theorem evaluateWithLimit_eq_of_reads {A : Arithmetic Float} (happly : A.apply = binary64.apply)
    (hreads : ∀ text x, binary64.convert? text = some x → A.convert? text = some x)
    (source : String) (limit : UInt64) :
    (tokenize source).bind (Parser.sentence A (.start limit source.utf8ByteSize)) =
      evaluateWithLimit source limit := by
  unfold evaluateWithLimit evaluateTokens
  cases hts : tokenize source with
  | error e => rfl
  | ok ts =>
    show Parser.sentence A _ ts = Parser.sentence binary64 _ ts
    rw [← Parser.run_eq_sentence rfl, ← Parser.run_eq_sentence rfl]
    refine Machine.resume_congr happly (fun t ht text htext => ?_) {}
    obtain ⟨token, offset⟩ := t
    obtain rfl : token = .number text := htext
    obtain ⟨x, hx, -⟩ := convert?_of_tokenize hts ht
    rw [hx, hreads text x hx]

/-- Every number that the lexer finds converts, to a double with a clear sign that is no NaN, and
the parser takes it for a factor wherever it comes to it. So only symbols are ever refused, and it
would change nothing if further spellings were read. Whether a source is accepted depends on the
kinds of its tokens and on the limit alone. -/
theorem numbers_convert (source : String) (limit : UInt64) :
    (∀ ts, tokenize source = .ok ts → ∀ text offset, ⟨.number text, offset⟩ ∈ ts →
      ∃ x : Float, Decimal.readFloat? text = some x ∧ Binary64.isNegative x = false ∧
        x.isNaN = false ∧
        ∀ n rest, Parser.factor binary64 n (⟨.number text, offset⟩ :: rest)
          = ⟨.ok x, rest, false⟩) ∧
    (∀ text offset, evaluateWithLimit source limit = .error (.unexpectedToken text offset) →
      text ∈ ["+", "-", "*", "/", ")"]) ∧
    (∀ A : Arithmetic Float, A.apply = binary64.apply →
      (∀ text x, Decimal.readFloat? text = some x → A.convert? text = some x) →
      (tokenize source).bind (Parser.sentence A (.start limit source.utf8ByteSize))
        = evaluateWithLimit source limit) ∧
    ∀ source', (recognized source).map (·.token.kind) = (recognized source').map (·.token.kind) →
      ((∃ v, evaluateWithLimit source limit = .ok v) ↔
        ∃ v, evaluateWithLimit source' limit = .ok v) := by
  refine ⟨?converts, ?refused, ?dead, ?accepted⟩
  case converts =>
    intro ts hts text offset hmem
    obtain ⟨x, hx, hsign, hnumber⟩ := convert?_of_tokenize hts hmem
    refine ⟨x, hx, hsign, hnumber, fun n rest => ?_⟩
    rw [Parser.factor_number, hx]
  case refused =>
    intro text offset he
    exact (pointsInto_of_evaluateWithLimit he).2
  case dead =>
    intro A happly hreads
    exact evaluateWithLimit_eq_of_reads happly hreads source limit
  case accepted =>
    intro source' h
    rw [recognized_eq, recognized_eq] at h
    exact exists_evaluateWithLimit_congr h limit

end Calculator
