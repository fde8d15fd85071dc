import Calculator.Proofs.Composition
import Calculator.Proofs.Consumption
import Calculator.Proofs.Numerals

/-! What errors point at. The offset of an error is the place of the token that it names, of the
innermost parenthesis that was still open, or the end of the source, and always a place between two
characters. -/
namespace Calculator

/-- `text` stands in `source` from the byte `offset` on. -/
def StandsAt (source text : String) (offset : Nat) : Prop :=
  ∃ before after : String, source = before ++ text ++ after ∧ before.utf8ByteSize = offset

theorem StandsAt.le {source text : String} {offset : Nat} (h : StandsAt source text offset) :
    offset ≤ source.utf8ByteSize := by
  obtain ⟨before, after, rfl, rfl⟩ := h
  simp only [String.utf8ByteSize_append]
  omega

theorem StandsAt.isValid {source text : String} {offset : Nat}
    (h : StandsAt source text offset) : (String.Pos.Raw.mk offset).IsValid source := by
  obtain ⟨before, after, rfl, rfl⟩ := h
  exact String.Pos.Raw.isValid_iff_exists_append.mpr
    ⟨before, text ++ after, String.append_assoc, rfl⟩

theorem standsAt_end (source : String) : StandsAt source "" source.utf8ByteSize :=
  ⟨source, "", by simp, rfl⟩

namespace Lexer

theorem standsAt_of_mem_tokensFrom {source : String} {t : PlacedToken}
    (h : t ∈ tokensFrom 0 source) : StandsAt source t.token.text t.offset := by
  obtain ⟨before, after, hsource, hoffset⟩ := exists_append_of_mem_tokensFrom h
  exact ⟨before, after, hsource, by rw [hoffset, Nat.zero_add]⟩

theorem tokensFrom_eq_nil_iff {offset : Nat} {text : String} :
    tokensFrom offset text = [] ↔
      ∀ c ∈ text.toList, c.isDigit = false ∧ c ∉ "+-*/()".toList := by
  rw [tokensFrom]
  generalize text.toList = cs
  induction cs generalizing offset with
  | nil => simp [pieces, place, tokens]
  | cons c cs ih =>
    by_cases hdigit : c.isDigit
    · simp [pieces_of_isDigit hdigit, tokens_place_token, hdigit]
    · rw [pieces_of_not_isDigit hdigit]
      cases hsymbol : symbol? c with
      | none =>
        have hnot := symbol?_eq_none_iff.mp hsymbol
        rw [tokens_place_single hsymbol, ih, List.forall_mem_cons]
        simp only [hnot, hdigit, not_false_eq_true, and_self, true_and]
      | some t =>
        have hmem : c ∈ "+-*/()".toList := by
          refine Decidable.byContradiction fun hnot => ?_
          rw [symbol?_eq_none_iff.mpr hnot] at hsymbol
          contradiction
        simp only [single, hsymbol, tokens_place_token, List.forall_mem_cons, hmem]
        simp

end Lexer

/-! Open parentheses. -/

/-- The offsets of the parentheses that are open behind the tokens, the innermost first, when those
in `stack` were open in front of them. -/
def openings (stack : List Nat) (ts : List PlacedToken) : List Nat :=
  ts.foldl (fun stack t =>
    match t.token with
    | .openParen => t.offset :: stack
    | .closeParen => stack.tail
    | _ => stack) stack

theorem openings_append (stack : List Nat) (ts us : List PlacedToken) :
    openings stack (ts ++ us) = openings (openings stack ts) us := List.foldl_append

/-- Only parentheses that were opened by the tokens themselves are closed. -/
theorem openings_of_read? {opened : List Nat} {wantsOperand : Bool} {ts : List PlacedToken}
    {s : Outline} (h : Outline.read? ⟨opened.length, wantsOperand⟩ (ts.map (·.token)) = some s)
    (stack : List Nat) :
    ∃ left : List Nat, left.length = s.opened ∧ openings (opened ++ stack) ts = left ++ stack := by
  induction ts generalizing opened wantsOperand with
  | nil =>
    obtain rfl := Option.some.inj h
    exact ⟨opened, rfl, rfl⟩
  | cons t ts ih =>
    obtain ⟨s', hnext, hread⟩ := Option.bind_eq_some_iff.mp h
    obtain ⟨token, offset⟩ := t
    cases wantsOperand with
    | true =>
      cases token with
      | number =>
        obtain rfl := Option.some.inj hnext
        exact ih hread
      | openParen =>
        obtain rfl := Option.some.inj hnext
        exact @ih (offset :: opened) true hread
      | operator | closeParen => contradiction
    | false =>
      cases token with
      | operator =>
        obtain rfl := Option.some.inj hnext
        exact ih hread
      | closeParen =>
        cases opened with
        | nil => contradiction
        | cons _ opened =>
          obtain rfl := Option.some.inj hnext
          exact ih hread
      | number | openParen => contradiction

theorem openings_of_isSentence {ts : List PlacedToken}
    (h : Token.IsSentence (ts.map (·.token))) (stack : List Nat) : openings stack ts = stack := by
  have hread : Outline.read? ⟨([] : List Nat).length, true⟩ (ts.map (·.token)) = some .complete :=
    (Outline.isSentence_iff _).mp h
  obtain ⟨left, hleft, hopenings⟩ := openings_of_read? hread stack
  rw [List.length_eq_zero_iff.mp hleft] at hopenings
  exact hopenings

namespace Parser

variable {α : Type} {A : Arithmetic α}

/-- What a failed call says of the tokens: of the one it stopped at, of the one that opened the
group in which it stopped, or of their end. -/
inductive Raised (A : Arithmetic α) (limit : UInt64) (sourceEnd : Nat) :
    List PlacedToken → Parse α → Prop where
  | refused (used rest : List PlacedToken) {t : PlacedToken} (h : Refused A t.token) :
      Raised A limit sourceEnd (used ++ t :: rest)
        ⟨.error (.unexpectedToken t.token.text t.offset), rest, false⟩
  | ended (ts : List PlacedToken) :
      Raised A limit sourceEnd ts ⟨.error (.unexpectedEndOfInput sourceEnd), [], true⟩
  | tooDeep (used rest : List PlacedToken) (opening : Nat) :
      Raised A limit sourceEnd (used ++ ⟨.openParen, opening⟩ :: rest)
        ⟨.error (.nestingTooDeep limit opening), rest, false⟩
  | unclosed (used body rest : List PlacedToken) (t : PlacedToken) (opening : Nat)
      (h : Token.IsSentence (body.map (·.token))) :
      Raised A limit sourceEnd (used ++ ⟨.openParen, opening⟩ :: (body ++ t :: rest))
        ⟨.error (.expectedClosingParen opening), rest, false⟩
  | unclosedAtEnd (used body : List PlacedToken) (opening : Nat)
      (h : Token.IsSentence (body.map (·.token))) :
      Raised A limit sourceEnd (used ++ ⟨.openParen, opening⟩ :: body)
        ⟨.error (.expectedClosingParen opening), [], true⟩

theorem Failed.raised {n : Nesting} {s : Outline} {ts : List PlacedToken} {r : Parse α}
    (h : Failed A n s ts r) : Raised A n.limit n.sourceEnd ts r := by
  cases h with
  | onToken front rest t h =>
    cases h with
    | refused _ h => exact .refused front rest h
    | tooDeep => exact .tooDeep front rest _
    | unclosed before body hfront _ h =>
      rw [hfront, List.append_assoc]
      exact .unclosed before body rest t _ h
  | atEnd ts h =>
    cases h with
    | ended => exact .ended ts
    | unclosed before body hts _ h => exact hts ▸ .unclosedAtEnd before body _ h

/-- The tokens in front of the place at which a failure is raised. -/
def Site.before (ts : List PlacedToken) : Site → List PlacedToken
  | .token i => ts.take i
  | .ending => ts

/-- What an error says of the tokens and of the place at which it was raised. -/
inductive Blames (A : Arithmetic α) (limit : UInt64) (sourceEnd : Nat) (ts : List PlacedToken)
    (site : Site) : ParseError → Prop where
  | refused {t : PlacedToken} (ht : t ∈ ts) (h : Refused A t.token) :
      Blames A limit sourceEnd ts site (.unexpectedToken t.token.text t.offset)
  | ended : Blames A limit sourceEnd ts site (.unexpectedEndOfInput sourceEnd)
  | tooDeep {opening : Nat} (ht : ⟨.openParen, opening⟩ ∈ ts) :
      Blames A limit sourceEnd ts site (.nestingTooDeep limit opening)
  | unclosed {opening : Nat} (ht : ⟨.openParen, opening⟩ ∈ ts)
      (h : (openings [] (site.before ts)).head? = some opening) :
      Blames A limit sourceEnd ts site (.expectedClosingParen opening)
  | trailing {t : PlacedToken} (ht : t ∈ ts) (h : t.token.operator? = none) :
      Blames A limit sourceEnd ts site (.trailingInput t.token.text t.offset)

theorem openings_group {body : List PlacedToken} (h : Token.IsSentence (body.map (·.token)))
    (used : List PlacedToken) (opening : Nat) :
    openings [] (used ++ ⟨.openParen, opening⟩ :: body) = opening :: openings [] used := by
  rw [openings_append]
  exact openings_of_isSentence h (opening :: openings [] used)

theorem Raised.blames {limit : UInt64} {sourceEnd : Nat} {ts rest : List PlacedToken}
    {e : ParseError} {starved : Bool}
    (h : Raised A limit sourceEnd ts ⟨.error e, rest, starved⟩) :
    Blames A limit sourceEnd ts
      (if starved then .ending else .token (ts.length - rest.length - 1)) e := by
  cases h with
  | refused used rest h => exact .refused (by simp) h
  | ended => exact .ended
  | tooDeep used rest opening => exact .tooDeep (by simp)
  | unclosed used body rest t opening h =>
    have hbefore : used ++ ⟨.openParen, opening⟩ :: (body ++ t :: rest) =
        (used ++ ⟨.openParen, opening⟩ :: body) ++ t :: rest := by simp
    refine .unclosed (by simp) ?_
    rw [hbefore, length_sub_rest, if_neg (by simp), Site.before, List.take_left, openings_group h]
    rfl
  | unclosedAtEnd used body opening h =>
    refine .unclosed (by simp) ?_
    rw [if_pos rfl, Site.before, openings_group h]
    rfl

theorem blames_of_sentence {limit : UInt64} {sourceEnd : Nat} {ts : List PlacedToken}
    {e : ParseError} (h : sentence A (.start limit sourceEnd) ts = .error e) :
    ∃ site, failureSite? A (.start limit sourceEnd) ts = some site ∧
      Blames A limit sourceEnd ts site e := by
  have hrun : Run A (.chain .additive) (.start limit sourceEnd) ts _ := run_parse A _ _ ts
  unfold sentence at h
  unfold failureSite?
  rw [parse, ← sum] at hrun
  generalize sum A (.start limit sourceEnd) ts = r at h hrun ⊢
  obtain ⟨outcome, rest, starved⟩ := r
  cases outcome with
  | error e' =>
    obtain rfl := Except.error.inj h
    have hblames := (hrun.failed e' rfl 0).raised.blames
    cases starved with
    | true => exact ⟨_, rfl, hblames⟩
    | false => exact ⟨_, rfl, hblames⟩
  | ok v =>
    cases rest with
    | nil => contradiction
    | cons t rest =>
      obtain rfl := Except.error.inj h
      obtain ⟨_, used, rfl, _⟩ := hrun.reads v rfl
      exact ⟨_, rfl, .trailing (by simp) (operator?_eq_none (hrun.stops v rfl))⟩

end Parser

open Lexer (tokens placed)

/-- What an error says of a source is so. -/
def ParseError.PointsInto (source : String) (limit : UInt64) : ParseError → Prop
  | invalidExpression => tokens (placed source) = []
  | unexpectedToken text offset =>
    StandsAt source text offset ∧ text ∈ ["+", "-", "*", "/", ")"]
  | unexpectedEndOfInput offset => offset = source.utf8ByteSize
  | expectedClosingParen offset =>
    StandsAt source "(" offset ∧
      ∃ site,
        Parser.failureSite? binary64 (.start limit source.utf8ByteSize) (tokens (placed source)) =
          some site ∧
        (openings [] (site.before (tokens (placed source)))).head? = some offset
  | trailingInput text offset =>
    StandsAt source text offset ∧
      (text = ")" ∨ text = "(" ∨ ⟨.number text, offset⟩ ∈ tokens (placed source))
  | nestingTooDeep l offset => l = limit ∧ StandsAt source "(" offset

/-- A number of a source always converts, so only a symbol is refused. -/
theorem text_mem_of_refused {source : String} {t : PlacedToken} (ht : t ∈ tokens (placed source))
    (h : Parser.Refused binary64 t.token) : t.token.text ∈ ["+", "-", "*", "/", ")"] := by
  obtain ⟨token, offset⟩ := t
  cases token with
  | number text =>
    have hsome := converts_kinds source text (List.mem_map_of_mem ht)
    rw [show binary64.convert? text = none from h] at hsome
    contradiction
  | operator op =>
    show (Token.operator op).text ∈ ["+", "-", "*", "/", ")"]
    cases op <;> decide
  | openParen => exact absurd h id
  | closeParen =>
    show Token.closeParen.text ∈ ["+", "-", "*", "/", ")"]
    decide

theorem text_of_trailing {source : String} {t : PlacedToken} (ht : t ∈ tokens (placed source))
    (h : t.token.operator? = none) : t.token.text = ")" ∨ t.token.text = "(" ∨
      ⟨.number t.token.text, t.offset⟩ ∈ tokens (placed source) := by
  obtain ⟨token, offset⟩ := t
  cases token with
  | number text => exact .inr (.inr ht)
  | operator op => contradiction
  | openParen => exact .inr (.inl rfl)
  | closeParen => exact .inl rfl

theorem Parser.Blames.pointsInto {source : String} {limit : UInt64} {site : Site} {e : ParseError}
    (h : Blames binary64 limit source.utf8ByteSize (tokens (placed source)) site e)
    (hsite : failureSite? binary64 (.start limit source.utf8ByteSize) (tokens (placed source)) =
      some site) :
    e.PointsInto source limit := by
  have stands {t : PlacedToken} (ht : t ∈ tokens (placed source)) :
      StandsAt source t.token.text t.offset := Lexer.standsAt_of_mem_tokensFrom ht
  cases h with
  | refused ht h => exact ⟨stands ht, text_mem_of_refused ht h⟩
  | ended => rfl
  | tooDeep ht => exact ⟨rfl, stands ht⟩
  | unclosed ht h => exact ⟨stands ht, site, hsite, h⟩
  | trailing ht h => exact ⟨stands ht, text_of_trailing ht h⟩

theorem ParseError.PointsInto.le_isValid {source : String} {limit : UInt64} {e : ParseError}
    (h : e.PointsInto source limit) {offset : Nat} (ho : e.offset? = some offset) :
    offset ≤ source.utf8ByteSize ∧ (String.Pos.Raw.mk offset).IsValid source := by
  have hstands : ∃ text, StandsAt source text offset := by
    cases e with
    | invalidExpression => contradiction
    | unexpectedEndOfInput =>
      obtain rfl := Option.some.inj ho
      exact ⟨"", h ▸ standsAt_end source⟩
    | nestingTooDeep =>
      obtain rfl := Option.some.inj ho
      exact ⟨_, h.2⟩
    | unexpectedToken | expectedClosingParen | trailingInput =>
      obtain rfl := Option.some.inj ho
      exact ⟨_, h.1⟩
  obtain ⟨text, htext⟩ := hstands
  exact ⟨htext.le, htext.isValid⟩

theorem pointsInto_of_evaluateWithLimit {source : String} {limit : UInt64} {e : ParseError}
    (h : evaluateWithLimit source limit = .error e) : e.PointsInto source limit := by
  rw [evaluateWithLimit_eq] at h
  split at h
  next hnil => exact Except.error.inj h ▸ hnil
  next =>
    obtain ⟨site, hsite, hblames⟩ := Parser.blames_of_sentence h
    exact hblames.pointsInto hsite

theorem evaluateWithLimit_eq_invalidExpression_iff {source : String} {limit : UInt64} :
    evaluateWithLimit source limit = .error .invalidExpression ↔
      ∀ c ∈ source.toList, c.isDigit = false ∧ c ∉ "+-*/()".toList := by
  rw [← Lexer.tokensFrom_eq_nil_iff, ← Lexer.tokens_placed]
  constructor
  · exact pointsInto_of_evaluateWithLimit
  · intro hnil
    rw [evaluateWithLimit_eq, if_pos hnil]

/-- An error other than that nothing was recognized points at the source: at the token that it
names, at the parenthesis that is too deep or the innermost one still open, or at the end. So its
offset is always a place between two characters. -/
theorem evaluateWithLimit_error_points (source : String) (limit : UInt64) :
    (evaluateWithLimit source limit = .error .invalidExpression ↔
      ∀ c ∈ source.toList, c.isDigit = false ∧ c ∉ "+-*/()".toList) ∧
    ∀ e, evaluateWithLimit source limit = .error e →
      e.PointsInto source limit ∧
      ∀ offset, e.offset? = some offset →
        offset ≤ source.utf8ByteSize ∧ (String.Pos.Raw.mk offset).IsValid source := by
  refine ⟨evaluateWithLimit_eq_invalidExpression_iff, fun e he => ?_⟩
  have hpoints := pointsInto_of_evaluateWithLimit he
  exact ⟨hpoints, fun offset ho => hpoints.le_isValid ho⟩

end Calculator
