import Mathlib.Data.List.DropRight
import Calculator.Proofs.FrontEnds
import Calculator.Proofs.Insertion
import Calculator.Proofs.Splitting

/-! Expressions from files. The white space at the end of a file is no part of a token, so without
it only the end of the source is somewhere else, and no output tells where that is. -/
namespace Calculator

namespace Text

/-- `trimmed` is `text` up to its last character that is no white space. -/
def Trims (text trimmed : String) : Prop :=
  ∃ blanks : String, text = trimmed ++ blanks ∧ (∀ c ∈ blanks.toList, isWhiteSpace c) ∧
    ∀ c ∈ trimmed.toList.getLast?, isWhiteSpace c = false

theorem trimEnd_eq (text : String) :
    trimEnd text = String.ofList (text.toList.rdropWhile isWhiteSpace) := rfl

theorem trims_trimEnd (text : String) : Trims text (trimEnd text) := by
  refine ⟨String.ofList (text.toList.rtakeWhile isWhiteSpace), ?_, fun c hc => ?_, fun c hc => ?_⟩
  · rw [trimEnd_eq, ← String.ofList_append, List.rdropWhile_append_rtakeWhile, String.ofList_toList]
  · rw [String.toList_ofList] at hc
    exact List.mem_rtakeWhile_imp hc
  · rw [trimEnd_eq, String.toList_ofList] at hc
    obtain ⟨hne, rfl⟩ := List.mem_getLast?_eq_getLast hc
    simpa using List.rdropWhile_last_not isWhiteSpace text.toList hne

/-- The lexer skips white space or drops it. -/
theorem ignored_of_isWhiteSpace {c : Char} (h : isWhiteSpace c) :
    c.isDigit = false ∧ c ∉ "+-*/()".toList := by
  constructor
  · rw [Bool.eq_false_iff]
    intro hdigit
    have hrange := Char.isDigit_iff_toNat.mp hdigit
    have : '0'.toNat = 48 := rfl
    have : '9'.toNat = 57 := rfl
    simp only [isWhiteSpace, Bool.or_eq_true, Bool.and_eq_true, decide_eq_true_eq] at h
    omega
  · intro hmem
    have hsymbols : "+-*/()".toList = ['+', '-', '*', '/', '(', ')'] := by decide
    rw [hsymbols] at hmem
    have hnone : ∀ x ∈ ['+', '-', '*', '/', '(', ')'], isWhiteSpace x = false := by
      simp [isWhiteSpace]
    exact absurd h (ne_true_of_eq_false (hnone c hmem))

end Text

/-! The end of a source. -/

theorem uncut_end (source : String) :
    Lexer.Uncut source.utf8ByteSize (Lexer.tokens (Lexer.placed source)) := by
  refine Lexer.uncut_of_not_straddles fun t ht hstraddles => ?_
  rw [Lexer.tokens_placed, ← recognized_eq] at ht
  have hfinish := Lexer.finish_le_of_mem_recognized ht
  exact absurd hstraddles.2 (Nat.not_lt.mpr hfinish)

theorem StandsAt.lt {source text : String} {offset : Nat} (h : StandsAt source text offset)
    (hne : text ≠ "") : offset < source.utf8ByteSize := by
  obtain ⟨before, after, rfl, rfl⟩ := h
  have hpos := Nat.pos_of_ne_zero (mt String.utf8ByteSize_eq_zero_iff.mp hne)
  simp only [String.utf8ByteSize_append]
  omega

/-- Only an error at the end of the source does not point at a character. -/
theorem ParseError.PointsInto.lt_or_eq {source : String} {limit : UInt64} {e : ParseError}
    (h : e.PointsInto source limit) :
    (∀ offset ∈ e.offset?, offset < source.utf8ByteSize) ∨
      e = .unexpectedEndOfInput source.utf8ByteSize := by
  have hparen : "(" ≠ "" := by decide
  cases e with
  | invalidExpression => exact .inl (by simp [offset?])
  | unexpectedEndOfInput => exact .inr (congrArg unexpectedEndOfInput h)
  | unexpectedToken text offset =>
    have hne : text ≠ "" := fun htext => absurd (htext ▸ h.2) (by decide)
    exact .inl (by simpa [offset?] using h.1.lt hne)
  | expectedClosingParen => exact .inl (by simpa [offset?] using h.1.lt hparen)
  | nestingTooDeep => exact .inl (by simpa [offset?] using h.2.lt hparen)
  | trailingInput text offset =>
    obtain ⟨hstands, hkind⟩ := h
    refine .inl ?_
    simp only [offset?, Option.mem_def, Option.some.injEq, forall_eq']
    obtain rfl | rfl | hnumber := hkind
    · exact hstands.lt (by decide)
    · exact hstands.lt hparen
    · exact offset_lt_of_mem_tokensFrom hnumber

theorem ParseError.relocate_of_offset? {f : Nat → Nat} {e : ParseError}
    (h : ∀ offset ∈ e.offset?, f offset = offset) : e.relocate f = e := by
  cases e <;> simp_all [relocate, offset?]

variable {a w : String}

theorem evaluateWithLimit_append_ignored
    (hw : ∀ c ∈ w.toList, c.isDigit = false ∧ c ∉ "+-*/()".toList) (limit : UInt64) :
    evaluateWithLimit (a ++ w) limit =
      (evaluateWithLimit a limit).mapError (.relocate (pushed a w)) := by
  have hcut : Lexer.Uncut a.utf8ByteSize (Lexer.tokens (Lexer.placed (a ++ ""))) := by
    rw [String.append_empty]
    exact uncut_end a
  have hinsert := evaluateWithLimit_insert hcut hw limit
  rwa [String.append_empty, String.append_empty] at hinsert

/-- With what is ignored behind a source, nothing changes but where the source ends. -/
theorem evaluateWithLimit_append_ignored_cases
    (hw : ∀ c ∈ w.toList, c.isDigit = false ∧ c ∉ "+-*/()".toList) (limit : UInt64) :
    evaluateWithLimit (a ++ w) limit = evaluateWithLimit a limit ∨
      evaluateWithLimit (a ++ w) limit =
          .error (.unexpectedEndOfInput (a ++ w).utf8ByteSize) ∧
        evaluateWithLimit a limit = .error (.unexpectedEndOfInput a.utf8ByteSize) := by
  rw [evaluateWithLimit_append_ignored hw]
  cases he : evaluateWithLimit a limit with
  | ok v => exact .inl rfl
  | error e =>
    obtain hlt | rfl := (pointsInto_of_evaluateWithLimit he).lt_or_eq
    · refine .inl (congrArg Except.error (ParseError.relocate_of_offset? fun offset ho => ?_))
      exact if_pos (hlt offset ho)
    · refine .inr ⟨?_, rfl⟩
      simp [Except.mapError, ParseError.relocate, pushed]

/-! Outputs. -/

/-- The body about another expression, with the same result or error. -/
def ReplyBody.withExpression (expression : String) : ReplyBody → ReplyBody
  | success _ result message => success expression result message
  | failure _ error => failure expression error
  | rejected error => rejected error

theorem ReplyBody.member?_withExpression (b : ReplyBody) (expression : String) {name : String}
    (hname : name ≠ "expression") :
    (b.withExpression expression).toJson.member? name = b.toJson.member? name := by
  cases b <;> simp [withExpression, toJson, Json.Value.member?, hname.symm]

theorem ReplyBody.member?_expression (b : ReplyBody) :
    b.toJson.member? "expression" = b.expression?.map .string := by
  cases b <;> simp [toJson, Json.Value.member?, expression?]

theorem Reply.evaluated_append_ignored
    (hw : ∀ c ∈ w.toList, c.isDigit = false ∧ c ∉ "+-*/()".toList) (limit : UInt64) :
    evaluated (a ++ w) limit =
      ⟨(evaluated a limit).status, (evaluated a limit).body.withExpression (a ++ w)⟩ := by
  rw [evaluated, evaluated, evaluateWithLimit_append_ignored hw]
  cases evaluateWithLimit a limit with
  | ok v => rfl
  | error e =>
    simp only [Except.mapError, ParseError.message_relocate, ReplyBody.withExpression]

namespace CommandLine

theorem plainOutput_append_ignored
    (hw : ∀ c ∈ w.toList, c.isDigit = false ∧ c ∉ "+-*/()".toList) (limit : UInt64) :
    plainOutput (a ++ w) limit = plainOutput a limit := by
  rw [plainOutput, plainOutput, evaluateWithLimit_append_ignored hw]
  cases evaluateWithLimit a limit with
  | ok v => rfl
  | error e => simp only [Except.mapError, ParseError.message_relocate]

/-- The same evaluation with a text for its operand. -/
def EvaluateOptions.onText (o : EvaluateOptions) (text : String) : EvaluateOptions :=
  { o with fromFile := false, operand := text }

theorem evaluateOutput_eq_onText {o : EvaluateOptions} {file : String → Option ByteArray}
    {t : String} (hfile : o.fromFile) (ht : file o.operand = some t.toUTF8) :
    evaluateOutput o file = evaluateOutput (o.onText (Text.trimEnd t)) file := by
  have hread : expression? o file = some (Text.trimEnd t) := by
    rw [expression?, if_pos hfile, ht, Option.bind_some, Json.fromUTF8?_toUTF8, Option.map_some]
  rw [evaluateOutput, hread]
  rfl

/-- Trimming a file does not change what it means. For a reader nothing differs from the evaluation
of the whole text. For a program the expression of the body is the trimmed text and nothing else
differs. The end of the source, where an error may be found, moves without being told. -/
theorem evaluateOutput_file (o : EvaluateOptions) (file : String → Option ByteArray) (t : String)
    (hfile : o.fromFile) (ht : file o.operand = some t.toUTF8) :
    Text.Trims t (Text.trimEnd t) ∧
    (o.json = false → evaluateOutput o file = evaluateOutput (o.onText t) file) ∧
    (o.json = true →
      (evaluateOutput o file).exitCode = (evaluateOutput (o.onText t) file).exitCode ∧
      (evaluateOutput o file).stderr = (evaluateOutput (o.onText t) file).stderr ∧
      ∃ v whole, Json.Value.ofText? (evaluateOutput o file).stdout.toList = some v ∧
        Json.Value.ofText? (evaluateOutput (o.onText t) file).stdout.toList = some whole ∧
        v.member? "expression" = some (.string (Text.trimEnd t)) ∧
        whole.member? "expression" = some (.string t) ∧
        ∀ name ≠ "expression", v.member? name = whole.member? name) ∧
    (evaluateWithLimit (Text.trimEnd t) o.limit = evaluateWithLimit t o.limit ∨
      evaluateWithLimit (Text.trimEnd t) o.limit =
          .error (.unexpectedEndOfInput (Text.trimEnd t).utf8ByteSize) ∧
        evaluateWithLimit t o.limit = .error (.unexpectedEndOfInput t.utf8ByteSize)) := by
  have htrims := Text.trims_trimEnd t
  rw [evaluateOutput_eq_onText hfile ht]
  generalize Text.trimEnd t = trimmed at htrims
  obtain ⟨blanks, rfl, hblanks, hlast⟩ := htrims
  have hignored : ∀ c ∈ blanks.toList, c.isDigit = false ∧ c ∉ "+-*/()".toList :=
    fun c hc => Text.ignored_of_isWhiteSpace (hblanks c hc)
  refine ⟨⟨blanks, rfl, hblanks, hlast⟩, ?plain, ?json, ?outcome⟩
  case plain =>
    intro hplain
    have houtput (text : String) : evaluateOutput (o.onText text) file
        = plainOutput text o.limit := if_neg (by simp [EvaluateOptions.onText, hplain])
    rw [houtput, houtput, plainOutput_append_ignored hignored]
  case json =>
    intro hjson
    have houtput (text : String) : evaluateOutput (o.onText text) file = jsonOutput text o.limit :=
      if_pos hjson
    have hreply := Reply.evaluated_append_ignored (a := trimmed) hignored o.limit
    have hmember (text : String) :
        (Reply.evaluated text o.limit).body.toJson.member? "expression" = some (.string text) := by
      rw [ReplyBody.member?_expression, Reply.expression?_evaluated, Option.map_some]
    rw [houtput, houtput]
    refine ⟨?_, rfl, _, _, ofText?_stdout_jsonOutput .., ofText?_stdout_jsonOutput .., hmember _,
      hmember _, fun name hname => ?_⟩
    · rw [jsonOutput, jsonOutput, hreply]
    · rw [hreply, ReplyBody.member?_withExpression _ _ hname]
  case outcome =>
    exact (evaluateWithLimit_append_ignored_cases hignored o.limit).imp Eq.symm And.symm

/-- A file that ends in the middle of a sum, with a space that the lexer does not skip. -/
theorem evaluateOutput_file_unfinished :
    evaluateOutput ⟨true, false, 0, "sum"⟩ (fun _ => some "5.+\u00a0".toUTF8)
      = ⟨1, "", "Unexpected end of input\n"⟩ := by
  have herror : evaluateWithLimit "5.+\u00a0" 0 = .error (.unexpectedEndOfInput 5) := by
    decide +kernel
  have hplain := (evaluateOutput_file ⟨true, false, 0, "sum"⟩
    (fun _ => some "5.+\u00a0".toUTF8) "5.+\u00a0" rfl rfl).2.1 rfl
  rw [hplain]
  show plainOutput "5.+\u00a0" 0 = _
  rw [plainOutput, herror]
  rfl

end CommandLine
end Calculator
