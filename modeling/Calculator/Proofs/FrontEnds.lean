import Calculator.CommandLine
import Calculator.Endpoint
import Calculator.Proofs.ReplyText

/-! The endpoint and the command line evaluate alike: one expression with one limit has one result
or one error, whichever way it comes in. -/
namespace Calculator

namespace Text

theorem readUInt64?_toString (n : UInt64) : readUInt64? (toString n) = some n := by
  have hskip : skipPlus (Nat.toDigits 10 n.toNat) = Nat.toDigits 10 n.toNat := by
    obtain ⟨c, cs, hdigits, hc⟩ := exists_digit (isDigits_toDigits n.toNat)
    rw [hdigits, skipPlus]
    intro cs' h
    exact ne_of_isDigit hc '+' rfl (List.cons.inj h).1
  rw [show toString n = toString n.toNat from rfl, readUInt64?, Nat.toString_eq_ofList_toDigits,
    String.toList_ofList, hskip, Nat.ofDigitChars_ten_toDigits, isDigits_toDigits,
    UInt64.ofNat_toNat]
  exact if_pos (by simpa using n.toNat_lt)

end Text

namespace CommandLine

/-! Arguments. -/

namespace Item

variable {names : OptionNames} {arg : String} (name : String)
  (harg : arg.toList = '-' :: '-' :: name.toList) (hne : name.toList ≠ [])
  (hsplit : splitEquals name.toList = (name, none))

include harg hne hsplit

theorem ofArguments_valued {value : String} {rest : List String} (hname : name ∈ names.valued)
    (hvalue : looksLikeOption value = false) :
    ofArguments names (arg :: value :: rest) = .option name value :: ofArguments names rest := by
  obtain ⟨c, cs, hcs⟩ := List.exists_cons_of_ne_nil hne
  rw [hcs] at harg hsplit
  rw [ofArguments]
  simp only [harg, hsplit, hname, hvalue, if_true, Bool.false_eq_true, if_false]

theorem ofArguments_flag {args : List String} (hname : name ∈ names.flags)
    (hvalued : name ∉ names.valued) :
    ofArguments names (arg :: args) = .flag name :: ofArguments names args := by
  obtain ⟨c, cs, hcs⟩ := List.exists_cons_of_ne_nil hne
  rw [hcs] at harg hsplit
  rw [ofArguments]
  cases args <;> simp only [harg, hsplit, hname, hvalued, ofLong, if_true, if_false]

omit harg hne hsplit

/-- Behind two dashes nothing is an option. -/
theorem ofArguments_dashes (names : OptionNames) (args : List String) :
    ofArguments names ("--" :: args) = args.map (ofOperand names) := by
  have hdashes : "--".toList = ['-', '-'] := by decide
  rw [ofArguments]
  simp only [hdashes]

theorem looksLikeOption_toString (n : UInt64) : looksLikeOption (toString n) = false := by
  obtain ⟨c, cs, hdigits, hc⟩ := Text.exists_digit (Text.isDigits_toDigits n.toNat)
  rw [looksLikeOption, show toString n = toString n.toNat from rfl, Nat.toString_eq_ofList_toDigits,
    String.toList_ofList, hdigits]
  split
  next h => exact absurd (List.cons.inj h).1 (Text.ne_of_isDigit hc '-' rfl)
  next => rfl

end Item

theorem ofArguments_limit (limit : UInt64) (expression : String) :
    Item.ofArguments evaluateNames ["--max-depth", toString limit, "--", expression]
      = [.option "max-depth" (toString limit), .operand expression] := by
  rw [Item.ofArguments_valued "max-depth" (by decide) (by decide) (by decide) (by decide)
    (Item.looksLikeOption_toString limit), Item.ofArguments_dashes]
  rfl

theorem ofArguments_json (args : List String) :
    Item.ofArguments evaluateNames ("--json" :: args)
      = .flag "json" :: Item.ofArguments evaluateNames args :=
  Item.ofArguments_flag "json" (by decide) (by decide) (by decide) (by decide) (by decide)

/-- A limit and an operand are taken after flags, which leave room for them. -/
theorem foldlM_limit (flags : List String) (limit : UInt64) (expression : String) :
    [Item.option "max-depth" (toString limit), .operand expression].foldlM Given.addItem ⟨flags,
      none, none, none⟩ = .ok ⟨flags, some limit, none, some expression⟩ := by
  have hlimit : Given.addItem ⟨flags, none, none, none⟩ (.option "max-depth" (toString limit))
      = .ok ⟨flags, some limit, none, none⟩ := by
    simp only [Given.addItem, Given.addOption, Text.readUInt64?_toString]
  rw [List.foldlM_cons, hlimit]
  rfl

theorem command_limit (environment : String → Option String) (limit : UInt64)
    (expression : String) :
    command environment ["eval", "--max-depth", toString limit, "--", expression]
      = .ok (.evaluate ⟨false, false, limit, expression⟩) := by
  have hgiven : Given.ofArguments evaluateNames ["--max-depth", toString limit, "--", expression]
      = .ok ⟨[], some limit, none, some expression⟩ := by
    rw [Given.ofArguments, ofArguments_limit]
    exact foldlM_limit [] limit expression
  rw [command, evaluateOptions, hgiven]
  rfl

theorem command_json_limit (environment : String → Option String) (limit : UInt64)
    (expression : String) :
    command environment ["eval", "--json", "--max-depth", toString limit, "--", expression]
      = .ok (.evaluate ⟨false, true, limit, expression⟩) := by
  have hgiven : Given.ofArguments evaluateNames
      ["--json", "--max-depth", toString limit, "--", expression]
      = .ok ⟨["json"], some limit, none, some expression⟩ := by
    rw [Given.ofArguments, ofArguments_json, ofArguments_limit, List.foldlM_cons]
    exact foldlM_limit ["json"] limit expression
  rw [command, evaluateOptions, hgiven]
  rfl

/-- What is printed for arguments that ask for an evaluation. -/
def output? (environment : String → Option String) (file : String → Option ByteArray)
    (args : List String) : Option Output :=
  match command environment args with
  | .ok (.evaluate o) => some (evaluateOutput o file)
  | _ => none

theorem output?_limit (environment : String → Option String) (file : String → Option ByteArray)
    (limit : UInt64) (expression : String) :
    output? environment file ["eval", "--max-depth", toString limit, "--", expression]
      = some (plainOutput expression limit) := by
  rw [output?, command_limit]
  rfl

theorem output?_json_limit (environment : String → Option String)
    (file : String → Option ByteArray) (limit : UInt64) (expression : String) :
    output? environment file ["eval", "--json", "--max-depth", toString limit, "--", expression]
      = some (jsonOutput expression limit) := by
  rw [output?, command_json_limit]
  rfl

theorem ofText?_stdout_jsonOutput (expression : String) (limit : UInt64) :
    Json.Value.ofText? (jsonOutput expression limit).stdout.toList =
      some (Reply.evaluated expression limit).body.toJson := by
  show Json.Value.ofText? (_ ++ "\n").toList = _
  rw [String.toList_append]
  exact ReplyBody.ofText?_text_append .pretty _ rfl

/-- Nothing is logged of an evaluation unless everything is. -/
theorem lines_evaluateRecords {verbosity : Severity} (h : verbosity ≠ .trace) (o : EvaluateOptions)
    (file : String → Option ByteArray) :
    LogRecord.lines verbosity (evaluateRecords o file) = [] := by
  have hrank : verbosity.rank < Severity.trace.rank := by
    cases verbosity with
    | trace => contradiction
    | error | warn | info | debug => decide
  have hkept : ∀ r ∈ evaluateRecords o file, ¬r.severity.rank ≤ verbosity.rank := by
    rw [evaluateRecords]
    cases expression? o file with
    | none => exact List.forall_mem_nil _
    | some expression =>
      intro r hr
      obtain ⟨_, -, rfl⟩ := List.mem_map.mp hr
      exact Nat.not_le.mpr hrank
  rw [LogRecord.lines, List.filter_eq_nil_iff.mpr (by simpa using hkept), List.map_nil]

end CommandLine

open CommandLine
open Json (Value)

namespace Reply

/-- A result or an error: the reply and the output for a reader are about the same one. -/
theorem evaluated_cases (expression : String) (limit : UInt64) :
    (∃ result message, evaluated expression limit = ⟨.ok, .success expression result message⟩ ∧
      plainOutput expression limit = ⟨0, NumberFormat.plain.floatText result ++ "\n", ""⟩) ∨
    ∃ error, evaluated expression limit = ⟨.badRequest, .failure expression error⟩ ∧
      plainOutput expression limit = ⟨1, "", error ++ "\n"⟩ := by
  unfold evaluated plainOutput
  cases evaluateWithLimit expression limit with
  | ok result => exact .inl ⟨result, _, rfl, rfl⟩
  | error e => exact .inr ⟨e.message, rfl, rfl⟩

/-- What is printed for a program and for a reader is what a reply about the expression says. -/
structure Agrees (reply : Reply) (expression : String) (forProgram forReader : Output) : Prop where
  /-- The body, indented, and zero just for a success. -/
  program : forProgram
    = ⟨if reply.status = .ok then 0 else 1, reply.body.toJson.pretty ++ "\n", ""⟩
  exitCode : forReader.exitCode = forProgram.exitCode
  /-- The very result or the very error of the body. -/
  reader : (∃ result message, reply = ⟨.ok, .success expression result message⟩ ∧
      forReader = ⟨0, NumberFormat.plain.floatText result ++ "\n", ""⟩) ∨
    ∃ error, reply = ⟨.badRequest, .failure expression error⟩ ∧
      forReader = ⟨1, "", error ++ "\n"⟩
  /-- The body reads as the same value on one line and indented. -/
  value : ∃ v, reply.body.Tells v ∧ Value.ofText? reply.body.toJson.compact.toList = some v ∧
    Value.ofText? forProgram.stdout.toList = some v

theorem agrees_evaluated (expression : String) (limit : UInt64) :
    (evaluated expression limit).Agrees expression (jsonOutput expression limit)
      (plainOutput expression limit) where
  program := rfl
  exitCode := by
    obtain ⟨_, _, hreply, houtput⟩ | ⟨_, hreply, houtput⟩ := evaluated_cases expression limit
    · rw [houtput, jsonOutput, hreply]
      rfl
    · rw [houtput, jsonOutput, hreply]
      rfl
  reader := evaluated_cases expression limit
  value := ⟨_, ReplyBody.tells_toJson _, ReplyBody.ofText?_text .compact _,
    ofText?_stdout_jsonOutput expression limit⟩

end Reply

/-- The front ends agree. What the command line prints about an expression, for a program and for a
reader, is what the handler replies to a body with that expression under the same limit. -/
theorem front_ends_agree {body : ByteArray} {expression : String} {limit : UInt64} {reply : Reply}
    (hbody : Reply.extractExpression body = some expression)
    (hreply : Reply.handle "POST" body limit = reply)
    (environment : String → Option String) (file : String → Option ByteArray) :
    ∃ forProgram forReader,
      output? environment file ["eval", "--json", "--max-depth", toString limit, "--", expression]
        = some forProgram ∧
      output? environment file ["eval", "--max-depth", toString limit, "--", expression]
        = some forReader ∧
      reply.Agrees expression forProgram forReader := by
  rw [Reply.handle_of_extractExpression hbody] at hreply
  subst hreply
  exact ⟨_, _, output?_json_limit .., output?_limit .., Reply.agrees_evaluated expression limit⟩

/-- An unfinished sum, posted and given on the command line. -/
theorem front_ends_agree_unfinished :
    Reply.extractExpression "\x7b\"expression\": \"2+\"\x7d".toUTF8 = some "2+" ∧
      output? (fun _ => none) (fun _ => none) ["eval", "--max-depth", "0", "--", "2+"]
        = some ⟨1, "", "Unexpected end of input\n"⟩ := by
  have hbody : Reply.extractExpression "\x7b\"expression\": \"2+\"\x7d".toUTF8 = some "2+" := by
    decide +kernel
  have hreply : Reply.handle "POST" "\x7b\"expression\": \"2+\"\x7d".toUTF8 0
      = ⟨.badRequest, .failure "2+" "Unexpected end of input"⟩ := by
    have herror : evaluateWithLimit "2+" 0 = .error (.unexpectedEndOfInput 2) := by decide +kernel
    rw [Reply.handle_of_extractExpression hbody, Reply.evaluated, herror]
    rfl
  obtain ⟨_, _, -, hprinted, hagrees⟩ :=
    front_ends_agree hbody hreply (fun _ => none) (fun _ => none)
  obtain ⟨_, _, hsuccess, -⟩ | ⟨error, hfailure, rfl⟩ := hagrees.reader
  · have hstatus : Status.badRequest = .ok := congrArg Reply.status hsuccess
    contradiction
  · obtain ⟨-, rfl⟩ := ReplyBody.failure.inj (congrArg Reply.body hfailure)
    exact ⟨hbody, hprinted⟩

/-- A body that the endpoint reads is answered with the value that the command line prints about its
expression. -/
theorem Endpoint.answer_agrees {target : String} {body : ByteArray} {expression : String}
    (hpath : Request.path ⟨"POST", target, body⟩ = path) (hsize : body.size ≤ maxBodySize)
    (hbody : Reply.extractExpression body = some expression) (limit : UInt64) :
    ∃ response event v, answer limit ⟨"POST", target, body⟩ = (response, [event]) ∧
      (response.status = 200 ↔ (jsonOutput expression limit).exitCode = 0) ∧
      Value.ofText? response.body.toList = some v ∧
      Value.ofText? (jsonOutput expression limit).stdout.toList = some v := by
  have hagrees := Reply.agrees_evaluated expression limit
  obtain ⟨v, -, hcompact, hpretty⟩ := hagrees.value
  refine ⟨_, _, v, answer_of_size_le hpath hsize (Reply.handle_of_extractExpression hbody limit),
    ?_, hcompact, hpretty⟩
  have hcode (status : Status) : status.code = 200 ↔ (if status = .ok then 0 else 1) = 0 := by
    cases status <;> decide
  rw [hagrees.program]
  exact hcode _

end Calculator
