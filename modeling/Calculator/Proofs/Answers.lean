import Calculator.Proofs.Composition
import Calculator.Proofs.Numerals
import Calculator.Proofs.ReplyText
import Calculator.Proofs.Spans
import Calculator.Server.Log

/-! What the endpoint answers to a request. There are six cases, which differ in path, size, method,
body and in the tokens of the expression. The response and the event tell which one it was, and both
are about the same body. -/
namespace Calculator

open Json (Value)

/-! Accepted expressions. -/

/-- The tokens of an expression are a sentence whose groups nest within the limit. -/
def Accepts (limit : UInt64) (expression : String) : Prop :=
  ∃ ts, tokenize expression = .ok ts ∧
    ∃ c : Sentence, c.tokens = ts.map (·.token) ∧ c.depth ≤ limit.toNat

/-- Every number of a source converts, so each of its derivations has a value. -/
theorem exists_spells {limit : UInt64} {expression : String} {c : Sentence}
    (hc : c.tokens = Lexer.kinds expression) (hdepth : c.depth ≤ limit.toNat) :
    ∃ v, c.Spells binary64 limit.toNat (Lexer.tokensFrom 0 expression) v := by
  have hconverts := converts_kinds expression
  rw [← hc, ← c.isSome_value?_iff binary64] at hconverts
  obtain ⟨v, hv⟩ := Option.isSome_iff_exists.mp hconverts
  exact ⟨v, hc, hv, hdepth⟩

theorem tokenize_of_evaluateWithLimit {limit : UInt64} {expression : String} {v : Float}
    (h : evaluateWithLimit expression limit = .ok v) :
    tokenize expression = .ok (Lexer.tokensFrom 0 expression) := by
  cases hts : tokenize expression with
  | error e =>
    rw [evaluateWithLimit, hts] at h
    contradiction
  | ok ts => rw [(tokenize_eq_ok_iff.mp hts).2]

theorem accepts_iff {limit : UInt64} {expression : String} :
    Accepts limit expression ↔ ∃ v, evaluateWithLimit expression limit = .ok v := by
  constructor
  · rintro ⟨ts, hts, c, hc, hdepth⟩
    obtain ⟨-, rfl⟩ := tokenize_eq_ok_iff.mp hts
    obtain ⟨v, hv⟩ := exists_spells hc hdepth
    exact ⟨v, evaluateWithLimit_eq_ok_iff.mpr ⟨c, hv⟩⟩
  · rintro ⟨v, hv⟩
    obtain ⟨c, hc⟩ := evaluateWithLimit_eq_ok_iff.mp hv
    exact ⟨_, tokenize_of_evaluateWithLimit hv, c, hc.tokens, hc.depth⟩

namespace Endpoint

/-! The query. -/

theorem dropAuthority_of_dropWhile {cs es : List Char}
    (h : cs.dropWhile isSchemeChar = ':' :: '/' :: '/' :: es) :
    dropAuthority cs = es.dropWhile fun c => c ≠ '/' && c ≠ '?' && c ≠ '#' := by
  unfold dropAuthority
  simp only [h]

theorem dropAuthority_of_dropWhile_ne {cs : List Char}
    (h : ∀ es, cs.dropWhile isSchemeChar ≠ ':' :: '/' :: '/' :: es) : dropAuthority cs = cs := by
  unfold dropAuthority
  split
  next es heq => exact absurd heq (h es)
  next => rfl

theorem exists_of_append_eq {c : Char} {cs ds xs es : List Char} (h : cs ++ c :: ds = xs ++ es)
    (hc : c ∉ xs) : ∃ fs, cs = xs ++ fs := by
  obtain ⟨fs, rfl, hfs⟩ | ⟨fs, hcs, -⟩ := List.append_eq_append_iff.mp h
  · cases fs with
    | nil => exact ⟨[], by simp⟩
    | cons d fs =>
      obtain ⟨rfl, -⟩ := List.cons.inj hfs
      exact absurd (by simp) hc
  · exact ⟨fs, hcs⟩

theorem dropAuthority_append_query (cs query : List Char) :
    dropAuthority (cs ++ '?' :: query) = dropAuthority cs ++ '?' :: query := by
  have hscheme : (cs ++ '?' :: query).dropWhile isSchemeChar =
      cs.dropWhile isSchemeChar ++ '?' :: query := Text.dropWhile_append_of_head (by simp; rfl) cs
  by_cases habsolute : ∃ es, cs.dropWhile isSchemeChar = ':' :: '/' :: '/' :: es
  · obtain ⟨es, hes⟩ := habsolute
    rw [hes] at hscheme
    rw [dropAuthority_of_dropWhile hes, dropAuthority_of_dropWhile hscheme]
    exact Text.dropWhile_append_of_head (by simp) es
  · have hcs : ∀ es, cs.dropWhile isSchemeChar ≠ ':' :: '/' :: '/' :: es :=
      fun es hes => habsolute ⟨es, hes⟩
    rw [dropAuthority_of_dropWhile_ne hcs, dropAuthority_of_dropWhile_ne]
    -- What is missing in front of an authority does not come with the query.
    intro es hes
    rw [hscheme] at hes
    obtain ⟨fs, hfs⟩ := @exists_of_append_eq _ _ _ [':', '/', '/'] es hes (by simp)
    exact hcs fs hfs

theorem path_append_query (method target query : String) (body : ByteArray) :
    Request.path ⟨method, target ++ ("?" ++ query), body⟩ =
      Request.path ⟨method, target, body⟩ := by
  have htarget : (target ++ ("?" ++ query)).toList = target.toList ++ '?' :: query.toList := by simp
  simp only [Request.path, htarget, dropAuthority_append_query]
  rw [Text.takeWhile_append_of_head (by simp)]

theorem answer_append_query (limit : UInt64) (r : Request) (query : String) :
    answer limit { r with target := r.target ++ ("?" ++ query) } = answer limit r := by
  rw [answer, answer, path_append_query]

/-! The cases. -/

inductive Case where
  | elsewhere
  | oversized
  | otherMethod
  | noExpression
  | refused (expression : String)
  | accepted (expression : String)

/-- The path is that of the endpoint, and the body is read to its end. -/
def Request.Reaches (r : Request) : Prop := r.path = "/api/parse" ∧ r.body.size ≤ 2097152

/-- The requests of a case. -/
def Case.Applies (limit : UInt64) (r : Request) : Case → Prop
  | elsewhere => r.path ≠ "/api/parse"
  | oversized => r.path = "/api/parse" ∧ 2097152 < r.body.size
  | otherMethod => r.Reaches ∧ r.method ≠ "POST"
  | noExpression => r.Reaches ∧ r.method = "POST" ∧ Reply.extractExpression r.body = none
  | refused e => r.Reaches ∧ r.method = "POST" ∧ Reply.extractExpression r.body = some e ∧
      ¬Accepts limit e
  | accepted e => r.Reaches ∧ r.method = "POST" ∧ Reply.extractExpression r.body = some e ∧
      Accepts limit e

/-- A response with this body, and this event and no other. -/
structure Sends (r : Request) (response : Response) (events : List Event) (status : Nat)
    (body : ReplyBody) (event : Event) (severity : Severity) : Prop where
  code : response.status = status
  contentType : response.contentType? = some "application/json"
  withoutText : r.method = "HEAD" → response.body = ""
  text : r.method ≠ "HEAD" → response.body = body.toJson.compact
  /-- The text reads as the fields of the body, a result that is not finite as null. -/
  tells : r.method ≠ "HEAD" → ∃ v, Value.ofText? response.body.toList = some v ∧ body.Tells v
  logged : events = [event]
  level : (LogRecord.ofEvent event).severity = severity

/-- The result in the text of a response: the number itself, or null if it is not finite. -/
def ShowsResult (response : Response) (x : Float) : Prop :=
  ∃ v, (Value.ofText? response.body.toList).bind (·.member? "result") = some v ∧
    (v = .null ↔ ¬x.isFinite) ∧
    (x.isFinite → ∃ negative d, v = .number negative d ∧ d.toFloat negative = x)

/-- The responses and events of a case. -/
def Case.Describes (limit : UInt64) (r : Request) (response : Response) (events : List Event) :
    Case → Prop
  | elsewhere => response = ⟨404, none, ""⟩ ∧ events = []
  | oversized => events = [] ∧ response = ⟨413, some "text/plain; charset=utf-8",
      if r.method = "HEAD" then ""
      else "Failed to buffer the request body: length limit exceeded"⟩
  | otherMethod => ∃ error, Sends r response events 405 (.rejected error)
      (.rejected r.method .methodNotAllowed error) .warn
  | noExpression => ∃ error, Sends r response events 400 (.rejected error)
      (.rejected r.method .badRequest error) .warn
  | refused e => ∃ error, evaluateWithLimit e limit = .error error ∧
      Sends r response events 400 (.failure e error.message) (.failed e error.message) .debug
  | accepted e => ∃ ts v, tokenize e = .ok ts ∧
      (∃! c : Sentence, c.tokens = ts.map (·.token)) ∧
      (∀ c : Sentence, c.tokens = ts.map (·.token) →
        c.depth ≤ limit.toNat ∧ c.value? binary64 = some v) ∧
      Sends r response events 200 (.success e v ReplyBody.successMessage) (.evaluated e v) .debug ∧
      ShowsResult response v

theorem Case.exists_applies (limit : UInt64) (r : Request) : ∃ k : Case, k.Applies limit r := by
  by_cases hpath : r.path = "/api/parse"
  · obtain hsize | hsize := Nat.lt_or_ge 2097152 r.body.size
    · exact ⟨.oversized, hpath, hsize⟩
    · have hreaches : r.Reaches := ⟨hpath, hsize⟩
      by_cases hmethod : r.method = "POST"
      · cases hbody : Reply.extractExpression r.body with
        | none => exact ⟨.noExpression, hreaches, hmethod, hbody⟩
        | some e =>
          by_cases haccepts : Accepts limit e
          · exact ⟨.accepted e, hreaches, hmethod, hbody, haccepts⟩
          · exact ⟨.refused e, hreaches, hmethod, hbody, haccepts⟩
      · exact ⟨.otherMethod, hreaches, hmethod⟩
  · exact ⟨.elsewhere, hpath⟩

/-- The case that an answer tells. Two cases are not logged, and those differ in the status. -/
def Case.ofAnswer (response : Response) : List Event → Option Case
  | [] => if response.status = 404 then some elsewhere else some oversized
  | [.rejected _ .methodNotAllowed _] => some otherMethod
  | [.rejected _ _ _] => some noExpression
  | [.failed e _] => some (refused e)
  | [.evaluated e _] => some (accepted e)
  | _ => none

theorem Case.ofAnswer_of_describes {limit : UInt64} {r : Request} {response : Response}
    {events : List Event} {k : Case} (h : k.Describes limit r response events) :
    ofAnswer response events = some k := by
  cases k with
  | elsewhere | oversized =>
    obtain ⟨rfl, rfl⟩ := h
    rfl
  | otherMethod | noExpression =>
    obtain ⟨error, hsends⟩ := h
    rw [hsends.logged]
    rfl
  | refused e =>
    obtain ⟨error, -, hsends⟩ := h
    rw [hsends.logged]
    rfl
  | accepted e =>
    obtain ⟨ts, v, -, -, -, hsends, -⟩ := h
    rw [hsends.logged]
    rfl

theorem answer_of_reaches {limit : UInt64} {r : Request} {reply : Reply} (h : r.Reaches)
    (hreply : Reply.handle r.method r.body limit = reply) :
    answer limit r = (responseOf r.method reply, [eventOf r.method reply]) :=
  answer_of_size_le h.1 h.2 hreply

theorem sends_of_reply (r : Request) (reply : Reply) :
    Sends r (responseOf r.method reply) [eventOf r.method reply] reply.status.code reply.body
      (eventOf r.method reply) (LogRecord.ofEvent (eventOf r.method reply)).severity where
  code := rfl
  contentType := rfl
  withoutText h := if_pos h
  text h := if_neg h
  tells h := by
    have htext : (responseOf r.method reply).body = reply.body.toJson.compact := if_neg h
    rw [htext]
    exact ⟨_, ReplyBody.ofText?_text .compact reply.body, reply.body.tells_toJson⟩
  logged := rfl
  level := rfl

theorem showsResult_success {method : String} (h : method ≠ "HEAD") (e : String) (x : Float)
    (message : String) : ShowsResult (responseOf method ⟨.ok, .success e x message⟩) x := by
  have htext : (responseOf method ⟨.ok, .success e x message⟩).body =
      (ReplyBody.success e x message).toJson.compact := if_neg h
  have hread : Value.ofText? (ReplyBody.success e x message).toJson.compact.toList = some _ :=
    ReplyBody.ofText?_text .compact _
  refine ⟨.ofFloat x, ?_, Value.ofFloat_eq_null_iff, Value.ofFloat_of_isFinite⟩
  rw [htext, hread]
  rfl

theorem Case.describes_of_applies {limit : UInt64} {r : Request} {k : Case}
    (h : k.Applies limit r) :
    k.Describes limit r (answer limit r).1 (answer limit r).2 := by
  cases k with
  | elsewhere =>
    rw [answer_of_path_ne h]
    exact ⟨rfl, rfl⟩
  | oversized =>
    rw [answer_of_size_gt h.1 h.2]
    exact ⟨rfl, rfl⟩
  | otherMethod =>
    obtain ⟨hreaches, hmethod⟩ := h
    rw [answer_of_reaches hreaches (if_neg hmethod)]
    exact ⟨_, sends_of_reply r .methodNotAllowed⟩
  | noExpression =>
    obtain ⟨hreaches, hmethod, hbody⟩ := h
    rw [answer_of_reaches hreaches (hmethod ▸ Reply.handle_of_extractExpression_none hbody limit)]
    exact ⟨_, sends_of_reply r .missingExpression⟩
  | refused e =>
    obtain ⟨hreaches, hmethod, hbody, hrefused⟩ := h
    cases hvalue : evaluateWithLimit e limit with
    | ok v => exact absurd (accepts_iff.mpr ⟨v, hvalue⟩) hrefused
    | error error =>
      have hreply : Reply.evaluated e limit = ⟨.badRequest, .failure e error.message⟩ := by
        rw [Reply.evaluated, hvalue]
      rw [← Reply.handle_of_extractExpression hbody, ← hmethod] at hreply
      rw [answer_of_reaches hreaches hreply]
      exact ⟨error, hvalue, sends_of_reply r ⟨.badRequest, .failure e error.message⟩⟩
  | accepted e =>
    obtain ⟨hreaches, hmethod, hbody, haccepted⟩ := h
    obtain ⟨v, hvalue⟩ := accepts_iff.mp haccepted
    obtain ⟨c, hc⟩ := evaluateWithLimit_eq_ok_iff.mp hvalue
    have hreply : Reply.evaluated e limit = ⟨.ok, .success e v ReplyBody.successMessage⟩ := by
      rw [Reply.evaluated, hvalue]
    rw [← Reply.handle_of_extractExpression hbody, ← hmethod] at hreply
    have honly (c' : Sentence)
        (hc' : c'.tokens = (Lexer.tokensFrom 0 e).map (·.token)) : c' = c :=
      Chain.tokens_injective (hc'.trans hc.tokens.symm)
    rw [answer_of_reaches hreaches hreply]
    refine ⟨_, v, tokenize_of_evaluateWithLimit hvalue, ⟨c, hc.tokens, honly⟩, ?_,
      sends_of_reply r ⟨.ok, .success e v ReplyBody.successMessage⟩,
      showsResult_success (by simp [hmethod]) e v _⟩
    intro c' hc'
    rw [honly c' hc']
    exact ⟨hc.depth, hc.value⟩

/-- Each request is in one case, and so are the answer to it and the event for the log: they are as
the path, the size, the method, the body and the tokens of the expression demand. A query changes
nothing. -/
theorem answer_cases (limit : UInt64) (r : Request) :
    (∃ k : Case, ∀ k' : Case, (k'.Applies limit r ↔ k' = k) ∧
      (k'.Describes limit r (answer limit r).1 (answer limit r).2 ↔ k' = k)) ∧
    ∀ query, answer limit { r with target := r.target ++ ("?" ++ query) } = answer limit r := by
  refine ⟨?_, answer_append_query limit r⟩
  obtain ⟨k, hk⟩ := Case.exists_applies limit r
  have hdescribes := Case.describes_of_applies hk
  -- The answer tells the case, so no other case has this answer, and none but it applies.
  have honly {k' : Case} (h : k'.Describes limit r (answer limit r).1 (answer limit r).2) :
      k' = k := by
    have hanswer := Case.ofAnswer_of_describes h
    rwa [Case.ofAnswer_of_describes hdescribes, Option.some.injEq, eq_comm] at hanswer
  refine ⟨k, fun k' => ⟨⟨fun h => honly (Case.describes_of_applies h), ?_⟩, ⟨honly, ?_⟩⟩⟩
  · rintro rfl
    exact hk
  · rintro rfl
    exact hdescribes

/-- A request with a wrong method and a body of one byte too many. -/
def oversizedPut : Request := ⟨"PUT", "/api/parse", ⟨Array.replicate 2097153 97⟩⟩

/-- It is not told that its method is wrong, and leaves no trace in the log. -/
theorem answer_oversizedPut :
    oversizedPut.path = "/api/parse" ∧ oversizedPut.method ≠ "POST" ∧
      (answer 256 oversizedPut).1.status ≠ 405 ∧ (answer 256 oversizedPut).2 = [] := by
  have hpath : oversizedPut.path = "/api/parse" := by decide
  have hsize : oversizedPut.body.size = 2097153 := Array.size_replicate
  have hanswer : answer 256 oversizedPut = (tooLarge "PUT", []) :=
    answer_of_size_gt hpath (by rw [hsize]; decide)
  rw [hanswer]
  exact ⟨hpath, by decide, by decide, rfl⟩

end Endpoint
end Calculator
