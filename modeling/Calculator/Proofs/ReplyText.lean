import Calculator.Proofs.DoubleBits
import Calculator.Proofs.JsonText
import Calculator.Reply

/-! What the text of a body tells. It carries no tag, but its members give back the body, with all
results that are not finite taken for one; and since each body names the expression it is about, a
reply may be posted again. -/
namespace Calculator

namespace Json

theorem Value.readable_ofFloat (levels : Nat) (x : Float) : (Value.ofFloat x).Readable levels := by
  unfold Value.ofFloat
  dsimp only
  split
  next h => exact ⟨Decimal.isNormal_shortest _ _, NumberText.overflows_shortest _ h⟩
  next => trivial

theorem Value.literal_ofFloat (x : Float) : (Value.ofFloat x).Literal := by
  unfold Value.ofFloat
  dsimp only
  split <;> trivial

theorem Value.ofFloat_of_isFinite {x : Float} (h : x.isFinite) :
    ∃ negative d, Value.ofFloat x = .number negative d ∧ d.toFloat negative = x :=
  ⟨_, _, if_pos ((Binary64.isFinite_iff x).mp h), Binary64.toFloat_shortest _ h⟩

theorem Value.ofFloat_of_not_isFinite {x : Float} (h : ¬ x.isFinite) : Value.ofFloat x = .null :=
  if_neg fun hlt => h ((Binary64.isFinite_iff x).mpr hlt)

theorem Value.ofFloat_eq_null_iff {x : Float} : Value.ofFloat x = .null ↔ ¬x.isFinite := by
  constructor
  · intro hnull hfinite
    obtain ⟨negative, d, hnumber, -⟩ := ofFloat_of_isFinite hfinite
    rw [hnull] at hnumber
    contradiction
  · exact ofFloat_of_not_isFinite

end Json

open Json (Value Spacing)

namespace ReplyBody

/-- Bodies with the same fields, up to results that are not finite. -/
inductive Alike : ReplyBody → ReplyBody → Prop where
  | success (expression message : String) {x y : Float} (h : x = y ∨ ¬ x.isFinite ∧ ¬ y.isFinite) :
      Alike (.success expression x message) (.success expression y message)
  | failure (expression error : String) :
      Alike (.failure expression error) (.failure expression error)
  | rejected (error : String) : Alike (.rejected error) (.rejected error)

/-- The value that tells a body: its fields and no other members. Equality of doubles tells a zero
from the other one. -/
inductive Tells : ReplyBody → Value → Prop where
  | finite (expression message : String) (negative : Bool) (d : Decimal) :
      (d.toFloat negative).isFinite →
      Tells (.success expression (d.toFloat negative) message)
        (.object [("expression", .string expression), ("result", .number negative d),
          ("message", .string message)])
  | unbounded (expression message : String) {x : Float} (h : ¬ x.isFinite) :
      Tells (.success expression x message)
        (.object [("expression", .string expression), ("result", .null),
          ("message", .string message)])
  | failure (expression error : String) :
      Tells (.failure expression error)
        (.object [("expression", .string expression), ("error", .string error)])
  | rejected (error : String) : Tells (.rejected error) (.object [("error", .string error)])

theorem tells_toJson (b : ReplyBody) : b.Tells b.toJson := by
  cases b with
  | success expression x message =>
    by_cases h : x.isFinite
    · obtain ⟨negative, d, hjson, rfl⟩ := Value.ofFloat_of_isFinite h
      rw [toJson, hjson]
      exact .finite expression message negative d h
    · rw [toJson, Value.ofFloat_of_not_isFinite h]
      exact .unbounded expression message h
  | failure expression error => exact .failure expression error
  | rejected error => exact .rejected error

/-- Bodies that one value tells are alike: the names of its members leave one case. -/
theorem Tells.alike {b b' : ReplyBody} {v v' : Value} (h : b.Tells v) (h' : b'.Tells v')
    (heq : v = v') : b.Alike b' := by
  cases h <;> cases h' <;>
    simp only [Value.object.injEq, List.cons.injEq, Prod.mk.injEq, Value.string.injEq,
      Value.number.injEq, String.reduceEq, reduceCtorEq, true_and, and_true, false_and,
      and_false] at heq
  case finite.finite =>
    obtain ⟨rfl, ⟨rfl, rfl⟩, rfl⟩ := heq
    exact .success _ _ (.inl rfl)
  case unbounded.unbounded hx _ _ _ hy =>
    obtain ⟨rfl, rfl⟩ := heq
    exact .success _ _ (.inr ⟨hx, hy⟩)
  case failure.failure =>
    obtain ⟨rfl, rfl⟩ := heq
    exact .failure _ _
  case rejected.rejected =>
    obtain rfl := heq
    exact .rejected _

theorem Alike.toJson_eq {b b' : ReplyBody} (h : b.Alike b') : b.toJson = b'.toJson := by
  cases h with
  | success expression message h =>
    obtain rfl | ⟨hx, hy⟩ := h
    · rfl
    · rw [toJson, toJson, Value.ofFloat_of_not_isFinite hx, Value.ofFloat_of_not_isFinite hy]
  | failure => rfl
  | rejected => rfl

theorem readable_toJson (b : ReplyBody) : b.toJson.Readable Json.maxLevels := by
  cases b with
  | success expression x message =>
    exact ⟨by decide, trivial, Value.readable_ofFloat _ x, trivial, trivial⟩
  | failure => exact ⟨by decide, trivial, trivial, trivial⟩
  | rejected => exact ⟨by decide, trivial, trivial⟩

theorem literal_toJson (b : ReplyBody) : b.toJson.Literal := by
  have hname : some "expression" ≠ some Json.embeddedName ∧
      some "error" ≠ some Json.embeddedName := by decide
  cases b with
  | success expression x message =>
    exact ⟨hname.1, trivial, Value.literal_ofFloat x, trivial, trivial⟩
  | failure => exact ⟨hname.1, trivial, trivial, trivial⟩
  | rejected => exact ⟨hname.2, trivial, trivial⟩

def text (s : Spacing) (b : ReplyBody) : String := String.ofList (b.toJson.text s 0)

/-- Blanks behind a text, such as the end of its line, change nothing. -/
theorem ofText?_text_append (s : Spacing) (b : ReplyBody) {rest : List Char}
    (hrest : Json.Reader.skipBlanks rest = []) :
    Value.ofText? ((b.text s).toList ++ rest) = some b.toJson := by
  rw [text, String.toList_ofList, Value.ofText?_text s b.readable_toJson hrest]

theorem ofText?_text (s : Spacing) (b : ReplyBody) :
    Value.ofText? (b.text s).toList = some b.toJson := by
  simpa using @ofText?_text_append s b [] rfl

theorem ofBytes?_text (s : Spacing) (b : ReplyBody) :
    Value.ofBytes? (b.text s).toUTF8 = some b.toJson :=
  Value.ofBytes?_text s b.readable_toJson b.literal_toJson

theorem text_eq_iff (s : Spacing) (b b' : ReplyBody) : b.text s = b'.text s ↔ b.Alike b' := by
  constructor
  · intro h
    have hread := ofText?_text s b
    rw [h, ofText?_text s b', Option.some.injEq] at hread
    exact b.tells_toJson.alike b'.tells_toJson hread.symm
  · intro h
    rw [text, text, h.toJson_eq]

/-- Nothing of a body is lost in its text, on one line or indented: both texts read as one value
that tells the body, and no body that is not alike has the same text. -/
theorem reads_back (b : ReplyBody) :
    (∃ v, b.Tells v ∧ ∀ text ∈ [b.toJson.compact, b.toJson.pretty],
      Value.ofText? text.toList = some v ∧ Value.ofBytes? text.toUTF8 = some v) ∧
    ∀ b', (b.toJson.compact = b'.toJson.compact ↔ b.Alike b') ∧
      (b.toJson.pretty = b'.toJson.pretty ↔ b.Alike b') := by
  refine ⟨⟨b.toJson, b.tells_toJson, ?_⟩, fun b' => ⟨text_eq_iff .compact b b',
    text_eq_iff .pretty b b'⟩⟩
  intro text htext
  obtain rfl | htext := List.mem_cons.mp htext
  · exact ⟨ofText?_text .compact b, ofBytes?_text .compact b⟩
  · obtain rfl := List.mem_singleton.mp htext
    exact ⟨ofText?_text .pretty b, ofBytes?_text .pretty b⟩

/-- The expression that a body names. -/
def expression? : ReplyBody → Option String
  | success expression .. => some expression
  | failure expression _ => some expression
  | rejected _ => none

end ReplyBody

namespace Reply

theorem expression?_evaluated (expression : String) (limit : UInt64) :
    (evaluated expression limit).body.expression? = some expression := by
  unfold evaluated
  split <;> rfl

theorem ne_empty_of_extractExpression {body : ByteArray} {expression : String}
    (h : extractExpression body = some expression) : expression ≠ "" := by
  simp only [extractExpression, Option.bind_eq_bind, Option.bind_eq_some_iff] at h
  obtain ⟨_, _, _, _, h⟩ := h
  split at h
  next =>
    split at h
    next => contradiction
    next hne => exact Option.some.inj h ▸ hne
  next => contradiction

theorem extractExpression_text (s : Spacing) (b : ReplyBody) :
    extractExpression (b.text s).toUTF8 = b.expression?.filter (· ≠ "") := by
  rw [extractExpression, ReplyBody.ofBytes?_text]
  cases b <;> simp [ReplyBody.toJson, ReplyBody.expression?, Value.member?, Option.filter]

theorem handle_of_extractExpression {body : ByteArray} {expression : String}
    (h : extractExpression body = some expression) (limit : UInt64) :
    handle "POST" body limit = evaluated expression limit := by
  rw [handle, if_pos rfl, h]

theorem handle_of_extractExpression_none {body : ByteArray} (h : extractExpression body = none)
    (limit : UInt64) : handle "POST" body limit = missingExpression := by
  rw [handle, if_pos rfl, h]

/-- The expression of a posted body is read out of the reply again. -/
theorem extractExpression_reply (s : Spacing) (body : ByteArray) (limit : UInt64) :
    extractExpression ((handle "POST" body limit).body.text s).toUTF8 = extractExpression body := by
  rw [extractExpression_text]
  cases hextract : extractExpression body with
  | none =>
    rw [handle_of_extractExpression_none hextract]
    rfl
  | some expression =>
    rw [handle_of_extractExpression hextract, expression?_evaluated]
    exact Option.filter_some_pos (decide_eq_true (ne_empty_of_extractExpression hextract))

theorem handle_congr {body body' : ByteArray} (h : extractExpression body = extractExpression body')
    (method : String) (limit : UInt64) : handle method body limit = handle method body' limit := by
  rw [handle, handle, h]

/-- A reply can be posted back: whatever was posted, the text of the reply, on one line or indented,
names the same expression, and posting it gives that reply again. -/
theorem handle_posted_back (body : ByteArray) (limit : UInt64) :
    (extractExpression (handle "POST" body limit).body.toJson.compact.toUTF8
          = extractExpression body ∧
        handle "POST" (handle "POST" body limit).body.toJson.compact.toUTF8 limit
          = handle "POST" body limit) ∧
      extractExpression (handle "POST" body limit).body.toJson.pretty.toUTF8
          = extractExpression body ∧
        handle "POST" (handle "POST" body limit).body.toJson.pretty.toUTF8 limit
          = handle "POST" body limit := by
  have hcompact := extractExpression_reply .compact body limit
  have hpretty := extractExpression_reply .pretty body limit
  exact ⟨⟨hcompact, handle_congr hcompact "POST" limit⟩, hpretty, handle_congr hpretty "POST" limit⟩

end Reply
end Calculator
