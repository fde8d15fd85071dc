import Calculator.Proofs.JsonText
import Calculator.Proofs.ReplyText

/-! Bodies that name an expression. A body is the text of one value. Its last member of the name
tells the expression, if that is a string and not empty, whatever else the body holds and however
it is spelled. But a value may stand for another one, that of a text embedded in it. -/
namespace Calculator

namespace Json

/-! Embedded texts, replaced. -/

theorem expand?_embedded_iff {v w : Value} {ms : List (String × Value)} :
    (Value.object ((embeddedName, v) :: ms)).expand? = some w ↔
      ∃ text inner, v = .string text ∧ ms = [] ∧ Document inner text.toList ∧
        inner.expand? = some w := by
  simp only [← Value.ofText?_eq_some_iff]
  constructor
  · intro h
    unfold Value.expand? at h
    rw [if_pos rfl] at h
    split at h
    next text =>
      split at h
      next inner hinner => exact ⟨text, inner, rfl, rfl, hinner, h⟩
      next => contradiction
    next => contradiction
  · rintro ⟨text, inner, rfl, rfl, hinner, h⟩
    unfold Value.expand?
    rw [if_pos rfl]
    dsimp only
    split
    next inner' hinner' =>
      obtain rfl := Option.some.inj (hinner'.symm.trans hinner)
      exact h
    next hnone => exact absurd (hnone.symm.trans hinner) (by simp)

theorem stands_object_cases {name : String} {v w : Value} {ms : List (String × Value)}
    (h : Stands (.object ((name, v) :: ms)) w) :
    (name ≠ embeddedName ∧ ∃ ns, w = .object ns ∧
      ((name, v) :: ms).map Prod.fst = ns.map Prod.fst ∧
      List.Forall₂ Stands (((name, v) :: ms).map Prod.snd) (ns.map Prod.snd)) ∨
    (name = embeddedName ∧ ∃ text inner, v = .string text ∧ ms = [] ∧
      Document inner text.toList ∧ Stands inner w) := by
  cases h with
  | scalar _ hobject => exact absurd rfl (hobject _)
  | object hname hnames h => exact .inl ⟨by simpa using hname, _, rfl, hnames, h⟩
  | embedded htext h => exact .inr ⟨rfl, _, _, rfl, rfl, htext, h⟩

theorem size_lt_of_embedded {v inner : Value} {text : String} (hv : v = .string text)
    (h : Document inner text.toList) (name : String) (ms : List (String × Value)) :
    inner.size < (Value.object ((name, v) :: ms)).size := by
  have hsize := Value.size_le_length_of_ofText? (Value.ofText?_eq_some_iff.mpr h)
  rw [String.length_toList] at hsize
  simp only [hv, Value.size, membersSize]
  omega

-- By induction on the size of the value, which no text embedded in it exceeds.
mutual

theorem stands_of_expand? : ∀ v w : Value, v.expand? = some w → Stands v w
  | .null, w, h | .bool _, w, h | .number .., w, h | .string _, w, h => by
    rw [Value.expand?] at h
    · cases h
      exact .scalar (by simp) (by simp)
    all_goals simp
  | .array vs, w, h => by
    rw [Value.expand?] at h
    obtain ⟨ws, hws, rfl⟩ := Option.map_eq_some_iff.mp h
    exact .array (stands_of_expandItems? vs ws hws)
  | .object [], w, h => by
    rw [Value.expand?] at h
    cases h
    exact .object (by simp) rfl .nil
  | .object ((name, v) :: ms), w, h => by
    by_cases hname : name = embeddedName
    · rw [hname] at h
      obtain ⟨text, inner, hv, hms, htext, hinner⟩ := expand?_embedded_iff.mp h
      have := size_lt_of_embedded hv htext name ms
      rw [hname, hv, hms]
      exact .embedded htext (stands_of_expand? inner w hinner)
    · unfold Value.expand? at h
      rw [if_neg hname] at h
      obtain ⟨ns, hns, rfl⟩ := Option.map_eq_some_iff.mp h
      obtain ⟨hnames, hvalues⟩ := stands_of_expandMembers? _ ns hns
      exact .object (by simpa using hname) hnames hvalues
termination_by v => v.size
decreasing_by
  · exact Nat.lt_succ_self _
  · assumption
  · exact Nat.lt_succ_self _

theorem stands_of_expandItems? :
    ∀ vs ws, expandItems? vs = some ws → List.Forall₂ Stands vs ws
  | [], ws, h => by
    rw [expandItems?] at h
    cases h
    exact .nil
  | v :: vs, ws, h => by
    rw [expandItems?] at h
    split at h
    next w ws' hw hws =>
      cases h
      exact .cons (stands_of_expand? v w hw) (stands_of_expandItems? vs ws' hws)
    next => contradiction
termination_by vs => itemsSize vs
decreasing_by
  · simp only [itemsSize]; omega
  · simp only [itemsSize]; omega

theorem stands_of_expandMembers? :
    ∀ ms ns, expandMembers? ms = some ns → ms.map Prod.fst = ns.map Prod.fst ∧
      List.Forall₂ Stands (ms.map Prod.snd) (ns.map Prod.snd)
  | [], ns, h => by
    rw [expandMembers?] at h
    cases h
    exact ⟨rfl, .nil⟩
  | (name, v) :: ms, ns, h => by
    rw [expandMembers?] at h
    split at h
    next w ns' hw hns =>
      cases h
      obtain ⟨hnames, hvalues⟩ := stands_of_expandMembers? ms ns' hns
      exact ⟨congrArg (name :: ·) hnames, .cons (stands_of_expand? v w hw) hvalues⟩
    next => contradiction
termination_by ms => membersSize ms
decreasing_by
  · simp only [membersSize]; omega
  · simp only [membersSize]; omega

end

mutual

theorem expand?_of_stands : ∀ v w : Value, Stands v w → v.expand? = some w
  | .null, w, h | .bool _, w, h | .number .., w, h | .string _, w, h => by
    cases h
    rw [Value.expand?] <;> simp
  | .array vs, w, h => by
    cases h with
    | scalar harray => exact absurd rfl (harray vs)
    | array h =>
      rw [Value.expand?, expandItems?_of_stands vs _ h]
      rfl
  | .object [], w, h => by
    cases h with
    | scalar _ hobject => exact absurd rfl (hobject [])
    | object _ hnames =>
      obtain rfl := List.map_eq_nil_iff.mp hnames.symm
      rw [Value.expand?]
  | .object ((name, v) :: ms), w, h => by
    obtain ⟨hname, ns, rfl, hnames, hvalues⟩ | ⟨hname, text, inner, hv, hms, htext, hinner⟩ :=
      stands_object_cases h
    · unfold Value.expand?
      rw [if_neg hname, expandMembers?_of_stands _ ns hnames hvalues]
      rfl
    · have := size_lt_of_embedded hv htext name ms
      rw [hname]
      exact expand?_embedded_iff.mpr
        ⟨text, inner, hv, hms, htext, expand?_of_stands inner w hinner⟩
termination_by v => v.size
decreasing_by
  · exact Nat.lt_succ_self _
  · exact Nat.lt_succ_self _
  · assumption

theorem expandItems?_of_stands :
    ∀ vs ws, List.Forall₂ Stands vs ws → expandItems? vs = some ws
  | [], ws, h => by
    cases h
    rw [expandItems?]
  | v :: vs, ws, h => by
    cases h with
    | @cons _ w _ ws' h hs =>
      rw [expandItems?, expand?_of_stands v w h, expandItems?_of_stands vs ws' hs]
termination_by vs => itemsSize vs
decreasing_by
  · simp only [itemsSize]; omega
  · simp only [itemsSize]; omega

theorem expandMembers?_of_stands :
    ∀ ms ns, ms.map Prod.fst = ns.map Prod.fst →
      List.Forall₂ Stands (ms.map Prod.snd) (ns.map Prod.snd) → expandMembers? ms = some ns
  | [], ns, hnames, _ => by
    obtain rfl := List.map_eq_nil_iff.mp hnames.symm
    rw [expandMembers?]
  | (name, v) :: ms, [], hnames, _ => by
    contradiction
  | (name, v) :: ms, (name', w) :: ns, hnames, h => by
    obtain ⟨hname, htail⟩ := List.cons.inj hnames
    obtain ⟨h, hs⟩ := List.forall₂_cons.mp h
    obtain rfl : name = name' := hname
    rw [expandMembers?, expand?_of_stands v w h, expandMembers?_of_stands ms ns htail hs]
termination_by ms => membersSize ms
decreasing_by
  · simp only [membersSize]; omega
  · simp only [membersSize]; omega

end

/-- A value stands for another one exactly when replacing what is embedded in it gives that. -/
theorem Value.expand?_eq_some_iff {v w : Value} : v.expand? = some w ↔ Stands v w :=
  ⟨stands_of_expand? v w, expand?_of_stands v w⟩

/-! Bytes. -/

theorem fromUTF8?_eq_some_iff {body : ByteArray} {text : String} :
    String.fromUTF8? body = some text ↔ body = text.toUTF8 := by
  constructor
  · intro h
    unfold String.fromUTF8? at h
    split at h
    next => exact Option.some.inj h ▸ rfl
    next => contradiction
  · rintro rfl
    exact fromUTF8?_toUTF8 text

theorem Value.ofBytes?_eq_some_iff {body : ByteArray} {w : Value} :
    ofBytes? body = some w ↔
      ∃ (text : String) (v : Value),
        body = text.toUTF8 ∧ Document v text.toList ∧ Stands v w := by
  simp only [ofBytes?, Option.bind_eq_some_iff, fromUTF8?_eq_some_iff, ofText?_eq_some_iff,
    expand?_eq_some_iff]
  constructor
  · rintro ⟨text, hbody, v, htext, hv⟩
    exact ⟨text, v, hbody, htext, hv⟩
  · rintro ⟨text, v, hbody, htext, hv⟩
    exact ⟨text, hbody, v, htext, hv⟩

/-! Members. -/

theorem Value.member?_eq_some_iff {name : String} {v w : Value} :
    v.member? name = some w ↔
      ∃ before after, v = .object (before ++ (name, w) :: after) ∧ ∀ m ∈ after, m.1 ≠ name := by
  cases v with
  | object ms =>
    rw [member?, List.getLast?_filter, Option.map_eq_some_iff]
    simp only [List.find?_eq_some_iff_append, object.injEq]
    constructor
    · rintro ⟨⟨_, _⟩, ⟨hname, after, before, hms, hafter⟩, rfl⟩
      obtain rfl := of_decide_eq_true hname
      refine ⟨before.reverse, after.reverse, ?_, by simpa using hafter⟩
      rw [← List.reverse_reverse ms, hms]
      simp
    · rintro ⟨before, after, rfl, hafter⟩
      exact ⟨(name, w),
        ⟨by simp, after.reverse, before.reverse, by simp, by simpa using hafter⟩, rfl⟩
  | null | bool | number | string | array => simp [member?]

/-- The value is an object, and its last member of that name is this string, which is not empty. -/
def Value.Names (v : Value) (expression : String) : Prop :=
  ∃ before after, v = .object (before ++ ("expression", .string expression) :: after) ∧
    (∀ m ∈ after, m.1 ≠ "expression") ∧ expression ≠ ""

theorem Value.names_iff {v : Value} {expression : String} :
    v.Names expression ↔ v.member? "expression" = some (.string expression) ∧ expression ≠ "" := by
  rw [member?_eq_some_iff]
  constructor
  · rintro ⟨before, after, hv, hafter, hne⟩
    exact ⟨⟨before, after, hv, hafter⟩, hne⟩
  · rintro ⟨⟨before, after, hv, hafter⟩, hne⟩
    exact ⟨before, after, hv, hafter, hne⟩

end Json

open Json

namespace Reply

theorem extractExpression_iff_names {body : ByteArray} {expression : String} :
    extractExpression body = some expression ↔
      ∃ w, Value.ofBytes? body = some w ∧ w.Names expression := by
  simp only [extractExpression, Option.bind_eq_bind, Option.bind_eq_some_iff, Value.names_iff]
  constructor
  · rintro ⟨w, hw, member, hmember, h⟩
    split at h
    next =>
      split at h
      next => contradiction
      next hne =>
        obtain rfl := Option.some.inj h
        exact ⟨w, hw, hmember, hne⟩
    next => contradiction
  · rintro ⟨w, hw, hmember, hne⟩
    exact ⟨w, hw, _, hmember, if_neg hne⟩

/-- A body names an expression exactly if it is the UTF-8 text of one value, of any spelling, and
the object that this value stands for has the expression for its last member of the name. Where no
object in it is an embedded text, the value stands for itself. -/
theorem extractExpression_eq_some_iff (body : ByteArray) (expression : String) :
    (extractExpression body = some expression ↔
      ∃ (text : String) (v w : Value),
        body = text.toUTF8 ∧ Document v text.toList ∧ Stands v w ∧ w.Names expression) ∧
    ∀ (text : String) (v : Value), body = text.toUTF8 → Document v text.toList → v.Literal →
      (extractExpression body = some expression ↔ v.Names expression) := by
  rw [extractExpression_iff_names]
  refine ⟨?_, fun text v hbody htext hliteral => ?_⟩
  · simp only [Value.ofBytes?_eq_some_iff]
    constructor
    · rintro ⟨w, ⟨text, v, hbody, htext, hv⟩, hw⟩
      exact ⟨text, v, w, hbody, htext, hv, hw⟩
    · rintro ⟨text, v, w, hbody, htext, hv, hw⟩
      exact ⟨w, ⟨text, v, hbody, htext, hv⟩, hw⟩
  · have hv := Value.expand?_eq_some_iff.mp (Value.expand?_literal v hliteral)
    have hread : Value.ofBytes? body = some v :=
      Value.ofBytes?_eq_some_iff.mpr ⟨text, v, hbody, htext, hv⟩
    simp [hread]

/-- An object whose only member has the reserved name. -/
def embeddingText : String :=
  "\x7b\"$serde_json::private::RawValue\": \"\x7b\\\"expression\\\": \\\"1+1\\\"\x7d\"\x7d"

/-- The object itself has no member of the name, but stands for one that has. -/
theorem extractExpression_embedded :
    extractExpression embeddingText.toUTF8 = some "1+1" ∧
      ¬∃ (text : String) (v : Value), embeddingText.toUTF8 = text.toUTF8 ∧
        Document v text.toList ∧ v.Names "1+1" := by
  refine ⟨by decide +kernel, ?_⟩
  rintro ⟨text, v, hbody, htext, hnames⟩
  -- A text spells one value only, so the value that the reader takes from it decides.
  have hnone : ((Value.ofText? embeddingText.toList).bind (·.member? "expression")).isNone := by
    decide +kernel
  obtain rfl := Option.some.inj ((fromUTF8?_toUTF8 _).symm.trans (fromUTF8?_eq_some_iff.mpr hbody))
  rw [Value.ofText?_eq_some_iff.mpr htext, Option.bind_some, (Value.names_iff.mp hnames).1] at hnone
  contradiction

end Reply
end Calculator
