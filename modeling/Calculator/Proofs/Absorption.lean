import Calculator.Proofs.History
import Calculator.Proofs.Replacement
import Calculator.Proofs.ReplyText
import Calculator.Proofs.Spans

/-! A property of values that an operation keeps whichever operand has it. Nothing but operations is
done to the values of a parse, so a value with the property, once it was computed, leaves it to the
result. That a double is not a number is such a property. -/
namespace Calculator

/-- `P` is passed on by each operation from either side. -/
structure Arithmetic.Absorbs (A : Arithmetic α) (P : α → Prop) : Prop where
  left (op : Operator) {v : α} (h : P v) (w : α) : P (A.apply op v w)
  right (op : Operator) (v : α) {w : α} (h : P w) : P (A.apply op v w)

section
variable {α : Type} {A : Arithmetic α} {P : α → Prop}

/-! From a group to the expression around it. -/

theorem Token.append_eq_append_cons {us vs before rest : List Token} {t : Token}
    (h : us ++ vs = before ++ t :: rest) :
    (∃ us', us = before ++ t :: us' ∧ rest = us' ++ vs) ∨
      ∃ before', vs = before' ++ t :: rest := by
  obtain ⟨before', -, hvs⟩ | ⟨us', hus, hrest⟩ := List.append_eq_append_iff.mp h
  · exact .inr ⟨before', hvs⟩
  · cases us' with
    | nil => exact .inr ⟨[], hrest.symm⟩
    | cons u us' =>
      obtain ⟨rfl, rfl⟩ := List.cons.inj hrest
      exact .inl ⟨us', hus, rfl⟩

mutual

/-- Each parenthesis in a derivation opens a group, and the value of the group was operated on. -/
theorem Chain.exists_group (hA : A.Absorbs P) {rest : List Token} : (c : Chain p) → {v : α} →
    {before : List Token} → c.value? A = some v → c.tokens = before ++ .openParen :: rest →
    ∃ (inner : Sentence) (tail : List Token) (w : α),
      rest = inner.tokens ++ .closeParen :: tail ∧ inner.value? A = some w ∧ (P w → P v)
  | .operand first, _, _, hv, hc => Operand.exists_group hA first hv hc
  | .join left op _ right, _, _, hv, hc => by
    obtain ⟨u, w, hu, hw, rfl⟩ := Chain.value?_join_eq_some.mp hv
    obtain ⟨rest', hleft, rfl⟩ | ⟨before', hright⟩ := Token.append_eq_append_cons hc
    · obtain ⟨inner, tail, x, rfl, hx, hP⟩ := Chain.exists_group hA left hu hleft
      exact ⟨inner, tail ++ .operator op :: right.tokens, x, by simp, hx,
        fun h => hA.left op (hP h) w⟩
    · cases before' with
      | nil => simp at hright
      | cons t before' =>
        obtain ⟨-, hright⟩ := List.cons.inj hright
        obtain ⟨inner, tail, x, hrest, hx, hP⟩ := Operand.exists_group hA right hw hright
        exact ⟨inner, tail, x, hrest, hx, fun h => hA.right op u (hP h)⟩

theorem Operand.exists_group (hA : A.Absorbs P) {rest : List Token} : (x : Operand p) → {v : α} →
    {before : List Token} → x.value? A = some v → x.tokens = before ++ .openParen :: rest →
    ∃ (inner : Sentence) (tail : List Token) (w : α),
      rest = inner.tokens ++ .closeParen :: tail ∧ inner.value? A = some w ∧ (P w → P v)
  | .product c, _, _, hv, hc => Chain.exists_group hA c hv hc
  | .number _, _, before, _, hc => by
    cases before <;> simp [Operand.tokens] at hc
  | .group inner, v, before, hv, hc => by
    cases before with
    | nil => exact ⟨inner, [], v, (List.cons.inj hc).2.symm, hv, id⟩
    | cons t before =>
      obtain ⟨-, hc⟩ := List.cons.inj hc
      obtain ⟨rest', hinner, rfl⟩ | ⟨before', hlast⟩ := Token.append_eq_append_cons hc
      · obtain ⟨inner', tail, w, rfl, hw, hP⟩ := Chain.exists_group hA inner hv hinner
        exact ⟨inner', tail ++ [.closeParen], w, by simp, hw, hP⟩
      · -- The last token only closes the group.
        cases before' <;> simp at hlast

end

theorem Chain.Spells.absorbs_group (hA : A.Absorbs P) {c c' : Sentence} {room room' : Nat}
    {before body after : List PlacedToken} {opening closing : Nat} {v w : α}
    (hc : c.Spells A room
      (before ++ ⟨.openParen, opening⟩ :: (body ++ ⟨.closeParen, closing⟩ :: after)) v)
    (hc' : c'.Spells A room' body w) (hw : P w) : P v := by
  obtain ⟨inner, tail, x, hrest, hx, hP⟩ :=
    c.exists_group hA hc.value (hc.tokens.trans (List.map_append ..))
  rw [List.map_append, ← hc'.tokens] at hrest
  obtain ⟨rfl, -⟩ := Chain.eq_of_append_eq (.closeParen ..) (.closeParen ..) hrest
  rw [hc'.value] at hx
  exact hP (Option.some.inj hx ▸ hw)

/-! From an operation to the result of the parse that does it. -/

namespace Parser

/-- A loop carries the value of what it has read. -/
def Production.Carries (P : α → Prop) : Production α → Prop
  | .extend _ v => P v
  | _ => False

theorem apply_not_mem_takeBehind (r : Parse α) (op : Operator) (v w : α) :
    .apply op v w ∉ takeBehind r := by
  unfold takeBehind
  split <;> simp

/-- The property goes from an operand to the value that its loop carries, and from there on to the
result of the call. -/
theorem Traced.absorbs (hA : A.Absorbs P) {k : Production α} {n : Nesting} {ts : List PlacedToken}
    {r : Parse α} {es : List (Event α)} (h : Traced A k n ts r es) :
    ∀ v, r.outcome = .ok v → (k.Carries P → P v) ∧
      ∀ op u w, .apply op u w ∈ es → P (A.apply op u w) → P v := by
  induction h with
  | chainFailed | turnFailed => intro v hv; contradiction
  | chain _ _ first more =>
    intro v hv
    obtain ⟨hcarried, hmore⟩ := more v hv
    refine ⟨False.elim, fun op u w hmem hP => ?_⟩
    obtain hmem | hmem := List.mem_append.mp hmem
    · exact hcarried ((first _ rfl).2 op u w hmem hP)
    · exact hmore op u w hmem hP
  | stop p n v h =>
    rintro _ ⟨⟩
    exact ⟨id, fun op u w hmem => by simp at hmem⟩
  | turn _ _ _ _ _ right more =>
    intro v hv
    obtain ⟨hcarried, hmore⟩ := more v hv
    refine ⟨fun hP => hcarried (hA.left _ hP _), fun op u w hmem hP => ?_⟩
    simp only [List.mem_cons, reduceCtorEq, false_or, List.mem_append, Event.apply.injEq] at hmem
    obtain hmem | ⟨rfl, rfl, rfl⟩ | hmem := hmem
    · exact hcarried (hA.right _ _ ((right _ rfl).2 op u w hmem hP))
    · exact hcarried hP
    · exact hmore op u w hmem hP
  | ended | refused | tooDeep => intro v hv; contradiction
  | number n offset ts h =>
    rintro _ ⟨⟩
    exact ⟨False.elim, fun op u w hmem => by simp at hmem⟩
  | group h body ih =>
    intro v hv
    obtain ⟨-, hbody⟩ := ih v (closed_of_andThen_closeGroup hv).1
    refine ⟨False.elim, fun op u w hmem hP => hbody op u w ?_ hP⟩
    simpa [apply_not_mem_takeBehind] using hmem

/-- An operation that a parse does leaves the property to the result. -/
theorem absorbs_of_mem_history (hA : A.Absorbs P) {n : Nesting} {ts : List PlacedToken} {v : α}
    (h : sentence A n ts = .ok v) {op : Operator} {u w : α} (hmem : .apply op u w ∈ history A n ts)
    (hP : P (A.apply op u w)) : P v := by
  have hv : (record A (.chain .additive) n ts).parse.outcome = .ok v := by
    rw [record_parse, parse]
    rw [sentence, sum] at h
    split at h
    next => contradiction
    next hchain =>
      rw [hchain]
      exact h
    next => contradiction
  obtain hmem | hmem := List.mem_append.mp hmem
  · exact ((record A (.chain .additive) n ts).traced.absorbs hA v hv).2 op u w hmem hP
  · exact absurd hmem (apply_not_mem_takeBehind _ op u w)

end Parser
end

/-! Doubles that are not numbers. -/

section
open Float.Model (UnpackedFloat)

/-- The operations behind those on doubles. -/
def binary64.unpacked : Operator → UnpackedFloat → UnpackedFloat → UnpackedFloat
  | .add => .add .binary64
  | .sub => .sub .binary64
  | .mul => .mul .binary64
  | .div => .div .binary64

theorem binary64.toModel_apply (op : Operator) (x y : Float) :
    (binary64.apply op x y).toModel = .pack (unpacked op x.toModel.unpack y.toModel.unpack) := by
  cases op <;> rfl

theorem binary64.isNaN_apply {op : Operator} {x y : Float}
    (h : unpacked op x.toModel.unpack y.toModel.unpack = .notANumber) :
    (binary64.apply op x y).isNaN := by
  have hpacked : (Float.Model.pack .notANumber).isNaN := by decide +kernel
  rwa [Float.isNaN, toModel_apply, h]

theorem binary64.absorbs_isNaN : binary64.Absorbs (fun x => x.isNaN) where
  left op x hx y := by
    refine isNaN_apply ?_
    rw [UnpackedFloat.isNaN_iff.mp hx]
    cases op <;> rfl
  right op x y hy := by
    refine isNaN_apply ?_
    rw [UnpackedFloat.isNaN_iff.mp hy]
    cases op <;> cases x.toModel.unpack <;> rfl

theorem not_isFinite_of_isNaN {x : Float} (h : x.isNaN) : ¬x.isFinite := by
  have hx : x.toModel.unpack = .notANumber := UnpackedFloat.isNaN_iff.mp h
  show ¬x.toModel.unpack.isFinite
  rw [hx]
  exact Bool.false_ne_true

end

open Lexer (tokensFrom)

theorem Reply.evaluated_of_isNaN {source : String} {limit : UInt64} {v : Float}
    (h : evaluateWithLimit source limit = .ok v) (hv : v.isNaN) :
    (Reply.evaluated source limit).status.code = 200 ∧
      (Reply.evaluated source limit).body.toJson.member? "result" = some .null := by
  have hnull : Json.Value.ofFloat v = .null :=
    Json.Value.ofFloat_of_not_isFinite (not_isFinite_of_isNaN hv)
  rw [Reply.evaluated, h]
  refine ⟨rfl, ?_⟩
  simp [ReplyBody.toJson, hnull, Json.Value.member?]

/-- What is not a number stays so. If a group of an accepted source has no number for its value,
taken by itself, or any operation done on the way has none for its result, then the source evaluates
to no number, which a reply calls a success with the result null. -/
theorem nan_is_never_lost {source : String} {limit : UInt64} {v : Float}
    (h : evaluateWithLimit source limit = .ok v) :
    (∀ ts before opening body closing after n w, tokenize source = .ok ts →
      ts = before ++ ⟨.openParen, opening⟩ :: (body ++ ⟨.closeParen, closing⟩ :: after) →
      evaluateTokens n body = .ok w → w.isNaN → v.isNaN) ∧
    (∀ before a after limit' w, source = before ++ "(" ++ a ++ ")" ++ after →
      evaluateWithLimit a limit' = .ok w → w.isNaN → v.isNaN) ∧
    (∀ ts op u w, tokenize source = .ok ts →
      .apply op u w ∈ Parser.history binary64 (.start limit source.utf8ByteSize) ts →
      (binary64.apply op u w).isNaN → v.isNaN) ∧
    (v.isNaN → (Reply.evaluated source limit).status.code = 200 ∧
      (Reply.evaluated source limit).body.toJson.member? "result" = some .null) := by
  obtain ⟨c, hc⟩ := evaluateWithLimit_eq_ok_iff.mp h
  refine ⟨?group, ?text, ?operation, Reply.evaluated_of_isNaN h⟩
  case group =>
    rintro ts before opening body closing after n w hts hsplit hw hnan
    obtain ⟨-, rfl⟩ := tokenize_eq_ok_iff.mp hts
    obtain ⟨c', hc'⟩ := Parser.sentence_eq_ok_iff.mp hw
    exact (hsplit ▸ hc).absorbs_group binary64.absorbs_isNaN hc' hnan
  case text =>
    rintro before a after limit' w rfl hw hnan
    obtain ⟨c', hc'⟩ := evaluateWithLimit_eq_ok_iff.mp hw
    rw [tokensFrom_around] at hc
    exact hc.absorbs_group binary64.absorbs_isNaN (hc'.move _) hnan
  case operation =>
    intro ts op u w hts hmem hnan
    rw [evaluateWithLimit, hts] at h
    exact Parser.absorbs_of_mem_history binary64.absorbs_isNaN h hmem hnan

theorem nan_is_never_lost_quotient :
    ∃ v, evaluateWithLimit "2*(0/0)-1" 1 = .ok v ∧ v.isNaN ∧
      (Reply.evaluated "2*(0/0)-1" 1).status.code = 200 ∧
      (Reply.evaluated "2*(0/0)-1" 1).body.toJson.member? "result" = some .null := by
  have h : evaluateWithLimit "2*(0/0)-1" 1 = .ok (2 * (0 / 0) - 1) := by decide +kernel
  have hgroup : evaluateWithLimit "0/0" 0 = .ok (0 / 0) := by decide +kernel
  have hnan : (0 / 0 : Float).isNaN := by decide +kernel
  obtain ⟨-, htext, -, hreply⟩ := nan_is_never_lost h
  have hv := htext "2*" "0/0" "-1" 0 _ (by decide) hgroup hnan
  exact ⟨_, h, hv, hreply hv⟩

end Calculator
