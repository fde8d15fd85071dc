import Mathlib.Data.List.Forall2
import Calculator.Proofs.Evaluation
import Calculator.Proofs.FirstProblem
import Calculator.Proofs.Numerals

/-! What a parse does follows from the kinds of the tokens. Two parses of tokens of the same kinds
make the same calls, whatever their numbers are, whatever is computed from these, and wherever the
tokens stand; so they succeed together or fail for the same token. -/
namespace Calculator

variable {α β : Type}

/-- The same symbol, or two numbers that convert. -/
inductive Token.SameKind (A : Arithmetic α) (B : Arithmetic β) : Token → Token → Prop where
  | number {text text' : String} (h : (A.convert? text).isSome) (h' : (B.convert? text').isSome) :
      SameKind A B (.number text) (.number text')
  | operator (op : Operator) : SameKind A B (.operator op) (.operator op)
  | openParen : SameKind A B .openParen .openParen
  | closeParen : SameKind A B .closeParen .closeParen

def Token.SameKinds (A : Arithmetic α) (B : Arithmetic β) (ts us : List PlacedToken) : Prop :=
  List.Forall₂ (fun t u => SameKind A B t.token u.token) ts us

/-- The same depth below the same limit, for sources of any two lengths. -/
structure Nesting.SameDepth (n n' : Nesting) : Prop where
  depth : n.depth = n'.depth
  limit : n.limit = n'.limit

theorem Nesting.SameDepth.descend {n n' inner : Nesting} {offset : Nat} (h : n.SameDepth n')
    (hn : n.descend offset = .ok inner) (offset' : Nat) :
    ∃ inner', n'.descend offset' = .ok inner' ∧ inner.SameDepth inner' := by
  obtain ⟨hlt, hdepth, hlimit, _⟩ := descend_eq_ok hn
  rw [h.depth, h.limit] at hlt
  have hn' : n'.descend offset' = .ok _ := dif_pos hlt
  obtain ⟨_, hdepth', hlimit', _⟩ := descend_eq_ok hn'
  refine ⟨_, hn', UInt64.toNat_inj.mp ?_, ?_⟩
  · rw [hdepth, hdepth', h.depth]
  · rw [hlimit, hlimit', h.limit]

namespace Parser

open Token (SameKind SameKinds)

/-! Failures told by the indices of tokens. -/

def Site.shift (count : Nat) : Site → Site
  | .token i => .token (count + i)
  | .ending => .ending

/-- Why a parse fails, without the place and the text of any token. -/
inductive Fault where
  | refused (index : Nat)
  | ended
  | tooDeep (opening : Nat)
  | unclosed (opening : Nat) (found : Site)
  | trailing (index : Nat)
deriving DecidableEq

namespace Fault

/-- Where the failure is raised. -/
def site : Fault → Site
  | refused i | tooDeep i | trailing i => .token i
  | ended => .ending
  | unclosed _ found => found

/-- The report that a fault makes of the tokens. -/
def error? (limit : UInt64) (sourceEnd : Nat) (ts : List PlacedToken) : Fault → Option ParseError
  | refused i => ts[i]?.map fun t => .unexpectedToken t.token.text t.offset
  | ended => some (.unexpectedEndOfInput sourceEnd)
  | tooDeep i => ts[i]?.map fun t => .nestingTooDeep limit t.offset
  | unclosed i _ => ts[i]?.map fun t => .expectedClosingParen t.offset
  | trailing i => ts[i]?.map fun t => .trailingInput t.token.text t.offset

/-- The fault in tokens that have `count` tokens more in front. -/
def shift (count : Nat) : Fault → Fault
  | refused i => refused (count + i)
  | ended => ended
  | tooDeep i => tooDeep (count + i)
  | unclosed i found => unclosed (count + i) (found.shift count)
  | trailing i => trailing (count + i)

theorem site_shift (fault : Fault) (count : Nat) :
    (fault.shift count).site = fault.site.shift count := by
  cases fault <;> rfl

theorem error?_shift (fault : Fault) (limit : UInt64) (sourceEnd : Nat)
    (front ts : List PlacedToken) :
    (fault.shift front.length).error? limit sourceEnd (front ++ ts) =
      fault.error? limit sourceEnd ts := by
  cases fault <;> simp [shift, error?, List.getElem?_append_right]

/-- A call on `ts` failed for this fault, and consumed the tokens up to where it was raised. -/
inductive Explains (limit : UInt64) (sourceEnd : Nat) (fault : Fault) :
    List PlacedToken → Parse α → Prop where
  | onToken {e : ParseError} (used rest : List PlacedToken) (t : PlacedToken)
      (hsite : fault.site = .token used.length)
      (he : fault.error? limit sourceEnd (used ++ t :: rest) = some e) :
      Explains limit sourceEnd fault (used ++ t :: rest) ⟨.error e, rest, false⟩
  | atEnd {ts : List PlacedToken} {e : ParseError} (hsite : fault.site = .ending)
      (he : fault.error? limit sourceEnd ts = some e) :
      Explains limit sourceEnd fault ts ⟨.error e, [], true⟩

theorem Explains.append {limit : UInt64} {sourceEnd : Nat} {fault : Fault} {ts : List PlacedToken}
    {r : Parse α} (h : fault.Explains limit sourceEnd ts r) (front : List PlacedToken) :
    (fault.shift front.length).Explains limit sourceEnd (front ++ ts) r := by
  cases h with
  | onToken used rest t hsite he =>
    rw [← List.append_assoc]
    refine .onToken _ _ _ ?_ ?_
    · rw [site_shift, hsite, List.length_append, Site.shift]
    · rw [List.append_assoc, error?_shift, he]
  | atEnd hsite he =>
    refine .atEnd ?_ ?_
    · rw [site_shift, hsite, Site.shift]
    · rw [error?_shift, he]

end Fault

/-! Two runs side by side. -/

/-- The same call, whatever value a loop has reached. -/
inductive Production.SameCall : Production α → Production β → Prop where
  | chain (p : Precedence) : SameCall (.chain p) (.chain p)
  | extend (p : Precedence) (v : α) (w : β) : SameCall (.extend p v) (.extend p w)
  | factor : SameCall .factor .factor

theorem Production.sameCall_operand (p : Precedence) :
    (Production.operand p : Production α).SameCall (Production.operand p : Production β) := by
  cases p with
  | additive => exact .chain .multiplicative
  | multiplicative => exact .factor

/-- Both calls have a value and consumed equally many tokens, or both failed for the same fault. -/
inductive Alike (limit : UInt64) (sourceEnd sourceEnd' : Nat) (ts us : List PlacedToken) :
    Parse α → Parse β → Prop where
  | ok {v : α} {w : β} (front rest front' rest' : List PlacedToken) (starved starved' : Bool)
      (hts : ts = front ++ rest) (hus : us = front' ++ rest')
      (hlength : front.length = front'.length) :
      Alike limit sourceEnd sourceEnd' ts us ⟨.ok v, rest, starved⟩ ⟨.ok w, rest', starved'⟩
  | error {r : Parse α} {r' : Parse β} (fault : Fault) (h : fault.Explains limit sourceEnd ts r)
      (h' : fault.Explains limit sourceEnd' us r') : Alike limit sourceEnd sourceEnd' ts us r r'

variable {A : Arithmetic α} {B : Arithmetic β} {limit : UInt64} {sourceEnd sourceEnd' : Nat}

theorem Alike.append {ts us : List PlacedToken} {r : Parse α} {r' : Parse β}
    (h : Alike limit sourceEnd sourceEnd' ts us r r') (front front' : List PlacedToken)
    (hlength : front.length = front'.length) :
    Alike limit sourceEnd sourceEnd' (front ++ ts) (front' ++ us) r r' := by
  cases h with
  | ok used rest used' rest' starved starved' hts hus hused =>
    refine .ok (front ++ used) rest (front' ++ used') rest' _ _ ?_ ?_ ?_
    · rw [hts, List.append_assoc]
    · rw [hus, List.append_assoc]
    · rw [List.length_append, List.length_append, hlength, hused]
  | error fault h h' =>
    exact .error (fault.shift front.length) (h.append front) (hlength ▸ h'.append front')

theorem Alike.cons {ts us : List PlacedToken} {r : Parse α} {r' : Parse β}
    (h : Alike limit sourceEnd sourceEnd' ts us r r') (t u : PlacedToken) :
    Alike limit sourceEnd sourceEnd' (t :: ts) (u :: us) r r' :=
  h.append [t] [u] rfl

theorem sameKinds_of_append {front rest front' rest' : List PlacedToken}
    (h : SameKinds A B (front ++ rest) (front' ++ rest')) (hlength : front.length = front'.length) :
    SameKinds A B rest rest' := by
  have hdrop := List.forall₂_drop front.length h
  rwa [List.drop_left, hlength, List.drop_left] at hdrop

theorem exists_of_sameKinds_cons {t : PlacedToken} {ts us : List PlacedToken}
    (h : SameKinds A B (t :: ts) us) :
    ∃ token offset us', us = ⟨token, offset⟩ :: us' ∧ SameKind A B t.token token ∧
      SameKinds A B ts us' := by
  obtain ⟨⟨token, offset⟩, us', ht, hts, rfl⟩ := List.forall₂_cons_left_iff.mp h
  exact ⟨token, offset, us', rfl, ht, hts⟩

theorem front?_of_sameKinds {ts us : List PlacedToken} (h : SameKinds A B ts us) :
    front? us = front? ts := by
  cases h with
  | nil => rfl
  | cons ht _ =>
    simp only [front?, List.head?_cons, Option.bind_some]
    generalize PlacedToken.token _ = t at ht ⊢
    generalize PlacedToken.token _ = u at ht ⊢
    cases ht <;> rfl

theorem refused_of_sameKind {t u : Token} (ht : Refused A t) (h : SameKind A B t u) :
    Refused B u := by
  cases h with
  | number hv _ =>
    rw [show A.convert? _ = none from ht] at hv
    contradiction
  | operator | closeParen => trivial
  | openParen => exact ht

theorem ne_closeParen_of_sameKind {t u : Token} (ht : t ≠ .closeParen) (h : SameKind A B t u) :
    u ≠ .closeParen := by
  cases h with
  | closeParen => exact ht
  | number | operator | openParen => simp

theorem Alike.of_error {ts us rest : List PlacedToken} {e : ParseError} {starved : Bool}
    {r' : Parse β}
    (h : Alike (α := α) limit sourceEnd sourceEnd' ts us ⟨.error e, rest, starved⟩ r') :
    ∃ e' rest' starved', r' = ⟨.error e', rest', starved'⟩ := by
  cases h with
  | error fault _ h' => cases h' <;> exact ⟨_, _, _, rfl⟩

theorem Alike.of_ok {ts us rest : List PlacedToken} {v : α} {starved : Bool} {r' : Parse β}
    (h : Alike limit sourceEnd sourceEnd' ts us ⟨.ok v, rest, starved⟩ r')
    (hts : SameKinds A B ts us) :
    ∃ (w : β) (rest' : List PlacedToken) (starved' : Bool) (front front' : List PlacedToken),
      r' = ⟨.ok w, rest', starved'⟩ ∧ ts = front ++ rest ∧ us = front' ++ rest' ∧
        front.length = front'.length ∧ SameKinds A B rest rest' := by
  cases h with
  | ok front _ front' rest' _ starved' hfront hfront' hlength =>
    refine ⟨_, rest', starved', front, front', rfl, hfront, hfront', hlength, ?_⟩
    rw [hfront, hfront'] at hts
    exact sameKinds_of_append hts hlength
  | error fault h => cases h

/-- On tokens of the same kinds, at the same depth, the other side makes the same call, and what
comes of the two is alike. -/
def Mirrored (A : Arithmetic α) (B : Arithmetic β) (k : Production α) (n : Nesting)
    (ts : List PlacedToken) (r : Parse α) : Prop :=
  ∀ (k' : Production β) (n' : Nesting) (us : List PlacedToken),
    k.SameCall k' → n.SameDepth n' → SameKinds A B ts us →
    ∃ r', Run B k' n' us r' ∧ Alike n.limit n.sourceEnd n'.sourceEnd ts us r r'

/-- On the other side, too, a group opens and has a value, and `rest` is left behind its body. -/
inductive MirroredBody (A : Arithmetic α) (B : Arithmetic β) (n' : Nesting)
    (ts rest : List PlacedToken) : List PlacedToken → Prop where
  | mk {inner' : Nesting} {opening' : Nat} {w : β} {starved' : Bool}
      (front front' rest' : List PlacedToken) (h' : n'.descend opening' = .ok inner')
      (hbody : Run B (.chain .additive) inner' (front' ++ rest') ⟨.ok w, rest', starved'⟩)
      (hts : ts = front ++ rest) (hlength : front.length = front'.length)
      (hrest : SameKinds A B rest rest') :
      MirroredBody A B n' ts rest (⟨.openParen, opening'⟩ :: (front' ++ rest'))

theorem Mirrored.body {n n' inner : Nesting} {opening : Nat} {ts us rest : List PlacedToken}
    {v : α} {starved : Bool}
    (body : Mirrored A B (.chain .additive) inner ts ⟨.ok v, rest, starved⟩)
    (h : n.descend opening = .ok inner) (hn : n.SameDepth n')
    (hts : SameKinds A B (⟨.openParen, opening⟩ :: ts) us) : MirroredBody A B n' ts rest us := by
  obtain ⟨_, opening', _, rfl, ht, htail⟩ := exists_of_sameKinds_cons hts
  obtain ⟨_, h', hinner⟩ := hn.descend h opening'
  obtain ⟨_, hbody, hreads⟩ := body _ _ _ (.chain .additive) hinner htail
  obtain ⟨_, rest', _, front, front', rfl, rfl, rfl, hlength, hrest⟩ := hreads.of_ok htail
  cases ht
  exact .mk front front' rest' h' hbody rfl hlength hrest

theorem Run.mirrored {k : Production α} {n : Nesting} {ts : List PlacedToken} {r : Parse α}
    (h : Run A k n ts r) : Mirrored A B k n ts r := by
  -- The way a call goes is decided by the token in front of it, and there the kinds agree.
  induction h with
  | @chainFailed _ _ _ _ _ p _ first =>
    rintro _ _ _ ⟨⟩ hn hts
    obtain ⟨_, hrun, halike⟩ := first _ _ _ (Production.sameCall_operand p) hn hts
    obtain ⟨_, _, _, rfl⟩ := halike.of_error
    exact ⟨_, .chainFailed hrun, halike⟩
  | chain p v _ _ first more =>
    rintro _ _ _ ⟨⟩ hn hts
    obtain ⟨_, hfirst, hreads⟩ := first _ _ _ (Production.sameCall_operand p) hn hts
    obtain ⟨w, _, _, _, _, rfl, rfl, rfl, hlength, hmid⟩ := hreads.of_ok hts
    obtain ⟨_, hmore, halike⟩ := more _ _ _ (.extend p v w) hn hmid
    exact ⟨_, .chain p w hfirst hmore, halike.append _ _ hlength⟩
  | stop p v h =>
    intro _ _ _ hk hn hts
    cases hk with
    | extend _ _ w =>
      rw [← front?_of_sameKinds hts] at h
      exact ⟨_, .stop p w h, .ok [] _ [] _ _ _ rfl rfl rfl⟩
  | turnFailed p v h _ right =>
    intro _ _ _ hk hn hts
    obtain ⟨_, _, _, rfl, hop, htail⟩ := exists_of_sameKinds_cons hts
    obtain ⟨_, hrun, halike⟩ := right _ _ _ (Production.sameCall_operand p) hn htail
    obtain ⟨_, _, _, rfl⟩ := halike.of_error
    cases hk with
    | extend _ _ w =>
      cases hop
      exact ⟨_, .turnFailed p w h hrun, halike.cons _ _⟩
  | turn p v w op offset h _ _ right more =>
    intro _ _ _ hk hn hts
    obtain ⟨_, offset', _, rfl, hop, htail⟩ := exists_of_sameKinds_cons hts
    obtain ⟨_, hright, hreads⟩ := right _ _ _ (Production.sameCall_operand p) hn htail
    obtain ⟨w', _, _, _, _, rfl, rfl, rfl, hlength, hmid⟩ := hreads.of_ok htail
    cases hk with
    | extend _ _ v' =>
      cases hop
      obtain ⟨_, hmore, halike⟩ := more _ _ _ (.extend p _ (B.apply op v' w')) hn hmid
      exact ⟨_, .turn p v' w' op offset' h hright hmore, (halike.append _ _ hlength).cons _ _⟩
  | ended =>
    rintro _ _ _ ⟨⟩ hn ⟨⟩
    exact ⟨_, .ended, .error .ended (.atEnd rfl rfl) (.atEnd rfl rfl)⟩
  | number =>
    rintro _ _ _ ⟨⟩ hn hts
    obtain ⟨_, _, _, rfl, ht, _⟩ := exists_of_sameKinds_cons hts
    cases ht with
    | number _ h' =>
      obtain ⟨w, hw⟩ := Option.isSome_iff_exists.mp h'
      exact ⟨_, .number hw, .ok [_] _ [_] _ _ _ rfl rfl rfl⟩
  | refused h =>
    rintro _ _ _ ⟨⟩ hn hts
    obtain ⟨_, _, _, rfl, ht, _⟩ := exists_of_sameKinds_cons hts
    exact ⟨_, .refused (refused_of_sameKind h ht),
      .error (.refused 0) (.onToken [] _ _ rfl rfl) (.onToken [] _ _ rfl rfl)⟩
  | tooDeep h =>
    rintro _ _ _ ⟨⟩ hn hts
    obtain ⟨_, _, _, rfl, ht, _⟩ := exists_of_sameKinds_cons hts
    cases ht
    rw [hn.depth, hn.limit] at h
    rw [hn.limit]
    exact ⟨_, .tooDeep h,
      .error (.tooDeep 0) (.onToken [] _ _ rfl rfl) (.onToken [] _ _ rfl rfl)⟩
  | groupFailed h _ body =>
    rintro _ _ _ ⟨⟩ hn hts
    obtain ⟨_, opening', _, rfl, ht, htail⟩ := exists_of_sameKinds_cons hts
    obtain ⟨_, h', hinner⟩ := hn.descend h opening'
    obtain ⟨_, hbody, halike⟩ := body _ _ _ (.chain .additive) hinner htail
    obtain ⟨_, _, _, rfl⟩ := halike.of_error
    obtain ⟨_, _, hlimit, hend⟩ := Nesting.descend_eq_ok h
    obtain ⟨_, _, _, hend'⟩ := Nesting.descend_eq_ok h'
    rw [hlimit, hend, hend'] at halike
    cases ht
    exact ⟨_, .groupFailed h' hbody, halike.cons _ _⟩
  | group opening closing h _ body =>
    rintro _ _ _ ⟨⟩ hn hts
    obtain @⟨_, opening', _, _, front, front', _, h', hbody, rfl, hlength, hrest⟩ :=
      Mirrored.body body h hn hts
    obtain ⟨_, closing', _, rfl, hclose, _⟩ := exists_of_sameKinds_cons hrest
    cases hclose
    refine ⟨_, .group opening' closing' h' hbody,
      .ok (⟨.openParen, opening⟩ :: (front ++ [⟨.closeParen, closing⟩])) _
        (⟨.openParen, opening'⟩ :: (front' ++ [⟨.closeParen, closing'⟩])) _ _ _ ?_ ?_ ?_⟩
    · simp
    · simp
    · simp [hlength]
  | unclosed v h _ hne body =>
    rintro _ _ _ ⟨⟩ hn hts
    obtain @⟨_, opening', _, _, front, front', _, h', hbody, rfl, hlength, hrest⟩ :=
      Mirrored.body body h hn hts
    obtain ⟨_, _, _, rfl, hfound, _⟩ := exists_of_sameKinds_cons hrest
    have hsite : (Fault.unclosed 0 (.token (front.length + 1))).site =
        .token (⟨.openParen, opening'⟩ :: front').length := by
      rw [List.length_cons, ← hlength]
      rfl
    exact ⟨_, .unclosed _ h' hbody (ne_closeParen_of_sameKind hne hfound),
      .error (.unclosed 0 (.token (front.length + 1)))
        (.onToken (_ :: front) _ _ rfl rfl) (.onToken (_ :: front') _ _ hsite rfl)⟩
  | unclosedAtEnd h _ body =>
    rintro _ _ _ ⟨⟩ hn hts
    obtain ⟨_, _, _, h', hbody, rfl, _, hrest⟩ := Mirrored.body body h hn hts
    obtain rfl := List.forall₂_nil_left_iff.mp hrest
    exact ⟨_, .unclosedAtEnd h' hbody,
      .error (.unclosed 0 .ending) (.atEnd rfl rfl) (.atEnd rfl rfl)⟩

/-! Whole parses. -/

/-- The parse fails, and the fault says why and where. -/
structure FailsFor (A : Arithmetic α) (n : Nesting) (ts : List PlacedToken) (fault : Fault) :
    Prop where
  reports : ∃ e, sentence A n ts = .error e ∧ fault.error? n.limit n.sourceEnd ts = some e
  raised : failureSite? A n ts = some fault.site

theorem failsFor_of_explains {n : Nesting} {ts : List PlacedToken} {fault : Fault} {r : Parse α}
    (hsum : sum A n ts = r) (h : fault.Explains n.limit n.sourceEnd ts r) :
    FailsFor A n ts fault := by
  cases h with
  | onToken used rest t hsite he =>
    refine ⟨⟨_, by rw [sentence, hsum], he⟩, ?_⟩
    simp only [failureSite?, hsum, hsite, length_sub_rest]
  | atEnd hsite he =>
    refine ⟨⟨_, by rw [sentence, hsum], he⟩, ?_⟩
    simp only [failureSite?, hsum, hsite]

theorem failsFor_trailing {n : Nesting} {front rest : List PlacedToken} {t : PlacedToken} {v : α}
    {starved : Bool} (hsum : sum A n (front ++ t :: rest) = ⟨.ok v, t :: rest, starved⟩) :
    FailsFor A n (front ++ t :: rest) (.trailing front.length) where
  reports := ⟨_, by rw [sentence, hsum], by simp [Fault.error?]⟩
  raised := by simp only [failureSite?, hsum, Fault.site, length_sub_rest]

theorem sentence_alike {n n' : Nesting} (hn : n.SameDepth n') {ts us : List PlacedToken}
    (hts : SameKinds A B ts us) :
    (∃ v, sentence A n ts = .ok v) ∧ (∃ w, sentence B n' us = .ok w) ∨
      ∃ fault, FailsFor A n ts fault ∧ FailsFor B n' us fault := by
  have hrun : Run A (.chain .additive) n ts (sum A n ts) := run_parse A (.chain .additive) n ts
  obtain ⟨r', hrun', halike⟩ := hrun.mirrored _ _ _ (.chain .additive) hn hts
  have hsum' : sum B n' us = r' := hrun'.parse_eq
  generalize hsum : sum A n ts = r at halike
  cases halike with
  | ok front rest front' rest' _ _ hfront hfront' hlength =>
    subst hfront hfront'
    cases sameKinds_of_append hts hlength with
    | nil => exact .inl ⟨⟨_, by rw [sentence, hsum]⟩, ⟨_, by rw [sentence, hsum']⟩⟩
    | cons =>
      have hfails' := failsFor_trailing hsum'
      rw [← hlength] at hfails'
      exact .inr ⟨_, failsFor_trailing hsum, hfails'⟩
  | error fault h h' =>
    rw [hn.limit] at h'
    exact .inr ⟨fault, failsFor_of_explains hsum h, failsFor_of_explains hsum' h'⟩

theorem Fault.kind_eq {fault : Fault} {limit : UInt64} {sourceEnd sourceEnd' : Nat}
    {ts us : List PlacedToken} {d e : ParseError} (hd : fault.error? limit sourceEnd ts = some d)
    (he : fault.error? limit sourceEnd' us = some e) : d.kind = e.kind ∧ d.limit? = e.limit? := by
  cases fault with
  | ended =>
    obtain rfl := Option.some.inj hd
    obtain rfl := Option.some.inj he
    exact ⟨rfl, rfl⟩
  | refused | tooDeep | unclosed | trailing =>
    obtain ⟨t, _, rfl⟩ := Option.map_eq_some_iff.mp hd
    obtain ⟨u, _, rfl⟩ := Option.map_eq_some_iff.mp he
    exact ⟨rfl, rfl⟩

/-- Parses of tokens of the same kinds under the same limit have a value together, or fail for the
same fault: the errors are of one kind and limit, and each points at the same token of its own list
or at its own end. So no value that is computed decides anything, not even an infinity or a NaN. And
when the tokens are the same, so are the values, wherever the tokens stand. -/
theorem sentence_follows_kinds (A : Arithmetic α) (B : Arithmetic β) (limit : UInt64)
    (sourceEnd sourceEnd' : Nat) (ts us : List PlacedToken) (hts : SameKinds A B ts us) :
    ((∃ v, sentence A (.start limit sourceEnd) ts = .ok v) ∧
        (∃ w, sentence B (.start limit sourceEnd') us = .ok w) ∨
      ∃ fault, FailsFor A (.start limit sourceEnd) ts fault ∧
        FailsFor B (.start limit sourceEnd') us fault) ∧
    (∀ d e, sentence A (.start limit sourceEnd) ts = .error d →
      sentence B (.start limit sourceEnd') us = .error e →
      d.kind = e.kind ∧ d.limit? = e.limit?) ∧
    (ts.map (·.token) = us.map (·.token) →
      ∀ v, sentence A (.start limit sourceEnd) ts = .ok v ↔
        sentence A (.start limit sourceEnd') us = .ok v) := by
  have hn : (Nesting.start limit sourceEnd).SameDepth (.start limit sourceEnd') := ⟨rfl, rfl⟩
  refine ⟨sentence_alike hn hts, fun d e hd he => ?_, fun htokens v => ?_⟩
  · obtain ⟨⟨v, hv⟩, _⟩ | ⟨fault, ⟨⟨d', hd', hfault⟩, _⟩, ⟨⟨e', he', hfault'⟩, _⟩⟩ :=
      sentence_alike hn hts
    · rw [hd] at hv
      contradiction
    · obtain rfl := Except.error.inj (hd.symm.trans hd')
      obtain rfl := Except.error.inj (he.symm.trans he')
      exact Fault.kind_eq hfault hfault'
  · rw [sentence_eq_ok_iff, sentence_eq_ok_iff, Nesting.room_start, Nesting.room_start]
    exact exists_congr fun c => ⟨fun h => h.of_map_eq htokens, fun h => h.of_map_eq htokens.symm⟩

/-- `(0/0 7` fails as `(1/2 3` does, although its quotient is no number. -/
theorem sentence_follows_kinds_unclosed :
    ∃ fault,
      FailsFor binary64 (.start 256 6) [⟨.openParen, 0⟩, ⟨.number "0", 1⟩, ⟨.operator .div, 2⟩,
        ⟨.number "0", 3⟩, ⟨.number "7", 5⟩] fault ∧
      FailsFor binary64 (.start 256 8) [⟨.openParen, 2⟩, ⟨.number "1", 3⟩, ⟨.operator .div, 4⟩,
        ⟨.number "2", 5⟩, ⟨.number "3", 7⟩] fault := by
  have hkinds : SameKinds binary64 binary64
      [⟨.openParen, 0⟩, ⟨.number "0", 1⟩, ⟨.operator .div, 2⟩, ⟨.number "0", 3⟩, ⟨.number "7", 5⟩]
      [⟨.openParen, 2⟩, ⟨.number "1", 3⟩, ⟨.operator .div, 4⟩, ⟨.number "2", 5⟩,
        ⟨.number "3", 7⟩] := by
    have number {text text' : String} (h : Text.isDigits text.toList)
        (h' : Text.isDigits text'.toList) :
        SameKind binary64 binary64 (.number text) (.number text') :=
      .number (Decimal.isSome_readFloat? (.whole h)) (Decimal.isSome_readFloat? (.whole h'))
    exact .cons .openParen (.cons (number (by decide) (by decide)) (.cons (.operator .div)
      (.cons (number (by decide) (by decide)) (.cons (number (by decide) (by decide)) .nil))))
  refine (sentence_follows_kinds binary64 binary64 256 6 8 _ _ hkinds).1.resolve_left ?_
  rintro ⟨⟨v, hv⟩, _⟩
  obtain ⟨c, hc⟩ := sentence_eq_ok_iff.mp hv
  exact absurd ((Outline.isSentence_iff _).mp ⟨c, hc.tokens⟩) (by decide)

end Parser
end Calculator
