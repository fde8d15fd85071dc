import Calculator.Proofs.Evaluation

/-! A call looks at the tokens it consumes and at the one in front of the rest, and a failure not
even at that one. So the tokens that a call leaves can be exchanged for others. -/
namespace Calculator

namespace Token.FrontBelow

/-- Only the token in front counts. -/
theorem cons_congr {bound : Nat} {t : Token} {ts : List Token} (h : FrontBelow bound (t :: ts))
    (us : List Token) : FrontBelow bound (t :: us) := by
  cases t with
  | operator => exact h
  | number | openParen | closeParen => trivial

theorem append_congr {bound : Nat} {ts us us' : List Token} (h : FrontBelow bound (ts ++ us))
    (hus : FrontBelow bound us') : FrontBelow bound (ts ++ us') := by
  cases ts with
  | nil => exact hus
  | cons t ts => exact h.cons_congr _

theorem append_cons_congr {bound : Nat} {ts us : List Token} {t : Token}
    (h : FrontBelow bound (ts ++ t :: us)) (us' : List Token) :
    FrontBelow bound (ts ++ t :: us') := by
  cases ts with
  | nil => exact h.cons_congr us'
  | cons u ts => exact h.cons_congr _

end Token.FrontBelow

namespace Parser

open Token (FrontBelow)

variable {α : Type} {A : Arithmetic α}

/-- In front of which tokens a production can stop. -/
def Production.EndsBefore (rest : List Token) : Production α → Prop
  | .chain p | .extend p _ => FrontBelow p.rank rest
  | .factor => True

theorem Production.endsBefore_operand {p : Precedence} {rest : List Token}
    (h : FrontBelow (p.rank + 1) rest) : (Production.operand p : Production α).EndsBefore rest := by
  cases p with
  | additive => exact h
  | multiplicative => trivial

/-- What a call did, with whatever could stand behind the tokens it consumed. A failure at a token
is one for want of a token when nothing stands there. -/
inductive Settled (A : Arithmetic α) (k : Production α) (n : Nesting) :
    List PlacedToken → Parse α → Prop where
  | ok {v : α} (used rest : List PlacedToken) (starved : Bool)
      (h : ∀ rest', k.EndsBefore (rest'.map (·.token)) →
        Run A k n (used ++ rest') ⟨.ok v, rest', false⟩) :
      Settled A k n (used ++ rest) ⟨.ok v, rest, starved⟩
  | onToken {e e' : ParseError} (used : List PlacedToken) (t : PlacedToken)
      (rest : List PlacedToken)
      (h : ∀ rest', Run A k n (used ++ t :: rest') ⟨.error e, rest', false⟩)
      (hused : Run A k n used ⟨.error e', [], true⟩) :
      Settled A k n (used ++ t :: rest) ⟨.error e, rest, false⟩
  | atEnd (ts : List PlacedToken) (e : ParseError) : Settled A k n ts ⟨.error e, [], true⟩

/-- A call that fails with a call which it makes behind the tokens `front`. -/
theorem Settled.failed {k k' : Production α} {n n' : Nesting} (front : List PlacedToken)
    {ts rest : List PlacedToken} {e : ParseError} {starved : Bool}
    (h : Settled A k n ts ⟨.error e, rest, starved⟩)
    (wrap : ∀ {us e rest starved}, Run A k n us ⟨.error e, rest, starved⟩ →
      Run A k' n' (front ++ us) ⟨.error e, rest, starved⟩) :
    Settled A k' n' (front ++ ts) ⟨.error e, rest, starved⟩ := by
  cases h with
  | onToken used t _ h hused =>
    rw [← List.append_assoc]
    refine .onToken (front ++ used) t _ (fun us => ?_) (wrap hused)
    rw [List.append_assoc]
    exact wrap (h us)
  | atEnd => exact .atEnd _ _

/-- A call that reads an operand behind the tokens `front` and then goes on with the loop. The
operand ends where it did as long as the same token stands there. -/
theorem Settled.andThen {k : Production α} {p : Precedence} {n : Nesting}
    (front : List PlacedToken) {ts mid : List PlacedToken} {w u : α} {starved : Bool} {r : Parse α}
    (first : Settled A (.operand p) n ts ⟨.ok w, mid, starved⟩)
    (more : Settled A (.extend p u) n mid r)
    (hmid : FrontBelow (p.rank + 1) (mid.map (·.token)))
    (hk : ∀ {rest}, k.EndsBefore rest → FrontBelow p.rank rest)
    (join : ∀ {ts mid r}, Run A (.operand p) n ts ⟨.ok w, mid, false⟩ →
      Run A (.extend p u) n mid r → Run A k n (front ++ ts) r) :
    Settled A k n (front ++ ts) r := by
  cases first with
  | ok used _ _ hfirst =>
    have hread (us : List PlacedToken) (hus : FrontBelow (p.rank + 1) (us.map (·.token))) :=
      hfirst us (Production.endsBefore_operand hus)
    cases more with
    | ok used' rest _ hmore =>
      rw [← List.append_assoc, ← List.append_assoc]
      refine .ok _ _ _ fun us hus => ?_
      rw [List.append_assoc, List.append_assoc]
      refine join (hread _ ?_) (hmore us (hk hus))
      rw [List.map_append] at hmid ⊢
      exact hmid.append_congr (hk hus).succ
    | onToken used' t rest hmore hstarved =>
      rw [List.map_append] at hmid
      have hused' : FrontBelow (p.rank + 1) (used'.map (·.token)) := by
        rw [← List.append_nil (used'.map (·.token))]
        exact hmid.append_congr (.nil _)
      have hwants := join (hread used' hused') hstarved
      rw [← List.append_assoc] at hwants
      rw [← List.append_assoc, ← List.append_assoc]
      refine .onToken _ _ _ (fun us => ?_) hwants
      rw [List.append_assoc, List.append_assoc]
      refine join (hread _ ?_) (hmore us)
      rw [List.map_append]
      exact hmid.append_cons_congr _
    | atEnd => exact .atEnd _ _

theorem Run.settled {k : Production α} {n : Nesting} {ts : List PlacedToken} {r : Parse α}
    (h : Run A k n ts r) : Settled A k n ts r := by
  induction h with
  | chainFailed _ first => exact first.failed [] .chainFailed
  | chain p v operand _ first more =>
    exact first.andThen [] more (operand.stops v rfl).frontBelow id (.chain p v)
  | stop p v h => exact .ok [] _ _ fun us hus => .stop p v (front?_ne_of_frontBelow hus)
  | turnFailed p v hop _ right => exact right.failed [_] (.turnFailed p v hop)
  | turn p v w op offset hop operand _ right more =>
    exact right.andThen [_] more (operand.stops w rfl).frontBelow id (.turn p v w op offset hop)
  | ended => exact .atEnd _ _
  | number h => exact .ok [_] _ _ fun us _ => .number h
  | refused h => exact .onToken [] _ _ (fun us => .refused h) .ended
  | tooDeep h => exact .onToken [] _ _ (fun us => .tooDeep h) .ended
  | groupFailed hn _ body => exact body.failed [_] (.groupFailed hn)
  | group opening closing hn _ body =>
    cases body with
    | ok used _ _ h =>
      have hclosed (us : List PlacedToken) :
          ⟨.openParen, opening⟩ :: (used ++ ⟨.closeParen, closing⟩ :: us) =
            ⟨.openParen, opening⟩ :: (used ++ [⟨.closeParen, closing⟩]) ++ us := by simp
      rw [hclosed]
      refine .ok _ _ _ fun us _ => ?_
      rw [← hclosed]
      exact .group opening closing hn (h _ trivial)
  | unclosed v hn run ht body =>
    have hfront : FrontBelow 0 _ := run.stops v rfl
    cases body with
    | ok used _ _ h =>
      have hwants := Run.unclosedAtEnd hn (h [] trivial)
      rw [List.append_nil] at hwants
      refine .onToken (_ :: used) _ _ (fun us => ?_) hwants
      exact .unclosed v hn (h _ (hfront.cons_congr _)) ht
  | unclosedAtEnd => exact .atEnd _ _

theorem frontBelow_of_head? {bound : Nat} {ts us : List PlacedToken} (h : us.head? = ts.head?)
    (hts : FrontBelow bound (ts.map (·.token))) : FrontBelow bound (us.map (·.token)) := by
  cases us with
  | nil => trivial
  | cons u us =>
    obtain ⟨ts, rfl⟩ := List.head?_eq_some_iff.mp h.symm
    exact hts.cons_congr _

/-- What a sum or a product made of the tokens it consumed it makes of them in front of any other
tokens: a value if these do not start with an operator that it would go on with, and a failure at a
token whatever they are. So no outcome depends on more than the first token that is left. -/
theorem chain_looks_ahead_once (A : Arithmetic α) (p : Precedence) (n : Nesting)
    (ts : List PlacedToken) :
    ∃ used, ts = used ++ (chain A p n ts).rest ∧
      (∀ v, (chain A p n ts).outcome = .ok v → ∀ rest, FrontBelow p.rank (rest.map (·.token)) →
        chain A p n (used ++ rest) = ⟨.ok v, rest, false⟩) ∧
      (∀ e, (chain A p n ts).outcome = .error e → (chain A p n ts).starved = false →
        ∀ rest, chain A p n (used ++ rest) = ⟨.error e, rest, false⟩) ∧
      ∀ rest, rest.head? = (chain A p n ts).rest.head? →
        chain A p n (used ++ rest) =
          ⟨(chain A p n ts).outcome, rest, (chain A p n ts).starved⟩ := by
  have hrun : Run A (.chain p) n ts (chain A p n ts) := run_parse A (.chain p) n ts
  generalize chain A p n ts = r at hrun ⊢
  cases hrun.settled with
  | @ok v used rest starved h =>
    refine ⟨used, rfl, ?_, fun _ he => by contradiction, fun us hus => ?_⟩
    · rintro _ ⟨⟩ us hus
      exact (h us hus).parse_eq
    · obtain rfl : starved = false := hrun.starved_eq_false v rfl
      exact (h us (frontBelow_of_head? hus (hrun.stops v rfl))).parse_eq
  | @onToken e e' used t rest h _ =>
    have hchain (us : List PlacedToken) :
        chain A p n (used ++ [t] ++ us) = ⟨.error e, us, false⟩ := by
      rw [List.append_assoc]
      exact (h us).parse_eq
    refine ⟨used ++ [t], by simp, fun _ hv => by contradiction, ?_, fun us _ => hchain us⟩
    rintro _ ⟨⟩ _
    exact hchain
  | atEnd ts e =>
    refine ⟨ts, by simp, fun _ hv => by contradiction, fun _ _ h => by contradiction,
      fun us hus => ?_⟩
    obtain rfl := List.head?_eq_none_iff.mp hus
    rw [List.append_nil]
    exact hrun.parse_eq

end Parser
end Calculator
