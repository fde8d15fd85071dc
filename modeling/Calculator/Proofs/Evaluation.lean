import Calculator.Proofs.Production

/-! Evaluation against derivations. A chain that is read spells a derivation, any derivation that is
spelled is read, and the value is that of the derivation. Tokens that all belong to one sentence are
evaluated exactly when every number converts and the nesting stays within the limit. -/
namespace Calculator

open Token (FrontBelow)

variable {α : Type} {A : Arithmetic α}

/-- `ts` spells `c`, whose value is `v` and whose groups nest at most `room` deep. -/
structure Chain.Spells (A : Arithmetic α) (room : Nat) (c : Chain p) (ts : List PlacedToken)
    (v : α) : Prop where
  tokens : c.tokens = ts.map (·.token)
  value : c.value? A = some v
  depth : c.depth ≤ room

@[inherit_doc Chain.Spells]
structure Operand.Spells (A : Arithmetic α) (room : Nat) (x : Operand p) (ts : List PlacedToken)
    (v : α) : Prop where
  tokens : x.tokens = ts.map (·.token)
  value : x.value? A = some v
  depth : x.depth ≤ room

namespace Chain.Spells

theorem mono {c : Chain p} {room room' : Nat} {ts : List PlacedToken} {v : α}
    (h : c.Spells A room ts v) (hle : room ≤ room') : c.Spells A room' ts v :=
  ⟨h.tokens, h.value, Nat.le_trans h.depth hle⟩

/-- Offsets are not spelled. -/
theorem of_map_eq {c : Chain p} {room : Nat} {ts us : List PlacedToken} {v : α}
    (h : c.Spells A room ts v) (hus : ts.map (·.token) = us.map (·.token)) :
    c.Spells A room us v :=
  ⟨h.tokens.trans hus, h.value, h.depth⟩

theorem operand {first : Operand p} {room : Nat} {ts : List PlacedToken} {v : α}
    (h : first.Spells A room ts v) : (Chain.operand first).Spells A room ts v :=
  ⟨h.tokens, h.value, h.depth⟩

theorem join {left : Chain p} {right : Operand p} {room : Nat} {ts us : List PlacedToken} {v w : α}
    {op : Operator} (hleft : left.Spells A room ts v) (h : op ∈ p.operators) (offset : Nat)
    (hright : right.Spells A room us w) :
    (Chain.join left op h right).Spells A room (ts ++ ⟨.operator op, offset⟩ :: us)
      (A.apply op v w) where
  tokens := by simp [Chain.tokens, hleft.tokens, hright.tokens]
  value := Chain.value?_join_eq_some.mpr ⟨v, w, hleft.value, hright.value, rfl⟩
  depth := Nat.max_le.mpr ⟨hleft.depth, hright.depth⟩

theorem of_join {left : Chain p} {right : Operand p} {room : Nat} {ts : List PlacedToken} {v : α}
    {op : Operator} {h : op ∈ p.operators}
    (hjoin : (Chain.join left op h right).Spells A room ts v) :
    ∃ us offset ws u w, ts = us ++ ⟨.operator op, offset⟩ :: ws ∧ left.Spells A room us u ∧
      right.Spells A room ws w ∧ A.apply op u w = v := by
  obtain ⟨htokens, hvalue, hdepth⟩ := hjoin
  obtain ⟨us, rest, rfl, hus, hrest⟩ := List.map_eq_append_iff.mp htokens.symm
  obtain ⟨⟨token, offset⟩, ws, rfl, rfl, hws⟩ := List.map_eq_cons_iff.mp hrest
  obtain ⟨u, w, hu, hw, hv⟩ := Chain.value?_join_eq_some.mp hvalue
  obtain ⟨hleft, hright⟩ := Nat.max_le.mp hdepth
  exact ⟨us, offset, ws, u, w, rfl, ⟨hus.symm, hu, hleft⟩, ⟨hws.symm, hw, hright⟩, hv⟩

end Chain.Spells

namespace Operand.Spells

theorem mono {x : Operand p} {room room' : Nat} {ts : List PlacedToken} {v : α}
    (h : x.Spells A room ts v) (hle : room ≤ room') : x.Spells A room' ts v :=
  ⟨h.tokens, h.value, Nat.le_trans h.depth hle⟩

theorem product {c : Chain .multiplicative} {room : Nat} {ts : List PlacedToken} {v : α}
    (h : c.Spells A room ts v) : (Operand.product c).Spells A room ts v :=
  ⟨h.tokens, h.value, h.depth⟩

theorem number {text : String} {v : α} (h : A.convert? text = some v) (room offset : Nat) :
    (Operand.number text).Spells A room [⟨.number text, offset⟩] v :=
  ⟨rfl, h, Nat.zero_le _⟩

theorem group {inner : Sentence} {room : Nat} {ts : List PlacedToken} {v : α}
    (h : inner.Spells A room ts v) (opening closing : Nat) :
    (Operand.group inner).Spells A (room + 1)
      (⟨.openParen, opening⟩ :: (ts ++ [⟨.closeParen, closing⟩])) v where
  tokens := by simp [Operand.tokens, h.tokens]
  value := h.value
  depth := Nat.succ_le_succ h.depth

theorem of_group {inner : Sentence} {room : Nat} {ts : List PlacedToken} {v : α}
    (h : (Operand.group inner).Spells A room ts v) :
    ∃ opening us closing, ts = ⟨.openParen, opening⟩ :: (us ++ [⟨.closeParen, closing⟩]) ∧
      0 < room ∧ inner.Spells A (room - 1) us v := by
  obtain ⟨htokens, hvalue, hdepth⟩ := h
  obtain ⟨⟨token, opening⟩, rest, rfl, rfl, hrest⟩ := List.map_eq_cons_iff.mp htokens.symm
  obtain ⟨us, last, rfl, hus, hlast⟩ := List.map_eq_append_iff.mp hrest
  obtain ⟨⟨token, closing⟩, none', rfl, rfl, hnil⟩ := List.map_eq_cons_iff.mp hlast
  obtain rfl := List.map_eq_nil_iff.mp hnil
  rw [Operand.depth] at hdepth
  exact ⟨opening, us, closing, rfl, by omega, hus.symm, hvalue, by omega⟩

end Operand.Spells

namespace Parser

/-! Every derivation that is spelled is read. -/

theorem extend_of_frontBelow {p : Precedence} (n : Nesting) (v : α) {ts : List PlacedToken}
    (h : FrontBelow p.rank (ts.map (·.token))) : extend A p n v ts = ⟨.ok v, ts, false⟩ :=
  extend_of_front? (front?_ne_of_frontBelow h)

mutual

/-- After a derivation the chain is where its loop stands with that value. -/
theorem chain_append {n : Nesting} {rest : List PlacedToken} :
    (c : Chain p) → {used : List PlacedToken} → {v : α} → c.Spells A n.room used v →
    FrontBelow (p.rank + 1) (rest.map (·.token)) →
    chain A p n (used ++ rest) = extend A p n v rest
  | .operand first, used, v, h, hrest => by
    have hfirst : first.Spells A n.room used v := ⟨h.tokens, h.value, h.depth⟩
    rw [chain_eq, operand_append first hfirst hrest, Parse.andThen_ok]
  | .join left op hop right, used, v, h, hrest => by
    obtain ⟨us, offset, ws, u, w, rfl, hleft, hright, rfl⟩ := h.of_join
    rw [List.append_assoc, List.cons_append,
      chain_append left hleft (by simp [FrontBelow.operator_of_mem hop]),
      extend_operator (Precedence.mem_operators.mp hop),
      operand_append right hright hrest, Parse.andThen_ok]

theorem operand_append {n : Nesting} {rest : List PlacedToken} :
    (x : Operand p) → {used : List PlacedToken} → {v : α} → x.Spells A n.room used v →
    FrontBelow (p.rank + 1) (rest.map (·.token)) →
    operand A p n (used ++ rest) = ⟨.ok v, rest, false⟩
  | .product c, used, v, h, hrest => by
    have hc : c.Spells A n.room used v := ⟨h.tokens, h.value, h.depth⟩
    rw [operand_additive, chain_append c hc (.multiplicative _),
      extend_of_frontBelow (p := .multiplicative) n v hrest]
  | .number text, used, v, h, _ => by
    obtain ⟨⟨token, offset⟩, last, rfl, rfl, hnil⟩ := List.map_eq_cons_iff.mp h.tokens.symm
    obtain rfl := List.map_eq_nil_iff.mp hnil
    have hv : A.convert? text = some v := h.value
    rw [operand_multiplicative, List.cons_append, factor_number, hv]
    rfl
  | .group inner, used, v, h, _ => by
    obtain ⟨opening, us, closing, rfl, hroom, hinner⟩ := h.of_group
    obtain ⟨deeper, hdeeper⟩ := n.exists_descend hroom opening
    have hbody : chain A .additive deeper (us ++ ⟨.closeParen, closing⟩ :: rest) =
        ⟨.ok v, ⟨.closeParen, closing⟩ :: rest, false⟩ := by
      rw [Nesting.room_of_descend hdeeper, Nat.add_sub_cancel] at hinner
      rw [chain_append inner hinner (by simp), extend_of_frontBelow _ _ (by simp)]
    rw [operand_multiplicative, List.cons_append, factor_openParen, hdeeper]
    simp [hbody, closeGroup]

end

/-! Whatever is read spells a derivation. -/

/-- What a successful call has read. The loop of a chain starts from a derivation with the value
that it is given. -/
def Production.Reads (A : Arithmetic α) (n : Nesting) (ts rest : List PlacedToken) (v : α) :
    Production α → Prop
  | .chain p => ∃ (c : Chain p) (used : List PlacedToken),
      ts = used ++ rest ∧ c.Spells A n.room used v
  | .extend p u => ∀ (c : Chain p) (read : List PlacedToken), c.Spells A n.room read u →
      ∃ (c' : Chain p) (used : List PlacedToken),
        ts = used ++ rest ∧ c'.Spells A n.room (read ++ used) v
  | .factor => ∃ (x : Operand .multiplicative) (used : List PlacedToken),
      ts = used ++ rest ∧ x.Spells A n.room used v

theorem Production.Reads.operand {p : Precedence} {n : Nesting} {ts rest : List PlacedToken}
    {v : α} (h : (Production.operand p).Reads A n ts rest v) :
    ∃ (x : Operand p) (used : List PlacedToken), ts = used ++ rest ∧ x.Spells A n.room used v := by
  cases p with
  | additive =>
    obtain ⟨c, used, hts, hc⟩ := h
    exact ⟨.product c, used, hts, .product hc⟩
  | multiplicative => exact h

theorem Run.reads {k : Production α} {n : Nesting} {ts : List PlacedToken} {r : Parse α}
    (h : Run A k n ts r) : ∀ v, r.outcome = .ok v → k.Reads A n ts r.rest v := by
  induction h with
  | chain _ _ _ _ first more =>
    intro v hv
    obtain ⟨x, used, rfl, hx⟩ := (first _ rfl).operand
    obtain ⟨c, used', rfl, hc⟩ := more v hv _ _ (.operand hx)
    exact ⟨c, used ++ used', by simp, hc⟩
  | stop =>
    rintro _ ⟨⟩ c read hc
    exact ⟨c, [], rfl, by simpa using hc⟩
  | turn _ _ _ op offset hop _ _ right more =>
    intro v hv c read hc
    obtain ⟨x, used, rfl, hx⟩ := (right _ rfl).operand
    have hmem := Precedence.mem_operators.mpr hop
    obtain ⟨c', used', rfl, hc'⟩ := more v hv _ _ (hc.join hmem offset hx)
    exact ⟨c', ⟨.operator op, offset⟩ :: (used ++ used'), by simp, by simpa using hc'⟩
  | number hv =>
    rintro _ ⟨⟩
    exact ⟨.number _, [_], rfl, .number hv _ _⟩
  | group opening closing hn _ body =>
    rintro _ ⟨⟩
    obtain ⟨c, used, rfl, hc⟩ := body _ rfl
    have hgroup := Operand.Spells.group hc opening closing
    rw [← Nesting.room_of_descend hn] at hgroup
    exact ⟨.group c, _, by simp, hgroup⟩
  | _ =>
    intro v hv
    contradiction

theorem chain_eq_ok_iff {p : Precedence} {n : Nesting} {ts rest : List PlacedToken} {v : α} :
    chain A p n ts = ⟨.ok v, rest, false⟩ ↔
      FrontBelow p.rank (rest.map (·.token)) ∧
        ∃ (c : Chain p) (used : List PlacedToken),
          ts = used ++ rest ∧ c.Spells A n.room used v := by
  constructor
  · intro h
    have hrun : Run A (.chain p) n ts ⟨.ok v, rest, false⟩ := h ▸ run_parse A (.chain p) n ts
    exact ⟨hrun.stops v rfl, hrun.reads v rfl⟩
  · rintro ⟨hrest, c, used, rfl, hc⟩
    rw [chain_append c hc hrest.succ, extend_of_frontBelow n v hrest]

theorem sentence_eq_ok_iff {n : Nesting} {ts : List PlacedToken} {v : α} :
    sentence A n ts = .ok v ↔ ∃ c : Sentence, c.Spells A n.room ts v := by
  have hstarved := (run_parse A (.chain .additive) n ts).starved_eq_false
  have hread : chain A .additive n ts = ⟨.ok v, [], false⟩ ↔
      ∃ c : Sentence, c.Spells A n.room ts v := by simp [chain_eq_ok_iff]
  rw [← hread, sentence, sum]
  simp only [parse] at hstarved
  generalize chain A .additive n ts = r at hstarved ⊢
  obtain ⟨outcome, rest, starved⟩ := r
  cases outcome with
  | error e => simp
  | ok w =>
    cases rest with
    | nil => simp [show starved = false from hstarved w rfl]
    | cons t rest => simp

theorem exists_sentence_eq_ok_iff {n : Nesting} {ts : List PlacedToken} :
    (∃ v, sentence A n ts = .ok v) ↔ (∃ c : Sentence, c.tokens = ts.map (·.token)) ∧
      A.Converts (ts.map (·.token)) ∧ Token.maxOpen 0 (ts.map (·.token)) ≤ n.room := by
  simp only [sentence_eq_ok_iff]
  constructor
  · rintro ⟨v, c, hc⟩
    rw [← hc.tokens, c.maxOpen_tokens, ← c.isSome_value?_iff A, hc.value]
    exact ⟨⟨c, rfl⟩, rfl, hc.depth⟩
  · rintro ⟨⟨c, hc⟩, hconverts, hopen⟩
    rw [← hc, ← c.isSome_value?_iff A] at hconverts
    rw [← hc, c.maxOpen_tokens] at hopen
    obtain ⟨v, hv⟩ := Option.isSome_iff_exists.mp hconverts
    exact ⟨v, c, hc, hv, hopen⟩

/-- Tokens are evaluated exactly when they are a sentence whose numbers convert and whose groups
nest within the limit. The derivation is then the only one, and the value is its value. -/
theorem sentence_evaluates_derivation (A : Arithmetic α) (limit : UInt64) (sourceEnd : Nat)
    (ts : List PlacedToken) :
    ((∃ v, sentence A (.start limit sourceEnd) ts = .ok v) ↔
      (∃ c : Sentence, c.tokens = ts.map (·.token)) ∧ A.Converts (ts.map (·.token)) ∧
        Token.maxOpen 0 (ts.map (·.token)) ≤ limit.toNat) ∧
    (∀ c c' : Sentence, c.tokens = ts.map (·.token) → c'.tokens = ts.map (·.token) → c = c') ∧
    ∀ v, sentence A (.start limit sourceEnd) ts = .ok v →
      ∀ c : Sentence, c.tokens = ts.map (·.token) → c.value? A = some v := by
  refine ⟨?accepted, ?unique, ?value⟩
  case accepted => rw [exists_sentence_eq_ok_iff, Nesting.room_start]
  case unique =>
    intro c c' hc hc'
    exact Chain.tokens_injective (hc.trans hc'.symm)
  case value =>
    intro v hv c hc
    obtain ⟨c', hc'⟩ := sentence_eq_ok_iff.mp hv
    rw [Chain.tokens_injective (hc.trans hc'.tokens.symm)]
    exact hc'.value

end Parser
end Calculator
