import Calculator.Expression
import Calculator.Proofs.Composition
import Calculator.Proofs.Numerals
import Calculator.Proofs.Outline
import Calculator.Proofs.Rendering

/-! What is written of an expression evaluates to its value. The tokens that are written have a
derivation with that value, since parentheses stand wherever a subtree would be read otherwise, and
the text is cut into these very tokens, since no number runs into its neighbour. -/
namespace Calculator

variable {α : Type} {A : Arithmetic α} {ts us : List Token} {v? w? : Option α}

/-! Derivations with a value. -/

/-- Some derivation with these tokens has this value. -/
def Chain.Derives (A : Arithmetic α) (p : Precedence) (ts : List Token) (v? : Option α) : Prop :=
  ∃ c : Chain p, c.tokens = ts ∧ c.value? A = v?

@[inherit_doc Chain.Derives]
def Operand.Derives (A : Arithmetic α) (p : Precedence) (ts : List Token) (v? : Option α) : Prop :=
  ∃ x : Operand p, x.tokens = ts ∧ x.value? A = v?

theorem Operand.Derives.chain {p : Precedence} (h : Operand.Derives A p ts v?) :
    Chain.Derives A p ts v? := by
  obtain ⟨x, rfl, rfl⟩ := h
  exact ⟨.operand x, rfl, rfl⟩

theorem Chain.Derives.product (h : Chain.Derives A .multiplicative ts v?) :
    Operand.Derives A .additive ts v? := by
  obtain ⟨c, rfl, rfl⟩ := h
  exact ⟨.product c, rfl, rfl⟩

theorem Chain.Derives.group (h : Chain.Derives A .additive ts v?) :
    Operand.Derives A .multiplicative (.openParen :: (ts ++ [.closeParen])) v? := by
  obtain ⟨c, rfl, rfl⟩ := h
  exact ⟨.group c, rfl, rfl⟩

theorem Chain.Derives.join {p : Precedence} {op : Operator} {v w : α} (hop : op ∈ p.operators)
    (hleft : Chain.Derives A p ts (some v)) (hright : Operand.Derives A p us (some w)) :
    Chain.Derives A p (ts ++ .operator op :: us) (some (A.apply op v w)) := by
  obtain ⟨c, rfl, hc⟩ := hleft
  obtain ⟨x, rfl, hx⟩ := hright
  exact ⟨.join c op hop x, rfl, Chain.value?_join_eq_some.mpr ⟨v, w, hc, hx, rfl⟩⟩

theorem Chain.Derives.sentence {p : Precedence} (h : Chain.Derives A p ts v?) :
    Chain.Derives A .additive ts v? := by
  cases p with
  | additive => exact h
  | multiplicative => exact h.product.chain

/-- A factor can stand wherever an operand can. -/
theorem Operand.Derives.of_factor (h : Operand.Derives A .multiplicative ts v?) (p : Precedence) :
    Operand.Derives A p ts v? := by
  cases p with
  | additive => exact h.chain.product
  | multiplicative => exact h

theorem Operand.Derives.parenthesize (h : Operand.Derives A .multiplicative ts v?) (pairs : Nat) :
    Operand.Derives A .multiplicative (Token.parenthesize pairs ts) v? := by
  induction pairs with
  | zero => exact h
  | succ pairs ih => exact ih.chain.sentence.group

theorem Chain.Derives.parenthesize (h : Chain.Derives A .additive ts v?) (pairs : Nat) :
    Operand.Derives A .multiplicative (Token.parenthesize (pairs + 1) ts) v? := by
  induction pairs with
  | zero => exact h.group
  | succ pairs ih => exact ih.chain.sentence.group

namespace Expression

theorem value?_binary_eq_some {op : Operator} {left right : Expression} {v : α} :
    (binary op left right).value? A = some v ↔
      ∃ u w, left.value? A = some u ∧ right.value? A = some w ∧ A.apply op u w = v := by
  rw [value?]
  cases left.value? A <;> cases right.value? A <;> simp

/-- How tokens that are written for `e` can be used in a larger expression. -/
structure Placeable (A : Arithmetic α) (e : Expression) (ts : List Token) (v : α) : Prop where
  whole : Chain.Derives A .additive ts (some v)
  left : ∀ {p : Precedence} {op : Operator}, op ∈ p.operators →
    Chain.Derives A p (Token.parenthesize (e.pairsLeft op) ts) (some v)
  right : ∀ {p : Precedence} {op : Operator}, op ∈ p.operators →
    Operand.Derives A p (Token.parenthesize (e.pairsRight op) ts) (some v)

theorem Placeable.of_factor {v : α} (h : Operand.Derives A .multiplicative ts (some v))
    (e : Expression) : Placeable A e ts v where
  whole := h.chain.sentence
  left := fun _ => ((h.parenthesize _).of_factor _).chain
  right := fun _ => (h.parenthesize _).of_factor _

/-- Without parentheses of its own an operation stands only where its operator binds tightly enough.
-/
theorem Placeable.of_chain {q : Precedence} {inner : Operator} {v : α}
    (hinner : inner ∈ q.operators) (h : Chain.Derives A q ts (some v)) (l r : Expression) :
    Placeable A (.binary inner l r) ts v where
  whole := h.sentence
  left := by
    intro p op hop
    rw [pairsLeft]
    split
    next => exact ((h.sentence.parenthesize 0).of_factor _).chain
    next hneeds =>
      cases p with
      | additive => exact h.sentence
      | multiplicative =>
        cases q with
        | additive => exact absurd ⟨hop, hinner⟩ hneeds
        | multiplicative => exact h
  right := by
    intro p op hop
    rw [pairsRight]
    split
    next => exact (h.sentence.parenthesize 0).of_factor _
    next hneeds =>
      cases p with
      | additive =>
        cases q with
        | additive => exact absurd (.inr hinner) hneeds
        | multiplicative => exact h.product
      | multiplicative => exact absurd (.inl hop) hneeds

theorem Redundant.placeable {e : Expression} {v : α} (x : Redundant e) (hv : e.value? A = some v) :
    Placeable A e x.tokens v := by
  induction x generalizing v with
  | literal pairs n =>
    have hnumber : Operand.Derives A .multiplicative [.number n.text] (some v) :=
      ⟨.number n.text, rfl, hv⟩
    exact .of_factor (hnumber.parenthesize pairs) _
  | @binary pairs op left right l r hl hr =>
    obtain ⟨u, w, hu, hw, rfl⟩ := value?_binary_eq_some.mp hv
    have hop : op ∈ op.precedence.operators := Precedence.mem_operators.mpr rfl
    have hjoin := Chain.Derives.join hop ((hl hu).left hop) ((hr hw).right hop)
    cases pairs with
    | zero => exact .of_chain hop hjoin left right
    | succ pairs => exact .of_factor (hjoin.sentence.parenthesize pairs) _

theorem exists_value (e : Expression) : ∃ v, e.value? binary64 = some v := by
  induction e with
  | literal n => exact Option.isSome_iff_exists.mp (Decimal.isSome_readFloat? n.isNumeral)
  | binary op left right hleft hright =>
    obtain ⟨u, hu⟩ := hleft
    obtain ⟨w, hw⟩ := hright
    exact ⟨_, value?_binary_eq_some.mpr ⟨u, w, hu, hw, rfl⟩⟩

theorem mem_parenthesize {text : String} {pairs : Nat}
    (h : .number text ∈ Token.parenthesize pairs ts) : .number text ∈ ts := by
  induction pairs with
  | zero => exact h
  | succ pairs ih => exact ih (by simpa [Token.parenthesize] using h)

theorem Redundant.isNumeral_of_mem {e : Expression} (x : Redundant e) {text : String}
    (h : .number text ∈ x.tokens) : IsNumeral text.toList := by
  induction x with
  | literal pairs n =>
    have hnumber := mem_parenthesize h
    simp only [List.mem_singleton, Token.number.injEq] at hnumber
    exact hnumber ▸ n.isNumeral
  | binary pairs op l r hl hr =>
    obtain hmem | hmem := List.mem_append.mp (mem_parenthesize h)
    · exact hl (mem_parenthesize hmem)
    · exact hr (mem_parenthesize (by simpa using hmem))

end Expression

/-! What is written is read again. -/

namespace Lexer

/-- Where an operator may follow, no number does. -/
theorem apart_of_read? {s : Outline} (h : (s.read? ts).isSome) : Token.Apart ts := by
  induction ts generalizing s with
  | nil => exact .nil
  | cons t ts ih =>
    obtain ⟨last, hlast⟩ := Option.isSome_iff_exists.mp h
    obtain ⟨s', hnext, hread⟩ := Option.bind_eq_some_iff.mp hlast
    have hrest : (s'.read? ts).isSome := Option.isSome_iff_exists.mpr ⟨last, hread⟩
    cases ts with
    | nil => exact .singleton t
    | cons u ts =>
      refine List.isChain_cons_cons.mpr ⟨?_, ih hrest⟩
      cases t with
      | number text =>
        obtain ⟨opened, _ | _⟩ := s
        · contradiction
        · obtain rfl := Option.some.inj hnext
          cases u with
          | number => simp [Outline.next?] at hrest
          | operator | openParen | closeParen => exact .inr trivial
      | operator | openParen | closeParen => exact .inl trivial

theorem kinds_spread {s : Outline} (h : (s.read? ts).isSome)
    (hnumerals : ∀ text, .number text ∈ ts → IsNumeral text.toList) (gap : Nat → Gap) :
    kinds (Token.spread gap ts) = ts := by
  have hproper : ∀ t ∈ ts, t.Proper := by
    intro t ht
    cases t with
    | number text => exact hnumerals text ht
    | operator | openParen | closeParen => trivial
  rw [kinds, tokensFrom_spread hproper (.inr (apart_of_read? h)), Token.map_token_spreadAt]

end Lexer

/-- However an expression is written, with whatever gaps between the tokens and with redundant
parentheses around any subtrees or none, its text evaluates to its value as soon as the limit allows
the parentheses that are written. -/
theorem evaluateWithLimit_spread (e : Expression) (gap : Nat → Gap) :
    ∃ v, e.value? binary64 = some v ∧
      (∀ limit : UInt64, Token.maxOpen 0 e.tokens ≤ limit.toNat →
        evaluateWithLimit (Token.spread gap e.tokens) limit = .ok v) ∧
      ∀ (x : e.Redundant) (limit : UInt64), Token.maxOpen 0 x.tokens ≤ limit.toNat →
        evaluateWithLimit (Token.spread gap x.tokens) limit = .ok v := by
  obtain ⟨v, hv⟩ := e.exists_value
  have hwritten (x : e.Redundant) (limit : UInt64)
      (hlimit : Token.maxOpen 0 x.tokens ≤ limit.toNat) :
      evaluateWithLimit (Token.spread gap x.tokens) limit = .ok v := by
    obtain ⟨c, htokens, hc⟩ := (x.placeable hv).whole
    have hread : (Outline.start.read? x.tokens).isSome := by
      rw [(Outline.isSentence_iff _).mp ⟨c, htokens⟩]
      rfl
    have hkinds := Lexer.kinds_spread hread (fun _ => x.isNumeral_of_mem) gap
    exact evaluateWithLimit_eq_ok_iff.mpr ⟨c, htokens.trans hkinds.symm, hc, by
      rwa [← c.maxOpen_tokens, htokens]⟩
  exact ⟨v, hv, Expression.Redundant.tokens_none e ▸ hwritten (.none e), hwritten⟩

-- Products come before sums, and each is folded from the left.
example : evaluateWithLimit "9-(8+2)*3/2-1" 1 = .ok (-7) := by decide +kernel

end Calculator
