import Calculator.Grammar

/-! Derivations compared through their tokens. A token list has at most one derivation, the nesting
of a derivation is seen in its tokens, and it has a value as soon as every number in it converts. -/
namespace Calculator

/-- The classes that the descent goes by are those of the grammar. -/
theorem Precedence.mem_operators {op : Operator} {p : Precedence} :
    op ∈ p.operators ↔ op.precedence = p := by
  cases p <;> cases op <;> decide

/-- How tightly a class of operators binds. -/
def Precedence.rank : Precedence → Nat
  | .additive => 0
  | .multiplicative => 1

/-- No operator of rank `bound` or above stands in front. A chain ends before such tokens when
`bound` is its own rank, and each of its operands when it is the next rank. -/
def Token.FrontBelow (bound : Nat) : List Token → Prop
  | .operator op :: _ => ∀ p : Precedence, op ∈ p.operators → p.rank < bound
  | _ => True

namespace Token.FrontBelow

@[simp] theorem nil (bound : Nat) : FrontBelow bound [] := trivial

@[simp] theorem number (bound : Nat) (text : String) (ts : List Token) :
    FrontBelow bound (.number text :: ts) := trivial

@[simp] theorem openParen (bound : Nat) (ts : List Token) :
    FrontBelow bound (.openParen :: ts) := trivial

@[simp] theorem closeParen (bound : Nat) (ts : List Token) :
    FrontBelow bound (.closeParen :: ts) := trivial

@[simp] theorem operator (bound : Nat) (op : Operator) (ts : List Token) :
    FrontBelow bound (.operator op :: ts) ↔ op.precedence.rank < bound :=
  ⟨fun h => h _ (Precedence.mem_operators.mpr rfl),
    fun h _ hp => Precedence.mem_operators.mp hp ▸ h⟩

theorem operator_of_mem {op : Operator} {p : Precedence} (hop : op ∈ p.operators) (bound : Nat)
    (ts : List Token) : FrontBelow bound (.operator op :: ts) ↔ p.rank < bound := by
  rw [operator, Precedence.mem_operators.mp hop]

theorem succ {bound : Nat} {ts : List Token} (h : FrontBelow bound ts) :
    FrontBelow (bound + 1) ts := by
  unfold FrontBelow at h ⊢
  split
  next => exact fun p hp => Nat.lt_succ_of_lt (h p hp)
  next => trivial

/-- Nothing binds more tightly than the operators of products. -/
theorem multiplicative (ts : List Token) :
    FrontBelow (Precedence.rank .multiplicative + 1) ts := by
  unfold FrontBelow
  split
  next => exact fun p _ => by cases p <;> decide
  next => trivial

end Token.FrontBelow

open Token (FrontBelow maxOpen)

/-! Nesting. -/

theorem Token.le_maxOpen (opened : Nat) (ts : List Token) : opened ≤ maxOpen opened ts := by
  induction ts with
  | nil => exact Nat.le_refl _
  | cons t ts ih =>
    cases t with
    | number | operator => exact ih
    | openParen | closeParen => exact Nat.le_max_left ..

mutual

theorem Chain.maxOpen_append (opened : Nat) (ts : List Token) : (c : Chain p) →
    maxOpen opened (c.tokens ++ ts) = max (opened + c.depth) (maxOpen opened ts)
  | .operand first => Operand.maxOpen_append opened ts first
  | .join left op h right => by
    have hright : maxOpen opened (.operator op :: (right.tokens ++ ts)) =
        max (opened + right.depth) (maxOpen opened ts) := Operand.maxOpen_append opened ts right
    simp only [Chain.tokens, Chain.depth, List.append_assoc, List.cons_append]
    rw [Chain.maxOpen_append opened _ left, hright]
    omega

theorem Operand.maxOpen_append (opened : Nat) (ts : List Token) : (x : Operand p) →
    maxOpen opened (x.tokens ++ ts) = max (opened + x.depth) (maxOpen opened ts)
  | .product c => Chain.maxOpen_append opened ts c
  | .number _ => (Nat.max_eq_right (Token.le_maxOpen opened ts)).symm
  | .group inner => by
    have hle := Token.le_maxOpen opened ts
    simp only [Operand.tokens, Operand.depth, List.cons_append, List.append_assoc, maxOpen]
    rw [Chain.maxOpen_append (opened + 1) _ inner]
    simp only [List.nil_append, maxOpen, Nat.add_sub_cancel]
    omega

end

theorem Chain.maxOpen_tokens (c : Chain p) : maxOpen 0 c.tokens = c.depth := by
  simpa [maxOpen] using c.maxOpen_append 0 []

/-! Values. -/

/-- Every number among the tokens can be read. -/
def Arithmetic.Converts (A : Arithmetic α) (ts : List Token) : Prop :=
  ∀ text, .number text ∈ ts → (A.convert? text).isSome

theorem Arithmetic.Converts.mono {A : Arithmetic α} {ts us : List Token} (h : A.Converts ts)
    (hsub : us ⊆ ts) : A.Converts us :=
  fun text ht => h text (hsub ht)

theorem Chain.value?_join_eq_some {A : Arithmetic α} {left : Chain p} {op : Operator}
    {h : op ∈ p.operators} {right : Operand p} {v : α} :
    (Chain.join left op h right).value? A = some v ↔
      ∃ u w, left.value? A = some u ∧ right.value? A = some w ∧ A.apply op u w = v := by
  rw [Chain.value?]
  cases left.value? A <;> cases right.value? A <;> simp

mutual

theorem Chain.isSome_value?_iff (A : Arithmetic α) : (c : Chain p) →
    ((c.value? A).isSome ↔ A.Converts c.tokens)
  | .operand first => Operand.isSome_value?_iff A first
  | .join left op h right => by
    have hleft := Chain.isSome_value?_iff A left
    have hright := Operand.isSome_value?_iff A right
    have hvalue : ((Chain.join left op h right).value? A).isSome ↔
        (left.value? A).isSome ∧ (right.value? A).isSome := by
      simp only [Option.isSome_iff_exists, Chain.value?_join_eq_some]
      grind
    rw [hvalue, hleft, hright]
    simp only [Arithmetic.Converts, Chain.tokens, List.mem_append, List.mem_cons, reduceCtorEq,
      false_or, or_imp, forall_and]

theorem Operand.isSome_value?_iff (A : Arithmetic α) : (x : Operand p) →
    ((x.value? A).isSome ↔ A.Converts x.tokens)
  | .product c => Chain.isSome_value?_iff A c
  | .number text => by simp [Operand.value?, Operand.tokens, Arithmetic.Converts]
  | .group inner => by
    have hinner := Chain.isSome_value?_iff A inner
    rw [Operand.value?, hinner]
    simp [Arithmetic.Converts, Operand.tokens]

end

/-! Unambiguity. A chain grows on its right, so two chains over the same tokens are compared from
their common first operand onwards. -/

/-- `Extends b c ts`: the chain `c` arises from `b` by joining further operands, written `ts`. -/
inductive Chain.Extends : Chain p → Chain p → List Token → Prop where
  | refl (c : Chain p) : Extends c c []
  | join {left c : Chain p} {op : Operator} {h : op ∈ p.operators} {right : Operand p}
      {ts : List Token} (more : Extends (.join left op h right) c ts) :
      Extends left c (.operator op :: (right.tokens ++ ts))

namespace Chain.Extends

theorem tokens {b c : Chain p} {ts : List Token} (h : Extends b c ts) :
    c.tokens = b.tokens ++ ts := by
  induction h with
  | refl c => simp
  | join more ih => simp [ih, Chain.tokens]

theorem snoc {b c : Chain p} {ts : List Token} (hc : Extends b c ts) (op : Operator)
    (h : op ∈ p.operators) (right : Operand p) :
    Extends b (.join c op h right) (ts ++ .operator op :: right.tokens) := by
  induction hc with
  | refl c => simpa using Extends.join (.refl (.join c op h right))
  | join more ih => simpa using Extends.join ih

theorem frontBelow_append {b c : Chain p} {ts r : List Token} (h : Extends b c ts)
    (hr : FrontBelow p.rank r) : FrontBelow (p.rank + 1) (ts ++ r) := by
  cases h with
  | refl => exact hr.succ
  | @join _ _ op hop => simp [FrontBelow.operator_of_mem hop]

end Chain.Extends

theorem Chain.exists_first : (c : Chain p) →
    ∃ first ts, Chain.Extends (.operand first) c ts
  | .operand first => ⟨first, [], .refl _⟩
  | .join left op h right =>
    have ⟨first, _, hleft⟩ := Chain.exists_first left
    ⟨first, _, hleft.snoc op h right⟩

theorem Chain.eq_of_extends {b c : Chain p} {ts r s : List Token} (h : Chain.Extends b c ts)
    (hr : FrontBelow p.rank r) (heq : r = ts ++ s) : b = c ∧ r = s := by
  cases h with
  | refl => exact ⟨rfl, heq⟩
  | @join _ _ op hop =>
    rw [heq] at hr
    simp [FrontBelow.operator_of_mem hop] at hr

mutual

/-- Of two chains over the same tokens one extends the other. What follows the first may go on with
operators of the same precedence, what follows the second may not. -/
theorem Chain.extends_of_append_eq {r s : List Token} (hr : FrontBelow (p.rank + 1) r)
    (hs : FrontBelow p.rank s) : (c c' : Chain p) → c.tokens ++ r = c'.tokens ++ s →
    ∃ ts, Chain.Extends c c' ts ∧ r = ts ++ s
  | .operand first, c', h => by
    obtain ⟨first', ts, hext⟩ := c'.exists_first
    rw [hext.tokens, List.append_assoc] at h
    obtain ⟨rfl, hrest⟩ :=
      Operand.eq_of_append_eq hr (hext.frontBelow_append hs) first first' h
    exact ⟨ts, hext, hrest⟩
  | .join left op hop right, c', h => by
    rw [Chain.tokens, List.append_assoc, List.cons_append] at h
    obtain ⟨ts, hext, hrest⟩ :=
      Chain.extends_of_append_eq (r := .operator op :: (right.tokens ++ r))
        (by simp [FrontBelow.operator_of_mem hop]) hs left c' h
    cases hext with
    | refl =>
      -- The other chain ends here and would have to go on with this operator.
      rw [← List.nil_append s, ← hrest] at hs
      simp [FrontBelow.operator_of_mem hop] at hs
    | @join _ _ op' hop' right' ts more =>
      simp only [List.cons_append, List.cons.injEq, Token.operator.injEq, List.append_assoc]
        at hrest
      obtain ⟨rfl, hright⟩ := hrest
      obtain ⟨rfl, hrest⟩ :=
        Operand.eq_of_append_eq hr (more.frontBelow_append hs) right right' hright
      exact ⟨ts, more, hrest⟩

theorem Operand.eq_of_append_eq {r s : List Token} (hr : FrontBelow (p.rank + 1) r)
    (hs : FrontBelow (p.rank + 1) s) : (x x' : Operand p) →
    x.tokens ++ r = x'.tokens ++ s → x = x' ∧ r = s
  | .product c, .product c', h => by
    obtain ⟨ts, hext, hrest⟩ := Chain.extends_of_append_eq (.multiplicative r) hs c c' h
    obtain ⟨rfl, hrest⟩ := Chain.eq_of_extends hext hr hrest
    exact ⟨rfl, hrest⟩
  | .number text, .number text', h => by simpa [Operand.tokens] using h
  | .group inner, .group inner', h => by
    simp only [Operand.tokens, List.cons_append, List.append_assoc, List.cons.injEq,
      true_and] at h
    obtain ⟨ts, hext, hrest⟩ := Chain.extends_of_append_eq (by simp) (by simp) inner inner' h
    obtain ⟨rfl, hrest⟩ := Chain.eq_of_extends hext (by simp) hrest
    exact ⟨rfl, by simpa using hrest⟩
  | .number _, .group _, h | .group _, .number _, h => by simp [Operand.tokens] at h

end

theorem Chain.eq_of_append_eq {c c' : Chain p} {r s : List Token} (hr : FrontBelow p.rank r)
    (hs : FrontBelow p.rank s) (h : c.tokens ++ r = c'.tokens ++ s) : c = c' ∧ r = s := by
  obtain ⟨ts, hext, hrest⟩ := Chain.extends_of_append_eq hr.succ hs c c' h
  exact Chain.eq_of_extends hext hr hrest

theorem Chain.tokens_injective {c c' : Chain p} (h : c.tokens = c'.tokens) : c = c' :=
  (Chain.eq_of_append_eq (.nil _) (.nil _) (congrArg (· ++ []) h)).1

end Calculator
