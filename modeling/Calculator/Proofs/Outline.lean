import Calculator.Proofs.Derivation

/-! Sentences without their precedence. Operands and operators alternate, and parentheses are
counted; a token list that gets through this is a sentence when no group is open and no operand is
wanted at its end, and otherwise it can be continued to one. -/
namespace Calculator

def Token.IsSentence (ts : List Token) : Prop := ∃ c : Sentence, c.tokens = ts

/-- Some continuation makes a sentence of `ts`. -/
def Token.Viable (ts : List Token) : Prop := ∃ more, IsSentence (ts ++ more)

theorem Token.IsSentence.viable {ts : List Token} (h : IsSentence ts) : Viable ts :=
  ⟨[], (List.append_nil ts).symm ▸ h⟩

theorem Token.Viable.of_append {ts us : List Token} (h : Viable (ts ++ us)) : Viable ts := by
  obtain ⟨more, hmore⟩ := h
  exact ⟨us ++ more, List.append_assoc ts us more ▸ hmore⟩

/-- What counts of the tokens read so far. -/
structure Outline where
  opened : Nat
  wantsOperand : Bool
deriving DecidableEq

namespace Outline

def start : Outline := ⟨0, true⟩

def complete : Outline := ⟨0, false⟩

def next? : Outline → Token → Option Outline
  | ⟨opened, true⟩, .number _ => some ⟨opened, false⟩
  | ⟨opened, true⟩, .openParen => some ⟨opened + 1, true⟩
  | ⟨opened, false⟩, .operator _ => some ⟨opened, true⟩
  | ⟨opened + 1, false⟩, .closeParen => some ⟨opened, false⟩
  | _, _ => none

def read? (s : Outline) (ts : List Token) : Option Outline := ts.foldlM next? s

@[simp] theorem read?_nil (s : Outline) : s.read? [] = some s := rfl

@[simp] theorem read?_cons (s : Outline) (t : Token) (ts : List Token) :
    s.read? (t :: ts) = (s.next? t).bind (·.read? ts) := rfl

theorem read?_append (s : Outline) (ts us : List Token) :
    s.read? (ts ++ us) = (s.read? ts).bind (·.read? us) := List.foldlM_append

mutual

theorem read?_chain (opened : Nat) (ts : List Token) : (c : Chain p) →
    read? ⟨opened, true⟩ (c.tokens ++ ts) = read? ⟨opened, false⟩ ts
  | .operand first => read?_operand opened ts first
  | .join left op h right => by
    rw [Chain.tokens, List.append_assoc, read?_chain opened _ left]
    exact read?_operand opened ts right

theorem read?_operand (opened : Nat) (ts : List Token) : (x : Operand p) →
    read? ⟨opened, true⟩ (x.tokens ++ ts) = read? ⟨opened, false⟩ ts
  | .product c => read?_chain opened ts c
  | .number _ => rfl
  | .group inner => by
    rw [Operand.tokens, List.cons_append, List.append_assoc, read?_cons]
    exact read?_chain (opened + 1) _ inner

end

/-! Whatever gets through is made of sentences. -/

/-- Further operands can always be joined, since an operator that binds more tightly than the last
one takes the last operand with it. -/
theorem exists_tokens_eq_append_operator (c : Sentence) (op : Operator)
    (x : Operand .multiplicative) :
    ∃ c' : Sentence, c'.tokens = c.tokens ++ .operator op :: x.tokens := by
  cases hop : op.precedence with
  | additive => exact ⟨.join c op (Precedence.mem_operators.mpr hop) (.product (.operand x)), rfl⟩
  | multiplicative =>
    have h := Precedence.mem_operators.mpr hop
    match c with
    | .operand (.product m) => exact ⟨.operand (.product (.join m op h x)), rfl⟩
    | .join left op' h' (.product m) =>
      refine ⟨.join left op' h' (.product (.join m op h x)), ?_⟩
      simp [Chain.tokens, Operand.tokens]

/-- The tokens of the innermost open group, which either end with a sentence or want an operand. -/
def Level : Bool → List Token → Prop
  | true, ts => ts = [] ∨ ∃ (c : Sentence) (op : Operator), ts = c.tokens ++ [.operator op]
  | false, ts => ∃ c : Sentence, ts = c.tokens

theorem Level.append_operand {ts : List Token} (h : Level true ts) (x : Operand .multiplicative) :
    Level false (ts ++ x.tokens) := by
  obtain rfl | ⟨c, op, rfl⟩ := h
  · exact ⟨.operand (.product (.operand x)), rfl⟩
  · obtain ⟨c', hc'⟩ := exists_tokens_eq_append_operator c op x
    exact ⟨c', by simp [hc']⟩

/-- The tokens in front of the innermost open group. -/
inductive Opened : Nat → List Token → Prop where
  | none : Opened 0 []
  | group {opened : Nat} {ts us : List Token} (before : Opened opened ts) (level : Level true us) :
      Opened (opened + 1) (ts ++ us ++ [.openParen])

def Reached (s : Outline) (ts : List Token) : Prop :=
  ∃ before us, Opened s.opened before ∧ Level s.wantsOperand us ∧ ts = before ++ us

theorem Reached.next {s s' : Outline} {ts : List Token} {t : Token} (h : Reached s ts)
    (ht : s.next? t = some s') : Reached s' (ts ++ [t]) := by
  obtain ⟨before, us, hbefore, hlevel, rfl⟩ := h
  match s, t with
  | ⟨opened, true⟩, .number text =>
    obtain rfl := Option.some.inj ht
    exact ⟨before, _, hbefore, hlevel.append_operand (.number text), List.append_assoc ..⟩
  | ⟨opened, true⟩, .openParen =>
    obtain rfl := Option.some.inj ht
    exact ⟨_, [], hbefore.group hlevel, .inl rfl, (List.append_nil _).symm⟩
  | ⟨opened, false⟩, .operator op =>
    obtain rfl := Option.some.inj ht
    obtain ⟨c, rfl⟩ := hlevel
    exact ⟨before, _, hbefore, .inr ⟨c, op, rfl⟩, List.append_assoc ..⟩
  | ⟨opened + 1, false⟩, .closeParen =>
    obtain rfl := Option.some.inj ht
    obtain ⟨c, rfl⟩ := hlevel
    cases hbefore with
    | @group _ outer us houter hus =>
      exact ⟨outer, _, houter, hus.append_operand (.group c), by simp [Operand.tokens]⟩

theorem Reached.read {s s' : Outline} {ts us : List Token} (h : Reached s ts)
    (hus : s.read? us = some s') : Reached s' (ts ++ us) := by
  induction us generalizing s ts with
  | nil =>
    obtain rfl := Option.some.inj hus
    simpa using h
  | cons t us ih =>
    obtain ⟨mid, ht, hrest⟩ := Option.bind_eq_some_iff.mp hus
    simpa using ih (h.next ht) hrest

theorem isSentence_iff (ts : List Token) :
    Token.IsSentence ts ↔ start.read? ts = some complete := by
  constructor
  · rintro ⟨c, rfl⟩
    rw [← List.append_nil c.tokens]
    exact read?_chain 0 [] c
  · intro h
    have hstart : Reached start [] := ⟨[], [], .none, .inl rfl, rfl⟩
    obtain ⟨before, us, hbefore, ⟨c, rfl⟩, hts⟩ := hstart.read h
    cases hbefore
    exact ⟨c, hts.symm⟩

/-- The shortest way to the end of a sentence. -/
def completion : Outline → List Token
  | ⟨opened, true⟩ => .number "0" :: List.replicate opened .closeParen
  | ⟨opened, false⟩ => List.replicate opened .closeParen

theorem read?_completion (s : Outline) : s.read? s.completion = some complete := by
  have hclose (opened : Nat) :
      read? ⟨opened, false⟩ (List.replicate opened .closeParen) = some complete := by
    induction opened with
    | zero => rfl
    | succ opened ih => exact ih
  obtain ⟨opened, wantsOperand⟩ := s
  cases wantsOperand with
  | true => exact hclose opened
  | false => exact hclose opened

theorem viable_iff (ts : List Token) : Token.Viable ts ↔ (start.read? ts).isSome := by
  simp only [Token.Viable, isSentence_iff, read?_append]
  constructor
  · rintro ⟨more, h⟩
    obtain ⟨s, hs, _⟩ := Option.bind_eq_some_iff.mp h
    simp [hs]
  · intro h
    obtain ⟨s, hs⟩ := Option.isSome_iff_exists.mp h
    exact ⟨s.completion, by rw [hs]; exact s.read?_completion⟩

end Outline
end Calculator
