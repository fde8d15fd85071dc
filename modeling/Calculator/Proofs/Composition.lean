import Calculator.Proofs.Evaluation
import Calculator.Proofs.NestingLimit
import Calculator.Proofs.Seams

/-! Sources built from sources. A source is evaluated through the derivation of its tokens, so texts
are put together the way derivations are. -/
namespace Calculator

open Lexer (tokensFrom tokensFrom_append_symbol tokensFrom_group)

variable {α : Type} {A : Arithmetic α}

theorem Parser.sentence_nil (A : Arithmetic α) (limit : UInt64) (sourceEnd : Nat) :
    sentence A (.start limit sourceEnd) [] = .error (.unexpectedEndOfInput sourceEnd) :=
  (run_eq_sentence rfl []).symm

theorem evaluateWithLimit_eq_ok_iff {source : String} {limit : UInt64} {v : Float} :
    evaluateWithLimit source limit = .ok v ↔
      ∃ c : Sentence, c.Spells binary64 limit.toNat (tokensFrom 0 source) v := by
  rw [evaluateWithLimit_eq, Lexer.tokens_placed, ← Nesting.room_start limit source.utf8ByteSize,
    ← Parser.sentence_eq_ok_iff]
  split
  next hnil => simp [hnil, Parser.sentence_nil]
  next => rfl

/-- Where the text starts does not matter. -/
theorem Chain.Spells.move {c : Chain p} {room offset : Nat} {text : String} {v : α}
    (h : c.Spells A room (tokensFrom offset text) v) (offset' : Nat) :
    c.Spells A room (tokensFrom offset' text) v :=
  ⟨by rw [h.tokens, Lexer.map_token_tokensFrom, Lexer.map_token_tokensFrom], h.value, h.depth⟩

theorem Operand.Spells.parenthesized {c : Sentence} {room : Nat} {text : String} {v : α}
    (h : c.Spells A room (tokensFrom 0 text) v) (offset : Nat) :
    (Operand.group c).Spells A (room + 1) (tokensFrom offset ("(" ++ text ++ ")")) v := by
  have htokens := tokensFrom_group offset text ""
  rw [String.append_empty, Lexer.tokensFrom_empty, ← String.append_assoc] at htokens
  rw [htokens]
  exact .group (h.move _) _ _

theorem Chain.Spells.join_text {left : Chain p} {right : Operand p} {room : Nat} {a b : String}
    {v w : α} {op : Operator} (hleft : left.Spells A room (tokensFrom 0 a) v)
    (h : op ∈ p.operators) (hright : ∀ offset, right.Spells A room (tokensFrom offset b) w) :
    (Chain.join left op h right).Spells A room
      (tokensFrom 0 (a ++ (op.symbol.toString ++ b))) (A.apply op v w) := by
  have hsymbol : (Token.operator op).IsSymbol := trivial
  have htokens := tokensFrom_append_symbol hsymbol 0 a b
  rw [Token.text] at htokens
  rw [htokens]
  exact hleft.join h _ (hright _)

/-- Values do not depend on how a source came about. In parentheses it is one operand of any
operator, and on the left of a sum it needs none, as everything read so far is added to. -/
theorem evaluateWithLimit_compose (a b : String) (limit : UInt64) (va vb : Float)
    (hlimit : limit.toNat + 1 < UInt64.size) (ha : evaluateWithLimit a limit = .ok va)
    (hb : evaluateWithLimit b limit = .ok vb) :
    evaluateWithLimit ("(" ++ a ++ ")") (limit + 1) = .ok va ∧
    (∀ op : Operator,
      evaluateWithLimit ("(" ++ a ++ ")" ++ op.symbol.toString ++ "(" ++ b ++ ")") (limit + 1) =
        .ok (binary64.apply op va vb)) ∧
    ∀ op : Operator, op ∈ [.add, .sub] →
      evaluateWithLimit (a ++ op.symbol.toString ++ "(" ++ b ++ ")") (limit + 1) =
        .ok (binary64.apply op va vb) := by
  obtain ⟨left, hleft⟩ := evaluateWithLimit_eq_ok_iff.mp ha
  obtain ⟨right, hright⟩ := evaluateWithLimit_eq_ok_iff.mp hb
  have hsucc : (limit + 1).toNat = limit.toNat + 1 := by
    rw [UInt64.toNat_add]
    exact Nat.mod_eq_of_lt (by simp; omega)
  have hassoc (l op r : String) : l ++ op ++ "(" ++ r ++ ")" = l ++ (op ++ ("(" ++ r ++ ")")) := by
    simp only [String.append_assoc]
  simp only [hassoc, evaluateWithLimit_eq_ok_iff, hsucc]
  refine ⟨⟨_, .operand (.product (.operand (.parenthesized hleft 0)))⟩, fun op => ?_,
    fun op hop => ?_⟩
  · cases hp : op.precedence with
    | additive =>
      exact ⟨_, .join_text (.operand (.product (.operand (.parenthesized hleft 0))))
        (Precedence.mem_operators.mpr hp)
        fun offset => .product (.operand (.parenthesized hright offset))⟩
    | multiplicative =>
      exact ⟨_, .operand (.product (.join_text (.operand (.parenthesized hleft 0))
        (Precedence.mem_operators.mpr hp) fun offset => .parenthesized hright offset))⟩
  · exact ⟨_, .join_text (hleft.mono (Nat.le_succ _)) hop
      fun offset => .product (.operand (.parenthesized hright offset))⟩

theorem evaluateWithLimit_compose_difference :
    evaluateWithLimit "8 - 3" 0 = .ok 5 ∧ evaluateWithLimit "2 - 1" 0 = .ok 1 ∧
      evaluateWithLimit "8 - 3-(2 - 1)" 1 = .ok (5 - 1) := by
  have ha : evaluateWithLimit "8 - 3" 0 = .ok 5 := by decide +kernel
  have hb : evaluateWithLimit "2 - 1" 0 = .ok 1 := by decide +kernel
  have hcompose := evaluateWithLimit_compose "8 - 3" "2 - 1" 0 5 1 (by decide) ha hb
  exact ⟨ha, hb, hcompose.2.2 .sub (by decide)⟩

end Calculator
