import Calculator.Proofs.Cuts
import Calculator.Proofs.Diagnosis
import Calculator.Proofs.Replacement

/-! Characters that are no part of a token may be put in anywhere but inside of a number. The
outcome stays the same, and errors behind the place move by as many bytes as were put in. -/
namespace Calculator

open Lexer (Uncut placed tokens tokensFrom)

theorem evaluateWithLimit_relocate {f : Nat → Nat} {source source' : String}
    (htokens : (tokensFrom 0 source).map (·.relocate f) = tokensFrom 0 source')
    (hend : f source.utf8ByteSize = source'.utf8ByteSize) (limit : UInt64) :
    evaluateWithLimit source' limit =
      (evaluateWithLimit source limit).mapError (.relocate f) := by
  by_cases hnil : tokensFrom 0 source = []
  · have hnil' : tokensFrom 0 source' = [] := by rw [← htokens, hnil, List.map_nil]
    rw [evaluateWithLimit_eq, evaluateWithLimit_eq, Lexer.tokens_placed, Lexer.tokens_placed,
      if_pos hnil, if_pos hnil']
    rfl
  · have hne : tokensFrom 0 source' ≠ [] := by
      rw [← htokens]
      exact mt List.map_eq_nil_iff.mp hnil
    rw [evaluateWithLimit_of_ne_nil hne, evaluateWithLimit_of_ne_nil hnil, ← htokens, ← hend]
    exact Machine.resume_relocate f {} _

theorem offset_lt_of_mem_tokensFrom {text : String} {t : PlacedToken}
    (h : t ∈ tokensFrom 0 text) : t.offset < text.utf8ByteSize := by
  obtain ⟨before, after, hpieces, hoffset⟩ := Lexer.exists_append_of_mem_place h
  have hsize := Lexer.size_pos_of_mem_pieces text.toList (.token t.token) (by simp [hpieces])
  have hextent := Lexer.extent_pieces text
  rw [hpieces, Lexer.extent_append, Lexer.extent] at hextent
  omega

/-- Where an offset comes to lie when text is put in behind `a`. -/
def pushed (a w : String) (offset : Nat) : Nat :=
  if offset < a.utf8ByteSize then offset else offset + w.utf8ByteSize

theorem tokensFrom_insert_ignored {a b w : String}
    (hcut : Uncut a.utf8ByteSize (tokens (placed (a ++ b))))
    (hw : ∀ c ∈ w.toList, c.isDigit = false ∧ c ∉ "+-*/()".toList) :
    tokensFrom 0 (a ++ w ++ b) = (tokensFrom 0 (a ++ b)).map (·.relocate (pushed a w)) := by
  have hnone : tokensFrom a.utf8ByteSize w = [] := Lexer.tokensFrom_eq_nil_iff.mpr hw
  have hfront : (tokensFrom 0 a).map (·.relocate (pushed a w)) = tokensFrom 0 a := by
    refine (List.map_congr_left fun t ht => ?_).trans (List.map_id _)
    rw [PlacedToken.relocate, pushed, if_pos (offset_lt_of_mem_tokensFrom ht)]
    rfl
  have hback : (tokensFrom a.utf8ByteSize b).map (·.relocate (pushed a w)) =
      tokensFrom (a.utf8ByteSize + w.utf8ByteSize) b := by
    refine Lexer.map_relocate_tokensFrom fun i _ => ?_
    unfold pushed
    rw [if_neg (by omega)]
    omega
  rw [String.append_assoc, Lexer.tokensFrom_insert hcut fun c hc => (hw c hc).1, hnone,
    List.nil_append, Lexer.tokensFrom_append_of_uncut hcut, List.map_append, hfront, hback]

theorem evaluateWithLimit_insert {a b w : String}
    (hcut : Uncut a.utf8ByteSize (tokens (placed (a ++ b))))
    (hw : ∀ c ∈ w.toList, c.isDigit = false ∧ c ∉ "+-*/()".toList) (limit : UInt64) :
    evaluateWithLimit (a ++ w ++ b) limit =
      (evaluateWithLimit (a ++ b) limit).mapError (.relocate (pushed a w)) := by
  refine evaluateWithLimit_relocate (tokensFrom_insert_ignored hcut hw).symm ?_ limit
  simp only [pushed, String.utf8ByteSize_append]
  rw [if_neg (by omega)]
  omega

/-- A value stays the same when characters that are no part of a token are put in outside of
numbers, and an error says the same of the place to which the characters there have moved. -/
theorem evaluateWithLimit_insert_ignored (a b w : String) (limit : UInt64)
    (hcut : Uncut a.utf8ByteSize (tokens (placed (a ++ b))))
    (hw : ∀ c ∈ w.toList, c.isDigit = false ∧ c ∉ "+-*/()".toList) :
    (∀ v, evaluateWithLimit (a ++ b) limit = .ok v →
      evaluateWithLimit (a ++ w ++ b) limit = .ok v) ∧
    ∀ e, evaluateWithLimit (a ++ b) limit = .error e →
      ∃ e', evaluateWithLimit (a ++ w ++ b) limit = .error e' ∧
        e'.kind = e.kind ∧ e'.message = e.message ∧ e'.token? = e.token? ∧
        e'.limit? = e.limit? ∧
        e'.offset? = e.offset?.map fun o =>
          if o < a.utf8ByteSize then o else o + w.utf8ByteSize := by
  rw [evaluateWithLimit_insert hcut hw]
  constructor
  · intro v hv
    rw [hv]
    rfl
  · intro e he
    rw [he]
    refine ⟨e.relocate (pushed a w), rfl, ?_⟩
    simp only [ParseError.kind_relocate, ParseError.message_relocate, ParseError.token?_relocate,
      ParseError.limit?_relocate, ParseError.offset?_relocate, true_and]
    rfl

/-- Neither point goes on with a number, so the second number is still one too many. -/
theorem evaluateWithLimit_insert_ignored_points :
    evaluateWithLimit "1.2.3" 0 = .error (.trailingInput "3" 4) ∧
      ∃ e, evaluateWithLimit "1.2 .é.3" 0 = .error e ∧ e.offset? = some 8 := by
  have htokens : tokens (placed "1.2.3") = [⟨.number "1.2", 0⟩, ⟨.number "3", 4⟩] := by
    decide +kernel
  have hcut : Uncut 3 (tokens (placed "1.2.3")) := by
    rw [htokens]
    intro text offset ht
    obtain ⟨rfl, rfl⟩ | ⟨rfl, rfl⟩ : text = "1.2" ∧ offset = 0 ∨ text = "3" ∧ offset = 4 := by
      simpa using ht
    · exact .inl (by decide)
    · exact .inr (by decide)
  have he : evaluateWithLimit "1.2.3" 0 = .error (.trailingInput "3" 4) := by decide +kernel
  obtain ⟨e, he', -, -, -, -, hoffset⟩ :=
    (evaluateWithLimit_insert_ignored "1.2" ".3" " .é" 0 hcut (by simp)).2 _ he
  exact ⟨he, e, he', hoffset⟩

end Calculator
