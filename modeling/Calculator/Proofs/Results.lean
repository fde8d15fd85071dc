import Calculator.CommandLine
import Calculator.Proofs.Dotted
import Calculator.Proofs.DoubleBits
import Calculator.Proofs.NumberText
import Calculator.Proofs.Replacement
import Calculator.Proofs.Spans

/-! Results that are evaluated again. The digits printed for a finite double spell one number, which
is read as that double. The language has no signs and no words, so what has a sign is refused at the
sign, and in a word nothing is recognized. -/
namespace Calculator

open Json.NumberText (fractionText digits_splitAtPoint value_splitAtPoint)
open NumberFormat (splitAtPoint)

/-! Printed digits. -/

namespace NumberFormat

theorem decimalText_plain (d : Decimal) :
    plain.decimalText d =
      (splitAtPoint (Nat.toDigits 10 d.coefficient) d.exponent).1 ++
        fractionText (splitAtPoint (Nat.toDigits 10 d.coefficient) d.exponent).2 := by
  show plain.positionalText _ _ = _
  unfold positionalText
  obtain ⟨whole, fraction⟩ := splitAtPoint (Nat.toDigits 10 d.coefficient) d.exponent
  cases fraction with
  | nil => exact (List.append_nil whole).symm
  | cons => rfl

theorem isNumeral_decimalText (d : Decimal) : IsNumeral (plain.decimalText d) := by
  have hdigits := digits_splitAtPoint (Text.isDigits_toDigits d.coefficient) d.exponent
  rw [decimalText_plain]
  generalize splitAtPoint (Nat.toDigits 10 d.coefficient) d.exponent = parts at hdigits
  obtain ⟨whole, fraction⟩ := parts
  cases fraction with
  | nil =>
    rw [fractionText, List.append_nil]
    exact .whole hdigits.1
  | cons c cs =>
    exact .fraction hdigits.1 (Text.isDigits_iff.mpr ⟨List.cons_ne_nil c cs, hdigits.2⟩)

/-- What is read may have another coefficient, for the zeros in front of the point. -/
theorem ofNumeral?_decimalText (d : Decimal) :
    ∃ e, Decimal.ofNumeral? (plain.decimalText d) = some e ∧ e.nearestBits = d.nearestBits := by
  have hdigits := digits_splitAtPoint (Text.isDigits_toDigits d.coefficient) d.exponent
  have hvalue := value_splitAtPoint (Nat.toDigits 10 d.coefficient) d.exponent
  rw [decimalText_plain]
  generalize splitAtPoint (Nat.toDigits 10 d.coefficient) d.exponent = parts at hdigits hvalue
  obtain ⟨whole, fraction⟩ := parts
  have hread : Decimal.ofNumeral? (whole ++ fractionText fraction) =
      some ⟨Nat.ofDigitChars 10 (whole ++ fraction) 0, -fraction.length⟩ := by
    cases fraction with
    | nil => simpa [fractionText] using Decimal.ofNumeral?_digits hdigits.1
    | cons c cs =>
      exact Decimal.ofNumeral?_point hdigits.1
        (Text.isDigits_iff.mpr ⟨List.cons_ne_nil c cs, hdigits.2⟩)
  refine ⟨_, hread, ?_⟩
  have hbits := congrArg Decimal.nearestBits hvalue
  rwa [Decimal.nearestBits_normal, Decimal.nearestBits_normal, Nat.ofDigitChars_ten_toDigits]
    at hbits

theorem signedText_eq (f : NumberFormat) (negative : Bool) (d : Decimal) :
    f.signedText negative d = if negative then '-' :: f.decimalText d else f.decimalText d := by
  cases negative <;> rfl

theorem floatText_of_isFinite {x : Float} (h : x.isFinite) :
    plain.floatText x =
      String.ofList (plain.signedText (Binary64.isNegative x)
        (Decimal.shortest .up (Binary64.magnitudeBits x))) :=
  if_pos ((Binary64.isFinite_iff x).mp h)

theorem readFloat?_floatText {x : Float} (h : x.isFinite) (hsign : Binary64.isNegative x = false) :
    IsNumeral (plain.floatText x).toList ∧ Decimal.readFloat? (plain.floatText x) = some x := by
  have hlist : (plain.floatText x).toList =
      plain.decimalText (Decimal.shortest .up (Binary64.magnitudeBits x)) := by
    rw [floatText_of_isFinite h, hsign, String.toList_ofList, signedText_eq,
      if_neg Bool.false_ne_true]
  have hnumeral : IsNumeral (plain.floatText x).toList := hlist ▸ isNumeral_decimalText _
  obtain ⟨e, he, hbits⟩ := ofNumeral?_decimalText (Decimal.shortest .up (Binary64.magnitudeBits x))
  refine ⟨hnumeral, ?_⟩
  rw [Decimal.readFloat?_of_ofNumeral? hnumeral (hlist ▸ he), Decimal.toFloat, hbits,
    ← Decimal.toFloat, ← hsign, Binary64.toFloat_shortest .up h]

/-- The sign is in front of whatever is printed. -/
theorem floatText_of_isNegative {x : Float} (h : x.isNaN = false) (hsign : Binary64.isNegative x) :
    ∃ text, plain.floatText x = "-" ++ text := by
  by_cases hfinite : x.isFinite
  · rw [floatText_of_isFinite hfinite, hsign, signedText_eq, if_pos rfl, ← List.singleton_append,
      String.ofList_append]
    exact ⟨_, rfl⟩
  · refine ⟨"inf", ?_⟩
    have hinf : Binary64.magnitudeBits x = Binary64.infinityBits := by
      rw [Bool.eq_false_iff, ne_eq, Binary64.isNaN_iff] at h
      rw [Binary64.isFinite_iff] at hfinite
      omega
    simp [floatText, hinf, hsign]

end NumberFormat

/-! Evaluations. -/

theorem tokenize_numeral {text : String} (h : IsNumeral text.toList) :
    tokenize text = .ok [⟨.number text, 0⟩] := by
  refine tokenize_eq_ok_iff.mpr ⟨List.cons_ne_nil _ _, ?_⟩
  rw [Lexer.tokensFrom, Lexer.pieces_numeral h]
  rfl

/-- No operand has a sign. -/
theorem evaluateWithLimit_minus (text : String) (limit : UInt64) :
    evaluateWithLimit ("-" ++ text) limit = .error (.unexpectedToken "-" 0) := by
  have hsymbol : (Token.operator .sub).IsSymbol := trivial
  have htokens := Lexer.tokensFrom_symbol_append hsymbol 0 text
  rw [show (Token.operator .sub).text = "-" from rfl] at htokens
  have hrefused : Parser.Refused binary64 (.operator .sub) := trivial
  rw [evaluateWithLimit_of_ne_nil (by simp [htokens]), htokens]
  exact Machine.resume_of_error (Machine.step_refused hrefused) _

open CommandLine (plainOutput)
open DigitGroup (evaluateWithLimit_numeral)

/-- A printed result can be evaluated again. Where it is finite and has no sign, its text is one
number from end to end and evaluates to that very double, so evaluating what was printed prints the
same. A sign is refused, though it be that of a zero or of an infinity, and the other words leave
no token. -/
theorem evaluate_printed (x : Float) (limit : UInt64) :
    (∀ source, evaluateWithLimit source limit = .ok x →
      plainOutput source limit = ⟨0, NumberFormat.plain.floatText x ++ "\n", ""⟩) ∧
    (x.isFinite → Binary64.isNegative x = false →
      tokenize (NumberFormat.plain.floatText x)
        = .ok [⟨.number (NumberFormat.plain.floatText x), 0⟩] ∧
      evaluateWithLimit (NumberFormat.plain.floatText x) limit = .ok x ∧
      plainOutput (NumberFormat.plain.floatText x) limit
        = ⟨0, NumberFormat.plain.floatText x ++ "\n", ""⟩) ∧
    (x.isNaN = false → Binary64.isNegative x →
      evaluateWithLimit (NumberFormat.plain.floatText x) limit
        = .error (.unexpectedToken "-" 0)) ∧
    (x.isInf ∧ Binary64.isNegative x = false ∨ x.isNaN →
      evaluateWithLimit (NumberFormat.plain.floatText x) limit = .error .invalidExpression) := by
  have hprints (source : String) (h : evaluateWithLimit source limit = .ok x) :
      plainOutput source limit = ⟨0, NumberFormat.plain.floatText x ++ "\n", ""⟩ := by
    rw [plainOutput, h]
  refine ⟨hprints, ?finite, ?negative, ?word⟩
  case finite =>
    intro h hsign
    obtain ⟨hnumeral, hread⟩ := NumberFormat.readFloat?_floatText h hsign
    obtain ⟨v, hv, hx⟩ := evaluateWithLimit_numeral hnumeral limit
    obtain rfl := Option.some.inj (hv.symm.trans hread)
    exact ⟨tokenize_numeral hnumeral, hx, hprints _ hx⟩
  case negative =>
    intro h hsign
    obtain ⟨text, htext⟩ := NumberFormat.floatText_of_isNegative h hsign
    rw [htext, evaluateWithLimit_minus]
  case word =>
    intro h
    have hword : NumberFormat.plain.floatText x = "inf" ∨
        NumberFormat.plain.floatText x = "NaN" := by
      obtain ⟨hinf, hsign⟩ | hnan := h
      · rw [Binary64.isInf_iff] at hinf
        exact .inl (by simp [NumberFormat.floatText, hinf, hsign])
      · rw [Binary64.isNaN_iff] at hnan
        refine .inr ?_
        simp only [NumberFormat.floatText]
        rw [if_neg (by omega), if_neg (by omega)]
    rw [evaluateWithLimit_eq_invalidExpression_iff]
    obtain hword | hword := hword <;> rw [hword] <;> simp

end Calculator
