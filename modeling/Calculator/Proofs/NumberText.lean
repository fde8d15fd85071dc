import Calculator.Json.Grammar
import Calculator.Json.Writer
import Calculator.Proofs.Numerals
import Calculator.Proofs.ReadBack

/-! Numbers in JSON text. What is split off the front of a text spells a number, and whatever spells
one is split off whole. A decimal in normal form is written with parts that stand for it. -/
namespace Calculator

namespace Text

theorem isDigits_toDigits (n : Nat) : isDigits (Nat.toDigits 10 n) :=
  isDigits_iff.mpr
    ⟨Nat.toDigits_ne_nil, fun _ => Nat.isDigit_of_mem_toDigits (by decide) (by decide)⟩

/-- Zero alone is written with a zero in front. -/
theorem eq_zero_of_head?_toDigits {n : Nat} (h : (Nat.toDigits 10 n).head? = some '0') : n = 0 := by
  induction n using Nat.strongRecOn with
  | ind n ih =>
    by_cases hlt : n < 10
    · rw [Nat.toDigits_of_lt_base hlt, List.head?_cons, Option.some.injEq] at h
      have hvalue := Nat.ofDigitChars_ten_toDigits (n := n)
      rw [Nat.toDigits_of_lt_base hlt, h] at hvalue
      exact hvalue.symm
    · rw [Nat.toDigits_of_base_le (by decide) (by omega), List.head?_append,
        Option.or_of_isSome (List.isSome_head?.mpr Nat.toDigits_ne_nil)] at h
      have := ih (n / 10) (by omega) h
      omega

end Text

namespace Json.NumberText

/-- What stands behind a number does not go on with it. -/
def EndsNumber (cs : List Char) : Prop :=
  ∀ c ∈ cs.head?, c.isDigit = false ∧ c ≠ '.' ∧ c ≠ 'e' ∧ c ≠ 'E'

theorem EndsNumber.endsDigits {cs : List Char} (h : EndsNumber cs) : Text.EndsDigits cs :=
  fun c hc => (h c hc).1

/-- The parts of a number as a reader takes them: digits before the point, a zero in front only
alone. The fraction may be missing. -/
structure Proper (t : NumberText) : Prop where
  whole : Text.isDigits t.whole
  whole_zero : t.whole.head? = some '0' → t.whole = ['0']
  fraction : ∀ c ∈ t.fraction, c.isDigit

def fractionText : List Char → List Char
  | [] => []
  | c :: cs => '.' :: c :: cs

def exponentText (e : Int) : List Char := if e = 0 then [] else numberFormat.exponentText e

/-- The parts put together. No point is written for a missing fraction, no letter for a zero as
exponent. -/
def text (t : NumberText) : List Char :=
  (if t.negative then ['-'] else []) ++ t.whole ++ fractionText t.fraction
    ++ exponentText t.exponent

theorem splitWhole?_append {whole rest : List Char} (hdigits : Text.isDigits whole)
    (hzero : whole.head? = some '0' → whole = ['0']) (hrest : Text.EndsDigits rest) :
    splitWhole? (whole ++ rest) = some (whole, rest) := by
  obtain ⟨c, cs, rfl⟩ := List.exists_cons_of_ne_nil (Text.isDigits_iff.mp hdigits).1
  by_cases hc : c = '0'
  · obtain rfl : cs = [] := by simpa [hc] using hzero (by simp [hc])
    rw [hc]
    rfl
  · rw [splitWhole?]
    · rw [Text.takeWhile_isDigits_append hdigits hrest,
        Text.dropWhile_isDigits_append hdigits hrest]
    · intro cs' h
      exact hc (List.cons.inj h).1

theorem splitFraction?_append {fraction point rest : List Char} (h : FractionText fraction point)
    (hdot : rest.head? ≠ some '.') (hrest : Text.EndsDigits rest) :
    splitFraction? (point ++ rest) = some (fraction, rest) := by
  cases h with
  | none =>
    rw [List.nil_append, splitFraction?]
    intro cs h
    exact hdot (by rw [h]; rfl)
  | digits h =>
    obtain ⟨c, cs, rfl⟩ := List.exists_cons_of_ne_nil (Text.isDigits_iff.mp h).1
    rw [List.cons_append, splitFraction?, Text.takeWhile_isDigits_append h hrest,
      Text.dropWhile_isDigits_append h hrest]

theorem splitSign_append {sign digits : List Char} (hsign : sign ∈ [[], ['+'], ['-']])
    (h : Text.isDigits digits) (rest : List Char) :
    Decimal.splitSign (sign ++ (digits ++ rest)) = (decide (sign = ['-']), digits ++ rest) := by
  simp only [List.mem_cons, List.not_mem_nil, or_false] at hsign
  obtain rfl | rfl | rfl := hsign
  · obtain ⟨c, cs, rfl, hc⟩ := Text.exists_digit h
    exact Decimal.splitSign_of_isDigit hc (cs ++ rest)
  · rfl
  · rfl

theorem splitSignedDigits?_append {sign digits rest : List Char}
    (hsign : sign ∈ [[], ['+'], ['-']]) (h : Text.isDigits digits) (hrest : Text.EndsDigits rest) :
    splitSignedDigits? (sign ++ (digits ++ rest))
      = some (if sign = ['-'] then -(Nat.ofDigitChars 10 digits 0 : Int)
          else Nat.ofDigitChars 10 digits 0, rest) := by
  rw [splitSignedDigits?, splitSign_append hsign h]
  dsimp only
  rw [Text.takeWhile_isDigits_append h hrest, Text.dropWhile_isDigits_append h hrest]
  obtain ⟨c, cs, rfl⟩ := List.exists_cons_of_ne_nil (Text.isDigits_iff.mp h).1
  simp only [decide_eq_true_eq]

theorem splitExponent?_append {e : Int} {letter rest : List Char} (h : ExponentText e letter)
    (hrest : EndsNumber rest) : splitExponent? (letter ++ rest) = some (e, rest) := by
  cases h with
  | none =>
    rw [List.nil_append, splitExponent?]
    · rintro cs rfl
      exact (hrest 'e' rfl).2.2.1 rfl
    · rintro cs rfl
      exact (hrest 'E' rfl).2.2.2 rfl
  | digits hletter hsign h =>
    have hdigits := splitSignedDigits?_append hsign h hrest.endsDigits
    rw [List.cons_append, List.append_assoc]
    obtain rfl | rfl := hletter
    · exact hdigits
    · exact hdigits

theorem splitMinus_append (negative : Bool) {whole : List Char} (h : Text.isDigits whole)
    (rest : List Char) :
    splitMinus ((if negative then ['-'] else []) ++ (whole ++ rest))
      = (negative, whole ++ rest) := by
  cases negative with
  | true => rfl
  | false =>
    obtain ⟨c, cs, rfl, hc⟩ := Text.exists_digit h
    simp [splitMinus, Text.ne_of_isDigit hc '-' rfl]

/-- Parts put together are split again where they were joined. -/
theorem split?_append {t : NumberText} {cs rest : List Char} (ht : t.Spelled cs)
    (hrest : EndsNumber rest) : split? (cs ++ rest) = some (t, rest) := by
  obtain ⟨negative, hwhole, hzero, hfraction, hexponent⟩ := ht
  rename_i whole fraction point letter exponent
  have hletter : Text.EndsDigits (letter ++ rest) ∧ (letter ++ rest).head? ≠ some '.' := by
    cases hexponent with
    | none => exact ⟨hrest.endsDigits, fun h => (hrest _ h).2.1 rfl⟩
    | digits hletter => obtain rfl | rfl := hletter <;> simp
  have hpoint : Text.EndsDigits (point ++ (letter ++ rest)) := by
    cases hfraction with
    | none => exact hletter.1
    | digits => simp
  simp only [List.append_assoc]
  simp only [split?, splitMinus_append negative hwhole, splitWhole?_append hwhole hzero hpoint,
    splitFraction?_append hfraction hletter.2 hletter.1, splitExponent?_append hexponent hrest,
    Option.bind_eq_bind, Option.bind_some, Option.pure_def]

theorem spelled_fractionText {fraction : List Char} (h : ∀ c ∈ fraction, c.isDigit) :
    FractionText fraction (fractionText fraction) := by
  cases fraction with
  | nil => exact .none
  | cons c cs => exact .digits (Text.isDigits_iff.mpr ⟨List.cons_ne_nil c cs, h⟩)

theorem spelled_exponentText (e : Int) : ExponentText e (exponentText e) := by
  unfold exponentText
  split
  next hzero => exact hzero ▸ .none
  next =>
    cases e with
    | ofNat n =>
      have h := ExponentText.digits (.inl rfl : 'e' = 'e' ∨ _) (by simp : ['+'] ∈ _)
        (Text.isDigits_toDigits n)
      rwa [if_neg (by decide), Nat.ofDigitChars_ten_toDigits] at h
    | negSucc n =>
      have h := ExponentText.digits (.inl rfl : 'e' = 'e' ∨ _) (by simp : ['-'] ∈ _)
        (Text.isDigits_toDigits (n + 1))
      rwa [if_pos rfl, Nat.ofDigitChars_ten_toDigits] at h

theorem Proper.spelled {t : NumberText} (ht : t.Proper) : t.Spelled t.text := by
  obtain ⟨negative, whole, fraction, exponent⟩ := t
  obtain ⟨hwhole, hzero, hfraction⟩ := ht
  have h := Spelled.intro negative hwhole hzero (spelled_fractionText hfraction)
    (spelled_exponentText exponent)
  simpa only [text, List.append_assoc] using h

/-! What is split off spells the number. -/

theorem eq_append_of_splitMinus (cs : List Char) :
    cs = (if (splitMinus cs).1 then ['-'] else []) ++ (splitMinus cs).2 := by
  unfold splitMinus
  split <;> rfl

theorem isDigits_and_eq_append {cs : List Char} (hne : cs.takeWhile Char.isDigit ≠ []) :
    Text.isDigits (cs.takeWhile Char.isDigit) ∧
      cs = cs.takeWhile Char.isDigit ++ cs.dropWhile Char.isDigit :=
  ⟨Text.isDigits_takeWhile hne, List.takeWhile_append_dropWhile.symm⟩

theorem spells_of_splitWhole? {cs whole rest : List Char}
    (h : splitWhole? cs = some (whole, rest)) :
    cs = whole ++ rest ∧ Text.isDigits whole ∧ (whole.head? = some '0' → whole = ['0']) := by
  unfold splitWhole? at h
  split at h
  next =>
    cases h
    exact ⟨rfl, by decide, fun _ => rfl⟩
  next hzero =>
    split at h
    next => contradiction
    next hne =>
      cases h
      obtain ⟨hdigits, hcs⟩ := isDigits_and_eq_append hne
      refine ⟨hcs, hdigits, fun hhead => ?_⟩
      obtain ⟨c, cs', hwhole, -⟩ := Text.exists_digit hdigits
      rw [hwhole, List.head?_cons, Option.some.injEq] at hhead
      rw [hwhole, hhead] at hcs
      exact absurd hcs (hzero _)

theorem spells_of_splitFraction? {cs fraction rest : List Char}
    (h : splitFraction? cs = some (fraction, rest)) :
    ∃ point, cs = point ++ rest ∧ FractionText fraction point := by
  unfold splitFraction? at h
  split at h
  next =>
    split at h
    next => contradiction
    next hne =>
      cases h
      obtain ⟨hdigits, hcs⟩ := isDigits_and_eq_append hne
      exact ⟨_, congrArg ('.' :: ·) hcs, .digits hdigits⟩
  next =>
    cases h
    exact ⟨[], rfl, .none⟩

theorem eq_append_of_splitSign (cs : List Char) :
    ∃ sign ∈ [[], ['+'], ['-']], cs = sign ++ (Decimal.splitSign cs).2 ∧
      (Decimal.splitSign cs).1 = decide (sign = ['-']) := by
  unfold Decimal.splitSign
  split
  next => exact ⟨['-'], by simp, rfl, rfl⟩
  next => exact ⟨['+'], by simp, rfl, rfl⟩
  next => exact ⟨[], by simp, rfl, rfl⟩

theorem spells_of_splitSignedDigits? {letter : Char} (hletter : letter = 'e' ∨ letter = 'E')
    {cs rest : List Char} {e : Int} (h : splitSignedDigits? cs = some (e, rest)) :
    ∃ text, letter :: cs = text ++ rest ∧ ExponentText e text := by
  obtain ⟨sign, hsign, hcs, hnegative⟩ := eq_append_of_splitSign cs
  unfold splitSignedDigits? at h
  dsimp only at h
  split at h
  next => contradiction
  next hne =>
    obtain ⟨hdigits, hrest⟩ := isDigits_and_eq_append hne
    simp only [Option.some.injEq, Prod.mk.injEq, hnegative, decide_eq_true_eq] at h
    obtain ⟨rfl, rfl⟩ := h
    refine ⟨_, ?_, .digits hletter hsign hdigits⟩
    rw [List.cons_append, List.append_assoc, ← hrest, ← hcs]

theorem spells_of_splitExponent? {cs rest : List Char} {e : Int}
    (h : splitExponent? cs = some (e, rest)) :
    ∃ letter, cs = letter ++ rest ∧ ExponentText e letter := by
  unfold splitExponent? at h
  split at h
  next => exact spells_of_splitSignedDigits? (.inl rfl) h
  next => exact spells_of_splitSignedDigits? (.inr rfl) h
  next =>
    cases h
    exact ⟨[], rfl, .none⟩

theorem spelled_of_split? {t : NumberText} {cs rest : List Char} (h : split? cs = some (t, rest)) :
    ∃ text, cs = text ++ rest ∧ t.Spelled text := by
  have hminus := eq_append_of_splitMinus cs
  simp only [split?, Option.bind_eq_bind, Option.bind_eq_some_iff, Option.pure_def,
    Option.some.injEq, Prod.mk.injEq] at h
  obtain ⟨⟨whole, _⟩, hwhole, ⟨fraction, _⟩, hfraction, ⟨e, _⟩, hexponent, rfl, rfl⟩ := h
  obtain ⟨hcs, hdigits, hzero⟩ := spells_of_splitWhole? hwhole
  obtain ⟨point, rfl, hpoint⟩ := spells_of_splitFraction? hfraction
  obtain ⟨letter, rfl, hletter⟩ := spells_of_splitExponent? hexponent
  refine ⟨_, ?_, .intro (splitMinus cs).1 hdigits hzero hpoint hletter⟩
  simpa only [List.append_assoc, hcs] using hminus

/-! The parts of a decimal. -/

/-- The digits with the point in its place, a zero behind it if nothing else is. -/
def positional (negative : Bool) (digits : List Char) (e : Int) : NumberText :=
  let (whole, fraction) := NumberFormat.splitAtPoint digits e
  ⟨negative, whole, if fraction = [] then ['0'] else fraction, 0⟩

/-- The digits with the point behind the first of them, which has the power `lead`. -/
def scientific (negative : Bool) (digits : List Char) (lead : Int) : NumberText :=
  ⟨negative, digits.take 1, digits.drop 1, lead⟩

/-- The parts that a decimal is written with. -/
def ofDecimal (negative : Bool) (d : Decimal) : NumberText :=
  let digits := Nat.toDigits 10 d.coefficient
  let lead := d.exponent + digits.length - 1
  if numberFormat.positional lead then positional negative digits d.exponent
  else scientific negative digits lead

theorem negative_ofDecimal (negative : Bool) (d : Decimal) :
    (ofDecimal negative d).negative = negative := by
  unfold ofDecimal
  dsimp only
  split <;> rfl

theorem text_positional (negative : Bool) (digits : List Char) (e : Int) :
    (positional negative digits e).text
      = (if negative then ['-'] else []) ++ numberFormat.positionalText digits e := by
  unfold positional NumberFormat.positionalText
  obtain ⟨whole, fraction⟩ := NumberFormat.splitAtPoint digits e
  cases fraction <;> simp [text, fractionText, exponentText, numberFormat]

theorem text_scientific (negative : Bool) {digits : List Char} (hdigits : digits ≠ [])
    {lead : Int} (hlead : lead ≠ 0) :
    (scientific negative digits lead).text
      = (if negative then ['-'] else []) ++ numberFormat.scientificText digits lead := by
  obtain ⟨c, cs, rfl⟩ := List.exists_cons_of_ne_nil hdigits
  cases cs <;>
    simp [scientific, text, fractionText, exponentText, NumberFormat.scientificText, hlead]

theorem positional_iff {lead : Int} : numberFormat.positional lead ↔ -5 ≤ lead ∧ lead ≤ 15 := by
  simp [numberFormat]

theorem text_ofDecimal (negative : Bool) (d : Decimal) :
    (ofDecimal negative d).text = numberFormat.signedText negative d := by
  unfold ofDecimal NumberFormat.signedText NumberFormat.decimalText
  dsimp only
  by_cases hlead : numberFormat.positional (d.exponent + (Nat.toDigits 10 d.coefficient).length - 1)
  · rw [if_pos hlead, if_pos hlead, text_positional]
  · rw [if_neg hlead, if_neg hlead, text_scientific negative Nat.toDigits_ne_nil]
    intro hzero
    exact hlead (positional_iff.mpr (by omega))

theorem value_scientific (negative : Bool) {digits : List Char} (hdigits : digits ≠ []) (e : Int) :
    (scientific negative digits (e + digits.length - 1)).value
      = Decimal.normal (Nat.ofDigitChars 10 digits 0) e := by
  have hlength : 0 < digits.length := List.length_pos_iff.mpr hdigits
  rw [scientific, value]
  dsimp only
  rw [List.take_append_drop, List.length_drop]
  congr 1
  omega

/-- What stands around the point is digits, and in front of it there is one. -/
theorem digits_splitAtPoint {digits : List Char} (hdigits : Text.isDigits digits) (e : Int) :
    Text.isDigits (NumberFormat.splitAtPoint digits e).1 ∧
      ∀ c ∈ (NumberFormat.splitAtPoint digits e).2, c.isDigit := by
  obtain ⟨hne, hall⟩ := Text.isDigits_iff.mp hdigits
  have hzeros {n : Nat} {c : Char} (hc : c ∈ List.replicate n '0') : c.isDigit := by
    rw [List.eq_of_mem_replicate hc]
    rfl
  rw [Text.isDigits_iff]
  fun_cases NumberFormat.splitAtPoint digits e with
  | case1 zeros =>
    refine ⟨⟨by simp [hne], fun c hc => ?_⟩, by simp⟩
    exact (List.mem_append.mp hc).elim (hall c) hzeros
  | case2 k hk =>
    rw [List.splitAt_eq]
    refine ⟨⟨?_, fun c hc => hall c (List.mem_of_mem_take hc)⟩,
      fun c hc => hall c (List.mem_of_mem_drop hc)⟩
    rw [← List.length_pos_iff, List.length_take]
    omega
  | case3 k hk =>
    refine ⟨⟨by simp, by simp⟩, fun c hc => ?_⟩
    exact (List.mem_append.mp hc).elim hzeros (hall c)

theorem head?_splitAtPoint {digits : List Char} {e : Int} (hdigits : Text.isDigits digits)
    (hzero : digits.head? = some '0' → digits = ['0'] ∧ e = 0)
    (hhead : (NumberFormat.splitAtPoint digits e).1.head? = some '0') :
    (NumberFormat.splitAtPoint digits e).1 = ['0'] := by
  have hne := (Text.isDigits_iff.mp hdigits).1
  revert hhead
  fun_cases NumberFormat.splitAtPoint digits e with
  | case1 zeros =>
    intro hhead
    rw [List.head?_append, Option.or_of_isSome (List.isSome_head?.mpr hne)] at hhead
    obtain ⟨rfl, he⟩ := hzero hhead
    obtain rfl : zeros = 0 := by simpa using he
    rfl
  | case2 k hk =>
    intro hhead
    rw [List.splitAt_eq, List.head?_take, if_neg (by omega)] at hhead
    have := (hzero hhead).2
    omega
  | case3 k hk => exact fun _ => rfl

/-- Digits are put around the point without a change of the value. -/
theorem value_splitAtPoint (digits : List Char) (e : Int) :
    Decimal.normal
        (Nat.ofDigitChars 10 ((NumberFormat.splitAtPoint digits e).1
          ++ (NumberFormat.splitAtPoint digits e).2) 0)
        (-(NumberFormat.splitAtPoint digits e).2.length)
      = Decimal.normal (Nat.ofDigitChars 10 digits 0) e := by
  fun_cases NumberFormat.splitAtPoint digits e with
  | case1 zeros =>
    rw [List.append_nil, Nat.ofDigitChars_append, Nat.ofDigitChars_replicate_zero, Nat.mul_comm]
    simpa using Decimal.normal_mul_pow (Nat.ofDigitChars 10 digits 0) zeros zeros
  | case2 k hk =>
    rw [List.splitAt_eq]
    dsimp only
    rw [List.take_append_drop, List.length_drop]
    congr 1
    omega
  | case3 k hk =>
    dsimp only
    rw [Nat.ofDigitChars_append, Nat.ofDigitChars_append, Nat.ofDigitChars_replicate_zero,
      List.length_append, List.length_replicate]
    congr 1
    omega

theorem value_positional (negative : Bool) (digits : List Char) (e : Int) :
    (positional negative digits e).value = Decimal.normal (Nat.ofDigitChars 10 digits 0) e := by
  rw [← value_splitAtPoint, positional, value]
  obtain ⟨whole, fraction⟩ := NumberFormat.splitAtPoint digits e
  dsimp only
  split
  next hnil =>
    have hpad : Nat.ofDigitChars 10 (whole ++ ['0']) 0 = Nat.ofDigitChars 10 whole 0 * 10 ^ 1 := by
      rw [Nat.ofDigitChars_append, Nat.mul_comm]
      rfl
    rw [hpad, hnil, List.append_nil]
    exact Decimal.normal_mul_pow _ 0 1
  next => rw [Int.zero_sub]

/-- A decimal in normal form is written with parts that stand for it. -/
theorem value_ofDecimal (negative : Bool) {d : Decimal} (h : d.IsNormal) :
    (ofDecimal negative d).value = d := by
  have hvalue : (ofDecimal negative d).value = Decimal.normal d.coefficient d.exponent := by
    unfold ofDecimal
    dsimp only
    split
    next => rw [value_positional, Nat.ofDigitChars_ten_toDigits]
    next => rw [value_scientific negative Nat.toDigits_ne_nil, Nat.ofDigitChars_ten_toDigits]
  rw [hvalue, h.normal_eq]

/-- Only a zero without an exponent has a zero in front. -/
theorem proper_positional (negative : Bool) {digits : List Char} {e : Int}
    (hdigits : Text.isDigits digits) (hzero : digits.head? = some '0' → digits = ['0'] ∧ e = 0) :
    (positional negative digits e).Proper := by
  obtain ⟨hwhole, hfraction⟩ := digits_splitAtPoint hdigits e
  refine ⟨hwhole, head?_splitAtPoint hdigits hzero, ?_⟩
  unfold positional
  dsimp only
  split
  next => simp
  next => exact hfraction

theorem proper_scientific (negative : Bool) {digits : List Char} (hdigits : Text.isDigits digits)
    (lead : Int) : (scientific negative digits lead).Proper := by
  obtain ⟨hne, hall⟩ := Text.isDigits_iff.mp hdigits
  obtain ⟨c, cs, rfl⟩ := List.exists_cons_of_ne_nil hne
  refine ⟨Text.isDigits_iff.mpr ⟨by simp [scientific], ?_⟩, ?_, ?_⟩
  · simpa [scientific] using hall c (List.mem_cons_self ..)
  · intro hhead
    simpa [scientific] using hhead
  · exact fun c' hc' => hall c' (List.mem_cons_of_mem _ hc')

theorem proper_ofDecimal (negative : Bool) {d : Decimal} (h : d.IsNormal) :
    (ofDecimal negative d).Proper := by
  have hdigits := Text.isDigits_toDigits d.coefficient
  unfold ofDecimal
  dsimp only
  split
  next =>
    refine proper_positional negative hdigits fun hhead => ?_
    have hcoefficient := Text.eq_zero_of_head?_toDigits hhead
    obtain rfl | hmod := h
    · exact ⟨rfl, rfl⟩
    · omega
  next => exact proper_scientific negative hdigits _

end Json.NumberText
end Calculator
