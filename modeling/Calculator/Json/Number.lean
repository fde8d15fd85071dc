import Calculator.Decimal.Numeral

/-! Numbers in JSON text. A text stands for an exact decimal. Whether it is in range is decided by
an estimate in double arithmetic, which keeps as many leading digits as 64 bits hold. -/
namespace Calculator.Json

/-- The parts of a number as written, the exponent as its value. -/
structure NumberText where
  negative : Bool
  whole : List Char
  fraction : List Char
  exponent : Int

namespace NumberText

def value (t : NumberText) : Decimal :=
  Decimal.normal (Nat.ofDigitChars 10 (t.whole ++ t.fraction) 0) (t.exponent - t.fraction.length)

/-- Appends digits to a significand while it stays below `2 ^ 64`; returns it with the number of
digits that were not appended. -/
def appendFitting (significand : Nat) : List Char → Nat × Nat
  | [] => (significand, 0)
  | c :: cs =>
    let next := 10 * significand + (c.toNat - '0'.toNat)
    if next < UInt64.size then appendFitting next cs else (significand, cs.length + 1)

/-- The significand kept by the estimate and its power of ten. A digit left off before the point
still counts a power of ten, one behind it counts nothing. -/
def estimate (t : NumberText) : Nat × Int :=
  let (kept, wholeLeft) := appendFitting 0 t.whole
  let (kept, fractionLeft) := appendFitting kept t.fraction
  (kept, t.exponent + wholeLeft - (t.fraction.length - fractionLeft))

/-- Whether the estimate is infinite. Zero never is, and neither is anything scaled down. -/
def overflows (t : NumberText) : Bool :=
  match t.estimate with
  | (0, _) => false
  | (_, .negSucc _) => false
  | (kept, .ofNat k) =>
    308 < k ||
      Binary64.mulBits (Binary64.nearest kept 1) (Binary64.nearest (Nat.pow 10 k) 1)
        = Binary64.infinityBits

/-- Splits off a whole part: a lone zero, or digits which do not start with one. -/
def splitWhole? : List Char → Option (List Char × List Char)
  | '0' :: cs => some (['0'], cs)
  | cs =>
    match cs.takeWhile Char.isDigit with
    | [] => none
    | digits => some (digits, cs.dropWhile Char.isDigit)

def splitFraction? : List Char → Option (List Char × List Char)
  | '.' :: cs =>
    match cs.takeWhile Char.isDigit with
    | [] => none
    | digits => some (digits, cs.dropWhile Char.isDigit)
  | cs => some ([], cs)

def splitSignedDigits? (cs : List Char) : Option (Int × List Char) :=
  let signed := Decimal.splitSign cs
  match signed.2.takeWhile Char.isDigit with
  | [] => none
  | digits =>
    let e : Int := Nat.ofDigitChars 10 digits 0
    some (if signed.1 then -e else e, signed.2.dropWhile Char.isDigit)

def splitExponent? : List Char → Option (Int × List Char)
  | 'e' :: cs | 'E' :: cs => splitSignedDigits? cs
  | cs => some (0, cs)

def splitMinus : List Char → Bool × List Char
  | '-' :: cs => (true, cs)
  | cs => (false, cs)

/-- Splits off the number in front. -/
def split? (cs : List Char) : Option (NumberText × List Char) := do
  let (negative, cs) := splitMinus cs
  let (whole, cs) ← splitWhole? cs
  let (fraction, cs) ← splitFraction? cs
  let (exponent, cs) ← splitExponent? cs
  return (⟨negative, whole, fraction, exponent⟩, cs)

theorem length_dropWhile_lt_of_takeWhile_ne_nil {p : Char → Bool} {cs : List Char}
    (h : cs.takeWhile p ≠ []) : (cs.dropWhile p).length < cs.length := by
  have := congrArg List.length (List.takeWhile_append_dropWhile (p := p) (l := cs))
  have := List.length_pos_iff.mpr h
  rw [List.length_append] at *
  omega

theorem length_lt_of_splitWhole? {cs whole rest : List Char}
    (h : splitWhole? cs = some (whole, rest)) : rest.length < cs.length := by
  unfold splitWhole? at h
  split at h
  next => cases h; simp
  next =>
    split at h
    next => cases h
    next hne =>
      cases h
      exact length_dropWhile_lt_of_takeWhile_ne_nil hne

theorem length_le_of_splitFraction? {cs fraction rest : List Char}
    (h : splitFraction? cs = some (fraction, rest)) : rest.length ≤ cs.length := by
  unfold splitFraction? at h
  split at h
  next =>
    split at h
    next => cases h
    next hne =>
      cases h
      have := length_dropWhile_lt_of_takeWhile_ne_nil hne
      simp only [List.length_cons]; omega
  next => cases h; exact Nat.le_refl _

theorem length_lt_of_splitSignedDigits? {cs rest : List Char} {e : Int}
    (h : splitSignedDigits? cs = some (e, rest)) : rest.length < cs.length := by
  unfold splitSignedDigits? at h
  dsimp only at h
  split at h
  next => cases h
  next hne =>
    cases h
    exact Nat.lt_of_lt_of_le (length_dropWhile_lt_of_takeWhile_ne_nil hne)
      (Decimal.length_splitSign_snd_le cs)

theorem length_le_of_splitExponent? {cs rest : List Char} {e : Int}
    (h : splitExponent? cs = some (e, rest)) : rest.length ≤ cs.length := by
  unfold splitExponent? at h
  split at h
  next => have := length_lt_of_splitSignedDigits? h; simp only [List.length_cons]; omega
  next => have := length_lt_of_splitSignedDigits? h; simp only [List.length_cons]; omega
  next => cases h; exact Nat.le_refl _

theorem length_lt_of_split? {cs rest : List Char} {t : NumberText}
    (h : split? cs = some (t, rest)) : rest.length < cs.length := by
  simp only [split?, Option.bind_eq_bind, Option.bind_eq_some_iff, Option.pure_def,
    Option.some.injEq, Prod.mk.injEq] at h
  obtain ⟨⟨whole, cs₁⟩, hwhole, ⟨fraction, cs₂⟩, hfraction, ⟨e, cs₃⟩, hexponent, -, rfl⟩ := h
  have h₀ : (splitMinus cs).2.length ≤ cs.length := by unfold splitMinus; split <;> simp
  have h₁ := length_lt_of_splitWhole? hwhole
  have h₂ := length_le_of_splitFraction? hfraction
  have h₃ := length_le_of_splitExponent? hexponent
  dsimp only at h₂ h₃ ⊢
  omega

end NumberText
end Calculator.Json
