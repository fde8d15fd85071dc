import Calculator.Proofs.NumberText

/-! Which numbers in JSON text are in range. The estimate that decides it keeps no more of a number
than was written, so no finite double is refused for the text it is written with. -/
namespace Calculator.Json.NumberText

open Binary64

/-! The estimate. -/

theorem le_ofDigitChars (digits : List Char) (n : Nat) : n ≤ Nat.ofDigitChars 10 digits n := by
  rw [Nat.ofDigitChars_eq_ofDigitChars_zero]
  have := Nat.le_mul_of_pos_left n (Nat.pow_pos (n := digits.length) (by decide : 0 < 10))
  omega

theorem ofDigitChars_lt {digits : List Char} (h : ∀ c ∈ digits, c.isDigit) :
    Nat.ofDigitChars 10 digits 0 < 10 ^ digits.length := by
  induction digits with
  | nil => decide
  | cons c cs ih =>
    have hlt := ih fun c' hc' => h c' (List.mem_cons_of_mem _ hc')
    have hdigit : 10 * 0 + (c.toNat - '0'.toNat) ≤ 9 := by
      have hc := (Char.isDigit_iff_toNat.mp (h c (List.mem_cons_self ..))).2
      have : '0'.toNat = 48 := rfl
      have : '9'.toNat = 57 := rfl
      omega
    rw [Nat.ofDigitChars_cons, Nat.ofDigitChars_eq_ofDigitChars_zero, List.length_cons,
      Nat.pow_succ]
    have := Nat.mul_le_mul_left (10 ^ cs.length) hdigit
    omega

theorem appendFitting_of_lt {significand : Nat} {digits : List Char}
    (h : Nat.ofDigitChars 10 digits significand < UInt64.size) :
    appendFitting significand digits = (Nat.ofDigitChars 10 digits significand, 0) := by
  induction digits generalizing significand with
  | nil => rfl
  | cons c cs ih =>
    rw [Nat.ofDigitChars_cons] at h ⊢
    rw [appendFitting]
    rw [if_pos (Nat.lt_of_le_of_lt (le_ofDigitChars cs _) h), ih h]

theorem appendFitting_mul_pow_le (significand : Nat) (digits : List Char) :
    (appendFitting significand digits).1 * 10 ^ (appendFitting significand digits).2
      ≤ Nat.ofDigitChars 10 digits significand := by
  induction digits generalizing significand with
  | nil => simp [appendFitting]
  | cons c cs ih =>
    rw [Nat.ofDigitChars_cons, appendFitting]
    split
    next => exact ih _
    next =>
      rw [Nat.ofDigitChars_eq_ofDigitChars_zero, Nat.pow_succ]
      dsimp only
      calc significand * (10 ^ cs.length * 10) = 10 ^ cs.length * (10 * significand) := by ring
        _ ≤ 10 ^ cs.length * (10 * significand + (c.toNat - '0'.toNat)) :=
          Nat.mul_le_mul_left _ (Nat.le_add_right ..)
        _ ≤ _ := Nat.le_add_right ..

/-! The range. -/

theorem length_whole_positional_le (negative : Bool) {digits : List Char} {e : Int} {n : Nat}
    (hn : e + digits.length ≤ n) (hpos : 0 < n) :
    (positional negative digits e).whole.length ≤ n := by
  show (NumberFormat.splitAtPoint digits e).1.length ≤ n
  fun_cases NumberFormat.splitAtPoint digits e with
  | case1 zeros =>
    rw [List.length_append, List.length_replicate]
    simp only [Int.ofNat_eq_natCast] at hn
    omega
  | case2 k hk =>
    rw [List.splitAt_eq, List.length_take]
    omega
  | case3 => exact hpos

theorem length_whole_ofDecimal_le (negative : Bool) (d : Decimal) :
    (ofDecimal negative d).whole.length ≤ 16 := by
  unfold ofDecimal
  dsimp only
  split
  next hlead =>
    have := positional_iff.mp hlead
    exact length_whole_positional_le negative (by omega) (by decide)
  next =>
    show (List.take 1 _).length ≤ 16
    rw [List.length_take]
    omega

/-- The number with all of its digits, those that are zeros at the end too. -/
def written (t : NumberText) : Decimal :=
  ⟨Nat.ofDigitChars 10 (t.whole ++ t.fraction) 0, t.exponent - t.fraction.length⟩

/-- Digits before the point that fit are all kept, and what is kept is at most the number. -/
theorem estimate_le {t : NumberText} (hwhole : ∀ c ∈ t.whole, c.isDigit)
    (hlength : t.whole.length ≤ 19) {kept k : Nat} (h : t.estimate = (kept, (k : Int))) :
    kept * 10 ^ k * t.written.denominator ≤ t.written.numerator := by
  have hfits : Nat.ofDigitChars 10 t.whole 0 < UInt64.size :=
    calc Nat.ofDigitChars 10 t.whole 0 < 10 ^ t.whole.length := ofDigitChars_lt hwhole
      _ ≤ 10 ^ 19 := Nat.pow_le_pow_right (by decide) hlength
      _ < UInt64.size := by decide
  have hkept := appendFitting_mul_pow_le (Nat.ofDigitChars 10 t.whole 0) t.fraction
  rw [estimate, appendFitting_of_lt hfits] at h
  dsimp only at h
  rw [← Nat.ofDigitChars_append] at hkept
  generalize appendFitting (Nat.ofDigitChars 10 t.whole 0) t.fraction = fitted at *
  obtain ⟨kept', left⟩ := fitted
  obtain ⟨rfl, hk⟩ := Prod.mk.inj h
  dsimp only [written, Decimal.numerator, Decimal.denominator] at *
  obtain hneg | hnonneg := Int.lt_or_le (t.exponent - t.fraction.length) 0
  · obtain rfl : left = k + (-(t.exponent - t.fraction.length)).toNat := by omega
    rw [show (t.exponent - t.fraction.length).toNat = 0 by omega, Nat.pow_zero, Nat.mul_one,
      Nat.mul_assoc, ← Nat.pow_add]
    exact hkept
  · obtain rfl : k = left + (t.exponent - t.fraction.length).toNat := by omega
    rw [show (-(t.exponent - t.fraction.length)).toNat = 0 by omega, Nat.pow_zero, Nat.mul_one,
      Nat.pow_add, ← Nat.mul_assoc]
    exact Nat.mul_le_mul_right _ hkept

theorem pow_le_of_nearest {k : Nat} (h : 2 * (10 ^ k * unitsPerOne) ≤ (2 ^ 54 - 5) * 2 ^ topScale) :
    k ≤ 308 := by
  have hlimit : (2 ^ 54 - 5) * 2 ^ topScale < 2 * (Nat.pow 10 (308 + 1) * unitsPerOne) := by
    decide +kernel
  generalize 308 = j at *
  by_contra hk
  have hpow : Nat.pow 10 (j + 1) ≤ 10 ^ k :=
    Nat.pow_le_pow_right (by decide) (Nat.lt_of_not_le hk)
  have := Nat.mul_le_mul_right unitsPerOne hpow
  omega

/-- A number whose nearest double is below the largest two is in range. -/
theorem overflows_eq_false {t : NumberText} (hwhole : ∀ c ∈ t.whole, c.isDigit)
    (hlength : t.whole.length ≤ 19) (h : t.value.nearestBits + 2 < infinityBits) :
    t.overflows = false := by
  have hvalue : t.value.nearestBits = nearest t.written.numerator t.written.denominator :=
    (Decimal.nearestBits_normal ..).trans (Decimal.nearestBits_eq t.written)
  have hden := t.written.denominator_pos
  have hbelow := le_of_nearest_lt hden (hvalue ▸ h)
  unfold overflows
  split
  next => rfl
  next => rfl
  next kept k hzero hestimate =>
    have hle := estimate_le hwhole hlength hestimate
    have hscaled : 2 * (kept * 10 ^ k * unitsPerOne) ≤ (2 ^ 54 - 5) * 2 ^ topScale := by
      refine Nat.le_of_mul_le_mul_right ?_ hden
      calc 2 * (kept * 10 ^ k * unitsPerOne) * t.written.denominator
          = 2 * (kept * 10 ^ k * t.written.denominator * unitsPerOne) := by ring
        _ ≤ 2 * (t.written.numerator * unitsPerOne) := by gcongr
        _ ≤ (2 ^ 54 - 5) * (t.written.denominator * 2 ^ topScale) := hbelow
        _ = (2 ^ 54 - 5) * 2 ^ topScale * t.written.denominator := by ring
    have hkept : 0 < kept := Nat.pos_of_ne_zero hzero
    have hpow : 0 < 10 ^ k := Nat.pow_pos (by decide)
    have hk : k ≤ 308 := by
      refine pow_le_of_nearest (Nat.le_trans ?_ hscaled)
      gcongr
      exact Nat.le_mul_of_pos_left _ hkept
    have hfinite := mulBits_lt_infinityBits hkept hpow hscaled
    simp only [Bool.or_eq_false_iff, decide_eq_false_iff_not]
    exact ⟨Nat.not_lt.mpr hk, Nat.ne_of_lt hfinite⟩

/-- The sign of a number has no part in its range. -/
theorem overflows_ofDecimal (negative : Bool) (d : Decimal) :
    (ofDecimal negative d).overflows = (ofDecimal false d).overflows := by
  unfold ofDecimal
  dsimp only
  split <;> rfl

/-- No finite double is written with a text that is out of range. -/
theorem overflows_shortest (negative : Bool) {bits : Nat} (h : bits < infinityBits) :
    (ofDecimal negative (Decimal.shortest .even bits)).overflows = false := by
  obtain hlt | rfl | rfl : bits + 2 < infinityBits ∨ bits = infinityBits - 1 ∨
      bits = infinityBits - 2 := by omega
  · refine overflows_eq_false ?_ ?_ ?_
    · exact (Text.isDigits_iff.mp (proper_ofDecimal _ (Decimal.isNormal_shortest ..)).whole).2
    · exact Nat.le_trans (length_whole_ofDecimal_le ..) (by decide)
    · rw [value_ofDecimal _ (Decimal.isNormal_shortest ..),
        Decimal.nearestBits_shortest _ (by omega)]
      exact hlt
  -- The largest two doubles leave no room for two roundings: their digits are multiplied out.
  · rw [overflows_ofDecimal]
    decide +kernel
  · rw [overflows_ofDecimal]
    decide +kernel

end Calculator.Json.NumberText
