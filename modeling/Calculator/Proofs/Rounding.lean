import Mathlib.Tactic.Linarith
import Mathlib.Tactic.Ring
import Calculator.Binary64

/-! Rounding to the nearest double. A quotient is rounded at one step of the binary scale, by half
of that step at most, so what is rounded to a double is hardly larger than it. Doubles are rounded
to themselves. -/
namespace Calculator.Binary64

theorem binade_eq : binade = 2 ^ 52 := rfl

theorem unitsPerOne_pos : 0 < unitsPerOne := by decide +kernel

/-! Quotients rounded to integers. -/

variable {num den : Nat}

/-- Rounding moves a quotient by at most one half. -/
theorem divNearestEven_bounds (num : Nat) (h : 0 < den) :
    2 * (divNearestEven num den * den) ≤ 2 * num + den ∧
      2 * num ≤ 2 * (divNearestEven num den * den) + den := by
  have hdiv := Nat.div_add_mod num den
  have hmod := Nat.mod_lt num h
  rw [Nat.mul_comm] at hdiv
  unfold divNearestEven
  dsimp only
  split
  next hlt =>
    have := Nat.compare_eq_lt.mp hlt
    omega
  next hgt =>
    have := Nat.compare_eq_gt.mp hgt
    rw [Nat.add_mul, Nat.one_mul]
    omega
  next heq =>
    have := Nat.compare_eq_eq.mp heq
    have hparity : num / den % 2 * den = 0 ∨ num / den % 2 * den = den := by
      obtain h | h := Nat.mod_two_eq_zero_or_one (num / den) <;> simp [h]
    rw [Nat.add_mul]
    omega

theorem divNearestEven_le {c : Nat} (hden : 0 < den) (h : num ≤ c * den) :
    divNearestEven num den ≤ c := by
  have hbound := (divNearestEven_bounds num hden).1
  by_contra hlt
  have := Nat.mul_le_mul_right den (Nat.lt_of_not_le hlt)
  rw [Nat.succ_mul] at this
  omega

theorem le_divNearestEven {c : Nat} (hden : 0 < den) (h : c * den ≤ num) :
    c ≤ divNearestEven num den := by
  have hbound := (divNearestEven_bounds num hden).2
  by_contra hlt
  have := Nat.mul_le_mul_right den (Nat.lt_of_not_le hlt)
  rw [Nat.succ_mul] at this
  omega

theorem divNearestEven_mul_self (c : Nat) (hden : 0 < den) : divNearestEven (c * den) den = c :=
  Nat.le_antisymm (divNearestEven_le hden (Nat.le_refl _)) (le_divNearestEven hden (Nat.le_refl _))

theorem divNearestEven_mul_right {m : Nat} (hm : 0 < m) (num den : Nat) :
    divNearestEven (num * m) (den * m) = divNearestEven num den := by
  have hcompare : compare (2 * (num % den * m)) (den * m) = compare (2 * (num % den)) den := by
    rw [← Nat.mul_assoc]
    cases h : compare (2 * (num % den)) den with
    | lt => exact Nat.compare_eq_lt.mpr (Nat.mul_lt_mul_of_pos_right (Nat.compare_eq_lt.mp h) hm)
    | eq => exact Nat.compare_eq_eq.mpr (congrArg (· * m) (Nat.compare_eq_eq.mp h))
    | gt => exact Nat.compare_eq_gt.mpr (Nat.mul_lt_mul_of_pos_right (Nat.compare_eq_gt.mp h) hm)
  simp only [divNearestEven, Nat.mul_div_mul_right _ _ hm, Nat.mul_mod_mul_right, hcompare]

/-! The binary scale. -/

/-- The power of two, in units, of the step at which a quotient is rounded. -/
def scale (num den : Nat) : Nat := (num * unitsPerOne / den).log2 - 52

/-- The quotient in steps. -/
def significand (num den : Nat) : Nat :=
  divNearestEven (num * unitsPerOne) (den * 2 ^ scale num den)

theorem nearest_eq (num den : Nat) :
    nearest num den = min (scale num den * binade + significand num den) infinityBits := rfl

theorem nearest_mul_right {m : Nat} (hm : 0 < m) (num den : Nat) :
    nearest (num * m) (den * m) = nearest num den := by
  have hunits : num * m * unitsPerOne = num * unitsPerOne * m := Nat.mul_right_comm ..
  have hscale : scale (num * m) (den * m) = scale num den := by
    rw [scale, hunits, Nat.mul_div_mul_right _ _ hm, scale]
  have hsignificand : significand (num * m) (den * m) = significand num den := by
    rw [significand, hscale, hunits, Nat.mul_right_comm den, divNearestEven_mul_right hm,
      significand]
  rw [nearest_eq, nearest_eq, hscale, hsignificand]

/-- Fractions of one value are rounded alike. -/
theorem nearest_congr {num' den' : Nat} (hden : 0 < den) (hden' : 0 < den')
    (h : num * den' = num' * den) : nearest num den = nearest num' den' := by
  rw [← nearest_mul_right hden', h, Nat.mul_comm den, nearest_mul_right hden]

/-- Above the smallest step a significand has 53 binary digits. -/
structure IsSignificand (k r : Nat) : Prop where
  low : binade ≤ r ∨ k = 0
  high : r ≤ 2 * binade

theorem exists_isSignificand (bits : Nat) :
    ∃ k r, bits = k * binade + r ∧ IsSignificand k r ∧ r < 2 * binade := by
  have hdiv := Nat.div_add_mod bits binade
  have hmod := Nat.mod_lt bits (show 0 < binade by decide)
  rw [Nat.mul_comm] at hdiv
  cases hk : bits / binade with
  | zero =>
    rw [hk] at hdiv
    exact ⟨0, bits, by omega, ⟨.inr rfl, by omega⟩, by omega⟩
  | succ k =>
    rw [hk, Nat.succ_mul] at hdiv
    exact ⟨k, binade + bits % binade, by omega, ⟨.inl (by omega), by omega⟩, by omega⟩

theorem units_of_lt {bits : Nat} (h : bits < binade) : units bits = bits := if_pos h

theorem units_of_le {bits : Nat} (h : binade ≤ bits) :
    units bits = (binade + bits % binade) * 2 ^ (bits / binade - 1) := if_neg (Nat.not_lt.mpr h)

theorem units_eq {k r : Nat} (h : IsSignificand k r) : units (k * binade + r) = r * 2 ^ k := by
  obtain hsmall | hlarge := Nat.lt_or_ge r binade
  · obtain rfl : k = 0 := h.low.resolve_left (by omega)
    rw [Nat.zero_mul, Nat.zero_add, units_of_lt hsmall, Nat.pow_zero, Nat.mul_one]
  · have hpos : 0 < binade := by decide
    obtain ⟨r, rfl⟩ := Nat.exists_eq_add_of_le hlarge
    have hbits : k * binade + (binade + r) = r + (k + 1) * binade := by ring
    rw [units_of_le (by omega), hbits, Nat.add_mul_mod_self_right, Nat.add_mul_div_right _ _ hpos]
    obtain hlt | hge := Nat.lt_or_ge r binade
    · rw [Nat.mod_eq_of_lt hlt, Nat.div_eq_of_lt hlt]
      simp
    · -- The carry out of the 53 digits.
      obtain rfl : r = binade := Nat.le_antisymm (by have := h.high; omega) hge
      rw [Nat.mod_self, Nat.div_self hpos, show 1 + (k + 1) - 1 = k + 1 by omega, Nat.pow_succ]
      ring

theorem scale_bounds (num : Nat) (hden : 0 < den) :
    num * unitsPerOne < 2 * binade * (den * 2 ^ scale num den) ∧
      (scale num den = 0 ∨ binade * (den * 2 ^ scale num den) ≤ num * unitsPerOne) := by
  have hdouble : 2 * binade = 2 ^ 53 := rfl
  have hshift (j k : Nat) : 2 ^ j * (den * 2 ^ k) = den * 2 ^ (j + k) := by ring
  rw [hdouble, binade_eq, hshift, hshift]
  unfold scale
  generalize num * unitsPerOne = units
  generalize hn : units / den = n
  constructor
  · have hlt : n < 2 ^ (53 + (n.log2 - 52)) :=
      Nat.lt_of_lt_of_le Nat.lt_log2_self (Nat.pow_le_pow_right (by decide) (by omega))
    have hunits := (Nat.div_lt_iff_lt_mul hden).mp (hn ▸ hlt)
    rwa [hn, Nat.mul_comm] at hunits
  · obtain hlarge | hsmall := Nat.lt_or_ge 52 n.log2
    · have hne : n ≠ 0 := by
        rintro rfl
        simp at hlarge
      have hle : 2 ^ (52 + (n.log2 - 52)) ≤ n := by
        rw [Nat.add_sub_cancel' (Nat.le_of_lt hlarge)]
        exact Nat.log2_self_le hne
      have hunits := (Nat.le_div_iff_mul_le hden).mp (hn ▸ hle)
      rw [hn, Nat.mul_comm] at hunits
      exact .inr hunits
    · exact .inl (by omega)

theorem significand_bounds (num : Nat) (hden : 0 < den) :
    2 * (significand num den * (den * 2 ^ scale num den)) ≤
        2 * (num * unitsPerOne) + den * 2 ^ scale num den ∧
      2 * (num * unitsPerOne) ≤
        2 * (significand num den * (den * 2 ^ scale num den)) + den * 2 ^ scale num den :=
  divNearestEven_bounds _ (Nat.mul_pos hden (Nat.two_pow_pos _))

theorem isSignificand (num : Nat) (hden : 0 < den) :
    IsSignificand (scale num den) (significand num den) := by
  obtain ⟨hhigh, hlow⟩ := scale_bounds num hden
  have hpos : 0 < den * 2 ^ scale num den := Nat.mul_pos hden (Nat.two_pow_pos _)
  constructor
  · obtain hzero | hle := hlow
    · exact .inr hzero
    · exact .inl (le_divNearestEven hpos hle)
  · exact divNearestEven_le hpos (Nat.le_of_lt hhigh)

theorem scale_eq {k r : Nat} (h : IsSignificand k r) (hr : r < 2 * binade) :
    scale (r * 2 ^ k) unitsPerOne = k := by
  rw [scale, Nat.mul_div_cancel _ unitsPerOne_pos]
  obtain hlow | rfl := h.low
  · have hle : 2 ^ (52 + k) ≤ r * 2 ^ k := by
      rw [Nat.pow_add]
      exact Nat.mul_le_mul_right _ hlow
    have hlt : r * 2 ^ k < 2 ^ (52 + k + 1) := by
      rw [show 52 + k + 1 = 53 + k by omega, Nat.pow_add]
      exact Nat.mul_lt_mul_of_pos_right hr (Nat.two_pow_pos k)
    have hne : r * 2 ^ k ≠ 0 := Nat.ne_of_gt (Nat.lt_of_lt_of_le (Nat.two_pow_pos _) hle)
    rw [(Nat.log2_eq_iff hne).mpr ⟨hle, hlt⟩]
    omega
  · rw [Nat.pow_zero, Nat.mul_one]
    have hlog : r.log2 < 53 := by
      obtain rfl | hne := Nat.eq_zero_or_pos r
      · decide
      · exact (Nat.log2_lt (Nat.ne_of_gt hne)).mpr hr
    omega

/-- Every double is rounded to itself. -/
theorem nearest_units {bits : Nat} (h : bits ≤ infinityBits) :
    nearest (units bits) unitsPerOne = bits := by
  obtain ⟨k, r, rfl, hr, hlt⟩ := exists_isSignificand bits
  have hsignificand : significand (r * 2 ^ k) unitsPerOne = r := by
    rw [significand, scale_eq hr hlt, Nat.mul_assoc, Nat.mul_comm (2 ^ k)]
    exact divNearestEven_mul_self r (Nat.mul_pos unitsPerOne_pos (Nat.two_pow_pos k))
  rw [units_eq hr, nearest_eq, scale_eq hr hlt, hsignificand, Nat.min_eq_left h]

/-! How far rounding moves. -/

theorem nearest_of_lt (h : nearest num den < infinityBits) :
    nearest num den = scale num den * binade + significand num den := by
  rw [nearest_eq] at h ⊢
  omega

/-- A finite double is off by at most half of a step, the scale of which is that of the quotient. -/
theorem nearest_bounds (hden : 0 < den) (h : nearest num den < infinityBits) :
    2 * (units (nearest num den) * den) ≤ 2 * (num * unitsPerOne) + den * 2 ^ scale num den ∧
      2 * (num * unitsPerOne) ≤ 2 * (units (nearest num den) * den) + den * 2 ^ scale num den := by
  have hunits : units (nearest num den) * den =
      significand num den * (den * 2 ^ scale num den) := by
    rw [nearest_of_lt h, units_eq (isSignificand num hden)]
    ring
  rw [hunits]
  exact significand_bounds num hden

/-- Where a double has all of its digits it exceeds what is rounded to it by one part in `2 ^ 53` at
most. -/
theorem units_nearest_le (hden : 0 < den) (h : nearest num den < infinityBits)
    (hnormal : binade * den ≤ num * unitsPerOne) :
    2 ^ 53 * (units (nearest num den) * den) ≤ (2 ^ 53 + 1) * (num * unitsPerOne) := by
  have hscale : 2 ^ 52 * (den * 2 ^ scale num den) ≤ num * unitsPerOne := by
    obtain hzero | hle := (scale_bounds num hden).2
    · rw [hzero, Nat.pow_zero, Nat.mul_one]
      exact hnormal
    · exact hle
  have hbound := (nearest_bounds hden h).1
  omega

/-! The end of the scale. -/

/-- The scale of the largest finite doubles. -/
def topScale : Nat := 2045

theorem infinityBits_eq : infinityBits = (topScale + 2) * 2 ^ 52 := rfl

theorem two_mul_step_le {j k : Nat} (h : j < k) (den : Nat) :
    2 * (den * 2 ^ j) ≤ den * 2 ^ k := by
  have hpow := Nat.mul_le_mul_left den (Nat.pow_le_pow_right (n := 2) (by decide) h)
  rw [Nat.pow_succ, ← Nat.mul_assoc] at hpow
  omega

theorem nearest_lt_infinityBits (hden : 0 < den)
    (h : 2 * (num * unitsPerOne) < (2 ^ 54 - 1) * (den * 2 ^ topScale)) :
    nearest num den < infinityBits := by
  have hround := (significand_bounds num hden).1
  have hlow := (scale_bounds num hden).2
  have hhigh := (isSignificand num hden).high
  rw [nearest_eq, infinityBits_eq]
  rw [binade_eq] at *
  generalize significand num den = r at *
  generalize scale num den = k at *
  obtain hlt | rfl | hgt := Nat.lt_trichotomy k topScale
  · omega
  · have hlt : r < 2 ^ 53 := by
      by_contra hle
      have := Nat.mul_le_mul_right (den * 2 ^ topScale) (Nat.le_of_not_lt hle)
      omega
    omega
  · have := two_mul_step_le hgt den
    omega

theorem nearest_eq_infinityBits (hden : 0 < den)
    (h : 2 ^ 53 * (den * 2 ^ topScale) ≤ num * unitsPerOne) : nearest num den = infinityBits := by
  have hhigh := (scale_bounds num hden).1
  have hlow := (isSignificand num hden).low
  rw [nearest_eq, infinityBits_eq]
  rw [binade_eq] at *
  generalize significand num den = r at *
  generalize scale num den = k at *
  have hgt : topScale < k := by
    by_contra hle
    have hpow := Nat.pow_le_pow_right (n := 2) (by decide) (Nat.le_of_not_lt hle)
    have := Nat.mul_le_mul_left den hpow
    omega
  omega

/-- What is rounded to a double below the largest two is below these by half of a step. -/
theorem le_of_nearest_lt (hden : 0 < den) (h : nearest num den + 2 < infinityBits) :
    2 * (num * unitsPerOne) ≤ (2 ^ 54 - 5) * (den * 2 ^ topScale) := by
  have hround := (significand_bounds num hden).2
  have hlow := (isSignificand num hden).low
  have hhigh := (isSignificand num hden).high
  rw [nearest_eq, infinityBits_eq] at h
  rw [binade_eq] at *
  generalize significand num den = r at *
  generalize scale num den = k at *
  obtain hlt | rfl | hgt := Nat.lt_trichotomy k topScale
  · have := Nat.mul_le_mul_right (den * 2 ^ k) hhigh
    have := two_mul_step_le hlt den
    omega
  · have := Nat.mul_le_mul_right (den * 2 ^ topScale) (show r ≤ 2 ^ 53 - 3 by omega)
    omega
  · omega

theorem binade_le_unitsPerOne : binade ≤ unitsPerOne := by decide +kernel

/-- A whole number has all of its digits at a normal scale. -/
theorem units_nearest_one_le {a : Nat} (ha : 0 < a)
    (h : 2 * (a * unitsPerOne) ≤ (2 ^ 54 - 5) * 2 ^ topScale) :
    2 ^ 53 * units (nearest a 1) ≤ (2 ^ 53 + 1) * (a * unitsPerOne) := by
  have hpos := Nat.two_pow_pos topScale
  have hfinite : nearest a 1 < infinityBits := nearest_lt_infinityBits Nat.one_pos (by omega)
  have hnormal : binade * 1 ≤ a * unitsPerOne := by
    rw [Nat.mul_comm]
    exact Nat.mul_le_mul ha binade_le_unitsPerOne
  simpa using units_nearest_le Nat.one_pos hfinite hnormal

/-- Two rounded whole numbers have a finite product if the exact product is below the largest two
doubles. Each of them is too large by one part in `2 ^ 53` at most. -/
theorem mulBits_lt_infinityBits {a b : Nat} (ha : 0 < a) (hb : 0 < b)
    (h : 2 * (a * b * unitsPerOne) ≤ (2 ^ 54 - 5) * 2 ^ topScale) :
    mulBits (nearest a 1) (nearest b 1) < infinityBits := by
  have hleft : 2 ^ 53 * units (nearest a 1) ≤ (2 ^ 53 + 1) * (a * unitsPerOne) := by
    refine units_nearest_one_le ha (Nat.le_trans ?_ h)
    gcongr
    exact Nat.le_mul_of_pos_right a hb
  have hright : 2 ^ 53 * units (nearest b 1) ≤ (2 ^ 53 + 1) * (b * unitsPerOne) := by
    refine units_nearest_one_le hb (Nat.le_trans ?_ h)
    gcongr
    exact Nat.le_mul_of_pos_left b ha
  have hproduct := Nat.mul_le_mul hleft hright
  have hunits := Nat.mul_pos unitsPerOne_pos unitsPerOne_pos
  have hstep := Nat.two_pow_pos topScale
  refine nearest_lt_infinityBits hunits ?_
  generalize units (nearest a 1) = left at *
  generalize units (nearest b 1) = right at *
  generalize unitsPerOne = one at *
  generalize 2 ^ topScale = step at *
  have hscaled : 2 ^ 106 * (2 * (left * right * one)) <
      2 ^ 106 * ((2 ^ 54 - 1) * (one * one * step)) :=
    calc 2 ^ 106 * (2 * (left * right * one))
        = 2 * one * (2 ^ 53 * left * (2 ^ 53 * right)) := by ring
      _ ≤ 2 * one * ((2 ^ 53 + 1) * (a * one) * ((2 ^ 53 + 1) * (b * one))) :=
        Nat.mul_le_mul_left _ hproduct
      _ = (2 ^ 53 + 1) ^ 2 * (one * one) * (2 * (a * b * one)) := by ring
      _ ≤ (2 ^ 53 + 1) ^ 2 * (one * one) * ((2 ^ 54 - 5) * step) := Nat.mul_le_mul_left _ h
      _ = (2 ^ 53 + 1) ^ 2 * (2 ^ 54 - 5) * (one * one * step) := by ring
      _ < 2 ^ 106 * (2 ^ 54 - 1) * (one * one * step) :=
        Nat.mul_lt_mul_of_pos_right (by decide) (Nat.mul_pos hunits hstep)
      _ = 2 ^ 106 * ((2 ^ 54 - 1) * (one * one * step)) := by ring
  exact Nat.lt_of_mul_lt_mul_left hscaled

end Calculator.Binary64
