import Calculator.Decimal.Shortest
import Calculator.Proofs.Rounding

/-! The double nearest to a decimal number depends on its value alone, so trailing zeros may be put
into the exponent. The fewest digits of a double read back to it. -/
namespace Calculator

namespace Binary64

theorem nearest_eq_zero {num den : Nat} (h : 2 * (num * unitsPerOne) < den) :
    nearest num den = 0 := by
  have hscale : scale num den = 0 := by
    rw [scale, Nat.div_eq_of_lt (by omega)]
    rfl
  have hround := (significand_bounds num (Nat.zero_lt_of_lt h)).1
  rw [hscale, Nat.pow_zero, Nat.mul_one] at hround
  have hzero : significand num den = 0 := by
    by_contra hne
    have := Nat.mul_le_mul_right den (Nat.one_le_iff_ne_zero.mpr hne)
    omega
  rw [nearest_eq, hscale, hzero]
  omega

theorem two_pow_mul_unitsPerOne (j : Nat) : 2 ^ j * unitsPerOne = 2 ^ (j + 1074) := by
  unfold unitsPerOne
  generalize 1074 = k
  exact (Nat.pow_add 2 j k).symm

end Binary64

namespace Decimal

open Binary64

/-- The numerator of the value over `denominator`. -/
def numerator (d : Decimal) : Nat := d.coefficient * 10 ^ d.exponent.toNat

def denominator (d : Decimal) : Nat := 10 ^ (-d.exponent).toNat

theorem denominator_pos (d : Decimal) : 0 < d.denominator := Nat.pow_pos (by decide)

theorem overflow_le {c k : Nat} (hc : c ≠ 0) (hk : 310 ≤ k) :
    2 ^ 53 * (1 * 2 ^ topScale) ≤ c * 10 ^ k * unitsPerOne := by
  have hlimit : 2 ^ 53 * (1 * 2 ^ topScale) ≤ Nat.pow 10 310 * unitsPerOne := by decide +kernel
  generalize 310 = j at *
  refine Nat.le_trans hlimit (Nat.mul_le_mul_right _ ?_)
  calc 10 ^ j ≤ 10 ^ k := Nat.pow_le_pow_right (by decide) hk
    _ ≤ c * 10 ^ k := Nat.le_mul_of_pos_left _ (Nat.pos_of_ne_zero hc)

theorem lt_of_underflow {c k : Nat} (hk : c.log2 + 1077 ≤ 3 * (k + 1)) :
    2 * (c * unitsPerOne) < 10 ^ (k + 1) :=
  calc 2 * (c * unitsPerOne) = c * (2 ^ 1 * unitsPerOne) := by ring
    _ < 2 ^ (c.log2 + 1) * (2 ^ 1 * unitsPerOne) :=
      Nat.mul_lt_mul_of_pos_right Nat.lt_log2_self (Nat.mul_pos (by decide) unitsPerOne_pos)
    _ = 2 ^ (c.log2 + 1 + 1 + 1074) := by
      rw [← Nat.mul_assoc, ← Nat.pow_add, two_pow_mul_unitsPerOne]
    _ ≤ 2 ^ (3 * (k + 1)) := Nat.pow_le_pow_right (by decide) (by omega)
    _ = 8 ^ (k + 1) := Nat.pow_mul ..
    _ ≤ 10 ^ (k + 1) := Nat.pow_le_pow_left (by decide) _

/-- The guards of `nearestBits` do no more than save the powers of ten. -/
theorem nearestBits_eq (d : Decimal) : d.nearestBits = nearest d.numerator d.denominator := by
  obtain ⟨c, e⟩ := d
  unfold nearestBits
  dsimp only
  split
  next hzero =>
    rw [numerator, hzero, Nat.zero_mul, nearest_eq_zero]
    rw [Nat.zero_mul]
    exact denominator_pos _
  next hne =>
    split
    next k =>
      have hden : (⟨c, .ofNat k⟩ : Decimal).denominator = 1 := by simp [denominator]
      rw [hden]
      split
      next hk => exact (nearest_eq_infinityBits Nat.one_pos (overflow_le hne hk)).symm
      next => rfl
    next k =>
      have hnum : (⟨c, .negSucc k⟩ : Decimal).numerator = c := Nat.mul_one c
      have hden : (⟨c, .negSucc k⟩ : Decimal).denominator = 10 ^ (k + 1) := rfl
      rw [hnum, hden]
      split
      next hk => exact (nearest_eq_zero (lt_of_underflow hk)).symm
      next => rfl

theorem nearestBits_le_infinityBits (d : Decimal) : d.nearestBits ≤ infinityBits := by
  rw [nearestBits_eq, nearest_eq]
  exact Nat.min_le_right _ _

/-! Normal forms. -/

theorem nearestBits_mul_ten (c : Nat) (e : Int) :
    nearestBits ⟨10 * c, e⟩ = nearestBits ⟨c, e + 1⟩ := by
  rw [nearestBits_eq, nearestBits_eq]
  refine nearest_congr (denominator_pos _) (denominator_pos _) ?_
  simp only [numerator, denominator]
  obtain hneg | hnonneg := Int.lt_or_le e 0
  · rw [show (-e).toNat = (-(e + 1)).toNat + 1 by omega, show e.toNat = (e + 1).toNat by omega]
    ring
  · rw [show (-e).toNat = (-(e + 1)).toNat by omega, show (e + 1).toNat = e.toNat + 1 by omega]
    ring

theorem nearestBits_zero (e : Int) : nearestBits ⟨0, e⟩ = 0 := if_pos rfl

@[simp] theorem normal_zero (e : Int) : normal 0 e = ⟨0, 0⟩ := by rw [normal, dif_pos rfl]

theorem nearestBits_normal (c : Nat) (e : Int) : (normal c e).nearestBits = nearestBits ⟨c, e⟩ := by
  fun_induction normal c e with
  | case1 => rw [nearestBits_zero, nearestBits_zero]
  | case2 c e _ hmod _ ih =>
    have hten : 10 * (c / 10) = c := by omega
    rw [ih, ← nearestBits_mul_ten, hten]
  | case3 => rfl

/-- Zero has no exponent, and other coefficients do not end with a zero. -/
def IsNormal (d : Decimal) : Prop := d = ⟨0, 0⟩ ∨ d.coefficient % 10 ≠ 0

theorem isNormal_normal (c : Nat) (e : Int) : (normal c e).IsNormal := by
  fun_induction normal c e with
  | case1 => exact .inl rfl
  | case2 c e _ _ _ ih => exact ih
  | case3 c e _ hmod => exact .inr hmod

theorem IsNormal.normal_eq {d : Decimal} (h : d.IsNormal) :
    normal d.coefficient d.exponent = d := by
  obtain rfl | hmod := h
  · exact normal_zero 0
  · rw [normal, dif_neg (by omega), if_neg hmod]

theorem normal_mul_pow (c : Nat) (e : Int) (j : Nat) :
    normal (c * 10 ^ j) (e - j) = normal c e := by
  obtain rfl | hpos := Nat.eq_zero_or_pos c
  · simp
  induction j with
  | zero => simp
  | succ j ih =>
    have hmul : c * 10 ^ (j + 1) = 10 * (c * 10 ^ j) := by ring
    have hne : c * 10 ^ j ≠ 0 := Nat.ne_of_gt (Nat.mul_pos hpos (Nat.pow_pos (by decide)))
    have hexponent : e - (j + 1 : Nat) + 1 = e - j := by omega
    rw [hmul, normal, dif_neg (by omega), if_pos (by omega), Nat.mul_div_cancel_left _ (by decide),
      hexponent, ih]

/-! The fewest digits. -/

theorem nearestBits_exact {bits : Nat} (h : bits ≤ infinityBits) :
    (exact bits).nearestBits = bits := by
  have hden : (exact bits).denominator = unitsPerOne * Nat.pow 5 1074 := by
    show 10 ^ (-(-1074 : Int)).toNat = unitsPerOne * Nat.pow 5 1074
    decide +kernel
  have hnum : (exact bits).numerator = units bits * Nat.pow 5 1074 := Nat.mul_one _
  rw [nearestBits_eq, hden, hnum, nearest_mul_right (by decide +kernel), nearest_units h]

theorem nearestBits_of_onGrid? {tie : Tie} {bits : Nat} {e : Int} {d : Decimal}
    (h : onGrid? tie bits e = some d) : d.nearestBits = bits := by
  suffices readsBack bits d from of_decide_eq_true this
  unfold onGrid? at h
  dsimp only at h
  split at h
  next => contradiction
  next hlow _ => exact Option.some.inj h ▸ hlow
  next hhigh => exact Option.some.inj h ▸ hhigh
  next hlow hhigh =>
    split at h
    next => exact Option.some.inj h ▸ hlow
    next => exact Option.some.inj h ▸ hhigh
    next =>
      split at h
      next => exact Option.some.inj h ▸ hhigh
      next =>
        split at h
        next => exact Option.some.inj h ▸ hlow
        next => exact Option.some.inj h ▸ hhigh

/-- The fewest digits of a double read back to it. -/
theorem nearestBits_shortest (tie : Tie) {bits : Nat} (h : bits ≤ infinityBits) :
    (shortest tie bits).nearestBits = bits := by
  unfold shortest
  dsimp only
  rw [nearestBits_normal]
  cases hfound : (List.range 17).findSome? fun behind : Nat =>
      onGrid? tie bits (leadingExponent bits - behind) with
  | none => exact nearestBits_exact h
  | some d =>
    obtain ⟨_, _, hd⟩ := List.exists_of_findSome?_eq_some hfound
    exact nearestBits_of_onGrid? hd

theorem isNormal_shortest (tie : Tie) (bits : Nat) : (shortest tie bits).IsNormal :=
  isNormal_normal _ _

end Decimal
end Calculator
