import Mathlib
import Calculator.Proofs.ReadBack

/-! Doubles and their bits: a double is its sign with the bits of its magnitude, so the fewest
digits of a magnitude give it back. -/
namespace Calculator.Binary64

open Float.Model

theorem ofBits_magnitudeBits (x : Float) : ofBits (isNegative x) (magnitudeBits x) = x := by
  have hsign : signBit = 2 ^ 63 := rfl
  have hlt := x.toBits.toNat_lt
  have hbits : (if isNegative x then signBit + magnitudeBits x else magnitudeBits x)
      = x.toBits.toNat := by
    unfold isNegative magnitudeBits
    rw [hsign]
    split
    next h => have := of_decide_eq_true h; omega
    next h => have := of_decide_eq_false (Bool.eq_false_of_not_eq_true h); omega
  rw [ofBits, hbits, UInt64.ofNat_toNat, Float.ofBits_toBits]

theorem toNat_unpackExponent (b : BitVec 64) :
    (@UnpackedFloat.unpackExponent .binary64 b).toNat = b.toNat / 2 ^ 52 % 2 ^ 11 := by
  rw [UnpackedFloat.unpackExponent, BitVec.toNat_cast]
  simp [BitVec.extractLsb, Nat.shiftRight_eq_div_pow]

theorem toNat_unpackMantissa (b : BitVec 64) :
    (@UnpackedFloat.unpackMantissa .binary64 b).toNat = b.toNat % 2 ^ 52 := by
  rw [UnpackedFloat.unpackMantissa, BitVec.toNat_cast]
  simp [BitVec.extractLsb]

theorem isFinite_unpack (b : BitVec Format.binary64.numBits) :
    (UnpackedFloat.unpack .binary64 b).isFinite ↔
      (UnpackedFloat.unpackExponent b).toNat ≠ 2 ^ 11 - 1 := by
  have hiff : (UnpackedFloat.unpackExponent b).toNat ≠ 2 ^ 11 - 1 ↔
      UnpackedFloat.unpackExponent b ≠ -BitVec.ofNat Format.binary64.exponentBits 1 :=
    not_congr ⟨fun h => BitVec.eq_of_toNat_eq h, fun h => by rw [h]; rfl⟩
  rw [hiff, UnpackedFloat.unpack]
  split
  next htop => split <;> exact iff_of_false Bool.false_ne_true (not_not_intro htop)
  next htop =>
    split
    next => split <;> exact iff_of_true rfl htop
    next => exact iff_of_true rfl htop

/-- The finite doubles are those whose magnitude lies below infinity. -/
theorem isFinite_iff (x : Float) : x.isFinite ↔ magnitudeBits x < infinityBits := by
  have hlimit : infinityBits = 2047 * 2 ^ 52 := rfl
  have hsign : signBit = 2 ^ 63 := rfl
  rw [show x.isFinite = (UnpackedFloat.unpack .binary64 x.toBits.toBitVec).isFinite from rfl,
    isFinite_unpack, toNat_unpackExponent, UInt64.toNat_toBitVec, magnitudeBits, hlimit, hsign]
  omega

theorem isNaNBits_iff (b : BitVec 64) :
    @UnpackedFloat.isNaNBits .binary64 b ↔ infinityBits < b.toNat % signBit := by
  have hexponent : @UnpackedFloat.unpackExponent .binary64 b = -BitVec.ofNat 11 1 ↔
      b.toNat / 2 ^ 52 % 2 ^ 11 = 2047 := by
    rw [← toNat_unpackExponent]
    exact ⟨fun h => by rw [h]; rfl, fun h => BitVec.eq_of_toNat_eq h⟩
  have hmantissa : @UnpackedFloat.unpackMantissa .binary64 b = BitVec.ofNat 52 0 ↔
      b.toNat % 2 ^ 52 = 0 := by
    rw [← toNat_unpackMantissa]
    exact ⟨fun h => by rw [h]; rfl, fun h => BitVec.eq_of_toNat_eq h⟩
  have hlimit : infinityBits = 2047 * 2 ^ 52 := rfl
  have hsign : signBit = 2 ^ 63 := rfl
  rw [UnpackedFloat.isNaNBits, decide_eq_true_iff, hlimit, hsign]
  refine (and_congr hexponent (not_congr hmantissa)).trans ?_
  omega

theorem isNaN_unpack (b : BitVec 64) :
    (UnpackedFloat.unpack .binary64 b).isNaN ↔ @UnpackedFloat.isNaNBits .binary64 b := by
  rw [UnpackedFloat.isNaN_iff, UnpackedFloat.isNaNBits, decide_eq_true_iff, UnpackedFloat.unpack]
  split
  next htop =>
    split
    next hzero => exact iff_of_false (by simp) fun h => h.2 hzero
    next hne => exact iff_of_true rfl ⟨htop, hne⟩
  next htop =>
    refine iff_of_false ?_ fun h => htop h.1
    split
    next => split <;> simp
    next => simp

/-- No number is what lies above infinity. -/
theorem isNaN_iff (x : Float) : x.isNaN ↔ infinityBits < magnitudeBits x :=
  (isNaN_unpack x.toBits.toBitVec).trans (isNaNBits_iff x.toBits.toBitVec)

theorem isInf_iff (x : Float) : x.isInf ↔ magnitudeBits x = infinityBits := by
  have hunpacked (u : UnpackedFloat) : u.isInf ↔ ¬ u.isFinite ∧ ¬ u.isNaN := by
    cases u <;> simp [UnpackedFloat.isInf, UnpackedFloat.isFinite, UnpackedFloat.isNaN]
  have hx : x.isInf ↔ ¬ x.isFinite ∧ ¬ x.isNaN :=
    hunpacked (UnpackedFloat.unpack .binary64 x.toBits.toBitVec)
  rw [hx, isFinite_iff, isNaN_iff]
  omega

/-- The bits of a double are kept, but those of no number may be taken for others. -/
theorem toBits_floatOfBits {n : Nat} (hfits : n < 2 ^ 64) (h : n % signBit ≤ infinityBits) :
    (Float.ofBits (UInt64.ofNat n)).toBits.toNat = n := by
  have hn : (UInt64.ofNat n).toBitVec.toNat = n := by
    rw [UInt64.toNat_toBitVec, UInt64.toNat_ofNat', Nat.mod_eq_of_lt hfits]
  have hnumber : ¬ @UnpackedFloat.isNaNBits .binary64 (UInt64.ofNat n).toBitVec := by
    rw [isNaNBits_iff, hn]
    exact Nat.not_lt.mpr h
  have hpack := @UnpackedFloat.pack_unpack .binary64 (UInt64.ofNat n).toBitVec (by decide)
  rw [if_neg hnumber] at hpack
  exact (congrArg BitVec.toNat hpack).trans hn

theorem toBits_ofBits (negative : Bool) {bits : Nat} (h : bits ≤ infinityBits) :
    (ofBits negative bits).toBits.toNat = if negative then signBit + bits else bits := by
  have hlimit : infinityBits = 2047 * 2 ^ 52 := rfl
  have hsign : signBit = 2 ^ 63 := rfl
  refine toBits_floatOfBits ?_ ?_
  · split <;> omega
  · rw [hsign]
    split <;> omega

theorem isNegative_ofBits (negative : Bool) {bits : Nat} (h : bits ≤ infinityBits) :
    isNegative (ofBits negative bits) = negative := by
  have hlimit : infinityBits = 2047 * 2 ^ 52 := rfl
  have hsign : signBit = 2 ^ 63 := rfl
  rw [isNegative, toBits_ofBits negative h]
  cases negative
  · exact decide_eq_false (by simp; omega)
  · exact decide_eq_true (Nat.le_add_right ..)

theorem magnitudeBits_ofBits (negative : Bool) {bits : Nat} (h : bits ≤ infinityBits) :
    magnitudeBits (ofBits negative bits) = bits := by
  have hlimit : infinityBits = 2047 * 2 ^ 52 := rfl
  have hsign : signBit = 2 ^ 63 := rfl
  rw [magnitudeBits, toBits_ofBits negative h, hsign]
  split <;> omega

theorem isNegative_toFloat (negative : Bool) (d : Decimal) :
    isNegative (d.toFloat negative) = negative :=
  isNegative_ofBits negative d.nearestBits_le_infinityBits

theorem isNaN_toFloat (negative : Bool) (d : Decimal) : (d.toFloat negative).isNaN = false := by
  rw [Bool.eq_false_iff, ne_eq, isNaN_iff, Decimal.toFloat,
    magnitudeBits_ofBits negative d.nearestBits_le_infinityBits]
  exact Nat.not_lt.mpr d.nearestBits_le_infinityBits

/-- The fewest digits of a finite double, with its sign, read back to that double. -/
theorem toFloat_shortest (tie : Tie) {x : Float} (h : x.isFinite) :
    (Decimal.shortest tie (magnitudeBits x)).toFloat (isNegative x) = x := by
  rw [Decimal.toFloat, Decimal.nearestBits_shortest tie (Nat.le_of_lt ((isFinite_iff x).mp h)),
    ofBits_magnitudeBits]

end Calculator.Binary64
