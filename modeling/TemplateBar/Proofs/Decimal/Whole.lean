import Mathlib
import TemplateBar.Decimal.Basic

/-!
# Whole numbers as doubles

Every whole number of fewer than 54 binary digits is a double exactly: its double is the normal
number whose mantissa is the whole number moved up to 53 digits. So the double of the whole
number that is read from a double is that double again, up to the sign of zero.
-/
namespace TemplateBar

open Float.Model (Format UnpackedFloat totalExponent)
open Float.Model.UnpackedFloat

/-! ## Rounding changes nothing -/

theorem log2_mul_pow (m k : Nat) (h : m ≠ 0) : (m * 2 ^ k).log2 = m.log2 + k := by
  rw [Nat.log2_eq_iff (by positivity)]
  have bounds := (Nat.log2_eq_iff h).mp rfl
  constructor
  · calc 2 ^ (m.log2 + k) = 2 ^ m.log2 * 2 ^ k := by ring
      _ ≤ m * 2 ^ k := Nat.mul_le_mul_right _ bounds.1
  · calc m * 2 ^ k < 2 ^ (m.log2 + 1) * 2 ^ k :=
          Nat.mul_lt_mul_of_pos_right bounds.2 (by positivity)
      _ = 2 ^ (m.log2 + k + 1) := by ring

theorem log2_eq_52 {m : Nat} : m.log2 = 52 ↔ 2 ^ 52 ≤ m ∧ m < 2 ^ 53 := by
  rcases eq_or_ne m 0 with rfl | h
  · simp
  · rw [Nat.log2_eq_iff h]

theorem shiftRight_exact (m k : Nat) :
    ExtendedMantissa.mk (m * 2 ^ k) false false >>> k = ⟨m, false, false⟩ := by
  change k.repeat ExtendedMantissa.shiftRightOne _ = _
  induction k generalizing m with
  | zero => simp [Nat.repeat]
  | succ k ih =>
    have shifted : m * 2 ^ (k + 1) = m * 2 * 2 ^ k := by ring
    rw [Nat.repeat, shifted, ih]
    simp [ExtendedMantissa.shiftRightOne]

section Normal

variable {m : Nat} {e : Int} (hm : m.log2 = 52) (low : -1074 ≤ e)
include hm low

theorem targetExponent_normal (k : Nat) :
    Format.binary64.targetExponent (totalExponent (m * 2 ^ k) (e - k)) = e := by
  have nonzero : m ≠ 0 := by rintro rfl; simp at hm
  have log := log2_mul_pow m k nonzero
  simp only [Format.targetExponent, totalExponent, log, hm, Format.mantissaBits,
    Format.minExponent]
  omega

theorem shiftToTargetExponent_normal (k : Nat) :
    shiftToTargetExponent .binary64 (m * 2 ^ k) (e - k) .exact = (⟨m, false, false⟩, e) := by
  have amount : (e - (e - k)).toNat = k := by omega
  simp only [shiftToTargetExponent, shiftToExponent, targetExponent_normal hm low, amount,
    ExtendedMantissa.ofMantissaAndAccuracy, shiftRight_exact]
  simp

/-- Digits beyond the mantissa that are all zero are dropped. -/
theorem roundWithAccuracy_normal (pos : 0 < m) (s : Sign) (k : Nat) :
    roundWithAccuracy .binary64 s (m * 2 ^ k) (e - k) .exact = .finite s m e pos := by
  have again := shiftToTargetExponent_normal hm low 0
  rw [pow_zero, mul_one, Nat.cast_zero, sub_zero] at again
  have rounded : (ExtendedMantissa.mk m false false).roundedMantissa = m := rfl
  simp only [roundWithAccuracy, shiftToTargetExponent_normal hm low, rounded, again]
  simp [pos.ne']

end Normal

/-! ## Packing a normal number and unpacking it -/

theorem toNat_append {j k : Nat} (a : BitVec j) (b : BitVec k) :
    (a ++ b).toNat = a.toNat * 2 ^ k + b.toNat := by
  rw [BitVec.toNat_append, ← Nat.shiftLeft_add_eq_or_of_lt b.isLt, Nat.shiftLeft_eq]

theorem toNat_packComponents (s : Sign) (e : BitVec 11) (m : BitVec 52) :
    (packComponents .binary64 s e m).toNat =
      s.toBitVec.toNat * 2 ^ 63 + e.toNat * 2 ^ 52 + m.toNat := by
  change (s.toBitVec ++ e ++ m).toNat = _
  rw [toNat_append, toNat_append]
  ring

section Normal

variable {m : Nat} {e : Int} (hm : m.log2 = 52) (low : -1074 ≤ e) (high : e ≤ 971)
include hm low high

theorem pack_normal (pos : 0 < m) (s : Sign) :
    pack .binary64 (.finite s m e pos) =
      packComponents .binary64 s (BitVec.ofNat 11 (e + 1075).toNat) (BitVec.ofNat 52 m) := by
  have biased : e + (Format.binary64.exponentBias : Int) + 52 = e + 1075 := by
    simp [Format.exponentBias]
    omega
  have small : ¬ 2 ^ 11 ≤ (e + 1075).toNat + 1 := by omega
  simp only [pack, hm, Nat.cast_ofNat, biased, small, if_false, Format.mantissaBits]
  simp

theorem unpack_pack_normal (pos : 0 < m) (s : Sign) :
    unpack .binary64 (pack .binary64 (.finite s m e pos)) = .finite s m e pos := by
  have bounds := log2_eq_52.mp hm
  have read : (BitVec.ofNat 11 (e + 1075).toNat).toNat = (e + 1075).toNat := by
    rw [BitVec.toNat_ofNat, Nat.mod_eq_of_lt (by omega)]
  have notTop : BitVec.ofNat 11 (e + 1075).toNat ≠ -1#_ := by
    rw [Ne, ← BitVec.toNat_inj, read]
    simp
    omega
  have notZero : BitVec.ofNat 11 (e + 1075).toNat ≠ 0#_ := by
    rw [Ne, ← BitVec.toNat_inj, read]
    simp
    omega
  -- the leading digit is the one that is not stored
  have mantissa : (1#1 ++ BitVec.ofNat 52 m).toNat = m := by
    rw [toNat_append, BitVec.toNat_ofNat]
    simp
    omega
  have exponent : ((e + 1075).toNat : Int) - ((Format.binary64.exponentBias : Int) + 52) = e := by
    simp [Format.exponentBias]
    omega
  rw [pack_normal hm low high]
  simp only [unpack, unpackSign_packComponents, unpackExponent_packComponents,
    unpackMantissa_packComponents, Sign.ofBitVec_toBitVec, notTop, notZero, if_false, read, mantissa,
    Nat.cast_ofNat, exponent]

end Normal

/-! ## The double of a whole number -/

/-- A whole number as a normal double: moved up until it has 53 binary digits. -/
def unpackedWhole (s : Sign) (n : Nat) (pos : 0 < n) : UnpackedFloat :=
  .finite s (n * 2 ^ (52 - n.log2)) ((n.log2 : Int) - 52) (by positivity)

section Whole

variable {n : Nat} (pos : 0 < n) (small : n < 2 ^ 53)
include pos small

theorem log2_le_of_small : n.log2 ≤ 52 :=
  Nat.le_of_lt_succ ((Nat.log2_lt pos.ne').mpr small)

theorem log2_moved_up : (n * 2 ^ (52 - n.log2)).log2 = 52 := by
  have log := log2_le_of_small pos small
  rw [log2_mul_pow n _ pos.ne']
  omega

theorem unpack_pack_whole (s : Sign) :
    unpack .binary64 (pack .binary64 (unpackedWhole s n pos)) = unpackedWhole s n pos := by
  have log := log2_le_of_small pos small
  exact unpack_pack_normal (log2_moved_up pos small) (by omega) (by omega) _ s

theorem round_whole (s : Sign) : UnpackedFloat.round .binary64 s n 0 = unpackedWhole s n pos := by
  have log := log2_le_of_small pos small
  have target : Format.binary64.targetExponent (totalExponent n 0) = (n.log2 : Int) - 52 := by
    simp only [Format.targetExponent, totalExponent, Format.mantissaBits, Format.minExponent]
    omega
  have down : (0 - ((n.log2 : Int) - 52)).toNat = 52 - n.log2 := by omega
  have decreased : (0 : Int) - ((52 - n.log2 : Nat) : Int) = (n.log2 : Int) - 52 := by omega
  simp only [UnpackedFloat.round, target, decreaseExponent, down, decreased, Nat.shiftLeft_eq]
  have rounded := roundWithAccuracy_normal (log2_moved_up pos small)
    (by omega : -1074 ≤ (n.log2 : Int) - 52) (by positivity) s 0
  rwa [pow_zero, mul_one, Nat.cast_zero, sub_zero] at rounded

theorem unpack_toFloat_toUInt64 :
    n.toUInt64.toFloat.toModel.unpack = unpackedWhole .positive n pos := by
  have read : n.toUInt64.toNat = n := by
    simp
    omega
  have sign : compare (n : Int) 0 = .gt := by
    rw [compare_gt_iff_gt]
    omega
  change unpack .binary64
    (pack .binary64 (UnpackedFloat.normalize .binary64 (n.toUInt64.toNat : Int) 0 .positive)) = _
  rw [read]
  simp only [UnpackedFloat.normalize, sign, Int.toNat_natCast, round_whole pos small]
  exact unpack_pack_whole pos small .positive

/-- The double of a natural number is a product with one, which is exact. -/
theorem toModel_ofNat : (Float.ofNat n).toModel = .pack (unpackedWhole .positive n pos) := by
  have log := log2_le_of_small pos small
  have unit : (getElem Float.exactlyRepresentablePowersOfTen 0 (by decide)).toModel.unpack =
      .finite .positive (2 ^ 52) (-52) (by decide) := rfl
  have product : mul .binary64 (unpackedWhole .positive n pos)
      (.finite .positive (2 ^ 52) (-52) (by decide)) = unpackedWhole .positive n pos :=
    roundWithAccuracy_normal (log2_moved_up pos small) (by omega) (by positivity) .positive 52
  have unfolded : Float.ofNat n =
      n.toUInt64.toFloat * getElem Float.exactlyRepresentablePowersOfTen 0 (by decide) :=
    dif_pos ⟨small, by decide⟩
  rw [unfolded]
  change Float.Model.pack (mul .binary64 _ _) = _
  rw [unpack_toFloat_toUInt64 pos small, unit, product]

end Whole

/-- The sign that a whole number other than zero is written with. -/
def signOf (i : Int) : Sign := if i < 0 then .negative else .positive

section Signed

variable {i : Int} (nonzero : i ≠ 0) (small : i.natAbs < 2 ^ 53)
include nonzero small

theorem toModel_ofInt : (Float.ofInt i).toModel =
    .pack (unpackedWhole (signOf i) i.natAbs (Int.natAbs_pos.mpr nonzero)) := by
  obtain ⟨n, rfl | rfl⟩ := i.eq_nat_or_neg
  · have pos : 0 < n := by omega
    have sign : signOf n = .positive := if_neg (by omega)
    simp only [Int.natAbs_natCast, sign] at small ⊢
    exact toModel_ofNat pos small
  · obtain ⟨m, rfl⟩ : ∃ m, n = m + 1 := ⟨n - 1, by omega⟩
    have pos : 0 < m + 1 := by omega
    have sign : signOf (-((m + 1 : Nat) : Int)) = .negative := if_pos (by omega)
    simp only [Int.natAbs_neg, Int.natAbs_natCast, sign] at small ⊢
    change Float.Model.pack (neg (Float.ofNat (m + 1)).toModel.unpack) = _
    rw [toModel_ofNat pos small]
    change Float.Model.pack (neg (unpack .binary64 (pack .binary64 _))) = _
    rw [unpack_pack_whole pos small]
    rfl

/-- The bits of the double of a whole number other than zero. -/
theorem toBits_ofInt : (Float.ofInt i).toBits.toNat = (if i < 0 then 2 ^ 63 else 0) +
    (i.natAbs.log2 + 1023) * 2 ^ 52 + (i.natAbs * 2 ^ (52 - i.natAbs.log2) - 2 ^ 52) := by
  have pos : 0 < i.natAbs := Int.natAbs_pos.mpr nonzero
  have log := log2_le_of_small pos small
  have bounds := log2_eq_52.mp (log2_moved_up pos small)
  have exponent : ((i.natAbs.log2 : Int) - 52 + 1075).toNat = i.natAbs.log2 + 1023 := by omega
  change (Float.ofInt i).toModel.toBits.toNat = _
  rw [toModel_ofInt nonzero small]
  change (pack .binary64 (unpackedWhole (signOf i) i.natAbs pos)).toNat = _
  rw [unpackedWhole, pack_normal (log2_moved_up pos small) (by omega) (by omega), exponent,
    toNat_packComponents, BitVec.toNat_ofNat, BitVec.toNat_ofNat,
    Nat.mod_eq_of_lt (by omega : i.natAbs.log2 + 1023 < 2 ^ 11), signOf]
  split <;> simp [Sign.toBitVec] <;> omega

end Signed

/-! ## Reading a whole number from a double -/

theorem Binary.toFraction_below_one {b : Binary} (exponent : b.exponent ≤ -52)
    (mantissa : b.mantissa < 2 ^ 52) :
    b.toFraction.1 = b.mantissa ∧ b.toFraction.1 < b.toFraction.2 := by
  have unit : b.toFraction.1 = b.mantissa := by
    have shift : b.exponent.toNat = 0 := by omega
    simp only [Binary.toFraction, shift, Nat.pow_eq, pow_zero, mul_one]
  have wide : 2 ^ 52 ≤ b.toFraction.2 := Nat.pow_le_pow_right (by omega) (by omega)
  exact ⟨unit, by omega⟩

theorem toFraction_subnormal {x : Float} (h : x.toBits.toNat / 2 ^ 52 % 2 ^ 11 = 0) :
    (Binary.ofFloat x).toFraction.1 = x.toBits.toNat % 2 ^ 52 ∧
      (Binary.ofFloat x).toFraction.1 < (Binary.ofFloat x).toFraction.2 := by
  have fields : Binary.ofFloat x = ⟨x.toBits.toNat % 2 ^ 52, -1074, false⟩ := if_pos h
  have mantissa : (Binary.ofFloat x).mantissa < 2 ^ 52 := by
    rw [fields]
    exact Nat.mod_lt _ (by omega)
  obtain ⟨unit, below⟩ := Binary.toFraction_below_one (by simp [fields]) mantissa
  exact ⟨unit.trans (by rw [fields]), below⟩

theorem toFraction_normal {x : Float} (h : x.toBits.toNat / 2 ^ 52 % 2 ^ 11 ≠ 0) :
    (Binary.ofFloat x).toFraction =
      ((2 ^ 52 + x.toBits.toNat % 2 ^ 52) * 2 ^ (x.toBits.toNat / 2 ^ 52 % 2 ^ 11 - 1075),
        2 ^ (1075 - x.toBits.toNat / 2 ^ 52 % 2 ^ 11)) := by
  have nonzero : x.toBits.toNat / 0x10000000000000 % 0x800 ≠ 0 := h
  have up : ((x.toBits.toNat / 0x10000000000000 % 0x800 : Nat) - 1075 : Int).toNat =
      x.toBits.toNat / 2 ^ 52 % 2 ^ 11 - 1075 := by omega
  have down : (-((x.toBits.toNat / 0x10000000000000 % 0x800 : Nat) - 1075 : Int)).toNat =
      1075 - x.toBits.toNat / 2 ^ 52 % 2 ^ 11 := by omega
  simp only [Binary.ofFloat, nonzero, if_false, Binary.toFraction, Nat.pow_eq]
  rw [up, down, show 0x10000000000000 = 2 ^ 52 from rfl]

theorem isNegative_iff {x : Float} : isNegative x = true ↔ 2 ^ 63 ≤ x.toBits.toNat := by
  simp [isNegative, UInt64.le_iff_toNat_le]

theorem wholeNumber?_eq_some {x : Float} {i : Int} (h : wholeNumber? x = some i) :
    (Binary.ofFloat x).toFraction.1 = i.natAbs * (Binary.ofFloat x).toFraction.2 ∧
      (i ≠ 0 → (i < 0 ↔ 2 ^ 63 ≤ x.toBits.toNat)) := by
  simp only [wholeNumber?] at h
  split at h
  case isFalse => simp at h
  split at h
  case isFalse => simp at h
  case isTrue divides =>
    generalize quotient : (Binary.ofFloat x).toFraction.1 / (Binary.ofFloat x).toFraction.2 = q at h
    have whole : (Binary.ofFloat x).toFraction.1 = q * (Binary.ofFloat x).toFraction.2 := by
      rw [← quotient, Nat.div_mul_cancel (Nat.dvd_of_mod_eq_zero divides)]
    rw [whole, ← isNegative_iff]
    simp only [Option.some.injEq] at h
    split at h
    case isTrue negative =>
      obtain rfl : q = i.natAbs := by omega
      exact ⟨rfl, fun nonzero => by simp only [negative, iff_true]; omega⟩
    case isFalse positive =>
      obtain rfl : q = i.natAbs := by omega
      exact ⟨rfl, fun _ => by simp [positive]; omega⟩

/-- A double that is a whole number below `2 ^ 53` other than zero is a normal number, and its
exponent counts the binary digits of the whole number. -/
theorem toBits_of_wholeNumber? {x : Float} {i : Int} (h : wholeNumber? x = some i) (nonzero : i ≠ 0)
    (small : i.natAbs < 2 ^ 53) :
    x.toBits.toNat = (if i < 0 then 2 ^ 63 else 0) +
      (i.natAbs.log2 + 1023) * 2 ^ 52 + (i.natAbs * 2 ^ (52 - i.natAbs.log2) - 2 ^ 52) := by
  obtain ⟨value, sign⟩ := wholeNumber?_eq_some h
  replace sign := sign nonzero
  have pos : 0 < i.natAbs := Int.natAbs_pos.mpr nonzero
  have word : x.toBits.toNat < 2 ^ 64 := x.toBits.toNat_lt
  by_cases exponent : x.toBits.toNat / 2 ^ 52 % 2 ^ 11 = 0
  · have below := (toFraction_subnormal exponent).2
    have large := Nat.le_mul_of_pos_left (Binary.ofFloat x).toFraction.2 pos
    omega
  · rw [toFraction_normal exponent] at value
    generalize fields : x.toBits.toNat / 2 ^ 52 % 2 ^ 11 = e at *
    generalize rest : x.toBits.toNat % 2 ^ 52 = f at *
    -- a larger exponent would give a whole number of more than 53 digits
    have low : e - 1075 = 0 := by
      by_contra above
      have two : 2 ^ 1 ≤ 2 ^ (e - 1075) := Nat.pow_le_pow_right (by omega) (by omega)
      have unit : 1075 - e = 0 := by omega
      have double : (2 ^ 52 + f) * 2 ≤ (2 ^ 52 + f) * 2 ^ (e - 1075) :=
        Nat.mul_le_mul_left _ (by omega)
      rw [unit, pow_zero, mul_one] at value
      omega
    rw [low, pow_zero, mul_one] at value
    have log := log2_mul_pow i.natAbs (1075 - e) pos.ne'
    rw [← value, log2_eq_52.mpr (by omega)] at log
    have shift : 52 - i.natAbs.log2 = 1075 - e := by omega
    rw [shift, ← value]
    split <;> omega

/-- Whole numbers below `2 ^ 53` other than zero have one double each. -/
theorem ofInt_of_wholeNumber? {x : Float} {i : Int} (h : wholeNumber? x = some i) (nonzero : i ≠ 0)
    (small : i.natAbs < 2 ^ 53) : Float.ofInt i = x := by
  rw [← Float.toBits_inj, ← UInt64.toNat_inj, toBits_ofInt nonzero small,
    toBits_of_wholeNumber? h nonzero small]

theorem unpack_of_wholeNumber?_zero {x : Float} (h : wholeNumber? x = some 0) :
    ∃ s, x.toModel.unpack = .zero s := by
  obtain ⟨value, -⟩ := wholeNumber?_eq_some h
  rw [Int.natAbs_zero, Nat.zero_mul] at value
  have exponent : x.toBits.toNat / 2 ^ 52 % 2 ^ 11 = 0 := by
    by_contra normal
    have digits : 0 < 2 ^ 52 + x.toBits.toNat % 2 ^ 52 := by omega
    rw [toFraction_normal normal] at value
    exact (Nat.mul_pos digits (Nat.two_pow_pos _)).ne' value
  have mantissa : x.toBits.toNat % 2 ^ 52 = 0 :=
    (toFraction_subnormal exponent).1.symm.trans value
  have noExponent : @unpackExponent .binary64 x.toModel.toBits.toBitVec = 0#11 := by
    apply BitVec.eq_of_toNat_eq
    change x.toModel.toBits.toNat / _ % _ = 0 at exponent
    simpa [unpackExponent, Nat.shiftRight_eq_div_pow] using exponent
  have noMantissa : @unpackMantissa .binary64 x.toModel.toBits.toBitVec = 0#52 := by
    apply BitVec.eq_of_toNat_eq
    change x.toModel.toBits.toNat % _ = 0 at mantissa
    simpa [unpackMantissa] using mantissa
  exact ⟨_, by simp [Float.Model.unpack, unpack, noExponent, noMantissa]; rfl⟩

/-! ## From a double to its whole number and back -/

/-- A finite double equals itself as a number. -/
theorem beq_self_of_isFinite {x : Float} (h : x.isFinite = true) : (x == x) = true := by
  rw [Float.beq_self_iff]
  rintro rfl
  exact absurd h (by decide)

theorem isFinite_of_wholeNumber? {x : Float} {i : Int} (h : wholeNumber? x = some i) :
    x.isFinite = true := by
  by_contra infinite
  simp [wholeNumber?, infinite] at h

section Back

variable {x : Float} {i : Int} (h : wholeNumber? x = some i) (small : i.natAbs < 2 ^ 53)
include h small

theorem wholeNumber?_ofInt : wholeNumber? (Float.ofInt i) = some i := by
  rcases eq_or_ne i 0 with rfl | nonzero
  · decide +kernel
  · rw [ofInt_of_wholeNumber? h nonzero small, h]

theorem ofInt_beq : (Float.ofInt i == x) = true := by
  rcases eq_or_ne i 0 with rfl | nonzero
  · obtain ⟨s, unpacked⟩ := unpack_of_wholeNumber?_zero h
    change ((Float.ofInt 0).toModel.unpack.compare x.toModel.unpack == some .eq) = true
    rw [unpacked]
    rfl
  · rw [ofInt_of_wholeNumber? h nonzero small]
    exact beq_self_of_isFinite (isFinite_of_wholeNumber? h)

end Back

end TemplateBar
