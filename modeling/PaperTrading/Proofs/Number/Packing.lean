import Mathlib

/-!
# Signs of packed doubles

A double is computed from the parts of its operands, rounded, packed into bits and unpacked where it
is used next.  Neither rounding nor packing touches a sign or makes a number of what is none; and a
result that fills its digits loses nothing, unless it overflows.

* `sign?`: the sign of some parts, if they are a number.
* `sign?_repack`, `sign?_roundWithAccuracy`, `sign?_normalize`: signs under packing and rounding.
* `Full`: a mantissa that fills its digits; `roundWithAccuracy_full`, `roundWithAccuracy_multiple`,
  `repack_full`: what rounding and packing make of one.
* `Canonical`, `canonical_unpack`: **the parts that bits stand for.**
-/

namespace PaperTrading.Double

open Float.Model (Format UnpackedFloat totalExponent)
open Float.Model.UnpackedFloat

/-- What is left of some parts after they have been packed into bits. -/
def repack (u : UnpackedFloat) : UnpackedFloat := unpack .binary64 (pack .binary64 u)

/-- **The sign of a number;** what is no number has none. -/
def sign? : UnpackedFloat → Option Sign
  | .notANumber => none
  | .infinity s | .zero s | .finite s .. => some s

/-! ### Packing -/

/-- Packing keeps the sign of numbers, and makes no number of what is none. -/
theorem sign?_unpack_packComponents (s : Sign) (e : BitVec 11) (m : BitVec 52)
    (h : e = -1#11 → m = 0#52) :
    sign? (unpack .binary64 (packComponents .binary64 s e m)) = some s := by
  simp only [unpack, unpackMantissa_packComponents, unpackExponent_packComponents,
    unpackSign_packComponents, Sign.ofBitVec_toBitVec]
  split
  · next he => rw [if_pos (h he)]; rfl
  · split
    · split <;> rfl
    · rfl

theorem sign?_repack (u : UnpackedFloat) : sign? (repack u) = sign? u := by
  cases u with
  | notANumber => rfl
  | infinity s => exact sign?_unpack_packComponents s _ _ fun _ => rfl
  | zero s => exact sign?_unpack_packComponents s _ _ fun _ => rfl
  | finite s m e hm =>
    show sign? (unpack .binary64 (pack .binary64 (.finite s m e hm))) = some s
    simp only [pack]
    split
    · exact sign?_unpack_packComponents s _ _ fun _ => rfl
    · next hlow =>
      split
      · refine sign?_unpack_packComponents s _ _ fun he => ?_
        have hbits := congrArg BitVec.toNat he
        simp at hbits hlow
        omega
      · exact sign?_unpack_packComponents s _ _ fun he => absurd he (by decide)

/-- **A mantissa that fills its digits,** with an exponent that is not too small. -/
structure Full (m : Nat) (e : Int) : Prop where
  low : 2 ^ 52 ≤ m
  high : m < 2 ^ 53
  exponent : -1074 ≤ e

theorem Full.log2 {m : Nat} {e : Int} (h : Full m e) : m.log2 = 52 :=
  (Nat.log2_eq_iff (by have := h.low; omega)).mpr ⟨h.low, h.high⟩

theorem toNat_leading_one (v : BitVec 52) : (1#1 ++ v).toNat = 2 ^ 52 + v.toNat := by
  rw [BitVec.toNat_append, ← Nat.shiftLeft_add_eq_or_of_lt v.isLt, Nat.shiftLeft_eq]
  simp

/-- A number that fills its digits is packed without loss, unless it overflows. -/
theorem repack_full {s : Sign} {m : Nat} {e : Int} (hm : 0 < m) (h : Full m e) :
    repack (.finite s m e hm) = if 972 ≤ e then .infinity s else .finite s m e hm := by
  obtain ⟨hlow, hhigh, he⟩ := h
  have hlog := Full.log2 ⟨hlow, hhigh, he⟩
  have hbias : (e + Format.binary64.exponentBias +
      Format.binary64.mantissaBitsWithoutImplicit).toNat = (e + 1075).toNat := by
    show (e + 1023 + 52).toNat = _
    omega
  simp only [repack, pack, hlog, hbias]
  split
  · next hbig =>
    have hbig : 2 ^ 11 ≤ (e + 1075).toNat + 1 := hbig
    rw [if_pos (by omega)]
    cases s <;> rfl
  · next hfits =>
    have hfits : (e + 1075).toNat < 2047 := by
      have : ¬ 2 ^ 11 ≤ (e + 1075).toNat + 1 := hfits
      omega
    rw [if_pos (by decide), if_neg (by omega : ¬ 972 ≤ e)]
    simp only [unpack, unpackMantissa_packComponents, unpackExponent_packComponents,
      unpackSign_packComponents, Sign.ofBitVec_toBitVec]
    have hexp : (BitVec.ofNat 11 (e + 1075).toNat).toNat = (e + 1075).toNat := by
      rw [BitVec.toNat_ofNat]; omega
    have hmantissa : (1#1 ++ BitVec.ofNat 52 m).toNat = m := by
      rw [toNat_leading_one, BitVec.toNat_ofNat]; omega
    have hne : ∀ b : BitVec 11, b.toNat ≠ (e + 1075).toNat →
        BitVec.ofNat 11 (e + 1075).toNat ≠ b := by
      intro b hb heq
      rw [← heq] at hb
      exact hb hexp
    have hne0 : (0 : Nat) ≠ (e + 1075).toNat := by omega
    have hne1 : (2047 : Nat) ≠ (e + 1075).toNat := by omega
    rw [if_neg (hne (-1#11) hne1), if_neg (hne 0#11 hne0)]
    simp only [UnpackedFloat.finite.injEq, true_and]
    refine ⟨hmantissa, ?_⟩
    rw [hexp]
    show ((e + 1075).toNat : Int) - (1023 + 52) = e
    omega

/-! ### Rounding -/

theorem sign?_roundWithAccuracy (s : Sign) (m : Nat) (e : Int) (a : Accuracy) :
    sign? (roundWithAccuracy .binary64 s m e a) = some s := by
  simp only [roundWithAccuracy]
  split <;> rfl

theorem sign?_round (s : Sign) (m : Nat) (e : Int) :
    sign? (UnpackedFloat.round .binary64 s m e) = some s :=
  sign?_roundWithAccuracy s _ _ _

/-- A number that is not below zero is rounded to one with the positive sign. -/
theorem sign?_normalize {m : Int} (h : 0 ≤ m) (e : Int) :
    sign? (UnpackedFloat.normalize .binary64 m e .positive) = some .positive := by
  unfold UnpackedFloat.normalize
  split
  · next hlt =>
    have := Int.compare_eq_lt.mp hlt
    omega
  · rfl
  · exact sign?_round .positive _ _

theorem shiftRight_mantissa (em : ExtendedMantissa) (n : Nat) :
    (em >>> n).mantissa = em.mantissa / 2 ^ n := by
  induction n with
  | zero => exact (Nat.div_one _).symm
  | succ n ih =>
    show (em >>> n).mantissa / 2 = _
    rw [ih, Nat.div_div_eq_div_mul, Nat.pow_succ]

theorem roundedMantissa_bounds (em : ExtendedMantissa) :
    em.mantissa ≤ em.roundedMantissa ∧ em.roundedMantissa ≤ em.mantissa + 1 := by
  obtain ⟨m, r, s⟩ := em
  cases r <;> cases s <;>
    simp only [ExtendedMantissa.roundedMantissa, ExtendedMantissa.accuracy,
      Accuracy.roundToNearestEven] <;> omega

theorem mantissa_ofMantissaAndAccuracy (m : Nat) (a : Accuracy) :
    (ExtendedMantissa.ofMantissaAndAccuracy m a).mantissa = m := by
  cases a with
  | exact => rfl
  | inexact o => cases o <;> rfl

theorem targetExponent_eq (m : Nat) (e : Int) :
    Format.binary64.targetExponent (totalExponent m e) = max (m.log2 + e - 52) (-1074) := by
  show max ((m.log2 : Int) + 1 + e - 53) (-1074) = _
  omega

/-- A shift to the target exponent, for a mantissa that has at least all its digits. -/
theorem shiftToTargetExponent_eq {m : Nat} {e : Int} (a : Accuracy) {k : Nat}
    (hk : m.log2 = 52 + k) (he : -1074 ≤ e + k) :
    shiftToTargetExponent .binary64 m e a =
      (ExtendedMantissa.ofMantissaAndAccuracy m a >>> k, e + k) := by
  have hshift : (max ((m.log2 : Int) + e - 52) (-1074) - e).toNat = k := by omega
  simp only [shiftToTargetExponent, shiftToExponent, targetExponent_eq, hshift]

/-- The digits that a long mantissa keeps fill all places. -/
theorem kept_digits {m k : Nat} (hk : m.log2 = 52 + k) :
    2 ^ 52 ≤ m / 2 ^ k ∧ m / 2 ^ k < 2 ^ 53 := by
  have hm : m ≠ 0 := by
    rintro rfl
    rw [Nat.log2_zero] at hk
    omega
  obtain ⟨hlow, hhigh⟩ := (Nat.log2_eq_iff hm).mp hk
  have hpow : 0 < 2 ^ k := Nat.two_pow_pos k
  constructor
  · rw [Nat.le_div_iff_mul_le hpow, ← Nat.pow_add]
    exact hlow
  · rw [Nat.div_lt_iff_lt_mul hpow, ← Nat.pow_add]
    have hexp : 53 + k = 52 + k + 1 := by omega
    rw [hexp]
    exact hhigh

/-- A mantissa that rounding may have carried over, shifted back into its places. -/
theorem exists_carry {r : Nat} (hlow : 2 ^ 52 ≤ r) (hhigh : r ≤ 2 ^ 53) {e : Int}
    (he : -1074 ≤ e) : ∃ j : Nat, r.log2 = 52 + j ∧ Full (r / 2 ^ j) (e + j) := by
  have hr : r ≠ 0 := by omega
  rcases Nat.lt_or_eq_of_le hhigh with hlt | rfl
  · refine ⟨0, (Nat.log2_eq_iff hr).mpr ⟨hlow, hlt⟩, ?_, ?_, by omega⟩ <;>
      rw [Nat.pow_zero, Nat.div_one] <;> assumption
  · exact ⟨1, Nat.log2_two_pow, by decide, by decide, by omega⟩

/-- **A mantissa that has at least all its digits** is rounded to one that fills them, and the number
does not lose a place in front. -/
theorem roundWithAccuracy_full (s : Sign) {m : Nat} {e : Int} (a : Accuracy)
    (hm : 52 ≤ m.log2) (he : -1022 ≤ e + m.log2) :
    ∃ m' e' h, roundWithAccuracy .binary64 s m e a = .finite s m' e' h ∧ Full m' e' ∧
      e + m.log2 ≤ e' + 52 := by
  obtain ⟨k, hk⟩ := Nat.exists_eq_add_of_le hm
  have he : -1074 ≤ e + k := by omega
  obtain ⟨hlow, hhigh⟩ := kept_digits hk
  have hround := roundedMantissa_bounds (ExtendedMantissa.ofMantissaAndAccuracy m a >>> k)
  rw [shiftRight_mantissa, mantissa_ofMantissaAndAccuracy] at hround
  obtain ⟨j, hj, hfull⟩ := exists_carry (Nat.le_trans hlow hround.1) (by omega) he
  refine ⟨_, _, by have := hfull.low; omega, ?_, hfull, by omega⟩
  have hcarry : ∀ r : Nat, (ExtendedMantissa.ofMantissaAndAccuracy r .exact >>> j).mantissa =
      r / 2 ^ j := by
    intro r
    rw [shiftRight_mantissa, mantissa_ofMantissaAndAccuracy]
  simp only [roundWithAccuracy, shiftToTargetExponent_eq a hk he,
    shiftToTargetExponent_eq .exact hj hfull.exponent, hcarry]
  rw [dif_neg (by have := hfull.low; omega)]

theorem decreaseExponent_eq (m : Nat) (e target : Int) : decreaseExponent m e target =
    (m * 2 ^ (e - target).toNat, e - (e - target).toNat) := by
  rw [decreaseExponent, Nat.shiftLeft_eq]

theorem log2_scaled {m : Nat} (hm : 0 < m) (j : Nat) : (m * 2 ^ j).log2 = m.log2 + j := by
  have hpow : 0 < 2 ^ j := Nat.two_pow_pos j
  have hne : m * 2 ^ j ≠ 0 := Nat.mul_ne_zero (by omega) (by omega)
  obtain ⟨hlow, hhigh⟩ := (Nat.log2_eq_iff (by omega : m ≠ 0)).mp rfl
  refine (Nat.log2_eq_iff hne).mpr ⟨?_, ?_⟩
  · rw [Nat.pow_add]
    exact Nat.mul_le_mul_right _ hlow
  · have hexp : m.log2 + j + 1 = m.log2 + 1 + j := by omega
    rw [hexp, Nat.pow_add]
    exact Nat.mul_lt_mul_of_pos_right hhigh hpow

/-- A shift that drops only zeros. -/
theorem shiftRight_multiple (m k : Nat) :
    (⟨m * 2 ^ k, false, false⟩ : ExtendedMantissa) >>> k = ⟨m, false, false⟩ := by
  induction k generalizing m with
  | zero => rw [Nat.pow_zero, Nat.mul_one]; rfl
  | succ k ih =>
    have hpow : m * 2 ^ (k + 1) = m * 2 * 2 ^ k := by rw [Nat.pow_succ]; ring
    rw [hpow]
    show ((⟨m * 2 * 2 ^ k, false, false⟩ : ExtendedMantissa) >>> k).shiftRightOne = _
    rw [ih]
    simp [ExtendedMantissa.shiftRightOne]

/-- **A number that fills its digits, with zeros behind them,** is not rounded. -/
theorem roundWithAccuracy_multiple (s : Sign) {m k : Nat} {e : Int} (hm : 0 < m)
    (h : Full m (e + k)) :
    roundWithAccuracy .binary64 s (m * 2 ^ k) e .exact = .finite s m (e + k) hm := by
  have hlog : (m * 2 ^ k).log2 = 52 + k := by rw [log2_scaled hm, h.log2]
  have hstay : m.log2 = 52 + 0 := h.log2
  have hround : (ExtendedMantissa.ofMantissaAndAccuracy (m * 2 ^ k) .exact >>> k).roundedMantissa =
      m := by
    show ((⟨m * 2 ^ k, false, false⟩ : ExtendedMantissa) >>> k).roundedMantissa = m
    rw [shiftRight_multiple]
    rfl
  have hlast : (ExtendedMantissa.ofMantissaAndAccuracy m .exact >>> 0).mantissa = m := rfl
  have hagain := shiftToTargetExponent_eq .exact hstay (e := e + k) (by have := h.exponent; omega)
  simp only [roundWithAccuracy, shiftToTargetExponent_eq .exact hlog h.exponent, hround, hagain,
    hlast]
  rw [dif_neg (by omega)]
  simp

/-! ### Unpacked doubles -/

/-- **The parts that bits stand for:** a mantissa fits its digits, and fills them unless the
exponent is the smallest. -/
def Canonical : UnpackedFloat → Prop
  | .finite _ m e _ => m < 2 ^ 53 ∧ -1074 ≤ e ∧ (-1074 < e → 2 ^ 52 ≤ m)
  | _ => True

theorem canonical_unpack (b : BitVec Format.binary64.numBits) :
    Canonical (unpack .binary64 b) := by
  have hmantissa : (unpackMantissa b : BitVec 52).toNat < 2 ^ 52 := (unpackMantissa b).isLt
  have hbias : (Format.binary64.exponentBias : Int) = 1023 := rfl
  have hwidth : (Format.binary64.mantissaBitsWithoutImplicit : Int) = 52 := rfl
  simp only [unpack]
  split
  · split <;> exact trivial
  · split
    · next hzero =>
      split
      · exact trivial
      · have hexp : (unpackExponent b).toNat = 0 := by rw [hzero]; rfl
        refine ⟨by omega, by omega, by omega⟩
    · next hzero =>
      have hexp : (unpackExponent b).toNat ≠ 0 := fun h => hzero (BitVec.eq_of_toNat_eq h)
      have hone := toNat_leading_one (unpackMantissa b)
      refine ⟨by omega, by omega, by omega⟩

end PaperTrading.Double
