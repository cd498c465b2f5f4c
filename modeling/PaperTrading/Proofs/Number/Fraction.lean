import PaperTrading.Proofs.Number.Nearest

/-!
# Doubles as fractions

A finite double is a fraction, and its integer part is that of the fraction.  The fraction can be read
off the bits as well as off the parts with which doubles are computed.

* `Binary64.fraction?`, `Double.fraction?`: the fraction that a double is, if it is finite.
* `Binary64.floor_eq`: the largest integer that is not above a double.
* `fraction?_eq`: **bits and parts stand for the same fraction.**
* `fraction?_of_isExactly`, `one_le_fraction`: exact doubles, and those that are at least one.
* `truncated_ok`, `truncated_eq`: the integer part of a double.
-/

namespace PaperTrading

/-! ### Bits -/

namespace Binary64

/-- **The fraction that a finite double is.**  The special values are none. -/
def fraction? : Binary64 → Option Rat
  | .finite negative m q _ => some (if negative then -(m * 2 ^ q) else m * 2 ^ q)
  | _ => none

/-- A multiple of a power of two as a fraction of natural numbers. -/
theorem fraction_eq (m : Nat) (q : Int) :
    ((fraction m q).1 : Rat) / (fraction m q).2 = m * 2 ^ q := by
  have hexp : q = (q.toNat : Int) - ((-q).toNat : Int) := by omega
  have hpow : (2 : Rat) ^ q = 2 ^ q.toNat / 2 ^ (-q).toNat := by
    conv_lhs => rw [hexp]
    rw [zpow_sub₀ two_ne_zero, zpow_natCast, zpow_natCast]
  show ((m * Nat.pow 2 q.toNat : Nat) : Rat) / (Nat.pow 2 (-q).toNat : Nat) = _
  rw [hpow, Nat.pow_eq, Nat.pow_eq]
  push_cast
  ring

/-- **The largest integer that is not above a finite double.** -/
theorem floor_eq {b : Binary64} {v : Rat} (h : b.fraction? = some v) : b.floor = ⌊v⌋ := by
  cases b with
  | infinity | nan => cases h
  | finite negative m q narrow =>
    have hsize := fraction_eq m q
    have hden : (0 : Int) ≤ (fraction m q).2 := Int.natCast_nonneg _
    cases h
    show (if negative then -((fraction m q).1 : Int) else (fraction m q).1).fdiv (fraction m q).2 = _
    rw [Int.fdiv_eq_ediv_of_nonneg _ hden, ← Rat.floor_intCast_div_natCast]
    cases negative with
    | false =>
      simp only [Bool.false_eq_true, if_false]
      rw [← hsize]
      push_cast
      rfl
    | true =>
      simp only [if_true]
      rw [← hsize, ← neg_div]
      push_cast
      rfl

end Binary64

namespace Double

open Float.Model (Format UnpackedFloat)
open Float.Model.UnpackedFloat (Sign unpackMantissa unpackExponent unpackSign)

variable {x : Float}

/-- **The fraction that a double is,** if it is finite. -/
def fraction? (x : Float) : Option Rat := (Binary64.ofFloat x).fraction?

/-- The fraction that parts stand for. -/
def size? : UnpackedFloat → Option Rat
  | .zero _ => some 0
  | .finite s m e _ => some (if s == .negative then -(m * 2 ^ e) else m * 2 ^ e)
  | _ => none

/-! ### Bits and parts -/

section Bits

variable (b : BitVec Format.binary64.numBits)

theorem toNat_unpackMantissa : (unpackMantissa b : BitVec 52).toNat = b.toNat % Nat.pow 2 52 := by
  simp [unpackMantissa]

theorem toNat_unpackExponent :
    (unpackExponent b : BitVec 11).toNat = b.toNat / Nat.pow 2 52 % 2048 := by
  simp [unpackExponent, Nat.shiftRight_eq_div_pow]

theorem toNat_unpackSign : (unpackSign b).toNat = b.toNat / Nat.pow 2 63 := by
  have hlt : b.toNat < 2 ^ 64 := b.isLt
  have hmod : b.toNat / 2 ^ 63 % 2 = b.toNat / 2 ^ 63 := Nat.mod_eq_of_lt (by omega)
  simpa [unpackSign, Nat.shiftRight_eq_div_pow] using hmod

theorem negative_unpackSign :
    (Sign.ofBitVec (unpackSign b) == .negative) = decide (b.toNat / Nat.pow 2 63 = 1) := by
  have hsign := toNat_unpackSign b
  have hlt := (unpackSign b).isLt
  unfold Sign.ofBitVec
  split
  · next hzero =>
    rw [hzero] at hsign
    rw [← hsign]
    rfl
  · next hzero =>
    have hne : (unpackSign b).toNat ≠ 0 := fun h => hzero (BitVec.eq_of_toNat_eq h)
    rw [← hsign, decide_eq_true (by omega : (unpackSign b).toNat = 1)]
    rfl

/-- The bits of a double, taken apart in the two ways. -/
theorem fraction?_ofBits : (Binary64.ofBits b.toNat).fraction? =
    size? (UnpackedFloat.unpack .binary64 b) := by
  have hsign := negative_unpackSign b
  have hmantissa := toNat_unpackMantissa b
  have hexponent := toNat_unpackExponent b
  have hmax : ∀ v : BitVec 11, v = -1#11 ↔ v.toNat = 2047 := fun v => by
    rw [← BitVec.toNat_inj]; rfl
  have hmin : ∀ v : BitVec 11, v = 0#11 ↔ v.toNat = 0 := fun v => by
    rw [← BitVec.toNat_inj]; rfl
  have hnone : ∀ v : BitVec 52, v = 0#52 ↔ v.toNat = 0 := fun v => by
    rw [← BitVec.toNat_inj]; rfl
  unfold Binary64.ofBits UnpackedFloat.unpack
  simp only [hmax, hmin, hnone, hmantissa, hexponent]
  by_cases hbig : b.toNat / Nat.pow 2 52 % 2048 = 2047
  · rw [if_pos hbig, if_pos hbig]
    split <;> rfl
  · rw [if_neg hbig, if_neg hbig]
    by_cases hsmall : b.toNat / Nat.pow 2 52 % 2048 = 0
    · rw [if_pos hsmall, if_pos hsmall]
      by_cases hzero : b.toNat % Nat.pow 2 52 = 0
      · rw [dif_pos hzero, hzero]
        simp [Binary64.fraction?, size?]
      · have hexp : ((b.toNat / Nat.pow 2 52 % 2048 : Nat) : Int) - (1023 + 52) + 1 = -1074 := by
          omega
        rw [dif_neg hzero]
        simp only [Binary64.fraction?, size?, hsign, decide_eq_true_eq]
        rw [← hexp]
        rfl
    · have hone := toNat_leading_one (unpackMantissa b)
      rw [if_neg hsmall, if_neg hsmall]
      simp only [Binary64.fraction?, size?, hsign, decide_eq_true_eq, hone, hmantissa]
      rfl

end Bits

/-- **Bits and parts stand for the same fraction.** -/
theorem fraction?_eq (x : Float) : fraction? x = size? (parts x) :=
  fraction?_ofBits x.toModel.toBits.toBitVec

/-! ### Numbers that are at least one -/

theorem fraction?_of_isExactly {q : Rat} (h : IsExactly (parts x) q) : fraction? x = some q := by
  obtain ⟨m, e, hm, hparts, rfl⟩ := h
  rw [fraction?_eq, hparts]
  rfl

/-- A finite double that is at least one as a fraction. -/
theorem one_le_fraction {v : Rat} (h : Large (parts x)) (hv : fraction? x = some v) : 1 ≤ v := by
  rw [fraction?_eq] at hv
  rcases h with hinf | ⟨m, e, hm, hparts, hfull, he⟩
  · rw [hinf] at hv
    cases hv
  · rw [hparts] at hv
    obtain rfl : (m : Rat) * 2 ^ e = v := Option.some.inj hv
    have hlow := (size_bounds hm e).1
    rw [hfull.log2] at hlow
    exact (one_le_zpow₀ one_le_two (by omega)).trans hlow

/-- A double above zero as a fraction has the positive sign. -/
theorem zero_lt_of_fraction {v : Rat} (hv : fraction? x = some v) (hpos : 0 < v) : 0.0 < x := by
  rw [zero_lt_iff]
  rw [fraction?_eq] at hv
  cases hparts : parts x with
  | notANumber | infinity => rw [hparts] at hv; cases hv
  | zero s =>
    rw [hparts] at hv
    cases hv
    exact absurd hpos (lt_irrefl 0)
  | finite s m e hm =>
    rw [hparts] at hv
    cases s with
    | positive => exact trivial
    | negative =>
      obtain rfl : -((m : Rat) * 2 ^ e) = v := Option.some.inj hv
      have : (0 : Rat) < m * 2 ^ e := by positivity
      linarith

/-! ### Integer parts -/

/-- What has an integer part is a fraction. -/
theorem truncated_ok {n : Int} (h : Arith.truncated x = .ok n) : ∃ v, fraction? x = some v := by
  rw [fraction?_eq]
  unfold Arith.truncated at h
  split at h
  · cases h
  · next hnan =>
    split at h
    · cases h
    · next hinf =>
      cases hparts : parts x with
      | notANumber => exact absurd (isNaN_iff.mpr (by rw [sign, hparts]; rfl)) hnan
      | infinity s => exact absurd (isInf_iff.mpr ⟨s, hparts⟩) hinf
      | zero | finite => exact ⟨_, rfl⟩

/-- **The integer part of a double above zero** is that of its fraction. -/
theorem truncated_eq {n : Int} {v : Rat} (h : Arith.truncated x = .ok n)
    (hv : fraction? x = some v) (hpos : 0 < v) : n = ⌊v⌋ := by
  have hsign : sign x = some .positive := (zero_lt_iff.mp (zero_lt_of_fraction hv hpos)).sign?
  have hlt : ¬ x < 0.0 := not_lt_zero (by rw [hsign]; simp)
  unfold Arith.truncated at h
  rw [if_neg hlt] at h
  split at h
  · cases h
  · split at h
    · cases h
    · cases h
      exact Binary64.floor_eq hv

end Double

end PaperTrading
