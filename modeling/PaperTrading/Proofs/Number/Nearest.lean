import Mathlib.Data.Rat.Floor
import Mathlib.Tactic.Linarith
import Mathlib.Tactic.Positivity
import PaperTrading.Proofs.Number.Sign

/-!
# Doubles of integers and decimals

The double nearest to a decimal is computed in one of two ways: short digits with a short exponent
are multiplied or divided by a power of ten, which is a double as well, and all others are rounded
from an exact product or quotient.  Either way a decimal that is at least one stays at least one, and
an integer of up to 53 binary digits stays what it is.

* `Large`: infinite, or finite and at least one.
* `large_times`, `large_div`: products and quotients that are at least one.
* `IsExactly`: parts that stand for a number above zero without rounding.
* `nearest_large`: **the double of a decimal that is at least one** is at least one.
* `nearest_exact`: **the double of a short integer** is that integer.
* `parts_ofInt`: the double of a positive integer is finite and above zero.
* `sign_times`: **a price times a number of shares** has the sign of the price.
-/

namespace PaperTrading.Double

open Float.Model (Format UnpackedFloat totalExponent)
open Float.Model.UnpackedFloat (Sign)

variable {x y : Float}

/-! ### Numbers that are at least one -/

/-- **Parts of a number that is at least one:** it is infinite, or its mantissa fills its digits and
has one of them in front of the point. -/
def Large (u : UnpackedFloat) : Prop :=
  u = .infinity .positive ∨
    ∃ m e hm, u = .finite .positive m e hm ∧ Full m e ∧ -52 ≤ e

theorem repack_infinity (s : Sign) : repack (.infinity s) = .infinity s := by
  cases s <;> rfl

theorem large_repack {m : Nat} {e : Int} (hm : 0 < m) (h : Full m e) (he : -52 ≤ e) :
    Large (repack (.finite .positive m e hm)) := by
  rw [repack_full hm h]
  split
  · exact .inl rfl
  · exact .inr ⟨m, e, hm, rfl, h, he⟩

/-- A product that has at least all its digits and is at least one. -/
theorem large_mul {m₁ m₂ : Nat} {e₁ e₂ : Int} (h₁ : 0 < m₁) (h₂ : 0 < m₂)
    (hm : 52 ≤ (m₁ * m₂).log2) (he : 0 ≤ e₁ + e₂ + (m₁ * m₂).log2) :
    Large (repack (UnpackedFloat.mul .binary64 (.finite .positive m₁ e₁ h₁)
      (.finite .positive m₂ e₂ h₂))) := by
  obtain ⟨m, e, h, hround, hfull, hfront⟩ :=
    roundWithAccuracy_full (.positive * .positive) .exact hm (e := e₁ + e₂) (by omega)
  rw [UnpackedFloat.mul, hround]
  exact large_repack h hfull (by omega)

/-- **A product of numbers that are at least one.** -/
theorem large_times (hx : Large (parts x)) (hy : Large (parts y)) : Large (parts (x * y)) := by
  rw [parts_mul]
  rcases hx with hx | ⟨m₁, e₁, h₁, hx, hfull₁, he₁⟩
  · rw [hx]
    rcases hy with hy | ⟨m₂, e₂, h₂, hy, -, -⟩ <;> rw [hy] <;> exact .inl (repack_infinity _)
  · rw [hx]
    rcases hy with hy | ⟨m₂, e₂, h₂, hy, hfull₂, he₂⟩
    · rw [hy]
      exact .inl (repack_infinity _)
    · have hlog : 104 ≤ (m₁ * m₂).log2 := by
        have hlow := Nat.mul_le_mul hfull₁.low hfull₂.low
        rw [← Nat.pow_add] at hlow
        exact (Nat.le_log2 (by positivity)).mpr hlow
      rw [hy]
      exact large_mul h₁ h₂ (by omega) (by omega)

/-- A number lies between the powers of two at its first digit. -/
theorem size_bounds {m : Nat} (hm : 0 < m) (e : Int) :
    (2 : Rat) ^ (m.log2 + e : Int) ≤ m * 2 ^ e ∧ m * 2 ^ e < (2 : Rat) ^ (m.log2 + e + 1 : Int) := by
  have hpow : (0 : Rat) < 2 ^ e := zpow_pos two_pos e
  have hlow : ((2 ^ m.log2 : Nat) : Rat) ≤ m := by exact_mod_cast Nat.log2_self_le hm.ne'
  have hhigh : (m : Rat) < ((2 ^ (m.log2 + 1) : Nat) : Rat) := by
    exact_mod_cast Nat.lt_log2_self
  push_cast at hlow hhigh
  constructor
  · rw [zpow_add₀ two_ne_zero, zpow_natCast]
    exact mul_le_mul_of_nonneg_right hlow hpow.le
  · have hexp : (m.log2 + e + 1 : Int) = ((m.log2 + 1 : Nat) : Int) + e := by push_cast; ring
    rw [hexp, zpow_add₀ two_ne_zero, zpow_natCast]
    exact mul_lt_mul_of_pos_right hhigh hpow

/-- The first digit of the larger of two numbers is not behind that of the smaller one. -/
theorem front_le {m₁ m₂ : Nat} {e₁ e₂ : Int} (h₁ : 0 < m₁) (h₂ : 0 < m₂)
    (hle : (m₂ : Rat) * 2 ^ e₂ ≤ m₁ * 2 ^ e₁) : m₂.log2 + e₂ ≤ m₁.log2 + e₁ := by
  by_contra hlt
  have hexp : (m₁.log2 + e₁ + 1 : Int) ≤ m₂.log2 + e₂ := by omega
  have hpow : (2 : Rat) ^ (m₁.log2 + e₁ + 1 : Int) ≤ 2 ^ (m₂.log2 + e₂ : Int) :=
    zpow_le_zpow_right₀ one_le_two hexp
  have := (size_bounds h₁ e₁).2
  have := (size_bounds h₂ e₂).1
  linarith

/-- **A quotient whose dividend is at least its divisor.** -/
theorem large_div {m₁ m₂ : Nat} {e₁ e₂ : Int} (h₁ : 0 < m₁) (h₂ : 0 < m₂)
    (hle : (m₂ : Rat) * 2 ^ e₂ ≤ m₁ * 2 ^ e₁) :
    Large (repack (UnpackedFloat.div .binary64 (.finite .positive m₁ e₁ h₁)
      (.finite .positive m₂ e₂ h₂))) := by
  have hfront := front_le h₁ h₂ hle
  obtain ⟨t, ht⟩ : ∃ t, t = min (e₁ - e₂) (m₁.log2 + e₁ - (m₂.log2 + e₂) - 53) := ⟨_, rfl⟩
  obtain ⟨shift, hshift⟩ : ∃ shift, shift = (e₁ - e₂ - t).toNat := ⟨_, rfl⟩
  -- the quotient has at least all its digits
  have hdigits : 2 ^ 52 * m₂ ≤ m₁ * 2 ^ shift := by
    calc 2 ^ 52 * m₂ ≤ 2 ^ 52 * 2 ^ (m₂.log2 + 1) := Nat.mul_le_mul_left _ Nat.lt_log2_self.le
      _ = 2 ^ (m₂.log2 + 53) := by rw [← Nat.pow_add]; congr 1; omega
      _ ≤ 2 ^ (m₁.log2 + shift) := Nat.pow_le_pow_right two_pos (by omega)
      _ = 2 ^ m₁.log2 * 2 ^ shift := Nat.pow_add ..
      _ ≤ m₁ * 2 ^ shift := Nat.mul_le_mul_right _ (Nat.log2_self_le h₁.ne')
  -- and one of them is in front of the point
  have hpoint : 2 ^ (-t).toNat * m₂ ≤ m₁ * 2 ^ shift := by
    rcases Int.le_total t 0 with hneg | hpos
    · have hscale := mul_le_mul_of_nonneg_right hle (zpow_pos (two_pos : (0 : Rat) < 2) (-t - e₂)).le
      rw [mul_assoc, mul_assoc, ← zpow_add₀ two_ne_zero, ← zpow_add₀ two_ne_zero,
        show e₂ + (-t - e₂) = ((-t).toNat : Int) by omega,
        show e₁ + (-t - e₂) = (shift : Int) by omega, zpow_natCast, zpow_natCast] at hscale
      rw [Nat.mul_comm]
      exact_mod_cast hscale
    · rw [show (-t).toNat = 0 by omega]
      omega
  have hlog : 52 ≤ (m₁ <<< shift / m₂).log2 ∧ (-t).toNat ≤ (m₁ <<< shift / m₂).log2 := by
    rw [Nat.shiftLeft_eq]
    have hle52 := (Nat.le_div_iff_mul_le h₂).mpr hdigits
    have hlet := (Nat.le_div_iff_mul_le h₂).mpr hpoint
    have hne : m₁ * 2 ^ shift / m₂ ≠ 0 := by omega
    exact ⟨(Nat.le_log2 hne).mpr hle52, (Nat.le_log2 hne).mpr hlet⟩
  have hcore : UnpackedFloat.divCore .binary64 m₁ e₁ m₂ e₂ = (m₁ <<< shift / m₂, t,
      UnpackedFloat.accuracyOfFraction (m₁ <<< shift % m₂) m₂) := by
    have htarget : min (e₁ - e₂) (Format.binary64.targetExponent
        (totalExponent m₁ e₁ - totalExponent m₂ e₂)) = t := by
      show min (e₁ - e₂) (max ((m₁.log2 : Int) + 1 + e₁ - (m₂.log2 + 1 + e₂) - 53) (-1074)) = t
      omega
    simp only [UnpackedFloat.divCore, htarget, hshift]
  obtain ⟨m, e, h, hround, hfull, hkept⟩ := roundWithAccuracy_full (.positive / .positive)
    (UnpackedFloat.accuracyOfFraction (m₁ <<< shift % m₂) m₂) hlog.1 (e := t) (by omega)
  rw [UnpackedFloat.div, hcore]
  dsimp only
  rw [hround]
  exact large_repack h hfull (by omega)

/-! ### Exact doubles -/

/-- **Parts that stand for a number above zero** without rounding. -/
def IsExactly (u : UnpackedFloat) (q : Rat) : Prop :=
  ∃ m e hm, u = .finite .positive m e hm ∧ (m : Rat) * 2 ^ e = q

/-- An exact number that is at least one. -/
theorem large_of_isExactly {u : UnpackedFloat} {q : Rat} (hc : Canonical u) (h : IsExactly u q)
    (hq : 1 ≤ q) : Large u := by
  obtain ⟨m, e, hm, rfl, rfl⟩ := h
  obtain ⟨hhigh, hlow, hfull⟩ := hc
  have hle : ((1 : Nat) : Rat) * 2 ^ (0 : Int) ≤ m * 2 ^ e := by simpa using hq
  have hfront := front_le hm Nat.one_pos hle
  have hlog : m.log2 < 53 := (Nat.log2_lt hm.ne').mpr hhigh
  rw [show Nat.log2 1 = 0 by rfl] at hfront
  exact .inr ⟨m, e, hm, rfl, ⟨hfull (by omega), hhigh, hlow⟩, by omega⟩

/-- The double of an integer of up to 53 digits. -/
theorem parts_toFloat {n : UInt64} (hn : 0 < n.toNat) (hsmall : n.toNat < 2 ^ 53) :
    ∃ m e hm, parts n.toFloat = .finite .positive m e hm ∧ (m : Rat) * 2 ^ e = n.toNat ∧
      Full m e ∧ e ≤ 0 := by
  have hparts : parts n.toFloat = repack (UnpackedFloat.round .binary64 .positive n.toNat 0) := by
    show repack (UnpackedFloat.normalize .binary64 n.toNat 0 .positive) = _
    have hcmp : compare (n.toNat : Int) 0 = .gt := Int.compare_eq_gt.mpr (by omega)
    rw [UnpackedFloat.normalize, hcmp]
    rfl
  have hlog : n.toNat.log2 < 53 := (Nat.log2_lt hn.ne').mpr hsmall
  obtain ⟨shift, hshift⟩ := Nat.exists_eq_add_of_le (Nat.le_of_lt_succ hlog)
  have hscaled : 0 < n.toNat * 2 ^ shift := by positivity
  have hfull : Full (n.toNat * 2 ^ shift) (-(shift : Int) + (0 : Nat)) := by
    obtain ⟨hlow, hhigh⟩ := (Nat.log2_eq_iff hscaled.ne').mp (log2_scaled hn shift)
    rw [← hshift] at hlow hhigh
    exact ⟨hlow, hhigh, by omega⟩
  have hround : UnpackedFloat.round .binary64 .positive n.toNat 0 =
      .finite .positive (n.toNat * 2 ^ shift) (-(shift : Int) + (0 : Nat)) hscaled := by
    have htarget : max ((n.toNat.log2 : Int) + 0 - 52) (-1074) = -(shift : Int) := by omega
    have hexp : (0 - -(shift : Int)).toNat = shift := by omega
    simp only [UnpackedFloat.round, targetExponent_eq, htarget, decreaseExponent_eq, hexp]
    have hexact := roundWithAccuracy_multiple .positive hscaled hfull
    rw [Nat.pow_zero, Nat.mul_one] at hexact
    simpa using hexact
  rw [hparts, hround, repack_full hscaled hfull, if_neg (by omega)]
  refine ⟨_, _, _, rfl, ?_, hfull, by omega⟩
  push_cast
  rw [add_zero, mul_assoc, ← zpow_natCast, ← zpow_add₀ two_ne_zero, add_neg_cancel, zpow_zero,
    mul_one]

/-- Parts that stand for an integer, by a comparison of integers. -/
def standsFor (n : Nat) : UnpackedFloat → Bool
  | .finite .positive m e _ => m * 2 ^ e.toNat == n * 2 ^ (-e).toNat
  | _ => false

theorem isExactly_of_standsFor {n : Nat} {u : UnpackedFloat} (h : standsFor n u = true) :
    IsExactly u n := by
  unfold standsFor at h
  split at h
  · next m e hm =>
    have heq : (m : Rat) * 2 ^ e.toNat = n * 2 ^ (-e).toNat := by exact_mod_cast beq_iff_eq.mp h
    refine ⟨m, e, hm, rfl, ?_⟩
    have hexp : e = (e.toNat : Int) - ((-e).toNat : Int) := by omega
    rw [hexp, zpow_sub₀ two_ne_zero, zpow_natCast, zpow_natCast, ← mul_div_assoc, heq]
    field_simp
  · cases h

theorem standsFor_powerOfTen : ∀ i : Fin Float.exactlyRepresentablePowersOfTen.size,
    standsFor (10 ^ i.val) (parts Float.exactlyRepresentablePowersOfTen[i]) = true := by
  decide +kernel

/-- The powers of ten that doubles are multiplied with. -/
theorem isExactly_powerOfTen {j : Nat} (hj : j < Float.exactlyRepresentablePowersOfTen.size) :
    IsExactly (parts Float.exactlyRepresentablePowersOfTen[j]) (10 ^ j : Nat) :=
  isExactly_of_standsFor (standsFor_powerOfTen ⟨j, hj⟩)

/-- A quotient of exact numbers. -/
theorem large_quotient {p q : Rat} (hx : IsExactly (parts x) p) (hy : IsExactly (parts y) q)
    (hle : q ≤ p) : Large (parts (x / y)) := by
  obtain ⟨m₁, e₁, h₁, hx, rfl⟩ := hx
  obtain ⟨m₂, e₂, h₂, hy, rfl⟩ := hy
  show Large (repack (UnpackedFloat.div .binary64 (parts x) (parts y)))
  rw [hx, hy]
  exact large_div h₁ h₂ hle

/-! ### Nearest doubles -/

/-- Digits with an exponent, rounded from the exact product or quotient. -/
theorem large_scientific {n : Nat} {e : Int} (h : 10 ^ (-e).toNat ≤ n) :
    Large (repack (UnpackedFloat.ofScientific .binary64 n e)) := by
  have hn : 0 < n := Nat.lt_of_lt_of_le (by positivity) h
  have hlow : ¬ e < -((2 ^ Format.binary64.exponentBits : Int) + n.log2) := by
    have hpow : 2 ^ (-e).toNat ≤ n := (Nat.pow_le_pow_left (by decide) _).trans h
    have hlog := (Nat.le_log2 hn.ne').mpr hpow
    show ¬ e < -((2048 : Int) + n.log2)
    omega
  rw [UnpackedFloat.ofScientific, dif_neg hn.ne']
  by_cases hbig : e > 2 ^ Format.binary64.exponentBits
  · rw [if_pos hbig]
    exact .inl (repack_infinity _)
  · rw [if_neg hbig, if_neg hlow]
    split
    · have hprod : 2 ^ 53 ≤ n <<< 53 * 10 ^ e.toNat := by
        rw [Nat.shiftLeft_eq]
        calc 2 ^ 53 = 1 * 2 ^ 53 * 1 := rfl
          _ ≤ n * 2 ^ 53 * 10 ^ e.toNat :=
            Nat.mul_le_mul (Nat.mul_le_mul_right _ hn) (Nat.one_le_pow _ _ (by decide))
      have hlog := (Nat.le_log2 (by omega)).mpr hprod
      refine large_mul _ _ ?_ ?_
      · show 52 ≤ (n <<< 53 * 10 ^ e.toNat).log2
        omega
      · show (0 : Int) ≤ -53 + 0 + (n <<< 53 * 10 ^ e.toNat).log2
        omega
    · refine large_div _ _ ?_
      rw [zpow_zero, mul_one, mul_one]
      exact_mod_cast h

/-- Digits with an exponent that are at least one. -/
theorem large_ofScientific {n j : Nat} {s : Bool} (hn : 0 < n) (h : s = true → 10 ^ j ≤ n) :
    Large (parts (OfScientific.ofScientific n s j)) := by
  show Large (parts (Float.ofScientific n s j))
  unfold Float.ofScientific
  split
  · next hshort =>
    have hbits : n.toUInt64.toNat = n := Nat.mod_eq_of_lt (by omega)
    obtain ⟨m, e, hm, hparts, hsize, -⟩ := parts_toFloat (n := n.toUInt64) (by omega) (by omega)
    have hx : IsExactly (parts n.toUInt64.toFloat) n := ⟨m, e, hm, hparts, by rw [hsize, hbits]⟩
    have hy := isExactly_powerOfTen (Nat.lt_succ_of_le hshort.2)
    have hlarge : ∀ {z : Float} {k : Nat}, 0 < k → IsExactly (parts z) k → Large (parts z) :=
      fun hk hz => large_of_isExactly (canonical_parts _) hz (by exact_mod_cast hk)
    cases s with
    | false => exact large_times (hlarge hn hx) (hlarge (by positivity) hy)
    | true => exact large_quotient hx hy (by exact_mod_cast h rfl)
  · cases s with
    | false =>
      have hexp : (-Int.ofNat j).toNat = 0 := by
        rw [Int.ofNat_eq_natCast]
        omega
      exact large_scientific (e := Int.ofNat j) (by rw [hexp]; exact hn)
    | true =>
      have hexp : (-Int.negOfNat j).toNat = j := by
        rw [Int.negOfNat_eq, Int.neg_neg]
        rfl
      exact large_scientific (e := Int.negOfNat j) (by rw [hexp]; exact h rfl)

/-- Where `a * b + 1` binary places are fewer than `c * d + 4` decimal ones, a number with `j` decimal
places has accordingly many binary ones. -/
theorem places_lt {a b c d j k : Nat} (hten : (2 ^ a) ^ b * 2 < (10 ^ c) ^ d * 10 ^ 4)
    (h : 10 ^ j < 2 ^ k) : j * (a * b + 1) < (c * d + 4) * k := by
  have hk : k ≠ 0 := by
    rintro rfl
    have hone : 1 ≤ 10 ^ j := Nat.one_le_pow _ _ (by decide)
    omega
  rw [← Nat.pow_mul, ← Nat.pow_succ, ← Nat.pow_mul, ← Nat.pow_add] at hten
  refine (Nat.pow_lt_pow_iff_right (by decide : 1 < 10)).mp ?_
  calc 10 ^ (j * (a * b + 1)) = (10 ^ j) ^ (a * b + 1) := Nat.pow_mul ..
    _ ≤ (2 ^ k) ^ (a * b + 1) := Nat.pow_le_pow_left h.le _
    _ = (2 ^ (a * b + 1)) ^ k := by rw [← Nat.pow_mul, ← Nat.pow_mul, Nat.mul_comm]
    _ < (10 ^ (c * d + 4)) ^ k := Nat.pow_lt_pow_left hten hk
    _ = 10 ^ ((c * d + 4) * k) := (Nat.pow_mul ..).symm

/-- The binary places of a number with so many decimal ones. -/
theorem places_of_pow_lt {j k : Nat} (h : 10 ^ j < 2 ^ k) : j * 13301 < 4004 * k := by
  have hten : (2 ^ 100) ^ 133 * 2 < (10 ^ 100) ^ 40 * 10 ^ 4 := by decide +kernel
  have hplaces := places_lt hten h
  omega

/-- **The double of a decimal that is at least one** is at least one. -/
theorem nearest_large {n : Nat} {e : Int} (h : 10 ^ (-e).toNat ≤ n) :
    Large (parts (nearest n e)) := by
  have hn : 0 < n := Nat.lt_of_lt_of_le (by positivity) h
  unfold nearest
  dsimp only
  split
  · next hlow =>
    have htop : e + (n.log2 * 30103 / 100000 : Nat) < -400 := hlow.resolve_left hn.ne'
    have hplaces := places_of_pow_lt (h.trans_lt Nat.lt_log2_self)
    omega
  · split
    · exact .inl (by rfl)
    · exact large_ofScientific hn fun hneg => by
        have hneg : e < 0 := of_decide_eq_true hneg
        rwa [show e.natAbs = (-e).toNat by omega]

theorem parts_one : parts (Float.ofBits 0x3FF0000000000000) =
    .finite .positive (2 ^ 52) (-52) (by decide) := by
  rfl

/-- A number that fills its digits is the same after a multiplication by one. -/
theorem parts_mul_one {m : Nat} {e : Int} {hm : 0 < m} (h : parts x = .finite .positive m e hm)
    (hfull : Full m e) (he : e < 972) :
    parts (x * Float.ofBits 0x3FF0000000000000) = .finite .positive m e hm := by
  have hexp : e + -52 + (52 : Nat) = e := by omega
  have hround := roundWithAccuracy_multiple (.positive * .positive) (k := 52) (e := e + -52) hm
    (by rw [hexp]; exact hfull)
  rw [parts_mul, h, parts_one, UnpackedFloat.mul, hround]
  simp only [hexp]
  show repack (.finite .positive m e hm) = _
  rw [repack_full hm hfull, if_neg (by omega)]

/-- **The double of a short integer** is that integer. -/
theorem nearest_exact {n : Nat} (hn : 0 < n) (hshort : n < 2 ^ 53) :
    IsExactly (parts (nearest n 0)) n := by
  have hlog : n.log2 < 53 := (Nat.log2_lt hn.ne').mpr hshort
  have hbits : n.toUInt64.toNat = n := Nat.mod_eq_of_lt (by omega)
  have hnearest : nearest n 0 = n.toUInt64.toFloat * Float.ofBits 0x3FF0000000000000 := by
    unfold nearest
    dsimp only
    rw [if_neg (by omega), if_neg (by omega)]
    show Float.ofScientific n false 0 = _
    unfold Float.ofScientific
    rw [dif_pos ⟨hshort, by decide⟩]
    rfl
  obtain ⟨m, e, hm, hparts, hsize, hfull, he⟩ :=
    parts_toFloat (n := n.toUInt64) (by omega) (by omega)
  rw [hnearest, parts_mul_one hparts hfull (by omega)]
  exact ⟨m, e, hm, rfl, by rw [hsize, hbits]⟩

/-- The double of an integer that is not below zero is the nearest one, and finite. -/
theorem ofInt?_eq {n : Int} (hn : 0 ≤ n) {y : Float} (h : ofInt? n = some y) :
    y = nearest n.natAbs 0 ∧ y.isInf ≠ true := by
  have hsign : decide (n < 0) = false := decide_eq_false (by omega)
  simp only [ofInt?, hsign, withSign, Bool.false_eq_true, if_false] at h
  split at h
  · cases h
  · next hinf =>
    cases h
    exact ⟨rfl, hinf⟩

/-- **The double of a positive integer** is finite and above zero. -/
theorem parts_ofInt {n : Int} (hn : 0 < n) {y : Float} (h : ofInt? n = some y) :
    ∃ m e hm, parts y = .finite .positive m e hm := by
  have hpos : 0 < n.natAbs := by omega
  obtain ⟨rfl, hinf⟩ := ofInt?_eq hn.le h
  rcases nearest_large (e := 0) hpos with hbig | ⟨m, e, hm, heq, -⟩
  · exact absurd (isInf_iff.mpr ⟨_, hbig⟩) hinf
  · exact ⟨m, e, hm, heq⟩

/-- **A price times a number of shares** has the sign of the price. -/
theorem sign_times {n : Int} (hn : 0 < n) {cost : Float} (h : Arith.times x n = .ok cost) :
    sign cost = sign x := by
  simp only [Arith.times, Arith.ofInteger, bind_ok_iff, pure_ok_iff] at h
  obtain ⟨y, hy, rfl⟩ := h
  split at hy
  · next z hz =>
    cases hy
    obtain ⟨m, e, hm, heq⟩ := parts_ofInt hn hz
    show sign? (parts (x * y)) = _
    rw [parts_mul, sign?_repack, heq]
    exact sign?_mul _ m e hm
  · cases hy

end PaperTrading.Double
