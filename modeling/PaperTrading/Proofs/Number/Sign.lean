import PaperTrading.Number.Double
import PaperTrading.Proofs.Number.Packing

/-!
# Signs of doubles

The operations on doubles are those of Lean's model of binary64. A double is unpacked, computed with
exactly, rounded and packed again, and none of these steps changes a sign. So the sign of a result
follows from the signs of the arguments, and every comparison with zero is a question about signs.

* `Double.sign`: the sign of a double; what is not a number has none.
* `not_lt_of_le`: no two doubles compare both ways.
* `not_le_zero_iff`, `zero_le_iff`, `not_lt_zero`: the comparisons with zero.
* `sign_add`, `sign_sub`: **sums and differences of numbers with the positive sign.** A difference
  keeps it if the second is not above the first, unless both are infinite.
* `sign?_mul`: the sign of a product with a finite number above zero.
-/

namespace PaperTrading.Double

open Float.Model (Format UnpackedFloat)
open Float.Model.UnpackedFloat (Sign)

/-- The parts of a double. -/
def parts (x : Float) : UnpackedFloat := x.toModel.unpack

/-- **The sign of a double;** one that is not a number has none. -/
def sign (x : Float) : Option Sign := sign? (parts x)

variable {x y : Float}

theorem parts_add (x y : Float) :
    parts (x + y) = repack (UnpackedFloat.add .binary64 (parts x) (parts y)) := rfl

theorem parts_sub (x y : Float) :
    parts (x - y) = repack (UnpackedFloat.sub .binary64 (parts x) (parts y)) := rfl

theorem parts_mul (x y : Float) :
    parts (x * y) = repack (UnpackedFloat.mul .binary64 (parts x) (parts y)) := rfl

theorem canonical_parts (x : Float) : Canonical (parts x) := canonical_unpack _

theorem parts_zero : parts 0.0 = .zero .positive := by rfl

theorem isNaN_iff : x.isNaN = true ↔ sign x = none := by
  show (parts x).isNaN = true ↔ sign? (parts x) = none
  cases parts x <;> simp [UnpackedFloat.isNaN, sign?]

theorem isNaN_eq_false_iff : x.isNaN = false ↔ sign x ≠ none := by
  rw [← Bool.not_eq_true, isNaN_iff]

/-- What does not have the negative sign is not a number, or has the positive one. -/
theorem sign_cases (h : sign x ≠ some .negative) : sign x = none ∨ sign x = some .positive := by
  cases hs : sign x with
  | none => exact .inl rfl
  | some σ => cases σ with
    | positive => exact .inr rfl
    | negative => exact absurd hs h

theorem isInf_iff : x.isInf = true ↔ ∃ s, parts x = .infinity s := by
  show (parts x).isInf = true ↔ _
  cases parts x <;> simp [UnpackedFloat.isInf]

theorem lt_iff : x < y ↔ UnpackedFloat.lt (parts x) (parts y) = true := decide_eq_true_iff

theorem le_iff : x ≤ y ↔ UnpackedFloat.le (parts x) (parts y) = true := decide_eq_true_iff

/-! ### Comparison -/

theorem compare_swap (u v : UnpackedFloat) :
    UnpackedFloat.compare u v = (UnpackedFloat.compare v u).map Ordering.swap := by
  cases u with
  | notANumber => cases v <;> rfl
  | infinity s => cases v with
    | infinity t => cases s <;> cases t <;> rfl
    | notANumber | zero | finite => cases s <;> rfl
  | zero s => cases v with
    | infinity t | finite t => cases t <;> rfl
    | notANumber | zero => rfl
  | finite s m₁ e₁ => cases v with
    | notANumber => rfl
    | infinity t => cases s <;> cases t <;> rfl
    | zero t => cases s <;> rfl
    | finite t m₂ e₂ =>
      cases s <;> cases t <;>
        simp [UnpackedFloat.compare, Ordering.swap_then, Int.compare_swap, Nat.compare_swap]

/-- No two doubles compare both ways, also when one of them is not a number. -/
theorem not_lt_of_le (h : x ≤ y) : ¬ y < x := by
  rw [le_iff, UnpackedFloat.le, compare_swap] at h
  rw [lt_iff, UnpackedFloat.lt, beq_iff_eq]
  intro hlt
  rw [hlt] at h
  cases h

/-! ### Comparison with zero -/

/-- Parts of a number above zero. -/
def Above : UnpackedFloat → Prop
  | .infinity .positive | .finite .positive .. => True
  | _ => False

theorem Above.sign? {u : UnpackedFloat} (h : Above u) : sign? u = some .positive := by
  cases u with
  | notANumber | zero => cases h
  | infinity s | finite s => cases s <;> first | rfl | cases h

theorem zero_lt_iff : 0.0 < x ↔ Above (parts x) := by
  rw [lt_iff, parts_zero]
  cases parts x with
  | notANumber => simp [Above, UnpackedFloat.lt, UnpackedFloat.compare]
  | infinity s => cases s <;> simp [Above, UnpackedFloat.lt, UnpackedFloat.compare]
  | zero s => simp [Above, UnpackedFloat.lt, UnpackedFloat.compare]
  | finite s => cases s <;> simp [Above, UnpackedFloat.lt, UnpackedFloat.compare]

/-- What is not below or at zero is above it, or is not a number. -/
theorem not_le_zero_iff : ¬ x ≤ 0.0 ↔ sign x = none ∨ 0.0 < x := by
  rw [zero_lt_iff, le_iff, parts_zero, sign]
  cases parts x with
  | notANumber => simp [sign?, UnpackedFloat.le, UnpackedFloat.compare]
  | infinity s => cases s <;> simp [sign?, Above, UnpackedFloat.le, UnpackedFloat.compare]
  | zero s => simp [sign?, Above, UnpackedFloat.le, UnpackedFloat.compare]
  | finite s => cases s <;> simp [sign?, Above, UnpackedFloat.le, UnpackedFloat.compare]

theorem not_le_zero_of_pos (h : 0.0 < x) : ¬ x ≤ 0.0 := not_le_zero_iff.mpr (.inr h)

/-- A number above zero counts as given. -/
theorem isNonzero_of_pos (h : 0.0 < x) : Arith.isNonzero x = true := by
  rw [zero_lt_iff] at h
  show (!UnpackedFloat.beq (parts x) (parts 0.0)) = true
  rw [parts_zero]
  cases hx : parts x with
  | notANumber => rfl
  | infinity s => cases s <;> rfl
  | zero s => rw [hx] at h; cases h
  | finite s => cases s <;> rfl

/-- What is no number counts as given, too. -/
theorem isNonzero_of_sign_eq_none (h : sign x = none) : Arith.isNonzero x = true := by
  show (!UnpackedFloat.beq (parts x) (parts 0.0)) = true
  unfold sign at h
  cases hx : parts x with
  | notANumber => rfl
  | infinity s | zero s | finite s => rw [hx] at h; cases h

theorem sign_of_not_le_zero (h : ¬ x ≤ 0.0) : sign x = none ∨ sign x = some .positive := by
  rcases not_le_zero_iff.mp h with hnone | hpos
  · exact .inl hnone
  · exact .inr (zero_lt_iff.mp hpos).sign?

/-- A number that does not have the negative sign is not below zero. -/
theorem not_lt_zero (h : sign x ≠ some .negative) : ¬ x < 0.0 := by
  revert h
  rw [lt_iff, parts_zero, sign]
  cases parts x with
  | notANumber => simp [UnpackedFloat.lt, UnpackedFloat.compare]
  | infinity s => cases s <;> simp [sign?, UnpackedFloat.lt, UnpackedFloat.compare]
  | zero s => simp [UnpackedFloat.lt, UnpackedFloat.compare]
  | finite s => cases s <;> simp [sign?, UnpackedFloat.lt, UnpackedFloat.compare]

/-- What does not have the negative sign is at least zero, unless it is not a number. -/
theorem zero_le_iff (h : sign x ≠ some .negative) : 0.0 ≤ x ↔ sign x = some .positive := by
  revert h
  rw [le_iff, parts_zero, sign]
  cases parts x with
  | notANumber => simp [sign?, UnpackedFloat.le, UnpackedFloat.compare]
  | infinity s => cases s <;> simp [sign?, UnpackedFloat.le, UnpackedFloat.compare]
  | zero s => cases s <;> simp [sign?, UnpackedFloat.le, UnpackedFloat.compare]
  | finite s => cases s <;> simp [sign?, UnpackedFloat.le, UnpackedFloat.compare]

/-! ### Sums, differences and products -/

/-- What is not a number makes no sum a number. -/
theorem sign_add_none (h : sign x = none ∨ sign y = none) : sign (x + y) = none := by
  rw [sign, parts_add, sign?_repack]
  unfold sign at h
  revert h
  cases parts x <;> cases parts y <;> simp [sign?, UnpackedFloat.add]

/-- What is not a number makes no difference a number. -/
theorem sign_sub_none (h : sign x = none ∨ sign y = none) : sign (x - y) = none := by
  rw [sign, parts_sub, sign?_repack]
  unfold sign at h
  revert h
  cases parts x <;> cases parts y <;> simp [sign?, UnpackedFloat.sub]

theorem sign?_add {u v : UnpackedFloat} (hu : sign? u = some .positive)
    (hv : sign? v = some .positive) :
    sign? (UnpackedFloat.add .binary64 u v) = some .positive := by
  cases u with
  | notANumber => cases hu
  | infinity s => cases hu; cases v <;> cases hv <;> rfl
  | zero s => cases hu; cases v <;> cases hv <;> rfl
  | finite s m₁ e₁ h₁ =>
    cases hu
    cases v with
    | notANumber => cases hv
    | infinity s => cases hv; rfl
    | zero s => rfl
    | finite s m₂ e₂ h₂ =>
      cases hv
      exact sign?_normalize (Int.add_nonneg (Int.natCast_nonneg _) (Int.natCast_nonneg _)) _

/-- A sum of numbers with the positive sign. -/
theorem sign_add (hx : sign x = some .positive) (hy : sign y = some .positive) :
    sign (x + y) = some .positive := by
  rw [sign, parts_add, sign?_repack]
  exact sign?_add hx hy

/-- Of two doubles above zero, the one with the larger exponent is the larger, and of two with the
same exponent the one with the larger mantissa. -/
theorem scaled_le {m₁ m₂ : Nat} {e₁ e₂ : Int} {h₁ : 0 < m₁} {h₂ : 0 < m₂}
    (hc₁ : Canonical (.finite .positive m₁ e₁ h₁)) (hc₂ : Canonical (.finite .positive m₂ e₂ h₂))
    (h : ¬ UnpackedFloat.lt (.finite .positive m₁ e₁ h₁) (.finite .positive m₂ e₂ h₂) = true) :
    (UnpackedFloat.decreaseExponent m₂ e₂ (min e₁ e₂)).1 ≤
      (UnpackedFloat.decreaseExponent m₁ e₁ (min e₁ e₂)).1 := by
  rw [decreaseExponent_eq, decreaseExponent_eq]
  obtain ⟨-, hlow₁, hfull₁⟩ := hc₁
  obtain ⟨hhigh₂, hlow₂, -⟩ := hc₂
  have hcmp : e₂ < e₁ ∨ e₁ = e₂ ∧ m₂ ≤ m₁ := by
    rcases Int.lt_trichotomy e₁ e₂ with hlt | rfl | hgt
    · simp [UnpackedFloat.lt, UnpackedFloat.compare, Int.compare_eq_lt.mpr hlt] at h
    · simp [UnpackedFloat.lt, UnpackedFloat.compare] at h
      exact .inr ⟨rfl, Nat.le_of_not_lt fun hlt => h (Nat.compare_eq_lt.mpr hlt)⟩
    · exact .inl hgt
  rcases hcmp with hlt | ⟨rfl, hle⟩
  · have hmin : min e₁ e₂ = e₂ := by omega
    obtain ⟨k, hk⟩ : ∃ k, (e₁ - e₂).toNat = k + 1 := ⟨(e₁ - e₂).toNat - 1, by omega⟩
    have hfull : 2 ^ 52 ≤ m₁ := hfull₁ (by omega)
    have hpow : 0 < 2 ^ k := Nat.two_pow_pos k
    rw [hmin, Int.sub_self, hk, Int.toNat_zero, Nat.pow_zero, Nat.mul_one]
    calc m₂ ≤ 2 ^ 52 * 2 := by omega
      _ ≤ m₁ * 2 ^ (k + 1) :=
        Nat.mul_le_mul hfull (by rw [Nat.pow_succ]; omega)
  · simpa using hle

theorem sign?_sub {u v : UnpackedFloat} (hcu : Canonical u) (hcv : Canonical v)
    (hu : sign? u = some .positive) (hv : sign? v = some .positive)
    (h : ¬ UnpackedFloat.lt u v = true) :
    sign? (UnpackedFloat.sub .binary64 u v) = if v.isInf then none else some .positive := by
  cases u with
  | notANumber => cases hu
  | infinity s =>
    cases hu
    cases v with
    | notANumber => cases hv
    | infinity s => cases hv; rfl
    | zero s | finite s => rfl
  | zero s =>
    cases hu
    cases v with
    | notANumber => cases hv
    | infinity s | finite s => cases hv; exact absurd rfl h
    | zero s => cases hv; rfl
  | finite s m₁ e₁ h₁ =>
    cases hu
    cases v with
    | notANumber => cases hv
    | infinity s => cases hv; exact absurd rfl h
    | zero s => rfl
    | finite s m₂ e₂ h₂ =>
      cases hv
      exact sign?_normalize (Int.sub_nonneg.mpr (Int.ofNat_le.mpr (scaled_le hcu hcv h))) _

/-- **A difference of numbers with the positive sign,** the second not above the first: it has the
positive sign, unless both are infinite and it is not a number. -/
theorem sign_sub (hx : sign x = some .positive) (hy : sign y = some .positive) (h : ¬ x < y) :
    sign (x - y) = if y.isInf then none else some .positive := by
  rw [sign, parts_sub, sign?_repack]
  rw [lt_iff] at h
  exact sign?_sub (canonical_parts x) (canonical_parts y) hx hy h

theorem sign?_mul (u : UnpackedFloat) (m : Nat) (e : Int) (hm : 0 < m) :
    sign? (UnpackedFloat.mul .binary64 u (.finite .positive m e hm)) = sign? u := by
  cases u with
  | notANumber => rfl
  | infinity s | zero s => cases s <;> rfl
  | finite s m₁ e₁ h₁ =>
    rw [UnpackedFloat.mul, sign?_roundWithAccuracy]
    cases s <;> rfl

end PaperTrading.Double
