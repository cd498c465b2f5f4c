import Mathlib.Tactic.Positivity
import PaperTrading.Proofs.Indicator.Growth
import PaperTrading.Proofs.Number.Unrounded

/-!
# Series without rounding

How long the series of an indicator are, and that in exact arithmetic a series can be computed
wherever there are prices enough for it: no mean divides by zero, the averages of gains and losses
are never below zero, and neither is a variance.

* `length_ema`, `length_rsi`, `length_macd`, `length_bollinger`: the lengths of the series.
* `mean_eq`, `sma_eq`, `ema_eq`: the means in the terms of ordinary fractions.
* `exists_rsi`: indices exist, and lie from zero up to a hundred.
* `variance`: what the root of a standard deviation is taken of, which is not below zero.
* `exists_bollinger`: bands exist.
* `exists_macd`, `macd_error`: **what a convergence needs is what its two means and its signal line
  need.**
-/

namespace PaperTrading

namespace Indicator

open Arith

/-! ### Lengths -/

section Lengths

variable {α : Type} [Arith α] {prices : List α} {period : Int}

omit [Arith α] in
theorem length_slice_rest {xs : List α} {i : Int} (hi : 0 ≤ i) (hil : i ≤ xs.length) :
    ((slice xs i xs.length).length : Int) = xs.length - i := by
  obtain ⟨n, rfl⟩ := Int.eq_ofNat_of_zero_le hi
  rw [slice_of_le (by omega) (Nat.le_refl _), List.length_take, List.length_drop]
  omega

theorem length_ema (hp : 0 < period) {xs : List α} (h : ema prices period = .ok xs) :
    (xs.length : Int) = prices.length - period + 1 := by
  simp only [ema, bind_ok_iff, checkEnough_ok_iff, pure_ok_iff, exists_const] at h
  obtain ⟨hlen, k, -, first, -, rfl⟩ := h
  rw [length_smooth, Nat.cast_succ, length_slice_rest hp.le hlen]

theorem length_strengths {weight gain loss : α} {steps : List (α × α)} {xs : List α}
    (h : strengths weight period gain loss steps = .ok xs) : xs.length = steps.length + 1 := by
  induction steps generalizing gain loss xs with
  | nil =>
    simp only [strengths, bind_ok_iff, pure_ok_iff] at h
    obtain ⟨x, -, rfl⟩ := h
    rfl
  | cons step steps ih =>
    simp only [strengths, bind_ok_iff, pure_ok_iff] at h
    obtain ⟨x, -, g, -, l, -, rest, hrest, rfl⟩ := h
    rw [List.length_cons, List.length_cons, ih hrest]

theorem length_rsi (hp : 0 < period) {xs : List α} (h : rsi prices period = .ok xs) :
    (xs.length : Int) = prices.length - period := by
  simp only [rsi, bind_ok_iff, checkEnough_ok_iff, exists_const] at h
  obtain ⟨hlen, gain, -, loss, -, weight, -, steps, hsteps, h⟩ := h
  rw [entriesFrom, if_pos hp.le] at hsteps
  cases hsteps
  rw [length_strengths h, List.length_drop, List.length_zip, List.length_map, List.length_map,
    Nat.min_self, length_changes]
  omega

/-- The lines of a convergence: as long as the shorter mean, and what its signal line leaves of that. -/
theorem length_macd {fast slow signal : Int} (hf : 0 < fast) (hs : 0 < slow) (hn : 0 < signal)
    {m : Macd α} (h : macd prices fast slow signal = .ok m) :
    (m.macd.length : Int) = prices.length - max fast slow + 1 ∧
      (m.signal.length : Int) = m.macd.length - signal + 1 ∧
      m.histogram.length = m.signal.length := by
  simp only [macd, bind_ok_iff, checkEnough_ok_iff, pure_ok_iff, exists_const] at h
  obtain ⟨-, fasts, hfast, slows, hslow, signals, hsignal, rfl⟩ := h
  have hfast := length_ema hf hfast
  have hslow := length_ema hs hslow
  have hsignal := length_ema hn hsignal
  dsimp only
  refine ⟨?_, hsignal, ?_⟩
  · rw [List.length_zipWith]
    omega
  · rw [List.length_zipWith]
    omega

/-- The three bands are as long as the mean in the middle. -/
theorem length_bollinger {deviations : α} {b : Bands α} (h : bollinger prices period deviations = .ok b) :
    b.middle.length = (prices.length - period + 1).toNat ∧ b.upper.length = b.middle.length ∧
      b.lower.length = b.middle.length := by
  simp only [bollinger, bind_ok_iff, checkEnough_ok_iff, pure_ok_iff, exists_const] at h
  obtain ⟨-, middle, hmiddle, widths, hwidths, rfl⟩ := h
  have hwidths := length_of_mapM hwidths
  rw [List.length_zipIdx] at hwidths
  refine ⟨length_sma hmiddle, ?_, ?_⟩
  · rw [List.length_zipWith, hwidths, Nat.min_self]
  · rw [List.length_zipWith, hwidths, Nat.min_self]

end Lengths

/-! ### Means -/

open Exact

variable {r : Rat → Rat} {prices : List Rat} {period : Int}

/-- The mean of a window, also of an empty one. -/
theorem mean_eq (hp : 0 < period) (window : List Rat) :
    @mean Rat (arith r) window period = .ok (window.sum / period) := by
  let _ := arith r
  unfold mean
  cases window with
  | nil =>
    have hzero : ¬ period = 0 := by omega
    have hneg : ¬ period < 0 := by omega
    simp [hzero, hneg, zero_eq]
  | cons x xs =>
    exact (dividedBy_ok_iff (by omega)).mpr (by rw [sum_eq])

/-- A check for which there is enough. -/
theorem checkEnough_eq {available : Nat} {needed : Int} (h : needed ≤ available) (label : String) :
    checkEnough available needed label = .ok () := checkEnough_ok_iff.mpr h

theorem sma_eq (hp : 0 < period) (hlen : period ≤ prices.length) :
    @sma Rat (arith r) prices period = .ok ((List.range (prices.length - period + 1).toNat).map
      fun (j : Nat) => (slice prices j (j + period)).sum / period) := by
  let _ := arith r
  unfold sma
  rw [checkEnough_eq hlen]
  show (List.range _).mapM _ = _
  simp only [mean_eq hp]
  exact List.mapM_pure

/-- The weight of a price in an exponential mean is two over one more than the period. -/
theorem ema_eq (hp : 0 < period) (hlen : period ≤ prices.length) :
    @ema Rat (arith r) prices period = .ok (@smooth Rat (arith r) (2 / (period + 1))
      ((slice prices 0 period).sum / period) (slice prices period prices.length)) := by
  let _ := arith r
  have hweight : dividedBy (2.0 : Rat) (period + 1) = .ok (2 / (period + 1)) := by
    refine (dividedBy_ok_iff (by omega)).mpr ?_
    push_cast
    norm_num
  unfold ema
  rw [checkEnough_eq hlen]
  show (dividedBy 2.0 (period + 1) >>= _) = _
  rw [hweight]
  show (mean (slice prices 0 period) period >>= _) = _
  rw [mean_eq hp]
  rfl

theorem exists_ema (hp : 0 < period) (hlen : period ≤ prices.length) :
    ∃ xs, @ema Rat (arith r) prices period = .ok xs ∧
      (xs.length : Int) = prices.length - period + 1 :=
  ⟨_, ema_eq hp hlen, @length_ema Rat (arith r) _ _ hp _ (ema_eq hp hlen)⟩

theorem ema_error (hlen : prices.length < period) : @ema Rat (arith r) prices period =
    .error (shortage prices.length period s!"EMA({period})") := by
  let _ := arith r
  unfold ema checkEnough
  rw [if_pos hlen]
  rfl

/-! ### Relative strength -/

/-- The index of a ratio that is not below zero: from zero at no gain up to a hundred, which no gain
reaches. -/
theorem index_mem {ratio : Rat} (h : 0 ≤ ratio) :
    0 ≤ 100 - 100 / (1 + ratio) ∧ 100 - 100 / (1 + ratio) < 100 := by
  have hwhole : 0 < 1 + ratio := by linarith
  have hshare : 0 < 100 / (1 + ratio) := by positivity
  have hmost : 100 / (1 + ratio) ≤ 100 := div_le_self (by norm_num) (by linarith)
  constructor <;> linarith

/-- **The index of averages that are not below zero:** the ratio is not minus one. -/
theorem exists_strength {gain loss : Rat} (hg : 0 ≤ gain) (hl : 0 ≤ loss) :
    ∃ x, @strength Rat (arith r) gain loss = .ok x ∧ 0 ≤ x ∧ x < 100 := by
  let _ := arith r
  -- A loss of zero is replaced, so that the ratio is one of positive numbers in either case.
  have hguard : 0 < (if loss == (0.0 : Rat) then (0.001 : Rat) else loss) := by
    split
    · norm_num
    · next hzero =>
      rw [zero_eq, beq_iff_eq] at hzero
      exact lt_of_le_of_ne hl (Ne.symm hzero)
  have hratio := div_nonneg hg hguard.le
  have hwhole : (1.0 : Rat) + gain / (if loss == (0.0 : Rat) then (0.001 : Rat) else loss) ≠ 0 := by
    norm_num
    positivity
  refine ⟨_, bind_ok_iff.mpr ⟨_, quotient_eq hguard.ne' gain,
    bind_ok_iff.mpr ⟨_, quotient_eq hwhole 100.0, rfl⟩⟩, ?_⟩
  have hone : (1.0 : Rat) = 1 := by norm_num
  have hhundred : (100.0 : Rat) = 100 := by norm_num
  rw [hone, hhundred]
  exact index_mem hratio

/-- **The averages stay at zero or above,** so that every index exists and is in its range. -/
theorem exists_strengths (hp : 0 < period) {weight : Rat} (hw : 0 ≤ weight) {steps : List (Rat × Rat)}
    (hsteps : ∀ step ∈ steps, 0 ≤ step.1 ∧ 0 ≤ step.2) {gain loss : Rat} (hg : 0 ≤ gain)
    (hl : 0 ≤ loss) : ∃ xs, @strengths Rat (arith r) weight period gain loss steps = .ok xs ∧
      ∀ x ∈ xs, 0 ≤ x ∧ x < 100 := by
  let _ := arith r
  obtain ⟨first, hfirst, hrange⟩ := exists_strength (r := r) hg hl
  induction steps generalizing gain loss first with
  | nil =>
    exact ⟨[first], bind_ok_iff.mpr ⟨first, hfirst, rfl⟩, List.forall_mem_singleton.mpr hrange⟩
  | cons step steps ih =>
    obtain ⟨⟨hgain, hloss⟩, hsteps⟩ := List.forall_mem_cons.mp hsteps
    have hperiod : (0 : Rat) < period := by exact_mod_cast hp
    have hnext : ∀ average amount : Rat, 0 ≤ average → 0 ≤ amount →
        nextAverage weight period average amount = .ok ((average * weight + amount) / period) ∧
          0 ≤ (average * weight + amount) / period := fun average amount ha hs =>
      ⟨(dividedBy_ok_iff hp.ne').mpr rfl, by positivity⟩
    obtain ⟨hgain, hgain'⟩ := hnext gain step.1 hg hgain
    obtain ⟨hloss, hloss'⟩ := hnext loss step.2 hl hloss
    obtain ⟨second, hsecond, hrange'⟩ := exists_strength (r := r) hgain' hloss'
    obtain ⟨xs, hxs, hranges⟩ := ih hsteps hgain' hloss' second hsecond hrange'
    exact ⟨first :: xs, bind_ok_iff.mpr ⟨first, hfirst, bind_ok_iff.mpr ⟨_, hgain,
      bind_ok_iff.mpr ⟨_, hloss, bind_ok_iff.mpr ⟨xs, hxs, rfl⟩⟩⟩⟩,
      List.forall_mem_cons.mpr ⟨hrange, hranges⟩⟩

theorem larger_nonneg (x : Rat) : 0 ≤ @larger Rat (arith r) x 0.0 := by
  show 0 ≤ if x < 0.0 then (0.0 : Rat) else x
  rw [zero_eq]
  split <;> linarith

theorem size_smaller_nonneg (x : Rat) :
    0 ≤ @size Rat (arith r) (@smaller Rat (arith r) x 0.0) := by
  show 0 ≤ if (if (0.0 : Rat) < x then (0.0 : Rat) else x) ≤ 0.0 then
    0.0 - (if (0.0 : Rat) < x then (0.0 : Rat) else x) else if (0.0 : Rat) < x then 0.0 else x
  rw [zero_eq]
  split <;> split <;> linarith

/-- A mean of numbers that are not below zero is not below it either. -/
theorem mean_nonneg (hp : 0 < period) {xs : List Rat} (h : ∀ x ∈ xs, 0 ≤ x) (i j : Int) :
    0 ≤ (slice xs i j).sum / (period : Rat) := by
  have hperiod : (0 : Rat) < period := by exact_mod_cast hp
  refine div_nonneg (List.sum_nonneg fun x hx => h x ?_) hperiod.le
  exact List.mem_of_mem_drop (List.mem_of_mem_take hx)

theorem exists_rsi (hp : 0 < period) (hlen : period + 1 ≤ prices.length) :
    ∃ xs, @rsi Rat (arith r) prices period = .ok xs ∧ ∀ x ∈ xs, 0 ≤ x ∧ x < 100 := by
  let _ := arith r
  have hgains : ∀ x ∈ (changes prices).map (larger · 0.0), 0 ≤ x := by
    intro x hx
    obtain ⟨d, -, rfl⟩ := List.mem_map.mp hx
    exact larger_nonneg d
  have hlosses : ∀ x ∈ (changes prices).map (fun d => size (smaller d 0.0)), 0 ≤ x := by
    intro x hx
    obtain ⟨d, -, rfl⟩ := List.mem_map.mp hx
    exact size_smaller_nonneg d
  have hweight : (0 : Rat) ≤ ((period - 1 : Int) : Rat) := by
    have : 0 ≤ period - 1 := by omega
    exact_mod_cast this
  have hsteps : ∀ step ∈ (((changes prices).map (larger · 0.0)).zip
      ((changes prices).map fun d => size (smaller d 0.0))).drop period.toNat,
      0 ≤ step.1 ∧ 0 ≤ step.2 := by
    intro step hstep
    have hmem := List.of_mem_zip (List.mem_of_mem_drop hstep)
    exact ⟨hgains _ hmem.1, hlosses _ hmem.2⟩
  obtain ⟨xs, hxs, hranges⟩ := exists_strengths (r := r) hp hweight hsteps
    (mean_nonneg hp hgains 0 period) (mean_nonneg hp hlosses 0 period)
  refine ⟨xs, bind_ok_iff.mpr ⟨(), checkEnough_eq hlen _, ?_⟩, hranges⟩
  refine bind_ok_iff.mpr ⟨_, mean_eq hp _, bind_ok_iff.mpr ⟨_, mean_eq hp _, ?_⟩⟩
  refine bind_ok_iff.mpr ⟨_, rfl, bind_ok_iff.mpr ⟨_, if_pos hp.le, hxs⟩⟩

/-! ### Bands -/

/-- The mean square of the distances of a window from its center. -/
def variance {α : Type} [Arith α] (window : List α) (center : α) (period : Int) :
    Except Failure α := do
  let squares ← window.mapM fun x => squared (x - center)
  mean squares period

theorem deviation_eq {α : Type} [Arith α] (window : List α) (center : α) (period : Int) :
    deviation window center period = variance window center period >>= root := by
  rw [deviation, variance, bind_assoc]

/-- **A variance is not below zero,** so that it has a root. -/
theorem variance_nonneg (hp : 0 < period) (window : List Rat) (center : Rat) :
    ∃ v, @variance Rat (arith r) window center period = .ok v ∧ 0 ≤ v := by
  let _ := arith r
  have hsquares : window.mapM (fun x => squared (x - center)) =
      .ok (window.map fun x => (x - center) * (x - center)) := List.mapM_pure
  have hsum : 0 ≤ (window.map fun x => (x - center) * (x - center)).sum := by
    refine List.sum_nonneg fun y hy => ?_
    obtain ⟨x, -, rfl⟩ := List.mem_map.mp hy
    exact mul_self_nonneg _
  have hperiod : (0 : Rat) < period := by exact_mod_cast hp
  exact ⟨_, bind_ok_iff.mpr ⟨_, hsquares, mean_eq hp _⟩, div_nonneg hsum hperiod.le⟩

theorem exists_deviation (hp : 0 < period) (window : List Rat) (center : Rat) :
    ∃ v, @variance Rat (arith r) window center period = .ok v ∧ 0 ≤ v ∧
      @deviation Rat (arith r) window center period = .ok (r v) := by
  let _ := arith r
  obtain ⟨v, hv, hnonneg⟩ := variance_nonneg (r := r) hp window center
  refine ⟨v, hv, hnonneg, ?_⟩
  rw [deviation_eq]
  refine bind_ok_iff.mpr ⟨v, hv, if_neg ?_⟩
  show ¬ v < (0.0 : Rat)
  rw [zero_eq, not_lt]
  exact hnonneg

theorem exists_bollinger (hp : 0 < period) (hlen : period ≤ prices.length) (deviations : Rat) :
    ∃ b, @bollinger Rat (arith r) prices period deviations = .ok b := by
  let _ := arith r
  refine (exists_mapM fun entry _ => ?_).elim fun widths hwidths =>
    ⟨_, bind_ok_iff.mpr ⟨(), checkEnough_eq hlen _, bind_ok_iff.mpr ⟨_, sma_eq hp hlen,
      bind_ok_iff.mpr ⟨widths, hwidths, rfl⟩⟩⟩⟩
  obtain ⟨v, -, -, hv⟩ := exists_deviation (r := r) hp
    (slice prices entry.2 (entry.2 + period)) entry.1
  exact ⟨deviations * r v, bind_ok_iff.mpr ⟨_, hv, rfl⟩⟩

/-! ### Convergence and divergence -/

/-- **The means and the signal line of a convergence exist** if there are prices enough for the longer
mean, and means enough for the signal line. -/
theorem exists_macd {fast slow signal : Int} (hf : 0 < fast) (hs : 0 < slow) (hn : 0 < signal)
    (hlen : slow + signal ≤ prices.length) (hfast : fast + signal ≤ prices.length + 1) :
    ∃ m, @macd Rat (arith r) prices fast slow signal = .ok m := by
  let _ := arith r
  obtain ⟨fasts, hfasts, hlong⟩ := exists_ema (r := r) hf (by omega : fast ≤ prices.length)
  obtain ⟨slows, hslows, hlong'⟩ := exists_ema (r := r) hs (by omega : slow ≤ prices.length)
  have hline : signal ≤ (fasts.zipWith (· - ·) slows).length := by
    rw [List.length_zipWith]
    omega
  exact ⟨_, bind_ok_iff.mpr ⟨(), checkEnough_eq hlen _, bind_ok_iff.mpr ⟨fasts, hfasts,
    bind_ok_iff.mpr ⟨slows, hslows, bind_ok_iff.mpr ⟨_, ema_eq hn hline, rfl⟩⟩⟩⟩⟩

/-- **A convergence with too few prices for its fast mean, or too few means for its signal line,** is
refused for that mean, whatever the slow period promised. -/
theorem macd_error {fast slow signal : Int} (hf : 0 < fast) (hs : 0 < slow)
    (hlen : slow + signal ≤ prices.length) (hfast : prices.length + 1 < fast + signal) :
    @macd Rat (arith r) prices fast slow signal = .error (
      if prices.length < fast then shortage prices.length fast s!"EMA({fast})"
      else shortage (prices.length + 1 - fast).toNat signal s!"EMA({signal})") := by
  let _ := arith r
  refine bind_error_iff.mpr (.inr ⟨(), checkEnough_eq hlen _, ?_⟩)
  by_cases hshort : prices.length < fast
  · rw [if_pos hshort]
    exact bind_error_iff.mpr (.inl (ema_error hshort))
  · rw [if_neg hshort]
    obtain ⟨fasts, hfasts, hlong⟩ := exists_ema (r := r) hf (by omega : fast ≤ prices.length)
    obtain ⟨slows, hslows, hlong'⟩ := exists_ema (r := r) hs (by omega : slow ≤ prices.length)
    have hline : (fasts.zipWith (· - ·) slows).length = (prices.length + 1 - fast).toNat := by
      rw [List.length_zipWith]
      omega
    refine bind_error_iff.mpr (.inr ⟨fasts, hfasts, bind_error_iff.mpr (.inr ⟨slows, hslows,
      bind_error_iff.mpr (.inl ?_)⟩)⟩)
    rw [← hline]
    exact ema_error (by omega)

end Indicator

end PaperTrading
