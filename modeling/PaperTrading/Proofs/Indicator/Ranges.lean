import Mathlib.Tactic.Ring
import PaperTrading.Proofs.Indicator.Existence

/-!
# Ranges of indicators

In exact arithmetic the values of an indicator keep to a range.  A mean lies between the least and the
greatest of the prices that went into it, an index between zero and a hundred, and the bands lie as
far below their middle as above it.

* `Within`: a number between the least and the greatest entry of a window; `Within.mono`: of a longer
  window too.
* `mean_within`, `drawn_within`: a mean, and what is drawn from one toward a price.
* `smooth_within`: **an exponential mean keeps within the prices up to its bar.**
* `bollinger_at`: the three bands at one bar.
* `series_in_range`: **the ranges of all series.**
-/

namespace PaperTrading

/-! ### Between the least and the greatest -/

/-- **Between the least and the greatest entry of a window.** -/
def Within (window : List Rat) (x : Rat) : Prop :=
  ∃ least greatest, window.min? = some least ∧ window.max? = some greatest ∧
    least ≤ x ∧ x ≤ greatest

section Within

variable {window longer : List Rat} {x y : Rat}

theorem within_iff : Within window x ↔ (∃ a ∈ window, a ≤ x) ∧ ∃ b ∈ window, x ≤ b := by
  constructor
  · rintro ⟨least, greatest, hleast, hgreatest, hl, hg⟩
    exact ⟨⟨least, (List.min?_eq_some_iff.mp hleast).1, hl⟩,
      ⟨greatest, (List.max?_eq_some_iff.mp hgreatest).1, hg⟩⟩
  · rintro ⟨⟨a, ha, hax⟩, b, hb, hxb⟩
    obtain ⟨least, hleast⟩ := Option.isSome_iff_exists.mp (List.isSome_min?_of_mem ha)
    obtain ⟨greatest, hgreatest⟩ := Option.isSome_iff_exists.mp (List.isSome_max?_of_mem hb)
    exact ⟨least, greatest, hleast, hgreatest,
      ((List.min?_eq_some_iff.mp hleast).2 a ha).trans hax,
      hxb.trans ((List.max?_eq_some_iff.mp hgreatest).2 b hb)⟩

theorem within_of_mem (h : x ∈ window) : Within window x :=
  within_iff.mpr ⟨⟨x, h, le_rfl⟩, x, h, le_rfl⟩

theorem Within.mono (h : Within window x) (hsub : window ⊆ longer) : Within longer x := by
  obtain ⟨⟨a, ha, hax⟩, b, hb, hxb⟩ := within_iff.mp h
  exact within_iff.mpr ⟨⟨a, hsub ha, hax⟩, b, hsub hb, hxb⟩

/-- The mean of a window. -/
theorem mean_within {n : Nat} (hn : 1 ≤ n) (hlen : window.length = n) :
    Within window (window.sum / n) := by
  have hpos : (0 : Rat) < n := by exact_mod_cast hn
  have hne : window ≠ [] := List.length_pos_iff.mp (by omega)
  obtain ⟨a, ha⟩ := List.exists_mem_of_ne_nil window hne
  obtain ⟨least, greatest, hleast, hgreatest, -, -⟩ := within_of_mem ha
  refine ⟨least, greatest, hleast, hgreatest, ?_, ?_⟩
  · have hsum := List.card_nsmul_le_sum window least (List.min?_eq_some_iff.mp hleast).2
    rw [hlen, nsmul_eq_mul, mul_comm] at hsum
    exact (le_div_iff₀ hpos).mpr hsum
  · have hsum := List.sum_le_card_nsmul window greatest (List.max?_eq_some_iff.mp hgreatest).2
    rw [hlen, nsmul_eq_mul, mul_comm] at hsum
    exact (div_le_iff₀ hpos).mpr hsum

/-- A number drawn toward another by a weight from zero to one stays between what both are between. -/
theorem drawn_within {k : Rat} (hk : 0 ≤ k) (hk' : k ≤ 1) (hx : Within window x)
    (hy : Within window y) : Within window ((y - x) * k + x) := by
  obtain ⟨least, greatest, hleast, hgreatest, hxl, hxg⟩ := hx
  obtain ⟨least', greatest', hleast', hgreatest', hyl, hyg⟩ := hy
  obtain rfl := Option.some.inj (hleast.symm.trans hleast')
  obtain rfl := Option.some.inj (hgreatest.symm.trans hgreatest')
  have hrest : 0 ≤ 1 - k := sub_nonneg.mpr hk'
  have hdrawn : (y - x) * k + x = y * k + x * (1 - k) := by ring
  rw [hdrawn]
  refine ⟨least, greatest, hleast, hgreatest, ?_, ?_⟩
  · calc least = least * k + least * (1 - k) := by ring
      _ ≤ y * k + x * (1 - k) := by gcongr
  · calc y * k + x * (1 - k) ≤ greatest * k + greatest * (1 - k) := by gcongr
      _ = greatest := by ring

end Within

namespace Indicator

open Arith Exact

variable {r : Rat → Rat} {prices : List Rat} {n : Nat}

/-! ### Means -/

/-- The prices of one window. -/
theorem slice_window {j : Nat} (h : j + n ≤ prices.length) :
    slice prices j ((j : Int) + n) = (prices.drop j).take n := by
  rw [show ((j : Int) + n) = ((j + n : Nat) : Int) by push_cast; rfl,
    slice_of_le (by omega) h, Nat.add_sub_cancel_left]

theorem window_within (hn : 1 ≤ n) {j : Nat} (h : j + n ≤ prices.length) :
    Within ((prices.drop j).take n) (((prices.drop j).take n).sum / n) :=
  mean_within hn (by rw [List.length_take, List.length_drop]; omega)

theorem sma_within (hn : 1 ≤ n) (hlen : n ≤ prices.length) :
    ∃ xs, @sma Rat (arith r) prices n = .ok xs ∧ xs.length = prices.length - n + 1 ∧
      ∀ j x, xs[j]? = some x → Within ((prices.drop j).take n) x := by
  have hsma : @sma Rat (arith r) prices n = .ok _ := sma_eq (by omega) (by omega)
  refine ⟨_, hsma, ?_, ?_⟩
  · rw [List.length_map, List.length_range]
    omega
  · intro j x hx
    obtain ⟨hj, rfl⟩ := List.getElem?_eq_some_iff.mp hx
    rw [List.length_map, List.length_range] at hj
    rw [List.getElem_map, List.getElem_range, slice_window (by omega)]
    exact window_within hn (by omega)

/-- **An exponential mean keeps within the prices up to its bar,** because it is drawn toward each of
them by a weight of at most one. -/
theorem smooth_within {k : Rat} (hk : 0 ≤ k) (hk' : k ≤ 1) {seen ps : List Rat} {previous : Rat}
    (h : Within seen previous) {j : Nat} {x : Rat}
    (hx : (@smooth Rat (arith r) k previous ps)[j]? = some x) : Within (seen ++ ps.take j) x := by
  induction ps generalizing seen previous j with
  | nil =>
    obtain ⟨hj, rfl⟩ := List.getElem?_eq_some_iff.mp hx
    obtain rfl : j = 0 := Nat.lt_one_iff.mp hj
    rwa [List.take_nil, List.append_nil]
  | cons p ps ih =>
    cases j with
    | zero =>
      obtain rfl := Option.some.inj hx
      rwa [List.take_zero, List.append_nil]
    | succ j =>
      have hseen : Within (seen ++ [p]) previous := h.mono (List.subset_append_left _ _)
      have hprice : Within (seen ++ [p]) p := within_of_mem (by simp)
      have hrest := ih (drawn_within hk hk' hseen hprice) hx
      rwa [List.append_assoc] at hrest

theorem ema_within (hn : 1 ≤ n) (hlen : n ≤ prices.length) :
    ∃ xs, @ema Rat (arith r) prices n = .ok xs ∧ xs.length = prices.length - n + 1 ∧
      ∀ j x, xs[j]? = some x → Within (prices.take (n + j)) x := by
  have hema : @ema Rat (arith r) prices n = .ok _ := ema_eq (by omega) (by omega)
  have hlength := @length_ema Rat (arith r) _ _ (by omega : 0 < (n : Int)) _ hema
  refine ⟨_, hema, by omega, fun j x hx => ?_⟩
  have hfirst : slice prices 0 (n : Int) = prices.take n := by
    simpa using slice_window (by omega : 0 + n ≤ prices.length)
  have hrest : slice prices (n : Int) prices.length = prices.drop n := by
    rw [slice_of_le hlen le_rfl, List.take_of_length_le (by rw [List.length_drop])]
  rw [hfirst, hrest] at hx
  have hweight : (2 : Rat) / (n + 1) ≤ 1 := by
    have : (1 : Rat) ≤ n := by exact_mod_cast hn
    rw [div_le_one (by positivity)]
    linarith
  rw [List.take_add]
  exact smooth_within (by positivity) hweight
    (mean_within hn (by rw [List.length_take]; omega)) hx

/-! ### Bands -/

/-- **The three bands at one bar.** -/
theorem bollinger_at {α : Type} [Arith α] {prices : List α} {period : Int} {deviations : α}
    {b : Bands α} (h : bollinger prices period deviations = .ok b) {j : Nat} {m : α}
    (hm : b.middle[j]? = some m) : ∃ s, deviation (slice prices j (j + period)) m period = .ok s ∧
      b.upper[j]? = some (m + deviations * s) ∧ b.lower[j]? = some (m - deviations * s) := by
  simp only [bollinger, bind_ok_iff, pure_ok_iff] at h
  obtain ⟨-, -, middle, -, widths, hwidths, rfl⟩ := h
  have hentry : middle.zipIdx[j]? = some (m, j) := by
    rw [List.getElem?_zipIdx, show middle[j]? = some m from hm]
    simp
  obtain ⟨w, hw, hwj⟩ := entry_of_mapM hwidths hentry
  simp only [bind_ok_iff, pure_ok_iff] at hw
  obtain ⟨s, hs, rfl⟩ := hw
  refine ⟨s, hs, ?_, ?_⟩
  · exact List.getElem?_zipWith_eq_some.mpr ⟨m, _, hm, hwj, rfl⟩
  · exact List.getElem?_zipWith_eq_some.mpr ⟨m, _, hm, hwj, rfl⟩

/-- Bands around a mean, with a root that is not below zero. -/
theorem bollinger_around (hn : 1 ≤ n) {deviations : Rat} {b : Bands Rat}
    (h : @bollinger Rat (arith r) prices n deviations = .ok b) {j : Nat} {l m u : Rat}
    (hl : b.lower[j]? = some l) (hm : b.middle[j]? = some m) (hu : b.upper[j]? = some u) :
    ∃ v, @variance Rat (arith r) ((prices.drop j).take n) m n = .ok v ∧ 0 ≤ v ∧
      l = m - deviations * r v ∧ u = m + deviations * r v := by
  let _ := arith r
  obtain ⟨s, hs, hu', hl'⟩ := bollinger_at h hm
  obtain rfl := Option.some.inj (hl.symm.trans hl')
  obtain rfl := Option.some.inj (hu.symm.trans hu')
  have hj : j < b.middle.length := (List.getElem?_eq_some_iff.mp hm).1
  have hlen := (length_bollinger h).1
  obtain ⟨v, hv, hnonneg, hroot⟩ := exists_deviation (r := r) (by omega : 0 < (n : Int))
    ((prices.drop j).take n) m
  rw [slice_window (by omega), hroot, Except.ok.injEq] at hs
  subst hs
  exact ⟨v, hv, hnonneg, rfl, rfl⟩

/-! ### All series -/

/-- **The ranges of all series.**  From as many prices as the period on, a mean lies between the least
and the greatest price of its window, an exponential mean between those of the prices up to its bar,
and the bands lie as far below their middle as above it, with no variance below zero.  From one price
more on, an index lies from zero up to a hundred.  An index never divides by zero. -/
theorem series_in_range (root : Rat → Rat) (prices : List Rat) (n : Nat) (hn : 1 ≤ n) :
    letI := Exact.arith root
    (n ≤ prices.length →
      (∃ xs, sma prices n = .ok xs ∧ xs.length = prices.length - n + 1 ∧
        ∀ j x, xs[j]? = some x → Within ((prices.drop j).take n) x) ∧
      (∃ xs, ema prices n = .ok xs ∧ xs.length = prices.length - n + 1 ∧
        ∀ j x, xs[j]? = some x → Within (prices.take (n + j)) x) ∧
      ∀ deviations : Rat, ∃ b, bollinger prices n deviations = .ok b ∧
        b.middle.length = prices.length - n + 1 ∧ b.upper.length = b.middle.length ∧
        b.lower.length = b.middle.length ∧
        ∀ j l m u, b.lower[j]? = some l → b.middle[j]? = some m → b.upper[j]? = some u →
          (∃ v, variance ((prices.drop j).take n) m n = .ok v ∧ 0 ≤ v ∧
            l = m - deviations * root v ∧ u = m + deviations * root v) ∧
          u - m = m - l ∧
          ((∀ x, 0 ≤ x → 0 ≤ root x) → 0 ≤ deviations → l ≤ m ∧ m ≤ u)) ∧
    (n < prices.length → ∃ xs, rsi prices n = .ok xs ∧ xs.length = prices.length - n ∧
      ∀ x ∈ xs, 0 ≤ x ∧ x < 100) ∧
    ∀ integers, rsi prices n ≠ .error (.divisionByZero integers) := by
  let _ := Exact.arith root
  have hpos : 0 < (n : Int) := by omega
  have hindex : n < prices.length → ∃ xs, rsi prices n = .ok xs ∧
      xs.length = prices.length - n ∧ ∀ x ∈ xs, 0 ≤ x ∧ x < 100 := by
    intro hlen
    obtain ⟨xs, hxs, hrange⟩ := exists_rsi (r := root) hpos (by omega : (n : Int) + 1 ≤ prices.length)
    have hlength := length_rsi hpos hxs
    exact ⟨xs, hxs, by omega, hrange⟩
  refine ⟨fun hlen => ⟨sma_within hn hlen, ema_within hn hlen, fun deviations => ?_⟩, hindex, ?_⟩
  · obtain ⟨b, hb⟩ := exists_bollinger (r := root) hpos (by omega : (n : Int) ≤ prices.length)
      deviations
    obtain ⟨hmiddle, hupper, hlower⟩ := length_bollinger hb
    refine ⟨b, hb, by omega, hupper, hlower, fun j l m u hl hm hu => ?_⟩
    obtain ⟨v, hv, hnonneg, rfl, rfl⟩ := bollinger_around hn hb hl hm hu
    refine ⟨⟨v, hv, hnonneg, rfl, rfl⟩, by ring, fun hroot hdeviations => ?_⟩
    have hwidth := mul_nonneg hdeviations (hroot v hnonneg)
    constructor <;> linarith
  · intro integers h
    by_cases hlen : n < prices.length
    · obtain ⟨xs, hxs, -⟩ := hindex hlen
      rw [hxs] at h
      cases h
    · rw [rsi, checkEnough, if_pos (by omega)] at h
      unfold shortage at h
      split at h <;> cases h

/-- The ranges of the series of four prices with a period of two. -/
theorem series_in_range_of_four :
    letI := Exact.arith fun x => x
    ∃ prices : List Rat, prices = [4, 8, 2, 2] ∧
      sma prices 2 = .ok [6, 5, 2] ∧ Within [8, 2] 5 ∧
      ema prices 2 = .ok [6, 10 / 3, 22 / 9] ∧ Within prices (22 / 9) ∧
      (∃ b, bollinger prices 2 (2 : Rat) = .ok b ∧ b.upper = [14, 23, 2] ∧ b.middle = [6, 5, 2] ∧
        b.lower = [-2, -13, 2] ∧ (-13 : Rat) ≤ 5 ∧ (5 : Rat) ≤ 23) ∧
      rsi prices 2 = .ok [40, 40] ∧ ∀ x ∈ ([40, 40] : List Rat), 0 ≤ x ∧ x < 100 := by
  let _ := Exact.arith fun x => x
  have hsma : sma ([4, 8, 2, 2] : List Rat) 2 = .ok [6, 5, 2] := by decide +kernel
  have hema : ema ([4, 8, 2, 2] : List Rat) 2 = .ok [6, 10 / 3, 22 / 9] := by decide +kernel
  have hrsi : rsi ([4, 8, 2, 2] : List Rat) 2 = .ok [40, 40] := by decide +kernel
  have hbands : (bollinger ([4, 8, 2, 2] : List Rat) 2 (2 : Rat)).map
      (fun b => (b.upper, b.middle, b.lower)) =
      .ok ([14, 23, 2], [6, 5, 2], [-2, -13, 2]) := by decide +kernel
  obtain ⟨hranges, hindex, -⟩ := series_in_range (fun x => x) [4, 8, 2, 2] 2 (by decide)
  obtain ⟨⟨means, hmeans, -, hmean⟩, ⟨drawn, hdrawn, -, hdraw⟩, hbollinger⟩ := hranges (by decide)
  obtain ⟨xs, hxs, -, hindex⟩ := hindex (by decide)
  obtain ⟨b, hb, -, -, -, hband⟩ := hbollinger 2
  rw [show bollinger [4, 8, 2, 2] 2 (2 : Rat) = .ok b from hb] at hbands
  obtain ⟨hupper, hmiddle, hlower⟩ : b.upper = [14, 23, 2] ∧ b.middle = [6, 5, 2] ∧
      b.lower = [-2, -13, 2] := by simpa using Except.ok.inj hbands
  obtain rfl := Except.ok.inj (hsma.symm.trans hmeans)
  obtain rfl := Except.ok.inj (hema.symm.trans hdrawn)
  obtain rfl := Except.ok.inj (hrsi.symm.trans hxs)
  have hordered := (hband 1 (-13) 5 23 (by rw [hlower]; rfl) (by rw [hmiddle]; rfl)
    (by rw [hupper]; rfl)).2.2 (fun _ h => h) (by norm_num)
  exact ⟨_, rfl, hsma, hmean 1 5 rfl, hema, hdraw 2 (22 / 9) rfl,
    ⟨b, hb, hupper, hmiddle, hlower, hordered⟩, hrsi, hindex⟩

end Indicator

end PaperTrading
