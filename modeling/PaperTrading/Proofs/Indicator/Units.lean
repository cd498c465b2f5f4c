import PaperTrading.Proofs.Indicator.Ranges

/-!
# Prices in another unit

Prices may be quoted in another unit, in cents, or over another zero.  In exact arithmetic the means of
prices follow such a change, the distances of means follow its factor, and the relative strength,
which is a ratio, does not notice it, wherever there is a loss to divide by.

* `rescaled`: a price in another unit.
* `sma_rescaled`, `ema_rescaled`, `macd_rescaled`: **means and their distances.**
* `averages`, `smoothed`: the averages of gains and of losses that an index is the ratio of;
  `rsi_ok`: an index is the strength of its two averages.
* `strength_scaled`: a ratio of averages does not depend on the unit.
* `series_rescaled`: **all series in another unit.**
-/

namespace PaperTrading

namespace Indicator

open Arith

/-- A price in another unit: a factor times the price, over another zero. -/
def rescaled (a b x : Rat) : Rat := a * x + b

/-- A convergence with every value of its three lines multiplied. -/
def Macd.scaled (a : Rat) (m : Macd Rat) : Macd Rat :=
  ⟨m.macd.map (a * ·), m.signal.map (a * ·), m.histogram.map (a * ·)⟩

/-! ### Smoothed averages -/

section Averages

variable {α : Type}

theorem slice_map {β : Type} (f : α → β) (xs : List α) (i j : Int) :
    slice (xs.map f) i j = (slice xs i j).map f := by
  simp only [slice, List.length_map, List.map_drop, List.map_take]

variable [Arith α] {prices : List α} {period : Int}

/-- The rises among the changes of a price; a fall counts as zero. -/
def gains (prices : List α) : List α := (changes prices).map (larger · 0.0)

/-- The falls among the changes of a price, without their sign; a rise counts as zero. -/
def losses (prices : List α) : List α := (changes prices).map fun d => size (smaller d 0.0)

/-- The averages from a first one on, one for every further step. -/
def averages (weight : α) (period : Int) : α → List α → Except Failure (List α)
  | average, [] => .ok [average]
  | average, step :: steps => do
    let next ← nextAverage weight period average step
    return average :: (← averages weight period next steps)

/-- **The smoothed averages of some steps,** seeded with the mean of the first `period` of them. -/
def smoothed (steps : List α) (period : Int) : Except Failure (List α) := do
  let first ← mean (slice steps 0 period) period
  averages (← ofInteger α (period - 1)) period first (← entriesFrom steps period)

theorem length_averages {weight average : α} {steps xs : List α}
    (h : averages weight period average steps = .ok xs) : xs.length = steps.length + 1 := by
  induction steps generalizing average xs with
  | nil =>
    obtain rfl := Except.ok.inj h
    rfl
  | cons step steps ih =>
    simp only [averages, bind_ok_iff, pure_ok_iff] at h
    obtain ⟨next, -, rest, hrest, rfl⟩ := h
    rw [List.length_cons, List.length_cons, ih hrest]

theorem length_smoothed (hp : 0 < period) {steps xs : List α} (h : smoothed steps period = .ok xs) :
    xs.length = steps.length - period.toNat + 1 := by
  simp only [smoothed, entriesFrom, if_pos hp.le, bind_ok_iff] at h
  obtain ⟨first, -, weight, -, rest, hrest, h⟩ := h
  obtain rfl := Except.ok.inj hrest
  rw [length_averages h, List.length_drop]

/-- **The indices are the strengths of two series of averages,** taken together. -/
theorem strengths_ok {weight gain loss : α} {steps : List (α × α)} {xs : List α}
    (h : strengths weight period gain loss steps = .ok xs) : ∃ gs ls,
      averages weight period gain (steps.map Prod.fst) = .ok gs ∧
      averages weight period loss (steps.map Prod.snd) = .ok ls ∧
      (gs.zip ls).mapM (fun p => strength p.1 p.2) = .ok xs := by
  induction steps generalizing gain loss xs with
  | nil =>
    simp only [strengths, bind_ok_iff, pure_ok_iff] at h
    obtain ⟨x, hx, rfl⟩ := h
    exact ⟨[gain], [loss], rfl, rfl, bind_ok_iff.mpr ⟨x, hx, rfl⟩⟩
  | cons step steps ih =>
    simp only [strengths, bind_ok_iff, pure_ok_iff] at h
    obtain ⟨x, hx, gain', hgain, loss', hloss, rest, hrest, rfl⟩ := h
    obtain ⟨gs, ls, hgs, hls, hmap⟩ := ih hrest
    refine ⟨gain :: gs, loss :: ls, ?_, ?_, ?_⟩
    · exact bind_ok_iff.mpr ⟨gain', hgain, bind_ok_iff.mpr ⟨gs, hgs, rfl⟩⟩
    · exact bind_ok_iff.mpr ⟨loss', hloss, bind_ok_iff.mpr ⟨ls, hls, rfl⟩⟩
    · rw [List.zip_cons_cons, List.mapM_cons]
      exact bind_ok_iff.mpr ⟨x, hx, bind_ok_iff.mpr ⟨rest, hmap, rfl⟩⟩

/-- **An index is the strength of its smoothed gain and its smoothed loss.** -/
theorem rsi_ok (hp : 0 < period) {xs : List α} (h : rsi prices period = .ok xs) : ∃ gs ls,
    smoothed (gains prices) period = .ok gs ∧ smoothed (losses prices) period = .ok ls ∧
      (gs.zip ls).mapM (fun p => strength p.1 p.2) = .ok xs := by
  simp only [rsi, bind_ok_iff] at h
  obtain ⟨-, -, gain, hgain, loss, hloss, weight, hweight, steps, hsteps, h⟩ := h
  rw [entriesFrom, if_pos hp.le] at hsteps
  obtain rfl := Except.ok.inj hsteps
  obtain ⟨gs, ls, hgs, hls, hmap⟩ := strengths_ok h
  have hlen : (gains prices).length = (losses prices).length := by
    rw [gains, losses, List.length_map, List.length_map]
  have hgs : averages weight period gain ((gains prices).drop period.toNat) = .ok gs := by
    rw [← List.map_fst_zip hlen.le, ← List.map_drop]
    exact hgs
  have hls : averages weight period loss ((losses prices).drop period.toNat) = .ok ls := by
    rw [← List.map_snd_zip hlen.ge, ← List.map_drop]
    exact hls
  exact ⟨gs, ls, bind_ok_iff.mpr ⟨gain, hgain, bind_ok_iff.mpr ⟨weight, hweight,
      bind_ok_iff.mpr ⟨_, if_pos hp.le, hgs⟩⟩⟩,
    bind_ok_iff.mpr ⟨loss, hloss, bind_ok_iff.mpr ⟨weight, hweight,
      bind_ok_iff.mpr ⟨_, if_pos hp.le, hls⟩⟩⟩, hmap⟩

theorem entry_of_strengths {gs ls xs : List α}
    (h : (gs.zip ls).mapM (fun p => strength p.1 p.2) = .ok xs) {j : Nat} {g l : α}
    (hg : gs[j]? = some g) (hl : ls[j]? = some l) :
    ∃ x, strength g l = .ok x ∧ xs[j]? = some x :=
  entry_of_mapM (x := (g, l)) h (List.getElem?_zip_eq_some.mpr ⟨hg, hl⟩)

end Averages

/-! ### Means -/

open Exact

variable {r : Rat → Rat} {prices : List Rat} {period : Int} {a b : Rat}

theorem rescaled_zero (a : Rat) : rescaled a 0 = (a * ·) := by
  funext x
  rw [rescaled, add_zero]

theorem sum_rescaled (a b : Rat) (xs : List Rat) :
    (xs.map (rescaled a b)).sum = a * xs.sum + xs.length * b := by
  induction xs with
  | nil => simp
  | cons x xs ih =>
    rw [List.map_cons, List.sum_cons, List.sum_cons, ih, List.length_cons, rescaled]
    push_cast
    ring

/-- The mean of a whole window follows a change of unit. -/
theorem mean_rescaled (hp : 0 < period) {window : List Rat} (hlen : (window.length : Int) = period)
    (a b : Rat) : (window.map (rescaled a b)).sum / period = rescaled a b (window.sum / period) := by
  have hlength : (window.length : Rat) = period := by exact_mod_cast hlen
  have hne : (period : Rat) ≠ 0 := by exact_mod_cast hp.ne'
  rw [sum_rescaled, hlength, rescaled, add_div, mul_div_assoc, mul_div_cancel_left₀ b hne]

theorem length_window (hp : 0 < period) {j : Nat} (h : j + period ≤ prices.length) :
    ((slice prices j (j + period)).length : Int) = period := by
  obtain ⟨n, rfl⟩ := Int.eq_ofNat_of_zero_le hp.le
  rw [slice_window (by omega), List.length_take, List.length_drop]
  omega

theorem sma_error (hlen : prices.length < period) : @sma Rat (arith r) prices period =
    .error (shortage prices.length period s!"SMA({period})") := by
  let _ := arith r
  unfold sma checkEnough
  rw [if_pos hlen]
  rfl

/-- **A trailing mean follows a change of unit.** -/
theorem sma_rescaled (hp : 0 < period) (a b : Rat) :
    @sma Rat (arith r) (prices.map (rescaled a b)) period =
      (@sma Rat (arith r) prices period).map (List.map (rescaled a b)) := by
  by_cases hlen : period ≤ prices.length
  · rw [sma_eq hp (by rwa [List.length_map]), sma_eq hp hlen, List.length_map]
    show Except.ok _ = Except.ok _
    rw [List.map_map]
    refine congrArg Except.ok (List.map_congr_left fun j hj => ?_)
    rw [List.mem_range] at hj
    rw [slice_map]
    exact mean_rescaled hp (length_window hp (by omega)) a b
  · rw [sma_error (by rw [List.length_map]; omega), sma_error (by omega), List.length_map]
    rfl

/-- What is drawn toward a price follows a change of unit with both. -/
theorem smooth_rescaled (k a b previous : Rat) (ps : List Rat) :
    @smooth Rat (arith r) k (rescaled a b previous) (ps.map (rescaled a b)) =
      (@smooth Rat (arith r) k previous ps).map (rescaled a b) := by
  induction ps generalizing previous with
  | nil => rfl
  | cons p ps ih =>
    have hdrawn : (rescaled a b p - rescaled a b previous) * k + rescaled a b previous =
        rescaled a b ((p - previous) * k + previous) := by
      unfold rescaled
      ring
    show rescaled a b previous :: @smooth Rat (arith r) k
      ((rescaled a b p - rescaled a b previous) * k + rescaled a b previous) _ = _
    rw [hdrawn, ih]
    rfl

/-- **An exponential mean follows a change of unit.** -/
theorem ema_rescaled (hp : 0 < period) (a b : Rat) :
    @ema Rat (arith r) (prices.map (rescaled a b)) period =
      (@ema Rat (arith r) prices period).map (List.map (rescaled a b)) := by
  by_cases hlen : period ≤ prices.length
  · have hfirst : ((slice prices 0 period).length : Int) = period := by
      simpa using length_window (j := 0) hp (by omega)
    rw [ema_eq hp (by rwa [List.length_map]), ema_eq hp hlen, slice_map, slice_map,
      List.length_map, mean_rescaled hp hfirst, smooth_rescaled]
    rfl
  · rw [ema_error (by rw [List.length_map]; omega), ema_error (by omega), List.length_map]
    rfl

/-- The distances of numbers do not depend on where zero is. -/
theorem zipWith_sub_rescaled (a b : Rat) (xs ys : List Rat) :
    (xs.map (rescaled a b)).zipWith (· - ·) (ys.map (rescaled a b)) =
      (xs.zipWith (· - ·) ys).map (rescaled a 0) := by
  rw [List.zipWith_map, List.map_zipWith]
  congr 1
  funext x y
  unfold rescaled
  ring

/-- **The lines of a convergence follow the factor** of a change of unit, whichever of the two means
is the longer. -/
theorem macd_rescaled {fast slow signal : Int} (hf : 0 < fast) (hs : 0 < slow) (hn : 0 < signal)
    (a b : Rat) : @macd Rat (arith r) (prices.map (rescaled a b)) fast slow signal =
      (@macd Rat (arith r) prices fast slow signal).map (Macd.scaled a) := by
  let _ := arith r
  unfold macd
  rw [ema_rescaled hf, ema_rescaled hs, List.length_map]
  cases checkEnough prices.length (slow + signal) s!"MACD({fast},{slow},{signal})" with
  | error f => rfl
  | ok _ =>
    cases ema prices fast with
    | error f => rfl
    | ok fasts =>
      cases ema prices slow with
      | error f => rfl
      | ok slows =>
        show (ema ((fasts.map (rescaled a b)).zipWith (· - ·) (slows.map (rescaled a b))) signal >>=
          _) = Except.map _ (ema (fasts.zipWith (· - ·) slows) signal >>= _)
        rw [zipWith_sub_rescaled, ema_rescaled hn]
        cases ema (fasts.zipWith (· - ·) slows) signal with
        | error f => rfl
        | ok signals =>
          show Except.ok (Macd.mk _ _ _) = Except.ok (Macd.scaled a (Macd.mk _ _ _))
          rw [zipWith_sub_rescaled, rescaled_zero]
          rfl

/-! ### Relative strength -/

theorem changes_rescaled (a b : Rat) (prices : List Rat) :
    @changes Rat (arith r) (prices.map (rescaled a b)) =
      (@changes Rat (arith r) prices).map (a * ·) := by
  let _ := arith r
  induction prices with
  | nil => rfl
  | cons p prices ih =>
    cases prices with
    | nil => rfl
    | cons q prices =>
      have hchange : rescaled a b q - rescaled a b p = a * (q - p) := by
        unfold rescaled
        ring
      show (rescaled a b q - rescaled a b p) :: changes ((q :: prices).map (rescaled a b)) = _
      rw [hchange, ih]
      rfl

theorem larger_scaled (ha : 0 < a) (x : Rat) :
    @larger Rat (arith r) (a * x) 0.0 = a * @larger Rat (arith r) x 0.0 := by
  show (if a * x < 0.0 then (0.0 : Rat) else a * x) = a * if x < 0.0 then 0.0 else x
  rw [zero_eq]
  by_cases hx : x < 0
  · rw [if_pos hx, if_pos (mul_neg_of_pos_of_neg ha hx), mul_zero]
  · rw [if_neg hx, if_neg (not_lt.mpr (mul_nonneg ha.le (not_lt.mp hx)))]

theorem size_smaller_scaled (ha : 0 < a) (x : Rat) :
    @size Rat (arith r) (@smaller Rat (arith r) (a * x) 0.0) =
      a * @size Rat (arith r) (@smaller Rat (arith r) x 0.0) := by
  have hsize : ∀ y : Rat, @size Rat (arith r) (@smaller Rat (arith r) y 0.0) = max (-y) 0 := by
    intro y
    show (if (if (0.0 : Rat) < y then (0.0 : Rat) else y) ≤ 0.0 then
      0.0 - (if (0.0 : Rat) < y then (0.0 : Rat) else y) else if (0.0 : Rat) < y then 0.0 else y) = _
    rw [zero_eq]
    by_cases hy : 0 < y
    · rw [if_pos hy, if_pos le_rfl, sub_zero, max_eq_right (by linarith)]
    · rw [if_neg hy, if_pos (not_lt.mp hy), zero_sub, max_eq_left (by linarith)]
  rw [hsize, hsize, ← mul_neg, mul_max_of_nonneg _ _ ha.le, mul_zero]

theorem gains_rescaled (ha : 0 < a) (b : Rat) (prices : List Rat) :
    @gains Rat (arith r) (prices.map (rescaled a b)) =
      (@gains Rat (arith r) prices).map (a * ·) := by
  unfold gains
  rw [changes_rescaled, List.map_map, List.map_map]
  exact List.map_congr_left fun x _ => larger_scaled ha x

theorem losses_rescaled (ha : 0 < a) (b : Rat) (prices : List Rat) :
    @losses Rat (arith r) (prices.map (rescaled a b)) =
      (@losses Rat (arith r) prices).map (a * ·) := by
  unfold losses
  rw [changes_rescaled, List.map_map, List.map_map]
  exact List.map_congr_left fun x _ => size_smaller_scaled ha x

theorem nextAverage_eq (hp : 0 < period) (weight average step : Rat) :
    @nextAverage Rat (arith r) weight period average step =
      .ok ((average * weight + step) / period) :=
  (dividedBy_ok_iff hp.ne').mpr rfl

/-- Averages of multiplied steps are the multiplied averages. -/
theorem averages_scaled (hp : 0 < period) (a weight average : Rat) (steps : List Rat) :
    @averages Rat (arith r) weight period (a * average) (steps.map (a * ·)) =
      (@averages Rat (arith r) weight period average steps).map (List.map (a * ·)) := by
  let _ := arith r
  induction steps generalizing average with
  | nil => rfl
  | cons step steps ih =>
    have hnext : (a * average * weight + a * step) / period =
        a * ((average * weight + step) / period) := by ring
    show (nextAverage weight period (a * average) (a * step) >>= _) = Except.map _
      (nextAverage weight period average step >>= _)
    rw [nextAverage_eq hp, nextAverage_eq hp, hnext]
    show (averages weight period _ (steps.map (a * ·)) >>= _) = Except.map _
      (averages weight period _ steps >>= _)
    rw [ih]
    cases averages weight period ((average * weight + step) / period) steps with
    | error f => rfl
    | ok rest => rfl

theorem smoothed_eq (hp : 0 < period) (steps : List Rat) :
    @smoothed Rat (arith r) steps period = @averages Rat (arith r) ((period - 1 : Int) : Rat) period
      ((slice steps 0 period).sum / period) (steps.drop period.toNat) := by
  let _ := arith r
  unfold smoothed entriesFrom
  rw [mean_eq hp, if_pos hp.le]
  rfl

theorem smoothed_scaled (hp : 0 < period) (a : Rat) (steps : List Rat) :
    @smoothed Rat (arith r) (steps.map (a * ·)) period =
      (@smoothed Rat (arith r) steps period).map (List.map (a * ·)) := by
  have hfirst : ((slice steps 0 period).map (a * ·)).sum / (period : Rat) =
      a * ((slice steps 0 period).sum / period) := by
    rw [← rescaled_zero, sum_rescaled, mul_zero, add_zero, mul_div_assoc]
  rw [smoothed_eq hp, smoothed_eq hp, slice_map, hfirst, ← List.map_drop, averages_scaled hp]

/-- **The strength of two averages does not depend on their unit,** if there is a loss. -/
theorem strength_scaled (ha : 0 < a) (gain : Rat) {loss : Rat} (hl : loss ≠ 0) :
    @strength Rat (arith r) (a * gain) (a * loss) = @strength Rat (arith r) gain loss := by
  let _ := arith r
  have hzero : ∀ x : Rat, x ≠ 0 → (x == (0.0 : Rat)) = false := by
    intro x hx
    rw [zero_eq, beq_eq_false_iff_ne]
    exact hx
  have hscaled : a * loss ≠ 0 := mul_ne_zero ha.ne' hl
  have hratio : quotient (a * gain) (a * loss) = quotient gain loss := by
    rw [quotient_eq hscaled, quotient_eq hl, mul_div_mul_left gain loss ha.ne']
  unfold strength
  rw [hzero _ hscaled, hzero _ hl]
  show (quotient (a * gain) (a * loss) >>= _) = (quotient gain loss >>= _)
  rw [hratio]

theorem rsi_error (hlen : prices.length < period + 1) : @rsi Rat (arith r) prices period =
    .error (shortage prices.length (period + 1) s!"RSI({period})") := by
  let _ := arith r
  unfold rsi checkEnough
  rw [if_pos hlen]
  rfl

/-- **A relative strength does not notice a change of unit** wherever its smoothed loss is not
zero. -/
theorem rsi_rescaled (hp : 0 < period) (ha : 0 < a) (b : Rat) (hlen : period < prices.length) :
    ∃ xs ys ls : List Rat, @rsi Rat (arith r) prices period = .ok xs ∧
      @rsi Rat (arith r) (prices.map (rescaled a b)) period = .ok ys ∧
      @smoothed Rat (arith r) (@losses Rat (arith r) prices) period = .ok ls ∧
      (ls.length : Int) = prices.length - period ∧ xs.length = ls.length ∧
      ys.length = ls.length ∧ ∀ j : Nat, ls[j]? ≠ some 0 → ys[j]? = xs[j]? := by
  let _ := arith r
  obtain ⟨xs, hxs, -⟩ := exists_rsi (r := r) hp (by omega : period + 1 ≤ prices.length)
  have hlen' : period + 1 ≤ (prices.map (rescaled a b)).length := by
    rw [List.length_map]
    omega
  obtain ⟨ys, hys, -⟩ := exists_rsi (r := r) hp hlen'
  have hlenx := length_rsi hp hxs
  have hleny := length_rsi hp hys
  rw [List.length_map] at hleny
  obtain ⟨gs, ls, hgs, hls, hmap⟩ := rsi_ok hp hxs
  obtain ⟨gs', ls', hgs', hls', hmap'⟩ := rsi_ok hp hys
  rw [gains_rescaled ha, smoothed_scaled hp, hgs] at hgs'
  rw [losses_rescaled ha, smoothed_scaled hp, hls] at hls'
  obtain rfl := Except.ok.inj hgs'
  obtain rfl := Except.ok.inj hls'
  have hsame : gs.length = ls.length := by
    rw [length_smoothed hp hgs, length_smoothed hp hls, gains, losses, List.length_map,
      List.length_map]
  have hls' := length_of_mapM hmap
  rw [List.length_zip, hsame, Nat.min_self] at hls'
  refine ⟨xs, ys, ls, hxs, hys, hls, by omega, hls', by omega, fun j hj => ?_⟩
  by_cases hjl : j < ls.length
  · have hg : gs[j]? = some gs[j] := List.getElem?_eq_getElem (hsame ▸ hjl)
    have hl : ls[j]? = some ls[j] := List.getElem?_eq_getElem hjl
    have hne : ls[j] ≠ 0 := fun hzero => hj (hzero ▸ hl)
    obtain ⟨x, hx, hxj⟩ := entry_of_strengths hmap hg hl
    obtain ⟨y, hy, hyj⟩ := entry_of_strengths hmap'
      (List.getElem?_map.trans (congrArg (Option.map (a * ·)) hg))
      (List.getElem?_map.trans (congrArg (Option.map (a * ·)) hl))
    rw [strength_scaled ha _ hne, hx] at hy
    rw [hxj, hyj, Except.ok.inj hy]
  · rw [List.getElem?_eq_none (by omega), List.getElem?_eq_none (by omega)]

/-! ### All series -/

/-- **All series in another unit.**  Multiply every price by a factor and shift the zero.  Trailing and
exponential means are multiplied and shifted with the prices, and the three lines of a convergence are
multiplied, at every bar and for periods in any order; what is refused for the one prices is refused
for the others.  If the factor is above zero, the relative strength is the same at every bar at which
the smoothed loss is not zero. -/
theorem series_rescaled (root : Rat → Rat) (prices : List Rat) (a b : Rat) :
    letI := Exact.arith root
    (∀ period : Int, 0 < period →
      sma (prices.map fun x => a * x + b) period =
        (sma prices period).map (List.map fun x => a * x + b) ∧
      ema (prices.map fun x => a * x + b) period =
        (ema prices period).map (List.map fun x => a * x + b)) ∧
    (∀ fast slow signal : Int, 0 < fast → 0 < slow → 0 < signal →
      macd (prices.map fun x => a * x + b) fast slow signal =
        (macd prices fast slow signal).map (Macd.scaled a)) ∧
    (0 < a → ∀ period : Int, 0 < period →
      (prices.length ≤ period →
        rsi (prices.map fun x => a * x + b) period = rsi prices period) ∧
      (period < prices.length → ∃ xs ys ls : List Rat, rsi prices period = .ok xs ∧
        rsi (prices.map fun x => a * x + b) period = .ok ys ∧
        smoothed (losses prices) period = .ok ls ∧ (ls.length : Int) = prices.length - period ∧
        xs.length = ls.length ∧ ys.length = ls.length ∧
        ∀ j : Nat, ls[j]? ≠ some 0 → ys[j]? = xs[j]?)) := by
  refine ⟨fun period hp => ⟨sma_rescaled hp a b, ema_rescaled hp a b⟩,
    fun fast slow signal hf hs hn => macd_rescaled hf hs hn a b,
    fun ha period hp => ⟨fun hlen => ?_, rsi_rescaled hp ha b⟩⟩
  rw [rsi_error (by rw [List.length_map]; omega), rsi_error (by omega), List.length_map]

/-- Five prices, doubled and shifted by one, with a fast mean that is the longer one.  At the first bar
there is no loss yet, and the two indices differ; from the second bar on they are the same. -/
theorem series_rescaled_of_five :
    letI := Exact.arith fun x => x
    ∃ prices xs ys : List Rat, prices = [1, 2, 3, 2, 5] ∧
      sma (prices.map fun x => 2 * x + 1) 2 = .ok [4, 6, 6, 8] ∧
      ema (prices.map fun x => 2 * x + 1) 3 = .ok [5, 5, 8] ∧
      (macd (prices.map fun x => 2 * x + 1) 3 2 2).map (·.macd) = .ok [1, -1, 8 / 3] ∧
      rsi prices 2 = .ok xs ∧ rsi (prices.map fun x => 2 * x + 1) 2 = .ok ys ∧
      smoothed (losses prices) 2 = .ok [0, 1 / 2, 1 / 4] ∧
      ys[0]? ≠ xs[0]? ∧ ys[1]? = xs[1]? ∧ ys[2]? = xs[2]? := by
  let _ := Exact.arith fun x => x
  obtain ⟨hmeans, hlines, hindex⟩ := series_rescaled (fun x => x) [1, 2, 3, 2, 5] 2 1
  obtain ⟨hsma, -⟩ := hmeans 2 (by decide)
  obtain ⟨-, hema⟩ := hmeans 3 (by decide)
  have hmacd := hlines 3 2 2 (by decide) (by decide) (by decide)
  obtain ⟨-, hlong⟩ := hindex (by decide) 2 (by decide)
  obtain ⟨xs, ys, ls, hxs, hys, hls, -, -, -, hsame⟩ := hlong (by decide)
  have hfalls : smoothed (losses ([1, 2, 3, 2, 5] : List Rat)) 2 = .ok [0, 1 / 2, 1 / 4] := by
    decide +kernel
  obtain rfl := Except.ok.inj (hfalls.symm.trans hls)
  have hdiffer : (rsi (([1, 2, 3, 2, 5] : List Rat).map fun x => 2 * x + 1) 2).map (·[0]?) ≠
      (rsi ([1, 2, 3, 2, 5] : List Rat) 2).map (·[0]?) := by decide +kernel
  rw [hxs, hys] at hdiffer
  refine ⟨_, xs, ys, rfl, hsma.trans (by decide +kernel), hema.trans (by decide +kernel), ?_, hxs,
    hys, hfalls, fun h => hdiffer (congrArg Except.ok h), hsame 1 (by decide +kernel),
    hsame 2 (by decide +kernel)⟩
  rw [hmacd]
  decide +kernel

end Indicator

end PaperTrading
