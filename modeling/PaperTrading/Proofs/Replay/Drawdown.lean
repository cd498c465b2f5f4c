import Mathlib.Order.Bounds.Basic
import Mathlib.Tactic.Positivity
import PaperTrading.Proofs.Number.Unrounded
import PaperTrading.Replay.Statistics

/-!
# Drawdowns over all pairs

The largest falls of a curve are found in one pass that remembers the peak so far.  In exact arithmetic
they are the largest ones over all pairs of a value and a later one, by amount and, for a curve that
never is below zero, in percent: the peak is the value from which the fall to a later one is largest,
whichever of the two is measured.

* `Drawdown.Before`: one value of a curve comes before another.
* `Drawdown.losses`, `Drawdown.falls`, `Drawdown.percentFalls`: the losses over all pairs.
* `Drawdown.IsLoss`: what a measure of losses has to be like for a peak to be enough;
  `isGreatest_losses` is the step for such a measure.
* `Drawdown.Tracks`: **what is known of the curve so far;** `Tracks.step` and `tracks_foldl` keep it.
* `Drawdown.dividing`, `drawdowns_dividing`: the pass over quotients that are left open where the
  divisor is zero.
* `drawdowns_greatest`: the pass against all pairs.
-/

namespace PaperTrading

open Arith

namespace Drawdown

/-! ### All pairs -/

variable {curve : List Rat} {a b p w x : Rat}

/-- **One value of a curve comes before another.** -/
def Before (curve : List Rat) (a b : Rat) : Prop :=
  ∃ i j : Nat, i < j ∧ curve[i]? = some a ∧ curve[j]? = some b

theorem before_nil : ¬ Before [] a b := by
  rintro ⟨i, j, -, hi, -⟩
  simp at hi

/-- One more value comes after all others. -/
theorem before_concat : Before (curve ++ [x]) a b ↔ Before curve a b ∨ a ∈ curve ∧ b = x := by
  constructor
  · rintro ⟨i, j, hij, hi, hj⟩
    have hlength : j < (curve ++ [x]).length := (List.getElem?_eq_some_iff.mp hj).1
    rw [List.length_append, List.length_singleton] at hlength
    have hold : i < curve.length := by omega
    rw [List.getElem?_append_left hold] at hi
    rcases Nat.lt_or_ge j curve.length with hnew | hnew
    · rw [List.getElem?_append_left hnew] at hj
      exact .inl ⟨i, j, hij, hi, hj⟩
    · obtain rfl : j = curve.length := by omega
      rw [List.getElem?_concat_length, Option.some.injEq] at hj
      exact .inr ⟨List.mem_of_getElem? hi, hj.symm⟩
  · rintro (⟨i, j, hij, hi, hj⟩ | ⟨ha, rfl⟩)
    · have hlength : j < curve.length := (List.getElem?_eq_some_iff.mp hj).1
      refine ⟨i, j, hij, ?_, ?_⟩
      · rw [List.getElem?_append_left (by omega), hi]
      · rw [List.getElem?_append_left hlength, hj]
    · obtain ⟨i, hi⟩ := List.mem_iff_getElem?.mp ha
      have hlength : i < curve.length := (List.getElem?_eq_some_iff.mp hi).1
      refine ⟨i, curve.length, hlength, ?_, List.getElem?_concat_length⟩
      rw [List.getElem?_append_left hlength, hi]

/-- The losses from the values that count to later ones, by some measure. -/
def losses (counts : Rat → Prop) (loss : Rat → Rat → Rat) (curve : List Rat) : Set Rat :=
  {d | ∃ a b, Before curve a b ∧ counts a ∧ loss a b = d}

/-- **The falls of a curve** from a value to a later one. -/
def falls (curve : List Rat) : Set Rat := losses (fun _ => True) (fun a b => a - b) curve

/-- **The falls of a curve in percent** of the value from which it falls, which has to be above zero. -/
def percentFalls (curve : List Rat) : Set Rat :=
  losses (fun a => 0 < a) (fun a b => (a - b) / a * 100) curve

variable {counts : Rat → Prop} {loss : Rat → Rat → Rat}

theorem losses_nil : losses counts loss [] = ∅ := by
  ext d
  simp [losses, before_nil]

/-- One more value adds the losses from all values before it. -/
theorem losses_concat : losses counts loss (curve ++ [x]) =
    losses counts loss curve ∪ {d | ∃ a ∈ curve, counts a ∧ loss a x = d} := by
  ext d
  simp only [losses, before_concat, Set.mem_union, Set.mem_ofPred_eq]
  constructor
  · rintro ⟨a, b, hab | ⟨ha, rfl⟩, hcounts, hd⟩
    · exact .inl ⟨a, b, hab, hcounts, hd⟩
    · exact .inr ⟨a, ha, hcounts, hd⟩
  · rintro (⟨a, b, hab, hcounts, hd⟩ | ⟨a, ha, hcounts, hd⟩)
    · exact ⟨a, b, .inl hab, hcounts, hd⟩
    · exact ⟨a, x, .inr ⟨ha, rfl⟩, hcounts, hd⟩

/-- **A measure of losses to a value** for which a higher start means a larger loss, and there is none
to a value that is not below the start. -/
structure IsLoss (counts : Rat → Prop) (loss : Rat → Rat → Rat) (x : Rat) : Prop where
  mono : ∀ a p, counts a → a ≤ p → loss a x ≤ loss p x
  nonpos : ∀ a, counts a → a ≤ x → loss a x ≤ 0

theorem isLoss_fall (x : Rat) : IsLoss (fun _ => True) (fun a b => a - b) x where
  mono _ _ _ hap := by linarith
  nonpos _ _ hax := by linarith

/-- The fall to a value in percent is what the value is short of a hundred percent. -/
theorem percent_eq (ha : 0 < a) (x : Rat) : (a - x) / a * 100 = 100 - x / a * 100 := by
  rw [sub_div, div_self ha.ne', sub_mul, one_mul]

theorem isLoss_percentFall (hx : 0 ≤ x) :
    IsLoss (fun a => 0 < a) (fun a b => (a - b) / a * 100) x where
  mono a p ha hap := by
    have hshare : x / p ≤ x / a := div_le_div_of_nonneg_left hx ha hap
    rw [percent_eq ha, percent_eq (lt_of_lt_of_le ha hap)]
    linarith
  nonpos a ha hax := by
    have hshare : 1 ≤ x / a := (one_le_div ha).mpr hax
    rw [percent_eq ha]
    linarith

/-! ### One more value -/

/-- A value that is not above the peak: the loss from the peak is the largest of the new ones. -/
theorem isGreatest_losses (hloss : IsLoss counts loss x) (hp : IsGreatest {a | a ∈ curve} p)
    (hw : IsGreatest (insert 0 (losses counts loss curve)) w) (hcounts : counts p) :
    IsGreatest (insert 0 (losses counts loss (curve ++ [x]))) (max w (loss p x)) := by
  rw [losses_concat, ← Set.insert_union]
  refine hw.union ⟨⟨p, hp.1, hcounts, rfl⟩, ?_⟩
  rintro d ⟨a, ha, hac, rfl⟩
  exact hloss.mono a p hac (hp.2 ha)

/-- Where no loss to a new value is above zero, the largest one stays. -/
theorem isGreatest_losses_of_nonpos (hw : IsGreatest (insert 0 (losses counts loss curve)) w)
    (h : ∀ a ∈ curve, counts a → loss a x ≤ 0) :
    IsGreatest (insert 0 (losses counts loss (curve ++ [x]))) w := by
  have hzero : 0 ≤ w := hw.2 (Set.mem_insert 0 _)
  rw [losses_concat, ← Set.insert_union]
  refine ⟨.inl hw.1, ?_⟩
  rintro d (hd | ⟨a, ha, hcounts, rfl⟩)
  · exact hw.2 hd
  · exact (h a ha hcounts).trans hzero

/-- A value that is not below the peak is the new one. -/
theorem isGreatest_new (hp : IsGreatest {a | a ∈ curve} p) (hle : p ≤ x) :
    IsGreatest {a | a ∈ curve ++ [x]} x := by
  refine ⟨List.mem_append_right _ List.mem_cons_self, fun a ha => ?_⟩
  rcases List.mem_append.mp ha with ha | ha
  · exact (hp.2 ha).trans hle
  · exact (List.mem_singleton.mp ha).le

/-- A value that is not above the peak leaves it. -/
theorem isGreatest_old (hp : IsGreatest {a | a ∈ curve} p) (hle : x ≤ p) :
    IsGreatest {a | a ∈ curve ++ [x]} p := by
  refine ⟨List.mem_append_left _ hp.1, fun a ha => ?_⟩
  rcases List.mem_append.mp ha with ha | ha
  · exact hp.2 ha
  · exact (List.mem_singleton.mp ha).trans_le hle

/-- **What is known of a curve:** its peak, and the largest losses over all pairs. -/
structure Tracks (curve : List Rat) (d : Drawdown Rat) : Prop where
  peak : d.peak = none ∧ curve = [] ∨ ∃ p, d.peak = some p ∧ IsGreatest {a | a ∈ curve} p
  worst : IsGreatest (insert 0 (falls curve)) d.worst
  worstPercent : (∀ a ∈ curve, 0 ≤ a) → IsGreatest (insert 0 (percentFalls curve)) d.worstPercent

open Exact

variable {r : Rat → Rat} {d : Drawdown Rat}

theorem larger_eq (x y : Rat) : @larger Rat (arith r) x y = max x y := (max_def_lt x y).symm

theorem step_of_none (h : d.peak = none) :
    @step Rat (arith r) d x = { d with peak := some x } := by
  let _ := arith r
  rw [step, h]

/-- A value that is above the peak. -/
theorem step_of_lt (h : d.peak = some p) (hlt : p < x) :
    @step Rat (arith r) d x = { d with peak := some x } := by
  let _ := arith r
  rw [step, h]
  exact if_pos hlt

/-- A value that is not. -/
theorem step_of_le (h : d.peak = some p) (hle : x ≤ p) :
    @step Rat (arith r) d x = { d with
      worst := max d.worst (p - x)
      worstPercent := if 0 < p then max d.worstPercent ((p - x) / p * 100) else d.worstPercent } := by
  let _ := arith r
  have hnot : ¬ p < x := not_lt.mpr hle
  rw [step, h]
  show (if p < x then _ else _) = _
  rw [if_neg hnot, larger_eq, larger_eq, zero_eq, show (100.0 : Rat) = 100 by norm_num]

/-- **One more value** keeps what is known of the curve. -/
theorem Tracks.step (h : Tracks curve d) (x : Rat) :
    Tracks (curve ++ [x]) (@Drawdown.step Rat (arith r) d x) := by
  have hold : ∀ {a : Rat}, (∀ a ∈ curve ++ [x], 0 ≤ a) → a ∈ curve → 0 ≤ a := fun hpos ha =>
    hpos _ (List.mem_append_left _ ha)
  rcases h.peak with ⟨hnone, rfl⟩ | ⟨p, hp, hpeak⟩
  · rw [step_of_none hnone]
    refine ⟨.inr ⟨x, rfl, by simp⟩, ?_, fun _ => ?_⟩
    · exact isGreatest_losses_of_nonpos h.worst (by simp)
    · exact isGreatest_losses_of_nonpos (h.worstPercent (by simp)) (by simp)
  have hx : (∀ a ∈ curve ++ [x], 0 ≤ a) → 0 ≤ x := fun hpos =>
    hpos x (List.mem_append_right _ List.mem_cons_self)
  rcases lt_or_ge p x with hlt | hle
  · -- from no value so far there is a fall to a new peak
    rw [step_of_lt hp hlt]
    have hbelow : ∀ a ∈ curve, a ≤ x := fun a ha => (hpeak.2 ha).trans hlt.le
    refine ⟨.inr ⟨x, rfl, isGreatest_new hpeak hlt.le⟩, ?_, fun hpos => ?_⟩
    · exact isGreatest_losses_of_nonpos h.worst fun a ha hcounts =>
        (isLoss_fall x).nonpos a hcounts (hbelow a ha)
    · exact isGreatest_losses_of_nonpos (h.worstPercent fun a => hold hpos) fun a ha hcounts =>
        (isLoss_percentFall (hx hpos)).nonpos a hcounts (hbelow a ha)
  · rw [step_of_le hp hle]
    refine ⟨.inr ⟨p, hp, isGreatest_old hpeak hle⟩, ?_, fun hpos => ?_⟩
    · exact isGreatest_losses (isLoss_fall x) hpeak h.worst trivial
    · have hpercent := h.worstPercent fun a => hold hpos
      by_cases hcounts : 0 < p
      · simp only [if_pos hcounts]
        exact isGreatest_losses (isLoss_percentFall (hx hpos)) hpeak hpercent hcounts
      · -- a peak that is not above zero has no value above zero before it
        simp only [if_neg hcounts]
        exact isGreatest_losses_of_nonpos hpercent fun a ha hpositive =>
          absurd (hpositive.trans_le (hpeak.2 ha)) hcounts

/-- **The whole pass** knows the peak and the largest losses of the curve. -/
theorem tracks_foldl (curve : List Rat) :
    Tracks curve (curve.foldl (@Drawdown.step Rat (arith r)) ⟨none, 0.0, 0.0⟩) := by
  induction curve using List.reverseRecOn with
  | nil =>
    have hnone : ∀ counts loss, IsGreatest (insert 0 (losses counts loss [])) (0.0 : Rat) := by
      intro counts loss
      simp [losses_nil, zero_eq]
    exact ⟨.inl ⟨rfl, rfl⟩, hnone _ _, fun _ => hnone _ _⟩
  | append_singleton curve x ih =>
    rw [List.foldl_concat]
    exact ih.step x

/-! ### Divisions -/

/-- **Exact arithmetic with given quotients,** of which nothing need be known where the divisor is
zero. -/
@[reducible] def dividing (r : Rat → Rat) (div : Rat → Rat → Rat) : Arith Rat :=
  { arith r with div }

variable {div : Rat → Rat → Rat}

/-- The peak from which a percentage is taken is above zero, so that one more value is taken in alike
whatever a quotient by zero is. -/
theorem step_dividing (hdiv : ∀ x y, y ≠ 0 → div x y = x / y) (d : Drawdown Rat) (x : Rat) :
    @step Rat (dividing r div) d x = @step Rat (arith r) d x := by
  unfold step
  cases d.peak with
  | none => rfl
  | some p =>
    dsimp only
    by_cases hpos : (0.0 : Rat) < p
    · have hne : p ≠ 0 := by
        rw [zero_eq] at hpos
        exact hpos.ne'
      rw [if_pos hpos, if_pos hpos, ← hdiv (p - x) p hne]
      rfl
    · rw [if_neg hpos, if_neg hpos]
      rfl

end Drawdown

open Drawdown Exact

/-- **The pass divides by no zero:** whatever a quotient by zero is, the pass finds the same. -/
theorem drawdowns_dividing {r : Rat → Rat} {div : Rat → Rat → Rat}
    (hdiv : ∀ x y, y ≠ 0 → div x y = x / y) (curve : List Rat) :
    @drawdowns Rat (dividing r div) curve = @drawdowns Rat (arith r) curve := by
  have hstep : @step Rat (dividing r div) = @step Rat (arith r) :=
    funext fun d => funext fun x => step_dividing hdiv d x
  unfold drawdowns
  rw [hstep]

/-- A curve that is never below zero falls by a hundred percent at most. -/
theorem percentFalls_le {curve : List Rat} (hpos : ∀ a ∈ curve, 0 ≤ a) :
    ∀ d ∈ percentFalls curve, d ≤ 100 := by
  rintro d ⟨a, b, ⟨i, j, -, -, hb⟩, ha, rfl⟩
  have hshare : 0 ≤ b / a := div_nonneg (hpos b (List.mem_of_getElem? hb)) ha.le
  show (a - b) / a * 100 ≤ 100
  rw [percent_eq ha]
  linarith

/-- **Drawdowns over all pairs.**  In exact arithmetic, the pass that remembers the peak finds the
largest fall of a curve from a value to a later one, or zero if it never falls.  If the curve is never
below zero, it finds the largest fall in percent of a value above zero, which lies between zero and a
hundred.  It divides by zero on no curve: whatever a quotient by zero is, the pass finds the same. -/
theorem drawdowns_greatest (root : Rat → Rat) (curve : List Rat) :
    letI := Exact.arith root
    IsGreatest (insert 0 (falls curve)) (drawdowns curve).1 ∧
    ((∀ a ∈ curve, 0 ≤ a) → IsGreatest (insert 0 (percentFalls curve)) (drawdowns curve).2 ∧
      0 ≤ (drawdowns curve).2 ∧ (drawdowns curve).2 ≤ 100) ∧
    ∀ div : Rat → Rat → Rat, (∀ x y, y ≠ 0 → div x y = x / y) →
      @drawdowns Rat (dividing root div) curve = drawdowns curve := by
  let _ := Exact.arith root
  have htracks := @tracks_foldl root curve
  refine ⟨htracks.worst, fun hpos => ?_, fun div hdiv => drawdowns_dividing hdiv curve⟩
  have hgreatest := htracks.worstPercent hpos
  refine ⟨hgreatest, hgreatest.2 (Set.mem_insert 0 _), ?_⟩
  rcases hgreatest.1 with hzero | hfall
  · show _ ≤ (100 : Rat)
    rw [show (drawdowns curve).2 = 0 from hzero]
    norm_num
  · exact percentFalls_le hpos _ hfall

/-- A curve whose largest fall by amount is not the largest one in percent.  Its first peak is zero, and
a quotient by zero is taken to be seven. -/
theorem drawdowns_greatest_of_two_troughs :
    letI := Exact.arith fun x => x
    ∃ curve : List Rat, curve = [0, 0, 20, 10, 200, 170] ∧ (∀ a ∈ curve, 0 ≤ a) ∧
      drawdowns curve = (30, 50) ∧ IsGreatest (insert 0 (falls curve)) 30 ∧
      IsGreatest (insert 0 (percentFalls curve)) 50 ∧
      @drawdowns Rat (dividing (fun x => x) fun x y => if y = 0 then 7 else x / y) curve =
        (30, 50) := by
  let _ := Exact.arith fun x => x
  have hpos : ∀ a ∈ ([0, 0, 20, 10, 200, 170] : List Rat), 0 ≤ a := by decide +kernel
  have hfound : drawdowns ([0, 0, 20, 10, 200, 170] : List Rat) = (30, 50) := by decide +kernel
  obtain ⟨hworst, hpercent, hdividing⟩ :=
    drawdowns_greatest (fun x => x) [0, 0, 20, 10, 200, 170]
  have hpercent := (hpercent hpos).1
  have hdividing := hdividing (fun x y => if y = 0 then 7 else x / y) fun x y hy => if_neg hy
  rw [hfound] at hworst hpercent hdividing
  exact ⟨_, rfl, hpos, hfound, hworst, hpercent, hdividing⟩

end PaperTrading
