import Mathlib.Data.List.Forall2
import PaperTrading.Condition.Source
import PaperTrading.Number.Double

/-!
# Indicators never repaint

A further candle adds one value to every line of an indicator and changes none that was there
before.  What a condition reads as the previous value of a line is therefore what it read as the
current value before the candle came.

* `OneMore`: one list is another with one entry appended; `OneMore.zipWith`, `OneMore.of_mapM`: how
  series that grow so are put together.
* `sma_grows`, `ema_grows`, `rsi_grows`, `macd_grows`, `bollinger_grows`: one more price, one more
  value, for each of the five algorithms.
* `Lines.Grows`: the lines of two studies, of which the second has one more value everywhere.
* `Source.lineAt_previous`: what is read of lines that grow.
* `study_grows`: **a study over one more candle.**
-/

namespace PaperTrading

/-! ### Lists that grow by one entry -/

section OneMore

variable {β γ δ ε : Type}

/-- **One list is another with one entry appended.** -/
def OneMore (xs ys : List β) : Prop := ∃ y, ys = xs ++ [y]

theorem OneMore.append (xs : List β) (x : β) : OneMore xs (xs ++ [x]) := ⟨x, rfl⟩

theorem OneMore.cons {xs ys : List β} (x : β) (h : OneMore xs ys) :
    OneMore (x :: xs) (x :: ys) := by
  obtain ⟨y, rfl⟩ := h
  exact ⟨y, rfl⟩

theorem OneMore.map {xs ys : List β} (h : OneMore xs ys) (f : β → γ) :
    OneMore (xs.map f) (ys.map f) := by
  obtain ⟨y, rfl⟩ := h
  exact ⟨f y, List.map_append⟩

theorem OneMore.drop {xs ys : List β} (h : OneMore xs ys) {n : Nat} (hn : n ≤ xs.length) :
    OneMore (xs.drop n) (ys.drop n) := by
  obtain ⟨y, rfl⟩ := h
  exact ⟨y, List.drop_append_of_le_length hn⟩

theorem OneMore.length {xs ys : List β} (h : OneMore xs ys) : ys.length = xs.length + 1 := by
  obtain ⟨y, rfl⟩ := h
  exact List.length_append

/-- Two growing lists stay in step, also when one of them is the longer. -/
theorem OneMore.zipWith {xs xs' : List β} {ys ys' : List γ} (f : β → γ → δ) (hx : OneMore xs xs')
    (hy : OneMore ys ys') : OneMore (xs.zipWith f ys) (xs'.zipWith f ys') := by
  obtain ⟨x, rfl⟩ := hx
  obtain ⟨y, rfl⟩ := hy
  induction xs generalizing ys with
  | nil => cases ys with
    | nil => exact ⟨f x y, rfl⟩
    | cons b ys => exact ⟨f x b, rfl⟩
  | cons a xs ih => cases ys with
    | nil => exact ⟨f a y, by simp⟩
    | cons b ys => exact OneMore.cons (f a b) ih

/-- A computation that gives the same on every item gives the same on their list. -/
theorem mapM_congr {f g : β → Except ε γ} {xs : List β} (h : ∀ x ∈ xs, f x = g x) :
    xs.mapM f = xs.mapM g := by
  induction xs with
  | nil => rfl
  | cons x xs ih =>
    rw [List.mapM_cons, List.mapM_cons, h x List.mem_cons_self,
      ih fun y hy => h y (List.mem_cons_of_mem _ hy)]

/-- The results of a computation over a list, one for one. -/
theorem forall₂_of_mapM {f : β → Except ε γ} {xs : List β} {ys : List γ}
    (h : xs.mapM f = .ok ys) : List.Forall₂ (fun x y => f x = .ok y) xs ys := by
  induction xs generalizing ys with
  | nil =>
    obtain rfl := pure_ok_iff.mp h
    exact .nil
  | cons x xs ih =>
    simp only [List.mapM_cons, bind_ok_iff, pure_ok_iff] at h
    obtain ⟨y, hy, ys, hys, rfl⟩ := h
    exact .cons hy (ih hys)

theorem length_of_mapM {f : β → Except ε γ} {xs : List β} {ys : List γ}
    (h : xs.mapM f = .ok ys) : ys.length = xs.length := (forall₂_of_mapM h).length_eq.symm

theorem entry_of_mapM {f : β → Except ε γ} {xs : List β} {ys : List γ} (h : xs.mapM f = .ok ys)
    {j : Nat} {x : β} (hx : xs[j]? = some x) : ∃ y, f x = .ok y ∧ ys[j]? = some y := by
  obtain ⟨hj, rfl⟩ := List.getElem?_eq_some_iff.mp hx
  have hj' : j < ys.length := length_of_mapM h ▸ hj
  exact ⟨ys[j], (forall₂_of_mapM h).get hj hj', List.getElem?_eq_getElem hj'⟩

/-- A computation over a list that grows, if it treats the items from before as before. -/
theorem OneMore.of_mapM {f g : β → Except ε γ} {xs xs' : List β} {ys ys' : List γ}
    (hx : OneMore xs xs') (hfg : ∀ x ∈ xs, g x = f x) (h : xs.mapM f = .ok ys)
    (h' : xs'.mapM g = .ok ys') : OneMore ys ys' := by
  obtain ⟨x, rfl⟩ := hx
  rw [List.mapM_append, mapM_congr hfg, h] at h'
  obtain ⟨zs, hzs, rfl⟩ : ∃ zs, [x].mapM g = .ok zs ∧ ys ++ zs = ys' := by
    simpa only [bind_ok_iff, pure_ok_iff, Except.ok.injEq, exists_eq_left'] using h'
  obtain ⟨z, -, rfl⟩ : ∃ z, g x = .ok z ∧ [z] = zs := by
    simpa only [List.mapM_cons, List.mapM_nil, bind_ok_iff, pure_ok_iff, exists_eq_left'] using hzs
  exact .append ys z

end OneMore

/-- **A key in two lists in step:** it is in neither, or the entries found under it correspond. -/
theorem find?_forall₂ {β γ : Type} {R : String × β → String × γ → Prop}
    (hkey : ∀ p q, R p q → q.1 = p.1) {ps : List (String × β)} {qs : List (String × γ)}
    (h : List.Forall₂ R ps qs) (k : String) :
    (ps.find? (·.1 == k) = none ∧ qs.find? (·.1 == k) = none) ∨
      ∃ p q, ps.find? (·.1 == k) = some p ∧ qs.find? (·.1 == k) = some q ∧ R p q := by
  induction h with
  | nil => exact .inl ⟨rfl, rfl⟩
  | @cons p q ps qs hpq _ ih =>
    rw [List.find?_cons, List.find?_cons, hkey p q hpq]
    by_cases hk : p.1 = k
    · rw [beq_iff_eq.mpr hk]
      exact .inr ⟨p, q, rfl, rfl, hpq⟩
    · rw [beq_eq_false_iff_ne.mpr hk]
      exact ih

namespace Indicator

open Arith

variable {α : Type}

/-! ### Windows of a list that grows -/

/-- A window that lies in the old part of a list stays as it is. -/
theorem slice_append {xs : List α} {i j : Int} (hi : 0 ≤ i) (hil : i ≤ xs.length) (hj : 0 ≤ j)
    (hjl : j ≤ xs.length) (zs : List α) : slice (xs ++ zs) i j = slice xs i j := by
  obtain ⟨m, rfl⟩ := Int.eq_ofNat_of_zero_le hi
  obtain ⟨n, rfl⟩ := Int.eq_ofNat_of_zero_le hj
  have hm : m ≤ xs.length := by omega
  have hn : n ≤ xs.length := by omega
  have hm' : m ≤ (xs ++ zs).length := by rw [List.length_append]; omega
  have hn' : n ≤ (xs ++ zs).length := by rw [List.length_append]; omega
  rw [slice_of_le hm hn, slice_of_le hm' hn', List.drop_append_of_le_length hm,
    List.take_append_of_le_length (by rw [List.length_drop]; omega)]

/-- The first window of a list does not see that it grows. -/
theorem slice_start {xs ys : List α} (h : OneMore xs ys) {j : Int} (hj : 0 ≤ j)
    (hjl : j ≤ xs.length) : slice ys 0 j = slice xs 0 j := by
  obtain ⟨y, rfl⟩ := h
  exact slice_append (Int.le_refl 0) (Int.natCast_nonneg _) hj hjl [y]

/-- What follows a window grows with the list. -/
theorem slice_grows {xs ys : List α} (h : OneMore xs ys) {i : Int} (hi : 0 ≤ i)
    (hil : i ≤ xs.length) : OneMore (slice xs i xs.length) (slice ys i ys.length) := by
  obtain ⟨n, rfl⟩ := Int.eq_ofNat_of_zero_le hi
  have hn : n ≤ xs.length := by omega
  have hn' : n ≤ ys.length := by rw [h.length]; omega
  have htail : ∀ zs : List α, n ≤ zs.length → slice zs n zs.length = zs.drop n := by
    intro zs hz
    rw [slice_of_le hz (Nat.le_refl _), List.take_of_length_le (Nat.le_of_eq List.length_drop)]
  rw [htail xs hn, htail ys hn']
  exact h.drop hn

theorem entriesFrom_grows {xs ys zs zs' : List α} (h : OneMore xs ys) {k : Int} (hk : 0 ≤ k)
    (hkl : k ≤ xs.length) (hx : entriesFrom xs k = .ok zs) (hy : entriesFrom ys k = .ok zs') :
    OneMore zs zs' := by
  rw [entriesFrom, if_pos hk] at hx hy
  cases hx
  cases hy
  exact h.drop (by omega)

theorem checkEnough_ok_iff {available : Nat} {needed : Int} {label : String} {u : Unit} :
    checkEnough available needed label = .ok u ↔ needed ≤ available := by
  unfold checkEnough
  split <;> simp <;> omega

variable [Arith α] {prices prices' : List α} {period : Int}

/-! ### Means -/

/-- The means of all windows; one more price completes one more window. -/
theorem sma_grows (hp : 0 < period) (hg : OneMore prices prices') {xs ys : List α}
    (h : sma prices period = .ok xs) (h' : sma prices' period = .ok ys) : OneMore xs ys := by
  simp only [sma, bind_ok_iff, checkEnough_ok_iff, exists_const] at h h'
  obtain ⟨hlen, h⟩ := h
  obtain ⟨-, h'⟩ := h'
  have hcount : (prices'.length - period + 1).toNat = (prices.length - period + 1).toNat + 1 := by
    rw [hg.length]; omega
  rw [hcount, List.range_succ] at h'
  refine OneMore.of_mapM (.append _ _) (fun j hj => ?_) h h'
  have hj := List.mem_range.mp hj
  obtain ⟨p, rfl⟩ := hg
  rw [slice_append] <;> omega

theorem smooth_grows (k previous : α) (hg : OneMore prices prices') :
    OneMore (smooth k previous prices) (smooth k previous prices') := by
  obtain ⟨p, rfl⟩ := hg
  exact smooth_append k previous prices p

/-- The first mean is seeded with old prices only. -/
theorem ema_grows (hp : 0 < period) (hg : OneMore prices prices') {xs ys : List α}
    (h : ema prices period = .ok xs) (h' : ema prices' period = .ok ys) : OneMore xs ys := by
  simp only [ema, bind_ok_iff, checkEnough_ok_iff, pure_ok_iff, exists_const] at h h'
  obtain ⟨hlen, k, hk, first, hfirst, rfl⟩ := h
  obtain ⟨-, k', hk', first', hfirst', rfl⟩ := h'
  rw [hk] at hk'
  rw [slice_start hg (Int.le_of_lt hp) hlen, hfirst] at hfirst'
  cases hk'
  cases hfirst'
  exact smooth_grows k first (slice_grows hg (Int.le_of_lt hp) hlen)

/-! ### Relative strength -/

theorem changes_grows (hg : OneMore prices prices') (hne : prices ≠ []) :
    OneMore (changes prices) (changes prices') := by
  obtain ⟨x, rfl⟩ := hg
  induction prices with
  | nil => exact absurd rfl hne
  | cons p ps ih => cases ps with
    | nil => exact ⟨x - p, rfl⟩
    | cons q ps => exact (ih (by simp)).cons (q - p)

theorem length_changes (xs : List α) : (changes xs).length = xs.length - 1 := by
  induction xs with
  | nil => rfl
  | cons p ps ih => cases ps with
    | nil => rfl
    | cons q ps => simp [changes, ih]

/-- Every further gain and loss adds one index behind those that were there. -/
theorem strengths_grows {weight : α} {steps steps' : List (α × α)} (hg : OneMore steps steps')
    {gain loss : α} {xs ys : List α} (h : strengths weight period gain loss steps = .ok xs)
    (h' : strengths weight period gain loss steps' = .ok ys) : OneMore xs ys := by
  obtain ⟨step, rfl⟩ := hg
  induction steps generalizing gain loss xs ys with
  | nil =>
    simp only [List.nil_append, strengths, bind_ok_iff, pure_ok_iff] at h h'
    obtain ⟨x, hx, rfl⟩ := h
    obtain ⟨x', hx', g, -, l, -, zs, ⟨z, -, rfl⟩, rfl⟩ := h'
    rw [hx] at hx'
    cases hx'
    exact ⟨z, rfl⟩
  | cons s steps ih =>
    simp only [List.cons_append, strengths, bind_ok_iff, pure_ok_iff] at h h'
    obtain ⟨x, hx, g, hg, l, hl, zs, hzs, rfl⟩ := h
    obtain ⟨x', hx', g', hg', l', hl', zs', hzs', rfl⟩ := h'
    rw [hx] at hx'
    rw [hg] at hg'
    rw [hl] at hl'
    cases hx'
    cases hg'
    cases hl'
    exact (ih hzs hzs').cons x

/-- The first averages are taken over old changes only. -/
theorem rsi_grows (hp : 0 < period) (hg : OneMore prices prices') {xs ys : List α}
    (h : rsi prices period = .ok xs) (h' : rsi prices' period = .ok ys) : OneMore xs ys := by
  simp only [rsi, bind_ok_iff, checkEnough_ok_iff, exists_const] at h h'
  obtain ⟨hlen, gain, hgain, loss, hloss, weight, hweight, steps, hsteps, h⟩ := h
  obtain ⟨-, gain', hgain', loss', hloss', weight', hweight', steps', hsteps', h'⟩ := h'
  have hne : prices ≠ [] := by rintro rfl; rw [List.length_nil] at hlen; omega
  have hchanges := changes_grows hg hne
  have hmany : period ≤ (changes prices).length := by rw [length_changes]; omega
  have hgains := hchanges.map (larger · 0.0)
  have hlosses := hchanges.map fun d => size (smaller d 0.0)
  rw [slice_start hgains (Int.le_of_lt hp) (by rwa [List.length_map]), hgain] at hgain'
  rw [slice_start hlosses (Int.le_of_lt hp) (by rwa [List.length_map]), hloss] at hloss'
  rw [hweight] at hweight'
  cases hgain'
  cases hloss'
  cases hweight'
  have hsteps := entriesFrom_grows (hgains.zipWith Prod.mk hlosses) (Int.le_of_lt hp)
    (by rwa [List.length_zipWith, List.length_map, List.length_map, Nat.min_self]) hsteps hsteps'
  exact strengths_grows hsteps h h'

/-! ### Convergence and divergence -/

/-- The lines of two results that have one more value each. -/
structure Macd.Grows (a b : Macd α) : Prop where
  macd : OneMore a.macd b.macd
  signal : OneMore a.signal b.signal
  histogram : OneMore a.histogram b.histogram

/-- Both means grow at the end, so their distance does, and the mean of the distance with it. -/
theorem macd_grows {fast slow signal : Int} (hf : 0 < fast) (hs : 0 < slow) (hn : 0 < signal)
    (hg : OneMore prices prices') {a b : Macd α} (h : macd prices fast slow signal = .ok a)
    (h' : macd prices' fast slow signal = .ok b) : a.Grows b := by
  simp only [macd, bind_ok_iff, checkEnough_ok_iff, pure_ok_iff, exists_const] at h h'
  obtain ⟨-, fasts, hfast, slows, hslow, signals, hsignal, rfl⟩ := h
  obtain ⟨-, fasts', hfast', slows', hslow', signals', hsignal', rfl⟩ := h'
  have hline := (ema_grows hf hg hfast hfast').zipWith (· - ·) (ema_grows hs hg hslow hslow')
  have hsignals := ema_grows hn hline hsignal hsignal'
  exact ⟨hline, hsignals, hline.zipWith (· - ·) hsignals⟩

/-! ### Bands -/

/-- The bands of two results that have one more value each. -/
structure Bands.Grows (a b : Bands α) : Prop where
  upper : OneMore a.upper b.upper
  middle : OneMore a.middle b.middle
  lower : OneMore a.lower b.lower

theorem length_sma {xs : List α} (h : sma prices period = .ok xs) :
    xs.length = (prices.length - period + 1).toNat := by
  simp only [sma, bind_ok_iff] at h
  obtain ⟨-, -, h⟩ := h
  rw [length_of_mapM h, List.length_range]

/-- The width at a place is taken over the window that ends there. -/
theorem bollinger_grows (hp : 0 < period) {deviations : α} (hg : OneMore prices prices')
    {a b : Bands α} (h : bollinger prices period deviations = .ok a)
    (h' : bollinger prices' period deviations = .ok b) : a.Grows b := by
  simp only [bollinger, bind_ok_iff, checkEnough_ok_iff, pure_ok_iff, exists_const] at h h'
  obtain ⟨hlen, middle, hmiddle, widths, hwidths, rfl⟩ := h
  obtain ⟨-, middle', hmiddle', widths', hwidths', rfl⟩ := h'
  have hm := sma_grows hp hg hmiddle hmiddle'
  have hcount := length_sma hmiddle
  have hzip : OneMore middle.zipIdx middle'.zipIdx := by
    obtain ⟨m, rfl⟩ := hm
    rw [List.zipIdx_append]
    exact .append _ _
  have hw : OneMore widths widths' := by
    refine OneMore.of_mapM hzip (fun ⟨center, j⟩ hj => ?_) hwidths hwidths'
    have hj := List.snd_lt_of_mem_zipIdx hj
    obtain ⟨p, rfl⟩ := hg
    rw [slice_append] <;> omega
  exact ⟨hm.zipWith (· + ·) hw, hm, hm.zipWith (· - ·) hw⟩

/-! ### Settings -/

/-- A period that is accepted is positive, if the one that stands in for a missing one is. -/
theorem periodSetting_pos {settings : Table (Value α)} {name : String} {default n : Int}
    (hd : 0 < default) (h : periodSetting settings name default = .ok n) : 0 < n := by
  simp only [periodSetting] at h
  split at h
  · cases h; exact hd
  · simp only [bind_ok_iff, refuse_ok_iff, pure_ok_iff] at h
    obtain ⟨m, -, hm, rfl⟩ := h
    omega

theorem period_pos {kind : IndicatorKind} {settings : Table (Value α)} {n : Int}
    (h : Indicator.period kind settings = .ok n) : 0 < n := by
  cases kind <;> exact periodSetting_pos (by decide) h

end Indicator

/-! ### Studies -/

section Studies

variable {α : Type}

/-- Two lines of one name, of which the second has one more value. -/
structure LineGrows (p q : String × List α) : Prop where
  name : q.1 = p.1
  named : p.1 ≠ ""
  series : OneMore p.2 q.2

theorem LineGrows.of_series {name : String} {xs ys : List α} (hn : name ≠ "")
    (h : OneMore xs ys) : LineGrows (name, xs) (name, ys) := ⟨rfl, hn, h⟩

/-- **The lines of two studies, of which the second has one more value everywhere.** -/
inductive Lines.Grows : Lines α → Lines α → Prop
  | single {xs ys : List α} (h : OneMore xs ys) : Lines.Grows (.single xs) (.single ys)
  | named {hs hs' : List (String × List α)} (h : List.Forall₂ LineGrows hs hs') :
    Lines.Grows (.named hs) (.named hs')

/-! ### What is read of lines -/

namespace Source

theorem beforeLast_append {β : Type} (xs : List β) (x : β) :
    beforeLast (xs ++ [x]) = xs.getLast? := by
  rw [beforeLast, List.reverse_append, List.reverse_singleton, List.singleton_append,
    List.getElem?_cons_succ, ← List.head?_eq_getElem?, List.head?_reverse]

/-- A look-up among named lines that are read in some way. -/
theorem find?_lines (read : List α → Value α) (hs : List (String × List α)) (name : String) :
    (Table.mk (hs.map fun h => (h.1, read h.2))).find? name =
      (hs.find? (·.1 == name)).map fun h => read h.2 := by
  rw [Table.find?, List.find?_map, Option.map_map]
  rfl

theorem isObject_single (xs : List α) : (Lines.single xs).value.isObject = false := by
  cases h : xs.getLast? <;> simp [Lines.value, latest, h, Value.ofNum?, Value.isObject]

/-- The history of a line by name. -/
theorem history_named (hs : List (String × List α)) (v : Value α) (name : String) :
    history ⟨v, (Lines.named hs).history⟩ (some name) =
      .ok (((hs.find? (·.1 == name)).map fun h => h.2.map Value.num).getD []) := by
  simp only [history, Lines.history, find?_lines]
  cases hs.find? (·.1 == name) <;> rfl

/-- The latest value of a line by name. -/
theorem value_named (hs : List (String × List α)) (w : Value α) {name : String} (hn : name ≠ "") :
    value ⟨(Lines.named hs).value, w⟩ (some name) =
      ((hs.find? (·.1 == name)).map fun h => latest h.2).getD .null := by
  simp only [value, Lines.value, if_neg hn, Value.get, find?_lines]

/-- The series of a name, before and after. -/
theorem find?_grows {hs hs' : List (String × List α)} (h : List.Forall₂ LineGrows hs hs')
    (name : String) : (hs.find? (·.1 == name) = none ∧ hs'.find? (·.1 == name) = none) ∨
      ∃ p q, hs.find? (·.1 == name) = some p ∧ hs'.find? (·.1 == name) = some q ∧
        LineGrows p q := find?_forall₂ (fun _ _ h => h.name) h name

variable [Arith α]

theorem number?_latest (xs : List α) : number? (latest xs) = .ok xs.getLast? := by
  cases h : xs.getLast? <;> simp [latest, h, Value.ofNum?, number?]

/-- The value before the last one of a line that has grown is the last one before it grew. -/
theorem read_beforeLast {xs ys : List α} (h : OneMore xs ys) :
    (match beforeLast (ys.map Value.num) with
      | some v => number? v
      | none => return none) = .ok xs.getLast? := by
  obtain ⟨y, rfl⟩ := h
  rw [List.map_append, List.map_singleton, beforeLast_append, List.getLast?_map]
  cases xs.getLast? <;> rfl

/-- **The previous value of a line that has grown is its current value before it grew.** -/
theorem lineAt_previous {a b : Lines α} (h : a.Grows b) (line : Option String) :
    lineAt ⟨b.value, b.history⟩ line .previous = lineAt ⟨a.value, a.history⟩ line .current := by
  cases h with
  | @single xs ys h =>
    cases line with
    | none =>
      simp only [lineAt, isObject_single]
      exact (read_beforeLast h).trans (number?_latest xs).symm
    | some name => simp [lineAt, isObject_single]
  | @named hs hs' h =>
    cases line with
    | none => simp [lineAt, Lines.value, Value.isObject]
    | some name =>
      have hread : ∀ zs : List (String × List α), ((some name).isSome !=
          (Lines.named zs).value.isObject) = false := fun _ => rfl
      simp only [lineAt, hread, Bool.false_eq_true, if_false, history_named, Except.bind, bind]
      rcases find?_grows h name with ⟨hp, hq⟩ | ⟨p, q, hp, hq, hpq⟩
      · rw [hq]
        by_cases hn : name = ""
        · subst hn; rfl
        · rw [value_named _ _ hn, hp]; rfl
      · have hname : (p.1 == name) = true :=
          List.find?_some (p := fun e : String × List α => e.1 == name) hp
        have hn : name ≠ "" := beq_iff_eq.mp hname ▸ hpq.named
        rw [hq, value_named _ _ hn, hp]
        exact (read_beforeLast hpq.series).trans (number?_latest p.2).symm

end Source

/-! ### Studies of one more candle -/

variable [Arith α]

open Indicator

/-- A study over one more price has the lines of the study before, each with one more value. -/
theorem compute_grows {kind : IndicatorKind} {prices prices' : List α}
    {settings : Table (Value α)} {time time' : Option String} {a b : Study α}
    (hg : OneMore prices prices') (h : compute kind prices settings time = .ok a)
    (h' : compute kind prices' settings time' = .ok b) : a.lines.Grows b.lines := by
  cases kind with
  | sma =>
    simp only [compute, bind_ok_iff, pure_ok_iff] at h h'
    obtain ⟨n, hn, xs, hxs, rfl⟩ := h
    obtain ⟨n', hn', ys, hys, rfl⟩ := h'
    rw [hn] at hn'
    cases hn'
    exact .single (sma_grows (period_pos hn) hg hxs hys)
  | ema =>
    simp only [compute, bind_ok_iff, pure_ok_iff] at h h'
    obtain ⟨n, hn, xs, hxs, rfl⟩ := h
    obtain ⟨n', hn', ys, hys, rfl⟩ := h'
    rw [hn] at hn'
    cases hn'
    exact .single (ema_grows (period_pos hn) hg hxs hys)
  | rsi =>
    simp only [compute, bind_ok_iff, pure_ok_iff] at h h'
    obtain ⟨n, hn, xs, hxs, -, -, -, -, rfl⟩ := h
    obtain ⟨n', hn', ys, hys, -, -, -, -, rfl⟩ := h'
    rw [hn] at hn'
    cases hn'
    exact .single (rsi_grows (period_pos hn) hg hxs hys)
  | macd =>
    simp only [compute, bind_ok_iff, pure_ok_iff] at h h'
    obtain ⟨fast, hf, slow, hs, signal, hn, m, hm, rfl⟩ := h
    obtain ⟨fast', hf', slow', hs', signal', hn', m', hm', rfl⟩ := h'
    rw [hf] at hf'
    rw [hs] at hs'
    rw [hn] at hn'
    cases hf'
    cases hs'
    cases hn'
    have hgrows := macd_grows (periodSetting_pos (by decide) hf) (period_pos hs)
      (periodSetting_pos (by decide) hn) hg hm hm'
    exact .named (.cons (.of_series (by decide) hgrows.macd) (.cons
      (.of_series (by decide) hgrows.signal) (.cons
        (.of_series (by decide) hgrows.histogram) .nil)))
  | bollinger =>
    simp only [compute, bind_ok_iff, pure_ok_iff] at h h'
    obtain ⟨n, hn, width, hw, bands, hb, rfl⟩ := h
    obtain ⟨n', hn', width', hw', bands', hb', rfl⟩ := h'
    rw [hn] at hn'
    rw [hw] at hw'
    cases hn'
    cases hw'
    have hgrows := bollinger_grows (period_pos hn) hg hb hb'
    exact .named (.cons (.of_series (by decide) hgrows.middle) (.cons
      (.of_series (by decide) hgrows.upper) (.cons (.of_series (by decide) hgrows.lower) .nil)))

/-- The study of a block over one more candle of its symbol has the lines of the study before, each
with one more value. -/
theorem lines_grow {kind : String} {settings : Table (Value α)} {market market' : Market α}
    {quote quote' : Quote α} {candle : Candle α} {a b : Study α}
    (hq : quoteOf settings market = .ok quote) (hq' : quoteOf settings market' = .ok quote')
    (hc : quote'.history = quote.history ++ [candle]) (h : study kind market settings = .ok a)
    (h' : study kind market' settings = .ok b) : a.lines.Grows b.lines := by
  unfold study at h h'
  cases hk : IndicatorKind.ofName? kind with
  | none => rw [hk] at h; cases h
  | some k =>
    rw [hk] at h h'
    simp only [studyOf, bind_ok_iff] at h h'
    obtain ⟨q, hqq, field, hf, -, -, -, -, h⟩ := h
    obtain ⟨q', hqq', field', hf', -, -, -, -, h'⟩ := h'
    rw [hq] at hqq
    rw [hq'] at hqq'
    rw [hf] at hf'
    cases hqq
    cases hqq'
    cases hf'
    rw [hc, List.map_append] at h'
    exact compute_grows (.append _ _) h h'

/-- **Indicators never repaint:** the study of a block over one more candle of its symbol has the
lines of the study before, each with one more value, and what it shows as the previous value of a
line is what the study before showed as the current one. -/
theorem study_grows {kind : String} {settings : Table (Value α)} {market market' : Market α}
    {quote quote' : Quote α} {candle : Candle α} {a b : Study α}
    (hq : quoteOf settings market = .ok quote) (hq' : quoteOf settings market' = .ok quote')
    (hc : quote'.history = quote.history ++ [candle]) (h : study kind market settings = .ok a)
    (h' : study kind market' settings = .ok b) : a.lines.Grows b.lines ∧
      ∀ line, Source.lineAt b.readout line .previous = Source.lineAt a.readout line .current := by
  have hgrows : a.lines.Grows b.lines := lines_grow hq hq' hc h h'
  exact ⟨hgrows, Source.lineAt_previous hgrows⟩

/-- A market of one symbol with candles of these prices. -/
def charted (prices : List Float) : Market Float :=
  ⟨[("SPY", ⟨none, none, prices.map fun x => ⟨"", x, x, x, x, x⟩⟩)]⟩

/-- Short periods, of which the fast one is longer than the slow one. -/
def shortPeriods : Table (Value Float) :=
  ⟨[("fastPeriod", .int 3), ("slowPeriod", .int 2), ("signalPeriod", .int 1)]⟩

/-- Four bars, and then a fifth. -/
theorem study_grows_of_macd : ∃ a b : Study Float,
    study "macd" (charted [10.0, 11.0, 9.0, 12.0]) shortPeriods = .ok a ∧
    study "macd" (charted [10.0, 11.0, 9.0, 12.0, 8.0]) shortPeriods = .ok b ∧
    a.lines.Grows b.lines ∧
    ∀ line, Source.lineAt b.readout line .previous = Source.lineAt a.readout line .current := by
  have hsome : (study "macd" (charted [10.0, 11.0, 9.0, 12.0]) shortPeriods).toOption.isSome ∧
      (study "macd" (charted [10.0, 11.0, 9.0, 12.0, 8.0]) shortPeriods).toOption.isSome := by
    decide +kernel
  obtain ⟨a, ha⟩ := Option.isSome_iff_exists.mp hsome.1
  obtain ⟨b, hb⟩ := Option.isSome_iff_exists.mp hsome.2
  rw [toOption_eq_some_iff] at ha hb
  exact ⟨a, b, ha, hb, study_grows rfl rfl rfl ha hb⟩

end Studies

end PaperTrading
