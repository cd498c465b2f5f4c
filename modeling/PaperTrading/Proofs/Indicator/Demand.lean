import PaperTrading.Proofs.Indicator.Existence

/-!
# How many candles an indicator needs

A kind of indicator tells beforehand how many candles it needs.  In exact arithmetic the number is
right for every kind but one: from so many candles on the study exists, with series of known lengths.
A convergence counts its slow and its signal period only, and so tells too small a number if its fast
period is the longer one by more than a candle.

* `Indicator.Valid`, `Indicator.Selects`: valid settings with their periods, and the candles that a
  block reads.
* `Indicator.lineLengths`: the lengths of the series of a study.
* `Indicator.ExistsFrom`: **a study that exists from so many candles on.**
* `leastCandles_exact_iff`: **when the number that is told is right,** and what happens where it is
  not.
* `convergence_short`: a convergence of as many candles as it tells, which is refused.
-/

namespace PaperTrading

/-- A setting that is absent or a number. -/
def Value.AbsentOrNumber {α : Type} : Value α → Prop
  | null | int _ | num _ => True
  | _ => False

namespace Indicator

section Settings

variable {α : Type} [Arith α]

/-! ### Settings -/

/-- **Valid settings:** periods that are accepted, a known price field, and numbers in place of all
other figures that are given. -/
structure Valid (kind : IndicatorKind) (settings : Table (Value α)) (own fast signal : Int) :
    Prop where
  own : period kind settings = .ok own
  fast : kind = .macd → periodSetting settings "fastPeriod" 12 = .ok fast
  signal : kind = .macd → signalPeriod settings = .ok signal
  field : ∃ f, priceField settings = .ok f
  numbers : ∀ name ∈ ["overbought", "oversold", "deviations"],
    (Value.get settings name).AbsentOrNumber

/-- **The quote of the symbol that a block reads.** -/
def Selects (settings : Table (Value α)) (market : Market α) (quote : Quote α) : Prop :=
  ∃ symbol, symbolOf settings market = .text symbol ∧ symbol ≠ "" ∧ market.find? symbol = some quote

/-- The number that a kind tells beforehand. -/
theorem leastCandles_eq {kind : IndicatorKind} {settings : Table (Value α)} {own fast signal : Int}
    (h : Valid kind settings own fast signal) : leastCandles kind settings =
      .ok (match kind with
        | .rsi => own + 1
        | .macd => own + signal
        | _ => own) := by
  refine bind_ok_iff.mpr ⟨own, h.own, ?_⟩
  cases kind with
  | macd => exact bind_ok_iff.mpr ⟨signal, h.signal rfl, rfl⟩
  | sma | ema | rsi | bollinger => rfl

theorem quoteOf_of_selects {settings : Table (Value α)} {market : Market α} {quote : Quote α}
    (h : Selects settings market quote) : quoteOf settings market =
      if quote.history.isEmpty then .error (.noHistory (symbolOf settings market).display)
      else .ok quote := by
  obtain ⟨symbol, hsymbol, hne, hfind⟩ := h
  have htrue : (symbolOf settings market).isTrue = true := by
    rw [hsymbol]
    exact Value.isTrue_text hne
  have hlook : (symbolOf settings market).lookUp market = .ok (some quote) := by
    rw [hsymbol, ← hfind]
    rfl
  unfold quoteOf
  dsimp only
  rw [if_pos htrue, hlook]
  simp only [bind, Except.bind]
  cases hempty : quote.history.isEmpty <;> simp [Option.filter, hempty]

end Settings

/-! ### Lengths -/

/-- **The lengths of the series of a study** over `n` candles. -/
def lineLengths (kind : IndicatorKind) (own fast signal n : Int) : List Int :=
  match kind with
  | .sma | .ema => [n - own + 1]
  | .rsi => [n - own]
  | .macd =>
    let line := n - max fast own + 1
    [line, line - signal + 1, line - signal + 1]
  | .bollinger => [n - own + 1, n - own + 1, n - own + 1]

/-- **A study that exists from `least` candles on:** with fewer it is refused for want of candles, and
with as many its series have the given lengths, and none of them is empty. -/
structure ExistsFrom {α : Type} (least : Int) (n : Nat) (lengths : List Int)
    (x : Except Failure (Study α)) : Prop where
  refused : (∃ f, x = .error f ∧ f.kind = "InsufficientDataError") ↔ n < least
  computed : least ≤ n → ∃ s, x = .ok s ∧ (s.lines.all.map fun xs => (xs.length : Int)) = lengths ∧
    ∀ xs ∈ s.lines.all, xs ≠ []

/-- **A number that can be told in a message:** it has few enough digits. -/
def Tellable (n : Int) : Prop := n.natAbs < Nat.pow 10 digitLimit

theorem kind_shortage {available : Nat} {needed : Int} {label : String} :
    (shortage available needed label).kind = "InsufficientDataError" ↔ Tellable needed := by
  unfold shortage Tellable
  split
  · next h => exact iff_of_true rfl h
  · next h => exact iff_of_false (by decide) h

/-! ### Studies -/

open Exact

variable {r : Rat → Rat} {kind : IndicatorKind} {settings : Table (Value Rat)}
  {own fast signal : Int} {prices : List Rat}

/-- Without rounding, a setting that is absent or a number can be read. -/
theorem exists_numberSetting {name : String} (h : (Value.get settings name).AbsentOrNumber)
    (default : Rat) : ∃ x, @numberSetting Rat (arith r) settings name default = .ok x := by
  let _ := arith r
  unfold numberSetting Value.orElse
  split
  · cases hv : Value.get settings name with
    | null | bool | text | list | object => simp_all [Value.AbsentOrNumber, Value.isTrue]
    | int n => exact ⟨n, rfl⟩
    | num x => exact ⟨x, rfl⟩
  · exact ⟨default, rfl⟩

/-- **A study exists** where a kind has as many candles as it tells, and a convergence as many as its
fast mean with its signal line needs. -/
theorem exists_compute (h : @Valid Rat (arith r) kind settings own fast signal) {least : Int}
    (hleast : @leastCandles Rat (arith r) kind settings = .ok least)
    (hn : least ≤ prices.length) (hfast : kind = .macd → fast + signal ≤ prices.length + 1)
    (timestamp : Option String) :
    ∃ s, @compute Rat (arith r) kind prices settings timestamp = .ok s ∧
      (s.lines.all.map fun xs => (xs.length : Int)) =
        lineLengths kind own fast signal prices.length := by
  let _ := arith r
  have hown : 0 < own := period_pos h.own
  have hlength : ∀ {i : Int} {xs : List Rat}, i ≤ prices.length →
      xs.length = (prices.length - i + 1).toNat → (xs.length : Int) = prices.length - i + 1 := by
    intro i xs hi hxs
    omega
  rw [leastCandles_eq h, Except.ok.injEq] at hleast
  subst hleast
  cases kind with
  | sma =>
    have hsma := sma_eq (r := r) hown hn
    refine ⟨_, bind_ok_iff.mpr ⟨own, h.own, bind_ok_iff.mpr ⟨_, hsma, rfl⟩⟩, ?_⟩
    exact congrArg (fun k => [k]) (hlength hn (length_sma hsma))
  | ema =>
    obtain ⟨xs, hxs, hlen⟩ := exists_ema (r := r) hown hn
    refine ⟨_, bind_ok_iff.mpr ⟨own, h.own, bind_ok_iff.mpr ⟨xs, hxs, rfl⟩⟩, ?_⟩
    exact congrArg (fun k => [k]) hlen
  | rsi =>
    obtain ⟨xs, hxs, -⟩ := exists_rsi (r := r) hown hn
    obtain ⟨x, hx⟩ := exists_numberSetting (r := r) (h.numbers "overbought" (by decide)) 70.0
    obtain ⟨y, hy⟩ := exists_numberSetting (r := r) (h.numbers "oversold" (by decide)) 30.0
    refine ⟨_, bind_ok_iff.mpr ⟨own, h.own, bind_ok_iff.mpr ⟨xs, hxs, bind_ok_iff.mpr ⟨x, hx,
      bind_ok_iff.mpr ⟨y, hy, rfl⟩⟩⟩⟩, ?_⟩
    exact congrArg (fun k => [k]) (length_rsi hown hxs)
  | macd =>
    have hf : 0 < fast := periodSetting_pos (by decide) (h.fast rfl)
    have hs : 0 < signal := periodSetting_pos (by decide) (h.signal rfl)
    obtain ⟨m, hm⟩ := exists_macd (r := r) hf hown hs hn (hfast rfl)
    obtain ⟨hmacd, hsignal, hhistogram⟩ := length_macd hf hown hs hm
    refine ⟨_, bind_ok_iff.mpr ⟨fast, h.fast rfl, bind_ok_iff.mpr ⟨own, h.own,
      bind_ok_iff.mpr ⟨signal, h.signal rfl, bind_ok_iff.mpr ⟨m, hm, rfl⟩⟩⟩⟩, ?_⟩
    show [(m.macd.length : Int), (m.signal.length : Int), (m.histogram.length : Int)] = _
    rw [hhistogram, hsignal, hmacd]
    rfl
  | bollinger =>
    obtain ⟨x, hx⟩ := exists_numberSetting (r := r) (h.numbers "deviations" (by decide)) 2.0
    obtain ⟨b, hb⟩ := exists_bollinger (r := r) hown hn x
    obtain ⟨hmiddle, hupper, hlower⟩ := length_bollinger hb
    refine ⟨_, bind_ok_iff.mpr ⟨own, h.own, bind_ok_iff.mpr ⟨x, hx,
      bind_ok_iff.mpr ⟨b, hb, rfl⟩⟩⟩, ?_⟩
    show [(b.middle.length : Int), (b.upper.length : Int), (b.lower.length : Int)] = _
    rw [hupper, hlower, hlength hn hmiddle]
    rfl

theorem compute_macd_error (h : @Valid Rat (arith r) .macd settings own fast signal) {least : Int}
    (hleast : @leastCandles Rat (arith r) .macd settings = .ok least)
    (hn : least ≤ prices.length) (hfast : prices.length + 1 < fast + signal)
    {timestamp : Option String} :
    @compute Rat (arith r) .macd prices settings timestamp = .error (
      if prices.length < fast then shortage prices.length fast s!"EMA({fast})"
      else shortage (prices.length + 1 - fast).toNat signal s!"EMA({signal})") := by
  let _ := arith r
  have hf : 0 < fast := periodSetting_pos (by decide) (h.fast rfl)
  rw [leastCandles_eq h, Except.ok.injEq] at hleast
  subst hleast
  refine bind_error_iff.mpr (.inr ⟨fast, h.fast rfl, bind_error_iff.mpr (.inr ⟨own, h.own, ?_⟩)⟩)
  refine bind_error_iff.mpr (.inr ⟨signal, h.signal rfl, bind_error_iff.mpr (.inl ?_)⟩)
  exact macd_error hf (period_pos h.own) hn hfast

theorem leastCandles_pos (h : @Valid Rat (arith r) kind settings own fast signal) {least : Int}
    (hleast : @leastCandles Rat (arith r) kind settings = .ok least) : 0 < least := by
  let _ := arith r
  have hown : 0 < own := period_pos h.own
  rw [leastCandles_eq h, Except.ok.injEq] at hleast
  subst hleast
  cases kind with
  | macd =>
    have hs : 0 < signal := periodSetting_pos (by decide) (h.signal rfl)
    dsimp only
    omega
  | sma | ema | rsi | bollinger => dsimp only; omega

/-- From the least number of candles on, no series is empty. -/
theorem pos_of_mem_lineLengths (h : @Valid Rat (arith r) kind settings own fast signal)
    {least n : Int} (hleast : @leastCandles Rat (arith r) kind settings = .ok least)
    (hn : least ≤ n) (hfast : kind = .macd → fast + signal ≤ n + 1) :
    ∀ k ∈ lineLengths kind own fast signal n, 0 < k := by
  let _ := arith r
  rw [leastCandles_eq h, Except.ok.injEq] at hleast
  subst hleast
  cases kind with
  | sma | ema | rsi | bollinger =>
    dsimp only at hn
    simp only [lineLengths, List.forall_mem_cons, List.not_mem_nil, false_implies, implies_true,
      and_true]
    omega
  | macd =>
    have hs : 0 < signal := periodSetting_pos (by decide) (h.signal rfl)
    have hfast := hfast rfl
    dsimp only at hn
    simp only [lineLengths, List.forall_mem_cons, List.not_mem_nil, false_implies, implies_true,
      and_true]
    omega

section Selected

variable {market : Market Rat} {quote : Quote Rat} {least : Int}

/-- **What a block does with the candles that it reads:** it is refused if there are none or too few,
and computed otherwise. -/
theorem study_cases (h : @Valid Rat (arith r) kind settings own fast signal)
    (hselects : @Selects Rat (arith r) settings market quote)
    (hleast : @leastCandles Rat (arith r) kind settings = .ok least) :
    quote.history = [] ∧ (∃ symbol, @study Rat (arith r) kind.name market settings =
        .error (.noHistory symbol)) ∨
    0 < quote.history.length ∧ ∃ field, @study Rat (arith r) kind.name market settings =
      if (quote.history.length : Int) < least then
        .error (shortage quote.history.length least kind.name.toUpper)
      else @compute Rat (arith r) kind (quote.history.map (·.value field)) settings
        quote.timestamp := by
  let _ := arith r
  obtain ⟨field, hfield⟩ := h.field
  have hquote := quoteOf_of_selects hselects
  unfold study
  rw [kind.ofName?_name]
  cases hhistory : quote.history with
  | nil =>
    rw [hhistory] at hquote
    exact .inl ⟨rfl, _, bind_error_iff.mpr (.inl hquote)⟩
  | cons candle candles =>
    rw [hhistory] at hquote
    refine .inr ⟨Nat.succ_pos _, field, ?_⟩
    unfold studyOf
    simp only [hquote, hfield, hleast, List.isEmpty_cons, Bool.false_eq_true, if_false, bind,
      Except.bind, List.length_map, hhistory]
    unfold checkEnough
    by_cases hshort : ((candle :: candles).length : Int) < least
    · simp only [if_pos hshort]
    · simp only [if_neg hshort]

section Told

variable (h : @Valid Rat (arith r) kind settings own fast signal)
  (hselects : @Selects Rat (arith r) settings market quote)
  (hleast : @leastCandles Rat (arith r) kind settings = .ok least)
include h hselects hleast

/-- From the least number of candles on, a study is what is computed of them. -/
theorem study_of_le (hn : least ≤ quote.history.length) :
    ∃ field, @study Rat (arith r) kind.name market settings =
      @compute Rat (arith r) kind (quote.history.map (·.value field)) settings
        quote.timestamp := by
  have hpos := leastCandles_pos h hleast
  rcases study_cases h hselects hleast with ⟨hempty, -⟩ | ⟨-, field, hstudy⟩
  · rw [hempty, List.length_nil] at hn
    omega
  · exact ⟨field, by rw [hstudy, if_neg (by omega)]⟩

/-- A convergence that has not the candles for its fast mean with its signal line is refused for one of
the two. -/
theorem study_macd_error (hkind : kind = .macd) (hn : least ≤ quote.history.length)
    (hfast : quote.history.length + 1 < fast + signal) :
    @study Rat (arith r) kind.name market settings = .error (
      if quote.history.length < fast then shortage quote.history.length fast s!"EMA({fast})"
      else shortage (quote.history.length + 1 - fast).toNat signal s!"EMA({signal})") := by
  obtain ⟨field, hstudy⟩ := study_of_le h hselects hleast hn
  subst hkind
  rw [hstudy, compute_macd_error h hleast (by rwa [List.length_map]) (by rwa [List.length_map]),
    List.length_map]

/-- Any other study exists from the least number of candles on, with the lengths of its periods. -/
theorem exists_study (hn : least ≤ quote.history.length)
    (hfast : kind = .macd → fast + signal ≤ quote.history.length + 1) :
    ∃ s, @study Rat (arith r) kind.name market settings = .ok s ∧
      (s.lines.all.map fun xs => (xs.length : Int)) =
        lineLengths kind own fast signal quote.history.length ∧ ∀ xs ∈ s.lines.all, xs ≠ [] := by
  obtain ⟨field, hstudy⟩ := study_of_le h hselects hleast hn
  have hlength : (quote.history.map (·.value field)).length = quote.history.length :=
    List.length_map _
  have hn' : least ≤ (quote.history.map (·.value field)).length := by rwa [hlength]
  obtain ⟨s, hs, hlengths⟩ := exists_compute h hleast hn' (by rwa [hlength]) quote.timestamp
  rw [hlength] at hlengths
  refine ⟨s, hstudy.trans hs, hlengths, fun xs hxs hempty => ?_⟩
  have hmem : (xs.length : Int) ∈ lineLengths kind own fast signal quote.history.length := by
    rw [← hlengths]
    exact List.mem_map_of_mem hxs
  have hlong := pos_of_mem_lineLengths h hleast hn hfast _ hmem
  rw [hempty, List.length_nil] at hlong
  omega

/-- With fewer candles a study is refused for want of them, if their number can be told. -/
theorem study_refused_iff (hshort : quote.history.length < least) :
    (∃ f, @study Rat (arith r) kind.name market settings = .error f ∧
      f.kind = "InsufficientDataError") ↔ (0 < quote.history.length → Tellable least) := by
  rcases study_cases h hselects hleast with ⟨hempty, symbol, hstudy⟩ | ⟨hsome, field, hstudy⟩
  · exact iff_of_true ⟨_, hstudy, rfl⟩ fun hsome => by simp [hempty] at hsome
  · rw [hstudy, if_pos hshort]
    simp only [Except.error.injEq, exists_eq_left', kind_shortage, hsome, true_imp_iff]

end Told

/-- **When the number that a kind tells beforehand is right.**  In exact arithmetic, with any square
root, for valid settings and a symbol with `n` candles: the study exists from so many candles on, and
its series have the lengths of its periods, exactly if the number can be told where it is missed, and
a convergence has as many candles as its fast mean with its signal line needs.  A convergence that has
not is refused all the same, for the one or the other. -/
theorem leastCandles_exact_iff (r : Rat → Rat) {kind : IndicatorKind}
    {settings : Table (Value Rat)} {own fast signal : Int} {market : Market Rat} {quote : Quote Rat}
    {least : Int} (h : @Valid Rat (arith r) kind settings own fast signal)
    (hselects : @Selects Rat (arith r) settings market quote)
    (hnamed : @leastCandlesNamed Rat (arith r) kind.name settings = .ok least) :
    (ExistsFrom least quote.history.length
        (lineLengths kind own fast signal quote.history.length)
        (@study Rat (arith r) kind.name market settings) ↔
      (0 < quote.history.length → quote.history.length < least → Tellable least) ∧
      (kind = .macd → least ≤ quote.history.length →
        fast + signal ≤ quote.history.length + 1)) ∧
    (kind = .macd → least ≤ quote.history.length → quote.history.length + 1 < fast + signal →
      @study Rat (arith r) kind.name market settings = .error (
        if quote.history.length < fast then
          shortage quote.history.length fast s!"EMA({fast})"
        else shortage (quote.history.length + 1 - fast).toNat signal s!"EMA({signal})")) := by
  have hleast : @leastCandles Rat (arith r) kind settings = .ok least := by
    unfold leastCandlesNamed at hnamed
    rwa [kind.ofName?_name] at hnamed
  have hmissed := study_macd_error h hselects hleast
  have hexists := exists_study h hselects hleast
  have hrefused := study_refused_iff h hselects hleast
  refine ⟨⟨fun hright => ⟨?_, ?_⟩, fun ⟨htell, hfast⟩ => ⟨⟨?_, ?_⟩, ?_⟩⟩, hmissed⟩
  · intro hsome hshort
    exact (hrefused hshort).mp (hright.refused.mpr hshort) hsome
  · intro hkind hn
    by_contra hfast
    obtain ⟨s, hs, -⟩ := hright.computed hn
    rw [hmissed hkind hn (by omega)] at hs
    cases hs
  · rintro ⟨f, hf, -⟩
    by_contra hn
    obtain ⟨s, hs, -⟩ := hexists (by omega) fun hkind => hfast hkind (by omega)
    rw [hs] at hf
    cases hf
  · intro hshort
    exact (hrefused hshort).mpr fun hsome => htell hsome hshort
  · intro hn
    exact hexists hn fun hkind => hfast hkind hn

end Selected

/-- The settings of a convergence with these periods. -/
def convergence {α : Type} (fast slow signal : Int) : Table (Value α) :=
  ⟨[("fastPeriod", .int fast), ("slowPeriod", .int slow), ("signalPeriod", .int signal)]⟩

/-- A quote with as many candles at one price. -/
def steadily {α : Type} (n : Nat) (x : α) : Quote α :=
  ⟨none, none, List.replicate n ⟨"", x, x, x, x, x⟩⟩

/-- Three candles are enough for a fast period of three. -/
theorem leastCandles_exact_of_three :
    letI := Exact.arith id
    Valid .macd (convergence (α := Rat) 3 2 1) 2 3 1 ∧
    Selects (convergence 3 2 1) ⟨[("SPY", steadily 3 10)]⟩ (steadily 3 (10 : Rat)) ∧
    leastCandlesNamed IndicatorKind.macd.name (convergence (α := Rat) 3 2 1) = .ok 3 ∧
    ExistsFrom 3 3 [1, 1, 1] (study IndicatorKind.macd.name ⟨[("SPY", steadily 3 (10 : Rat))]⟩
      (convergence 3 2 1)) := by
  let _ := Exact.arith id
  have hvalid : Valid .macd (convergence (α := Rat) 3 2 1) 2 3 1 :=
    { own := by rfl
      fast := fun _ => by rfl
      signal := fun _ => by rfl
      field := ⟨.close, by rfl⟩
      numbers := by simp [convergence, Value.get, Table.find?, Value.AbsentOrNumber] }
  have hselects : Selects (convergence 3 2 1) ⟨[("SPY", steadily 3 10)]⟩ (steadily 3 (10 : Rat)) :=
    ⟨"SPY", by rfl, by decide, by rfl⟩
  have hleast : leastCandlesNamed IndicatorKind.macd.name (convergence (α := Rat) 3 2 1) = .ok 3 := by
    rfl
  refine ⟨hvalid, hselects, hleast, ?_⟩
  exact (leastCandles_exact_iff id hvalid hselects hleast).1.mpr
    ⟨fun _ hshort => absurd hshort (by decide), fun _ _ => by decide⟩

/-- **A convergence of as many candles as it tells, which is refused:** its fast mean needs a fourth. -/
theorem convergence_short :
    leastCandlesNamed "macd" (convergence (α := Float) 4 2 1) = .ok 3 ∧
    study "macd" ⟨[("SPY", steadily 3 10.0)]⟩ (convergence (α := Float) 4 2 1) =
      .error (.tooFewPeriods 4 "EMA(4)" 3) ∧
    ¬ ExistsFrom 3 3 (lineLengths .macd 2 4 1 3)
      (study "macd" ⟨[("SPY", steadily 3 10.0)]⟩ (convergence (α := Float) 4 2 1)) := by
  have hrefused : study "macd" ⟨[("SPY", steadily 3 10.0)]⟩ (convergence (α := Float) 4 2 1) =
      .error (.tooFewPeriods 4 "EMA(4)" 3) := by
    have htell : shortage 3 4 "EMA(4)" = .tooFewPeriods 4 "EMA(4)" 3 := if_pos (by decide +kernel)
    rw [← htell]
    rfl
  refine ⟨by rfl, hrefused, fun hexists => ?_⟩
  have hshort := hexists.refused.mp ⟨_, hrefused, by rfl⟩
  exact absurd hshort (by decide)

end Indicator

end PaperTrading
