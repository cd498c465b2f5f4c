import PaperTrading.Proofs.Strategy.Faults

/-!
# How far a breakout looks back

A breakout compares the last candle with some candles before it: a higher high has to be above all of
their highs, a lower low below all of their lows.  How many they are is a setting.  A setting that is
missing or counts as zero stands for one candle, but one that is read as zero or less, such as the text
`0`, a half or a negative number, leaves nothing to compare with, and then the breakout is seen in
every history.

* `Breakout`, `Breakout.Beyond`: the two breakouts, and what they ask of an earlier candle.
* `recent`, `Breakout.Clears`: the last candles before the current one, and going beyond all of them;
  `Breakout.holds_iff` says that the patterns do just this.
* `Breakout.LooksBack`: **what a lookback promises.**
* `breakout_looksBack_iff`: when it is kept.
* `breakout_without_rise`: a higher high that is not above the candle before it.
-/

namespace PaperTrading

variable {α : Type}

/-- **The candles before the current one,** the latest first: so many of them, or all if there are
fewer. -/
def recent (k : Nat) (history : List (Candle α)) : List (Candle α) := history.reverse.tail.take k

theorem recent_min (k : Nat) (history : List (Candle α)) :
    recent (min k (history.length - 1)) history = recent k history := by
  have hlength : history.reverse.tail.length = history.length - 1 := by simp
  rw [recent, recent, ← hlength, ← List.take_eq_take_min]

theorem recent_subset {k l : Nat} (h : k ≤ l) (history : List (Candle α)) :
    recent k history ⊆ recent l history := by
  rw [recent, recent, ← Nat.min_eq_left h, ← List.take_take]
  exact List.take_subset k _

/-- Nothing or less than nothing before a candle is nothing. -/
theorem lookback_eq (n : Int) (before : List (Candle α)) :
    lookback n before = (before.reverse.take n.toNat).reverse := by
  rw [lookback, List.take_reverse, List.reverse_reverse]
  rcases le_or_gt 0 n with hn | hn
  · congr 1
    omega
  · rw [List.drop_eq_nil_of_le (by omega), List.drop_eq_nil_of_le (by omega)]

/-- **The two breakouts:** a higher high and a lower low. -/
inductive Breakout where
  | high
  | low

namespace Breakout

/-- The pattern of a breakout. -/
def pattern : Breakout → Pattern
  | high => .higherHigh
  | low => .lowerLow

variable [Arith α]

/-- **The current candle goes beyond an earlier one:** above its high, or below its low. -/
def Beyond (b : Breakout) (current earlier : Candle α) : Prop :=
  match b with
  | high => earlier.high < current.high
  | low => current.low < earlier.low

/-- **The last candle of a history goes beyond so many candles before it,** or beyond all if there are
fewer. -/
def Clears (b : Breakout) (k : Nat) (history : List (Candle α)) : Prop :=
  ∀ current, history.getLast? = some current → ∀ c ∈ recent k history, b.Beyond current c

variable {b : Breakout} {history : List (Candle α)} {k l : Nat} {n : Int}

theorem Clears.mono (h : b.Clears l history) (hk : k ≤ l) : b.Clears k history :=
  fun current hcurrent c hc => h current hcurrent c (recent_subset hk history hc)

theorem clears_zero : b.Clears 0 history := by
  intro current _ c hc
  simp [recent] at hc

theorem clears_min : b.Clears (min k (history.length - 1)) history ↔ b.Clears k history := by
  rw [Clears, Clears, recent_min]

/-- The pattern is seen exactly where the last candle goes beyond the candles that are looked back at. -/
theorem holds_iff (b : Breakout) (n : Int) (previous current : Candle α)
    (earlier : List (Candle α)) :
    b.pattern.holds n (previous :: earlier).reverse previous current = true ↔
      b.Clears n.toNat (current :: previous :: earlier).reverse := by
  have hclears : b.Clears n.toNat (current :: previous :: earlier).reverse ↔
      ∀ c ∈ (previous :: earlier).take n.toNat, b.Beyond current c := by
    simp only [Clears, recent, List.getLast?_reverse, List.head?_cons, Option.some.injEq,
      forall_eq', List.reverse_reverse, List.tail_cons]
  rw [hclears]
  cases b <;> simp [pattern, Pattern.holds, lookback_eq, Beyond]

/-- **What a lookback promises:** at least the candle before the current one has been passed, and the
breakout is seen exactly where all candles are that it covers, at least one of them. -/
structure LooksBack (b : Breakout) (history : List (Candle α)) (n : Int) (seen : Bool) : Prop where
  previous : seen = true → b.Clears 1 history
  window : seen = true ↔ b.Clears (min (max 1 n).toNat (history.length - 1)) history

/-- The promise is kept by a lookback of one candle or more, and where the candle before the current
one has been passed anyway. -/
theorem looksBack_iff {seen : Bool} (hseen : seen = true ↔ b.Clears n.toNat history) :
    b.LooksBack history n seen ↔ 1 ≤ n ∨ b.Clears 1 history := by
  rcases le_or_gt 1 n with hn | hn
  · refine iff_of_true ⟨fun h => (hseen.mp h).mono (by omega), ?_⟩ (.inl hn)
    rw [clears_min, max_eq_right hn, hseen]
  · have hzero : n.toNat = 0 := by omega
    have hone : (max 1 n).toNat = 1 := by omega
    have hall : seen = true := hseen.mpr (hzero ▸ clears_zero)
    constructor
    · exact fun h => .inr (h.previous hall)
    · rintro (h | h)
      · omega
      · exact ⟨fun _ => h, by rw [clears_min, hone]; exact iff_of_true hall h⟩

end Breakout

namespace Condition

open Breakout

variable [Arith α] {settings : Table (Value α)} {market : Market α} {b : Breakout}
  {history : List (Candle α)} {n : Int}

/-- **Settings that ask for a breakout** in a history of two candles at least, with a lookback that can
be read. -/
structure Asks (settings : Table (Value α)) (market : Market α) (b : Breakout)
    (history : List (Candle α)) (n : Int) : Prop where
  symbol : ∃ symbol quote, settingOr settings "symbol" "" = .text symbol ∧
    market.find? symbol = some quote ∧ quote.history = history
  pattern : settingOr settings "patternType" "" = .text b.pattern.name
  lookback : lookbackSetting settings = .ok n
  long : 2 ≤ history.length

/-- A breakout is answered: it is seen exactly where so many candles have been passed, and a lookback
below one has none to pass. -/
theorem evaluate_of_asks (h : Asks settings market b history n)
    (readouts : Table (Readout α)) :
    ∃ seen, evaluate "price_action" market readouts settings = .ok seen ∧
      (seen = true ↔ b.Clears n.toNat history) := by
  obtain ⟨symbol, quote, hsymbol, hquote, rfl⟩ := h.symbol
  have hlook : (settingOr settings "symbol" "").lookUp market = .ok (some quote) := by
    rw [hsymbol, ← hquote]
    rfl
  obtain ⟨current, previous, earlier, hhistory⟩ : ∃ current previous earlier,
      quote.history.reverse = current :: previous :: earlier := by
    have hlong := h.long
    rw [← List.length_reverse] at hlong
    match hreverse : quote.history.reverse with
    | [] | [_] => rw [hreverse] at hlong; simp at hlong
    | current :: previous :: earlier => exact ⟨current, previous, earlier, rfl⟩
  refine ⟨b.pattern.holds n (previous :: earlier).reverse previous current, ?_, ?_⟩
  · show priceAction settings market = _
    unfold priceAction
    simp only [hlook, Option.elim_some, hhistory, h.pattern, Value.key, Option.bind_some,
      Pattern.ofName?_name, h.lookback, bind, Except.bind, pure, Except.pure]
  · rw [holds_iff, ← hhistory, List.reverse_reverse]

/-- **When a breakout looks back.**  A breakout that is asked for in a history of two candles or more
is answered.  The answer is what its lookback promises exactly when the lookback is one candle at
least, or the candle before the current one has been passed anyway: a lookback below one sees the
breakout in every history.  A longer lookback never sees a breakout that a shorter one does not. -/
theorem breakout_looksBack_iff (h : Asks settings market b history n)
    (readouts : Table (Readout α)) :
    ∃ seen, evaluate "price_action" market readouts settings = .ok seen ∧
      (b.LooksBack history n seen ↔ 1 ≤ n ∨ b.Clears 1 history) ∧ (n < 1 → seen = true) ∧
      ∀ settings' market' readouts' n', Asks settings' market' b history n' → n ≤ n' →
        evaluate "price_action" market' readouts' settings' = .ok true → seen = true := by
  obtain ⟨seen, heval, hseen⟩ := evaluate_of_asks h readouts
  refine ⟨seen, heval, looksBack_iff hseen, fun hn => ?_, ?_⟩
  · have hzero : n.toNat = 0 := by omega
    rw [hseen, hzero]
    exact clears_zero
  · intro settings' market' readouts' n' h' hn htrue
    obtain ⟨seen', heval', hseen'⟩ := evaluate_of_asks h' readouts'
    rw [heval'] at htrue
    cases htrue
    exact hseen.mpr ((hseen'.mp rfl).mono (by omega))

/-- The settings of a higher high with a lookback. -/
def higherHigh (lookback : Value Float) : Table (Value Float) :=
  .ofList [("symbol", .text "SPY"), ("patternType", .text "higher_high"),
    ("lookbackPeriod", lookback)]

theorem asks_higherHigh {lookback : Value Float} {n : Int} {prices : List Float}
    (hn : lookbackSetting (higherHigh lookback) = .ok n) (hlong : 2 ≤ prices.length) :
    Asks (higherHigh lookback) (charted prices) .high
      (prices.map fun x => ⟨"", x, x, x, x, x⟩) n :=
  ⟨⟨"SPY", _, by rfl, rfl, rfl⟩, by rfl, hn, by rwa [List.length_map]⟩

/-- A rise after a fall is a higher high over one candle, and none over two. -/
theorem breakout_looksBack_of_rise : ∃ history : List (Candle Float),
    Asks (higherHigh (.int 1)) (charted [20.0, 12.0, 15.0]) .high history 1 ∧
    Asks (higherHigh (.int 2)) (charted [20.0, 12.0, 15.0]) .high history 2 ∧
    evaluate "price_action" (charted [20.0, 12.0, 15.0]) .empty (higherHigh (.int 1)) = .ok true ∧
    evaluate "price_action" (charted [20.0, 12.0, 15.0]) .empty (higherHigh (.int 2)) = .ok false ∧
    Breakout.high.LooksBack history 1 true ∧ Breakout.high.LooksBack history 2 false := by
  have hone : evaluate "price_action" (charted [20.0, 12.0, 15.0]) .empty (higherHigh (.int 1)) =
      .ok true := by
    rw [← toOption_eq_some_iff]
    decide +kernel
  have htwo : evaluate "price_action" (charted [20.0, 12.0, 15.0]) .empty (higherHigh (.int 2)) =
      .ok false := by
    rw [← toOption_eq_some_iff]
    decide +kernel
  have hasks : Asks (higherHigh (.int 1)) (charted [20.0, 12.0, 15.0]) .high _ 1 :=
    asks_higherHigh rfl (by decide)
  have hasks' : Asks (higherHigh (.int 2)) (charted [20.0, 12.0, 15.0]) .high _ 2 :=
    asks_higherHigh rfl (by decide)
  obtain ⟨seen, heval, hlooks, -⟩ := breakout_looksBack_iff hasks .empty
  obtain ⟨seen', heval', hlooks', -⟩ := breakout_looksBack_iff hasks' .empty
  rw [hone] at heval
  rw [htwo] at heval'
  cases heval
  cases heval'
  exact ⟨_, hasks, hasks', hone, htwo, hlooks.mpr (.inl (by decide)), hlooks'.mpr (.inl (by decide))⟩

/-- **A higher high that is none:** the last of two candles is the lower one, but the lookback is
the text of a zero, and nothing is compared. -/
theorem breakout_without_rise : ∃ history : List (Candle Float),
    Asks (higherHigh (.text "0")) (charted [12.0, 11.0]) .high history 0 ∧
    evaluate "price_action" (charted [12.0, 11.0]) .empty (higherHigh (.text "0")) = .ok true ∧
    ¬ Breakout.high.LooksBack history 0 true := by
  have hzero : lookbackSetting (higherHigh (.text "0")) = .ok 0 := by
    rw [← toOption_eq_some_iff]
    decide +kernel
  have hseen : evaluate "price_action" (charted [12.0, 11.0]) .empty (higherHigh (.text "0")) =
      .ok true := by
    rw [← toOption_eq_some_iff]
    decide +kernel
  refine ⟨_, asks_higherHigh hzero (by decide), hseen, fun hlooks => ?_⟩
  have hclears := hlooks.previous rfl ⟨"", 11.0, 11.0, 11.0, 11.0, 11.0⟩ rfl
    ⟨"", 12.0, 12.0, 12.0, 12.0, 12.0⟩ (by simp [recent])
  have hnot : ¬ (12.0 : Float) < 11.0 := by decide +kernel
  exact hnot hclears

end Condition

end PaperTrading
