import PaperTrading.Number.Arith

/-!
# Indicator series

Five indicators as functions of a list of prices, oldest first.  A series starts with the first value
that the indicator can produce, and every further price adds one value.

* `slice`: a part of a list; a negative bound counts from the end.
* `sma`, `ema`: the means of a trailing window, and a mean that forgets exponentially.
* `rsi`: the relative strength of gains and losses.
* `macd`: the distance of a fast and a slow mean, with its own mean.
* `bollinger`: bands around a trailing mean.
-/

namespace PaperTrading.Indicator

open Arith

variable {α : Type}

/-! ### Windows -/

/-- The place of a bound in a list of length `n`; a negative bound counts from the end. -/
def place (n : Nat) (i : Int) : Nat := if i < 0 then (n + i).toNat else min i.toNat n

/-- **The part of a list from one bound up to another.** -/
def slice (xs : List α) (start stop : Int) : List α :=
  let first := place xs.length start
  (xs.drop first).take (place xs.length stop - first)

/-- The entries at `k`, `k + 1` and so on up to the end; a negative place counts from the end, and
then every entry follows once more. -/
def entriesFrom (xs : List α) (k : Int) : Except Failure (List α) :=
  if 0 ≤ k then .ok (xs.drop k.toNat)
  else if k < -0x8000000000000000 then .error .positionTooLarge
  else if xs.length + k < 0 then .error .positionOutOfRange
  else .ok (xs.drop (xs.length + k).toNat ++ xs)

/-- Why a computation that needs more prices is refused; a need with too many digits cannot be told. -/
def shortage (available : Nat) (needed : Int) (label : String) : Failure :=
  if needed.natAbs < Nat.pow 10 digitLimit then .tooFewPeriods needed label available
  else .integerTooLong

/-- Refuses a computation for which too few prices are available. -/
def checkEnough (available : Nat) (needed : Int) (label : String) : Except Failure Unit :=
  if (available : Int) < needed then .error (shortage available needed label) else .ok ()

variable [Arith α]

/-- The sum of a window over its declared length. -/
def mean (window : List α) (period : Int) : Except Failure α :=
  if !window.isEmpty then dividedBy (sum window) period
  else if period = 0 then .error (.divisionByZero true)
  else .ok (if period < 0 then -0.0 else 0.0)

/-! ### Means -/

/-- **Simple moving average:** the mean of every window of `period` prices. -/
def sma (prices : List α) (period : Int) : Except Failure (List α) := do
  checkEnough prices.length period s!"SMA({period})"
  (List.range (prices.length - period + 1).toNat).mapM fun (j : Nat) =>
    mean (slice prices j (j + period)) period

/-- The exponential means from a first one on, each drawn toward its price by the weight `k`. -/
def smooth (k : α) : α → List α → List α
  | previous, [] => [previous]
  | previous, p :: ps => previous :: smooth k ((p - previous) * k + previous) ps

/-- **Exponential moving average:** seeded with the mean of the first `period` prices. -/
def ema (prices : List α) (period : Int) : Except Failure (List α) := do
  checkEnough prices.length period s!"EMA({period})"
  let k ← dividedBy 2.0 (period + 1)
  let first ← mean (slice prices 0 period) period
  return smooth k first (slice prices period prices.length)

/-! ### Relative strength -/

/-- The index of an average gain and an average loss; a zero loss is replaced by a small number. -/
def strength (gain loss : α) : Except Failure α := do
  let ratio ← quotient gain (if loss == 0.0 then 0.001 else loss)
  return 100.0 - (← quotient 100.0 (1.0 + ratio))

/-- An average with one more step in it; `weight` is the number of steps that it stands for. -/
def nextAverage (weight : α) (period : Int) (average step : α) : Except Failure α :=
  dividedBy (average * weight + step) period

/-- The indices from a first pair of averages on, one for every further gain and loss. -/
def strengths (weight : α) (period : Int) : α → α → List (α × α) → Except Failure (List α)
  | gain, loss, [] => do return [← strength gain loss]
  | gain, loss, (g, l) :: steps => do
    let first ← strength gain loss
    let gain ← nextAverage weight period gain g
    let loss ← nextAverage weight period loss l
    return first :: (← strengths weight period gain loss steps)

/-- The changes from one price to the next. -/
def changes : List α → List α
  | p :: q :: ps => (q - p) :: changes (q :: ps)
  | _ => []

/-- **Relative strength index** with smoothed averages. -/
def rsi (prices : List α) (period : Int) : Except Failure (List α) := do
  checkEnough prices.length (period + 1) s!"RSI({period})"
  let deltas := changes prices
  let gains := deltas.map (larger · 0.0)
  let losses := deltas.map fun d => size (smaller d 0.0)
  let gain ← mean (slice gains 0 period) period
  let loss ← mean (slice losses 0 period) period
  let weight ← ofInteger α (period - 1)
  strengths weight period gain loss (← entriesFrom (gains.zip losses) period)

/-! ### Convergence and divergence -/

/-- The distance of two means, the mean of that distance, and the distance of those two. -/
structure Macd (α : Type) where
  macd : List α
  signal : List α
  histogram : List α

/-- **Moving average convergence and divergence.** -/
def macd (prices : List α) (fast slow signal : Int) : Except Failure (Macd α) := do
  checkEnough prices.length (slow + signal) s!"MACD({fast},{slow},{signal})"
  let fastMeans ← ema prices fast
  let slowMeans ← ema prices slow
  let line := fastMeans.zipWith (· - ·) slowMeans
  let signalLine ← ema line signal
  return ⟨line, signalLine, line.zipWith (· - ·) signalLine⟩

/-! ### Bands -/

/-- A trailing mean with a band above and a band below. -/
structure Bands (α : Type) where
  upper : List α
  middle : List α
  lower : List α

/-- The standard deviation of a window around its mean. -/
def deviation (window : List α) (center : α) (period : Int) : Except Failure α := do
  let squares ← window.mapM fun x => squared (x - center)
  root (← mean squares period)

/-- **Bollinger bands:** so many standard deviations above and below the trailing mean. -/
def bollinger (prices : List α) (period : Int) (deviations : α) : Except Failure (Bands α) := do
  checkEnough prices.length period s!"Bollinger({period},{written deviations})"
  let middle ← sma prices period
  let widths ← middle.zipIdx.mapM fun (center, j) => do
    return deviations * (← deviation (slice prices j (j + period)) center period)
  return ⟨middle.zipWith (· + ·) widths, middle, middle.zipWith (· - ·) widths⟩

/-! ### Laws of windows -/

omit [Arith α] in
theorem slice_of_le {xs : List α} {i j : Nat} (hi : i ≤ xs.length) (hj : j ≤ xs.length) :
    slice xs i j = (xs.drop i).take (j - i) := by
  have h₁ : ¬ (i : Int) < 0 := by omega
  have h₂ : ¬ (j : Int) < 0 := by omega
  simp [slice, place, h₁, h₂, Nat.min_eq_left hi, Nat.min_eq_left hj]

theorem smooth_append (k previous : α) (ps : List α) (p : α) :
    ∃ x, smooth k previous (ps ++ [p]) = smooth k previous ps ++ [x] := by
  induction ps generalizing previous with
  | nil => exact ⟨_, rfl⟩
  | cons q ps ih =>
    obtain ⟨x, hx⟩ := ih ((q - previous) * k + previous)
    exact ⟨x, by simp [smooth, hx]⟩

theorem length_smooth (k previous : α) (ps : List α) :
    (smooth k previous ps).length = ps.length + 1 := by
  induction ps generalizing previous with
  | nil => rfl
  | cons q ps ih => simp [smooth, ih]

end PaperTrading.Indicator
