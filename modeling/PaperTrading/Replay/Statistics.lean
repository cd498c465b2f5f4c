import PaperTrading.Value.Reading

/-!
# Statistics of a replay

Counts and profits come from the closed trades, risk figures from the equity curve, which is the value
of the session after every bar.

* `barsPerYear`: the number of bars in a year.
* `relativeChanges`, `sharpe`: the relative changes of the curve, and their mean over their
  spread.
* `drawdowns`: the largest falls from a peak, by amount and in percent.
* `Statistics.of`: the summary.
-/

namespace PaperTrading

open Arith

variable {α : Type}

/-! ### Periods -/

/-- The bars per year of the known time periods, in sessions of six hours and a half. -/
def barsOfPeriod : Table Int :=
  ⟨[("1m", 98280), ("5m", 19656), ("15m", 6552), ("30m", 3276), ("1h", 1638), ("1d", 252), ("1w", 52),
    ("1wk", 52), ("1mo", 12)]⟩

/-- **The number of bars in a year;** an unknown period counts as a day. -/
def barsPerYear (period : Value α) : Except Failure Int := do
  return (← period.lookUp barsOfPeriod).getD 252

variable [Arith α]

/-! ### Returns -/

/-- The relative changes from one bar to the next; a bar that is not above zero has none. -/
def relativeChanges : List α → List α
  | previous :: current :: rest =>
    let rest := relativeChanges (current :: rest)
    if 0.0 < previous then (current - previous) / previous :: rest else rest
  | _ => []

/-- The standard deviation of a sample around its mean. -/
def spread (xs : List α) (mean : α) : Except Failure α := do
  let squares ← xs.mapM fun x => squared (x - mean)
  root (← dividedBy (sum squares) (xs.length - 1))

/-- **The mean return over its spread,** scaled to a year.  It is zero for fewer than two returns and
for a flat curve. -/
def sharpe (returns : List α) (bars : Int) : Except Failure α := do
  if returns.length < 2 then return 0.0
  let mean ← dividedBy (sum returns) returns.length
  let deviation ← spread returns mean
  if deviation == 0.0 then return 0.0
  return mean / deviation * (← root (← ofInteger α bars))

/-! ### Drawdowns -/

/-- The peak so far, and the largest falls from a peak. -/
structure Drawdown (α : Type) where
  peak : Option α
  worst : α
  worstPercent : α

/-- One more value of the curve. -/
def Drawdown.step (d : Drawdown α) (equity : α) : Drawdown α :=
  match d.peak with
  | none => { d with peak := some equity }
  | some peak =>
    if peak < equity then { d with peak := some equity }
    else { d with
      worst := larger d.worst (peak - equity)
      worstPercent :=
        if 0.0 < peak then larger d.worstPercent ((peak - equity) / peak * 100.0)
        else d.worstPercent }

/-- **The largest fall from a peak,** by amount and in percent of the peak.  The two may have happened
at different times. -/
def drawdowns (curve : List α) : α × α :=
  let d := curve.foldl Drawdown.step ⟨none, 0.0, 0.0⟩
  (d.worst, d.worstPercent)

/-! ### Summary -/

/-- **The summary of a replay.** -/
structure Statistics (α : Type) where
  totalTrades : Nat
  winningTrades : Nat
  losingTrades : Nat
  winRate : α
  profitFactor : Option α
  netPnL : α
  sharpeRatio : α
  maxDrawdown : α
  maxDrawdownPercent : α

namespace Statistics

omit [Arith α] in
/-- The document of a summary. -/
def toValue (s : Statistics α) : Value α :=
  .object [("total_trades", .int s.totalTrades), ("winning_trades", .int s.winningTrades),
    ("losing_trades", .int s.losingTrades), ("win_rate", .num s.winRate),
    ("profit_factor", .ofNum? s.profitFactor), ("net_pnl", .num s.netPnL),
    ("sharpe_ratio", .num s.sharpeRatio), ("max_drawdown", .num s.maxDrawdown),
    ("max_drawdown_pct", .num s.maxDrawdownPercent)]

/-- The share of winning trades in percent. -/
def winRateOf (won total : Nat) : Except Failure α := do
  if total = 0 then return 0.0
  return roundTo 4 ((← ofInteger α won) / (← ofInteger α total) * 100.0)

/-- The gains over the losses; none when nothing was lost. -/
def profitFactorOf (winners losers : List α) : Option α :=
  let loss := -sum losers
  if 0.0 < loss then some (roundTo 4 (sum winners / loss)) else none

/-- **The summary of closed trades and an equity curve.** -/
def of (profits curve : List α) (period : Value α) : Except Failure (Statistics α) := do
  let winners := profits.filter fun p => 0.0 < p
  let losers := profits.filter fun p => p ≤ 0.0
  let (drawdown, percent) := drawdowns curve
  let returns := relativeChanges curve
  let ratio ← sharpe returns (← barsPerYear period)
  return {
    totalTrades := profits.length
    winningTrades := winners.length
    losingTrades := losers.length
    winRate := ← winRateOf winners.length profits.length
    profitFactor := profitFactorOf winners losers
    netPnL := roundTo 2 (sum profits)
    sharpeRatio := roundTo 4 ratio
    maxDrawdown := roundTo 2 drawdown
    maxDrawdownPercent := roundTo 4 percent }

end Statistics

end PaperTrading
