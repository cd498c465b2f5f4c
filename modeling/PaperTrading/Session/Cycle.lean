import PaperTrading.Session.Execution
import PaperTrading.Strategy.Run

/-!
# Update cycles

A cycle runs the strategy of a session over a market, executes its signals, marks the positions to the
market and recomputes the metrics.  Whatever fails in it goes on record; a cycle itself never fails.

* `Step`: a change of a session that a failure may cut short, keeping what was done before.
* `Session.executeAll`, `Session.revalue`, `Session.recompute`: the three steps.
* `Session.cycle`: a cycle.
-/

namespace PaperTrading

open Arith

variable {α : Type}

/-- **A step of a session:** what it leaves behind, and the failure that cut it short. -/
abbrev Step (α : Type) := Session α → Session α × Option Failure

/-- One step after another; a failure in the first cuts both short. -/
def Step.andThen (f g : Step α) : Step α := fun s =>
  match f s with
  | (s, none) => g s
  | cut => cut

variable [Arith α]

namespace Session

/-! ### Executing -/

/-- **The signals of a batch, in order.**  One that cannot be executed goes on record and the next one
follows; any other failure ends the batch. -/
def executeAll (now : Instant) (market : Market α) :
    List (Signal α) → Session α → Session α × List (Transaction α) × Option Failure
  | [], s => (s, [], none)
  | signal :: signals, s =>
    match s.execute now market signal with
    | .ok (s, t) =>
      let (s, ts, f) := executeAll now market signals s
      (s, t.toList ++ ts, f)
    | .error f =>
      if f.isExecution then executeAll now market signals (s.record now f)
      else (s, [], some f)

/-- The execution of a batch as a step. -/
def applying (now : Instant) (market : Market α) (signals : List (Signal α)) : Step α := fun s =>
  let (s, _, f) := executeAll now market signals s
  (s, f)

/-! ### Marking -/

/-- A position at the live price of its symbol, if that is positive. -/
def markOne (now : Instant) (market : Market α) (p : Position α) :
    Except Failure (Position α) := do
  match (← market.livePrice p.symbol).filter fun x => !decide (x ≤ 0.0) with
  | some price => return { p with currentPrice := price, lastUpdated := now }
  | none => return p

/-- Positions at their live prices, up to the first failure. -/
def markAll (now : Instant) (market : Market α) :
    List (Position α) → List (Position α) × Option Failure
  | [] => ([], none)
  | p :: ps =>
    match markOne now market p with
    | .ok q =>
      let (qs, f) := markAll now market ps
      (q :: qs, f)
    | .error f => (p :: ps, some f)

/-- **Marks every position to the market.** -/
def revalue (now : Instant) (market : Market α) : Step α := fun s =>
  let (positions, f) := markAll now market s.positions
  ({ s with positions }, f)

end Session

/-! ### Measuring -/

/-- What a position is worth at its current price. -/
def Position.worth (p : Position α) : Except Failure α := times p.currentPrice p.quantity

namespace Session

/-- What a session is worth: its cash and its positions. -/
def equity (s : Session α) : Except Failure α := do
  return s.cash + sum (← s.positions.mapM Position.worth)

/-- The sells of the trade log. -/
def sells (s : Session α) : List (Transaction α) := s.transactions.filter (·.isSell)

/-- The sells that realised a profit. -/
def winners (s : Session α) : List (Transaction α) :=
  s.sells.filter fun t => t.profit.any fun x => decide (0.0 < x)

/-- The metrics of a session that is worth `equity`. -/
def metricsAt (s : Session α) (equity : α) : Except Failure (Metrics α) := do
  let total := s.sells.length
  let won := s.winners.length
  let pnl := equity - s.initialCapital
  let rate ← if total = 0 then .ok 0.0
    else .ok ((← ofInteger α won) / (← ofInteger α total) * 100.0)
  return ⟨pnl, pnl / s.initialCapital * 100.0, total, won, total - won, rate⟩

/-- **The session with its capital and metrics computed anew.** -/
def recompute (s : Session α) : Except Failure (Session α) := do
  let equity ← s.equity
  return { s with currentCapital := equity, metrics := ← s.metricsAt equity }

/-- The computation of the metrics as a step. -/
def recomputing : Step α := fun s =>
  match s.recompute with
  | .ok s => (s, none)
  | .error f => (s, some f)

/-! ### The cycle -/

/-- What follows a run of the strategy. -/
def settle (now : Instant) (market : Market α) (signals : List (Signal α)) : Step α :=
  (applying now market signals).andThen ((revalue now market).andThen recomputing)

/-- A cycle over a market that has been read. -/
def cycleOver (now : Instant) (market : Market α) (s : Session α) : Session α :=
  let (s, signals) := match s.strategy.run now market with
    | .ok outcome => (s, outcome.signals)
    | .error f => (s.record now f, [])
  match settle now market signals s with
  | (s, none) => { s with lastUpdated := now }
  | (s, some f) => s.record now f

/-- **An update cycle.** -/
def cycle (now : Instant) (feed : Feed α) (s : Session α) : Session α :=
  match Market.read feed with
  | .ok market => s.cycleOver now market
  | .error f => s.record now f

end Session

end PaperTrading
