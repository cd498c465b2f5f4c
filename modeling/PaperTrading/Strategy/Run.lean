import PaperTrading.Condition.Rule
import PaperTrading.Signal
import PaperTrading.Strategy.Document

/-!
# Running a strategy

One pass of a strategy over a market: every indicator block is computed, then every condition block is
evaluated, and each condition that holds makes every action block emit its signal.  A failure stops the
run at its block and leaves neither signals nor studies.

* `Strategy.studies`: the studies of the indicator blocks.
* `Strategy.signals`: the signals of the condition and action blocks.
* `Strategy.run`: the pass.
-/

namespace PaperTrading

/-- **The outcome of a run** that was not stopped. -/
structure Outcome (α : Type) where
  signals : List (Signal α)
  studies : Studies α

variable {α : Type}

/-- A computation at a block, whose failure names the block. -/
def atBlock {β : Type} (b : Block α) (x : Except Failure β) : Except Failure β :=
  x.mapError (.stoppedAt b.id)

namespace Strategy

variable [Arith α]

/-- The studies with that of one more indicator block. -/
def addStudy (market : Market α) (studies : Studies α) (b : Block α) :
    Except Failure (Studies α) := do
  return studies.insert b.id (← atBlock b (Indicator.study b.kind market b.settings))

/-- **The studies of the indicator blocks,** by block. -/
def studies (s : Strategy α) (market : Market α) : Except Failure (Studies α) :=
  (s.blocksOf .indicator).foldlM (addStudy market) .empty

/-- The signals of all action blocks. -/
def volley (now : Instant) (s : Strategy α) (market : Market α) :
    Except Failure (List (Signal α)) := do
  let emitted ← (s.blocksOf .action).mapM fun b =>
    atBlock b (Signal.generate now b.kind b.settings market)
  return emitted.filterMap fun signal => signal

/-- The signals of a condition block: those of all action blocks if it holds. -/
def signalsOf (now : Instant) (s : Strategy α) (market : Market α) (readouts : Table (Readout α))
    (b : Block α) : Except Failure (List (Signal α)) := do
  if ← atBlock b (Condition.evaluate b.kind market readouts b.settings) then volley now s market
  else return []

/-- **The signals of a run,** condition by condition. -/
def signals (now : Instant) (s : Strategy α) (market : Market α) (studies : Studies α) :
    Except Failure (List (Signal α)) := do
  let parts ← (s.blocksOf .condition).mapM (signalsOf now s market (studies.map Study.readout))
  return parts.flatten

/-- **One pass of a strategy over a market.** -/
def run (now : Instant) (s : Strategy α) (market : Market α) : Except Failure (Outcome α) := do
  let studies ← s.studies market
  return ⟨← s.signals now market studies, studies⟩

end Strategy

end PaperTrading
