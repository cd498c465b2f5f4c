import PaperTrading.Desk.Operations
import PaperTrading.Replay.Statistics

/-!
# Replays

A replay feeds recorded candles through a session, bar by bar.  At every bar the session sees the
candles up to it, with the close of the last one as the live price.

* `Candles`: recorded candles by symbol.
* `Candles.marketAt`: the market as it looked at the close of a bar.
* `Replay.cycles`: the session after every update cycle.
* `Replay.run`: a whole replay, with its statistics.
-/

namespace PaperTrading

/-- **Recorded candles** by symbol, oldest first. -/
abbrev Candles (α : Type) := Table (List (Candle α))

namespace Candles

variable {α : Type}

/-- The number of bars that every symbol has. -/
def bars (c : Candles α) : Nat := ((c.values.map List.length).min?).getD 0

/-- The quote at the close of a bar. -/
def quoteAt (index : Nat) (series : List (Candle α)) : Quote α :=
  let window := series.take (index + 1)
  ⟨window.getLast?.map Candle.close, window.getLast?.map Candle.time, window⟩

/-- **The market at the close of a bar.** -/
def marketAt (c : Candles α) (index : Nat) : Market α := c.map (quoteAt index)

end Candles

/-- A finished replay. -/
structure Replay (α : Type) where
  session : Session α
  statistics : Statistics α
  equityCurve : List α

namespace Replay

variable {α : Type}

/-- The document of a replay. -/
def toValue (r : Replay α) : Value α :=
  .object [("session", r.session.toValue), ("stats", r.statistics.toValue),
    ("finalCapital", .num r.session.currentCapital),
    ("equityCurve", .list (r.equityCurve.map .num)),
    ("maxDrawdownPct", .num r.statistics.maxDrawdownPercent)]

variable [Arith α]

/-- One update cycle at the close of a bar. -/
def cycleAt (now : Instant) (candles : Candles α) (s : Session α) (index : Nat) : Session α :=
  s.cycle now (.table ((candles.marketAt index).map .inl))

/-- **The session after every update cycle.** -/
def cycles (now : Instant) (candles : Candles α) : Session α → List Nat → List (Session α)
  | _, [] => []
  | s, index :: indices =>
    let s := cycleAt now candles s index
    s :: cycles now candles s indices

/-- The bars at which the session is updated: those from the end of the warm-up on. -/
def indices (warmup : Int) (bars : Nat) : List Nat :=
  (List.range bars).drop (warmup - 1).toNat

/-- The signal that sells a position at its last close. -/
def closingSignal (now : Instant) (market : Market α) (p : Position α) :
    Except Failure (Option (Signal α)) := do
  return (← p.symbol.lookUp market).map fun quote =>
    ⟨p.symbol, quote.price, now, .trade .sell (.text "market") (some p.quantity) none none⟩

/-- Sells every position at its last close. -/
def close (now : Instant) (market : Market α) (s : Session α) : Except Failure (Session α) := do
  let signals ← s.positions.mapM (closingSignal now market)
  match s.executeAll now market (signals.filterMap fun signal => signal) with
  | (_, _, some f) => throw f
  | (s, _, none) => s.recompute

/-- The profits of the closed trades. -/
def profits (s : Session α) : List α := s.transactions.filterMap (·.profit)

/-- The options of a replay; the symbols default to those of the candles. -/
def optionsFor (options : Options α) (candles : Candles α) : Options α :=
  { options with symbols := options.symbols.orElse fun _ => some (candles.keys.map .text) }

/-- The session that a replay starts with. -/
def initial (now : Instant) (strategy : Strategy α) (options : Options α) :
    Except Failure (Session α) := do
  strategy.validate
  let id := Session.baseId α now strategy.owner strategy.id
  let s ← Session.create now id strategy.owner strategy options .standard
  let _ ← Value.joinTexts s.settings.symbols
  return s

/-- The sessions at the points of the equity curve: at the start, after every cycle, and after the
positions have been closed. -/
def course (now : Instant) (candles : Candles α) (warmup : Int) (closeAtEnd : Bool)
    (s : Session α) : Except Failure (List (Session α)) := do
  let run := s :: cycles now candles s (indices warmup candles.bars)
  if closeAtEnd && candles.bars ≠ 0 then
    let closed ← close now (candles.marketAt (candles.bars - 1)) (run.getLastD s)
    return run ++ [closed]
  else return run

/-- Refuses a warm-up of no bars. -/
def checkWarmup (warmup : Int) : Except Failure Unit :=
  if warmup < 1 then .error (.warmupTooSmall warmup) else .ok ()

/-- **A whole replay** of a strategy over recorded candles. -/
def run (now : Instant) (strategy : Strategy α) (options : Options α) (warmup : Int)
    (candles : Candles α) (closeAtEnd : Bool) : Except Failure (Replay α) := do
  checkWarmup warmup
  if candles.isEmpty then throw .noCandles
  let start ← initial now strategy (optionsFor options candles)
  let sessions ← course now candles warmup closeAtEnd start
  let last := sessions.getLastD start
  let curve := sessions.map (·.currentCapital)
  return ⟨last, ← Statistics.of (profits last) curve last.settings.timePeriod, curve⟩

end Replay

end PaperTrading
