import PaperTrading.CommandLine.Arguments
import PaperTrading.CommandLine.Files
import PaperTrading.CommandLine.LogLevel
import PaperTrading.Config.Basic
import PaperTrading.Http.Service
import PaperTrading.Replay.Run
import PaperTrading.Strategy.File

/-!
# The program

The program serves sessions over HTTP or replays recorded candles through a stored strategy.  What it
does depends on its arguments, the environment and some files, and on nothing else.

* `Outcome`: how the program ends, or that it serves.
* `wantedFiles`, `wantedVariables`: what a run asks its surroundings for.
* `run`: the program, with the lines that it logs.
-/

namespace PaperTrading.CommandLine

/-! ### Logging -/

/-- A line of information. -/
def informationLine (text : String) : String := "[INFO] blocktrader: " ++ text

/-! ### Outcomes -/

/-- **How the program ends,** or that it serves on a port. -/
inductive Outcome (α : Type) where
  | helped
  | misused (e : UsageError)
  | unknownStrategy (id : String)
  | failed (f : Failure)
  | replayed (r : Replay α)
  | serving (port : Int) (service : Http.Service α)

/-- A run of the program: the lines that it logged, and its outcome. -/
structure Report (α : Type) where
  log : List String
  outcome : Outcome α

variable {α : Type} [Arith α]

/-- The strategies of the configured file. -/
def storedStrategies (config : Config α) (files : Files) : Except Failure (List (Strategy α)) := do
  Strategy.ofFile (normalPath config.strategiesPath) (← files.read? config.strategiesPath)

/-! ### Serving -/

/-- The service over the stored strategies; it has no provider of its own. -/
def service (config : Config α) (files : Files) : Except Failure (Http.Service α) := do
  return ⟨some (.ofStrategies (← storedStrategies config files) config.defaults), none⟩

/-- The notice of a start. -/
def startLine (port : Int) : String :=
  informationLine ("Starting BlockTrader API on port " ++ toString port ++ ".")

/-- Serves. -/
def serve (config : Config α) (files : Files) : Report α :=
  match service config files with
  | .ok service => ⟨[startLine config.port], .serving config.port service⟩
  | .error f => ⟨[], .failed f⟩

/-! ### Replaying -/

/-- The candles of a document: by symbol, or a single list for the default symbol. -/
def readCandles (symbol : String) (v : Value α) : Except Failure (Candles α) := do
  let fields ← match v with
    | .list _ => .ok ⟨[(symbol, v)]⟩
    | v => v.fieldsFor "items"
  fields.mapM Candle.readAll

/-- The candles of a file. -/
def loadCandles (config : Config α) (files : Files) (path : String) :
    Except Failure (Candles α) := do
  readCandles config.symbol (← Json.read Strategy.fileDepth (← files.read path))

/-- The options of a replay. -/
def replayOptions (config : Config α) (capital : Option α) (strategy : Strategy α) : Options α where
  initialCapital := some ((capital.filter Arith.isNonzero).getD config.capital)
  symbols := none
  timePeriod := (Value.text strategy.timeframe).orElse (.text config.timePeriod)
  riskPerTrade := some config.risk
  autoRun := false

/-- The notice of a finished replay. -/
def replayLine (r : Replay α) : String :=
  let s := r.statistics
  informationLine ("Replay complete: " ++ toString s.totalTrades ++ " trades, PnL: $"
    ++ Arith.fixed 2 s.netPnL ++ ", Win rate: " ++ Arith.fixed 1 s.winRate ++ "%, final capital $"
    ++ Arith.fixed 2 r.session.currentCapital ++ ", max drawdown "
    ++ Arith.fixed 2 s.maxDrawdownPercent ++ "%")

/-- A replay of a strategy over the candles of a file. -/
def replayOf (now : Instant) (config : Config α) (files : Files) (strategy : Strategy α)
    (candles : String) (capital : Option α) : Except Failure (Replay α) := do
  Replay.run now strategy (replayOptions config capital strategy) 2
    (← loadCandles config files candles) true

/-- The stored strategy of a given identifier; of several, the last one. -/
def findStrategy (strategies : List (Strategy α)) (id : String) : Option (Strategy α) :=
  (strategies.reverse.find? (·.id == id))

/-- Replays. -/
def replay (now : Instant) (config : Config α) (files : Files) (strategy candles : String)
    (capital : Option α) : Report α :=
  match storedStrategies config files with
  | .error f => ⟨[], .failed f⟩
  | .ok strategies => match findStrategy strategies strategy with
    | none => ⟨[], .unknownStrategy strategy⟩
    | some s => match replayOf now config files s candles capital with
      | .ok r => ⟨[replayLine r], .replayed r⟩
      | .error f => ⟨[], .failed f⟩

/-! ### The program -/

/-- What the program does in its mode. -/
def runMode (now : Instant) (files : Files) (a : Arguments α) (config : Config α) : Report α :=
  match a.mode with
  | .serve => serve config files
  | .replay =>
    match a.strategyId.filter (· ≠ ""), a.candles.filter (· ≠ "") with
    | some strategy, some candles => replay now config files strategy candles a.capital
    | _, _ => ⟨[], .misused .incompleteReplay⟩

/-- What the program does with a configuration; lines that do not pass the log level are dropped. -/
def runWith (now : Instant) (files : Files) (a : Arguments α) (config : Config α) : Report α :=
  match LogLevel.ofName config.logLevel with
  | .error f => ⟨[], .failed f⟩
  | .ok level =>
    let report := runMode now files a config
    if level.passes then report else { report with log := [] }

/-- The configuration of the environment and of the file that the arguments name. -/
def configure (environment : Table String) (files : Files) (a : Arguments α) :
    Except Failure (Config α) :=
  let file := match a.env.map files.look with
    | some (.file text) => some text
    | _ => none
  Config.load environment file

/-! ### What a run asks for -/

/-- The files that a run may read, as far as the files known so far tell. -/
def wantedFiles (α : Type) [Arith α] (environment : Table String) (files : Files)
    (args : List String) : List String :=
  match (Arguments.parse args : Except Stop (Arguments α)) with
  | .error _ => []
  | .ok a =>
    let configured := match configure environment files a with
      | .ok config => [config.strategiesPath]
      | .error _ => []
    a.env.toList ++ a.candles.toList ++ configured

/-- The variables that the file of variables mentions. -/
def wantedVariables (α : Type) [Arith α] (files : Files) (args : List String) : List String :=
  match (Arguments.parse args : Except Stop (Arguments α)) with
  | .error _ => []
  | .ok a => match a.env.map files.look with
    | some (.file text) => EnvFile.mentioned text
    | _ => []

/-! ### The whole -/

/-- **The program.** -/
def run (now : Instant) (environment : Table String) (files : Files) (args : List String) :
    Report α :=
  match (Arguments.parse args : Except Stop (Arguments α)) with
  | .error .help => ⟨[], .helped⟩
  | .error (.usage e) => ⟨[], .misused e⟩
  | .ok a => match configure environment files a with
    | .error f => ⟨[], .failed f⟩
    | .ok config => runWith now files a config

end PaperTrading.CommandLine
