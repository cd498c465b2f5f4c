import PaperTrading.Config.EnvFile
import PaperTrading.Session.Creation
import PaperTrading.Text.Case

/-!
# Configuration

The configuration is read from variables, each of which may be missing.  A capital has to be positive
and a risk a fraction above zero; a variable that cannot be read is named in the failure.

* `Config`: the configuration.
* `Config.load`: the configuration of an environment and of a file of variables.
-/

namespace PaperTrading

/-- **The configuration.** -/
structure Config (α : Type) where
  capital : α
  risk : α
  timePeriod : String
  symbol : String
  strategiesPath : String
  logLevel : String
  port : Int

namespace Config

variable {α : Type}

/-- What the configuration says about new sessions. -/
def defaults (c : Config α) : Defaults α := ⟨c.capital, c.risk, c.timePeriod, c.symbol⟩

/-- The document of a configuration. -/
def toValue (c : Config α) : Value α :=
  .object [("capital", .num c.capital), ("risk", .num c.risk), ("timePeriod", .text c.timePeriod),
    ("symbol", .text c.symbol), ("strategiesPath", .text c.strategiesPath),
    ("logLevel", .text c.logLevel), ("apiPort", .int c.port)]

/-- The variable that turns files of variables off. -/
def switch : String := "PYTHON_DOTENV_DISABLED"

/-- The variables of the configuration. -/
def names : List String :=
  ["DEFAULT_INITIAL_CAPITAL", "DEFAULT_RISK_PER_TRADE", "DEFAULT_TIME_PERIOD", "DEFAULT_SYMBOL",
    "STRATEGIES_PATH", "LOG_LEVEL", "API_PORT", switch]

/-- The environment turns files of variables off. -/
def ignoresFile (environment : Table String) : Bool :=
  ["1", "true", "t", "yes", "y"].contains (Text.folded ((environment.find? switch).getD ""))

/-- A variable, with a default. -/
def variableOr (environment : Table String) (name default : String) : String :=
  (environment.find? name).getD default

/-- An integer variable, with a default. -/
def integerOf (environment : Table String) (name default : String) : Except Failure Int :=
  let raw := variableOr environment name default
  match readInteger raw with
  | .ok n => .ok n
  | .error _ => .error (.invalidVariable name raw)

variable [Arith α]

/-- A variable that is a number, with a default. -/
def numberOf (environment : Table String) (name default : String) : Except Failure α :=
  let raw := variableOr environment name default
  match (Numeral.read? raw).bind Arith.ofNumeral? with
  | some x => .ok x
  | none => .error (.invalidVariable name raw)

/-- The capital; it has to be positive. -/
def capitalOf (environment : Table String) : Except Failure α := do
  let name := "DEFAULT_INITIAL_CAPITAL"
  let x : α ← numberOf environment name "10000"
  if x ≤ 0.0 then throw (.notPositive name (Arith.written x))
  return x

/-- The risk; it has to be a fraction above zero. -/
def riskOf (environment : Table String) : Except Failure α := do
  let name := "DEFAULT_RISK_PER_TRADE"
  let x : α ← numberOf environment name "0.02"
  if !(decide (0.0 < x) && decide (x ≤ 1.0)) then throw (.notFraction name (Arith.written x))
  return x

/-- The configuration of an environment. -/
def ofVariables (environment : Table String) : Except Failure (Config α) := do
  return {
    capital := ← capitalOf environment
    risk := ← riskOf environment
    timePeriod := variableOr environment "DEFAULT_TIME_PERIOD" "1d"
    symbol := variableOr environment "DEFAULT_SYMBOL" "SPY"
    strategiesPath := variableOr environment "STRATEGIES_PATH" "data/strategies.json"
    logLevel := variableOr environment "LOG_LEVEL" "INFO"
    port := ← integerOf environment "API_PORT" "8080" }

/-- **The configuration of an environment and of a file of variables,** if there is one and the
environment does not turn it off. -/
def load (environment : Table String) (file : Option String) : Except Failure (Config α) := do
  let file := if ignoresFile environment then none else file
  ofVariables (← file.elim (.ok environment) (EnvFile.extend environment))

end Config

end PaperTrading
