import PaperTrading.Session.Options

/-!
# Creating sessions

A new session takes its settings from the options, else from the strategy, else from the defaults.

* `Defaults`: the values that stand in for what is left open.
* `Session.create`: a new session of a strategy.
* `Session.baseId`: the identifier that a new session asks for.
-/

namespace PaperTrading

/-- **The values that stand in** for what options and strategy leave open. -/
structure Defaults (α : Type) where
  capital : α
  risk : α
  timePeriod : String
  symbol : String

variable {α : Type} [Arith α]

/-- The defaults when nothing is configured. -/
def Defaults.standard : Defaults α := ⟨10000.0, 0.02, "1d", "SPY"⟩

/-- The symbols of a new session: those of the options, else those of the strategy, else the default
one.  An empty list of symbols does not count as given. -/
def chosenSymbols (strategy : Strategy α) (options : Options α) (defaults : Defaults α) :
    List (Value α) :=
  ([options.symbols.getD [], strategy.symbols].find? (!·.isEmpty)).getD [.text defaults.symbol]

/-- The settings of a new session. -/
def chosenSettings (strategy : Strategy α) (options : Options α) (defaults : Defaults α) :
    Settings α where
  symbols := chosenSymbols strategy options defaults
  timePeriod := options.timePeriod.orElse (.text defaults.timePeriod)
  riskPerTrade := (options.riskPerTrade.filter Arith.isNonzero).getD defaults.risk
  autoRun := options.autoRun

namespace Session

/-- **A new session of a strategy.** -/
def create (now : Instant) (id user : String) (strategy : Strategy α) (options : Options α)
    (defaults : Defaults α) : Except Failure (Session α) :=
  start now id user strategy ((options.initialCapital.filter Arith.isNonzero).getD defaults.capital)
    (chosenSettings strategy options defaults)

/-- The time of an identifier: milliseconds, computed from a clock that counts seconds. -/
def clock (α : Type) [Arith α] (now : Instant) : Except Failure Int := do
  let seconds ← Arith.dividedBy (← Arith.ofInteger α now.milliseconds) 1000
  Arith.truncated (seconds * 1000.0)

/-- The identifier that a new session asks for: its user, its strategy and the time. -/
def baseId (α : Type) [Arith α] (now : Instant) (user strategy : String) : String :=
  let time := (clock α now).toOption.getD now.milliseconds
  user ++ "-" ++ strategy ++ "-" ++ toString time

end Session

end PaperTrading
