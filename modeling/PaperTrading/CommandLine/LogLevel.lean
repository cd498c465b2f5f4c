import PaperTrading.Failure
import PaperTrading.Text.Case

/-!
# Log levels

A log level is named by the configuration, without regard to case.  A name that nobody knows means the
level of information; two names stand for something that is no level.

* `LogLevel.ofName`: what a name stands for.
* `LogLevel.passes`: whether lines of information pass.
-/

namespace PaperTrading.CommandLine

/-- **A log level,** as far as it matters: whether lines of information pass. -/
inductive LogLevel where
  | information
  | higher
  deriving DecidableEq, Repr

namespace LogLevel

/-- The names of the levels above information. -/
def higherNames : List String := ["CRITICAL", "FATAL", "ERROR", "WARN", "WARNING"]

/-- The layout of a plain line. -/
def plainFormat : String := "%(levelname)s:%(name)s:%(message)s"

/-- **What a name stands for.** -/
def ofName (name : String) : Except Failure LogLevel :=
  match Text.capitals name with
  | "BASIC_FORMAT" => .error (.unknownLevel plainFormat)
  | "_STYLES" => .error .levelNotNamed
  | name => .ok (if higherNames.contains name then higher else information)

/-- Lines of information pass. -/
def passes (l : LogLevel) : Bool := l == information

end LogLevel

end PaperTrading.CommandLine
