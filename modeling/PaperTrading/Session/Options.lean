import PaperTrading.Session.Basic

/-!
# Options of new sessions

What the creator of a session may choose; whatever is left open falls back to the strategy or to the
defaults.  A capital has to be positive, and a risk a fraction above zero.

* `Options`: the choices.
* `Options.read`: the choices of a document.
-/

namespace PaperTrading

/-- **The choices for a new session.** -/
structure Options (α : Type) where
  initialCapital : Option α
  symbols : Option (List (Value α))
  timePeriod : Value α
  riskPerTrade : Option α
  autoRun : Bool

namespace Options

variable {α : Type}

/-- No choice at all. -/
def none : Options α := ⟨.none, .none, .null, .none, false⟩

/-- The document of choices. -/
def toValue (o : Options α) : Value α :=
  .object [("initialCapital", .ofNum? o.initialCapital),
    ("symbols", o.symbols.elim .null .list), ("timePeriod", o.timePeriod),
    ("riskPerTrade", .ofNum? o.riskPerTrade), ("autoRun", .bool o.autoRun)]

/-- The first of some fields that is not missing. -/
def firstPresent (fields : Table (Value α)) (names : List String) : Value α :=
  ((names.map (Value.get fields)).find? (!·.isMissing)).getD .null

variable [Arith α]

/-- The symbols of a document: a text is one symbol, anything else lists them. -/
def readSymbols (v : Value α) : Except Failure (Option (List (Value α))) :=
  match v with
  | .text s => .ok (if s = "" then .none else some [.text s])
  | v => if v.isTrue then do return some (← v.items) else .ok .none

/-- Refuses a capital that is not positive and a risk that is no fraction above zero. -/
def check (o : Options α) : Except Failure Unit := do
  if let some x := o.initialCapital then
    if x ≤ 0.0 then throw (.notPositive "initialCapital" (Arith.written x))
  if let some x := o.riskPerTrade then
    if !(decide ((0.0 : α) < x) && decide (x ≤ 1.0)) then
      throw (.notFraction "riskPerTrade" (Arith.written x))

/-- **The choices of a document.** -/
def read (v : Value α) : Except Failure (Options α) := do
  let fields ← (v.orElse (.object [])).fieldsFor "get"
  let initialCapital ← (firstPresent fields ["initialCapital", "initial_capital"]).toNumber?
  let symbols ← readSymbols (firstPresent fields ["symbols"])
  let riskPerTrade ← (firstPresent fields ["riskPerTrade", "risk_per_trade"]).toNumber?
  let o : Options α := {
    initialCapital, symbols, riskPerTrade
    timePeriod := firstPresent fields ["timePeriod", "time_period", "timeframe"]
    autoRun := (firstPresent fields ["autoRun", "auto_run"]).isTrue }
  o.check
  return o

end Options

end PaperTrading
