import PaperTrading.Market.Quote

/-!
# Fetching market data

Market data may be fetched from a provider, symbol by symbol.  A symbol whose fetch fails, or whose
document is malformed, is left out; the others are collected all the same.

* `Provider`, `Provider.fetch`: what a fetch of a symbol yields.
* `Fetch.read`: what is kept of a fetch.
* `collect`: the data of several symbols, in the order of their first mention.
-/

namespace PaperTrading

/-- What a fetch yields. -/
inductive Fetch (α : Type) where
  | failed
  | quote (q : Quote α)
  | document (v : Value α)

/-- **A provider of market data,** asked for a symbol and a time period.  Its symbols are texts. -/
abbrev Provider (α : Type) := String → Value α → Fetch α

variable {α : Type}

/-- **The fetch of a symbol.**  Whatever a session has for a symbol is asked for; a provider knows
texts only, so that the fetch of anything else fails. -/
def Provider.fetch (provider : Provider α) (symbol period : Value α) : Fetch α :=
  match symbol with
  | .text name => provider name period
  | _ => .failed

variable [Arith α]

/-- The quote of an object, or any other document as it is; nothing if it is malformed. -/
def readFetched (v : Value α) : Except Failure (Option (Quote α ⊕ Value α)) :=
  if v.isObject then
    match Quote.read v with
    | .ok q => .ok (some (.inl q))
    | .error f => if f.isMalformed then .ok none else .error f
  else .ok (some (.inr v))

/-- What is kept of a fetch; nothing if it failed. -/
def Fetch.read : Fetch α → Except Failure (Option (Quote α ⊕ Value α))
  | .failed => .ok none
  | .quote q => .ok (some (.inl q))
  | .document v => readFetched v

/-- What is kept of the fetch of a symbol, under the symbol. -/
def fetchOne (provider : Provider α) (period symbol : Value α) :
    Except Failure (Option (String × (Quote α ⊕ Value α))) := do
  match ← (provider.fetch symbol period).read with
  | none => return none
  | some entry => return (← symbol.key).map fun name => (name, entry)

/-- **The data of several symbols.** -/
def collect (provider : Provider α) (symbols : List (Value α)) (period : Value α) :
    Except Failure (Table (Quote α ⊕ Value α)) := do
  let fetched ← symbols.mapM (fetchOne provider period)
  return Table.ofList (fetched.filterMap fun entry => entry)

end PaperTrading
