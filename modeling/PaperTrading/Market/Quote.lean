import PaperTrading.Value.Reading

/-!
# Market data

What is known of a symbol at a moment: its live price and the candles that led to it, oldest first.
Market data arrive as documents and are read before a strategy sees them.

* `Candle`, `PriceField`: a candle, and its five numbers by name.
* `Quote`: the price, the time and the history of one symbol.
* `Market`: the quotes of several symbols.
* `Candle.read`, `Quote.read`, `Market.read`: the readers, with the failure that stops them.
-/

namespace PaperTrading

/-- The numbers of a candle. -/
inductive PriceField where
  | opening
  | high
  | low
  | close
  | volume
  deriving DecidableEq, Repr

namespace PriceField

def all : List PriceField := [opening, high, low, close, volume]

def name : PriceField → String
  | opening => "open"
  | high => "high"
  | low => "low"
  | close => "close"
  | volume => "volume"

/-- The field of a given name. -/
def ofName? (s : String) : Option PriceField := all.find? (·.name == s)

theorem ofName?_name (f : PriceField) : ofName? f.name = some f := by
  cases f <;> decide

end PriceField

/-- **A candle:** the prices of one bar and the volume traded in it. -/
structure Candle (α : Type) where
  time : String
  opening : α
  high : α
  low : α
  close : α
  volume : α
  deriving Repr

/-- **A quote:** the latest price of a symbol, with the candles up to it, oldest first. -/
structure Quote (α : Type) where
  price : Option α
  timestamp : Option String
  history : List (Candle α)
  deriving Repr

/-- **The quotes of several symbols.** -/
abbrev Market (α : Type) := Table (Quote α)

/-- The market data of an update, before they are read: a table whose entries are quotes already or
still documents, or something that is no table of documents. -/
inductive Feed (α : Type) where
  | table (entries : Table (Quote α ⊕ Value α))
  | document (v : Value α)

variable {α : Type}

/-- One number of a candle. -/
def Candle.value (c : Candle α) : PriceField → α
  | .opening => c.opening
  | .high => c.high
  | .low => c.low
  | .close => c.close
  | .volume => c.volume

variable [Arith α]

/-! ### Reading -/

/-- A candle from its document; only the time and the volume may be missing. -/
def Candle.read (v : Value α) : Except Failure (Candle α) := do
  let fields ← v.fieldsFor "get"
  let number (f : PriceField) : Except Failure α := do (← Value.getRequired fields f.name).toNumber
  return {
    time := ((fields.find? "time").getD (.text "")).display
    opening := ← number .opening
    high := ← number .high
    low := ← number .low
    close := ← number .close
    volume := ← ((Value.get fields "volume").orElse (.num 0.0)).toNumber }

/-- The candles of a document that lists them. -/
def Candle.readAll (v : Value α) : Except Failure (List (Candle α)) := do
  (← v.items).mapM Candle.read

/-- **A quote from its document;** everything in it may be missing. -/
def Quote.read (v : Value α) : Except Failure (Quote α) := do
  let fields ← v.fieldsFor "get"
  let timestamp := Value.get fields "timestamp"
  return {
    price := ← (Value.get fields "price").toNumber?
    timestamp := if timestamp.isNull then none else some timestamp.display
    history := ← Candle.readAll ((Value.get fields "history").orElse (.list [])) }

/-- **The market that a feed describes.** -/
def Market.read : Feed α → Except Failure (Market α)
  | .table entries => entries.mapM fun
    | .inl q => .ok q
    | .inr v => Quote.read v
  | .document v => do (← v.fieldsFor "items").mapM Quote.read

/-! ### Writing -/

/-- The document of a candle. -/
def Candle.toValue (c : Candle α) : Value α :=
  .object (("time", .text c.time) :: PriceField.all.map fun f => (f.name, .num (c.value f)))

/-- The document of a quote. -/
def Quote.toValue (q : Quote α) : Value α :=
  .object [("price", .ofNum? q.price), ("timestamp", .ofText? q.timestamp),
    ("history", .list (q.history.map Candle.toValue))]

/-! ### Prices -/

/-- The live price of a quote, if there is one; zero counts as none. -/
def Quote.livePrice (q : Quote α) : Option α := q.price.filter Arith.isNonzero

/-- The live price of a symbol, if there is one. -/
def Market.livePrice (m : Market α) (symbol : Value α) : Except Failure (Option α) := do
  return (← symbol.lookUp m).bind Quote.livePrice

end PaperTrading
