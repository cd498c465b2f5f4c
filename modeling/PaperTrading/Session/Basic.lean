import PaperTrading.Signal
import PaperTrading.Strategy.Document

/-!
# Sessions

A session trades one strategy with money that does not exist.  It owns cash, positions and a log of
transactions, and keeps a record of every problem.

* `Position`, `Transaction`, `ProtectiveOrder`, `ErrorEntry`, `Metrics`: the parts of a session.
* `Session`: a session.
* `Session.start`: a new session, which has all its capital in cash.
* `Session.toValue`: the document of a session.
-/

namespace PaperTrading

/-! ### Parts -/

/-- **Shares held of one symbol.** -/
structure Position (α : Type) where
  symbol : Value α
  quantity : Int
  averageCost : α
  currentPrice : α
  openTime : Instant
  lastUpdated : Instant

/-- **An entry of the trade log.**  A sell has the profit that it realised, a buy has none. -/
structure Transaction (α : Type) where
  symbol : Value α
  quantity : Int
  price : α
  total : α
  time : Instant
  profit : Option α

/-- An order that watches over a position.  It is kept for the record; later prices do not trigger
it. -/
structure ProtectiveOrder (α : Type) where
  protection : Protection
  symbol : Value α
  referencePrice : α
  type : Value α
  value : Option α
  trailingType : Value α
  trailingValue : Option α
  time : Instant

/-- A recorded problem: a signal that was skipped, or a cycle that failed. -/
structure ErrorEntry where
  kind : String
  message : String
  time : Instant
  deriving DecidableEq, Repr

/-- How a session has done so far; only sells count as completed trades. -/
structure Metrics (α : Type) where
  totalPnL : α
  percentReturn : α
  totalTrades : Nat
  winningTrades : Nat
  losingTrades : Nat
  winRate : α

/-- What is fixed about a session when it is created. -/
structure Settings (α : Type) where
  symbols : List (Value α)
  timePeriod : Value α
  riskPerTrade : α
  autoRun : Bool

/-- Whether a session still accepts updates. -/
inductive Status where
  | active
  | stopped
  deriving DecidableEq, Repr

def Status.name : Status → String
  | active => "active"
  | stopped => "stopped"

/-- **A session.** -/
structure Session (α : Type) where
  id : String
  user : String
  strategy : Strategy α
  initialCapital : α
  settings : Settings α
  status : Status
  startTime : Instant
  endTime : Option Instant
  currentCapital : α
  cash : α
  positions : List (Position α)
  transactions : List (Transaction α)
  protectiveOrders : List (ProtectiveOrder α)
  metrics : Metrics α
  errors : List ErrorEntry
  lastUpdated : Instant

variable {α : Type}

/-- A transaction that sold. -/
def Transaction.isSell (t : Transaction α) : Bool := t.profit.isSome

/-! ### Writing -/

def Position.toValue (p : Position α) : Value α :=
  .object [("symbol", p.symbol), ("quantity", .int p.quantity), ("averageCost", .num p.averageCost),
    ("currentPrice", .num p.currentPrice), ("openTime", .text p.openTime.iso),
    ("lastUpdated", .text p.lastUpdated.iso)]

def Transaction.toValue (t : Transaction α) : Value α :=
  .object ([("time", .text t.time.iso), ("type", .text (if t.isSell then "sell" else "buy")),
    ("symbol", t.symbol), ("quantity", .int t.quantity), ("price", .num t.price),
    ("total", .num t.total)] ++ t.profit.toList.map fun x => ("profitLoss", .num x))

def ProtectiveOrder.toValue (o : ProtectiveOrder α) : Value α :=
  .object [("kind", .text o.protection.name), ("symbol", o.symbol),
    ("referencePrice", .num o.referencePrice), ("type", o.type), ("value", .ofNum? o.value),
    ("trailingType", o.trailingType), ("trailingValue", .ofNum? o.trailingValue),
    ("time", .text o.time.iso)]

def ErrorEntry.toValue (e : ErrorEntry) : Value α :=
  .object [("time", .text e.time.iso), ("kind", .text e.kind), ("message", .text e.message)]

def Metrics.toValue (m : Metrics α) : Value α :=
  .object [("totalPnL", .num m.totalPnL), ("percentReturn", .num m.percentReturn),
    ("totalTrades", .int m.totalTrades), ("winningTrades", .int m.winningTrades),
    ("losingTrades", .int m.losingTrades), ("winRate", .num m.winRate)]

def Settings.toValue (s : Settings α) : Value α :=
  .object [("symbols", .list s.symbols), ("timePeriod", s.timePeriod),
    ("riskPerTrade", .num s.riskPerTrade), ("autoRun", .bool s.autoRun)]

/-- **The document of a session.** -/
def Session.toValue (s : Session α) : Value α :=
  .object [("id", .text s.id), ("userId", .text s.user), ("strategyId", .text s.strategy.id),
    ("strategy", s.strategy.toValue), ("status", .text s.status.name),
    ("startTime", .text s.startTime.iso), ("endTime", .ofText? (s.endTime.map Instant.iso)),
    ("initialCapital", .num s.initialCapital), ("currentCapital", .num s.currentCapital),
    ("cashBalance", .num s.cash), ("positions", .list (s.positions.map Position.toValue)),
    ("transactions", .list (s.transactions.map Transaction.toValue)),
    ("protectiveOrders", .list (s.protectiveOrders.map ProtectiveOrder.toValue)),
    ("metrics", s.metrics.toValue), ("settings", s.settings.toValue),
    ("errors", .list (s.errors.map ErrorEntry.toValue)),
    ("lastUpdated", .text s.lastUpdated.iso)]

namespace Session

variable [Arith α]

/-- **A new session,** active and with all its capital in cash.  The capital has to be positive. -/
def start (now : Instant) (id user : String) (strategy : Strategy α) (capital : α)
    (settings : Settings α) : Except Failure (Session α) :=
  if capital ≤ 0.0 then .error (.notPositive "initial_capital" (Arith.written capital))
  else .ok {
    id, user, strategy, settings
    initialCapital := capital
    status := .active
    startTime := now
    endTime := none
    currentCapital := capital
    cash := capital
    positions := []
    transactions := []
    protectiveOrders := []
    metrics := ⟨0.0, 0.0, 0, 0, 0, 0.0⟩
    errors := []
    lastUpdated := now }

/-- The position in a symbol: the first one, if there are several. -/
def positionIn (s : Session α) (symbol : Value α) : Option (Position α) :=
  s.positions.find? (·.symbol.same symbol)

omit [Arith α] in
/-- The session with one more recorded problem. -/
def note (s : Session α) (now : Instant) (kind message : String) : Session α :=
  { s with errors := s.errors ++ [⟨kind, message, now⟩] }

omit [Arith α] in
/-- The session with a failure on record. -/
def record (s : Session α) (now : Instant) (f : Failure) : Session α :=
  s.note now f.kind f.message

end Session

end PaperTrading
