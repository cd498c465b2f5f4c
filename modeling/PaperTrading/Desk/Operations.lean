import PaperTrading.Desk.Store
import PaperTrading.Market.Fetch
import PaperTrading.Session.Creation
import PaperTrading.Session.Cycle

/-!
# The trading desk

The desk creates, updates, stops and deletes sessions on behalf of users.  An operation on a session
first looks it up and checks the user; then it takes the lock of the session and makes sure that the
session is still the stored one.  The two halves are separate functions, so that other operations may
come in between.

* `Desk`: the known strategies, the defaults and the stored sessions.
* `Desk.create`, `Desk.update`, `Desk.refresh`, `Desk.stop`, `Desk.delete`: the operations.
* `Desk.updateFound`, `Desk.stopFound`, `Desk.deleteFound`: what follows the look-up.
-/

namespace PaperTrading

/-- **A trading desk.** -/
structure Desk (α : Type) where
  strategies : Table (Strategy α)
  defaults : Defaults α
  store : Store α

namespace Desk

variable {α : Type} [Arith α]

omit [Arith α] in
/-- A desk with strategies, and no sessions yet. -/
def ofStrategies (strategies : List (Strategy α)) (defaults : Defaults α) : Desk α :=
  ⟨.ofList (strategies.map fun s => (s.id, s)), defaults, .empty⟩

omit [Arith α] in
/-- The desk that knows one more strategy. -/
def addStrategy (d : Desk α) (s : Strategy α) : Desk α :=
  { d with strategies := d.strategies.insert s.id s }

/-! ### Looking up -/

omit [Arith α] in
/-- What is stored under an identifier. -/
def find (d : Desk α) (id : String) : Except Failure (Stored α) :=
  match d.store.find? id with
  | some e => .ok e
  | none => .error (.sessionNotFound id)

omit [Arith α] in
/-- Refuses a user who does not own a session; without a user there is no check. -/
def checkOwner (user : Option String) (s : Session α) : Except Failure Unit :=
  match user with
  | some u => if s.user == u then .ok () else .error .foreignSession
  | none => .ok ()

omit [Arith α] in
/-- Refuses an update of a session that is not active. -/
def requireActive (s : Session α) : Except Failure Unit :=
  match s.status with
  | .active => .ok ()
  | status => .error (.notActive s.id status.name)

omit [Arith α] in
/-- The desk after the lock of a session has been taken. -/
def locked (d : Desk α) (id : String) : Desk α := { d with store := (d.store.lock id).1 }

omit [Arith α] in
/-- The desk with a session changed. -/
def replaced (d : Desk α) (ticket : Nat) (s : Session α) : Desk α :=
  { d with store := d.store.replace ticket s }

omit [Arith α] in
/-- **A change of a session that was looked up,** made under its lock if the session is still the
stored one. -/
def change (d : Desk α) (e : Stored α) (f : Session α → Except Failure (Session α)) :
    Desk α × Except Failure (Session α) :=
  let d := d.locked e.session.id
  match d.store.current e with
  | none => (d, .error (.sessionNotFound e.session.id))
  | some s => match f s with
    | .ok s => (d.replaced e.ticket s, .ok s)
    | .error failure => (d, .error failure)

omit [Arith α] in
/-- A look-up with what follows it. -/
def withFound {β : Type} (d : Desk α) (id : String)
    (k : Stored α → Desk α × Except Failure β) : Desk α × Except Failure β :=
  match d.find id with
  | .ok e => k e
  | .error f => (d, .error f)

omit [Arith α] in
/-- A check of the user with what follows it. -/
def withOwner {β : Type} (d : Desk α) (user : Option String) (s : Session α)
    (k : Desk α × Except Failure β) : Desk α × Except Failure β :=
  match checkOwner user s with
  | .ok () => k
  | .error f => (d, .error f)

/-! ### Updating -/

/-- A cycle of an active session. -/
def cycleActive (now : Instant) (feed : Feed α) (s : Session α) :
    Except Failure (Session α) := do
  requireActive s
  return s.cycle now feed

/-- An update of a session that was looked up. -/
def updateFound (now : Instant) (feed : Feed α) (user : Option String) (d : Desk α)
    (e : Stored α) : Desk α × Except Failure (Session α) :=
  d.withOwner user e.session (d.change e (cycleActive now feed))

/-- **Runs one cycle of a session.** -/
def update (now : Instant) (id : String) (feed : Feed α) (user : Option String) (d : Desk α) :
    Desk α × Except Failure (Session α) :=
  d.withFound id (d.updateFound now feed user)

/-- The outcome of a refresh, with the symbols and time periods that the provider was asked for. -/
structure Refreshed (α : Type) where
  calls : List (Value α × Value α)
  result : Except Failure (Session α)

omit [Arith α] in
/-- The symbols and the time period that a refresh of a looked-up session asks for. -/
def refreshCalls (user : Option String) (e : Stored α) :
    Except Failure (List (Value α × Value α)) := do
  checkOwner user e.session
  requireActive e.session
  return e.session.settings.symbols.map fun symbol => (symbol, e.session.settings.timePeriod)

/-- A refresh of a session that was looked up: its data are collected, then it is looked up anew and
updated. -/
def refreshFound (now : Instant) (user : Option String) (provider : Provider α) (d : Desk α)
    (e : Stored α) : Desk α × Refreshed α :=
  match refreshCalls user e with
  | .error f => (d, ⟨[], .error f⟩)
  | .ok calls =>
    match collect provider e.session.settings.symbols e.session.settings.timePeriod with
    | .error f => (d, ⟨calls, .error f⟩)
    | .ok entries =>
      let (d, result) := d.update now e.session.id (.table entries) user
      (d, ⟨calls, result⟩)

/-- **Fetches the data of a session and runs one cycle.** -/
def refresh (now : Instant) (id : String) (user : Option String) (provider : Provider α)
    (d : Desk α) : Desk α × Refreshed α :=
  match d.find id with
  | .ok e => d.refreshFound now user provider e
  | .error f => (d, ⟨[], .error f⟩)

/-! ### Stopping and deleting -/

omit [Arith α] in
/-- A session that is stopped; a second stop changes nothing. -/
def stopped (now : Instant) (s : Session α) : Session α :=
  match s.status with
  | .active => { s with status := .stopped, endTime := some now, lastUpdated := now }
  | .stopped => s

omit [Arith α] in
/-- A stop of a session that was looked up. -/
def stopFound (now : Instant) (user : Option String) (d : Desk α) (e : Stored α) :
    Desk α × Except Failure (Session α) :=
  d.withOwner user e.session (d.change e fun s => .ok (stopped now s))

omit [Arith α] in
/-- **Stops a session for good.** -/
def stop (now : Instant) (id : String) (user : Option String) (d : Desk α) :
    Desk α × Except Failure (Session α) :=
  d.withFound id (d.stopFound now user)

omit [Arith α] in
/-- A removal of a session that was looked up.  Only its owner may remove it. -/
def deleteFound (user : Option String) (d : Desk α) (e : Stored α) :
    Desk α × Except Failure Bool :=
  if user = some e.session.user then
    let d := d.locked e.session.id
    match d.store.current e with
    | none => (d, .ok false)
    | some _ => ({ d with store := d.store.delete e.session.id }, .ok true)
  else (d, .error .foreignSession)

omit [Arith α] in
/-- **Removes a session;** false if there is none. -/
def delete (id : String) (user : Option String) (d : Desk α) : Desk α × Except Failure Bool :=
  match d.store.find? id with
  | some e => d.deleteFound user e
  | none => (d, .ok false)

/-! ### Asking -/

omit [Arith α] in
/-- A session, for its owner. -/
def get (id : String) (user : Option String) (d : Desk α) : Except Failure (Session α) := do
  let e ← d.find id
  checkOwner user e.session
  return e.session

omit [Arith α] in
/-- The sessions of a user. -/
def list (user : Option String) (d : Desk α) : List (Session α) :=
  user.elim [] d.store.ofUser

/-! ### Creating -/

/-- What a user asks for, after everything about it has been checked. -/
structure Vetted (α : Type) where
  user : String
  strategy : Strategy α
  options : Options α

/-- **Checks a request for a new session:** its options, its strategy, the owner and the blocks. -/
def vet (user : Option String) (strategy : String) (options : Value α) (d : Desk α) :
    Except Failure (Vetted α) := do
  let options ← Options.read options
  match d.strategies.find? strategy with
  | none => throw (.strategyNotFound strategy)
  | some s => match user with
    | none => throw .foreignStrategy
    | some u =>
      if s.owner ≠ u then throw .foreignStrategy
      s.validate
      return ⟨u, s, options⟩

/-- Stores a new session under an identifier.  The symbols are joined for a notice only after the
session has been stored, so a symbol that is no text is reported for a session that exists. -/
def openUnder (now : Instant) (id : String) (a : Vetted α) (d : Desk α) :
    Desk α × Except Failure (Session α) :=
  match Session.create now id a.user a.strategy a.options d.defaults with
  | .error f => (d, .error f)
  | .ok s => ({ d with store := d.store.put s }, do
    let _ ← Value.joinTexts s.settings.symbols
    return s)

/-- The identifier that a vetted request asks for. -/
def Vetted.baseId (now : Instant) (strategy : String) (a : Vetted α) : String :=
  Session.baseId α now a.user strategy

/-- **Creates a session** of a strategy for its owner. -/
def create (now : Instant) (user : Option String) (strategy : String) (options : Value α)
    (d : Desk α) : Desk α × Except Failure (Session α) :=
  match d.vet user strategy options with
  | .error f => (d, .error f)
  | .ok a => d.openUnder now (d.store.freeId (a.baseId now strategy) 0) a

end Desk

end PaperTrading
