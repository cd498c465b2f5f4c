import PaperTrading.Session.Basic

/-!
# The store of sessions

Sessions are stored under their identifiers.  Every stored session has a ticket of its own, which tells
it apart from a later one under the same identifier.  Changes of one session are made under its lock;
a lock is registered when it is first asked for, and only for stored sessions.

* `Store`: the stored sessions and their locks.
* `Store.put`, `Store.delete`, `Store.replace`: storing, removing and changing a session.
* `Store.lock`: asking for the lock of an identifier.
* `Store.freeId`: the first identifier that is not in use.
-/

namespace PaperTrading

/-- A stored session with its ticket. -/
structure Stored (α : Type) where
  ticket : Nat
  session : Session α

/-- **The stored sessions,** their locks, and the next number for a ticket or a lock. -/
structure Store (α : Type) where
  sessions : Table (Stored α)
  locks : Table Nat
  next : Nat

namespace Store

variable {α : Type}

/-- The store without sessions. -/
def empty : Store α := ⟨.empty, .empty, 0⟩

/-- What is stored under an identifier. -/
def find? (s : Store α) (id : String) : Option (Stored α) := s.sessions.find? id

def contains (s : Store α) (id : String) : Bool := s.sessions.contains id

def size (s : Store α) : Nat := s.sessions.entries.length

/-- Stores a session under its identifier, with a new ticket. -/
def put (s : Store α) (x : Session α) : Store α :=
  { s with sessions := s.sessions.insert x.id ⟨s.next, x⟩, next := s.next + 1 }

/-- Removes an identifier with its lock. -/
def delete (s : Store α) (id : String) : Store α :=
  { s with sessions := s.sessions.erase id, locks := s.locks.erase id }

/-- The session that a ticket stands for, if it is still stored. -/
def current (s : Store α) (e : Stored α) : Option (Session α) :=
  ((s.find? e.session.id).filter (·.ticket == e.ticket)).map (·.session)

/-- Puts a changed session in the place of the one that a ticket stands for. -/
def replace (s : Store α) (ticket : Nat) (x : Session α) : Store α :=
  { s with sessions := s.sessions.insert x.id ⟨ticket, x⟩ }

/-- The sessions of a user, in the order of their start; sessions of one moment keep the order in
which they were stored. -/
def ofUser (s : Store α) (user : String) : List (Session α) :=
  ((s.sessions.values.map (·.session)).filter (·.user == user)).mergeSort fun a b =>
    a.startTime ≤ b.startTime

/-! ### Locks -/

/-- **The lock of an identifier.**  One that is not stored gets a lock that nobody else will get. -/
def lock (s : Store α) (id : String) : Store α × Nat :=
  match s.locks.find? id with
  | some n => (s, n)
  | none =>
    let locks := if s.contains id then s.locks.insert id s.next else s.locks
    ({ s with locks, next := s.next + 1 }, s.next)

/-! ### Identifiers -/

/-- The `n`-th identifier that is tried. -/
def candidate (base : String) (n : Nat) : String :=
  if n = 0 then base else base ++ "-" ++ toString n

/-- **The first identifier that is not in use,** from the `n`-th on.  Among one more than there are
sessions, one is free. -/
def freeId (s : Store α) (base : String) (n : Nat) : String :=
  (((List.range (s.size + 1)).map fun k => candidate base (n + k)).find? (!s.contains ·)).getD base

/-! ### Laws -/

theorem find?_put_self (s : Store α) (x : Session α) :
    (s.put x).find? x.id = some ⟨s.next, x⟩ := Table.find?_insert_self ..

theorem find?_put_of_ne (s : Store α) (x : Session α) {id : String} (h : x.id ≠ id) :
    (s.put x).find? id = s.find? id := Table.find?_insert_of_ne _ _ h

theorem find?_delete_self (s : Store α) (id : String) : (s.delete id).find? id = none :=
  Table.find?_erase_self ..

theorem find?_delete_of_ne (s : Store α) {id id' : String} (h : id ≠ id') :
    (s.delete id).find? id' = s.find? id' := Table.find?_erase_of_ne _ h

theorem sessions_lock (s : Store α) (id : String) : (s.lock id).1.sessions = s.sessions := by
  unfold lock; split <;> rfl

end Store

end PaperTrading
