import Mathlib.Data.List.Infix
import PaperTrading.Proofs.Desk.History

/-!
# The registry of locks

Changes of a session are made under its lock.  A lock is registered when it is first asked for and
forgotten when its session is removed, by two different methods of the store, and whoever looked a
session up may ask for its lock when the session is long gone or replaced.  In whatever order all
this happens, only stored sessions have registered locks, each keeps its lock while it stays stored,
and no two ever share one.

* `Activity`, `Desk.act`, `Desk.after`: what may happen at a desk: single accesses to its store, whole
  operations, and second halves of operations that looked a session up before.
* `Store.Access`, `Store.Visit`, `visit_act`: **what an activity does to the store:** it asks for at
  most one lock, and then stores or removes at most one session.
* `Store.Registered`, `Visit.registered`: **a registry of stored sessions only.**
* `Visit.keeps_lock`, `Visit.keeps_holder`: a session that stays stored keeps its lock, and nobody
  else ever gets it.
* `locks_registered`: **the registry after any activities.**
-/

namespace PaperTrading

variable {α : Type}

/-! ### What happens to a store -/

namespace Store

variable {s s' : Store α} {id key : String} {e : Stored α} {n : Nat}

/-- **An access to a store:** nothing is changed, a session is stored, or one is removed. -/
inductive Access (s : Store α) : Store α → Prop
  | kept : Access s s
  | stored (id : String) (e : Stored α) {next : Nat} (h : s.next ≤ next) :
      Access s { s with sessions := s.sessions.insert id e, next }
  | removed (id : String) : Access s (s.delete id)

/-- **A visit to a store:** one access, perhaps under a lock that was asked for just before. -/
inductive Visit (s : Store α) : Store α → Prop
  | plain {s' : Store α} (h : Access s s') : Visit s s'
  | underLock (id : String) {s' : Store α} (h : Access (s.lock id).1 s') : Visit s s'

theorem Visit.refl (s : Store α) : Visit s s := .plain .kept

theorem access_put (s : Store α) (x : Session α) : Access s (s.put x) :=
  .stored x.id ⟨s.next, x⟩ (Nat.le_succ _)

theorem access_replace (s : Store α) (ticket : Nat) (x : Session α) :
    Access s (s.replace ticket x) := .stored x.id ⟨ticket, x⟩ (Nat.le_refl _)

/-! ### Asking for a lock -/

/-- A lock that is registered is handed out again. -/
theorem lock_of_registered (h : s.locks.find? id = some n) : s.lock id = (s, n) := by
  unfold lock; rw [h]

/-- **An identifier that is not stored** gets a new lock, which is not registered. -/
theorem lock_of_none (hlock : s.locks.find? id = none) (h : s.find? id = none) :
    s.lock id = ({ s with next := s.next + 1 }, s.next) := by
  have hcontains : s.contains id = false := by
    unfold find? at h
    unfold contains Table.contains
    rw [h]
    rfl
  unfold lock
  rw [hlock]
  dsimp only
  rw [hcontains]
  rfl

/-- **A stored session without a lock** gets a new one, which is registered. -/
theorem lock_of_stored (hlock : s.locks.find? id = none) (h : s.find? id = some e) :
    s.lock id = ({ s with locks := s.locks.insert id s.next, next := s.next + 1 }, s.next) := by
  have hcontains : s.contains id = true := Option.isSome_iff_exists.mpr ⟨e, h⟩
  unfold lock
  rw [hlock]
  dsimp only
  rw [hcontains]
  rfl

/-! ### Sound registries -/

/-- **A sound registry:** every identifier with a lock is that of a stored session, every lock has a
number that was given out before, and no two identifiers have the same one. -/
structure Registered (s : Store α) : Prop where
  stored : ∀ {id n}, s.locks.find? id = some n → ∃ e, s.find? id = some e
  issued : ∀ {id n}, s.locks.find? id = some n → n < s.next
  distinct : ∀ {id id' n}, s.locks.find? id = some n → s.locks.find? id' = some n → id = id'

theorem Registered.none_of_not_stored (hs : s.Registered) (h : s.find? id = none) :
    s.locks.find? id = none := by
  cases hlock : s.locks.find? id with
  | none => rfl
  | some n =>
    obtain ⟨e, he⟩ := hs.stored hlock
    rw [h] at he
    cases he

/-- More numbers given out leave a registry sound. -/
theorem Registered.more (hs : s.Registered) {next : Nat} (h : s.next ≤ next) :
    Registered { s with next } where
  stored := hs.stored
  issued hlock := Nat.lt_of_lt_of_le (hs.issued hlock) h
  distinct := hs.distinct

/-- A new lock for a stored session leaves a registry sound. -/
theorem Registered.register (hs : s.Registered) (h : s.find? id = some e) :
    Registered { s with locks := s.locks.insert id s.next, next := s.next + 1 } where
  stored {key n} hlock := by
    rw [Table.find?_insert] at hlock
    split at hlock
    · next hk => exact ⟨e, hk ▸ h⟩
    · exact hs.stored hlock
  issued {key n} hlock := by
    rw [Table.find?_insert] at hlock
    split at hlock
    · cases hlock; exact Nat.lt_succ_self _
    · exact Nat.lt_succ_of_lt (hs.issued hlock)
  distinct {key key' n} hlock hlock' := by
    rw [Table.find?_insert] at hlock hlock'
    split at hlock <;> split at hlock'
    · next hk hk' => exact hk.symm.trans hk'
    · cases hlock; exact absurd (hs.issued hlock') (Nat.lt_irrefl _)
    · cases hlock'; exact absurd (hs.issued hlock) (Nat.lt_irrefl _)
    · exact hs.distinct hlock hlock'

/-- **Whoever asks for a lock,** the registry stays sound. -/
theorem Registered.lock (hs : s.Registered) (id : String) : (s.lock id).1.Registered := by
  cases hlock : s.locks.find? id with
  | some n => rw [lock_of_registered hlock]; exact hs
  | none =>
    cases h : s.find? id with
    | none => rw [lock_of_none hlock h]; exact hs.more (Nat.le_succ _)
    | some e => rw [lock_of_stored hlock h]; exact hs.register h

/-- **Whatever is stored or removed,** the registry stays sound: a removal takes the lock along. -/
theorem Access.registered (h : Access s s') (hs : s.Registered) : s'.Registered := by
  cases h with
  | kept => exact hs
  | stored id e hnext =>
    refine ⟨fun {key n} hlock => ?_, fun hlock => Nat.lt_of_lt_of_le (hs.issued hlock) hnext,
      hs.distinct⟩
    unfold find?
    rw [Table.find?_insert]
    split
    · exact ⟨e, rfl⟩
    · exact hs.stored hlock
  | removed id =>
    have hkept : ∀ {key n}, (s.delete id).locks.find? key = some n →
        key ≠ id ∧ s.locks.find? key = some n := by
      intro key n hlock
      by_cases hk : id = key
      · subst hk
        exact nomatch (Table.find?_erase_self s.locks id).symm.trans hlock
      · exact ⟨Ne.symm hk, (Table.find?_erase_of_ne s.locks hk).symm.trans hlock⟩
    refine ⟨fun hlock => ?_, fun hlock => hs.issued (hkept hlock).2,
      fun hlock hlock' => hs.distinct (hkept hlock).2 (hkept hlock').2⟩
    obtain ⟨hk, hlock⟩ := hkept hlock
    obtain ⟨e, he⟩ := hs.stored hlock
    exact ⟨e, (find?_delete_of_ne s hk.symm).trans he⟩

theorem Visit.registered (h : Visit s s') (hs : s.Registered) : s'.Registered := by
  cases h with
  | plain h => exact h.registered hs
  | underLock id h => exact h.registered (hs.lock id)

/-! ### Keeping a lock -/

/-- A stored session whose lock has been asked for has that lock. -/
theorem find?_locks_lock_self (h : s.find? id = some e) :
    (s.lock id).1.locks.find? id = some (s.lock id).2 := by
  cases hlock : s.locks.find? id with
  | some n => rw [lock_of_registered hlock]; exact hlock
  | none => rw [lock_of_stored hlock h]; exact Table.find?_insert_self ..

theorem find?_locks_lock (h : s.locks.find? id = some n) (key : String) :
    (s.lock key).1.locks.find? id = some n := by
  by_cases hk : key = id
  · rw [hk, lock_of_registered h]
    exact h
  · unfold lock
    split
    · exact h
    · dsimp only
      split
      · exact (Table.find?_insert_of_ne _ _ hk).trans h
      · exact h

theorem Access.keeps_lock (h : Access s s') (hlock : s.locks.find? id = some n)
    (he : s'.find? id = some e) : s'.locks.find? id = some n := by
  cases h with
  | kept | stored => exact hlock
  | removed key =>
    have hk : key ≠ id := by
      rintro rfl
      exact nomatch (find?_delete_self s key).symm.trans he
    exact (Table.find?_erase_of_ne _ hk).trans hlock

/-- **A session that stays stored keeps its lock.** -/
theorem Visit.keeps_lock (h : Visit s s') (hlock : s.locks.find? id = some n)
    (he : s'.find? id = some e) : s'.locks.find? id = some n := by
  cases h with
  | plain h => exact h.keeps_lock hlock he
  | underLock key h => exact h.keeps_lock (find?_locks_lock hlock key) he

/-- **The holder of a lock:** the lock was given out, and is registered for nobody else. -/
def Holder (s : Store α) (id : String) (n : Nat) : Prop :=
  n < s.next ∧ ∀ key, s.locks.find? key = some n → key = id

/-- Whoever gets a lock is its holder. -/
theorem Registered.holder_lock (hs : s.Registered) (id : String) :
    Holder (s.lock id).1 id (s.lock id).2 := by
  have hfresh : ∀ key, s.locks.find? key ≠ some s.next := fun key hlock =>
    absurd (hs.issued hlock) (Nat.lt_irrefl _)
  cases hlock : s.locks.find? id with
  | some n =>
    rw [lock_of_registered hlock]
    exact ⟨hs.issued hlock, fun key hkey => hs.distinct hkey hlock⟩
  | none =>
    cases h : s.find? id with
    | none =>
      rw [lock_of_none hlock h]
      exact ⟨Nat.lt_succ_self _, fun key hkey => absurd hkey (hfresh key)⟩
    | some e =>
      rw [lock_of_stored hlock h]
      refine ⟨Nat.lt_succ_self _, fun key hkey => ?_⟩
      rw [Table.find?_insert] at hkey
      split at hkey
      · next hk => exact hk.symm
      · exact absurd hkey (hfresh key)

/-- No lock that is asked for later is one that somebody else holds. -/
theorem Holder.ne_lock (h : Holder s id n) (hk : key ≠ id) : (s.lock key).2 ≠ n := by
  cases hlock : s.locks.find? key with
  | some m =>
    rw [lock_of_registered hlock]
    rintro rfl
    exact hk (h.2 key hlock)
  | none =>
    have hnew : (s.lock key).2 = s.next := by
      unfold lock
      rw [hlock]
    rw [hnew]
    exact (Nat.ne_of_lt h.1).symm

theorem Holder.lock (h : Holder s id n) (key : String) : Holder (s.lock key).1 id n := by
  unfold Store.lock
  split
  · exact h
  · refine ⟨Nat.lt_succ_of_lt h.1, fun other hother => ?_⟩
    dsimp only at hother
    split at hother
    · rw [Table.find?_insert] at hother
      split at hother
      · cases hother; exact absurd h.1 (Nat.lt_irrefl _)
      · exact h.2 other hother
    · exact h.2 other hother

theorem Access.keeps_holder (h : Access s s') (hn : Holder s id n) : Holder s' id n := by
  cases h with
  | kept => exact hn
  | stored _ _ hnext => exact ⟨Nat.lt_of_lt_of_le hn.1 hnext, hn.2⟩
  | removed key =>
    refine ⟨hn.1, fun other hother => hn.2 other ?_⟩
    by_cases hk : key = other
    · subst hk
      exact nomatch (Table.find?_erase_self s.locks key).symm.trans hother
    · exact (Table.find?_erase_of_ne s.locks hk).symm.trans hother

/-- **A lock has one holder for ever,** whether or not its session stays stored. -/
theorem Visit.keeps_holder (h : Visit s s') (hn : Holder s id n) : Holder s' id n := by
  cases h with
  | plain h => exact h.keeps_holder hn
  | underLock key h => exact h.keeps_holder (hn.lock key)

end Store

/-! ### What happens at a desk -/

/-- **What may happen at a desk:** one access to the store, as it also stands between the look-up and
the end of an operation; a whole operation; or the second half of one, with what was looked up or
vetted before.  An operation that waits for its lock is a request for it and, once the lock is
granted, its second half. -/
inductive Activity (α : Type) where
  | put (s : Session α)
  | get (id : String)
  | remove (id : String)
  | lock (id : String)
  | putBack (ticket : Nat) (s : Session α)
  | whole (o : Operation α)
  | create (id : String) (a : Desk.Vetted α)
  | update (e : Stored α) (feed : Feed α) (user : Option String)
  | refresh (e : Stored α) (user : Option String) (provider : Provider α)
  | stop (e : Stored α) (user : Option String)
  | delete (e : Stored α) (user : Option String)

namespace Desk

variable [Arith α] {d : Desk α} {id : String} {n : Nat}

/-- The desk after an activity. -/
def act (d : Desk α) (now : Instant) : Activity α → Desk α
  | .put s => { d with store := d.store.put s }
  | .get _ => d
  | .remove id => { d with store := d.store.delete id }
  | .lock id => d.locked id
  | .putBack ticket s => d.replaced ticket s
  | .whole o => d.perform now o
  | .create id a => (d.openUnder now id a).1
  | .update e feed user => (d.updateFound now feed user e).1
  | .refresh e user provider => (d.refreshFound now user provider e).1
  | .stop e user => (d.stopFound now user e).1
  | .delete e user => (d.deleteFound user e).1

/-- **The desk after some activities,** each at its moment. -/
def after (d : Desk α) (activities : List (Instant × Activity α)) : Desk α :=
  activities.foldl (fun d a => d.act a.1 a.2) d

theorem after_concat (d : Desk α) (activities : List (Instant × Activity α))
    (a : Instant × Activity α) : d.after (activities ++ [a]) = (d.after activities).act a.1 a.2 := by
  simp [after]

/-! ### Every activity is a visit -/

omit [Arith α] in
theorem visit_change (d : Desk α) (e : Stored α) (f : Session α → Except Failure (Session α)) :
    Store.Visit d.store (d.change e f).1.store := by
  unfold change
  dsimp only
  split
  · exact .underLock e.session.id .kept
  · split
    · exact .underLock e.session.id (Store.access_replace _ _ _)
    · exact .underLock e.session.id .kept

omit [Arith α] in
theorem visit_withOwner {β : Type} (user : Option String) (s : Session α)
    {k : Desk α × Except Failure β} (h : Store.Visit d.store k.1.store) :
    Store.Visit d.store (d.withOwner user s k).1.store := by
  unfold withOwner
  split
  · exact h
  · exact .refl d.store

omit [Arith α] in
theorem visit_withFound {β : Type} (id : String) {k : Stored α → Desk α × Except Failure β}
    (h : ∀ e, Store.Visit d.store (k e).1.store) :
    Store.Visit d.store (d.withFound id k).1.store := by
  unfold withFound
  split
  · exact h _
  · exact .refl d.store

theorem visit_updateFound (d : Desk α) (now : Instant) (feed : Feed α) (user : Option String)
    (e : Stored α) : Store.Visit d.store (d.updateFound now feed user e).1.store :=
  visit_withOwner user e.session (visit_change d e _)

omit [Arith α] in
theorem visit_stopFound (d : Desk α) (now : Instant) (user : Option String) (e : Stored α) :
    Store.Visit d.store (d.stopFound now user e).1.store :=
  visit_withOwner user e.session (visit_change d e _)

omit [Arith α] in
theorem visit_deleteFound (d : Desk α) (user : Option String) (e : Stored α) :
    Store.Visit d.store (d.deleteFound user e).1.store := by
  unfold deleteFound
  split
  · dsimp only
    split
    · exact .underLock e.session.id .kept
    · exact .underLock e.session.id (.removed e.session.id)
  · exact .refl d.store

theorem visit_refreshFound (d : Desk α) (now : Instant) (user : Option String)
    (provider : Provider α) (e : Stored α) :
    Store.Visit d.store (d.refreshFound now user provider e).1.store := by
  unfold refreshFound
  split
  · exact .refl d.store
  · split
    · exact .refl d.store
    · exact visit_withFound _ (visit_updateFound d now _ user)

theorem visit_openUnder (d : Desk α) (now : Instant) (id : String) (a : Vetted α) :
    Store.Visit d.store (d.openUnder now id a).1.store := by
  unfold openUnder
  split
  · exact .refl d.store
  · exact .plain (Store.access_put _ _)

theorem visit_perform (d : Desk α) (now : Instant) (o : Operation α) :
    Store.Visit d.store (d.perform now o).store := by
  cases o with
  | addStrategy strategy => exact .refl d.store
  | create user strategy options =>
    show Store.Visit _ (d.create now user strategy options).1.store
    unfold create
    split
    · exact .refl d.store
    · exact visit_openUnder d now _ _
  | update id feed user => exact visit_withFound id (visit_updateFound d now feed user)
  | refresh id user provider =>
    show Store.Visit _ (d.refresh now id user provider).1.store
    unfold refresh
    split
    · exact visit_refreshFound d now user provider _
    · exact .refl d.store
  | stop id user => exact visit_withFound id (visit_stopFound d now user)
  | delete id user =>
    show Store.Visit _ (d.delete id user).1.store
    unfold delete
    split
    · exact visit_deleteFound d user _
    · exact .refl d.store

/-- **Every activity is a visit:** it asks for at most one lock, and then stores or removes at most
one session. -/
theorem visit_act (d : Desk α) (now : Instant) (a : Activity α) :
    Store.Visit d.store (d.act now a).store := by
  cases a with
  | put s => exact .plain (Store.access_put _ s)
  | get id => exact .refl d.store
  | remove id => exact .plain (.removed id)
  | lock id => exact .underLock id .kept
  | putBack ticket s => exact .plain (Store.access_replace _ ticket s)
  | whole o => exact visit_perform d now o
  | create id a => exact visit_openUnder d now id a
  | update e feed user => exact visit_updateFound d now feed user e
  | refresh e user provider => exact visit_refreshFound d now user provider e
  | stop e user => exact visit_stopFound d now user e
  | delete e user => exact visit_deleteFound d user e

/-- What every visit keeps, any activities keep. -/
theorem after_invariant {P : Store α → Prop} (hstep : ∀ s s', Store.Visit s s' → P s → P s')
    (h : P d.store) (activities : List (Instant × Activity α)) : P (d.after activities).store := by
  induction activities using List.reverseRecOn with
  | nil => exact h
  | append_singleton activities a ih =>
    rw [after_concat]
    exact hstep _ _ (visit_act _ a.1 a.2) ih

/-! ### The registry after any activities -/

/-- **A session stays stored** during some activities. -/
def StaysStored (d : Desk α) (id : String) (activities : List (Instant × Activity α)) : Prop :=
  ∀ part, part <+: activities → ∃ e, (d.after part).store.find? id = some e

/-- A session that stays stored keeps its lock during any activities. -/
theorem keeps_lock_after {activities : List (Instant × Activity α)}
    (hlock : d.store.locks.find? id = some n) (hstays : d.StaysStored id activities) :
    (d.after activities).store.locks.find? id = some n := by
  induction activities using List.reverseRecOn with
  | nil => exact hlock
  | append_singleton activities a ih =>
    obtain ⟨e, he⟩ := hstays _ (List.prefix_refl _)
    rw [after_concat] at he ⊢
    have hbefore := ih fun part hpart => hstays part (hpart.trans (List.prefix_append _ _))
    exact (visit_act _ a.1 a.2).keeps_lock hbefore he

omit [Arith α] in
theorem ofStrategies_registered (strategies : List (Strategy α)) (defaults : Defaults α) :
    (ofStrategies strategies defaults).store.Registered where
  stored hlock := nomatch hlock
  issued hlock := nomatch hlock
  distinct hlock := nomatch hlock

theorem registered_after (strategies : List (Strategy α)) (defaults : Defaults α)
    (activities : List (Instant × Activity α)) :
    ((ofStrategies strategies defaults).after activities).store.Registered :=
  after_invariant (fun _ _ h => h.registered) (ofStrategies_registered strategies defaults)
    activities

/-- **The registry of locks.**  A desk starts without sessions; then sessions are put, looked up and
removed, locks are asked for, and operations are performed, in any order, also operations whose
session has been removed or replaced since they looked it up.  Whatever has happened, every
identifier with a registered lock is that of a stored session, and asking for the lock of an
identifier that is not stored registers nothing.  Whatever happens after a lock was handed out: as
long as its session stays stored, whoever asks for its lock gets the same one, and nobody ever gets
it who asks for the lock of another session. -/
theorem locks_registered (strategies : List (Strategy α)) (defaults : Defaults α)
    (past : List (Instant × Activity α)) :
    let d := (ofStrategies strategies defaults).after past
    (∀ id n, d.store.locks.find? id = some n → ∃ e, d.store.find? id = some e) ∧
    (∀ id, d.store.find? id = none → (d.locked id).store.locks = d.store.locks) ∧
    ∀ id later, let d' := (d.locked id).after later
      ((d.locked id).StaysStored id later → (d'.store.lock id).2 = (d.store.lock id).2) ∧
      ∀ id', id' ≠ id → (d'.store.lock id').2 ≠ (d.store.lock id).2 := by
  intro d
  have hd : d.store.Registered := registered_after strategies defaults past
  refine ⟨fun id n => hd.stored, fun id hnone => ?_, fun id later => ⟨fun hstays => ?_, ?_⟩⟩
  · unfold locked
    rw [Store.lock_of_none (hd.none_of_not_stored hnone) hnone]
  · obtain ⟨e, he⟩ := hstays [] (List.nil_prefix)
    have hlock := Store.find?_locks_lock_self ((find?_locked d id id).symm.trans he)
    have hafter := keeps_lock_after hlock hstays
    rw [Store.lock_of_registered hafter]
  · have hholder := after_invariant (d := d.locked id) (fun s s' h => h.keeps_holder)
      (hd.holder_lock id) later
    exact fun id' hne => hholder.ne_lock hne

/-- The second of two sessions is removed, a latecomer asks for its lock, and another session takes its
identifier, while the first one is updated and stopped. -/
def rivalry : List (Instant × Activity α) :=
  [(⟨1⟩, .whole (.update "ada-steady-0" (quoting "SPY" 10) none)), (⟨2⟩, .remove "ada-steady-0-1"),
    (⟨2⟩, .lock "ada-steady-0-1"), (⟨0⟩, .whole (.create (some "ada") "steady" .null)),
    (⟨4⟩, .whole (.stop "ada-steady-0" (some "ada")))]

/-- The first session keeps its lock all the while, and the other one does not get it. -/
theorem locks_registered_of_rivalry :
    let d : Desk Float := (ofStrategies [steady buyAndTrim] .standard).after
      [(⟨0⟩, .whole (.create (some "ada") "steady" .null)),
        (⟨0⟩, .whole (.create (some "ada") "steady" .null))]
    let d' := (d.locked "ada-steady-0").after rivalry
    (d.locked "ada-steady-0").StaysStored "ada-steady-0" rivalry ∧
      (d'.store.lock "ada-steady-0").2 = (d.store.lock "ada-steady-0").2 ∧
      (d'.store.lock "ada-steady-0-1").2 ≠ (d.store.lock "ada-steady-0").2 := by
  intro d d'
  have hstored : ∀ part ∈ rivalry.inits, (((d.locked "ada-steady-0").after part).store.find?
      "ada-steady-0").isSome = true := by decide +kernel
  have hstays : (d.locked "ada-steady-0").StaysStored "ada-steady-0" rivalry := fun part hpart =>
    Option.isSome_iff_exists.mp (hstored part ((List.mem_inits part _).mpr hpart))
  obtain ⟨-, -, hlocks⟩ := locks_registered (α := Float) [steady buyAndTrim] .standard
    [(⟨0⟩, .whole (.create (some "ada") "steady" .null)),
      (⟨0⟩, .whole (.create (some "ada") "steady" .null))]
  obtain ⟨hsame, hother⟩ := hlocks "ada-steady-0" rivalry
  exact ⟨hstays, hsame hstays, hother _ (by decide)⟩

end Desk

end PaperTrading
