import PaperTrading.Desk.Operations
import PaperTrading.Proofs.Session.Evolution

/-!
# Operations of a desk

An operation on a session looks it up, checks the user, and then changes the session under its lock,
if it is still the stored one.  What such a change does is said once here, for a session that is
still stored and for one that is not.

* `Operation`, `Desk.perform`, `Desk.run`: the operations, and what a desk is after some of them.
* `Session.Advance`: **what one operation makes of a session.**
* `Store.Sound`: what is stored is stored under its own identifier, with a ticket that has been
  given out.
* `change_of_current`, `change_of_gone`: **a change of a session that was looked up,** while the
  session is stored and when it no longer is.
* `found_ok`, `update_ok`: an operation on a session that succeeds; an update runs one cycle.
* `update_of_active`: an update of an active session never fails.
-/

namespace PaperTrading

variable {α : Type} [Arith α]

/-- **An operation of a desk.** -/
inductive Operation (α : Type) where
  | addStrategy (strategy : Strategy α)
  | create (user : Option String) (strategy : String) (options : Value α)
  | update (id : String) (feed : Feed α) (user : Option String)
  | refresh (id : String) (user : Option String) (provider : Provider α)
  | stop (id : String) (user : Option String)
  | delete (id : String) (user : Option String)

namespace Operation

/-- The session that an operation names. -/
def target? : Operation α → Option String
  | .update id .. | .refresh id .. | .stop id _ | .delete id _ => some id
  | .addStrategy _ | .create .. => none

/-- The user for whom an operation is performed. -/
def user? : Operation α → Option String
  | .create user .. | .update _ _ user | .refresh _ user _ | .stop _ user | .delete _ user => user
  | .addStrategy _ => none

end Operation

namespace Desk

/-- The desk after an operation. -/
def perform (d : Desk α) (now : Instant) : Operation α → Desk α
  | .addStrategy strategy => d.addStrategy strategy
  | .create user strategy options => (d.create now user strategy options).1
  | .update id feed user => (d.update now id feed user).1
  | .refresh id user provider => (d.refresh now id user provider).1
  | .stop id user => (d.stop now id user).1
  | .delete id user => (d.delete id user).1

/-- **The desk after some operations,** each at its moment. -/
def run (d : Desk α) (history : List (Instant × Operation α)) : Desk α :=
  history.foldl (fun d o => d.perform o.1 o.2) d

theorem run_append (d : Desk α) (history more : List (Instant × Operation α)) :
    d.run (history ++ more) = (d.run history).run more := List.foldl_append

theorem run_concat (d : Desk α) (history : List (Instant × Operation α)) (now : Instant)
    (o : Operation α) : d.run (history ++ [(now, o)]) = (d.run history).perform now o := by
  simp [run]

end Desk

/-! ### What an operation makes of a session -/

namespace Session

/-- **What one operation makes of a session:** nothing, an update cycle of an active session, or a
stop. -/
inductive Advance (s : Session α) : Session α → Prop
  | same : Advance s s
  | cycled (now : Instant) (feed : Feed α) (h : s.status = .active) : Advance s (s.cycle now feed)
  | stopped (now : Instant) : Advance s (Desk.stopped now s)

variable {s s' : Session α}

/-- **An advance is a sequence of changes.** -/
theorem Advance.evolves (h : Advance s s') : Evolves s.strategy.Trades s s' := by
  cases h with
  | same => exact Relation.ReflTransGen.refl
  | cycled now feed _ => exact cycle_evolves now feed s
  | stopped now =>
    unfold Desk.stopped
    split
    · exact Relation.ReflTransGen.single (.ended now)
    · exact Relation.ReflTransGen.refl

theorem Advance.charter (h : Advance s s') : s'.charter = s.charter := h.evolves.charter

theorem Advance.id_eq (h : Advance s s') : s'.id = s.id := congrArg (·.1) h.charter

theorem Advance.user_eq (h : Advance s s') : s'.user = s.user := congrArg (·.2.1) h.charter

/-- A new session has all its capital, which is not below or at zero, in cash and nothing else. -/
theorem create_ok {now : Instant} {id user : String} {strategy : Strategy α} {options : Options α}
    {defaults : Defaults α} (h : create now id user strategy options defaults = .ok s) :
    ¬ s.initialCapital ≤ 0.0 ∧ s.id = id ∧ s.user = user ∧ s.strategy = strategy ∧
      s.status = .active ∧ s.cash = s.initialCapital ∧ s.currentCapital = s.initialCapital ∧
      s.positions = [] ∧ s.transactions = [] ∧ s.protectiveOrders = [] ∧ s.errors = [] := by
  unfold create start at h
  split at h
  · cases h
  · next hcap =>
    cases h
    exact ⟨hcap, rfl, rfl, rfl, rfl, rfl, rfl, rfl, rfl, rfl, rfl⟩

theorem settings_of_create {now : Instant} {id user : String} {strategy : Strategy α}
    {options : Options α} {defaults : Defaults α}
    (h : create now id user strategy options defaults = .ok s) :
    s.settings = chosenSettings strategy options defaults := by
  unfold create start at h
  split at h <;> cases h
  rfl

end Session

/-! ### Stores -/

/-- **A sound store:** whatever it holds is stored under its own identifier and has a ticket that
was given out before. -/
structure Store.Sound (s : Store α) : Prop where
  keyed : ∀ {id e}, s.find? id = some e → e.session.id = id
  issued : ∀ {id e}, s.find? id = some e → e.ticket < s.next

namespace Desk

variable {d : Desk α} {now : Instant} {id : String} {e e' : Stored α} {user : Option String}

omit [Arith α] in
theorem sessions_locked (d : Desk α) (key : String) :
    (d.locked key).store.sessions = d.store.sessions := Store.sessions_lock ..

omit [Arith α] in
theorem find?_locked (d : Desk α) (key id : String) :
    (d.locked key).store.find? id = d.store.find? id := by
  unfold Store.find?; rw [sessions_locked]

omit [Arith α] in
theorem next_le_locked (d : Desk α) (key : String) : d.store.next ≤ (d.locked key).store.next := by
  unfold locked Store.lock
  split
  · exact Nat.le_refl _
  · exact Nat.le_succ _

omit [Arith α] in
theorem current_locked (d : Desk α) (key : String) (e : Stored α) :
    (d.locked key).store.current e = d.store.current e := by
  unfold Store.current; rw [find?_locked]

omit [Arith α] in
/-- A looked-up session stands for the stored one that has its identifier and its ticket. -/
theorem current_of_ticket {st : Store α} (he : st.find? id = some e') (hid : e.session.id = id)
    (ht : e'.ticket = e.ticket) : st.current e = some e'.session := by
  unfold Store.current
  rw [hid, he]
  simp [ht]

omit [Arith α] in
/-- In a sound store, a stored session is the one that its look-up stands for. -/
theorem current_of_find? {st : Store α} (hst : st.Sound) (he : st.find? id = some e) :
    st.current e = some e.session := current_of_ticket he (hst.keyed he) rfl

omit [Arith α] in
/-- A looked-up session stands for none if no stored one has its identifier and its ticket. -/
theorem current_of_gone {st : Store α} (hid : e.session.id = id)
    (h : ∀ e', st.find? id = some e' → e'.ticket ≠ e.ticket) : st.current e = none := by
  unfold Store.current
  rw [hid]
  cases he : st.find? id with
  | none => rfl
  | some e' => simp [h e' he]

/-! ### Changes -/

omit [Arith α] in
/-- **A change of a session that is still stored** is one of the session as it is now. -/
theorem change_of_current {s : Session α} (h : d.store.current e = some s)
    (f : Session α → Except Failure (Session α)) : d.change e f = match f s with
      | .ok s => ((d.locked e.session.id).replaced e.ticket s, .ok s)
      | .error failure => (d.locked e.session.id, .error failure) := by
  have hcurrent : (d.locked e.session.id).store.current e = some s :=
    (current_locked d e.session.id e).trans h
  unfold change
  cases hs : f s with
  | ok s' => simp only [hcurrent, hs]
  | error failure => simp only [hcurrent, hs]

omit [Arith α] in
/-- **A change of a session that is no longer stored** changes none. -/
theorem change_of_gone (h : d.store.current e = none)
    (f : Session α → Except Failure (Session α)) :
    d.change e f = (d.locked e.session.id, .error (.sessionNotFound e.session.id)) := by
  unfold change
  dsimp only
  rw [current_locked, h]

omit [Arith α] in
theorem withOwner_of_ok {β : Type} {s : Session α} (h : checkOwner user s = .ok ())
    (k : Desk α × Except Failure β) : d.withOwner user s k = k := by
  unfold withOwner; rw [h]

omit [Arith α] in
theorem withOwner_of_error {β : Type} {s : Session α} {f : Failure}
    (h : checkOwner user s = .error f) (k : Desk α × Except Failure β) :
    d.withOwner user s k = (d, .error f) := by
  unfold withOwner; rw [h]

omit [Arith α] in
/-- A user who passes the check of the owner owns the session. -/
theorem eq_user_of_checkOwner {u : String} {s : Session α} (h : checkOwner (some u) s = .ok ()) :
    s.user = u := by
  simp only [checkOwner] at h
  split at h
  · next hu => exact beq_iff_eq.mp hu
  · cases h

omit [Arith α] in
theorem withFound_of_find? {β : Type} (h : d.store.find? id = some e)
    (k : Stored α → Desk α × Except Failure β) : d.withFound id k = k e := by
  unfold withFound find; rw [h]

omit [Arith α] in
theorem withFound_of_none {β : Type} (h : d.store.find? id = none)
    (k : Stored α → Desk α × Except Failure β) :
    d.withFound id k = (d, .error (.sessionNotFound id)) := by
  unfold withFound find; rw [h]

/-! ### Updates -/

theorem cycleActive_ok_iff {feed : Feed α} {s s' : Session α} :
    cycleActive now feed s = .ok s' ↔ s.status = .active ∧ s.cycle now feed = s' := by
  unfold cycleActive requireActive
  cases s.status <;> simp [bind, Except.bind, pure, Except.pure]

theorem cycleActive_of_stopped {feed : Feed α} {s : Session α} (h : s.status = .stopped) :
    cycleActive now feed s = .error (.notActive s.id "stopped") := by
  unfold cycleActive requireActive
  rw [h]
  rfl

theorem cycleActive_advance {feed : Feed α} {s s' : Session α}
    (h : cycleActive now feed s = .ok s') : s.Advance s' := by
  obtain ⟨hactive, rfl⟩ := cycleActive_ok_iff.mp h
  exact .cycled now feed hactive

/-- **An update of an active session** for a user who may use it runs one cycle, and never fails. -/
theorem update_of_active (hd : d.store.Sound) (he : d.store.find? id = some e)
    (hu : checkOwner user e.session = .ok ()) (hactive : e.session.status = .active)
    (now : Instant) (feed : Feed α) : d.update now id feed user =
      ((d.locked id).replaced e.ticket (e.session.cycle now feed),
        .ok (e.session.cycle now feed)) := by
  unfold update updateFound
  rw [withFound_of_find? he, withOwner_of_ok hu, change_of_current (current_of_find? hd he),
    cycleActive_ok_iff.mpr ⟨hactive, rfl⟩, hd.keyed he]

omit [Arith α] in
/-- **An operation on a session that succeeds** was made for a user who may use the session, and
leaves the changed session in the store. -/
theorem found_ok (hd : d.store.Sound) {f : Session α → Except Failure (Session α)} {d' : Desk α}
    {s' : Session α} (h : (d.withFound id fun e => d.withOwner user e.session (d.change e f)) =
      (d', .ok s')) :
    ∃ e, d.store.find? id = some e ∧ checkOwner user e.session = .ok () ∧ f e.session = .ok s' ∧
      d' = (d.locked e.session.id).replaced e.ticket s' := by
  cases he : d.store.find? id with
  | none => rw [withFound_of_none he] at h; cases h
  | some e =>
    rw [withFound_of_find? he] at h
    cases hu : checkOwner user e.session with
    | error f => rw [withOwner_of_error hu] at h; cases h
    | ok _ =>
      rw [withOwner_of_ok hu, change_of_current (current_of_find? hd he)] at h
      cases hf : f e.session with
      | error g => rw [hf] at h; cases h
      | ok s =>
        rw [hf] at h
        cases h
        exact ⟨e, rfl, hu, hf, rfl⟩

/-- **An update that succeeds** runs one cycle of the stored session, which is active. -/
theorem update_ok (hd : d.store.Sound) {feed : Feed α} {d' : Desk α} {s' : Session α}
    (h : d.update now id feed user = (d', .ok s')) :
    ∃ e, d.store.find? id = some e ∧ e.session.status = .active ∧
      e.session.cycle now feed = s' ∧ d' = (d.locked e.session.id).replaced e.ticket s' := by
  obtain ⟨e, he, -, hcycle, hd'⟩ := found_ok hd h
  obtain ⟨hactive, hs⟩ := cycleActive_ok_iff.mp hcycle
  exact ⟨e, he, hactive, hs, hd'⟩

end Desk

end PaperTrading
