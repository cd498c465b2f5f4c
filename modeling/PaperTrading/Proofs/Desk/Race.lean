import PaperTrading.Proofs.Desk.History

/-!
# Races for a session

An operation on a session first looks it up and checks the user, and takes the lock of the session
afterwards.  In between, other operations may stop the session, remove it, or put another one under
its identifier.  The ticket of a session tells which of these has happened: no later session ever
has it, and the session that has it still belongs to the same user.

* `change_congr`, `withOwner_congr`: the second half of an operation depends on the look-up only
  through identifier, ticket and user.
* `updateFound_of_stopped`, `updateFound_of_gone` and the like: what becomes of an operation if the
  session was stopped or removed meanwhile.
* `races_linearised`: **the second half of an operation is the whole operation, or does nothing.**
-/

namespace PaperTrading.Desk

variable {α : Type} [Arith α] {d d' : Desk α} {now : Instant} {id : String} {e e' : Stored α}
  {user : Option String}

/-! ### Second halves -/

omit [Arith α] in
theorem checkOwner_congr {s s' : Session α} (h : s'.user = s.user) (user : Option String) :
    checkOwner user s' = checkOwner user s := by
  unfold checkOwner; rw [h]

omit [Arith α] in
/-- A change depends on the look-up only through the identifier and the ticket. -/
theorem change_congr (hid : e.session.id = id) (hid' : e'.session.id = id)
    (he' : d.store.find? id = some e') (ht : e'.ticket = e.ticket)
    (f : Session α → Except Failure (Session α)) : d.change e f = d.change e' f := by
  rw [change_of_current (current_of_ticket he' hid ht), change_of_current
    (current_of_ticket he' hid' rfl), hid, hid', ht]

omit [Arith α] in
/-- A check of the owner with a change behind it depends on the look-up only through identifier,
ticket and user. -/
theorem withOwner_congr (hid : e.session.id = id) (hid' : e'.session.id = id)
    (he' : d.store.find? id = some e') (ht : e'.ticket = e.ticket)
    (huser : e'.session.user = e.session.user) (user : Option String)
    (f : Session α → Except Failure (Session α)) :
    d.withOwner user e.session (d.change e f) = d.withOwner user e'.session (d.change e' f) := by
  unfold withOwner
  rw [checkOwner_congr huser, change_congr hid hid' he' ht]

omit [Arith α] in
theorem deleteFound_congr (hid : e.session.id = id) (hid' : e'.session.id = id)
    (he' : d.store.find? id = some e') (ht : e'.ticket = e.ticket)
    (huser : e'.session.user = e.session.user) (user : Option String) :
    d.deleteFound user e = d.deleteFound user e' := by
  unfold deleteFound
  dsimp only
  rw [current_locked, current_locked, current_of_ticket he' hid ht,
    current_of_ticket he' hid' rfl, hid, hid', huser]

omit [Arith α] in
/-- A session that is changed into itself stays as it was. -/
theorem replaced_self (he : d.store.find? id = some e) (hid : e.session.id = id) :
    (d.locked id).replaced e.ticket e.session = d.locked id := by
  have hfind : (d.locked id).store.sessions.find? e.session.id = some ⟨e.ticket, e.session⟩ := by
    rw [sessions_locked, hid]; exact he
  unfold replaced Store.replace
  rw [Table.insert_of_find? hfind]

/-! ### Stopped and removed meanwhile -/

/-- An update that was begun before the session was stopped is refused. -/
theorem updateFound_of_stopped (hid : e.session.id = id) (hid' : e'.session.id = id)
    (he' : d.store.find? id = some e') (ht : e'.ticket = e.ticket)
    (hs : e'.session.status = .stopped) (hu : checkOwner user e.session = .ok ())
    (feed : Feed α) :
    d.updateFound now feed user e = (d.locked id, .error (.notActive id "stopped")) := by
  unfold updateFound
  rw [withOwner_of_ok hu, change_of_current (current_of_ticket he' hid ht),
    cycleActive_of_stopped hs, hid, hid']

omit [Arith α] in
/-- A second stop changes nothing. -/
theorem stopFound_of_stopped (hid : e.session.id = id) (hid' : e'.session.id = id)
    (he' : d.store.find? id = some e') (ht : e'.ticket = e.ticket)
    (hs : e'.session.status = .stopped) (hu : checkOwner user e.session = .ok ()) :
    d.stopFound now user e = (d.locked id, .ok e'.session) := by
  unfold stopFound stopped
  rw [withOwner_of_ok hu, change_of_current (current_of_ticket he' hid ht), hs, hid, ← ht]
  dsimp only
  rw [replaced_self he' hid']

theorem updateFound_of_gone (hid : e.session.id = id) (hnone : d.store.current e = none)
    (hu : checkOwner user e.session = .ok ()) (feed : Feed α) :
    d.updateFound now feed user e = (d.locked id, .error (.sessionNotFound id)) := by
  unfold updateFound
  rw [withOwner_of_ok hu, change_of_gone hnone, hid]

omit [Arith α] in
theorem stopFound_of_gone (hid : e.session.id = id) (hnone : d.store.current e = none)
    (hu : checkOwner user e.session = .ok ()) :
    d.stopFound now user e = (d.locked id, .error (.sessionNotFound id)) := by
  unfold stopFound
  rw [withOwner_of_ok hu, change_of_gone hnone, hid]

omit [Arith α] in
theorem deleteFound_of_gone (hid : e.session.id = id) (hnone : d.store.current e = none) :
    d.deleteFound (some e.session.user) e = (d.locked id, .ok false) := by
  unfold deleteFound
  dsimp only
  rw [if_pos rfl, current_locked, hnone, hid]

/-! ### Races -/

/-- **Races are linearised.**  An operation looks a session up at the desk `d`, for a user who may
use it, and goes on at `d'`, after any other operations.  If the session is still the stored one,
that is, if what is stored under the identifier has its ticket, the second half has exactly the
outcome and the effect of the whole operation at `d'`; so an update of a session that was stopped
meanwhile is refused, and another stop returns it as it is.  If it was removed or another session
has taken its place, updates and stops find no session, a removal has nothing to remove, and every
session is stored as before: all that has happened is that a lock was asked for. -/
theorem races_linearised {between : List (Instant × Operation α)} (hd : d.store.Sound)
    (he : d.store.find? id = some e) (hd' : d' = d.run between) (now : Instant) :
    (∀ e', d'.store.find? id = some e' → e'.ticket = e.ticket →
      (∀ feed user, d'.updateFound now feed user e = d'.update now id feed user) ∧
      (∀ user, d'.stopFound now user e = d'.stop now id user) ∧
      (∀ user, d'.deleteFound user e = d'.delete id user) ∧
      (e'.session.status = .stopped → ∀ user, checkOwner user e.session = .ok () →
        (∀ feed, d'.updateFound now feed user e =
          (d'.locked id, .error (.notActive id "stopped"))) ∧
        d'.stopFound now user e = (d'.locked id, .ok e'.session))) ∧
    ((∀ e', d'.store.find? id = some e' → e'.ticket ≠ e.ticket) →
      ∀ user, checkOwner user e.session = .ok () →
        (∀ feed, d'.updateFound now feed user e = (d'.locked id, .error (.sessionNotFound id))) ∧
        d'.stopFound now user e = (d'.locked id, .error (.sessionNotFound id)) ∧
        d'.deleteFound (some e.session.user) e = (d'.locked id, .ok false)) ∧
    (d'.locked id).store.sessions = d'.store.sessions := by
  have hid := hd.keyed he
  have hsound : d'.store.Sound := hd' ▸ sound_run hd between
  refine ⟨fun e' he' ht => ?_, fun hgone user hu => ?_, sessions_locked d' id⟩
  · have hid' := hsound.keyed he'
    have huser : e'.session.user = e.session.user := by
      rw [hd'] at he'
      exact congrArg (·.2.1) (charter_of_ticket_eq hd he between he' ht)
    refine ⟨fun feed user => ?_, fun user => ?_, fun user => ?_, fun hs user hu => ?_⟩
    · unfold update
      rw [withFound_of_find? he']
      exact withOwner_congr hid hid' he' ht huser user _
    · unfold stop
      rw [withFound_of_find? he']
      exact withOwner_congr hid hid' he' ht huser user _
    · unfold delete
      rw [he']
      exact deleteFound_congr hid hid' he' ht huser user
    · exact ⟨updateFound_of_stopped hid hid' he' ht hs hu,
        stopFound_of_stopped hid hid' he' ht hs hu⟩
  · have hnone := current_of_gone hid hgone
    exact ⟨updateFound_of_gone hid hnone hu, stopFound_of_gone hid hnone hu,
      deleteFound_of_gone hid hnone⟩

omit [Arith α] in
/-- A session is removed, and another one is created at the moment when the first one was. -/
def replacement : List (Instant × Operation α) :=
  [(⟨0⟩, .delete "ada-steady-0" (some "ada")), (⟨0⟩, .create (some "ada") "steady" .null)]

/-- A session is looked up for an update.  If another session has taken its identifier when the
update goes on, it finds none; if the session has been stopped, the update is refused. -/
theorem races_linearised_of_replacement :
    ∃ e : Stored Float, atWork.store.find? "ada-steady-0" = some e ∧
      (∃ e', (atWork.run replacement).store.find? "ada-steady-0" = some e' ∧
        e'.ticket ≠ e.ticket) ∧
      ((atWork.run replacement).updateFound ⟨1⟩ (quoting "SPY" 10) (some "ada") e).2 =
        .error (.sessionNotFound "ada-steady-0") ∧
      ((atWork.run [(⟨1⟩, .stop "ada-steady-0" none)]).updateFound ⟨1⟩ (quoting "SPY" 10)
        (some "ada") e).2 = .error (.notActive "ada-steady-0" "stopped") := by
  have hticket : (atWork.store.find? "ada-steady-0").map (·.ticket) = some 0 := by decide +kernel
  have howner : (atWork.store.find? "ada-steady-0").map (·.session.user) = some "ada" := by
    decide +kernel
  have hother : ((atWork.run replacement).store.find? "ada-steady-0").map (·.ticket) =
      some 2 := by decide +kernel
  have hstop : ((atWork.run [(⟨1⟩, .stop "ada-steady-0" none)]).store.find?
      "ada-steady-0").map (fun e => (e.ticket, e.session.status)) = some (0, .stopped) := by
    decide +kernel
  obtain ⟨e, he, ht⟩ := Option.map_eq_some_iff.mp hticket
  have huser : e.session.user = "ada" := by rw [he] at howner; exact Option.some.inj howner
  have hu : checkOwner (some "ada") e.session = .ok () := by simp [checkOwner, huser]
  obtain ⟨e₁, he₁, ht₁⟩ := Option.map_eq_some_iff.mp hother
  obtain ⟨e₂, he₂, hs⟩ := Option.map_eq_some_iff.mp hstop
  obtain ⟨ht₂, hstopped⟩ := Prod.mk.inj hs
  have hne : e₁.ticket ≠ e.ticket := by omega
  have hsound : atWork.store.Sound := run_sound _ _ _
  refine ⟨e, he, ⟨e₁, he₁, hne⟩, ?_, ?_⟩
  · obtain ⟨-, hgone, -⟩ := races_linearised hsound he rfl ⟨1⟩
    rw [(hgone (fun e' he' => by cases he₁.symm.trans he'; exact hne) (some "ada") hu).1]
  · obtain ⟨hsame, -, -⟩ := races_linearised hsound he rfl ⟨1⟩
    rw [((hsame e₂ he₂ (ht₂.trans ht.symm)).2.2.2 hstopped (some "ada") hu).1]

end PaperTrading.Desk
