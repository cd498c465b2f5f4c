import PaperTrading.Proofs.Desk.Finality

/-!
# What the checks of a desk refuse

An operation on one session is refused if the session is not stored and if it belongs to someone else,
and a refused operation leaves the desk as it is.  Its owner gets through.

* `checkOwner_of_user`, `checkOwner_of_other`: the check of the owner.
* `found_of_other`, `stop_of_user`: an operation that changes a session.
* `get_of_none`, `get_of_other`, `get_of_user`: a look at one.
* `delete_of_none`, `delete_of_other`, `delete_of_user`: a removal.
-/

namespace PaperTrading.Desk

variable {α : Type} {d : Desk α} {id u : String} {e : Stored α}
  {f : Session α → Except Failure (Session α)}

theorem checkOwner_of_user {s : Session α} (h : s.user = u) : checkOwner (some u) s = .ok () := by
  simp [checkOwner, h]

theorem checkOwner_of_other {s : Session α} (h : s.user ≠ u) :
    checkOwner (some u) s = .error .foreignSession := by
  simp [checkOwner, h]

theorem found_of_other (he : d.store.find? id = some e) (hu : e.session.user ≠ u) :
    (d.withFound id fun e => d.withOwner (some u) e.session (d.change e f)) =
      (d, .error .foreignSession) := by
  rw [withFound_of_find? he, withOwner_of_error (checkOwner_of_other hu)]

theorem stop_of_user (hd : d.store.Sound) (he : d.store.find? id = some e)
    (hu : e.session.user = u) (now : Instant) : d.stop now id (some u) =
      ((d.locked id).replaced e.ticket (stopped now e.session), .ok (stopped now e.session)) := by
  unfold stop stopFound
  rw [withFound_of_find? he, withOwner_of_ok (checkOwner_of_user hu),
    change_of_current (current_of_find? hd he), hd.keyed he]

theorem get_of_none (h : d.store.find? id = none) (user : Option String) :
    d.get id user = .error (.sessionNotFound id) := by
  unfold get find; rw [h]; rfl

theorem get_of_other (he : d.store.find? id = some e) (hu : e.session.user ≠ u) :
    d.get id (some u) = .error .foreignSession := by
  unfold get find
  rw [he]
  show (do checkOwner (some u) e.session; pure e.session) = _
  rw [checkOwner_of_other hu]
  rfl

theorem get_of_user (he : d.store.find? id = some e) (hu : e.session.user = u) :
    d.get id (some u) = .ok e.session := by
  unfold get find
  rw [he]
  show (do checkOwner (some u) e.session; pure e.session) = _
  rw [checkOwner_of_user hu]
  rfl

theorem delete_of_none (h : d.store.find? id = none) (user : Option String) :
    d.delete id user = (d, .ok false) := by
  unfold delete; rw [h]

theorem delete_of_other (he : d.store.find? id = some e) (hu : e.session.user ≠ u) :
    d.delete id (some u) = (d, .error .foreignSession) := by
  unfold delete
  rw [he]
  show d.deleteFound (some u) e = _
  unfold deleteFound
  rw [if_neg (by simpa using hu.symm)]

theorem delete_of_user (hd : d.store.Sound) (he : d.store.find? id = some e)
    (hu : e.session.user = u) : d.delete id (some u) =
      ({ d.locked id with store := (d.locked id).store.delete id }, .ok true) := by
  unfold delete
  rw [he]
  show d.deleteFound (some u) e = _
  unfold deleteFound
  rw [if_pos (by rw [hu])]
  dsimp only
  rw [current_locked, current_of_find? hd he, hd.keyed he]

end PaperTrading.Desk
