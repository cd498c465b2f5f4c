import PaperTrading.Proofs.Desk.Finality

/-!
# Refreshes and what happens while they wait

A refresh looks a session up, waits for its market data, and then updates whatever is stored under
the identifier of the session.  While it waits, other operations may stop the session, remove it, or
put another one in its place.

* `ActsOn`: what is asked of an update of a session that was looked up earlier.
* `refreshFound_of_fetched`: once the data are there, a refresh is an update by identifier.
* `actsOn_of_same`, `update_of_other`: that update while no other session has taken the identifier,
  and when one has.
* `refresh_actsOn_iff`: **a refresh acts on the session that it looked up exactly if no other one has
  taken its place.**
* `refresh_of_replacement`: a session that is updated with the data of the one before it.
-/

namespace PaperTrading.Desk

variable {α : Type} [Arith α] {d d' : Desk α} {now : Instant} {id : String} {e e' : Stored α}
  {user : Option String} {feed : Feed α}

/-- **What is asked of an update** of a session that was looked up earlier.  If the session is still
stored and active, one cycle of it is run, and nothing else; if it has been stopped, or if it is no
longer stored, the update is refused and every session stays as it is. -/
structure ActsOn (d : Desk α) (now : Instant) (feed : Feed α) (e : Stored α)
    (outcome : Desk α × Except Failure (Session α)) : Prop where
  active : ∀ s, d.store.current e = some s → s.status = .active → outcome =
    ((d.locked e.session.id).replaced e.ticket (s.cycle now feed), .ok (s.cycle now feed))
  stopped : ∀ s, d.store.current e = some s → s.status = .stopped →
    outcome.2 = .error (.notActive e.session.id "stopped") ∧
      outcome.1.store.sessions = d.store.sessions
  gone : d.store.current e = none → outcome.2 = .error (.sessionNotFound e.session.id) ∧
    outcome.1.store.sessions = d.store.sessions

/-! ### Once the data are there -/

/-- Once its data are there, a refresh is an update of what is stored under the identifier. -/
theorem refreshFound_of_fetched {provider : Provider α} {calls : List (Value α × Value α)}
    {entries : Table (Quote α ⊕ Value α)} (hcalls : refreshCalls user e = .ok calls)
    (hdata : collect provider e.session.settings.symbols e.session.settings.timePeriod =
      .ok entries) :
    d.refreshFound now user provider e =
      ((d.update now e.session.id (.table entries) user).1,
        ⟨calls, (d.update now e.session.id (.table entries) user).2⟩) := by
  unfold refreshFound
  simp only [hcalls, hdata]

omit [Arith α] in
/-- Data are asked for only on behalf of a user who may use the session. -/
theorem checkOwner_of_refreshCalls {calls : List (Value α × Value α)}
    (h : refreshCalls user e = .ok calls) : checkOwner user e.session = .ok () := by
  unfold refreshCalls at h
  obtain ⟨_, hu, -⟩ := bind_ok_iff.mp h
  exact hu

theorem update_of_none (h : d.store.find? id = none) :
    d.update now id feed user = (d, .error (.sessionNotFound id)) := by
  unfold update
  rw [withFound_of_none h]

/-- **While no other session has taken the identifier,** an update by identifier acts on the session
that was looked up. -/
theorem actsOn_of_same (hd : d.store.Sound) (hid : e.session.id = id)
    (hu : checkOwner user e.session = .ok ())
    (hsame : ∀ e', d.store.find? id = some e' →
      e'.ticket = e.ticket ∧ e'.session.user = e.session.user) :
    ActsOn d now feed e (d.update now id feed user) := by
  cases hfind : d.store.find? id with
  | none =>
    have hgone : d.store.current e = none := current_of_gone hid fun e' he' => by
      rw [hfind] at he'; cases he'
    rw [update_of_none hfind]
    refine ⟨fun s hs => ?_, fun s hs => ?_, fun _ => ⟨by rw [hid], rfl⟩⟩ <;>
      · rw [hgone] at hs; cases hs
  | some e' =>
    obtain ⟨ht, huser⟩ := hsame e' hfind
    have hcurrent : d.store.current e = some e'.session := current_of_ticket hfind hid ht
    have hu' : checkOwner user e'.session = .ok () := (checkOwner_congr huser user).trans hu
    refine ⟨fun s hs hactive => ?_, fun s hs hstopped => ?_, fun hnone => ?_⟩
    · cases hcurrent.symm.trans hs
      rw [update_of_active hd hfind hu' hactive, hid, ht]
    · cases hcurrent.symm.trans hs
      rw [update_of_stopped hd hfind hstopped hu', hid]
      exact ⟨rfl, sessions_locked d id⟩
    · rw [hcurrent] at hnone; cases hnone

/-- **When another session has taken the identifier,** that one is updated.  In no case is the
answer that there is no session. -/
theorem update_of_other (hd : d.store.Sound) (he' : d.store.find? id = some e') (now : Instant)
    (feed : Feed α) (user : Option String) :
    d.update now id feed user = d.updateFound now feed user e' ∧
      (d.update now id feed user).2 ≠ .error (.sessionNotFound id) := by
  have hupdate : d.update now id feed user = d.updateFound now feed user e' := by
    unfold update
    rw [withFound_of_find? he']
  refine ⟨hupdate, ?_⟩
  cases hu : checkOwner user e'.session with
  | error f =>
    rw [hupdate]
    unfold updateFound
    rw [withOwner_of_error hu]
    unfold checkOwner at hu
    split at hu
    · split at hu <;> cases hu
      simp
    · cases hu
  | ok _ =>
    cases hs : e'.session.status with
    | active => rw [update_of_active hd he' hu hs]; simp
    | stopped => rw [update_of_stopped hd he' hs hu]; simp

/-! ### Refreshes -/

/-- **What a refresh acts on.**  A refresh looks a session up at the desk `d`, for a user who may use
it and while it is active, and goes on with its data at `d'`, after any other operations.  It acts on
the session that it looked up exactly if no other session has taken its place: an active session is
updated with the data, and if it was stopped or removed the refresh is refused, with every session as
before.  If another session has taken its place, the refresh does to that one what an update with
these data does; it never says that the session is gone, and if the user owns the other session and
that is active, it runs a cycle of it. -/
theorem refresh_actsOn_iff (hd : d.store.Sound) (he : d.store.find? id = some e)
    (between : List (Instant × Operation α)) (hd' : d' = d.run between) (now : Instant)
    {provider : Provider α} {calls : List (Value α × Value α)}
    {entries : Table (Quote α ⊕ Value α)} (hcalls : refreshCalls user e = .ok calls)
    (hdata : collect provider e.session.settings.symbols e.session.settings.timePeriod =
      .ok entries) :
    ∃ d'' result, d'.refreshFound now user provider e = (d'', ⟨calls, result⟩) ∧
      (ActsOn d' now (.table entries) e (d'', result) ↔
        ∀ e', d'.store.find? id = some e' → e'.ticket = e.ticket) ∧
      ∀ e', d'.store.find? id = some e' → e'.ticket ≠ e.ticket →
        (d'', result) = d'.updateFound now (.table entries) user e' ∧
        result ≠ .error (.sessionNotFound id) ∧
        (checkOwner user e'.session = .ok () → e'.session.status = .active →
          result = .ok (e'.session.cycle now (.table entries)) ∧
          d''.store.find? id = some ⟨e'.ticket, e'.session.cycle now (.table entries)⟩) := by
  have hid := hd.keyed he
  have hsound : d'.store.Sound := hd' ▸ sound_run hd between
  refine ⟨_, _, by rw [refreshFound_of_fetched hcalls hdata, hid], ⟨fun hacts e' he' => ?_,
    fun hsame => ?_⟩, fun e' he' _ => ?_⟩
  · by_contra hne
    have hgone : d'.store.current e = none := current_of_gone hid fun e₁ he₁ => by
      cases he'.symm.trans he₁
      exact hne
    have hanswer := (hacts.gone hgone).1
    rw [hid] at hanswer
    exact (update_of_other hsound he' now _ user).2 hanswer
  · refine actsOn_of_same hsound hid (checkOwner_of_refreshCalls hcalls) fun e' he' => ?_
    have ht := hsame e' he'
    refine ⟨ht, ?_⟩
    rw [hd'] at he'
    exact congrArg (·.2.1) (charter_of_ticket_eq hd he between he' ht)
  · obtain ⟨hupdate, hanswer⟩ := update_of_other hsound he' now (.table entries) user
    refine ⟨hupdate, hanswer, fun hu hactive => ?_⟩
    rw [update_of_active hsound he' hu hactive]
    refine ⟨rfl, ?_⟩
    have hcharter : (e'.session.cycle now (.table entries)).id = id :=
      (Session.Advance.cycled now (.table entries) hactive).id_eq.trans (hsound.keyed he')
    show ((d'.locked id).store.sessions.insert _ _).find? id = _
    rw [hcharter, Table.find?_insert_self]

omit [Arith α] in
/-- A provider that quotes one price for everything. -/
def quotingAll (price : Int) : Provider α := fun _ _ => .document (.object [("price", .int price)])

/-- A refresh waits for its data.  If the session is stopped meanwhile, the refresh is refused; if
another session has taken its place, that one is updated. -/
theorem refresh_actsOn_of_atWork : ∃ e : Stored Float,
    atWork.store.find? "ada-steady-0" = some e ∧
    ((atWork.run [(⟨1⟩, .stop "ada-steady-0" none)]).refreshFound ⟨2⟩ (some "ada")
      (quotingAll 10) e).2.result = .error (.notActive "ada-steady-0" "stopped") ∧
    ∃ e' s, (atWork.run replacement).store.find? "ada-steady-0" = some e' ∧
      e'.ticket ≠ e.ticket ∧
      ((atWork.run replacement).refreshFound ⟨2⟩ (some "ada") (quotingAll 10) e).1.store.find?
        "ada-steady-0" = some ⟨e'.ticket, s⟩ := by
  have hstored : (atWork.store.find? "ada-steady-0").any (fun e => e.ticket = 0 ∧
      (refreshCalls (some "ada") e).toOption.isSome ∧
      (collect (quotingAll 10) e.session.settings.symbols
        e.session.settings.timePeriod).toOption.isSome) = true := by decide +kernel
  have hother : ((atWork.run replacement).store.find? "ada-steady-0").any (fun e =>
      e.ticket = 2 ∧ e.session.user = "ada" ∧ e.session.status = .active) = true := by
    decide +kernel
  have hstop : ((atWork.run [(⟨1⟩, .stop "ada-steady-0" none)]).store.find?
      "ada-steady-0").any (fun e => e.ticket = 0 ∧ e.session.status = .stopped) = true := by
    decide +kernel
  obtain ⟨e, he, hdec⟩ := (Option.any_eq_true _ _).mp hstored
  obtain ⟨ht, hcalls, hdata⟩ := of_decide_eq_true hdec
  obtain ⟨calls, hcalls⟩ := Option.isSome_iff_exists.mp hcalls
  obtain ⟨entries, hdata⟩ := Option.isSome_iff_exists.mp hdata
  have hcalls := toOption_eq_some_iff.mp hcalls
  have hdata := toOption_eq_some_iff.mp hdata
  obtain ⟨e₁, he₁, hdec⟩ := (Option.any_eq_true _ _).mp hother
  obtain ⟨ht₁, huser, hactive⟩ := of_decide_eq_true hdec
  obtain ⟨e₂, he₂, hdec⟩ := (Option.any_eq_true _ _).mp hstop
  obtain ⟨ht₂, hstopped⟩ := of_decide_eq_true hdec
  have hne : e₁.ticket ≠ e.ticket := by omega
  have hsame : e₂.ticket = e.ticket := by omega
  have hsound : atWork.store.Sound := run_sound _ _ _
  have hu : checkOwner (some "ada") e₁.session = .ok () := by simp [checkOwner, huser]
  obtain ⟨_, _, hrefused, hiff, -⟩ := refresh_actsOn_iff hsound he
    [(⟨1⟩, .stop "ada-steady-0" none)] rfl ⟨2⟩ hcalls hdata
  obtain ⟨_, _, hrefresh, -, hinstead⟩ := refresh_actsOn_iff hsound he replacement rfl ⟨2⟩ hcalls
    hdata
  have hacts := hiff.mpr fun e' he' => by cases he₂.symm.trans he'; exact hsame
  have hanswer := (hacts.stopped _ (current_of_ticket he₂ (hsound.keyed he) hsame) hstopped).1
  rw [hsound.keyed he] at hanswer
  obtain ⟨-, -, hcycle⟩ := hinstead e₁ he₁ hne
  exact ⟨e, he, by rw [hrefused]; exact hanswer, e₁, e₁.session.cycle ⟨2⟩ (.table entries), he₁,
    hne, by rw [hrefresh]; exact (hcycle hu hactive).2⟩

/-- **A refresh that acts on another session.**  A session is looked up for a refresh.  While its data
are fetched it is removed, and another one is created under its identifier.  The refresh does not say
that the session is gone: it trades for the other one. -/
theorem refresh_of_replacement : ∃ (e e' e'' : Stored Float) (s : Session Float),
    atWork.store.find? "ada-steady-0" = some e ∧
    (refreshCalls (some "ada") e).toOption.isSome ∧
    (atWork.run replacement).store.find? "ada-steady-0" = some e' ∧ e'.ticket ≠ e.ticket ∧
    e'.session.transactions.length = 0 ∧
    ((atWork.run replacement).refreshFound ⟨2⟩ (some "ada") (quotingAll 10) e).2.result = .ok s ∧
    ((atWork.run replacement).refreshFound ⟨2⟩ (some "ada") (quotingAll 10) e).1.store.find?
      "ada-steady-0" = some e'' ∧
    e''.ticket = e'.ticket ∧ e''.session.transactions.length = 2 := by
  have h : (atWork.store.find? "ada-steady-0").any (fun e =>
      (refreshCalls (some "ada") e).toOption.isSome &&
      ((atWork.run replacement).store.find? "ada-steady-0").any fun e' =>
      (((atWork.run replacement).refreshFound ⟨2⟩ (some "ada") (quotingAll 10) e).1.store.find?
        "ada-steady-0").any fun e'' =>
      ((atWork.run replacement).refreshFound ⟨2⟩ (some "ada") (quotingAll 10)
        e).2.result.toOption.any fun _ => e'.ticket ≠ e.ticket ∧
          e'.session.transactions.length = 0 ∧ e''.ticket = e'.ticket ∧
          e''.session.transactions.length = 2) = true := by decide +kernel
  obtain ⟨e, he, h⟩ := (Option.any_eq_true _ _).mp h
  obtain ⟨hcalls, h⟩ := Bool.and_eq_true_iff.mp h
  obtain ⟨e', he', h⟩ := (Option.any_eq_true _ _).mp h
  obtain ⟨e'', he'', h⟩ := (Option.any_eq_true _ _).mp h
  obtain ⟨s, hs, h⟩ := (Option.any_eq_true _ _).mp h
  obtain ⟨hne, hnew, ht, htrades⟩ := of_decide_eq_true h
  exact ⟨e, e', e'', s, he, hcalls, he', hne, hnew, toOption_eq_some_iff.mp hs, he'', ht, htrades⟩

end PaperTrading.Desk
