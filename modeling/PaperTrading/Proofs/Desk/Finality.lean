import PaperTrading.Proofs.Desk.Lifetime
import PaperTrading.Proofs.Desk.Race

/-!
# Stopped sessions

A stop is final.  A stopped session accepts no update, and a second stop returns it as it is, so that
nothing but its removal is left.

* `Session.Reachable.endTime_iff`: exactly the stopped sessions have an end.
* `Advance.eq_of_stopped`: what an operation makes of a stopped session is the session.
* `run_of_stopped`: **what any history makes of it:** nothing, until its owner removes it.
* `find?_change_of_stopped`: no operation that was begun before the stop changes it afterwards.
* `stopped_final`: all of this, with the answers to the owner.
-/

namespace PaperTrading

variable {α : Type} [Arith α]

namespace Session

variable {s s' : Session α} {allowed : Value α → Prop}

/-- **Exactly the stopped sessions have an end.** -/
theorem Reachable.endTime_iff (h : s.Reachable) : s.endTime.isSome ↔ s.status = .stopped := by
  refine h.invariant (P := fun s => s.endTime.isSome ↔ s.status = .stopped) ?_ ?_
  · intro now id user strategy options defaults s h
    unfold create start at h
    split at h
    · cases h
    · cases h; simp
  · intro s s' hs hc
    cases hc with
    | ended t => simp
    | bought | sold | guarded | noted | marked | measured | dated => exact hs

/-- **A stopped session stays as it is.** -/
theorem Advance.eq_of_stopped (h : Advance s s') (hs : s.status = .stopped) : s' = s := by
  cases h with
  | same => rfl
  | cycled now feed hactive => rw [hs] at hactive; cases hactive
  | stopped now => unfold Desk.stopped; rw [hs]

end Session

namespace Desk

variable {d : Desk α} {now : Instant} {id : String} {e e₀ : Stored α} {user : Option String}

/-! ### Later operations -/

/-- **What a history makes of a stopped session:** nothing at all, or nothing until its owner removes
it. -/
theorem run_of_stopped (hd : d.store.Sound) (he : d.store.find? id = some e)
    (hs : e.session.status = .stopped) (later : List (Instant × Operation α)) :
    (d.run later).store.find? id = some e ∨ ∃ kept now rest,
      later = kept ++ (now, .delete id (some e.session.user)) :: rest ∧
      (d.run kept).store.find? id = some e ∧
      ((d.run kept).perform now (.delete id (some e.session.user))).store.find? id = none := by
  have hstays : ∀ {s s' : Session α}, s = e.session → s.Advance s' → s' = e.session := by
    rintro s s' rfl hadv
    exact hadv.eq_of_stopped hs
  rcases run_of_stored (P := (· = e.session)) hstays hd he rfl later with
    ⟨s, hkept, rfl⟩ | ⟨kept, now, rest, s, hlater, hkept, rfl, hgone⟩
  · exact .inl hkept
  · exact .inr ⟨kept, now, rest, hlater, hkept, hgone⟩

/-! ### Operations that were begun before -/

omit [Arith α] in
/-- What a looked-up session stands for is stored under its identifier with its ticket. -/
theorem find?_of_current {st : Store α} {s : Session α} (h : st.current e₀ = some s) :
    st.find? e₀.session.id = some ⟨e₀.ticket, s⟩ := by
  unfold Store.current at h
  obtain ⟨e', hfilter, rfl⟩ := Option.map_eq_some_iff.mp h
  obtain ⟨he', ht⟩ := Option.filter_eq_some_iff.mp hfilter
  rw [he', ← beq_iff_eq.mp ht]

/-- **The second half of an operation** leaves a stopped session as it is, whatever was looked up. -/
theorem find?_change_of_stopped {f : Session α → Except Failure (Session α)} (hd : d.store.Sound)
    (he : d.store.find? id = some e) (hs : e.session.status = .stopped)
    (hf : ∀ {s s'}, f s = .ok s' → s.Advance s') (e₀ : Stored α) :
    (d.change e₀ f).1.store.find? id = some e := by
  have hlocked : (d.locked e₀.session.id).store.find? id = some e := (find?_locked ..).trans he
  cases hcur : d.store.current e₀ with
  | none => rw [change_of_gone hcur]; exact hlocked
  | some s =>
    rw [change_of_current hcur]
    cases hfs : f s with
    | error g => exact hlocked
    | ok s' =>
      have hfound := find?_of_current hcur
      have hadv := hf hfs
      have hid : s'.id = e₀.session.id := hadv.id_eq.trans (hd.keyed hfound)
      show ((d.locked e₀.session.id).store.sessions.insert s'.id ⟨e₀.ticket, s'⟩).find? id = some e
      rw [Table.find?_insert, hid]
      split
      · next hk =>
        rw [hk, he] at hfound
        cases hfound
        rw [hadv.eq_of_stopped hs]
      · exact hlocked

theorem find?_withOwner_of_stopped {f : Session α → Except Failure (Session α)}
    (hd : d.store.Sound) (he : d.store.find? id = some e) (hs : e.session.status = .stopped)
    (hf : ∀ {s s'}, f s = .ok s' → s.Advance s') (user : Option String) (e₀ : Stored α) :
    (d.withOwner user e₀.session (d.change e₀ f)).1.store.find? id = some e := by
  cases hu : checkOwner user e₀.session with
  | error g => rw [withOwner_of_error hu]; exact he
  | ok _ => rw [withOwner_of_ok hu]; exact find?_change_of_stopped hd he hs hf e₀

/-! ### Answers to the owner -/

theorem update_of_stopped (hd : d.store.Sound) (he : d.store.find? id = some e)
    (hs : e.session.status = .stopped) (hu : checkOwner user e.session = .ok ()) (feed : Feed α) :
    d.update now id feed user = (d.locked id, .error (.notActive id "stopped")) := by
  unfold update
  rw [withFound_of_find? he]
  exact updateFound_of_stopped (hd.keyed he) (hd.keyed he) he rfl hs hu feed

theorem refresh_of_stopped (hd : d.store.Sound) (he : d.store.find? id = some e)
    (hs : e.session.status = .stopped) (hu : checkOwner user e.session = .ok ())
    (provider : Provider α) :
    d.refresh now id user provider = (d, ⟨[], .error (.notActive id "stopped")⟩) := by
  have hcalls : refreshCalls user e = .error (.notActive id "stopped") := by
    unfold refreshCalls requireActive
    rw [hu, hs, hd.keyed he]
    rfl
  unfold refresh find
  rw [he]
  dsimp only
  unfold refreshFound
  rw [hcalls]

omit [Arith α] in
theorem stop_of_stopped (hd : d.store.Sound) (he : d.store.find? id = some e)
    (hs : e.session.status = .stopped) (hu : checkOwner user e.session = .ok ()) :
    d.stop now id user = (d.locked id, .ok e.session) := by
  unfold stop
  rw [withFound_of_find? he]
  exact stopFound_of_stopped (hd.keyed he) (hd.keyed he) he rfl hs hu

/-- **Stopped is final.**  At every desk that arises, exactly the stopped sessions have an end.  Once
a session is stopped, all of it stays as it is, whatever operations follow on it or on others, until
its owner removes it; this also holds of updates and stops that looked up whatever session before it
was stopped.  To its owner an update and a refresh answer that it is not active, the refresh without
asking the provider for anything, and another stop answers with the session. -/
theorem stopped_final (strategies : List (Strategy α)) (defaults : Defaults α)
    (before : List (Instant × Operation α)) (hd : d = (ofStrategies strategies defaults).run before)
    (he : d.store.find? id = some e) :
    (e.session.endTime.isSome ↔ e.session.status = .stopped) ∧
    (e.session.status = .stopped →
      (∀ later, (d.run later).store.find? id = some e ∨ ∃ kept now rest,
        later = kept ++ (now, .delete id (some e.session.user)) :: rest ∧
        (d.run kept).store.find? id = some e ∧
        ((d.run kept).perform now (.delete id (some e.session.user))).store.find? id = none) ∧
      (∀ now user e₀, (∀ feed, (d.updateFound now feed user e₀).1.store.find? id = some e) ∧
        (d.stopFound now user e₀).1.store.find? id = some e) ∧
      ∀ now user, checkOwner user e.session = .ok () →
        (∀ feed, d.update now id feed user = (d.locked id, .error (.notActive id "stopped"))) ∧
        (∀ provider, d.refresh now id user provider =
          (d, ⟨[], .error (.notActive id "stopped")⟩)) ∧
        d.stop now id user = (d.locked id, .ok e.session)) := by
  have hsound : d.store.Sound := by rw [hd]; exact run_sound strategies defaults before
  have hreach : e.session.Reachable := reachable_of_find? (hd ▸ he)
  refine ⟨hreach.endTime_iff, fun hs => ⟨run_of_stopped hsound he hs, fun now user e₀ => ?_,
    fun now user hu => ⟨update_of_stopped hsound he hs hu, refresh_of_stopped hsound he hs hu,
      stop_of_stopped hsound he hs hu⟩⟩⟩
  constructor
  · exact fun feed => find?_withOwner_of_stopped hsound he hs cycleActive_advance user e₀
  · exact find?_withOwner_of_stopped hsound he hs (fun h => by cases h; exact .stopped now) user e₀

/-- A desk with a session that was updated once and then stopped. -/
def closed : Desk Float :=
  (ofStrategies [steady buyAndTrim] .standard).run
    (updates "SPY" [10] ++ [(⟨5⟩, .stop "ada-steady-0" (some "ada"))])

omit [Arith α] in
/-- What a user goes on to do with a stopped session and with another one. -/
def afterwards : List (Instant × Operation α) :=
  [(⟨6⟩, .update "ada-steady-0" (quoting "SPY" 12) (some "ada")),
    (⟨7⟩, .create (some "ada") "steady" .null), (⟨8⟩, .stop "ada-steady-0" (some "ada"))]

/-- A session is updated once and then stopped.  Nothing that follows changes it. -/
theorem stopped_final_of_stop : ∃ e : Stored Float,
    (closed.store.find? "ada-steady-0" = some e ∧ e.session.endTime = some ⟨5⟩ ∧
      e.session.transactions.length = 2) ∧
    (closed.run afterwards).store.find? "ada-steady-0" = some e ∧
    (closed.run afterwards).store.sessions.keys = ["ada-steady-0", "ada-steady-7"] ∧
    (closed.update ⟨6⟩ "ada-steady-0" (quoting "SPY" 12) (some "ada")).2 =
      .error (.notActive "ada-steady-0" "stopped") := by
  have h : (closed.store.find? "ada-steady-0").any (fun e => e.session.user = "ada" ∧
      e.session.endTime = some ⟨5⟩ ∧ e.session.transactions.length = 2) = true := by
    decide +kernel
  obtain ⟨e, he, hdec⟩ := (Option.any_eq_true _ _).mp h
  obtain ⟨huser, hend, hlog⟩ := of_decide_eq_true hdec
  obtain ⟨hiff, hfinal⟩ := stopped_final (d := closed) _ _ _ rfl he
  obtain ⟨hlater, -, hanswers⟩ := hfinal (hiff.mp (by rw [hend]; rfl))
  refine ⟨e, ⟨he, hend, hlog⟩, ?_, by decide +kernel, ?_⟩
  · refine (hlater afterwards).resolve_right ?_
    rintro ⟨kept, now, rest, hsplit, -⟩
    have hmem : (now, .delete "ada-steady-0" (some e.session.user)) ∈ afterwards (α := Float) := by
      rw [hsplit]; simp
    simp [afterwards] at hmem
  · have hu : checkOwner (some "ada") e.session = .ok () := by simp [checkOwner, huser]
    rw [(hanswers ⟨6⟩ (some "ada") hu).1]

end Desk

end PaperTrading
