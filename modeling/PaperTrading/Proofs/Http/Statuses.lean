import PaperTrading.Proofs.Desk.Checks
import PaperTrading.Proofs.Http.Addresses
import PaperTrading.Proofs.Http.Operations

/-!
# How requests about one session are answered

A request to show, stop, update or remove a session is answered after the same checks in the same
order, whatever it asks for: there is a user, the session is stored, the user owns it, and, for an
update, it is active.  The first check that fails decides the status, and nothing has been done then.

* `Request.Asks`: what a request asks about a session.
* `Access.status`: **the status of the answer.**
* `Met`, `met_handle`: **how such a request is met.**
* `statuses`: this in every state of the service, and what follows a removal.
-/

namespace PaperTrading.Http

variable {α : Type} [Arith α]

/-! ### What a request asks -/

/-- **What a request asks about a session.**  Its target may be escaped in any way.  An update is
asked for with some market data in the body. -/
structure Request.Asks (r : Request) (a : Access α) (id : String) : Prop where
  path : percentDecode r.target.toList = (a.path id).toList
  method : r.method = a.method
  body : ∀ data, a = .update data → data.isNull = false ∧
    ∃ fields, Body.read r.body = .object fields ∧ Value.get fields "marketData" = data

omit [Arith α] in
/-- **The status of the answer** to a user who asks something about a session: 401 without a user, 404
if nothing is stored, 403 for a session of someone else, 409 for an update of a stopped one, and 200
otherwise. -/
def Access.status (a : Access α) (d : Desk α) (caller : Option String) (id : String) : Nat :=
  match caller, d.store.find? id with
  | none, _ => 401
  | some _, none => 404
  | some u, some e =>
    if e.session.user ≠ u then 403
    else match a, e.session.status with
      | .update _, .stopped => 409
      | _, _ => 200

/-- What is said of a session that is not stored.  Whoever wanted it removed is not told which. -/
def Access.missing : Access α → String → String
  | .remove, _ => "Paper trading session not found"
  | .view, id | .stop, id | .update _, id => (Failure.sessionNotFound id).message

/-- **How a request about a session is met:** what is stored afterwards, and the status and the
document of the answer. -/
inductive Met (now : Instant) (d : Desk α) (caller : Option String) (id : String) :
    Access α → Table (Stored α) → Nat → Value α → Prop
  | unsigned {a : Access α} (hu : caller = none) :
      Met now d caller id a d.store.sessions 401 (explained "Missing X-User-Id header")
  | unknown {a : Access α} {u : String} (hu : caller = some u) (he : d.store.find? id = none) :
      Met now d caller id a d.store.sessions 404 (explained (a.missing id))
  | foreign {a : Access α} {u : String} {e : Stored α} (hu : caller = some u)
      (he : d.store.find? id = some e) (hne : e.session.user ≠ u) :
      Met now d caller id a d.store.sessions 403
        (explained "Not authorized to access this session")
  | inactive {data : Value α} {e : Stored α} (hu : caller = some e.session.user)
      (he : d.store.find? id = some e) (hs : e.session.status = .stopped) :
      Met now d caller id (.update data) d.store.sessions 409
        (explained (Failure.notActive id "stopped").message)
  | viewed {e : Stored α} (hu : caller = some e.session.user) (he : d.store.find? id = some e) :
      Met now d caller id .view d.store.sessions 200 e.session.toValue
  | updated {data : Value α} {e : Stored α} (hu : caller = some e.session.user)
      (he : d.store.find? id = some e) (hs : e.session.status = .active) :
      Met now d caller id (.update data)
        (d.store.sessions.insert id ⟨e.ticket, e.session.cycle now (.document data)⟩) 200
        (e.session.cycle now (.document data)).toValue
  | stopped {e : Stored α} (hu : caller = some e.session.user)
      (he : d.store.find? id = some e) :
      Met now d caller id .stop
        (d.store.sessions.insert id ⟨e.ticket, Desk.stopped now e.session⟩) 200
        (Desk.stopped now e.session).toValue
  | removed {e : Stored α} (hu : caller = some e.session.user)
      (he : d.store.find? id = some e) :
      Met now d caller id .remove (d.store.sessions.erase id) 200 (.object [("id", .text id)])

/-- A service has met a request about a session. -/
def Meets (now : Instant) (d : Desk α) (provider : Option (Provider α)) (caller : Option String)
    (id : String) (a : Access α) (answer : Service α × Response α) : Prop :=
  ∃ d' status v, answer = (⟨some d', provider⟩, .document status v) ∧
    Met now d caller id a d'.store.sessions status v

namespace Service

variable {now : Instant} {d : Desk α} {provider : Option (Provider α)} {user : Option String}
  {u id : String} {a : Access α}

theorem meets_withUser {k : String → Service α × Response α}
    (h : ∀ u, Meets now d provider (some u) id a (k u)) :
    Meets now d provider ((user.filter (· ≠ "")).map headerText) id a
      (withUser ⟨some d, provider⟩ user k) := by
  cases hu : user.filter (· ≠ "") with
  | none =>
    rw [withUser_of_none hu, refusal_eq_document]
    exact ⟨d, _, _, rfl, .unsigned rfl⟩
  | some raw =>
    rw [withUser_of_some hu]
    exact h _

/-- What the desk does and answers for a request. -/
theorem meets_withDesk {caller : Option String} {k : Desk α → Desk α × Response α} {d' : Desk α}
    {status : Nat} {v : Value α} (hk : k d = (d', .document status v))
    (h : Met now d caller id a d'.store.sessions status v) :
    Meets now d provider caller id a (withDesk ⟨some d, provider⟩ k) := by
  refine ⟨d', status, v, ?_, h⟩
  show ((⟨some (k d).1, provider⟩ : Service α), (k d).2) = _
  rw [hk]

/-- An operation that finds no session. -/
theorem meets_unknown (ha : a.missing id = (Failure.sessionNotFound id).message)
    (he : d.store.find? id = none) {k : Desk α → Desk α × Except Failure (Session α)}
    (hk : k d = (d, .error (.sessionNotFound id))) :
    Meets now d provider (some u) id a (withDesk ⟨some d, provider⟩ fun d => answer (k d)) := by
  refine meets_withDesk ?_ (.unknown rfl he)
  rw [hk, ha, ← refusal_eq_document]
  rfl

/-- An operation on a session of someone else. -/
theorem meets_foreign {e : Stored α} (he : d.store.find? id = some e) (hne : e.session.user ≠ u)
    {k : Desk α → Desk α × Except Failure (Session α)} (hk : k d = (d, .error .foreignSession)) :
    Meets now d provider (some u) id a (withDesk ⟨some d, provider⟩ fun d => answer (k d)) := by
  refine meets_withDesk ?_ (.foreign rfl he hne)
  rw [hk, ← refusal_eq_document]
  rfl

/-- An operation that changes a session of the user. -/
theorem meets_changed {e : Stored α} {s : Session α}
    {k : Desk α → Desk α × Except Failure (Session α)}
    (hk : k d = ((d.locked id).replaced e.ticket s, .ok s)) (hid : s.id = id)
    (h : Met now d (some u) id a (d.store.sessions.insert id ⟨e.ticket, s⟩) 200 s.toValue) :
    Meets now d provider (some u) id a (withDesk ⟨some d, provider⟩ fun d => answer (k d)) := by
  have hsessions : ((d.locked id).replaced e.ticket s).store.sessions =
      d.store.sessions.insert id ⟨e.ticket, s⟩ := by
    show (d.locked id).store.sessions.insert s.id ⟨e.ticket, s⟩ = _
    rw [Desk.sessions_locked, hid]
  rw [← hsessions] at h
  exact meets_withDesk (by rw [hk]; rfl) h

theorem meets_get : Meets now d provider ((user.filter (· ≠ "")).map headerText) id .view
    (get ⟨some d, provider⟩ user id) := by
  refine meets_withUser fun u => ?_
  cases he : d.store.find? id with
  | none =>
    exact meets_unknown rfl he (k := fun d => (d, d.get id (some u)))
      (Prod.ext rfl (Desk.get_of_none he _))
  | some e =>
    by_cases hu : e.session.user = u
    · subst hu
      exact meets_withDesk (by rw [Desk.get_of_user he rfl]; rfl) (.viewed rfl he)
    · exact meets_foreign he hu (k := fun d => (d, d.get id (some u)))
        (Prod.ext rfl (Desk.get_of_other he hu))

theorem meets_stop (hd : d.store.Sound) :
    Meets now d provider ((user.filter (· ≠ "")).map headerText) id .stop
      (stop now ⟨some d, provider⟩ user id) := by
  refine meets_withUser fun u => ?_
  cases he : d.store.find? id with
  | none => exact meets_unknown rfl he (Desk.withFound_of_none he _)
  | some e =>
    by_cases hu : e.session.user = u
    · subst hu
      exact meets_changed (Desk.stop_of_user hd he rfl now)
        ((Session.Advance.stopped now).id_eq.trans (hd.keyed he)) (.stopped rfl he)
    · exact meets_foreign he hu (Desk.found_of_other he hu)

theorem meets_updateWith (hd : d.store.Sound) {data : Value α} (hdata : data.isNull = false) :
    Meets now d provider ((user.filter (· ≠ "")).map headerText) id (.update data)
      (updateWith now ⟨some d, provider⟩ user id data) := by
  have hgiven : (!data.isNull) = true := by rw [hdata]; rfl
  refine meets_withUser fun u => ?_
  simp only [hgiven, if_true]
  cases he : d.store.find? id with
  | none => exact meets_unknown rfl he (Desk.withFound_of_none he _)
  | some e =>
    by_cases hu : e.session.user = u
    · subst hu
      have hcheck : Desk.checkOwner (some e.session.user) e.session = .ok () :=
        Desk.checkOwner_of_user rfl
      cases hs : e.session.status with
      | active =>
        exact meets_changed (Desk.update_of_active hd he hcheck hs now _)
          ((Session.Advance.cycled now _ hs).id_eq.trans (hd.keyed he)) (.updated rfl he hs)
      | stopped =>
        have hmet : Met now d (some e.session.user) id (.update data)
            (d.locked id).store.sessions 409
            (explained (Failure.notActive id "stopped").message) := by
          rw [Desk.sessions_locked]
          exact .inactive rfl he hs
        refine meets_withDesk ?_ hmet
        rw [Desk.update_of_stopped hd he hs hcheck, ← refusal_eq_document]
        rfl
    · exact meets_foreign he hu (Desk.found_of_other he hu)

theorem meets_delete (hd : d.store.Sound) :
    Meets now d provider ((user.filter (· ≠ "")).map headerText) id .remove
      (delete ⟨some d, provider⟩ user id) := by
  refine meets_withUser fun u => ?_
  cases he : d.store.find? id with
  | none =>
    refine meets_withDesk ?_ (.unknown rfl he)
    rw [Desk.delete_of_none he, ← refusal_eq_document]
    rfl
  | some e =>
    by_cases hu : e.session.user = u
    · subst hu
      have hmet : Met now d (some e.session.user) id .remove
          ((d.locked id).store.delete id).sessions 200 (.object [("id", .text id)]) := by
        show Met now d _ id .remove ((d.locked id).store.sessions.erase id) 200 _
        rw [Desk.sessions_locked]
        exact .removed rfl he
      exact meets_withDesk (by rw [Desk.delete_of_user hd he rfl]) hmet
    · refine meets_withDesk ?_ (.foreign rfl he hu)
      rw [Desk.delete_of_other he hu, ← refusal_eq_document]
      rfl

/-- **How a request about a session is met.** -/
theorem met_handle (hd : d.store.Sound) (hne : id ≠ "") (hslash : '/' ∉ id.toList) (now : Instant)
    (provider : Option (Provider α)) {r : Request} (h : r.Asks a id) :
    Meets now d provider r.signedIn? id a (handle now ⟨some d, provider⟩ r) := by
  have hroute : Route.ofTarget r.target = .known (a.endpoint id) := by
    unfold Route.ofTarget
    rw [h.path, ofPath_path a hne hslash]
  unfold handle
  rw [hroute]
  dsimp only
  rw [h.method, if_pos (a.method_mem id)]
  cases a with
  | view =>
    have hmethod : r.method ≠ "DELETE" := by rw [h.method]; exact (by decide : "GET" ≠ "DELETE")
    show Meets _ _ _ _ _ _ (if r.method = "DELETE" then _ else _)
    rw [if_neg hmethod]
    exact meets_get
  | remove =>
    have hmethod : r.method = "DELETE" := h.method
    show Meets _ _ _ _ _ _ (if r.method = "DELETE" then _ else _)
    rw [if_pos hmethod]
    exact meets_delete hd
  | stop => exact meets_stop hd
  | update data =>
    obtain ⟨hdata, fields, hbody, rfl⟩ := h.body data rfl
    show Meets _ _ _ _ _ _ (update now _ r.user id (.read r.body))
    rw [hbody]
    exact meets_updateWith hd hdata

end Service

/-! ### What the ways have in common -/

namespace Met

variable {now : Instant} {d : Desk α} {caller : Option String} {id : String} {a : Access α}
  {sessions : Table (Stored α)} {status : Nat} {v : Value α}

/-- **The status is decided by the four checks,** in their order. -/
theorem status_eq (h : Met now d caller id a sessions status v) :
    status = a.status d caller id := by
  unfold Access.status
  cases h with
  | unsigned hu => rw [hu]
  | unknown hu he => rw [hu, he]
  | foreign hu he hne => simp only [hu, he, if_pos hne]
  | inactive hu he hs => simp [hu, he, hs]
  | updated hu he hs => simp [hu, he, hs]
  | viewed hu he | stopped hu he | removed hu he => simp [hu, he]

/-- **Whatever is refused has changed nothing.** -/
theorem sessions_of_refused (h : Met now d caller id a sessions status v) (hs : status ≠ 200) :
    sessions = d.store.sessions := by
  cases h with
  | unsigned | unknown | foreign | inactive => rfl
  | viewed | updated | stopped | removed => exact absurd rfl hs

theorem sessions_of_view (h : Met now d caller id .view sessions status v) :
    sessions = d.store.sessions := by
  cases h <;> rfl

theorem sessions_of_remove (h : Met now d caller id .remove sessions status v)
    (hs : status = 200) : sessions = d.store.sessions.erase id := by
  cases h with
  | unsigned | unknown | foreign => cases hs
  | removed => rfl

end Met

/-- **How requests about one session are answered.**  In every state of the service, a request to
show, stop, update or remove a session is answered 401 without a user, else 404 if nothing is stored
under the identifier, else 403 if someone else owns the session, else 409 if it is an update and the
session is stopped, and else 200, provided that what is answered can be rendered.  No other answer
than 200 has changed a session, and being shown never has.  An answered removal has removed the session
and no other one; whatever happens later, whoever asks for it is answered 404, until a session is
created under its identifier. -/
theorem access_answered (strategies : List (Strategy α)) (defaults : Defaults α)
    (provider : Option (Provider α)) (events : List (Instant × Event α)) (now : Instant)
    {r : Request} {a : Access α} {id : String} (hne : id ≠ "") (hslash : '/' ∉ id.toList)
    (hasks : r.Asks a id) : ∃ d d' response v,
      (Service.opened strategies defaults provider).after events = ⟨some d, provider⟩ ∧
      Service.handle now ⟨some d, provider⟩ r = (⟨some d', provider⟩, response) ∧
      Met now d r.signedIn? id a d'.store.sessions (a.status d r.signedIn? id) v ∧
      response = .document (a.status d r.signedIn? id) v ∧
      (isRenderable (published v) = true → response.status = a.status d r.signedIn? id) ∧
      (a.status d r.signedIn? id ≠ 200 → d'.store.sessions = d.store.sessions) ∧
      (a = .view → d'.store.sessions = d.store.sessions) ∧
      (a = .remove → a.status d r.signedIn? id = 200 →
        d'.store.sessions = d.store.sessions.erase id ∧
        ∀ later : List (Instant × Event α),
          (∃ d'', Service.after ⟨some d', provider⟩ later = ⟨some d'', provider⟩ ∧
            d''.store.find? id = none ∧
            ∀ now' (r' : Request) (b : Access α) u, r'.Asks b id → r'.signedIn? = some u →
              ∃ v', (Service.handle now' ⟨some d'', provider⟩ r').2 = .document 404 v') ∨
          ∃ kept now' event rest d'' user strategy options e,
            later = kept ++ (now', event) :: rest ∧
            event.operation? provider = some (.create (some user) strategy options) ∧
            Service.after ⟨some d', provider⟩ (kept ++ [(now', event)]) = ⟨some d'', provider⟩ ∧
            d''.store.find? id = some e) := by
  obtain ⟨d, hafter, hd⟩ := Service.sound_opened strategies defaults provider events
  obtain ⟨d', status, v, hhandle, hmet⟩ := Service.met_handle hd hne hslash now provider hasks
  obtain rfl := hmet.status_eq
  refine ⟨d, d', _, v, hafter, hhandle, hmet, rfl, status_document _, hmet.sessions_of_refused,
    ?_, ?_⟩
  · rintro rfl
    exact hmet.sessions_of_view
  · rintro rfl hstatus
    have herased := hmet.sessions_of_remove hstatus
    have hd' : d'.store.Sound := Service.sound_handle hd hhandle
    have hfree : d'.store.find? id = none := by
      unfold Store.find?
      rw [herased, Table.find?_erase_self]
    refine ⟨herased, fun later => ?_⟩
    rcases Service.after_of_free hd' hfree later with ⟨d'', hafter', hgone⟩ | hcreated
    · refine .inl ⟨d'', hafter', hgone, fun now' r' b u hasks' hu => ?_⟩
      obtain ⟨_, _, v', hanswer, hmet'⟩ := Service.met_handle (Service.sound_after hd' hafter') hne
        hslash now' provider hasks'
      obtain rfl := hmet'.status_eq
      refine ⟨v', ?_⟩
      rw [hanswer, hu]
      simp only [Access.status, hgone]
    · exact .inr hcreated

/-- A user has created a session and stopped it. -/
def ended : List (Instant × Event Float) :=
  [(⟨0⟩, .operation (.create (some "ada") "steady" .null)),
    (⟨1⟩, .operation (.stop "ada-steady-0" none))]

/-- A request to update it with some market data. -/
def updateRequest : Request :=
  ⟨"PUT", "/paper-trading/ada%2dsteady-0/update", some "ada",
    some "\x7b\"marketData\": \x7b\"SPY\": 10\x7d\x7d"⟩

/-- A request to remove it. -/
def removeRequest : Request := ⟨"DELETE", "/paper-trading/ada-steady-0", some "ada", none⟩

/-- A request of someone else to be shown it. -/
def viewRequest : Request := ⟨"GET", "/paper-trading/ada-steady-0", some "bob", none⟩

/-- An update of a stopped session is refused and changes nothing.  Its owner removes it, and then it
is unknown to everyone else. -/
theorem access_answered_of_ended : ∃ (d d' d'' : Desk Float) (refused removed : Response Float)
    (v : Value Float), (Service.opened [Desk.steady Desk.buyAndTrim] .standard none).after ended =
      ⟨some d, none⟩ ∧ d.store.sessions.keys = ["ada-steady-0"] ∧
    Service.handle ⟨2⟩ ⟨some d, none⟩ updateRequest = (⟨some d', none⟩, refused) ∧
    refused.status = 409 ∧ d'.store.sessions = d.store.sessions ∧
    Service.handle ⟨3⟩ ⟨some d, none⟩ removeRequest = (⟨some d'', none⟩, removed) ∧
    d''.store.sessions = d.store.sessions.erase "ada-steady-0" ∧
    (Service.handle ⟨4⟩ ⟨some d'', none⟩ viewRequest).2 = .document 404 v := by
  have hstored : ((Service.opened [Desk.steady Desk.buyAndTrim] (.standard : Defaults Float)
      none).after ended).desk.any (fun d => d.store.sessions.keys = ["ada-steady-0"] &&
        (d.store.find? "ada-steady-0").any fun e =>
          e.session.user = "ada" ∧ e.session.status = .stopped) = true := by decide +kernel
  have hbody : ((Body.read (α := Float) updateRequest.body).fields?.any fun fields =>
      !(Value.get fields "marketData").isNull) = true := by decide +kernel
  obtain ⟨fields, hread, hgiven⟩ := (Option.any_eq_true _ _).mp hbody
  have hpath : percentDecode updateRequest.target.toList =
      ("/paper-trading/" ++ "ada-steady-0" ++ ("/" ++ "update")).toList := by decide +kernel
  have hupdate : updateRequest.Asks (.update (Value.get fields "marketData")) "ada-steady-0" :=
    ⟨hpath, rfl, fun _ h => by
      cases h
      exact ⟨by simpa using hgiven, fields, Body.eq_object_of_fields? hread, rfl⟩⟩
  have hremove : removeRequest.Asks (α := Float) .remove "ada-steady-0" :=
    ⟨by decide +kernel, rfl, fun _ h => nomatch h⟩
  have hview : viewRequest.Asks (α := Float) .view "ada-steady-0" :=
    ⟨by decide +kernel, rfl, fun _ h => nomatch h⟩
  have hada : updateRequest.signedIn? = some "ada" := by decide +kernel
  have hada' : removeRequest.signedIn? = some "ada" := by decide +kernel
  have hbob : viewRequest.signedIn? = some "bob" := by decide +kernel
  obtain ⟨d, d', refused, v, hafter, hrefused, hmet, -, hstatus, hkept, -⟩ := access_answered
    [Desk.steady Desk.buyAndTrim] .standard none ended ⟨2⟩ (by decide) (by decide +kernel) hupdate
  obtain ⟨d₁, d'', removed, v', hafter', hremoved, -, -, -, -, -, hgone⟩ := access_answered
    [Desk.steady Desk.buyAndTrim] .standard none ended ⟨3⟩ (by decide) (by decide +kernel) hremove
  cases hafter.symm.trans hafter'
  rw [hafter] at hstored
  obtain ⟨hkeys, hfound⟩ := Bool.and_eq_true_iff.mp hstored
  obtain ⟨e, he, hdec⟩ := (Option.any_eq_true _ _).mp hfound
  obtain ⟨huser, hs⟩ := of_decide_eq_true hdec
  have hinactive : (Access.update (Value.get fields "marketData")).status d
      updateRequest.signedIn? "ada-steady-0" = 409 := by
    simp [Access.status, hada, he, huser, hs]
  have hown : Access.remove.status d removeRequest.signedIn? "ada-steady-0" = 200 := by
    simp [Access.status, hada', he, huser]
  rw [hinactive] at hmet hstatus hkept
  obtain ⟨herased, hlater⟩ := hgone rfl hown
  -- nothing has happened since the removal, so that nothing has been created
  obtain ⟨d₂, hnow, -, hunknown⟩ := (hlater []).resolve_right fun ⟨kept, _, _, _, h⟩ => by
    obtain ⟨_, _, _, _, _, hnil, -⟩ := h
    simp at hnil
  cases hnow
  obtain ⟨w, hanswer⟩ := hunknown ⟨4⟩ viewRequest .view "bob" hview hbob
  refine ⟨d, d', d'', refused, removed, w, hafter, of_decide_eq_true hkeys, hrefused, hstatus ?_,
    hkept (by decide), hremoved, herased, hanswer⟩
  generalize d'.store.sessions = sessions at hmet
  cases hmet
  decide +kernel

end PaperTrading.Http
