import PaperTrading.Proofs.Http.Creation
import PaperTrading.Proofs.Http.Statuses

/-!
# Whether a session can be addressed

A session that has been created is to be shown, stopped and removed under its identifier.  The
identifier is a segment of the path of such a request, and it is made of the names of the user and the
strategy as they are.  If there is a slash in it, no request reaches the session.

* `Addressable`: the requests of the owner reach the session.
* `addressable_of_no_slash`, `handle_of_slash`: what a slash decides.
* `created_addressable_iff`: **a created session can be addressed exactly if neither its user nor its
  strategy has a slash in its name.**
* `session_out_of_reach`: a session that cannot be addressed.
-/

namespace PaperTrading.Http

variable {α : Type} [Arith α]

/-- What a request of the owner of a session is answered, and what is stored then. -/
def Reaches (provider : Option (Provider α)) (d : Desk α) (e : Stored α) (a : Access α)
    (document : Instant → Value α) (sessions : Instant → Table (Stored α)) : Prop :=
  ∀ now (r : Request), r.Asks a e.session.id → r.signedIn? = some e.session.user → ∃ d',
    Service.handle now ⟨some d, provider⟩ r =
      (⟨some d', provider⟩, .document 200 (document now)) ∧
    d'.store.sessions = sessions now

/-- **The owner of a session reaches it:** asked for, it is shown; a stop and a removal are of this
session and of no other one. -/
structure Addressable (provider : Option (Provider α)) (d : Desk α) (e : Stored α) : Prop where
  viewed : Reaches provider d e .view (fun _ => e.session.toValue) fun _ => d.store.sessions
  stopped : Reaches provider d e .stop (fun now => (Desk.stopped now e.session).toValue) fun now =>
    d.store.sessions.insert e.session.id ⟨e.ticket, Desk.stopped now e.session⟩
  removed : Reaches provider d e .remove (fun _ => .object [("id", .text e.session.id)]) fun _ =>
    d.store.sessions.erase e.session.id

variable {d : Desk α} {e : Stored α} {provider : Option (Provider α)} {now : Instant}

/-! ### Without a slash -/

/-- A request of the owner is met as it is for the owner. -/
theorem reaches_of_met (hd : d.store.Sound) (hne : e.session.id ≠ "")
    (hslash : '/' ∉ e.session.id.toList) {a : Access α}
    {document : Instant → Value α} {sessions : Instant → Table (Stored α)}
    (ha : a.status d (some e.session.user) e.session.id = 200)
    (h : ∀ now stored v, Met now d (some e.session.user) e.session.id a stored 200 v →
      v = document now ∧ stored = sessions now) :
    Reaches provider d e a document sessions := by
  intro now r hasks hu
  obtain ⟨d', status, v, hhandle, hmet⟩ := Service.met_handle hd hne hslash now provider hasks
  obtain rfl := hmet.status_eq
  rw [hu, ha] at hmet
  obtain ⟨rfl, hstored⟩ := h now _ v hmet
  exact ⟨d', by rw [hhandle, hu, ha], hstored⟩

/-- **A stored session without a slash in its identifier** can be addressed. -/
theorem addressable_of_no_slash (hd : d.store.Sound) (he : d.store.find? e.session.id = some e)
    (hne : e.session.id ≠ "") (hslash : '/' ∉ e.session.id.toList) :
    Addressable provider d e where
  viewed := by
    refine reaches_of_met hd hne hslash (by simp [Access.status, he]) fun now stored v h => ?_
    cases h with
    | viewed _ he' =>
      cases he.symm.trans he'
      exact ⟨rfl, rfl⟩
  stopped := by
    refine reaches_of_met hd hne hslash (by simp [Access.status, he]) fun now stored v h => ?_
    cases h with
    | stopped _ he' =>
      cases he.symm.trans he'
      exact ⟨rfl, rfl⟩
  removed := by
    refine reaches_of_met hd hne hslash (by simp [Access.status, he]) fun now stored v h => ?_
    cases h with
    | removed => exact ⟨rfl, rfl⟩

/-! ### With a slash -/

/-- **No request reaches a session with a slash in its identifier.** -/
theorem handle_of_slash {id : String} (hslash : '/' ∈ id.toList) (hdigit : EndsWithDigit id)
    {r : Request} {a : Access α} (hasks : r.Asks a id) (s : Service α) :
    Service.handle now s r = (s, .refusal 404 "Not Found") := by
  obtain ⟨c, hlast, hc⟩ := hdigit
  unfold Service.handle Route.ofTarget
  rw [hasks.path, ofPath_path_of_slash a hslash hlast hc]

/-- A request without a body, at the address of a session. -/
def Access.request (a : Access α) (id : String) (user : Option String) : Request :=
  ⟨a.method, a.address id, user, none⟩

/-- An address is understood as what it was made for. -/
theorem Access.request_asks {a : Access α} (h : ∀ data, a ≠ .update data) (id : String)
    (user : Option String) : (a.request id user).Asks a id :=
  ⟨a.percentDecode_address id, rfl, fun data ha => absurd ha (h data)⟩

/-- **A session with a slash in its identifier** cannot be addressed. -/
theorem not_addressable_of_slash (hslash : '/' ∈ e.session.id.toList)
    (hdigit : EndsWithDigit e.session.id) {r : Request}
    (hu : r.signedIn? = some e.session.user) : ¬ Addressable provider d e := by
  intro h
  have hasks := Access.request_asks (α := α) (a := .view) nofun e.session.id r.user
  obtain ⟨d', hhandle, -⟩ := h.viewed ⟨0⟩ _ hasks hu
  rw [handle_of_slash hslash hdigit hasks] at hhandle
  have hunknown : (Response.refusal 404 "Not Found" : Response α).status = 404 := by
    unfold Response.refusal
    rw [if_pos (by decide +kernel)]
  have hanswer := congrArg (·.2.status) hhandle
  dsimp only at hanswer
  rw [hunknown] at hanswer
  exact status_document_ne (by decide) (by decide) _ hanswer.symm

/-! ### Sessions that have been created -/

/-- **Which created sessions can be addressed.**  In every state of the service, a request that creates
a session and is answered 201 has stored the session that the answer shows.  Whatever happens then, the
session stays stored until its owner removes it, and its owner reaches it under its identifier exactly
if neither the user nor the strategy that was asked for has a slash in its name.  If one of them has,
then no request about the session, by whomever, is answered with anything but 404. -/
theorem created_addressable_iff (strategies : List (Strategy α)) (defaults : Defaults α)
    (provider : Option (Provider α)) (events : List (Instant × Event α)) (now : Instant)
    {r : Request} {fields : Table (Value α)} (h : r.Creates fields) : ∃ d d' response,
      (Service.opened strategies defaults provider).after events = ⟨some d, provider⟩ ∧
      Service.handle now ⟨some d, provider⟩ r = (⟨some d', provider⟩, response) ∧
      (response.status = 201 → ∃ s : Session α,
        r.signedIn? = some s.user ∧ response = .document 201 s.toValue ∧
        d.store.find? s.id = none ∧ d'.store.find? s.id = some ⟨d.store.next, s⟩ ∧
        ('/' ∈ s.id.toList ↔ '/' ∈ s.user.toList ∨
          '/' ∈ (Value.get fields "strategyId").display.toList) ∧
        (∀ later : List (Instant × Event α),
          (∃ d'' s', Service.after ⟨some d', provider⟩ later = ⟨some d'', provider⟩ ∧
            d''.store.find? s.id = some ⟨d.store.next, s'⟩ ∧ s'.charter = s.charter ∧
            (Addressable provider d'' ⟨d.store.next, s'⟩ ↔ '/' ∉ s.id.toList)) ∨
          ∃ kept now' event rest, later = kept ++ (now', event) :: rest ∧
            event.operation? provider = some (.delete s.id (some s.user))) ∧
        ('/' ∈ s.id.toList → ∀ (service : Service α) now' (r' : Request) (a : Access α),
          r'.Asks a s.id →
            Service.handle now' service r' = (service, .refusal 404 "Not Found"))) := by
  obtain ⟨d, hafter, hd⟩ := Service.sound_opened strategies defaults provider events
  obtain ⟨d', response, hhandle, hanswer⟩ := Service.answers_creation now d provider h
  refine ⟨d, d', response, hafter, hhandle, fun hstatus => ?_⟩
  obtain ⟨s, hopens, hstored, rfl⟩ := hanswer.opens_of_created hstatus
  obtain ⟨huser, hfree, hid⟩ := hopens.2.2.free
  have hd' : d'.store.Sound := Service.sound_handle hd hhandle
  have hs : d'.store.find? s.id = some ⟨d.store.next, s⟩ := by
    unfold Store.find?
    rw [hstored, Table.find?_insert_self]
  have hdigit : EndsWithDigit s.id := by
    rw [hid]
    exact d.store.endsWithDigit_freeId _ _ _ _
  refine ⟨s, huser, rfl, hfree, hs, ?_, fun later => ?_, fun hslash service now' r' a hasks =>
    handle_of_slash hslash hdigit hasks service⟩
  · rw [hid]
    exact d.store.slash_mem_freeId _ _ _ _
  · rcases Service.after_of_stored hd' hs later with
      ⟨d'', s', hlater, hd'', hs', hcharter⟩ | hremoved
    · have hid' : s'.id = s.id := congrArg (·.1) hcharter
      have huser' : s'.user = s.user := congrArg (·.2.1) hcharter
      rw [← hid'] at hs' hdigit ⊢
      refine .inl ⟨d'', s', hlater, hs', hcharter, fun haddress hslash => ?_, fun hslash => ?_⟩
      · exact not_addressable_of_slash hslash hdigit (huser.trans (by rw [huser'])) haddress
      · exact addressable_of_no_slash hd'' hs' hdigit.ne_empty hslash
    · exact .inr hremoved

/-- A session of a user and a strategy without slashes is created and can be addressed. -/
theorem created_addressable_of_steady : ∃ (d d' : Desk Float) (s : Session Float),
    Service.opened [Desk.steady Desk.buyAndTrim] .standard none = ⟨some d, none⟩ ∧
    Service.handle ⟨0⟩ ⟨some d, none⟩ createRequest =
      (⟨some d', none⟩, .document 201 s.toValue) ∧
    s.user = "ada" ∧ Addressable none d' ⟨d.store.next, s⟩ := by
  have hbody : ((Body.read (α := Float) createRequest.body).fields?.any fun fields =>
      (Value.get fields "strategyId").display = "steady") = true := by decide +kernel
  have hstatus : (Service.handle ⟨0⟩ (Service.opened [Desk.steady Desk.buyAndTrim]
      (.standard : Defaults Float) none) createRequest).2.status = 201 := by decide +kernel
  obtain ⟨fields, hread, hdec⟩ := (Option.any_eq_true _ _).mp hbody
  have hstrategy := of_decide_eq_true hdec
  have hcreates : createRequest.Creates fields :=
    ⟨by decide +kernel, rfl, Body.eq_object_of_fields? hread⟩
  have hada : createRequest.signedIn? = some "ada" := by decide +kernel
  obtain ⟨d, d', response, hafter, hhandle, hcreated⟩ := created_addressable_iff
    [Desk.steady Desk.buyAndTrim] .standard none [] ⟨0⟩ hcreates
  replace hafter : Service.opened [Desk.steady Desk.buyAndTrim] .standard none =
    ⟨some d, none⟩ := hafter
  rw [hafter, hhandle] at hstatus
  obtain ⟨s, huser, rfl, -, hs, hslash, hlater, -⟩ := hcreated hstatus
  have huser : s.user = "ada" := Option.some.inj (huser.symm.trans hada)
  -- nothing has happened since, so that nothing has been removed
  obtain ⟨d'', s', hnow, hs', -, haddress⟩ := (hlater []).resolve_right fun ⟨_, _, _, _, h, _⟩ => by
    simp at h
  cases hnow
  cases hs.symm.trans hs'
  refine ⟨d, d', s, hafter, hhandle, huser, haddress.mpr ?_⟩
  rw [hslash, huser, hstrategy]
  decide +kernel

/-- A strategy with a slash in its name. -/
def halved : Strategy Float := { Desk.steady Desk.buyAndTrim with id := "a/b" }

/-- A request for a session of it. -/
def halvedRequest : Request :=
  ⟨"POST", "/paper-trading", some "ada", some "\x7b\"strategyId\": \"a/b\"\x7d"⟩

/-- What is left when a session of it has been created. -/
def halvedService : Service Float :=
  (Service.handle ⟨0⟩ (Service.opened [halved] .standard none) halvedRequest).1

/-- **A session that cannot be addressed.**  A session of a strategy with a slash in its name is
created, and its owner can neither be shown it nor stop nor remove it, although the address is
escaped. -/
theorem session_out_of_reach :
    (Service.handle ⟨0⟩ (Service.opened [halved] .standard none) halvedRequest).2.status = 201 ∧
    halvedService.desk.map (·.store.sessions.keys) = some ["ada-a/b-0"] ∧
    (Service.handle ⟨1⟩ halvedService
      ⟨"GET", "/paper-trading/ada-a%2fb-0", some "ada", none⟩).2.status = 404 ∧
    (Service.handle ⟨1⟩ halvedService
      ⟨"PUT", "/paper-trading/ada-a%2fb-0/stop", some "ada", none⟩).2.status = 404 ∧
    (Service.handle ⟨1⟩ halvedService
      ⟨"DELETE", "/paper-trading/ada-a%2fb-0", some "ada", none⟩).2.status = 404 := by
  decide +kernel

end PaperTrading.Http
