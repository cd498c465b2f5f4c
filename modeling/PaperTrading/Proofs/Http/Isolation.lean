import PaperTrading.Proofs.Desk.Listing
import PaperTrading.Proofs.Http.Operations

/-!
# Isolation of users

Users of the service do not get at the sessions of each other.  Identifiers of sessions are made of
those of their users, and two users may ask for the same; what a request changes and shows depends
on the owner of a session only.

* `Confined`, `confined_perform`: **what an operation for a user may change.**
* `users_isolated`: **what a request may change and show,** in every state of the service.
-/

namespace PaperTrading.Http

variable {α : Type} [Arith α]

/-! ### Changes for one user -/

/-- **What may change for a user** from one desk to another.  The sessions of the others are stored as
before; at most one identifier is affected, the one that is named or one that was free; and whatever
is stored afterwards was stored before, with the same charter, or is a new session of the user. -/
structure Confined (user : String) (named : Option String) (d d' : Desk α) : Prop where
  spares : ∀ id e, d.store.find? id = some e → e.session.user ≠ user → d'.store.find? id = some e
  frame : ∃ key, (named = some key ∨ d.store.find? key = none) ∧
    ∀ id, id ≠ key → d'.store.find? id = d.store.find? id
  origin : ∀ id e', d'.store.find? id = some e' →
    (∃ e, d.store.find? id = some e ∧ e'.ticket = e.ticket ∧
      e'.session.charter = e.session.charter) ∨
    d.store.find? id = none ∧ e'.session.user = user

variable {d : Desk α} {named : Option String} {user : String}

omit [Arith α] in
theorem confined_refl (d : Desk α) (named : Option String) (user : String) :
    Confined user named d d where
  spares := fun _ _ he _ => he
  frame := ⟨d.store.freeId "" 0, .inr (d.store.find?_freeId "" 0), fun _ _ => rfl⟩
  origin := fun _ e' he' => .inl ⟨e', he', rfl, rfl⟩

/-- **What an operation for a user may change.** -/
theorem confined_perform (hd : d.store.Sound) (now : Instant) {o : Operation α}
    (huser : o.user? = some user) (htarget : ∀ id, o.target? = some id → named = some id) :
    Confined user named d (d.perform now o) := by
  have heffect := Desk.effect_perform hd now o
  refine ⟨fun id e he hne => heffect.spares huser he hne, ?_, fun id e' he' => ?_⟩
  · obtain ⟨key, hkey, hframe⟩ := heffect.frame
    exact ⟨key, hkey.imp (htarget key) And.right, hframe⟩
  · rcases heffect.comes_from he' with ⟨e, he, ht, hadv⟩ | ⟨hnone, -, -, howner, -⟩
    · exact .inl ⟨e, he, ht, hadv.charter⟩
    · exact .inr ⟨hnone, (Option.some.inj (huser.symm.trans howner)).symm⟩

/-! ### Requests -/

/-- The answer to a request for the own sessions. -/
theorem handle_list (now : Instant) (provider : Option (Provider α)) {r : Request}
    (hroute : Route.ofTarget r.target = .known .sessions) (hmethod : r.method = "GET")
    (hcaller : r.caller? = some user) (hgiven : r.user ≠ some "") :
    Service.handle now ⟨some d, provider⟩ r = (⟨some d, provider⟩,
      .document 200 (.list ((d.list (some user)).map Session.toValue))) := by
  obtain ⟨raw, hraw, rfl⟩ := Option.map_eq_some_iff.mp hcaller
  have hfilter : r.user.filter (· ≠ "") = some raw := by
    rw [hraw] at hgiven ⊢
    have hne : raw ≠ "" := fun h => hgiven (by rw [h])
    simp [Option.filter, hne]
  unfold Service.handle
  rw [hroute]
  show (if Endpoint.sessions.methods.contains r.method then _ else _) = _
  rw [hmethod, if_pos (by decide)]
  show (if r.method = "POST" then _ else _) = _
  rw [hmethod, if_neg (by decide)]
  unfold Service.list Service.withUser
  rw [hfilter]
  rfl

/-- **Users are isolated.**  In every state of the service, a request that names a user changes no
session of another user, and of the own sessions at most the one that it names, or a new one;
whatever happens later, a session keeps its identifier, its user, its strategy, its initial capital,
its settings and its start.  Every session in the body of the response is one of the user, and a
request for the own sessions is answered with exactly these, each of them once, in the order of
their start and of their storing. -/
theorem users_isolated (strategies : List (Strategy α)) (defaults : Defaults α)
    (provider : Option (Provider α)) (events : List (Instant × Event α)) (now : Instant)
    (r : Request) (hcaller : r.caller? = some user) : ∃ d d' response,
      (Service.opened strategies defaults provider).after events = ⟨some d, provider⟩ ∧
      Service.handle now ⟨some d, provider⟩ r = (⟨some d', provider⟩, response) ∧
      Confined user r.named? d d' ∧
      (∀ id e, d.store.find? id = some e → ∀ later e', (d.run later).store.find? id = some e' →
        e'.ticket = e.ticket → e'.session.charter = e.session.charter) ∧
      (∀ w ∈ response.owners, w = .text user) ∧
      (Route.ofTarget r.target = .known .sessions → r.method = "GET" → r.user ≠ some "" →
        ∃ es : List (Stored α),
          response = .document 200 (.list (es.map fun e => e.session.toValue)) ∧
          (∀ e, e ∈ es ↔ e.session.user = user ∧ d.store.find? e.session.id = some e) ∧
          es.Pairwise fun a b => a.session.startTime ≤ b.session.startTime ∧
            (b.session.startTime ≤ a.session.startTime → a.ticket < b.ticket)) := by
  obtain ⟨history, hafter⟩ := Service.after_opened strategies defaults provider events
  have hd := Desk.run_sound strategies defaults history
  have ho := Desk.run_ordered strategies defaults history
  generalize (Desk.ofStrategies strategies defaults).run history = d at hafter hd ho
  have hanswered := Service.answered_handle hd now provider r
  rw [hcaller] at hanswered
  have hlist := fun hroute hmethod => handle_list (d := d) now provider hroute hmethod hcaller
  generalize hanswer : Service.handle now ⟨some d, provider⟩ r = answer at hanswered hlist
  have hcharters : ∀ id e, d.store.find? id = some e → ∀ later e',
      (d.run later).store.find? id = some e' → e'.ticket = e.ticket →
        e'.session.charter = e.session.charter :=
    fun id e he later e' he' ht => Desk.charter_of_ticket_eq hd he later he' ht
  -- what is shown follows from the owners in the body
  have hshown : ∀ {response : Response α}, response.ShowsOnly (some user) →
      ∀ w ∈ response.owners, w = .text user := fun hshows w hw => by
    obtain ⟨u, hu, rfl⟩ := hshows w hw
    rw [Option.some.inj hu]
  obtain ⟨es, hes, hmem, hsorted⟩ := Desk.list_eq hd ho user
  have hlisted : Route.ofTarget r.target = .known .sessions → r.method = "GET" →
      r.user ≠ some "" → answer.2 = .document 200 (.list (es.map fun e => e.session.toValue)) := by
    intro hroute hmethod hgiven
    rw [hlist hroute hmethod hgiven, hes, List.map_map]
    rfl
  cases hanswered with
  | kept hshows =>
    exact ⟨d, d, _, hafter, hanswer, confined_refl d _ _, hcharters, hshown hshows,
      fun h₁ h₂ h₃ => ⟨es, hlisted h₁ h₂ h₃, hmem, hsorted⟩⟩
  | performed huser htarget hshows =>
    exact ⟨d, _, _, hafter, hanswer, confined_perform hd now huser htarget, hcharters, hshown hshows,
      fun h₁ h₂ h₃ => ⟨es, hlisted h₁ h₂ h₃, hmem, hsorted⟩⟩

/-- A user has created a session. -/
def begun : List (Instant × Event Float) :=
  [(⟨0⟩, .operation (.create (some "ada") "steady" .null))]

/-- A request of another user to stop it. -/
def stopRequest : Request := ⟨"PUT", "/paper-trading/ada-steady-0/stop", some "bob", none⟩

/-- A request of its owner for the own sessions. -/
def listRequest : Request := ⟨"GET", "/paper-trading", some "ada", none⟩

/-- A stop by another user is refused and leaves the session as it is, and its owner is shown it. -/
theorem users_isolated_of_two_users : ∃ (d d' : Desk Float) (response : Response Float)
    (e : Stored Float), (Service.opened [Desk.steady Desk.buyAndTrim] .standard none).after begun =
      ⟨some d, none⟩ ∧ d.store.find? "ada-steady-0" = some e ∧
    Service.handle ⟨1⟩ ⟨some d, none⟩ stopRequest = (⟨some d', none⟩, response) ∧
    d'.store.find? "ada-steady-0" = some e ∧ response.status = 403 ∧
    ∃ (d'' : Desk Float) (es : List (Stored Float)),
      Service.handle ⟨1⟩ ⟨some d, none⟩ listRequest = (⟨some d'', none⟩,
        .document 200 (.list (es.map fun e => e.session.toValue))) ∧ e ∈ es := by
  have hstored : ((Service.opened [Desk.steady Desk.buyAndTrim] (.standard : Defaults Float)
      none).after begun).desk.any (fun d => (d.store.find? "ada-steady-0").any fun e =>
        e.session.user = "ada" ∧ e.session.id = "ada-steady-0") = true := by decide +kernel
  have hrefused : (Service.handle ⟨1⟩ ((Service.opened [Desk.steady Desk.buyAndTrim]
      (.standard : Defaults Float) none).after begun) stopRequest).2.status = 403 := by
    decide +kernel
  have hbob : stopRequest.caller? = some "bob" := by decide +kernel
  have hada : listRequest.caller? = some "ada" := by decide +kernel
  obtain ⟨d, d', response, hafter, hhandle, hconfined, -⟩ := users_isolated
    [Desk.steady Desk.buyAndTrim] .standard none begun ⟨1⟩ stopRequest hbob
  obtain ⟨d₁, d'', response', hafter', hhandle', -, -, -, hlist⟩ := users_isolated
    [Desk.steady Desk.buyAndTrim] .standard none begun ⟨1⟩ listRequest hada
  cases hafter.symm.trans hafter'
  rw [hafter] at hstored hrefused
  rw [hhandle] at hrefused
  obtain ⟨e, he, hdec⟩ := (Option.any_eq_true _ (d.store.find? "ada-steady-0")).mp hstored
  obtain ⟨huser, hid⟩ := of_decide_eq_true hdec
  obtain ⟨es, rfl, hmem, -⟩ := hlist (by decide +kernel) rfl (by decide)
  have hne : e.session.user ≠ "bob" := by rw [huser]; decide
  exact ⟨d, d', response, e, hafter, he, hhandle, hconfined.spares _ e he hne, hrefused, d'', es,
    hhandle', (hmem e).mpr ⟨huser, by rw [hid]; exact he⟩⟩

end PaperTrading.Http
