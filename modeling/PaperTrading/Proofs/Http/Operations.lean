import PaperTrading.Proofs.Desk.Lifetime
import PaperTrading.Proofs.Http.Answers

/-!
# Requests as operations

A request makes the desk perform one operation or none.  Which one it is can be told from the request
alone: the path, the method, the user and the body decide, and the state of the desk does not matter.
The states of a service are therefore the desks after the operations of its events.

* `Request.signedIn?`: the user on whose behalf a request is met.
* `Request.operation?`, `desk_handle`: **the operation that a request makes the desk perform.**
* `Event`, `Service.after`: what happens to a service.
* `Service.operations`, `after_eq_run`: **the desk after some events.**
* `Service.after_of_stored`, `Service.after_of_free`: what becomes of a stored session and of a free
  identifier.
-/

namespace PaperTrading

variable {α : Type} [Arith α]

/-- The desk after an operation, if there is one. -/
def Desk.performed (d : Desk α) (now : Instant) (o : Option (Operation α)) : Desk α :=
  o.elim d (d.perform now)

namespace Http

/-! ### The operation of a request -/

omit [Arith α] in
/-- The fields of a body that is an object. -/
def Body.fields? : Body α → Option (Table (Value α))
  | .object fields => some fields
  | _ => none

omit [Arith α] in
theorem Body.eq_object_of_fields? {body : Body α} {fields : Table (Value α)}
    (h : body.fields? = some fields) : body = .object fields := by
  cases body with
  | object => rw [Option.some.inj h]
  | missing | other | malformed | unreadable => cases h

/-- The user on whose behalf a request is met; an empty header names none. -/
def Request.signedIn? (r : Request) : Option String :=
  (r.user.filter (· ≠ "")).map Service.headerText

/-- The operation that creates a session as the fields of a body ask for it. -/
def creation? (fields : Table (Value α)) (u : String) : Option (Operation α) :=
  let strategy := Value.get fields "strategyId"
  if strategy.isTrue then some (.create (some u) strategy.display (.ofTable fields)) else none

omit [Arith α] in
/-- The operation that updates a session with given market data, or with fetched ones. -/
def refreshment? (provider : Option (Provider α)) (id : String) (data : Value α) (u : String) :
    Option (Operation α) :=
  if !data.isNull then some (.update id (.document data) (some u))
  else provider.map (.refresh id (some u))

/-- The operation that an endpoint makes the desk perform for a user. -/
def Endpoint.operation? (provider : Option (Provider α)) (method : String) (body : Body α)
    (e : Endpoint) (u : String) : Option (Operation α) :=
  match e, body with
  | .sessions, .object fields => if method = "POST" then creation? fields u else none
  | .update id, .missing => refreshment? provider id .null u
  | .update id, .object fields => refreshment? provider id (Value.get fields "marketData") u
  | .session id, _ => if method = "DELETE" then some (.delete id (some u)) else none
  | .stop id, _ => some (.stop id (some u))
  | _, _ => none

/-- **The operation that a request makes the desk perform,** if it does so. -/
def Request.operation? (provider : Option (Provider α)) (r : Request) : Option (Operation α) :=
  match Route.ofTarget r.target with
  | .known e =>
    if e.methods.contains r.method then
      r.signedIn?.bind (e.operation? provider r.method (.read r.body))
    else none
  | .moved | .unknown => none

namespace Service

variable {now : Instant} {d : Desk α} {provider : Option (Provider α)} {user : Option String}
  {id : String}

omit [Arith α] in
theorem withUser_of_some {s : Service α} {raw : String} (h : user.filter (· ≠ "") = some raw)
    (k : String → Service α × Response α) : s.withUser user k = k (headerText raw) := by
  unfold withUser; rw [h]

omit [Arith α] in
theorem withUser_of_none {s : Service α} (h : user.filter (· ≠ "") = none)
    (k : String → Service α × Response α) :
    s.withUser user k = (s, .refusal 401 "Missing X-User-Id header") := by
  unfold withUser; rw [h]

/-- What is performed for a user that is named is performed for the request. -/
theorem desk_withUser {k : String → Service α × Response α} {o : String → Option (Operation α)}
    (h : ∀ u, (k u).1 = ⟨some (d.performed now (o u)), provider⟩) :
    (withUser ⟨some d, provider⟩ user k).1 =
      ⟨some (d.performed now (((user.filter (· ≠ "")).map headerText).bind o)), provider⟩ := by
  cases hu : user.filter (· ≠ "") with
  | none => rw [withUser_of_none hu]; rfl
  | some raw => rw [withUser_of_some hu]; exact h _

theorem desk_withDesk {k : Desk α → Desk α × Response α} {o : Option (Operation α)}
    (h : (k d).1 = d.performed now o) :
    (withDesk ⟨some d, provider⟩ k).1 = ⟨some (d.performed now o), provider⟩ :=
  congrArg (fun d => (⟨some d, provider⟩ : Service α)) h

/-- Nothing is performed where nobody makes the desk perform anything. -/
theorem desk_nothing (user : Option String) :
    (⟨some d, provider⟩ : Service α) =
      ⟨some (d.performed now (user.bind fun _ => none)), provider⟩ := by
  rw [Option.bind_fun_none]
  rfl

theorem desk_create (body : Body α) :
    (create now ⟨some d, provider⟩ user body).1 =
      ⟨some (d.performed now (((user.filter (· ≠ "")).map headerText).bind
        (Endpoint.operation? provider "POST" body .sessions))), provider⟩ := by
  cases body with
  | object fields =>
    refine desk_withUser fun u => ?_
    show _ = (⟨some (d.performed now (creation? fields u)), provider⟩ : Service α)
    unfold creation?
    dsimp only
    split
    · refine desk_withDesk ?_
      split
      all_goals next hr => exact (congrArg Prod.fst hr).symm
    · rfl
  | missing | other | malformed | unreadable => exact desk_nothing _

theorem desk_updateWith (data : Value α) :
    (updateWith now ⟨some d, provider⟩ user id data).1 =
      ⟨some (d.performed now (((user.filter (· ≠ "")).map headerText).bind
        (refreshment? provider id data))), provider⟩ := by
  refine desk_withUser fun u => desk_withDesk ?_
  unfold refreshment?
  dsimp only
  split
  · exact answer_fst _
  · cases provider with
    | none => rfl
    | some provider => exact answer_fst _

theorem desk_update (method : String) (body : Body α) :
    (update now ⟨some d, provider⟩ user id body).1 =
      ⟨some (d.performed now (((user.filter (· ≠ "")).map headerText).bind
        (Endpoint.operation? provider method body (.update id)))), provider⟩ := by
  cases body with
  | missing | object => exact desk_updateWith _
  | other | malformed | unreadable => exact desk_nothing _

theorem desk_delete :
    (delete ⟨some d, provider⟩ user id).1 = ⟨some (d.performed now
      (((user.filter (· ≠ "")).map headerText).bind fun u => some (.delete id (some u)))),
        provider⟩ := by
  refine desk_withUser fun u => desk_withDesk ?_
  split
  all_goals next hr => exact (congrArg Prod.fst hr).symm

theorem desk_dispatch (r : Request) (e : Endpoint) :
    (dispatch now ⟨some d, provider⟩ r e).1 = ⟨some (d.performed now
      (r.signedIn?.bind (e.operation? provider r.method (.read r.body)))), provider⟩ := by
  cases e with
  | health | page => exact desk_nothing _
  | sessions =>
    show (if r.method = "POST" then _ else _ : Service α × Response α).1 = _
    by_cases hpost : r.method = "POST"
    · rw [if_pos hpost, hpost]
      exact desk_create _
    · rw [if_neg hpost]
      refine desk_withUser fun u => desk_withDesk ?_
      unfold Endpoint.operation?
      cases Body.read (α := α) r.body with
      | object => dsimp only; rw [if_neg hpost]; rfl
      | missing | other | malformed | unreadable => rfl
  | session id =>
    show (if r.method = "DELETE" then _ else _ : Service α × Response α).1 = _
    by_cases hdelete : r.method = "DELETE"
    · rw [if_pos hdelete, hdelete]
      exact desk_delete
    · rw [if_neg hdelete]
      refine desk_withUser fun u => desk_withDesk ?_
      unfold Endpoint.operation?
      dsimp only
      rw [if_neg hdelete, answer_fst]
      rfl
  | update id => exact desk_update r.method _
  | stop id => exact desk_withUser fun u => desk_withDesk (answer_fst _)

/-- **What a request makes of the desk** is what its operation does. -/
theorem desk_handle (now : Instant) (d : Desk α) (provider : Option (Provider α)) (r : Request) :
    (handle now ⟨some d, provider⟩ r).1 =
      ⟨some (d.performed now (r.operation? provider)), provider⟩ := by
  unfold handle Request.operation?
  cases Route.ofTarget r.target with
  | unknown | moved => rfl
  | known e =>
    dsimp only
    split
    · exact desk_dispatch r e
    · rfl

end Service

/-! ### The states of a service -/

/-- **What happens to a service:** a request, or an operation behind its back, as when a strategy is
added. -/
inductive Event (α : Type) where
  | request (r : Request)
  | operation (o : Operation α)

namespace Service

omit [Arith α] in
/-- A service that opens, with strategies and without sessions. -/
def opened (strategies : List (Strategy α)) (defaults : Defaults α)
    (provider : Option (Provider α)) : Service α :=
  ⟨some (.ofStrategies strategies defaults), provider⟩

/-- The service after an event. -/
def next (now : Instant) (s : Service α) : Event α → Service α
  | .request r => (s.handle now r).1
  | .operation o => { s with desk := s.desk.map (·.perform now o) }

/-- **The service after some events,** each at its moment. -/
def after (s : Service α) (events : List (Instant × Event α)) : Service α :=
  events.foldl (fun s e => s.next e.1 e.2) s

end Service

/-! ### The operations of events -/

/-- The operation that an event makes the desk perform. -/
def Event.operation? (provider : Option (Provider α)) : Event α → Option (Operation α)
  | .request r => r.operation? provider
  | .operation o => some o

namespace Service

/-- **The operations of some events,** each at its moment. -/
def operations (provider : Option (Provider α)) (events : List (Instant × Event α)) :
    List (Instant × Operation α) :=
  events.filterMap fun e => (e.2.operation? provider).map (e.1, ·)

variable {d : Desk α} {provider : Option (Provider α)} {id : String} {e : Stored α}

theorem next_eq_performed (now : Instant) (event : Event α) :
    next now ⟨some d, provider⟩ event =
      ⟨some (d.performed now (event.operation? provider)), provider⟩ := by
  cases event with
  | request r => exact desk_handle now d provider r
  | operation o => rfl

/-- **The desk after some events** is the one after their operations. -/
theorem after_eq_run (d : Desk α) (provider : Option (Provider α))
    (events : List (Instant × Event α)) : after ⟨some d, provider⟩ events =
      ⟨some (d.run (operations provider events)), provider⟩ := by
  induction events generalizing d with
  | nil => rfl
  | cons event events ih =>
    show after (next event.1 ⟨some d, provider⟩ event.2) events = _
    rw [next_eq_performed, ih]
    unfold operations Desk.performed
    cases ho : event.2.operation? provider with
    | none => simp [ho]
    | some o => simp [ho, Desk.run]

/-- **Every state of a service** is a desk that has performed some operations. -/
theorem after_opened (strategies : List (Strategy α)) (defaults : Defaults α)
    (provider : Option (Provider α)) (events : List (Instant × Event α)) :
    ∃ history, (opened strategies defaults provider).after events =
      ⟨some ((Desk.ofStrategies strategies defaults).run history), provider⟩ :=
  ⟨_, after_eq_run ..⟩

/-- In every state of a service the store is sound. -/
theorem sound_opened (strategies : List (Strategy α)) (defaults : Defaults α)
    (provider : Option (Provider α)) (events : List (Instant × Event α)) :
    ∃ d, (opened strategies defaults provider).after events = ⟨some d, provider⟩ ∧
      d.store.Sound := by
  obtain ⟨history, hafter⟩ := after_opened strategies defaults provider events
  exact ⟨_, hafter, Desk.run_sound strategies defaults history⟩

theorem sound_after {d' : Desk α} (hd : d.store.Sound) {events : List (Instant × Event α)}
    (h : after ⟨some d, provider⟩ events = ⟨some d', provider⟩) : d'.store.Sound := by
  rw [after_eq_run] at h
  cases h
  exact Desk.sound_run hd _

theorem sound_handle {d' : Desk α} {now : Instant} {r : Request} {response : Response α}
    (hd : d.store.Sound) (h : handle now ⟨some d, provider⟩ r = (⟨some d', provider⟩, response)) :
    d'.store.Sound :=
  have hnext : after ⟨some d, provider⟩ [(now, .request r)] = ⟨some d', provider⟩ :=
    congrArg Prod.fst h
  sound_after hd hnext

/-- An operation that is performed comes from one of the events. -/
theorem operations_split {events : List (Instant × Event α)} {now : Instant} {o : Operation α}
    {before rest : List (Instant × Operation α)}
    (h : operations provider events = before ++ (now, o) :: rest) :
    ∃ kept event later, events = kept ++ (now, event) :: later ∧
      operations provider kept = before ∧ event.operation? provider = some o := by
  obtain ⟨kept, more, rfl, hkept, hmore⟩ := List.filterMap_eq_append_iff.mp h
  obtain ⟨skipped, ⟨now', event⟩, later, rfl, hskipped, hevent, -⟩ :=
    List.filterMap_eq_cons_iff.mp hmore
  obtain ⟨o', ho', hpair⟩ := Option.map_eq_some_iff.mp hevent
  cases hpair
  refine ⟨kept ++ skipped, event, later, by simp, ?_, ho'⟩
  unfold operations
  rw [List.filterMap_append, hkept, List.filterMap_eq_nil_iff.mpr hskipped, List.append_nil]

/-- **A session that is stored stays stored** with its ticket and its charter, whatever happens to the
service, until its owner removes it. -/
theorem after_of_stored (hd : d.store.Sound) (he : d.store.find? id = some e)
    (later : List (Instant × Event α)) :
    (∃ d' s, after ⟨some d, provider⟩ later = ⟨some d', provider⟩ ∧ d'.store.Sound ∧
      d'.store.find? id = some ⟨e.ticket, s⟩ ∧ s.charter = e.session.charter) ∨
    ∃ kept now event rest, later = kept ++ (now, event) :: rest ∧
      event.operation? provider = some (.delete id (some e.session.user)) := by
  rw [after_eq_run]
  rcases Desk.run_of_stored (P := (·.charter = e.session.charter))
      (fun h hadv => hadv.charter.trans h) hd he rfl (operations provider later) with
    ⟨s, hs, hcharter⟩ | ⟨before, now, rest, _, hsplit, -⟩
  · exact .inl ⟨_, s, rfl, Desk.sound_run hd _, hs, hcharter⟩
  · obtain ⟨kept, event, rest', rfl, -, hevent⟩ := operations_split hsplit
    exact .inr ⟨kept, now, event, rest', rfl, hevent⟩

/-- **An identifier that is free stays free,** whatever happens to the service, until a session is
created under it. -/
theorem after_of_free (hd : d.store.Sound) (hfree : d.store.find? id = none)
    (later : List (Instant × Event α)) :
    (∃ d', after ⟨some d, provider⟩ later = ⟨some d', provider⟩ ∧ d'.store.find? id = none) ∨
    ∃ kept now event rest d' user strategy options e, later = kept ++ (now, event) :: rest ∧
      event.operation? provider = some (.create (some user) strategy options) ∧
      after ⟨some d, provider⟩ (kept ++ [(now, event)]) = ⟨some d', provider⟩ ∧
      d'.store.find? id = some e := by
  rcases Desk.run_of_free hd hfree (operations provider later) with
    hstill | ⟨before, now, user, strategy, options, rest, e, hsplit, -, he⟩
  · exact .inl ⟨_, after_eq_run .., hstill⟩
  · obtain ⟨kept, event, rest', rfl, rfl, hevent⟩ := operations_split hsplit
    refine .inr ⟨kept, now, event, rest', _, user, strategy, options, e, rfl, hevent,
      after_eq_run .., ?_⟩
    rw [show operations provider (kept ++ [(now, event)]) = operations provider kept ++
      [(now, .create (some user) strategy options)] by simp [operations, hevent],
      Desk.run_concat]
    exact he

end Service

end Http

end PaperTrading
