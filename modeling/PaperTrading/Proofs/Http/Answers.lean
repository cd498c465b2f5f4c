import PaperTrading.Http.Service
import PaperTrading.Proofs.Desk.Ownership

/-!
# How requests are answered

A request makes the desk do nothing, or one operation for the user that it names.  If it names a
session, then the operation is on no other one; and every session in the body of the response is
one of the user.

* `Request.caller?`, `Request.named?`: the user and the session that a request names.
* `Response.owners`: the owners of the sessions in a body.
* `refusal_eq_document`, `status_document`: a refusal is a document, and a document that can be
  rendered has its status.
* `Answered`, `answered_handle`: **how a request is answered.**
-/

namespace PaperTrading.Http

variable {α : Type}

/-! ### Requests -/

/-- The session that an endpoint is about. -/
def Endpoint.named? : Endpoint → Option String
  | .session id | .update id | .stop id => some id
  | .health | .sessions | .page => none

/-- The session that a request names. -/
def Request.named? (r : Request) : Option String :=
  match Route.ofTarget r.target with
  | .known e => e.named?
  | .moved | .unknown => none

/-- The user that a request names. -/
def Request.caller? (r : Request) : Option String := r.user.map Service.headerText

/-! ### Sessions in a body -/

/-- The owner in the document of a session. -/
def ownerOf? : Value α → Option (Value α)
  | .object fields => (fields.find? (·.1 == "userId")).map (·.2)
  | _ => none

/-- The owners of the sessions in a document, which is that of a session or a list of them. -/
def owners : Value α → List (Value α)
  | .list items => items.filterMap ownerOf?
  | v => (ownerOf? v).toList

/-- **The owners of the sessions in a body.** -/
def Response.owners (r : Response α) : List (Value α) :=
  match r.content with
  | .document v => Http.owners v
  | .text _ | .none => []

/-- **Every session in the body is one of the user.** -/
def Response.ShowsOnly (r : Response α) (user : Option String) : Prop :=
  ∀ w ∈ r.owners, ∃ u, user = some u ∧ w = .text u

theorem find?_publishedFields (fields : List (String × Value α)) {name : String}
    (h : isPrivate name = false) : ((publishedFields fields).find? (·.1 == name)).map (·.2) =
      ((fields.find? (·.1 == name)).map (·.2)).map published := by
  induction fields with
  | nil => rfl
  | cons f fields ih =>
    obtain ⟨k, v⟩ := f
    unfold publishedFields
    by_cases hk : k = name
    · subst hk; simp [h]
    · split
      · simpa [hk] using ih
      · simpa [hk] using ih

theorem ownerOf?_published (v : Value α) : ownerOf? (published v) = (ownerOf? v).map published := by
  cases v with
  | object fields => exact find?_publishedFields fields (by decide)
  | null | bool | int | num | text | list => rfl

theorem publishedItems_eq_map (items : List (Value α)) :
    publishedItems items = items.map published := by
  induction items with
  | nil => rfl
  | cons v items ih => rw [publishedItems, ih, List.map_cons]

/-- Publishing a document leaves the owners in it. -/
theorem owners_published (v : Value α) : owners (published v) = (owners v).map published := by
  cases v with
  | list items =>
    show (publishedItems items).filterMap ownerOf? = (items.filterMap ownerOf?).map published
    rw [publishedItems_eq_map, List.filterMap_map, List.map_filterMap]
    exact List.filterMap_congr fun v _ => ownerOf?_published v
  | object fields =>
    show (ownerOf? (published (.object fields))).toList = _
    rw [ownerOf?_published]
    show _ = (ownerOf? (.object fields)).toList.map published
    cases ownerOf? (.object fields) <;> rfl
  | null | bool | int | num | text => rfl

/-! ### Responses without sessions -/

theorem showsOnly_of_nil {r : Response α} (h : r.owners = []) (user : Option String) :
    r.ShowsOnly user := by
  intro w hw
  rw [h] at hw
  cases hw

theorem owners_refusal (status : Nat) (detail : String) :
    (Response.refusal status detail : Response α).owners = [] := by
  unfold Response.refusal
  split <;> rfl

theorem owners_ofFailure (f : Failure) : (Response.ofFailure f : Response α).owners = [] := by
  unfold Response.ofFailure
  split <;> first | exact owners_refusal _ _ | rfl

theorem owners_ofCreation (f : Failure) : (Response.ofCreation f : Response α).owners = [] := by
  unfold Response.ofCreation
  split
  · exact owners_ofFailure _
  · dsimp only
    split <;> split <;> first | exact owners_refusal _ _ | rfl

variable [Arith α]

theorem owners_rejection (body : Body α) : body.rejection.owners = [] := by
  unfold Body.rejection
  split
  · split <;> rfl
  · exact owners_refusal _ _
  · rfl

/-! ### Documents -/

/-- A document shows the owners in it, or cannot be rendered. -/
theorem showsOnly_document {v : Value α} {user : Option String} (status : Nat)
    (h : ∀ w ∈ owners v, ∃ u, user = some u ∧ w = .text u) :
    (Response.document status v).ShowsOnly user := by
  unfold Response.document
  dsimp only
  split
  · intro w hw
    have hpublished : w ∈ owners (published v) := hw
    rw [owners_published] at hpublished
    obtain ⟨w', hw', rfl⟩ := List.mem_map.mp hpublished
    obtain ⟨u, hu, rfl⟩ := h w' hw'
    exact ⟨u, hu, rfl⟩
  · exact showsOnly_of_nil rfl user

omit [Arith α] in
theorem ownerOf?_toValue (s : Session α) : ownerOf? s.toValue = some (.text s.user) := rfl

theorem showsOnly_session (status : Nat) (s : Session α) :
    (Response.document status s.toValue).ShowsOnly (some s.user) := by
  refine showsOnly_document status fun w hw => ⟨s.user, rfl, ?_⟩
  rw [show owners s.toValue = [.text s.user] from rfl] at hw
  exact List.mem_singleton.mp hw

theorem showsOnly_sessions (status : Nat) {ss : List (Session α)} {u : String}
    (h : ∀ s ∈ ss, s.user = u) :
    (Response.document status (.list (ss.map Session.toValue))).ShowsOnly (some u) := by
  refine showsOnly_document status fun w hw => ⟨u, rfl, ?_⟩
  obtain ⟨v, hv, hw⟩ := List.mem_filterMap.mp hw
  obtain ⟨s, hs, rfl⟩ := List.mem_map.mp hv
  rw [ownerOf?_toValue] at hw
  rw [← Option.some.inj hw, h s hs]

/-! ### Statuses -/

/-- The document of a refusal. -/
def explained (detail : String) : Value α := .object [("detail", .text detail)]

theorem refusal_eq_document (status : Nat) (detail : String) :
    (Response.refusal status detail : Response α) = .document status (explained detail) := by
  have hpublished : published (explained detail : Value α) = explained detail := rfl
  have hrenders : isRenderable (explained detail : Value α) = Text.isWhole detail := by
    have hname : Text.isWhole "detail" = true := by decide +kernel
    simp [explained, isRenderable, fieldsAreRenderable, hname]
  unfold Response.refusal Response.document
  dsimp only
  rw [hpublished, hrenders]
  rfl

/-- A document that can be rendered is answered with its status. -/
theorem status_document {v : Value α} (status : Nat) (h : isRenderable (published v) = true) :
    (Response.document status v).status = status := by
  unfold Response.document
  dsimp only
  rw [if_pos h]

/-- A document is answered with no other status, unless it ends in an internal error. -/
theorem status_document_ne {status other : Nat} (h : status ≠ other) (hother : other ≠ 500)
    (v : Value α) : (Response.document status v).status ≠ other := by
  by_cases hv : isRenderable (published v) = true
  · rw [status_document status hv]
    exact h
  · unfold Response.document
    dsimp only
    rw [if_neg hv]
    exact hother.symm

/-! ### Answers -/

/-- **How a request is answered** at a desk: nothing is done, or one operation for the caller, which
is on no other session than the one that is named. -/
inductive Answered (now : Instant) (d : Desk α) (provider : Option (Provider α))
    (caller named : Option String) : Service α × Response α → Prop
  | kept {response : Response α} (hshows : response.ShowsOnly caller) :
      Answered now d provider caller named (⟨some d, provider⟩, response)
  | performed {o : Operation α} {response : Response α} (huser : o.user? = caller)
      (htarget : ∀ id, o.target? = some id → named = some id)
      (hshows : response.ShowsOnly caller) :
      Answered now d provider caller named (⟨some (d.perform now o), provider⟩, response)

namespace Service

variable {now : Instant} {d : Desk α} {provider : Option (Provider α)} {user : Option String}
  {named : Option String} {u id : String}

theorem answered_refusal (caller : Option String) (status : Nat) (detail : String) :
    Answered now d provider caller named (⟨some d, provider⟩, .refusal status detail) :=
  .kept (showsOnly_of_nil (owners_refusal status detail) caller)

theorem answered_rejection (caller : Option String) (body : Body α) :
    Answered now d provider caller named (⟨some d, provider⟩, body.rejection) :=
  .kept (showsOnly_of_nil (owners_rejection body) caller)

/-- What is answered to a user that is named is answered to the request. -/
theorem answered_withUser {k : String → Service α × Response α}
    (h : ∀ u, user.map headerText = some u → Answered now d provider (some u) named (k u)) :
    Answered now d provider (user.map headerText) named (withUser ⟨some d, provider⟩ user k) := by
  unfold withUser
  cases hu : user.filter (· ≠ "") with
  | none => exact answered_refusal _ _ _
  | some raw =>
    have hraw : user.map headerText = some (headerText raw) := by
      rw [(Option.filter_eq_some_iff.mp hu).1, Option.map_some]
    rw [hraw]
    exact h _ hraw

/-- What is answered without a change of the desk. -/
theorem answered_asked {caller : Option String} {k : Desk α → Desk α × Response α}
    (hkept : (k d).1 = d) (hshows : (k d).2.ShowsOnly caller) :
    Answered now d provider caller named (withDesk ⟨some d, provider⟩ k) := by
  show Answered now d provider caller named (⟨some (k d).1, provider⟩, (k d).2)
  rw [hkept]
  exact .kept hshows

/-- What is answered after an operation for the caller. -/
theorem answered_performed {caller : Option String} {k : Desk α → Desk α × Response α}
    (o : Operation α) (hperform : (k d).1 = d.perform now o) (huser : o.user? = caller)
    (htarget : ∀ id, o.target? = some id → named = some id)
    (hshows : (k d).2.ShowsOnly caller) :
    Answered now d provider caller named (withDesk ⟨some d, provider⟩ k) := by
  show Answered now d provider caller named (⟨some (k d).1, provider⟩, (k d).2)
  rw [hperform]
  exact .performed huser htarget hshows

theorem answer_fst (r : Desk α × Except Failure (Session α)) : (answer r).1 = r.1 := by
  obtain ⟨d, f | s⟩ := r <;> rfl

theorem showsOnly_answer {r : Desk α × Except Failure (Session α)}
    (h : ∀ s, r.2 = .ok s → s.user = u) : (answer r).2.ShowsOnly (some u) := by
  obtain ⟨d, f | s⟩ := r
  · exact showsOnly_of_nil (owners_ofFailure _) _
  · rw [← h _ rfl]
    exact showsOnly_session 200 _

/-! ### Endpoints -/

theorem answered_create (body : Body α) :
    Answered now d provider (user.map headerText) named
      (create now ⟨some d, provider⟩ user body) := by
  unfold create
  split
  · next fields =>
    refine answered_withUser fun u _ => ?_
    dsimp only
    split
    · refine answered_performed (.create (some u) (Value.get fields "strategyId").display
        (.ofTable fields)) ?_ rfl (fun _ h => nomatch h) ?_
      · split
        · next hr => exact (congrArg Prod.fst hr).symm
        · next hr => exact (congrArg Prod.fst hr).symm
      · split
        · next hr =>
          rw [Desk.user_of_create (congrArg Prod.snd hr)]
          exact showsOnly_session 201 _
        · exact showsOnly_of_nil (owners_ofCreation _) _
    · exact answered_refusal _ _ _
  · exact answered_rejection _ _

theorem answered_list :
    Answered now d provider (user.map headerText) named (list ⟨some d, provider⟩ user) :=
  answered_withUser fun _ _ =>
    answered_asked rfl (showsOnly_sessions 200 fun _ hs => Desk.user_of_list hs)

theorem answered_get :
    Answered now d provider (user.map headerText) named (get ⟨some d, provider⟩ user id) :=
  answered_withUser fun _ _ =>
    answered_asked (answer_fst _) (showsOnly_answer fun _ hs => Desk.user_of_get hs)

theorem answered_updateWith (hd : d.store.Sound) (data : Value α) :
    Answered now d provider (user.map headerText) (some id)
      (updateWith now ⟨some d, provider⟩ user id data) := by
  refine answered_withUser fun u _ => ?_
  by_cases hdata : (!data.isNull) = true
  · refine answered_performed (.update id (.document data) (some u)) ?_ rfl (fun _ h => h) ?_
    · rw [if_pos hdata]
      exact answer_fst _
    · rw [if_pos hdata]
      exact showsOnly_answer fun s hs => Desk.user_of_update hd hs
  · cases provider with
    | none =>
      refine answered_asked ?_ ?_
      · rw [if_neg hdata]
      · rw [if_neg hdata]
        exact showsOnly_of_nil (owners_refusal 400 "marketData is required") _
    | some provider =>
      refine answered_performed (.refresh id (some u) provider) ?_ rfl (fun _ h => h) ?_
      · rw [if_neg hdata]
        exact answer_fst _
      · rw [if_neg hdata]
        exact showsOnly_answer fun s hs => Desk.user_of_refresh hd hs

theorem answered_update (hd : d.store.Sound) (body : Body α) :
    Answered now d provider (user.map headerText) (some id)
      (update now ⟨some d, provider⟩ user id body) := by
  unfold update
  split
  · exact answered_updateWith hd _
  · exact answered_updateWith hd _
  · exact answered_rejection _ _

theorem answered_stop (hd : d.store.Sound) :
    Answered now d provider (user.map headerText) (some id)
      (stop now ⟨some d, provider⟩ user id) :=
  answered_withUser fun u _ => answered_performed (.stop id (some u)) (answer_fst _) rfl
    (fun _ h => h) (showsOnly_answer fun _ hs => Desk.user_of_stop hd hs)

theorem answered_delete :
    Answered now d provider (user.map headerText) (some id)
      (delete ⟨some d, provider⟩ user id) := by
  refine answered_withUser fun u _ => ?_
  refine answered_performed (.delete id (some u)) ?_ rfl (fun _ h => h) ?_
  · split
    all_goals next hr => exact (congrArg Prod.fst hr).symm
  · split
    · exact showsOnly_document 200 fun _ hw => nomatch hw
    · exact showsOnly_of_nil (owners_refusal 404 "Paper trading session not found") _
    · exact showsOnly_of_nil (owners_ofFailure _) _

theorem answered_dispatch (hd : d.store.Sound) (r : Request) (e : Endpoint) :
    Answered now d provider r.caller? e.named? (dispatch now ⟨some d, provider⟩ r e) := by
  cases e with
  | health => exact .kept (showsOnly_document 200 fun _ hw => nomatch hw)
  | page => exact .kept (showsOnly_of_nil rfl _)
  | sessions =>
    show Answered now d provider _ _ (if r.method = "POST" then _ else _)
    split
    · exact answered_create _
    · exact answered_list
  | session id =>
    show Answered now d provider _ _ (if r.method = "DELETE" then _ else _)
    split
    · exact answered_delete
    · exact answered_get
  | update id => exact answered_update hd _
  | stop id => exact answered_stop hd

/-- **How a request is answered.** -/
theorem answered_handle (hd : d.store.Sound) (now : Instant) (provider : Option (Provider α))
    (r : Request) :
    Answered now d provider r.caller? r.named? (handle now ⟨some d, provider⟩ r) := by
  unfold handle Request.named?
  cases Route.ofTarget r.target with
  | unknown => exact answered_refusal _ _ _
  | moved => exact .kept (showsOnly_of_nil rfl _)
  | known e =>
    show Answered now d provider _ e.named? (if e.methods.contains r.method then _ else _)
    split
    · exact answered_dispatch hd r e
    · exact answered_refusal _ _ _

end Service

end PaperTrading.Http
