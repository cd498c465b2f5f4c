import PaperTrading.Proofs.Desk.Creation
import PaperTrading.Proofs.Http.Operations

/-!
# Requests that create sessions

A request that creates a session is answered with the session, or with the reason why there is none.
Options of a wrong type and symbols that are no texts are neither: they end in an internal error, the
latter after the session has been stored.

* `Request.Creates`, `handle_creates`: such a request, and what becomes of it.
* `AllOrNothing`: **one new session and 201, or none and 400, 401 or 403.**
* `Escapes`: the requests that are not answered like this.
* `creation_answered`: **there are no others.**
* `session_left_behind`: a session that nobody was told of.
-/

namespace PaperTrading.Http

variable {α : Type} [Arith α]

/-- **A request that creates a session,** with the fields of its body. -/
structure Request.Creates (r : Request) (fields : Table (Value α)) : Prop where
  route : Route.ofTarget r.target = .known .sessions
  method : r.method = "POST"
  body : Body.read r.body = .object fields

/-- The session that such a request opens, if it passes every check. -/
def Opens (now : Instant) (d : Desk α) (caller : Option String) (fields : Table (Value α))
    (s : Session α) : Prop :=
  caller ≠ none ∧ (Value.get fields "strategyId").isTrue = true ∧
    d.Opens now caller (Value.get fields "strategyId").display (.ofTable fields) s

/-- **The requests that end in an internal error:** the options cannot be read, or the session that is
opened has a symbol that is no text. -/
inductive Escapes (now : Instant) (d : Desk α) (caller : Option String)
    (fields : Table (Value α)) : Prop
  | unread (hcaller : caller ≠ none)
      (hstrategy : (Value.get fields "strategyId").isTrue = true)
      (h : Options.Unreadable fields)
  | unannounced {s : Session α} {v : Value α} (hopens : Opens now d caller fields s)
      (hv : v ∈ s.settings.symbols) (hnot : ¬ v.Textual)

/-- **All or nothing:** an answer with the status 201 and the document of one new session, which is
stored beside all others, or one with the status 400, 401 or 403 and nothing stored. -/
def AllOrNothing (d d' : Desk α) (status : Nat) (v : Value α) : Prop :=
  (status = 201 ∧ ∃ s : Session α, d.store.find? s.id = none ∧
    d'.store.sessions = d.store.sessions.insert s.id ⟨d.store.next, s⟩ ∧ v = s.toValue) ∨
  (status = 400 ∨ status = 401 ∨ status = 403) ∧ d'.store.sessions = d.store.sessions

/-! ### Answers -/

/-- All refusals but one are answered alike. -/
theorem isRefusal_of_ne : ∀ f : Failure, f ≠ .foreignStrategy →
    f.isRefusal = (f.isStrategy || f.isValue || match f with
      | .strategyNotFound _ => true
      | _ => false) := by
  intro f h
  unfold Failure.isRefusal
  congr 1
  split
  · rfl
  · exact absurd rfl h
  · split <;> simp_all

omit [Arith α] in
theorem ofCreation_of_ne {f : Failure} (h : f ≠ .foreignStrategy) :
    (Response.ofCreation f : Response α) = if f.isRefusal then
      .refusal 400 ("Failed to start paper trading session: " ++ f.message) else .internalError := by
  rw [isRefusal_of_ne f h]
  unfold Response.ofCreation
  split
  · exact absurd rfl h
  · rfl

/-- A failure with which a request is refused is answered 400 or 403. -/
theorem ofCreation_of_isRefusal {f : Failure} (h : f.isRefusal = true) : ∃ status detail,
    (status = 400 ∨ status = 401 ∨ status = 403) ∧
      (Response.ofCreation f : Response α) = .document status (explained detail) := by
  by_cases hf : f = .foreignStrategy
  · have hforeign : (Response.ofCreation f : Response α) = .refusal 403 f.message := by rw [hf]; rfl
    exact ⟨403, _, .inr (.inr rfl), hforeign.trans (refusal_eq_document _ _)⟩
  · rw [ofCreation_of_ne hf, if_pos h]
    exact ⟨400, _, .inl rfl, refusal_eq_document _ _⟩

omit [Arith α] in
/-- Any other failure is an internal error. -/
theorem ofCreation_of_not_isRefusal {f : Failure} (h : f.isRefusal = false) :
    (Response.ofCreation f : Response α) = .internalError := by
  have hf : f ≠ .foreignStrategy := by rintro rfl; cases h
  rw [ofCreation_of_ne hf, h]
  rfl

/-! ### The ways in which a request can end -/

variable {now : Instant} {d : Desk α} {caller : Option String} {fields : Table (Value α)}
  {sessions : Table (Stored α)} {response : Response α}

/-- **How a request that creates a session is answered:** what is stored afterwards, and the answer. -/
inductive CreationAnswer (now : Instant) (d : Desk α) (caller : Option String)
    (fields : Table (Value α)) : Table (Stored α) → Response α → Prop
  | refused {status : Nat} {detail : String} (hstatus : status = 400 ∨ status = 401 ∨ status = 403)
      (hnone : ∀ s, ¬ Opens now d caller fields s) (hnot : ¬ Escapes now d caller fields) :
      CreationAnswer now d caller fields d.store.sessions (.document status (explained detail))
  | failed (hnone : ∀ s, ¬ Opens now d caller fields s) (h : Escapes now d caller fields) :
      CreationAnswer now d caller fields d.store.sessions .internalError
  | created {s : Session α} (hopens : Opens now d caller fields s)
      (htexts : ∀ v ∈ s.settings.symbols, v.Textual) :
      CreationAnswer now d caller fields (d.store.sessions.insert s.id ⟨d.store.next, s⟩)
        (.document 201 s.toValue)
  | leftBehind {s : Session α} {v : Value α} (hopens : Opens now d caller fields s)
      (hv : v ∈ s.settings.symbols) (hnot : ¬ v.Textual) :
      CreationAnswer now d caller fields (d.store.sessions.insert s.id ⟨d.store.next, s⟩)
        .internalError

theorem Opens.unique {s s' : Session α} (h : Opens now d caller fields s)
    (h' : Opens now d caller fields s') : s' = s := h.2.2.unique h'.2.2

/-- A session whose symbols are texts is not left behind. -/
theorem Opens.not_escapes {s : Session α} (h : Opens now d caller fields s)
    (htexts : ∀ v ∈ s.settings.symbols, v.Textual) : ¬ Escapes now d caller fields := by
  rintro (⟨-, -, hread⟩ | ⟨hopens, hv, hnot⟩)
  · exact h.2.2.not_outside_read ((Options.outside_read fields).mpr hread)
  · rw [h.unique hopens] at hv
    exact hnot (htexts _ hv)

theorem not_escapes_of_none (hnone : ∀ s, ¬ Opens now d caller fields s)
    (hread : caller ≠ none → (Value.get fields "strategyId").isTrue = true →
      ¬ Options.Unreadable fields) : ¬ Escapes now d caller fields := by
  rintro (⟨hcaller, hstrategy, h⟩ | ⟨hopens, -, -⟩)
  · exact hread hcaller hstrategy h
  · exact hnone _ hopens

namespace CreationAnswer

/-- **All or nothing, or an escape.** -/
theorem allOrNothing {d' : Desk α} (h : CreationAnswer now d caller fields d'.store.sessions response)
    (hnot : ¬ Escapes now d caller fields) :
    ∃ status v, response = .document status v ∧ AllOrNothing d d' status v := by
  generalize hs : d'.store.sessions = sessions at h
  cases h with
  | refused hstatus => exact ⟨_, _, rfl, .inr ⟨hstatus, hs⟩⟩
  | failed _ hescapes => exact absurd hescapes hnot
  | created hopens => exact ⟨201, _, rfl, .inl ⟨rfl, _, hopens.2.2.free.2.1, hs, rfl⟩⟩
  | leftBehind hopens hv hnot' => exact absurd (.unannounced hopens hv hnot') hnot

theorem status_of_escapes (h : CreationAnswer now d caller fields sessions response)
    (hescapes : Escapes now d caller fields) : response.status = 500 := by
  cases h with
  | refused _ _ hnot => exact absurd hescapes hnot
  | failed | leftBehind => rfl
  | created hopens htexts => exact absurd hescapes (hopens.not_escapes htexts)

/-- What has passed every check is stored, whatever the answer is. -/
theorem sessions_of_opens (h : CreationAnswer now d caller fields sessions response)
    {s : Session α} (hs : Opens now d caller fields s) :
    sessions = d.store.sessions.insert s.id ⟨d.store.next, s⟩ := by
  cases h with
  | refused _ hnone | failed hnone => exact absurd hs (hnone s)
  | created hopens | leftBehind hopens => rw [hopens.unique hs]

theorem sessions_of_none (h : CreationAnswer now d caller fields sessions response)
    (hnone : ∀ s, ¬ Opens now d caller fields s) : sessions = d.store.sessions := by
  cases h with
  | refused | failed => rfl
  | created hopens | leftBehind hopens => exact absurd hopens (hnone _)

/-- An answer with the status 201 shows the session that has been opened. -/
theorem opens_of_created (h : CreationAnswer now d caller fields sessions response)
    (hstatus : response.status = 201) : ∃ s, Opens now d caller fields s ∧
      sessions = d.store.sessions.insert s.id ⟨d.store.next, s⟩ ∧
      response = .document 201 s.toValue := by
  cases h with
  | refused hrefused => exact absurd hstatus (status_document_ne (by omega) (by decide) _)
  | failed | leftBehind => exact nomatch hstatus
  | created hopens => exact ⟨_, hopens, rfl, rfl⟩

end CreationAnswer

/-! ### Requests -/

namespace Service

variable {provider : Option (Provider α)} {r : Request}

/-- **What becomes of a request that creates a session.** -/
theorem handle_creates (h : r.Creates fields) : handle now ⟨some d, provider⟩ r =
    match r.signedIn? with
    | none => (⟨some d, provider⟩, .refusal 401 "Missing X-User-Id header")
    | some u =>
      if (Value.get fields "strategyId").isTrue then
        let result := d.create now (some u) (Value.get fields "strategyId").display (.ofTable fields)
        (⟨some result.1, provider⟩, match result.2 with
          | .ok s => .document 201 s.toValue
          | .error f => .ofCreation f)
      else (⟨some d, provider⟩, .refusal 400 "Strategy ID is required") := by
  unfold handle
  rw [h.route]
  dsimp only
  rw [h.method, if_pos (by decide)]
  show (if r.method = "POST" then _ else _) = _
  rw [if_pos h.method, h.body]
  unfold create Request.signedIn?
  dsimp only
  cases hu : r.user.filter (· ≠ "") with
  | none => exact withUser_of_none hu _
  | some raw =>
    rw [withUser_of_some hu]
    dsimp only [Option.map_some]
    split
    · unfold withDesk
      dsimp only
      obtain ⟨d', f | s⟩ := d.create now (some (headerText raw))
        (Value.get fields "strategyId").display (.ofTable fields) <;> rfl
    · rfl

/-- **How a request that creates a session is answered.** -/
theorem answers_creation (now : Instant) (d : Desk α) (provider : Option (Provider α))
    (h : r.Creates fields) : ∃ d' response,
    handle now ⟨some d, provider⟩ r = (⟨some d', provider⟩, response) ∧
      CreationAnswer now d r.signedIn? fields d'.store.sessions response := by
  rw [handle_creates h]
  generalize r.signedIn? = caller
  cases caller with
  | none =>
    have hnone : ∀ s, ¬ Opens now d none fields s := fun s hs => hs.1 rfl
    refine ⟨d, _, rfl, ?_⟩
    rw [refusal_eq_document]
    exact .refused (.inr (.inl rfl)) hnone (not_escapes_of_none hnone fun hs _ => absurd rfl hs)
  | some u =>
    by_cases hstrategy : (Value.get fields "strategyId").isTrue = true
    · have hcreated := Desk.created_create d now (some u)
        (Value.get fields "strategyId").display (.ofTable fields)
      simp only [if_pos hstrategy]
      generalize d.create now (some u) _ (.ofTable fields) = result at hcreated ⊢
      refine ⟨_, _, rfl, ?_⟩
      cases hcreated with
      | @refused f hnone hread hf =>
        obtain ⟨status, detail, hstatus, hanswer⟩ := ofCreation_of_isRefusal (α := α) hf
        have hnone' : ∀ s, ¬ Opens now d (some u) fields s := fun s hs => hnone ⟨s, hs.2.2⟩
        dsimp only
        rw [hanswer]
        exact .refused hstatus hnone' (not_escapes_of_none hnone' fun _ _ =>
          (Options.outside_read fields).not.mp hread)
      | @unread f hnone hread hf =>
        dsimp only
        rw [ofCreation_of_not_isRefusal hf]
        exact .failed (fun s hs => hnone ⟨s, hs.2.2⟩)
          (.unread nofun hstrategy ((Options.outside_read fields).mp hread))
      | @opened s hopens htexts => exact .created ⟨nofun, hstrategy, hopens⟩ htexts
      | @unannounced s i v hopens hv hnot =>
        dsimp only
        rw [ofCreation_of_not_isRefusal (Failure.not_isRefusal_of_kind rfl rfl)]
        exact .leftBehind ⟨nofun, hstrategy, hopens⟩ hv hnot
    · have hnone : ∀ s, ¬ Opens now d (some u) fields s := fun s hs => hstrategy hs.2.1
      simp only [if_neg hstrategy]
      refine ⟨d, _, rfl, ?_⟩
      rw [refusal_eq_document]
      exact .refused (.inl rfl) hnone (not_escapes_of_none hnone fun _ hs => absurd hs hstrategy)

end Service

/-- **Requests that create sessions are answered all or nothing, but for those that escape.**  In every
state of the service, such a request is answered 201 with one new session, all others being as before,
or 400, 401 or 403 with all sessions as before, provided that what is answered can be rendered; or its
options cannot be read, or the session that it opens has a symbol that is no text, and then it ends in
an internal error.  Whatever is opened stays stored, also after an internal error.  The desk itself has
stored nothing when it fails, unless the session that was opened has a symbol that is no text. -/
theorem creation_answered (strategies : List (Strategy α)) (defaults : Defaults α)
    (provider : Option (Provider α)) (events : List (Instant × Event α)) (now : Instant)
    {r : Request} {fields : Table (Value α)} (h : r.Creates fields) : ∃ d d' response,
      (Service.opened strategies defaults provider).after events = ⟨some d, provider⟩ ∧
      Service.handle now ⟨some d, provider⟩ r = (⟨some d', provider⟩, response) ∧
      (Escapes now d r.signedIn? fields → response.status = 500) ∧
      (¬ Escapes now d r.signedIn? fields → ∃ status v, response = .document status v ∧
        (isRenderable (published v) = true → response.status = status) ∧
        AllOrNothing d d' status v) ∧
      (∀ s, Opens now d r.signedIn? fields s →
        d'.store.sessions = d.store.sessions.insert s.id ⟨d.store.next, s⟩) ∧
      ((∀ s, ¬ Opens now d r.signedIn? fields s) → d'.store.sessions = d.store.sessions) ∧
      ∀ now user strategy options d'' f, d.create now user strategy options = (d'', .error f) →
        (d''.store = d.store ↔
          ∀ s, d.Opens now user strategy options s → ∀ v ∈ s.settings.symbols, v.Textual) := by
  obtain ⟨d, hafter, -⟩ := Service.sound_opened strategies defaults provider events
  obtain ⟨d', response, hhandle, hanswer⟩ := Service.answers_creation now d provider h
  refine ⟨d, d', response, hafter, hhandle, hanswer.status_of_escapes, fun hnot => ?_,
    fun _ => hanswer.sessions_of_opens, hanswer.sessions_of_none,
    fun _ _ _ _ _ _ => Desk.create_error⟩
  obtain ⟨status, v, rfl, hall⟩ := hanswer.allOrNothing hnot
  exact ⟨status, v, rfl, status_document status, hall⟩

/-- A request for a session of a strategy. -/
def createRequest : Request :=
  ⟨"POST", "/paper-trading", some "ada", some "\x7b\"strategyId\": \"steady\"\x7d"⟩

/-- The same with a number for a symbol. -/
def numberRequest : Request :=
  ⟨"POST", "/paper-trading", some "ada",
    some "\x7b\"strategyId\": \"steady\", \"symbols\": [1]\x7d"⟩

/-- A session is created and stored, and nothing else. -/
theorem creation_answered_of_steady : ∃ (d d' : Desk Float) (s : Session Float),
    Service.opened [Desk.steady Desk.buyAndTrim] .standard none = ⟨some d, none⟩ ∧
    Service.handle ⟨0⟩ ⟨some d, none⟩ createRequest =
      (⟨some d', none⟩, .document 201 s.toValue) ∧
    d'.store.sessions = d.store.sessions.insert s.id ⟨d.store.next, s⟩ := by
  have hbody : (Body.read (α := Float) createRequest.body).fields?.isSome = true := by
    decide +kernel
  have hstatus : (Service.handle ⟨0⟩ (Service.opened [Desk.steady Desk.buyAndTrim]
      (.standard : Defaults Float) none) createRequest).2.status = 201 := by decide +kernel
  obtain ⟨fields, hread⟩ := Option.isSome_iff_exists.mp hbody
  have hcreates : createRequest.Creates fields :=
    ⟨by decide +kernel, rfl, Body.eq_object_of_fields? hread⟩
  obtain ⟨d, d', response, hafter, hhandle, herror, hanswer, -⟩ := creation_answered
    [Desk.steady Desk.buyAndTrim] .standard none [] ⟨0⟩ hcreates
  replace hafter : Service.opened [Desk.steady Desk.buyAndTrim] .standard none =
    ⟨some d, none⟩ := hafter
  rw [hafter, hhandle] at hstatus
  have hnot : ¬ Escapes ⟨0⟩ d createRequest.signedIn? fields := fun hescapes => by
    rw [herror hescapes] at hstatus
    cases hstatus
  obtain ⟨status, v, rfl, -, ⟨rfl, s, -, hsessions, rfl⟩ | ⟨hrefused, -⟩⟩ := hanswer hnot
  · exact ⟨d, d', s, hafter, hhandle, hsessions⟩
  · exact absurd hstatus (status_document_ne (by omega) (by decide) v)

/-- **A session that nobody was told of.**  A number for a symbol is noticed only when the session has
been stored: the answer is an internal error, and the session is there. -/
theorem session_left_behind :
    (Service.handle ⟨0⟩ (Service.opened [Desk.steady Desk.buyAndTrim] (.standard : Defaults Float)
      none) numberRequest).2.status = 500 ∧
    (Service.handle ⟨0⟩ (Service.opened [Desk.steady Desk.buyAndTrim] (.standard : Defaults Float)
      none) numberRequest).1.desk.map (·.store.sessions.keys) = some ["ada-steady-0"] := by
  decide +kernel

end PaperTrading.Http
