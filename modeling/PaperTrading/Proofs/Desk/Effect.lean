import PaperTrading.Proofs.Desk.Identifiers
import PaperTrading.Proofs.Desk.Operation

/-!
# The effect of one operation

An operation of a desk does one of four things to the stored sessions: it leaves them as they are,
it advances the session that it names, it removes that session, or it adds a new one under a free
identifier.  What users can and cannot do to sessions is a case analysis over these four.

* `Effect`, `effect_perform`: **what an operation does to the store.**
* `Effect.becomes`, `Effect.keeps_or_removes`: what becomes of one stored session.
* `Effect.spares`: **an operation for one user leaves the sessions of the others alone.**
* `Effect.opens`, `Effect.comes_from`: where a stored session comes from.
* `Effect.frame`: at most one identifier is affected.
* `Effect.sound`: stores stay sound.
-/

namespace PaperTrading.Desk

variable {α : Type} [Arith α] {d : Desk α} {now : Instant} {id : String} {e e' : Stored α}
  {o : Operation α} {st : Store α}

/-- **What an operation does to the store.**  Numbers for tickets are only ever used up. -/
inductive Effect (d : Desk α) (now : Instant) (o : Operation α) (st : Store α) : Prop
  | kept (hst : st.sessions = d.store.sessions) (hnext : d.store.next ≤ st.next)
  | advanced {id : String} {e : Stored α} {s : Session α} (ht : o.target? = some id)
      (he : d.store.find? id = some e) (hu : checkOwner o.user? e.session = .ok ())
      (hs : e.session.Advance s) (hst : st.sessions = d.store.sessions.insert id ⟨e.ticket, s⟩)
      (hnext : d.store.next ≤ st.next)
  | removed {id : String} {e : Stored α} (ho : o = .delete id (some e.session.user))
      (he : d.store.find? id = some e) (hst : st.sessions = d.store.sessions.erase id)
      (hnext : d.store.next ≤ st.next)
  | opened {known : Strategy α} {choices : Options α} {strategy : String} {options : Value α}
      {s : Session α} (ho : o = .create (some s.user) strategy options)
      (hs : Session.create now s.id s.user known choices d.defaults = .ok s)
      (hfree : d.store.find? s.id = none)
      (hst : st.sessions = d.store.sessions.insert s.id ⟨d.store.next, s⟩)
      (hnext : d.store.next < st.next)

/-! ### Every operation has one of the effects -/

theorem Effect.refl (d : Desk α) (now : Instant) (o : Operation α) : Effect d now o d.store :=
  .kept rfl (Nat.le_refl _)

theorem Effect.locked (d : Desk α) (now : Instant) (o : Operation α) (key : String) :
    Effect d now o (d.locked key).store :=
  .kept (sessions_locked d key) (next_le_locked d key)

/-- A change of a stored session advances it, or leaves everything as it was. -/
theorem effect_change {f : Session α → Except Failure (Session α)} (hd : d.store.Sound)
    (ht : o.target? = some id) (he : d.store.find? id = some e)
    (hu : checkOwner o.user? e.session = .ok ()) (hf : ∀ {s s'}, f s = .ok s' → s.Advance s') :
    Effect d now o (d.change e f).1.store := by
  rw [change_of_current (current_of_find? hd he)]
  cases hs : f e.session with
  | error g => exact .locked d now o _
  | ok s =>
    have hadv := hf hs
    refine .advanced ht he hu hadv ?_ (next_le_locked d e.session.id)
    show (d.locked e.session.id).store.sessions.insert s.id _ = _
    rw [sessions_locked, hadv.id_eq, hd.keyed he]

/-- The same for a look-up, a check of the owner and a change. -/
theorem effect_found {f : Session α → Except Failure (Session α)} (hd : d.store.Sound)
    (ht : o.target? = some id) (hf : ∀ {s s'}, f s = .ok s' → s.Advance s') :
    Effect d now o
      (d.withFound id fun e => d.withOwner o.user? e.session (d.change e f)).1.store := by
  cases he : d.store.find? id with
  | none => rw [withFound_of_none he]; exact .refl d now o
  | some e =>
    rw [withFound_of_find? he]
    cases hu : checkOwner o.user? e.session with
    | error g => rw [withOwner_of_error hu]; exact .refl d now o
    | ok _ => rw [withOwner_of_ok hu]; exact effect_change hd ht he hu hf

theorem effect_update (hd : d.store.Sound) (feed : Feed α) (ht : o.target? = some id) :
    Effect d now o (d.update now id feed o.user?).1.store :=
  effect_found hd ht cycleActive_advance

theorem effect_refresh (hd : d.store.Sound) (id : String) (user : Option String)
    (provider : Provider α) :
    Effect d now (.refresh id user provider) (d.refresh now id user provider).1.store := by
  unfold refresh find
  cases he : d.store.find? id with
  | none => exact .refl d now _
  | some e =>
    dsimp only
    unfold refreshFound
    split
    · exact .refl d now _
    · split
      · exact .refl d now _
      · rw [hd.keyed he]
        exact effect_update hd _ rfl

theorem effect_delete (hd : d.store.Sound) (id : String) (user : Option String) :
    Effect d now (.delete id user) (d.delete id user).1.store := by
  unfold delete
  cases he : d.store.find? id with
  | none => exact .refl d now _
  | some e =>
    dsimp only
    unfold deleteFound
    split
    · next hu =>
      dsimp only
      rw [current_locked, current_of_find? hd he]
      refine .removed (by rw [hu]) he ?_ (next_le_locked d e.session.id)
      show (d.locked e.session.id).store.sessions.erase e.session.id = _
      rw [sessions_locked, hd.keyed he]
    · exact .refl d now _

/-- A request that passes its checks is one of the owner of a known strategy, with options that can be
read. -/
theorem vet_ok {user : Option String} {strategy : String} {options : Value α} {a : Vetted α}
    (h : d.vet user strategy options = .ok a) : user = some a.user ∧
      d.strategies.find? strategy = some a.strategy ∧ Options.read options = .ok a.options := by
  unfold vet at h
  obtain ⟨o, ho, h⟩ := bind_ok_iff.mp h
  split at h
  · cases h
  · next s hs =>
    split at h
    · cases h
    · simp only [refuse_ok_iff, bind_ok_iff, pure_ok_iff] at h
      obtain ⟨-, -, -, rfl⟩ := h
      exact ⟨rfl, hs, ho⟩

theorem user_of_vet {user : Option String} {strategy : String} {options : Value α} {a : Vetted α}
    (h : d.vet user strategy options = .ok a) : user = some a.user := (vet_ok h).1

theorem effect_create (d : Desk α) (now : Instant) (user : Option String) (strategy : String)
    (options : Value α) :
    Effect d now (.create user strategy options) (d.create now user strategy options).1.store := by
  unfold create
  cases ha : d.vet user strategy options with
  | error g => exact .refl d now _
  | ok a =>
    dsimp only
    unfold openUnder
    cases hs : Session.create now (d.store.freeId (a.baseId now strategy) 0) a.user a.strategy
        a.options d.defaults with
    | error g => exact .refl d now _
    | ok s =>
      obtain ⟨-, hid, huser, -⟩ := Session.create_ok hs
      have hfree := d.store.find?_freeId (a.baseId now strategy) 0
      rw [← hid] at hfree hs
      rw [← huser] at hs
      exact .opened (by rw [user_of_vet ha, huser]) hs hfree rfl (Nat.lt_succ_self _)

/-- **What an operation does to the store** is one of the four effects. -/
theorem effect_perform (hd : d.store.Sound) (now : Instant) (o : Operation α) :
    Effect d now o (d.perform now o).store := by
  cases o with
  | addStrategy strategy => exact .refl d now _
  | create user strategy options => exact effect_create d now user strategy options
  | update id feed user => exact effect_update hd feed rfl
  | refresh id user provider => exact effect_refresh hd id user provider
  | stop id user =>
    exact effect_found (o := .stop id user) hd rfl fun h => by cases h; exact .stopped now
  | delete id user => exact effect_delete hd id user

namespace Effect

/-! ### Before and after -/

theorem next_le (h : Effect d now o st) : d.store.next ≤ st.next := by
  cases h with
  | kept _ hnext | advanced _ _ _ _ _ hnext | removed _ _ _ hnext => exact hnext
  | opened _ _ _ _ hnext => exact Nat.le_of_lt hnext

/-- **What becomes of a stored session:** it stays as it is, or it is the one that the operation names
for a user who may use it and has advanced, or its owner has removed it. -/
theorem becomes (h : Effect d now o st) (he : d.store.find? id = some e) :
    st.find? id = some e ∨
      (o.target? = some id ∧ checkOwner o.user? e.session = .ok () ∧
        ∃ s, st.find? id = some ⟨e.ticket, s⟩ ∧ e.session.Advance s) ∨
      o = .delete id (some e.session.user) ∧ st.find? id = none := by
  unfold Store.find? at he ⊢
  cases h with
  | kept hst => rw [hst]; exact .inl he
  | @advanced key e₁ s ht he₁ hu hs hst =>
    by_cases hk : key = id
    · subst hk
      cases he.symm.trans he₁
      exact .inr (.inl ⟨ht, hu, s, by rw [hst, Table.find?_insert_self], hs⟩)
    · exact .inl (by rw [hst, Table.find?_insert_of_ne _ _ hk, he])
  | @removed key e₁ ho he₁ hst =>
    by_cases hk : key = id
    · subst hk
      cases he.symm.trans he₁
      exact .inr (.inr ⟨ho, by rw [hst, Table.find?_erase_self]⟩)
    · exact .inl (by rw [hst, Table.find?_erase_of_ne _ hk, he])
  | @opened _ _ _ _ s _ _ hfree hst =>
    have hk : s.id ≠ id := by rintro rfl; exact nomatch hfree.symm.trans he
    exact .inl (by rw [hst, Table.find?_insert_of_ne _ _ hk, he])

/-- A stored session stays stored under its ticket and has advanced, or its owner has removed it. -/
theorem keeps_or_removes (h : Effect d now o st) (he : d.store.find? id = some e) :
    (∃ s, st.find? id = some ⟨e.ticket, s⟩ ∧ e.session.Advance s) ∨
      o = .delete id (some e.session.user) ∧ st.find? id = none := by
  rcases h.becomes he with hsame | ⟨-, -, hadv⟩ | hgone
  · exact .inl ⟨e.session, hsame, .same⟩
  · exact .inl hadv
  · exact .inr hgone

/-- **Whoever an operation is for, the sessions of the others stay as they are.** -/
theorem spares (h : Effect d now o st) {user : String} (hu : o.user? = some user)
    (he : d.store.find? id = some e) (hne : e.session.user ≠ user) : st.find? id = some e := by
  rcases h.becomes he with hsame | ⟨-, hcheck, -⟩ | ⟨rfl, -⟩
  · exact hsame
  · rw [hu] at hcheck
    exact absurd (eq_user_of_checkOwner hcheck) hne
  · exact absurd (Option.some.inj hu) hne

/-- What is stored under an identifier that was free has just been created, with the ticket that was
next. -/
theorem opens (h : Effect d now o st) (hfree : d.store.find? id = none)
    (he' : st.find? id = some e') : e'.ticket = d.store.next ∧ d.store.next < st.next ∧
      (∃ strategy options, o = .create (some e'.session.user) strategy options) ∧
      ∃ known choices,
        Session.create now id e'.session.user known choices d.defaults = .ok e'.session := by
  unfold Store.find? at hfree he'
  cases h with
  | kept hst => rw [hst, hfree] at he'; cases he'
  | @advanced key _ _ _ he₁ _ _ hst =>
    have hk : key ≠ id := by rintro rfl; exact nomatch hfree.symm.trans he₁
    rw [hst, Table.find?_insert_of_ne _ _ hk, hfree] at he'
    cases he'
  | @removed key _ _ he₁ hst =>
    have hk : key ≠ id := by rintro rfl; exact nomatch hfree.symm.trans he₁
    rw [hst, Table.find?_erase_of_ne _ hk, hfree] at he'
    cases he'
  | @opened _ _ _ _ s ho hs _ hst hnext =>
    rw [hst, Table.find?_insert] at he'
    split at he'
    · next hid =>
      cases he'
      subst hid
      exact ⟨rfl, hnext, ⟨_, _, ho⟩, _, _, hs⟩
    · rw [hfree] at he'; cases he'

/-- **Where a stored session comes from:** it was stored before under its ticket and has advanced,
or it is new, with the ticket that was next. -/
theorem comes_from (h : Effect d now o st) (he' : st.find? id = some e') :
    (∃ e, d.store.find? id = some e ∧ e'.ticket = e.ticket ∧ e.session.Advance e'.session) ∨
      d.store.find? id = none ∧ e'.ticket = d.store.next ∧ d.store.next < st.next ∧
        o.user? = some e'.session.user ∧ ∃ known choices,
          Session.create now id e'.session.user known choices d.defaults = .ok e'.session := by
  cases he : d.store.find? id with
  | some e =>
    rcases h.keeps_or_removes he with ⟨s, hs, hadv⟩ | ⟨-, hnone⟩
    · cases hs.symm.trans he'
      exact .inl ⟨e, rfl, rfl, hadv⟩
    · rw [hnone] at he'; cases he'
  | none =>
    obtain ⟨ht, hnext, ⟨strategy, options, rfl⟩, hcreated⟩ := h.opens he he'
    exact .inr ⟨rfl, ht, hnext, rfl, hcreated⟩

/-- **At most one identifier is affected:** the one that the operation names, or a free one. -/
theorem frame (h : Effect d now o st) : ∃ key,
    (o.target? = some key ∨ o.target? = none ∧ d.store.find? key = none) ∧
      ∀ id, id ≠ key → st.find? id = d.store.find? id := by
  unfold Store.find?
  cases h with
  | kept hst =>
    -- nothing is affected, so that any free identifier will do where none is named
    cases ht : o.target? with
    | some key => exact ⟨key, .inl rfl, fun id _ => by rw [hst]⟩
    | none =>
      exact ⟨d.store.freeId "" 0, .inr ⟨rfl, d.store.find?_freeId "" 0⟩, fun id _ => by rw [hst]⟩
  | @advanced key _ _ ht _ _ _ hst =>
    exact ⟨key, .inl ht, fun id hid => by rw [hst, Table.find?_insert_of_ne _ _ hid.symm]⟩
  | @removed key _ ho _ hst =>
    exact ⟨key, .inl (by rw [ho]; rfl),
      fun id hid => by rw [hst, Table.find?_erase_of_ne _ hid.symm]⟩
  | @opened _ _ _ _ s ho _ hfree hst =>
    exact ⟨s.id, .inr ⟨by rw [ho]; rfl, hfree⟩,
      fun id hid => by rw [hst, Table.find?_insert_of_ne _ _ hid.symm]⟩

/-- **Stores stay sound.** -/
theorem sound (h : Effect d now o st) (hd : d.store.Sound) : st.Sound := by
  constructor
  · intro id e' he'
    rcases h.comes_from he' with ⟨e, he, -, hadv⟩ | ⟨-, -, -, -, known, choices, hs⟩
    · exact hadv.id_eq.trans (hd.keyed he)
    · exact (Session.create_ok hs).2.1
  · intro id e' he'
    rcases h.comes_from he' with ⟨e, he, ht, -⟩ | ⟨-, ht, hnext, -⟩
    · have := hd.issued he
      have := h.next_le
      omega
    · omega

end Effect

end PaperTrading.Desk
