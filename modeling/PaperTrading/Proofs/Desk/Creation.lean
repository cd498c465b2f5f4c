import PaperTrading.Proofs.Desk.History
import PaperTrading.Proofs.Session.Escape

/-!
# Requests for new sessions

A request for a new session is refused for its options, its strategy, its user or its capital, and
then nothing is stored.  Two kinds of requests fail otherwise: options of a type that cannot be read,
and symbols that are no texts.  The latter are noticed only after the session has been stored.

* `Failure.isRefusal`: the failures with which a request is refused.
* `Value.NoNumber`, `Value.ListsNothing`, `Options.Unreadable`: **the options that cannot be read.**
* `textual_of_joinTexts`, `not_textual_of_joinTexts`: what can be joined are texts.
* `Desk.Opens`, `Created`, `created_create`: **what becomes of a request for a new session.**
* `create_error`: when a request that fails has stored nothing.
-/

namespace PaperTrading

/-- **The failures with which a request for a new session is refused.** -/
def Failure.isRefusal (f : Failure) : Bool :=
  f.isStrategy || f.isValue || match f with
    | strategyNotFound _ | foreignStrategy => true
    | _ => false

variable {α : Type} [Arith α]

/-! ### Options that cannot be read -/

/-- **A value that stands for no number,** whatever its content is: a list, an object, or an integer
that lies beyond the numbers. -/
def Value.NoNumber : Value α → Prop
  | list _ | object _ => True
  | int n => Beyond α n
  | bool b => Beyond α (bit b)
  | null | num _ | text _ => False

/-- **A value that counts as given and lists nothing.** -/
def Value.ListsNothing (v : Value α) : Prop :=
  v.isTrue = true ∧ match v with
    | bool _ | int _ | num _ => True
    | null | text _ | list _ | object _ => False

/-- A failure of a value is a refusal. -/
theorem Failure.isRefusal_of_kind {f : Failure} (h : f.kind = "ValueError") :
    f.isRefusal = true := by
  unfold isRefusal isValue
  split <;> simp [h]

/-- A failure of a type is none, unless a strategy brought it about. -/
theorem Failure.not_isRefusal_of_kind {f : Failure} (hs : f.isStrategy = false)
    (h : f.kind = "TypeError") : f.isRefusal = false := by
  unfold isRefusal isValue
  rw [hs]
  split <;> split <;> simp_all [kind]

/-- **The values of which no number can be read,** except those that are refused for their text. -/
theorem outside_toNumber? (v : Value α) :
    Outside Failure.isRefusal v.toNumber? ↔ v.NoNumber := by
  have hnumber : ∀ x : Except Failure α, Outside Failure.isRefusal (do return some (← x)) ↔
      Outside Failure.isRefusal x := fun x => by
    rw [outside_bind]
    exact or_iff_left fun ⟨_, _, h⟩ => not_outside_ok _ h
  have hlarge : Failure.isRefusal .integerTooLarge = false := by decide +kernel
  cases v with
  | null => exact iff_of_false (not_outside_ok _) id
  | bool b => exact (hnumber _).trans (outside_ofInteger hlarge _)
  | int n => exact (hnumber _).trans (outside_ofInteger hlarge n)
  | num x => exact (hnumber _).trans (iff_of_false (not_outside_ok x) id)
  | text s =>
    refine (hnumber _).trans (iff_of_false ?_ id)
    have hrefused : ¬ Outside Failure.isRefusal
        (.error (.unreadableNumber s) : Except Failure α) := fun h => by
      rw [outside_error, Failure.isRefusal_of_kind rfl] at h
      cases h
    simp only [Value.toNumber]
    split
    · exact not_outside_ok _
    · exact hrefused
  | list | object =>
    exact (hnumber _).trans
      (iff_of_true (outside_error.mpr (Failure.not_isRefusal_of_kind rfl rfl)) trivial)

/-- **The values that give no symbols.** -/
theorem outside_readSymbols (v : Value α) :
    Outside Failure.isRefusal (Options.readSymbols v) ↔ v.ListsNothing := by
  have hitems : ∀ v : Value α, Outside Failure.isRefusal (if v.isTrue then
        (do return some (← v.items)) else .ok none) ↔
      v.isTrue = true ∧ Outside Failure.isRefusal v.items := fun v => by
    cases v.isTrue with
    | false => simp [not_outside_ok]
    | true =>
      show Outside _ (do return some (← v.items)) ↔ _
      rw [outside_bind]
      simp only [true_and]
      exact or_iff_left fun ⟨_, _, h⟩ => not_outside_ok _ h
  unfold Value.ListsNothing
  cases v with
  | text s =>
    refine iff_of_false ?_ fun h => h.2
    unfold Options.readSymbols
    dsimp only
    split <;> exact not_outside_ok _
  | null => exact (hitems .null).trans (iff_of_false (fun h => nomatch h.1) fun h => h.2)
  | list | object =>
    exact (hitems _).trans (and_congr_right fun _ => iff_of_false (not_outside_ok _) id)
  | bool | int | num =>
    exact (hitems _).trans (and_congr_right fun _ =>
      iff_of_true (outside_error.mpr (Failure.not_isRefusal_of_kind rfl rfl)) trivial)

/-- **Options that cannot be read:** the first one of the wrong type, in the order in which they are
read. -/
inductive Options.Unreadable (fields : Table (Value α)) : Prop
  | capital (h : (firstPresent fields ["initialCapital", "initial_capital"]).NoNumber)
  | symbols {capital : Option α}
      (hcapital : (firstPresent fields ["initialCapital", "initial_capital"]).toNumber? =
        .ok capital)
      (h : (firstPresent fields ["symbols"]).ListsNothing)
  | risk {capital : Option α} {symbols : Option (List (Value α))}
      (hcapital : (firstPresent fields ["initialCapital", "initial_capital"]).toNumber? =
        .ok capital)
      (hsymbols : readSymbols (firstPresent fields ["symbols"]) = .ok symbols)
      (h : (firstPresent fields ["riskPerTrade", "risk_per_trade"]).NoNumber)

namespace Options

/-- Choices that have been read are refused or accepted. -/
theorem not_outside_check (o : Options α) : ¬ Outside Failure.isRefusal o.check := by
  have hcapital : ∀ x : α, (Failure.notPositive "initialCapital" (Arith.written x)).isRefusal =
      true := fun _ => Failure.isRefusal_of_kind rfl
  have hrisk : ∀ x : α, (Failure.notFraction "riskPerTrade" (Arith.written x)).isRefusal =
      true := fun _ => Failure.isRefusal_of_kind rfl
  unfold check
  cases o.initialCapital <;> cases o.riskPerTrade <;> dsimp only
  · exact not_outside_ok _
  · exact not_outside_refusal (hrisk _) (not_outside_ok _)
  · exact not_outside_refusal (hcapital _) (not_outside_ok _)
  · exact not_outside_refusal (hcapital _) (not_outside_refusal (hrisk _) (not_outside_ok _))

omit [Arith α] in
theorem fieldsFor_ofTable [Arith α] (fields : Table (Value α)) (member : String) :
    ((Value.ofTable fields).orElse (.object [])).fieldsFor member = .ok fields := by
  obtain ⟨entries⟩ := fields
  cases entries <;> rfl

/-- **The options that cannot be read.** -/
theorem outside_read (fields : Table (Value α)) :
    Outside Failure.isRefusal (read (.ofTable fields)) ↔ Unreadable fields := by
  unfold read
  simp only [outside_bind, fieldsFor_ofTable, outside_toNumber?, outside_readSymbols,
    not_outside_check, not_outside_ok, not_outside_pure, Except.ok.injEq, exists_eq_left', false_or,
    and_false, exists_false, or_false]
  constructor
  · rintro (h | ⟨capital, hcapital, h | ⟨symbols, hsymbols, h⟩⟩)
    · exact .capital h
    · exact .symbols hcapital h
    · exact .risk hcapital hsymbols h
  · rintro (h | ⟨hcapital, h⟩ | ⟨hcapital, hsymbols, h⟩)
    · exact .inl h
    · exact .inr ⟨_, hcapital, .inl h⟩
    · exact .inr ⟨_, hcapital, .inr ⟨_, hsymbols, h⟩⟩

end Options

/-! ### Symbols that are joined -/

namespace Value

omit [Arith α]

/-- The text of the entry of a list that are joined. -/
def textAt (entry : Value α × Nat) : Except Failure String :=
  match entry.1 with
  | text s => .ok s
  | v => .error (.notText entry.2 v.typeName)

theorem joinTexts_eq (vs : List (Value α)) : joinTexts vs = (do
    let texts ← vs.zipIdx.mapM textAt
    return ",".intercalate texts) := rfl

/-- **What can be joined are texts.** -/
theorem textual_of_joinTexts {vs : List (Value α)} {t : String} (h : joinTexts vs = .ok t)
    {v : Value α} (hv : v ∈ vs) : ∃ s, v = .text s := by
  rw [joinTexts_eq] at h
  obtain ⟨texts, htexts, -⟩ := bind_ok_iff.mp h
  obtain ⟨i, hi⟩ := List.mem_iff_getElem?.mp hv
  obtain ⟨s, hs⟩ := ok_of_mapM_ok htexts (List.mk_mem_zipIdx_iff_getElem?.mpr hi)
  unfold textAt at hs
  split at hs
  · next s' hv => exact ⟨s', hv⟩
  · cases hs

/-- Joining fails at a value that is no text, and names its type. -/
theorem not_textual_of_joinTexts {vs : List (Value α)} {f : Failure} (h : joinTexts vs = .error f) :
    ∃ i v, v ∈ vs ∧ (∀ s, v ≠ .text s) ∧ f = .notText i v.typeName := by
  rw [joinTexts_eq] at h
  cases htexts : vs.zipIdx.mapM textAt with
  | ok texts => rw [htexts] at h; cases h
  | error g =>
    rw [htexts] at h
    cases h
    obtain ⟨⟨v, i⟩, hmem, hv⟩ := error_of_mapM_error htexts
    unfold textAt at hv
    split at hv
    · cases hv
    · next hnot =>
      cases hv
      exact ⟨i, v, List.mem_of_getElem? (List.mk_mem_zipIdx_iff_getElem?.mp hmem), hnot, rfl⟩

end Value

namespace Desk

variable {d : Desk α} {now : Instant} {user : Option String} {strategy : String}
  {options : Value α}

/-- **A request that passes every check opens a session.** -/
def Opens (d : Desk α) (now : Instant) (user : Option String) (strategy : String)
    (options : Value α) (s : Session α) : Prop :=
  ∃ a, d.vet user strategy options = .ok a ∧
    Session.create now (d.store.freeId (a.baseId now strategy) 0) a.user a.strategy a.options
      d.defaults = .ok s

/-- What a request opens is a session of its user under a free identifier. -/
theorem Opens.free {s : Session α} (h : d.Opens now user strategy options s) :
    user = some s.user ∧ d.store.find? s.id = none ∧
      s.id = d.store.freeId (Session.baseId α now s.user strategy) 0 := by
  obtain ⟨a, ha, hs⟩ := h
  obtain ⟨-, hid, huser, -⟩ := Session.create_ok hs
  refine ⟨by rw [user_of_vet ha, huser], ?_, ?_⟩
  · rw [hid]
    exact d.store.find?_freeId _ 0
  · rw [hid, huser]
    rfl

omit [Arith α] in
/-- The blocks of a strategy refuse it, if anything about them does. -/
theorem not_outside_validate (s : Strategy α) : ¬ Outside Failure.isRefusal s.validate := by
  have hblock : ∀ b : Block α, ¬ Outside Failure.isRefusal b.validate := fun b => by
    unfold Block.validate
    split
    · simp [outside_error, Failure.isRefusal, Failure.isStrategy]
    · split
      · exact not_outside_ok _
      · simp [outside_error, Failure.isRefusal, Failure.isStrategy]
  unfold Strategy.validate
  induction s.blocks with
  | nil => exact not_outside_ok _
  | cons b bs ih =>
    show ¬ Outside _ (b.validate >>= fun _ => bs.forM Block.validate)
    rw [outside_bind]
    rintro (h | ⟨_, -, h⟩)
    · exact hblock b h
    · exact ih h

/-- The checks of a request refuse it, or its options cannot be read. -/
theorem outside_vet (d : Desk α) (user : Option String) (strategy : String) (options : Value α) :
    Outside Failure.isRefusal (d.vet user strategy options) ↔
      Outside Failure.isRefusal (Options.read options) := by
  have hunknown : (Failure.strategyNotFound strategy).isRefusal = true := by
    simp [Failure.isRefusal]
  unfold vet
  rw [outside_bind]
  refine or_iff_left ?_
  rintro ⟨o, -, h⟩
  split at h
  · rw [show (throw (.strategyNotFound strategy) : Except Failure (Vetted α)) =
      .error (.strategyNotFound strategy) from rfl, outside_error, hunknown] at h
    cases h
  · split at h
    · exact absurd (outside_error.mp h) (by decide)
    · refine not_outside_refusal (by decide) (fun h => ?_) h
      rcases outside_bind.mp h with h | ⟨_, -, h⟩
      · exact not_outside_validate _ h
      · exact not_outside_pure _ h

/-- The options of a request that opens a session have been read. -/
theorem Opens.not_outside_read {s : Session α} (h : d.Opens now user strategy options s) :
    ¬ Outside Failure.isRefusal (Options.read options) := by
  obtain ⟨a, ha, -⟩ := h
  rw [← outside_vet d user strategy, ha]
  exact not_outside_ok a

theorem Opens.unique {s s' : Session α} (h : d.Opens now user strategy options s)
    (h' : d.Opens now user strategy options s') : s' = s := by
  obtain ⟨a, ha, hs⟩ := h
  obtain ⟨a', ha', hs'⟩ := h'
  cases ha.symm.trans ha'
  exact Except.ok.inj (hs'.symm.trans hs)

/-- The four ways in which a request for a new session can end. -/
inductive Created (d : Desk α) (now : Instant) (user : Option String) (strategy : String)
    (options : Value α) : Desk α × Except Failure (Session α) → Prop
  | refused {f : Failure} (hnone : ¬ ∃ s, d.Opens now user strategy options s)
      (hread : ¬ Outside Failure.isRefusal (Options.read options)) (h : f.isRefusal = true) :
      Created d now user strategy options (d, .error f)
  | unread {f : Failure} (hnone : ¬ ∃ s, d.Opens now user strategy options s)
      (hread : Outside Failure.isRefusal (Options.read options)) (h : f.isRefusal = false) :
      Created d now user strategy options (d, .error f)
  | opened {s : Session α} (hopens : d.Opens now user strategy options s)
      (htexts : ∀ v ∈ s.settings.symbols, v.Textual) :
      Created d now user strategy options ({ d with store := d.store.put s }, .ok s)
  | unannounced {s : Session α} {i : Nat} {v : Value α}
      (hopens : d.Opens now user strategy options s) (hv : v ∈ s.settings.symbols)
      (hnot : ¬ v.Textual) :
      Created d now user strategy options
        ({ d with store := d.store.put s }, .error (.notText i v.typeName))

/-- **What becomes of a request for a new session.** -/
theorem created_create (d : Desk α) (now : Instant) (user : Option String) (strategy : String)
    (options : Value α) : Created d now user strategy options
      (d.create now user strategy options) := by
  unfold create
  cases ha : d.vet user strategy options with
  | error f =>
    have hnone : ¬ ∃ s, d.Opens now user strategy options s := by
      rintro ⟨s, a, ha', -⟩
      rw [ha] at ha'
      cases ha'
    cases hf : f.isRefusal with
    | false =>
      exact .unread hnone ((outside_vet d user strategy options).mp
        (by rw [ha]; exact outside_error.mpr hf)) hf
    | true =>
      refine .refused hnone (fun h => ?_) hf
      have hfalse := (outside_vet d user strategy options).mpr h
      rw [ha, outside_error, hf] at hfalse
      cases hfalse
  | ok a =>
    have hread : ¬ Outside Failure.isRefusal (Options.read options) := fun h => by
      have hvet := (outside_vet d user strategy options).mpr h
      rw [ha] at hvet
      exact not_outside_ok _ hvet
    dsimp only
    unfold openUnder
    cases hs : Session.create now (d.store.freeId (a.baseId now strategy) 0) a.user a.strategy
        a.options d.defaults with
    | error f =>
      have hnone : ¬ ∃ s, d.Opens now user strategy options s := by
        rintro ⟨s, a', ha', hs'⟩
        cases ha.symm.trans ha'
        rw [hs] at hs'
        cases hs'
      have hf : f.isRefusal = true := by
        unfold Session.create Session.start at hs
        split at hs <;> cases hs
        exact Failure.isRefusal_of_kind rfl
      exact .refused hnone hread hf
    | ok s =>
      have hopens : d.Opens now user strategy options s := ⟨a, ha, hs⟩
      dsimp only
      cases htexts : Value.joinTexts s.settings.symbols with
      | ok t => exact .opened hopens fun v hv => Value.textual_of_joinTexts htexts hv
      | error f =>
        obtain ⟨i, v, hv, hnot, rfl⟩ := Value.not_textual_of_joinTexts htexts
        exact .unannounced hopens hv fun ⟨s, hs⟩ => hnot s hs

/-- **A request that fails has stored nothing,** unless it opened a session with a symbol that is no
text. -/
theorem create_error {d' : Desk α} {f : Failure}
    (h : d.create now user strategy options = (d', .error f)) :
    d'.store = d.store ↔
      ∀ s, d.Opens now user strategy options s → ∀ v ∈ s.settings.symbols, v.Textual := by
  have hcreated := created_create d now user strategy options
  rw [h] at hcreated
  cases hcreated with
  | refused hnone | unread hnone =>
    exact iff_of_true rfl fun s hs => absurd ⟨s, hs⟩ hnone
  | @unannounced s i v hopens hv hnot =>
    refine iff_of_false (fun hstore => ?_) fun hall => hnot (hall s hopens v hv)
    have hstored := d.store.find?_put_self s
    have hput : d.store.put s = d.store := hstore
    rw [hput, hopens.free.2.1] at hstored
    cases hstored

end Desk

end PaperTrading
