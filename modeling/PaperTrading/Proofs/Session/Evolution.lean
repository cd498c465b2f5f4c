import PaperTrading.Proofs.Session.Change

/-!
# Cycles as sequences of changes

A batch of signals, a marking and a whole update cycle are sequences of changes (`Session.Evolves`),
whatever failed in them and wherever they were cut short.  The symbols in which a cycle trades are
those that the action blocks of its strategy name.

* `Strategy.Trades`, `Strategy.TradesTexts`: the symbols of the action blocks; all of them are
  texts.
* `Strategy.Generates`: the signals that the action blocks generate; `generates_of_run` says that a
  run has no others.
* `executeAll_evolves`, `revalue_evolves`, `recomputing_evolves`: the three steps of a cycle.
* `cycle_evolves`: **an update cycle is a sequence of changes.**
-/

namespace PaperTrading

open Arith Relation

variable {α : Type} [Arith α] {now : Instant} {market : Market α}

/-! ### The symbols that a strategy trades -/

/-- A value that is a text. -/
def Value.Textual (v : Value α) : Prop := ∃ x, v = .text x

instance (v : Value α) : Decidable v.Textual :=
  match v with
  | .text x => isTrue ⟨x, rfl⟩
  | .null | .bool _ | .int _ | .num _ | .list _ | .object _ => isFalse (by rintro ⟨_, h⟩; cases h)

namespace Strategy

/-- An action block names the symbol. -/
def Trades (s : Strategy α) (v : Value α) : Prop :=
  ∃ b ∈ s.blocksOf .action, v = Signal.symbolOf b.settings

/-- **Every action block names a text.** -/
def TradesTexts (s : Strategy α) : Prop :=
  ∀ b ∈ s.blocksOf .action, (Signal.symbolOf b.settings).Textual

instance (s : Strategy α) : Decidable s.TradesTexts := by
  unfold TradesTexts; infer_instance

theorem TradesTexts.textual {s : Strategy α} (h : s.TradesTexts) {v : Value α} (hv : s.Trades v) :
    v.Textual := by
  obtain ⟨b, hb, rfl⟩ := hv
  exact h b hb

/-- **A signal that is generated:** for the symbol of its block, with the price and the order that
the block asks for. -/
theorem generate_ok {kind : String} {settings : Table (Value α)} {signal : Signal α}
    (h : Signal.generate now kind settings market = .ok (some signal)) :
    ∃ k price order, Signal.priceOf k settings market = .ok (some price) ∧
      Signal.orderOf k settings = .ok order ∧
      signal = ⟨Signal.symbolOf settings, some price, now, order⟩ := by
  unfold Signal.generate at h
  split at h
  · next k _ =>
    unfold Signal.emit at h
    obtain ⟨price, hprice, h⟩ := bind_ok_iff.mp h
    cases price with
    | none => cases h
    | some price =>
      simp only [bind_ok_iff, pure_ok_iff, Option.some.injEq] at h
      obtain ⟨order, horder, rfl⟩ := h
      exact ⟨k, price, order, hprice, horder, rfl⟩
  · cases h

omit [Arith α] in
theorem atBlock_ok_iff {β : Type} {b : Block α} {x : Except Failure β} {y : β} :
    atBlock b x = .ok y ↔ x = .ok y := by
  cases x <;> simp [atBlock, Except.mapError]

/-- An action block of the strategy generates the signal. -/
def Generates (now : Instant) (market : Market α) (s : Strategy α) (signal : Signal α) : Prop :=
  ∃ b ∈ s.blocksOf .action, Signal.generate now b.kind b.settings market = .ok (some signal)

/-- The signals of a volley come from the action blocks. -/
theorem generates_of_volley {s : Strategy α} {signals : List (Signal α)}
    (h : volley now s market = .ok signals) {signal : Signal α} (hm : signal ∈ signals) :
    s.Generates now market signal := by
  unfold volley at h
  simp only [bind_ok_iff, pure_ok_iff] at h
  obtain ⟨emitted, he, rfl⟩ := h
  obtain ⟨o, ho, hs⟩ := List.mem_filterMap.mp hm
  obtain ⟨b, hb, hg⟩ := mem_of_mapM_ok he ho
  subst hs
  exact ⟨b, hb, atBlock_ok_iff.mp hg⟩

/-- **The signals of a run** come from the action blocks. -/
theorem generates_of_run {s : Strategy α} {outcome : Outcome α} (h : s.run now market = .ok outcome)
    {signal : Signal α} (hm : signal ∈ outcome.signals) : s.Generates now market signal := by
  unfold run signals at h
  simp only [bind_ok_iff, pure_ok_iff] at h
  obtain ⟨studies, -, signals, ⟨parts, hparts, rfl⟩, rfl⟩ := h
  obtain ⟨part, hpart, hm⟩ := List.mem_flatten.mp hm
  obtain ⟨b, -, hb⟩ := mem_of_mapM_ok hparts hpart
  unfold signalsOf at hb
  obtain ⟨holds, -, hb⟩ := bind_ok_iff.mp hb
  split at hb
  · exact generates_of_volley hb hm
  · rw [pure_ok_iff] at hb
    subst hb; simp at hm

/-- A signal that the strategy generates is for a symbol that it trades. -/
theorem Generates.trades {s : Strategy α} {signal : Signal α}
    (h : s.Generates now market signal) : s.Trades signal.symbol := by
  obtain ⟨b, hb, hg⟩ := h
  obtain ⟨k, price, order, -, -, rfl⟩ := generate_ok hg
  exact ⟨b, hb, rfl⟩

end Strategy

namespace Session

variable {s s' : Session α} {allowed : Value α → Prop}

/-! ### The steps of a cycle -/

/-- **An executed signal is one change.** -/
theorem execute_change {signal : Signal α} {t : Option (Transaction α)}
    (hsym : allowed signal.symbol) (h : s.execute now market signal = .ok (s', t)) :
    Change allowed s s' := by
  cases execute_ok h with
  | guarded => exact .guarded _
  | bought _ hprice hn hcost hcash hps => exact .bought hsym hprice hn hcost hcash hps
  | sold _ hp hprice hn hle hvalue hprofit => exact .sold hsym hp hprice hn hle hvalue hprofit

theorem record_change (f : Failure) : Change allowed s (s.record now f) := .noted _

/-- **A batch is a sequence of changes,** also when a failure ends it. -/
theorem executeAll_evolves {signals : List (Signal α)}
    (hsym : ∀ signal ∈ signals, allowed signal.symbol) :
    Evolves allowed s (executeAll now market signals s).1 := by
  induction signals generalizing s with
  | nil => exact ReflTransGen.refl
  | cons signal signals ih =>
    have ih' : ∀ s₁, Change allowed s s₁ →
        Evolves allowed s (executeAll now market signals s₁).1 := fun s₁ h =>
      ReflTransGen.head h (ih fun x hx => hsym x (List.mem_cons_of_mem _ hx))
    unfold executeAll
    split
    · next s₁ t h => exact ih' s₁ (execute_change (hsym _ List.mem_cons_self) h)
    · next f h =>
      split
      · exact ih' _ (record_change f)
      · exact ReflTransGen.refl

theorem markOne_marked {p q : Position α} (h : markOne now market p = .ok q) : p.MarkedAs q := by
  unfold markOne at h
  obtain ⟨price, -, h⟩ := bind_ok_iff.mp h
  split at h
  · next x hx =>
    cases h
    have hx := (Option.filter_eq_some_iff.mp hx).2
    simp only [Bool.not_eq_eq_eq_not, Bool.not_true, decide_eq_false_iff_not] at hx
    exact Or.inr ⟨x, now, hx, rfl⟩
  · cases h
    exact Or.inl rfl

/-- A marking that stops half-way leaves the rest as it was. -/
theorem markAll_marked (ps : List (Position α)) :
    List.Forall₂ Position.MarkedAs ps (markAll now market ps).1 := by
  induction ps with
  | nil => exact List.Forall₂.nil
  | cons p ps ih =>
    unfold markAll
    split
    · next q h => exact List.Forall₂.cons (markOne_marked h) ih
    · exact List.forall₂_same.mpr fun _ _ => Or.inl rfl

theorem revalue_evolves : Evolves allowed s (revalue now market s).1 :=
  ReflTransGen.single (.marked (markAll_marked s.positions))

/-- The figures that a computation leaves behind. -/
theorem recompute_ok (h : s.recompute = .ok s') : ∃ capital metrics, s.equity = .ok capital ∧
    s.metricsAt capital = .ok metrics ∧ s' = { s with currentCapital := capital, metrics } := by
  unfold recompute at h
  simp only [bind_ok_iff, pure_ok_iff] at h
  obtain ⟨capital, hcap, metrics, hmet, rfl⟩ := h
  exact ⟨capital, metrics, hcap, hmet, rfl⟩

theorem recompute_change (h : s.recompute = .ok s') : Change allowed s s' := by
  obtain ⟨capital, metrics, hcap, hmet, rfl⟩ := recompute_ok h
  exact .measured hcap hmet

theorem recomputing_evolves : Evolves allowed s (recomputing s).1 := by
  unfold recomputing
  split
  · next h => exact ReflTransGen.single (recompute_change h)
  · exact ReflTransGen.refl

theorem andThen_evolves {f g : Step α} (hf : ∀ s, Evolves allowed s (f s).1)
    (hg : ∀ s, Evolves allowed s (g s).1) : Evolves allowed s (f.andThen g s).1 := by
  have h := hf s
  unfold Step.andThen
  split
  · next s₁ hs => rw [hs] at h; exact h.trans (hg s₁)
  · exact h

omit [Arith α] in
/-- What a second step keeps is, after both, what it was after the first. -/
theorem andThen_keeps {β : Type} (F : Session α → β) {f g : Step α} (hg : ∀ s, F (g s).1 = F s)
    (s : Session α) : F (f.andThen g s).1 = F (f s).1 := by
  unfold Step.andThen
  split
  · next s₁ hs => rw [hg, hs]
  · rfl

theorem settle_evolves {signals : List (Signal α)}
    (hsym : ∀ signal ∈ signals, allowed signal.symbol) :
    Evolves allowed s (settle now market signals s).1 :=
  andThen_evolves (fun _ => executeAll_evolves hsym) fun _ =>
    andThen_evolves (fun _ => revalue_evolves) fun _ => recomputing_evolves

/-! ### The cycle -/

/-- What a run of the strategy leaves behind: a session that has a failure of the run on record, and
the signals. -/
def ran (now : Instant) (market : Market α) (s : Session α) : Session α × List (Signal α) :=
  match s.strategy.run now market with
  | .ok outcome => (s, outcome.signals)
  | .error f => (s.record now f, [])

theorem ran_evolves : Evolves allowed s (s.ran now market).1 := by
  unfold ran
  split
  · exact ReflTransGen.refl
  · exact ReflTransGen.single (record_change _)

theorem generates_of_ran {signal : Signal α} (h : signal ∈ (s.ran now market).2) :
    s.strategy.Generates now market signal := by
  unfold ran at h
  split at h
  · next hr => exact Strategy.generates_of_run hr h
  · simp at h

/-- A cycle over a market: the run, then the three steps, then the date or the failure. -/
theorem cycleOver_eq : s.cycleOver now market =
    match settle now market (s.ran now market).2 (s.ran now market).1 with
    | (s, none) => { s with lastUpdated := now }
    | (s, some f) => s.record now f := by
  unfold cycleOver ran
  cases s.strategy.run now market <;> rfl

/-- What follows the run is a sequence of changes. -/
theorem cycleOver_evolves_ran :
    Evolves s.strategy.Trades (s.ran now market).1 (s.cycleOver now market) := by
  have h : Evolves s.strategy.Trades (s.ran now market).1
      (settle now market (s.ran now market).2 (s.ran now market).1).1 :=
    settle_evolves fun _ h => (generates_of_ran h).trades
  rw [cycleOver_eq]
  split
  · next s₁ hs => rw [hs] at h; exact h.tail (.dated now)
  · next s₁ f hs => rw [hs] at h; exact h.tail (record_change f)

theorem cycleOver_evolves : Evolves s.strategy.Trades s (s.cycleOver now market) :=
  ran_evolves.trans cycleOver_evolves_ran

/-- **An update cycle is a sequence of changes,** which trade only what the strategy trades. -/
theorem cycle_evolves (now : Instant) (feed : Feed α) (s : Session α) :
    Evolves s.strategy.Trades s (s.cycle now feed) := by
  unfold cycle
  split
  · exact cycleOver_evolves
  · exact ReflTransGen.single (record_change _)

end Session

end PaperTrading
