import PaperTrading.Proofs.Desk.Creation

/-!
# Sessions that have been created

A session that is created is added to the store under an identifier of its own, and nothing else about
the desk changes.  It has all its capital in cash and no past.

* `Value.symbolsListed`, `Options.named`: the symbols that options name.
* `chosenSymbols_of_read`: **the symbols of a new session.**
* `Session.Untouched`: a session without a past.
* `opens_of_create`, `Opens.settled`: a request that succeeds, and the session that it opens.
* `create_fresh`: **what a request that succeeds has stored,** under which identifier, and what it has
  left alone.
-/

namespace PaperTrading

variable {α : Type}

/-! ### Symbols -/

/-- The symbols that a value stands for: a text is one symbol, the keys of an object are symbols. -/
def Value.symbolsListed : Value α → List (Value α)
  | text s => if s = "" then [] else [text s]
  | list vs => vs
  | object entries => entries.map fun e => text e.1
  | null | bool _ | int _ | num _ => []

/-- **The symbols that options name.** -/
def Options.named : Value α → List (Value α)
  | .object fields => (Value.get ⟨fields⟩ "symbols").symbolsListed
  | _ => []

section Symbols

variable [Arith α]

theorem Options.readSymbols_ok {v : Value α} {symbols : Option (List (Value α))}
    (h : readSymbols v = .ok symbols) :
    symbols = if v.symbolsListed.isEmpty then .none else some v.symbolsListed := by
  cases v with
  | text s =>
    obtain rfl := Except.ok.inj h
    by_cases hs : s = "" <;> simp [Value.symbolsListed, hs]
  | null => exact (Except.ok.inj h).symm
  | list vs =>
    cases vs <;> exact (Except.ok.inj h).symm
  | object entries =>
    cases entries <;> exact (Except.ok.inj h).symm
  | bool | int | num =>
    unfold readSymbols at h
    dsimp only at h
    split at h
    · cases h
    · exact (Except.ok.inj h).symm

omit [Arith α] in
theorem Options.symbolsListed_firstPresent (fields : Table (Value α)) :
    (firstPresent fields ["symbols"]).symbolsListed = (Value.get fields "symbols").symbolsListed := by
  unfold firstPresent
  cases h : Value.get fields "symbols" with
  | null => simp [h, Value.isMissing]
  | text s => by_cases hs : s = "" <;> simp [h, hs, Value.isMissing, Value.symbolsListed]
  | bool | int | num | list | object => simp [h, Value.isMissing]

/-- No symbols are read where options name none. -/
theorem Options.symbols_of_read {v : Value α} {o : Options α} (h : read v = .ok o) :
    o.symbols = if (named v).isEmpty then .none else some (named v) := by
  obtain ⟨fields, hfields, h⟩ := bind_ok_iff.mp h
  obtain ⟨capital, -, h⟩ := bind_ok_iff.mp h
  obtain ⟨symbols, hsymbols, h⟩ := bind_ok_iff.mp h
  obtain ⟨risk, -, h⟩ := bind_ok_iff.mp h
  obtain ⟨_, -, h⟩ := bind_ok_iff.mp h
  obtain rfl := pure_ok_iff.mp h
  have hnamed : named v = (Value.get fields "symbols").symbolsListed := by
    cases v with
    | object entries =>
      obtain rfl := Except.ok.inj ((fieldsFor_ofTable ⟨entries⟩ "get").symm.trans hfields)
      rfl
    | null | bool | int | num | text | list =>
      -- a document that is no object is read only if it does not count as given
      unfold Value.orElse at hfields
      split at hfields
      · cases hfields
      · obtain rfl := Except.ok.inj hfields
        rfl
  rw [hnamed, ← symbolsListed_firstPresent]
  exact readSymbols_ok hsymbols

/-- **The symbols of a new session** are those that the options name, else those of the strategy, else
the default one. -/
theorem chosenSymbols_of_read {v : Value α} {o : Options α} (h : Options.read v = .ok o)
    (strategy : Strategy α) (defaults : Defaults α) :
    [Options.named v, strategy.symbols, [.text defaults.symbol]].find? (!·.isEmpty) =
      some (chosenSymbols strategy o defaults) := by
  unfold chosenSymbols
  rw [Options.symbols_of_read h]
  by_cases hnamed : (Options.named v).isEmpty = true <;>
    by_cases hstrategy : strategy.symbols.isEmpty = true <;> simp [hnamed, hstrategy]

end Symbols

/-- **A session without a past:** active, with all its capital in cash, and nothing on record. -/
structure Session.Untouched (s : Session α) : Prop where
  active : s.status = .active
  cash : s.cash = s.initialCapital
  worth : s.currentCapital = s.initialCapital
  positions : s.positions = []
  transactions : s.transactions = []
  orders : s.protectiveOrders = []
  errors : s.errors = []

namespace Desk

variable [Arith α] {d d' : Desk α} {now : Instant} {user : Option String} {strategy : String}
  {options : Value α} {s : Session α}

/-- A request that succeeds has opened a session and stored it. -/
theorem opens_of_create (h : d.create now user strategy options = (d', .ok s)) :
    d.Opens now user strategy options s ∧ d' = { d with store := d.store.put s } := by
  have hcreated := created_create d now user strategy options
  rw [h] at hcreated
  cases hcreated with
  | opened hopens => exact ⟨hopens, rfl⟩

/-- A session that is opened takes its symbols from the options, the strategy and the defaults. -/
theorem Opens.settled (h : d.Opens now user strategy options s) :
    d.strategies.find? strategy = some s.strategy ∧ s.Untouched ∧
      [Options.named options, s.strategy.symbols, [.text d.defaults.symbol]].find? (!·.isEmpty) =
        some s.settings.symbols := by
  obtain ⟨a, ha, hs⟩ := h
  obtain ⟨-, hstrategy, hread⟩ := vet_ok ha
  obtain ⟨-, -, -, hs', hactive, hcash, hworth, hpositions, htransactions, horders, herrors⟩ :=
    Session.create_ok hs
  rw [hs']
  refine ⟨hstrategy, ⟨hactive, hcash, hworth, hpositions, htransactions, horders, herrors⟩, ?_⟩
  rw [chosenSymbols_of_read hread, Session.settings_of_create hs]
  rfl

/-- **A request that succeeds** has found a free identifier with at most one look-up more than there
are sessions: the first candidate that is not in use.  It adds a session without a past under this
identifier, whose symbols come from the options, else from the strategy, else from the defaults, and
changes nothing else. -/
theorem create_fresh (h : d.create now user strategy options = (d', .ok s)) :
    (∃ k ≤ d.store.size, s.id = Store.candidate (Session.baseId α now s.user strategy) k ∧
      (∀ j < k, d.store.find? (Store.candidate (Session.baseId α now s.user strategy) j) ≠ none) ∧
      ∀ lookups id, d.store.Search (Session.baseId α now s.user strategy) 0 lookups id ↔
        lookups = k + 1 ∧ id = s.id) ∧
    d.store.find? s.id = none ∧
    d' = { d with store := { d.store with
      sessions := ⟨d.store.sessions.entries ++ [(s.id, ⟨d.store.next, s⟩)]⟩
      next := d.store.next + 1 } } ∧
    user = some s.user ∧ d.strategies.find? strategy = some s.strategy ∧ s.Untouched ∧
    [Options.named options, s.strategy.symbols, [.text d.defaults.symbol]].find? (!·.isEmpty) =
      some s.settings.symbols := by
  obtain ⟨hopens, rfl⟩ := opens_of_create h
  obtain ⟨huser, hfree, hid⟩ := hopens.free
  obtain ⟨hstrategy, huntouched, hsymbols⟩ := hopens.settled
  refine ⟨?_, hfree, ?_, huser, hstrategy, huntouched, hsymbols⟩
  · have hsearch := d.store.search_iff (Session.baseId α now s.user strategy) 0
    simpa only [Nat.zero_add, ← hid] using hsearch
  · have hput := Table.entries_insert_of_none hfree (⟨d.store.next, s⟩ : Stored α)
    rw [← hput]
    rfl

/-- A strategy of a user under a name. -/
def owned (owner id : String) : Strategy Float := { steady buyAndTrim with id, owner }

/-- Two users and two strategies whose names run together, and two sessions of one of them. -/
def namesakes : Desk Float :=
  (ofStrategies [owned "a-b" "c", owned "a" "b-c"] .standard).run
    [(⟨0⟩, .create (some "a-b") "c" .null), (⟨0⟩, .create (some "a-b") "c" .null)]

/-- **The base and its first successor are in use by another user,** so that a third look-up is needed. -/
theorem create_fresh_of_namesakes : ∃ d' s,
    namesakes.create ⟨0⟩ (some "a") "b-c" (.object [("symbols", .text "QQQ")]) = (d', .ok s) ∧
    s.id = "a-b-c-0-2" ∧ d'.store.sessions.keys = ["a-b-c-0", "a-b-c-0-1", "a-b-c-0-2"] ∧
    namesakes.store.Search "a-b-c-0" 0 3 s.id ∧ s.Untouched ∧
    s.settings.symbols = [.text "QQQ"] := by
  have hkeys : namesakes.store.sessions.keys = ["a-b-c-0", "a-b-c-0-1"] := by decide +kernel
  have hid : ((namesakes.create ⟨0⟩ (some "a") "b-c"
      (.object [("symbols", .text "QQQ")])).2.toOption.map (·.id)) = some "a-b-c-0-2" := by
    decide +kernel
  have hbase : Session.baseId Float ⟨0⟩ "a" "b-c" = "a-b-c-0" := by decide +kernel
  obtain ⟨s, hs, hid⟩ := Option.map_eq_some_iff.mp hid
  obtain ⟨d', hd'⟩ : ∃ d', namesakes.create ⟨0⟩ (some "a") "b-c"
      (.object [("symbols", .text "QQQ")]) = (d', .ok s) :=
    ⟨_, Prod.ext rfl (toOption_eq_some_iff.mp hs)⟩
  obtain ⟨⟨k, -, hcandidate, -, hsearch⟩, -, hstored, huser, -, huntouched, hsymbols⟩ :=
    create_fresh hd'
  rw [← Option.some.inj huser, hbase] at hcandidate hsearch
  refine ⟨d', s, hd', hid, ?_, (hsearch _ _).mpr ⟨?_, rfl⟩, huntouched, ?_⟩
  · rw [hstored, Table.keys, List.map_append, ← Table.keys, hkeys]
    simp [hid]
  · have hk : Store.candidate "a-b-c-0" k = Store.candidate "a-b-c-0" 2 := by
      rw [← hcandidate, hid]
      rfl
    rw [Store.candidate_injective _ hk]
  · exact (Option.some.inj hsymbols).symm

end Desk

end PaperTrading
