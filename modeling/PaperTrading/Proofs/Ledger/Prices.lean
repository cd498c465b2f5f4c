import PaperTrading.Proofs.Session.Batch

/-!
# Where prices come from

A trade is made at the live price of its symbol, or at a price that an action block of the strategy
names. No check between the market data and the log changes a price, so whatever the log holds was
quoted or named as it stands.

* `Strategy.Offers`: **the prices at which a strategy may trade** in a market.
* `Strategy.Generates.offers`: a signal carries such a price.
* `Settled.executed`: a batch executes its signals and nothing else.
* `cycle_offers`: **every transaction that a cycle adds** was made at such a price.
-/

namespace PaperTrading

open Arith

variable {α : Type} [Arith α] {now : Instant} {market : Market α}

/-! ### Prices of signals -/

/-- **The prices at which a strategy may trade a symbol:** the live price, and those that its action
blocks name. -/
def Strategy.Offers (s : Strategy α) (market : Market α) (symbol : Value α) (price : α) : Prop :=
  market.livePrice symbol = .ok (some price) ∨
    ∃ b ∈ s.blocksOf .action, symbol = Signal.symbolOf b.settings ∧
      (Value.get b.settings "price").toNumber = .ok price

/-- The price of a block is named by it, or quoted for its symbol. -/
theorem Signal.priceOf_cases {kind : ActionKind} {settings : Table (Value α)} {price : α}
    (h : priceOf kind settings market = .ok (some price)) :
    market.livePrice (symbolOf settings) = .ok (some price) ∨
      (Value.get settings "price").toNumber = .ok price := by
  cases kind with
  | stopLoss | takeProfit => exact .inl h
  | buy | sell =>
    unfold priceOf tradingPrice at h
    dsimp only at h
    split at h
    · obtain ⟨x, hx, hprice⟩ := bind_ok_iff.mp h
      cases hprice
      exact .inr hx
    · exact .inl h

/-- **A signal of a strategy** carries a price at which the strategy may trade its symbol. -/
theorem Strategy.Generates.offers {s : Strategy α} {signal : Signal α}
    (h : s.Generates now market signal) {price : α} (hp : signal.price = some price) :
    s.Offers market signal.symbol price := by
  obtain ⟨b, hb, hg⟩ := h
  obtain ⟨k, x, order, hx, -, rfl⟩ := generate_ok hg
  cases hp
  rcases Signal.priceOf_cases hx with hlive | hnamed
  · exact .inl hlive
  · exact .inr ⟨b, hb, rfl, hnamed⟩

namespace Session

variable {s s' : Session α} {signal : Signal α} {signals : List (Signal α)}
  {t : Transaction α} {ts : List (Transaction α)}

/-! ### Prices of transactions -/

/-- A trade is recorded under the symbol of its signal, at the price of its signal. -/
theorem price_of_execute (h : s.execute now market signal = .ok (s', some t)) :
    t.symbol = signal.symbol ∧ signal.priceIn market = .ok t.price := by
  cases execute_ok h with
  | bought hin => exact ⟨rfl, hin⟩
  | sold hin => exact ⟨rfl, hin⟩

/-- A signal of a strategy that is executed yields a price at which the strategy may trade, or zero
if there is none. -/
theorem offers_of_execute {strategy : Strategy α} (hg : strategy.Generates now market signal)
    (h : s.execute now market signal = .ok (s', some t)) :
    t.price = 0.0 ∨ strategy.Offers market t.symbol t.price := by
  obtain ⟨hsym, hprice⟩ := price_of_execute h
  rw [hsym]
  unfold Signal.priceIn at hprice
  split at hprice
  · next price hp =>
    cases hprice
    exact .inr (hg.offers (Option.filter_eq_some_iff.mp hp).1)
  · obtain ⟨live, hlive, hprice⟩ := bind_ok_iff.mp hprice
    rw [pure_ok_iff] at hprice
    cases live with
    | none => exact .inl hprice.symm
    | some price => exact .inr (.inl (by rw [hlive, ← hprice]; rfl))

/-- **A batch executes its signals and nothing else.** -/
theorem Settled.executed (h : Settled now market s signals s' ts) (ht : t ∈ ts) :
    ∃ signal ∈ signals, ∃ x x', execute now market x signal = .ok (x', some t) := by
  induction h with
  | nil => cases ht
  | cons h _ ih =>
    rcases List.mem_append.mp ht with hhead | htail
    · cases h with
      | traded hexec =>
        cases List.mem_singleton.mp hhead
        exact ⟨_, List.mem_cons_self, _, _, hexec⟩
      | guarded | refused => cases hhead
    · obtain ⟨signal, hm, hexec⟩ := ih htail
      exact ⟨signal, List.mem_cons_of_mem _ hm, hexec⟩

/-- What a batch adds to the log. -/
theorem mem_executeAll (ht : t ∈ (executeAll now market signals s).1.transactions) :
    t ∈ s.transactions ∨
      ∃ signal ∈ signals, ∃ x x', execute now market x signal = .ok (x', some t) := by
  obtain ⟨done, rest, rfl, hdone, -⟩ := executeAll_settled now market signals s
  rw [hdone.effects.1] at ht
  rcases List.mem_append.mp ht with hold | hnew
  · exact .inl hold
  · obtain ⟨signal, hm, hexec⟩ := hdone.executed hnew
    exact .inr ⟨signal, List.mem_append_left _ hm, hexec⟩

/-- After the batch of a cycle the log stays as it is. -/
theorem settle_transactions (now : Instant) (market : Market α) (signals : List (Signal α))
    (s : Session α) : (settle now market signals s).1.transactions =
      (executeAll now market signals s).1.transactions := by
  have hrecomputing : ∀ x : Session α, (recomputing x).1.transactions = x.transactions := by
    intro x
    unfold recomputing
    split
    · next h =>
      obtain ⟨capital, metrics, -, -, rfl⟩ := recompute_ok h
      rfl
    · rfl
  exact andThen_keeps _ (fun x => andThen_keeps _ hrecomputing x) s

/-! ### The cycle -/

/-- **Every transaction that a cycle adds** was made at a price that was quoted or named, or at zero
for want of a price. -/
theorem cycle_offers {feed : Feed α} (ht : t ∈ (s.cycle now feed).transactions) :
    t ∈ s.transactions ∨ ∃ market, Market.read feed = .ok market ∧
      (t.price = 0.0 ∨ s.strategy.Offers market t.symbol t.price) := by
  unfold cycle at ht
  split at ht
  · next market hread =>
    have hlog : (s.cycleOver now market).transactions =
        (executeAll now market (s.ran now market).2 (s.ran now market).1).1.transactions := by
      rw [← settle_transactions, cycleOver_eq]
      split
      · next hs => rw [hs]
      · next hs => rw [hs]; rfl
    have hran : (s.ran now market).1.transactions = s.transactions := by
      unfold ran; split <;> rfl
    rw [hlog] at ht
    rcases mem_executeAll ht with hold | ⟨signal, hm, x, x', hexec⟩
    · exact .inl (hran ▸ hold)
    · exact .inr ⟨market, hread, offers_of_execute (generates_of_ran hm) hexec⟩
  · exact .inl ht

end Session

end PaperTrading
