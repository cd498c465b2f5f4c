import Mathlib.Data.List.Forall2
import Mathlib.Logic.Relation
import PaperTrading.Session.Cycle

/-!
# Changes of a session

Whatever happens to a session is a sequence of small changes: it buys, it sells, it keeps a
protective order, it notes an error, its positions are marked, its figures are computed, it is dated
or stopped. Every later argument about sessions is a case analysis over these changes, so that no
other proof opens the functions that trade.

* `buy_ok`, `sell_ok`, `trade_ok`: what a trade leaves behind.
* `sell_of_sized`, `sell_of_shortage`: what becomes of a sell of so many shares.
* `execute_trade`, `execute_buy`, `execute_sell`: a signal that trades, as a trade.
* `Executes`, `execute_ok`: **what an executed signal leaves behind.**
* `Change`: **one change**, with everything that was checked before it.
* `Evolves`: a sequence of changes; `Evolves.preserves` lifts what a change keeps to a sequence.
* `Change.charter`: no change touches what was fixed when the session was created.
* `Change.extends`: changes only ever add to log, orders and errors.
-/

namespace PaperTrading

open Arith

variable {α : Type}

/-- A position after marking: as it was, or at a price that is not below or at zero. -/
def Position.MarkedAs [Arith α] (p q : Position α) : Prop :=
  q = p ∨ ∃ (x : α) (t : Instant), ¬ x ≤ 0.0 ∧ q = { p with currentPrice := x, lastUpdated := t }

namespace Session

/-- What is fixed about a session when it is created. -/
def charter (s : Session α) :
    String × String × Strategy α × α × Settings α × Instant :=
  (s.id, s.user, s.strategy, s.initialCapital, s.settings, s.startTime)

variable [Arith α] {now : Instant} {market : Market α} {s s' : Session α}

/-! ### What an executed signal leaves behind -/

/-- **A buy that succeeds.** -/
theorem buy_ok {symbol : Value α} {price : α} {quantity : Option Int} {risk : Option α}
    {t : Transaction α} (h : s.buy now symbol price quantity risk = .ok (s', t)) :
    ∃ n cost positions, s.buyQuantity quantity risk price = .ok n ∧ 0 < n ∧
      times price n = .ok cost ∧ ¬ s.cash < cost ∧
      s.positionsAfterBuy now symbol n price cost = .ok positions ∧
      t = ⟨symbol, n, price, cost, now, none⟩ ∧
      s' = { s with positions, cash := s.cash - cost, transactions := s.transactions ++ [t] } := by
  unfold buy at h
  simp only [bind_ok_iff, refuse_ok_iff, pure_ok_iff, Prod.mk.injEq] at h
  obtain ⟨n, hn, hpos, cost, hcost, hcash, positions, hps, rfl, rfl⟩ := h
  exact ⟨n, cost, positions, hn, by omega, hcost, hcash, hps, rfl, rfl⟩

/-- **A sell that succeeds.** -/
theorem sell_ok {symbol : Value α} {price : α} {quantity : Option Int} {risk fraction : Option α}
    {t : Transaction α} (h : s.sell now symbol price quantity risk fraction = .ok (s', t)) :
    ∃ p n value profit, s.positionIn symbol = some p ∧
      s.sellQuantity p quantity risk fraction price = .ok n ∧ 0 < n ∧ n ≤ p.quantity ∧
      times price n = .ok value ∧ times (price - p.averageCost) n = .ok profit ∧
      t = ⟨symbol, n, price, value, now, some profit⟩ ∧
      s' = { s with
        positions := s.positionsAfterSell now symbol p n, cash := s.cash + value
        transactions := s.transactions ++ [t] } := by
  unfold sell at h
  split at h
  · cases h
  · next p hp =>
    simp only [bind_ok_iff, refuse_ok_iff, pure_ok_iff, Prod.mk.injEq] at h
    obtain ⟨n, hn, hle, value, hvalue, profit, hprofit, rfl, rfl⟩ := h
    exact ⟨p, n, value, profit, hp, hn, by omega, by omega, hvalue, hprofit, rfl, rfl⟩

theorem buyQuantity_of_given {n : Int} (h : n ≠ 0) (risk : Option α) (price : α) :
    s.buyQuantity (some n) risk price = .ok n := by
  unfold buyQuantity
  rw [Option.filter_some_pos (by simpa using h)]

theorem sellQuantity_of_given {n : Int} (h : n ≠ 0) (p : Position α) (risk fraction : Option α)
    (price : α) : s.sellQuantity p (some n) risk fraction price = .ok n := by
  unfold sellQuantity
  rw [Option.filter_some_pos (by simpa using h)]

/-- **A sell of so many shares,** at least one and no more than are held. -/
theorem sell_of_sized {symbol : Value α} {price value profit : α} {quantity : Option Int}
    {risk fraction : Option α} {p : Position α} {n : Int} (hp : s.positionIn symbol = some p)
    (hn : s.sellQuantity p quantity risk fraction price = .ok n) (hpos : 0 < n)
    (hle : n ≤ p.quantity) (hvalue : times price n = .ok value)
    (hprofit : times (price - p.averageCost) n = .ok profit) :
    s.sell now symbol price quantity risk fraction = .ok
      ({ s with
        positions := s.positionsAfterSell now symbol p n, cash := s.cash + value
        transactions := s.transactions ++ [⟨symbol, n, price, value, now, some profit⟩] },
        ⟨symbol, n, price, value, now, some profit⟩) := by
  unfold sell
  rw [hp]
  dsimp only
  rw [hn]
  show (if n ≤ 0 ∨ p.quantity < n then _ else _) = _
  rw [if_neg (by omega), hvalue]
  show (times (price - p.averageCost) n >>= _) = _
  rw [hprofit]
  rfl

/-- A sell of no share, or of more than are held, is refused. -/
theorem sell_of_shortage {symbol : Value α} {price : α} {quantity : Option Int}
    {risk fraction : Option α} {p : Position α} {n : Int} (hp : s.positionIn symbol = some p)
    (hn : s.sellQuantity p quantity risk fraction price = .ok n)
    (hshort : n ≤ 0 ∨ p.quantity < n) : s.sell now symbol price quantity risk fraction =
      .error (.notEnoughShares n symbol.display p.quantity) := by
  unfold sell
  rw [hp]
  dsimp only
  rw [hn]
  show (if n ≤ 0 ∨ p.quantity < n then _ else _) = _
  rw [if_pos hshort]
  rfl

/-- **A trade that succeeds** was made at a price that is not below or at zero. -/
theorem trade_ok {symbol : Value α} {price : α} {side : Side} {quantity : Option Int}
    {risk fraction : Option α} {t : Transaction α}
    (h : s.trade now symbol price side quantity risk fraction = .ok (s', t)) :
    ¬ price ≤ 0.0 ∧ (s.buy now symbol price quantity risk = .ok (s', t) ∨
      s.sell now symbol price quantity risk fraction = .ok (s', t)) := by
  unfold trade at h
  split at h
  · cases h
  · next hprice =>
    refine ⟨hprice, ?_⟩
    cases side with
    | buy => exact Or.inl h
    | sell => exact Or.inr h
    | other name => cases h

/-- A signal whose price counts as given is executed at that price. -/
theorem priceIn_of_given {signal : Signal α} {price : α} (h : signal.price = some price)
    (hgiven : isNonzero price = true) : signal.priceIn market = .ok price := by
  unfold Signal.priceIn
  rw [h, Option.filter_some_pos hgiven]

/-- **A signal that trades** is executed as a trade at its price. -/
theorem execute_trade {signal : Signal α} {side : Side} {type : Value α} {quantity : Option Int}
    {risk fraction : Option α} {price : α}
    (ho : signal.order = .trade side type quantity risk fraction)
    (hin : signal.priceIn market = .ok price) :
    s.execute now market signal = (do
      let (s, t) ← s.trade now signal.symbol price side quantity risk fraction
      return (s, some t)) := by
  unfold execute
  rw [ho]
  dsimp only
  rw [hin]
  rfl

section Sides

variable {signal : Signal α} {type : Value α} {quantity : Option Int} {risk fraction : Option α}
  {price : α} (hin : signal.priceIn market = .ok price) (hprice : ¬ price ≤ 0.0)
include hin hprice

/-- At a price that is not below or at zero, a signal that buys is executed as a buy. -/
theorem execute_buy (ho : signal.order = .trade .buy type quantity risk fraction) :
    s.execute now market signal = (do
      let (s, t) ← s.buy now signal.symbol price quantity risk
      return (s, some t)) := by
  rw [execute_trade ho hin]
  unfold trade
  rw [if_neg hprice]

/-- And a signal that sells is executed as a sell. -/
theorem execute_sell (ho : signal.order = .trade .sell type quantity risk fraction) :
    s.execute now market signal = (do
      let (s, t) ← s.sell now signal.symbol price quantity risk fraction
      return (s, some t)) := by
  rw [execute_trade ho hin]
  unfold trade
  rw [if_neg hprice]

end Sides

/-- **What an executed signal leaves behind:** one more protective order, or one trade at its
price. -/
inductive Executes (now : Instant) (market : Market α) (s : Session α) (signal : Signal α) :
    Session α → Option (Transaction α) → Prop
  | guarded {o : ProtectiveOrder α} (hsym : o.symbol = signal.symbol) :
      Executes now market s signal
        { s with protectiveOrders := s.protectiveOrders ++ [o] } none
  | bought {n : Int} {price cost : α} {positions : List (Position α)}
      (hin : signal.priceIn market = .ok price) (hprice : ¬ price ≤ 0.0) (hn : 0 < n)
      (hcost : times price n = .ok cost) (hcash : ¬ s.cash < cost)
      (hps : s.positionsAfterBuy now signal.symbol n price cost = .ok positions) :
      Executes now market s signal
        { s with
          positions, cash := s.cash - cost
          transactions := s.transactions ++ [⟨signal.symbol, n, price, cost, now, none⟩] }
        (some ⟨signal.symbol, n, price, cost, now, none⟩)
  | sold {p : Position α} {n : Int} {price value profit : α}
      (hin : signal.priceIn market = .ok price) (hp : s.positionIn signal.symbol = some p)
      (hprice : ¬ price ≤ 0.0) (hn : 0 < n) (hle : n ≤ p.quantity)
      (hvalue : times price n = .ok value)
      (hprofit : times (price - p.averageCost) n = .ok profit) :
      Executes now market s signal
        { s with
          positions := s.positionsAfterSell now signal.symbol p n, cash := s.cash + value
          transactions := s.transactions ++ [⟨signal.symbol, n, price, value, now, some profit⟩] }
        (some ⟨signal.symbol, n, price, value, now, some profit⟩)

/-- **A signal that is executed.** -/
theorem execute_ok {signal : Signal α} {t : Option (Transaction α)}
    (h : s.execute now market signal = .ok (s', t)) : Executes now market s signal s' t := by
  unfold execute at h
  split at h
  · cases h
    exact .guarded rfl
  · simp only [bind_ok_iff, pure_ok_iff, Prod.mk.injEq] at h
    obtain ⟨price, hin, ⟨s₁, t₁⟩, htrade, rfl, rfl⟩ := h
    obtain ⟨hprice, hbuy | hsell⟩ := trade_ok htrade
    · obtain ⟨n, cost, positions, -, hn, hcost, hcash, hps, rfl, rfl⟩ := buy_ok hbuy
      exact .bought hin hprice hn hcost hcash hps
    · obtain ⟨p, n, value, profit, hp, -, hn, hle, hvalue, hprofit, rfl, rfl⟩ := sell_ok hsell
      exact .sold hin hp hprice hn hle hvalue hprofit

/-! ### Changes -/

/-- **One change of a session.**  The symbols in which it may trade are those that are `allowed`. -/
inductive Change (allowed : Value α → Prop) (s : Session α) : Session α → Prop
  | bought {now : Instant} {symbol : Value α} {n : Int} {price cost : α}
      {positions : List (Position α)} (hsym : allowed symbol) (hprice : ¬ price ≤ 0.0) (hn : 0 < n)
      (hcost : times price n = .ok cost) (hcash : ¬ s.cash < cost)
      (hps : s.positionsAfterBuy now symbol n price cost = .ok positions) :
      Change allowed s { s with
        positions, cash := s.cash - cost
        transactions := s.transactions ++ [⟨symbol, n, price, cost, now, none⟩] }
  | sold {now : Instant} {symbol : Value α} {p : Position α} {n : Int} {price value profit : α}
      (hsym : allowed symbol) (hp : s.positionIn symbol = some p) (hprice : ¬ price ≤ 0.0)
      (hn : 0 < n) (hle : n ≤ p.quantity) (hvalue : times price n = .ok value)
      (hprofit : times (price - p.averageCost) n = .ok profit) :
      Change allowed s { s with
        positions := s.positionsAfterSell now symbol p n, cash := s.cash + value
        transactions := s.transactions ++ [⟨symbol, n, price, value, now, some profit⟩] }
  | guarded (o : ProtectiveOrder α) :
      Change allowed s { s with protectiveOrders := s.protectiveOrders ++ [o] }
  | noted (e : ErrorEntry) : Change allowed s { s with errors := s.errors ++ [e] }
  | marked {positions : List (Position α)}
      (h : List.Forall₂ Position.MarkedAs s.positions positions) :
      Change allowed s { s with positions }
  | measured {capital : α} {metrics : Metrics α} (hcap : s.equity = .ok capital)
      (hmet : s.metricsAt capital = .ok metrics) :
      Change allowed s { s with currentCapital := capital, metrics }
  | dated (t : Instant) : Change allowed s { s with lastUpdated := t }
  | ended (t : Instant) :
      Change allowed s { s with status := .stopped, endTime := some t, lastUpdated := t }

/-- **A sequence of changes.** -/
abbrev Evolves (allowed : Value α → Prop) : Session α → Session α → Prop :=
  Relation.ReflTransGen (Change allowed)

variable {allowed : Value α → Prop}

theorem Change.mono {allowed' : Value α → Prop} (h : Change allowed s s')
    (ha : ∀ v, allowed v → allowed' v) : Change allowed' s s' := by
  cases h with
  | bought hsym hprice hn hcost hcash hps =>
    exact .bought (ha _ hsym) hprice hn hcost hcash hps
  | sold hsym hp hprice hn hle hvalue hprofit =>
    exact .sold (ha _ hsym) hp hprice hn hle hvalue hprofit
  | guarded o => exact .guarded o
  | noted e => exact .noted e
  | marked h => exact .marked h
  | measured hcap hmet => exact .measured hcap hmet
  | dated t => exact .dated t
  | ended t => exact .ended t

theorem Evolves.mono {allowed' : Value α → Prop} (h : Evolves allowed s s')
    (ha : ∀ v, allowed v → allowed' v) : Evolves allowed' s s' :=
  Relation.ReflTransGen.mono (fun _ _ hc => Change.mono hc ha) _ _ h

/-- **No change touches the charter.** -/
theorem Change.charter (h : Change allowed s s') : s'.charter = s.charter := by
  cases h <;> rfl

theorem Evolves.charter (h : Evolves allowed s s') : s'.charter = s.charter := by
  induction h with
  | refl => rfl
  | tail _ hc ih => exact hc.charter.trans ih

/-- **Changes only ever add** to the log, the orders and the errors. -/
theorem Change.extends (hc : Change allowed s s') :
    s.transactions <+: s'.transactions ∧ s.protectiveOrders <+: s'.protectiveOrders ∧
      s.errors <+: s'.errors := by
  cases hc with
  | bought | sold =>
    exact ⟨List.prefix_append _ _, List.prefix_rfl, List.prefix_rfl⟩
  | guarded => exact ⟨List.prefix_rfl, List.prefix_append _ _, List.prefix_rfl⟩
  | noted => exact ⟨List.prefix_rfl, List.prefix_rfl, List.prefix_append _ _⟩
  | marked | measured | dated | ended => exact ⟨List.prefix_rfl, List.prefix_rfl, List.prefix_rfl⟩

theorem Evolves.extends (h : Evolves allowed s s') :
    s.transactions <+: s'.transactions ∧ s.protectiveOrders <+: s'.protectiveOrders ∧
      s.errors <+: s'.errors := by
  induction h with
  | refl => exact ⟨List.prefix_rfl, List.prefix_rfl, List.prefix_rfl⟩
  | tail _ hc ih =>
    obtain ⟨ht, ho, he⟩ := hc.extends
    exact ⟨ih.1.trans ht, ih.2.1.trans ho, ih.2.2.trans he⟩

/-- What every change keeps, a sequence of changes keeps. -/
theorem Evolves.preserves {P : Session α → Prop}
    (hP : ∀ s s', P s → Change allowed s s' → P s') (h : Evolves allowed s s') (hs : P s) :
    P s' := by
  induction h with
  | refl => exact hs
  | tail _ hc ih => exact hP _ _ ih hc

end Session

end PaperTrading
