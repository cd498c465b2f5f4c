import PaperTrading.Proofs.Session.Change

/-!
# Failures that a batch does not skip

A batch of signals skips a signal that cannot be executed.  What counts as such a signal is a family
of failures; sizing, conversion and look-up fail outside this family, and end the batch.

* `Stops`: a computation that ends with a failure outside the family, with its laws.
* `Unsized`, `Indivisible`, `Unmergeable`: the numbers with which sizing and averaging fail.
* `Session.Escapes`: **the signals that end a batch,** one case for every cause.
* `Session.stops_execute`: there are no others.
-/

namespace PaperTrading

open Arith

/-! ### Computations that stop -/

section Stops

variable {β γ : Type} {x : Except Failure β} {f : Failure}

/-- **A computation that ends with a failure that no batch skips.** -/
def Stops (x : Except Failure β) : Prop := ∃ f, x = .error f ∧ f.isExecution = false

theorem not_stops_ok (b : β) : ¬ Stops (.ok b) := not_outside_ok b

theorem not_stops_pure (b : β) : ¬ Stops (pure b) := not_outside_pure b

theorem stops_error : Stops (.error f : Except Failure β) ↔ f.isExecution = false := outside_error

theorem stops_bind {g : β → Except Failure γ} :
    Stops (x >>= g) ↔ Stops x ∨ ∃ b, x = .ok b ∧ Stops (g b) := outside_bind

/-- A refusal stops where it applies, unless a batch skips it. -/
theorem stops_refusal {p : Prop} [Decidable p] :
    Stops (if p then .error f else x) ↔ p ∧ f.isExecution = false ∨ ¬ p ∧ Stops x :=
  outside_refusal

/-- The same for a refusal in a sequence of steps. -/
theorem stops_check {p : Prop} [Decidable p] {g : PUnit → Except Failure β} :
    Stops (if p then (throw f : Except Failure PUnit) >>= g else x) ↔
      p ∧ f.isExecution = false ∨ ¬ p ∧ Stops x := stops_refusal

end Stops

/-! ### Numbers -/

section Numbers

variable {α : Type} [Arith α]

/-- An integer that lies beyond the numbers. -/
def Beyond (α : Type) [Arith α] (n : Int) : Prop := ofInt? (α := α) n = none

/-- A number that has no integer part. -/
def NotFinite (x : α) : Prop := isNaN x = true ∨ isInfinite x = true

/-- An integer beyond the numbers has none, which ends any computation that does not provide for it. -/
theorem outside_ofInteger {family : Failure → Bool} (h : family .integerTooLarge = false) (n : Int) :
    Outside family (ofInteger α n) ↔ Beyond α n := by
  unfold ofInteger Beyond
  split
  · next hn => simp [hn, not_outside_ok]
  · next hn => exact iff_of_true (outside_error.mpr h) hn

theorem stops_ofInteger (n : Int) : Stops (ofInteger α n) ↔ Beyond α n := outside_ofInteger rfl n

theorem stops_times (x : α) (n : Int) : Stops (times x n) ↔ Beyond α n := by
  simp only [times, stops_bind, stops_ofInteger, not_stops_pure, and_false, exists_false, or_false]

/-- A product with an integer that is not too large exists. -/
theorem exists_times {n : Int} (h : ¬ Beyond α n) (x : α) : ∃ y, times x n = .ok y := by
  obtain ⟨y, hy⟩ := Option.ne_none_iff_exists'.mp h
  exact ⟨x * y, by simp [times, ofInteger, hy]⟩

theorem stops_quotient (x y : α) : Stops (quotient x y) ↔ (y == 0.0) = true := by
  simp [quotient, stops_refusal, Failure.isExecution, not_stops_ok]

theorem stops_dividedBy (x : α) (n : Int) : Stops (dividedBy x n) ↔ Beyond α n ∨
    ∃ y, ofInteger α n = .ok y ∧ (y == 0.0) = true := by
  simp only [dividedBy, stops_bind, stops_ofInteger, stops_quotient]

theorem stops_floored (x : α) : Stops (floored x) ↔ NotFinite x := by
  by_cases hx : isNaN x = true <;>
    simp [floored, stops_refusal, stops_error, Failure.isExecution, not_stops_ok, NotFinite, hx]

/-- **Numbers with which no quantity can be sized:** cash or risk below zero, or a quotient that is
not finite. -/
def Unsized (cash risk price : α) : Prop :=
  cash < 0.0 ∨ risk < 0.0 ∨ NotFinite (cash * risk / price)

theorem stops_affordable {cash risk price : α} (hprice : ¬ price ≤ 0.0) :
    Stops (Sizing.affordable cash risk price) ↔ Unsized cash risk price := by
  by_cases hcash : cash < 0.0 <;> by_cases hrisk : risk < 0.0 <;>
    simp [Sizing.affordable, stops_error, Failure.isExecution, stops_floored, Unsized, hprice,
      hcash, hrisk]

/-- **Shares of which no part can be taken:** too many for a number, or a product that is not
finite. -/
def Indivisible (held : Int) (fraction : α) : Prop :=
  Beyond α held ∨ ∃ x, ofInteger α held = .ok x ∧ NotFinite (x * clamp fraction + 1e-9)

theorem stops_part (held : Int) (fraction : α) :
    Stops (Sizing.part held fraction) ↔ Indivisible held fraction := by
  simp only [Sizing.part, stops_bind, stops_ofInteger, stops_floored, Indivisible]

/-- **Shares that cannot be averaged with more:** too many for a number, now or then, or none in
total. -/
def Unmergeable (α : Type) [Arith α] (held more : Int) : Prop :=
  Beyond α held ∨ Beyond α (held + more) ∨
    ∃ y, ofInteger α (held + more) = .ok y ∧ (y == 0.0) = true

end Numbers

namespace Session

variable {α : Type} [Arith α] {now : Instant} {market : Market α} {s : Session α}

/-! ### Trades that stop -/

/-- The share of the cash that a trade may commit: its own risk, or that of the session. -/
def tradeRisk (s : Session α) (risk : Option α) : α :=
  (risk.filter isNonzero).getD s.settings.riskPerTrade

/-- **The buys that end a batch.** -/
inductive BuyEscapes (s : Session α) (symbol : Value α) (price : α) (quantity : Option Int)
    (risk : Option α) : Prop
  | unsized (hq : quantity.filter (· ≠ 0) = none) (h : Unsized s.cash (s.tradeRisk risk) price)
  | beyond {n : Int} (hn : s.buyQuantity quantity risk price = .ok n) (hpos : 0 < n)
      (h : Beyond α n)
  | unmergeable {n : Int} {cost : α} {p : Position α}
      (hn : s.buyQuantity quantity risk price = .ok n) (hpos : 0 < n)
      (hcost : times price n = .ok cost) (hcash : ¬ s.cash < cost)
      (hp : s.positionIn symbol = some p) (h : Unmergeable α p.quantity n)

/-- **The sells that end a batch.** -/
inductive SellEscapes (s : Session α) (symbol : Value α) (price : α) (quantity : Option Int)
    (risk fraction : Option α) : Prop
  | unsized {p : Position α} (hp : s.positionIn symbol = some p)
      (hq : quantity.filter (· ≠ 0) = none) (hf : fraction = none)
      (h : Unsized s.cash (s.tradeRisk risk) price)
  | indivisible {p : Position α} {part : α} (hp : s.positionIn symbol = some p)
      (hq : quantity.filter (· ≠ 0) = none) (hf : fraction = some part)
      (h : Indivisible p.quantity part)
  | beyond {p : Position α} {n : Int} (hp : s.positionIn symbol = some p)
      (hn : s.sellQuantity p quantity risk fraction price = .ok n) (hpos : 0 < n)
      (hle : n ≤ p.quantity) (h : Beyond α n)

theorem stops_affordableQuantity {risk : Option α} {price : α} (hprice : ¬ price ≤ 0.0) :
    Stops (s.affordableQuantity risk price) ↔ Unsized s.cash (s.tradeRisk risk) price :=
  stops_affordable hprice

theorem stops_positionsAfterBuy {symbol : Value α} {n : Int} {price cost : α} :
    Stops (s.positionsAfterBuy now symbol n price cost) ↔
      ∃ p, s.positionIn symbol = some p ∧ Unmergeable α p.quantity n := by
  unfold positionsAfterBuy
  cases hp : s.positionIn symbol with
  | none => simp [not_stops_ok]
  | some p =>
    simp only [enlarge, stops_bind, stops_times, stops_dividedBy, not_stops_pure, and_false,
      exists_false, or_false, Option.some.injEq, exists_eq_left', Unmergeable]
    constructor
    · rintro (h | ⟨-, -, h⟩)
      · exact .inl h
      · exact .inr h
    · intro h
      by_cases hheld : Beyond α p.quantity
      · exact .inl hheld
      · obtain ⟨paid, hpaid⟩ := exists_times hheld p.averageCost
        exact .inr ⟨paid, hpaid, h.resolve_left hheld⟩

theorem stops_buyQuantity {quantity : Option Int} {risk : Option α} {price : α}
    (hprice : ¬ price ≤ 0.0) : Stops (s.buyQuantity quantity risk price) ↔
      quantity.filter (· ≠ 0) = none ∧ Unsized s.cash (s.tradeRisk risk) price := by
  unfold buyQuantity
  cases quantity.filter (· ≠ 0) with
  | none => simp [stops_affordableQuantity hprice]
  | some n => simp [not_stops_ok]

/-- **Exactly these buys end a batch.** -/
theorem stops_buy {symbol : Value α} {price : α} {quantity : Option Int} {risk : Option α}
    (hprice : ¬ price ≤ 0.0) : Stops (s.buy now symbol price quantity risk) ↔
      s.BuyEscapes symbol price quantity risk := by
  simp only [buy, stops_bind, stops_check, Failure.isExecution, stops_buyQuantity hprice,
    stops_times, stops_positionsAfterBuy, not_stops_pure, and_false, exists_false, or_false,
    Bool.true_eq_false, false_or]
  constructor
  · rintro (⟨hq, h⟩ | ⟨n, hn, hpos, h | ⟨cost, hcost, hcash, p, hp, h⟩⟩)
    · exact .unsized hq h
    · exact .beyond hn (by omega) h
    · exact .unmergeable hn (by omega) hcost hcash hp h
  · rintro (⟨hq, h⟩ | ⟨hn, hpos, h⟩ | ⟨hn, hpos, hcost, hcash, hp, h⟩)
    · exact .inl ⟨hq, h⟩
    · exact .inr ⟨_, hn, by omega, .inl h⟩
    · exact .inr ⟨_, hn, by omega, .inr ⟨_, hcost, hcash, _, hp, h⟩⟩

theorem stops_sellQuantity {p : Position α} {quantity : Option Int} {risk fraction : Option α}
    {price : α} (hprice : ¬ price ≤ 0.0) :
    Stops (s.sellQuantity p quantity risk fraction price) ↔ quantity.filter (· ≠ 0) = none ∧
      (fraction = none ∧ Unsized s.cash (s.tradeRisk risk) price ∨
        ∃ part, fraction = some part ∧ Indivisible p.quantity part) := by
  unfold sellQuantity
  cases quantity.filter (· ≠ 0) with
  | some n => simp [not_stops_ok]
  | none => cases fraction with
    | none => simp [stops_affordableQuantity hprice]
    | some part => simp [stops_part]

/-- **Exactly these sells end a batch.** -/
theorem stops_sell {symbol : Value α} {price : α} {quantity : Option Int}
    {risk fraction : Option α} (hprice : ¬ price ≤ 0.0) :
    Stops (s.sell now symbol price quantity risk fraction) ↔
      s.SellEscapes symbol price quantity risk fraction := by
  unfold sell
  cases hp : s.positionIn symbol with
  | none =>
    refine ⟨fun h => ?_, ?_⟩
    · exact absurd (stops_error.mp h) (by simp [Failure.isExecution])
    · rintro (⟨hp', -⟩ | ⟨hp', -⟩ | ⟨hp', -⟩) <;> exact absurd (hp.symm.trans hp') (by simp)
  | some p =>
    simp only [stops_bind, stops_check, Failure.isExecution, stops_sellQuantity hprice,
      stops_times, not_stops_pure, and_false, exists_false, or_false, Bool.true_eq_false, false_or]
    constructor
    · -- the value and the profit are both multiples of the same number of shares
      rintro (⟨hq, ⟨hf, h⟩ | ⟨part, hf, h⟩⟩ | ⟨n, hn, hle, h | ⟨value, -, h⟩⟩)
      · exact .unsized hp hq hf h
      · exact .indivisible hp hq hf h
      · exact .beyond hp hn (by omega) (by omega) h
      · exact .beyond hp hn (by omega) (by omega) h
    · rintro (⟨hp', hq, hf, h⟩ | ⟨hp', hq, hf, h⟩ | ⟨hp', hn, hpos, hle, h⟩) <;>
        cases hp.symm.trans hp'
      · exact .inl ⟨hq, .inl ⟨hf, h⟩⟩
      · exact .inl ⟨hq, .inr ⟨_, hf, h⟩⟩
      · exact .inr ⟨_, hn, by omega, .inl h⟩

/-! ### Signals that stop -/

/-- **The signals that end a batch:** a symbol that cannot be looked up where a live price is
needed, and the trades above. -/
inductive Escapes (market : Market α) (s : Session α) (signal : Signal α) : Prop
  | unkeyed {side : Side} {type : Value α} {quantity : Option Int} {risk fraction : Option α}
      {f : Failure} (ho : signal.order = .trade side type quantity risk fraction)
      (hp : signal.price.filter isNonzero = none) (hk : signal.symbol.key = .error f)
  | buy {type : Value α} {quantity : Option Int} {risk fraction : Option α} {price : α}
      (ho : signal.order = .trade .buy type quantity risk fraction)
      (hprice : signal.priceIn market = .ok price) (hpos : ¬ price ≤ 0.0)
      (h : s.BuyEscapes signal.symbol price quantity risk)
  | sell {type : Value α} {quantity : Option Int} {risk fraction : Option α} {price : α}
      (ho : signal.order = .trade .sell type quantity risk fraction)
      (hprice : signal.priceIn market = .ok price) (hpos : ¬ price ≤ 0.0)
      (h : s.SellEscapes signal.symbol price quantity risk fraction)

omit [Arith α] in
theorem stops_key (v : Value α) : Stops v.key ↔ ∃ f, v.key = .error f := by
  constructor
  · rintro ⟨f, h, -⟩
    exact ⟨f, h⟩
  · cases v <;> simp [Value.key, stops_error, not_stops_ok, Failure.isExecution]

theorem stops_priceIn {signal : Signal α} : Stops (signal.priceIn market) ↔
    signal.price.filter isNonzero = none ∧ ∃ f, signal.symbol.key = .error f := by
  unfold Signal.priceIn
  cases signal.price.filter isNonzero with
  | some price => simp [not_stops_ok]
  | none =>
    simp only [Market.livePrice, Value.lookUp, stops_bind, stops_key, not_stops_pure, and_false,
      exists_false, or_false, true_and]

theorem stops_trade {symbol : Value α} {price : α} {side : Side} {quantity : Option Int}
    {risk fraction : Option α} :
    Stops (s.trade now symbol price side quantity risk fraction) ↔ ¬ price ≤ 0.0 ∧
      (side = .buy ∧ s.BuyEscapes symbol price quantity risk ∨
        side = .sell ∧ s.SellEscapes symbol price quantity risk fraction) := by
  unfold trade
  by_cases hprice : price ≤ 0.0
  · simp [hprice, stops_error, Failure.isExecution]
  · cases side with
    | buy => simp [hprice, stops_buy]
    | sell => simp [hprice, stops_sell]
    | other name => simp [hprice, stops_error, Failure.isExecution]

/-- **Exactly these signals end a batch.** -/
theorem stops_execute {signal : Signal α} :
    Stops (s.execute now market signal) ↔ s.Escapes market signal := by
  unfold execute
  cases ho : signal.order with
  | protect protection type value trailingType trailingValue =>
    refine ⟨fun h => absurd h (not_stops_ok _), ?_⟩
    rintro (⟨ho', -⟩ | ⟨ho', -⟩ | ⟨ho', -⟩) <;> exact absurd (ho.symm.trans ho') (by simp)
  | trade side type quantity risk fraction =>
    simp only [stops_bind, stops_priceIn, stops_trade, not_stops_pure, and_false, exists_false,
      or_false]
    constructor
    · rintro (⟨hp, f, hk⟩ | ⟨price, hprice, hpos, ⟨rfl, h⟩ | ⟨rfl, h⟩⟩)
      · exact .unkeyed ho hp hk
      · exact .buy ho hprice hpos h
      · exact .sell ho hprice hpos h
    · rintro (⟨ho', hp, hk⟩ | ⟨ho', hprice, hpos, h⟩ | ⟨ho', hprice, hpos, h⟩) <;>
        cases ho.symm.trans ho'
      · exact .inl ⟨hp, _, hk⟩
      · exact .inr ⟨_, hprice, hpos, .inl ⟨rfl, h⟩⟩
      · exact .inr ⟨_, hprice, hpos, .inr ⟨rfl, h⟩⟩

end Session

end PaperTrading
