import PaperTrading.Proofs.Desk.History
import PaperTrading.Proofs.Ledger.Prices
import PaperTrading.Proofs.Number.Nearest

/-!
# Solvency in doubles

The guards of a trade refuse a price that is below or at zero and a cost that is above the cash. A
double that is not a number is neither, and an infinite cost is not above infinite cash, so cash
that is not a number arises from three sources: the capital, a price, and a buy for an infinite
amount. Nothing else does it, and nothing at all makes cash negative.

* `Session.Numeric`: **a capital and a log without these sources.**
* `Session.Solvent`: the cash does not have the negative sign, and is a number exactly then.
* `Change.solvent`: every change keeps it.
* `Desk.cash_solvent`: **what is known of the cash and the prices of every stored session.**
* `Desk.cash_lost`: a market with a price that is not a number.
-/

namespace PaperTrading

open Double

/-- **A trade in numbers:** its price is one, and if it is a buy then its cost is finite. -/
structure Transaction.Numeric (t : Transaction Float) : Prop where
  price : t.price.isNaN = false
  cost : t.isSell = false → t.total.isInf = false

/-- A capital and a log of trades in numbers. -/
def NumericLog (capital : Float) (log : List (Transaction Float)) : Prop :=
  capital.isNaN = false ∧ ∀ t ∈ log, t.Numeric

theorem numericLog_concat {capital : Float} {log : List (Transaction Float)}
    {t : Transaction Float} :
    NumericLog capital (log ++ [t]) ↔ NumericLog capital log ∧ t.Numeric := by
  unfold NumericLog
  rw [List.forall_mem_append, List.forall_mem_singleton, and_assoc]

namespace Session

/-- **A session in numbers.** -/
def Numeric (s : Session Float) : Prop := NumericLog s.initialCapital s.transactions

/-- **What is known of cash and prices.** -/
structure Solvent (s : Session Float) : Prop where
  not_negative : sign s.cash ≠ some .negative
  prices : ∀ t ∈ s.transactions, ¬ t.price ≤ 0.0
  numeric_iff : sign s.cash = some .positive ↔ s.Numeric

variable {s s' : Session Float} {allowed : Value Float → Prop}

/-! ### Trades -/

/-- **The cash after a buy** does not have the negative sign, and is a number if it was one before
and the buy was made in numbers. -/
theorem sign_bought {cash price cost : Float} (hcash : sign cash ≠ some .negative)
    (hprice : ¬ price ≤ 0.0) (hcost : sign cost = sign price) (hle : ¬ cash < cost) :
    sign (cash - cost) ≠ some .negative ∧ (sign (cash - cost) = some .positive ↔
      sign cash = some .positive ∧ price.isNaN = false ∧ cost.isInf = false) := by
  rw [isNaN_eq_false_iff]
  rcases sign_cases hcash with hnone | hpos
  · rw [sign_sub_none (.inl hnone), hnone]
    simp
  · rcases sign_of_not_le_zero hprice with hnone | hprice
    · rw [sign_sub_none (.inr (hcost.trans hnone)), hnone]
      simp
    · rw [sign_sub hpos (hcost.trans hprice) hle, hpos, hprice]
      cases cost.isInf <;> simp

/-- **The cash after a sell** does not have the negative sign, and is a number if it was one before
and the sell was made in numbers. -/
theorem sign_sold {cash price value : Float} (hcash : sign cash ≠ some .negative)
    (hprice : ¬ price ≤ 0.0) (hvalue : sign value = sign price) :
    sign (cash + value) ≠ some .negative ∧ (sign (cash + value) = some .positive ↔
      sign cash = some .positive ∧ price.isNaN = false) := by
  rw [isNaN_eq_false_iff]
  rcases sign_cases hcash with hnone | hpos
  · rw [sign_add_none (.inl hnone), hnone]
    simp
  · rcases sign_of_not_le_zero hprice with hnone | hprice
    · rw [sign_add_none (.inr (hvalue.trans hnone)), hnone]
      simp
    · rw [sign_add hpos (hvalue.trans hprice), hpos, hprice]
      simp

/-! ### The invariant -/

theorem create_solvent {now : Instant} {id user : String} {strategy : Strategy Float}
    {options : Options Float} {defaults : Defaults Float}
    (h : create now id user strategy options defaults = .ok s) : s.Solvent := by
  obtain ⟨hcap, -, -, -, -, hcash, -, -, hlog, -, -⟩ := create_ok h
  have hsign := sign_of_not_le_zero hcap
  have hnumeric : s.Numeric ↔ s.initialCapital.isNaN = false := by
    unfold Numeric NumericLog
    rw [hlog]
    simp
  refine ⟨?_, by simp [hlog], ?_⟩
  · rw [hcash]
    rcases hsign with h | h <;> rw [h] <;> simp
  · rw [hcash, hnumeric, isNaN_eq_false_iff]
    rcases hsign with h | h <;> rw [h] <;> simp

/-- The invariant with one more trade in the log. -/
theorem Solvent.concat {cash : Float} {t : Transaction Float} (h : s.Solvent)
    (hcap : s'.initialCapital = s.initialCapital) (hlog : s'.transactions = s.transactions ++ [t])
    (hcash : s'.cash = cash) (hprice : ¬ t.price ≤ 0.0) (hneg : sign cash ≠ some .negative)
    (hiff : sign cash = some .positive ↔ sign s.cash = some .positive ∧ t.Numeric) :
    s'.Solvent := by
  refine ⟨hcash ▸ hneg, ?_, ?_⟩
  · rw [hlog, List.forall_mem_append, List.forall_mem_singleton]
    exact ⟨h.prices, hprice⟩
  · rw [hcash, hiff, h.numeric_iff, Numeric, Numeric, hcap, hlog, numericLog_concat]

/-- **Every change keeps the invariant,** whatever is traded. -/
theorem Change.solvent (h : s.Solvent) (hc : Change allowed s s') : s'.Solvent := by
  cases hc with
  | @bought now symbol n price cost positions _ hprice hn hcost hcash hps =>
    obtain ⟨hneg, hiff⟩ := sign_bought h.not_negative hprice (sign_times hn hcost) hcash
    refine h.concat rfl rfl rfl hprice hneg (hiff.trans ?_)
    refine and_congr_right fun _ => ⟨fun hnum => ⟨hnum.1, fun _ => hnum.2⟩, fun hnum => ?_⟩
    exact ⟨hnum.price, hnum.cost rfl⟩
  | @sold now symbol p n price value profit _ hp hprice hn hle hvalue hprofit =>
    obtain ⟨hneg, hiff⟩ := sign_sold h.not_negative hprice (sign_times hn hvalue)
    refine h.concat rfl rfl rfl hprice hneg (hiff.trans ?_)
    refine and_congr_right fun _ => ⟨fun hnum => ⟨hnum, fun hbuy => ?_⟩, fun hnum => hnum.price⟩
    exact absurd hbuy (by simp [Transaction.isSell])
  | guarded | noted | marked | measured | dated | ended =>
    exact ⟨h.not_negative, h.prices, h.numeric_iff⟩

theorem Reachable.solvent (h : s.Reachable) : s.Solvent :=
  h.invariant create_solvent fun _ _ hs hc => hc.solvent hs

/-- In a solvent session the cash is at least zero exactly in numbers. -/
theorem Solvent.zero_le_iff (h : s.Solvent) : 0.0 ≤ s.cash ↔ s.Numeric :=
  (Double.zero_le_iff h.not_negative).trans h.numeric_iff

/-- In a solvent session in numbers all prices are above zero. -/
theorem Solvent.price_pos (h : s.Solvent) (hs : s.Numeric) {t : Transaction Float}
    (ht : t ∈ s.transactions) : 0.0 < t.price := by
  have hnum : sign t.price ≠ none := isNaN_eq_false_iff.mp (hs.2 t ht).price
  exact (not_le_zero_iff.mp (h.prices t ht)).resolve_left hnum

end Session

namespace Desk

open Session

/-- **Cash and prices in doubles.** After any history of a desk, the cash of a stored session is not
below zero and no trade was made at a price below or at zero. The cash is a number that is at least
zero exactly if the capital is a number, every price in the log is one, and no buy cost an infinite
amount; then every price in the log is above zero. Whatever market data come next, a price that
enters the log was quoted by them or named by the strategy. -/
theorem cash_solvent (strategies : List (Strategy Float)) (defaults : Defaults Float)
    (history : List (Instant × Operation Float)) (id : String) (e : Stored Float)
    (he : ((ofStrategies strategies defaults).run history).store.find? id = some e) :
    ¬ e.session.cash < 0.0 ∧ (∀ t ∈ e.session.transactions, ¬ t.price ≤ 0.0) ∧
    (0.0 ≤ e.session.cash ↔ e.session.Numeric) ∧
    (0.0 ≤ e.session.cash → ∀ t ∈ e.session.transactions, 0.0 < t.price) ∧
    ∀ (now : Instant) (feed : Feed Float), ∀ t ∈ (e.session.cycle now feed).transactions,
      t ∈ e.session.transactions ∨ ∃ market, Market.read feed = .ok market ∧
        e.session.strategy.Offers market t.symbol t.price := by
  have h : e.session.Solvent := (reachable_of_find? he).solvent
  refine ⟨not_lt_zero h.not_negative, h.prices, h.zero_le_iff,
    fun hcash t ht => h.price_pos (h.zero_le_iff.mp hcash) ht, fun now feed t ht => ?_⟩
  have hcycle : (e.session.cycle now feed).Solvent :=
    (cycle_evolves now feed e.session).preserves (fun _ _ hs hc => hc.solvent hs) h
  rcases cycle_offers ht with hold | ⟨market, hread, hzero | hoffer⟩
  · exact .inl hold
  · -- a trade for want of a price would have been made at zero
    have hle : t.price ≤ 0.0 := by rw [hzero]; decide
    exact absurd hle (hcycle.prices t ht)
  · exact .inr ⟨market, hread, hoffer⟩

/-- Two updates at prices that are numbers. -/
theorem cash_solvent_of_updates : ∃ e : Stored Float,
    ((ofStrategies [steady buyAndTrim] .standard).run (updates "SPY" [10, 12])).store.find?
      "ada-steady-0" = some e ∧ e.session.transactions.length = 4 ∧ 0.0 ≤ e.session.cash ∧
    e.session.Numeric ∧ ∀ t ∈ e.session.transactions, 0.0 < t.price := by
  have h : (((ofStrategies [steady buyAndTrim] (.standard : Defaults Float)).run
      (updates "SPY" [10, 12])).store.find? "ada-steady-0").any (fun e =>
        e.session.transactions.length = 4 ∧ 0.0 ≤ e.session.cash) = true := by
    decide +kernel
  obtain ⟨e, he, hdec⟩ := (Option.any_eq_true _ _).mp h
  obtain ⟨hlen, hcash⟩ := of_decide_eq_true hdec
  obtain ⟨-, -, hiff, hprices, -⟩ := cash_solvent _ _ _ _ _ he
  exact ⟨e, he, hlen, hcash, hiff.mp hcash, hprices hcash⟩

/-- **Cash that is lost.** A market gives its price as a text that is read, but not as a number. A
buy of one share passes both guards at this price, is recorded at it, and takes all the cash with
it. -/
theorem cash_lost : ∃ e : Stored Float,
    ((ofStrategies [steady [trading "buy" "SPY" 1 []]] .standard).run
      [(⟨0⟩, .create (some "ada") "steady" .null), (⟨1⟩, .update "ada-steady-0"
        (.document (.object [("SPY", .object [("price", .text "nan")])])) none)]).store.find?
      "ada-steady-0" = some e ∧ ¬ 0.0 ≤ e.session.cash ∧ e.session.cash.isNaN = true ∧
    e.session.transactions.length = 1 ∧ ∀ t ∈ e.session.transactions, ¬ 0.0 < t.price := by
  have h : (((ofStrategies [steady [trading "buy" "SPY" 1 []]]
      (.standard : Defaults Float)).run [(⟨0⟩, .create (some "ada") "steady" .null),
        (⟨1⟩, .update "ada-steady-0" (.document (.object [("SPY", .object [("price",
          .text "nan")])])) none)]).store.find? "ada-steady-0").any (fun e =>
        ¬ 0.0 ≤ e.session.cash ∧ e.session.cash.isNaN = true ∧
          e.session.transactions.length = 1 ∧
          ∀ t ∈ e.session.transactions, ¬ 0.0 < t.price) = true := by
    decide +kernel
  obtain ⟨e, he, hdec⟩ := (Option.any_eq_true _ _).mp h
  exact ⟨e, he, of_decide_eq_true hdec⟩

end Desk

end PaperTrading
