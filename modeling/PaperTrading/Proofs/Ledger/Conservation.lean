import Mathlib.Tactic.FieldSimp
import Mathlib.Tactic.Positivity
import Mathlib.Tactic.Ring
import PaperTrading.Proofs.Ledger.Figures
import PaperTrading.Proofs.Ledger.Positions
import PaperTrading.Proofs.Number.Unrounded

/-!
# Money in exact arithmetic

Without rounding, trades neither make nor lose money.  What a session has in cash and what it paid
for its positions is its initial capital and what its sells realised, and the total profit that it
reports is what it realised and what it would realise at the current prices.

* `Session.costBasis`, `Session.realised`, `Session.unrealised`: the three sums of the law.
* `bought_basis`, `sold_basis`: what a trade adds to, or takes from, what was paid for the
  positions.
* `Session.Conserved`: **solvent, with positive prices, and the conservation law.**
* `Change.conserved`: every change keeps it, whatever is traded.
* `Desk.money_conserved`: **the law for every stored session of every history,** and the reported
  profit.
-/

namespace PaperTrading

namespace Session

open Exact

variable {root : Rat → Rat} {s s' : Session Rat} {allowed : Value Rat → Prop}

/-! ### The sums -/

/-- What was paid for the positions. -/
def costBasis (ps : List (Position Rat)) : Rat :=
  (ps.map fun p => (p.quantity : Rat) * p.averageCost).sum

/-- What the sells of a log realised. -/
def realised (log : List (Transaction Rat)) : Rat := (log.filterMap (·.profit)).sum

/-- What a sale of the positions at their current prices would realise. -/
def unrealised (ps : List (Position Rat)) : Rat :=
  (ps.map fun p => (p.quantity : Rat) * (p.currentPrice - p.averageCost)).sum

/-- What the positions are worth at their current prices. -/
def marketValue (ps : List (Position Rat)) : Rat :=
  (ps.map fun p => p.currentPrice * (p.quantity : Rat)).sum

theorem costBasis_append (ps qs : List (Position Rat)) :
    costBasis (ps ++ qs) = costBasis ps + costBasis qs := by
  unfold costBasis; rw [List.map_append, List.sum_append]

theorem costBasis_cons (p : Position Rat) (ps : List (Position Rat)) :
    costBasis (p :: ps) = p.quantity * p.averageCost + costBasis ps := by
  unfold costBasis; rw [List.map_cons, List.sum_cons]

theorem realised_concat (log : List (Transaction Rat)) (t : Transaction Rat) :
    realised (log ++ [t]) = realised log + t.profit.getD 0 := by
  unfold realised
  rw [List.filterMap_append, List.sum_append]
  cases ht : t.profit <;> simp [ht]

/-- What positions are worth is what was paid for them and what they would realise. -/
theorem marketValue_eq (ps : List (Position Rat)) :
    marketValue ps = costBasis ps + unrealised ps := by
  induction ps with
  | nil => simp [marketValue, costBasis, unrealised]
  | cons p ps ih =>
    have hcons : ∀ f : Position Rat → Rat, ((p :: ps).map f).sum = f p + (ps.map f).sum :=
      fun f => by rw [List.map_cons, List.sum_cons]
    unfold marketValue costBasis unrealised at ih ⊢
    rw [hcons, hcons, hcons, ih]
    ring

/-! ### Trades -/

/-- A position of which a share is held, with positive prices. -/
structure Sane (p : Position Rat) : Prop where
  held : 1 ≤ p.quantity
  cost : 0 < p.averageCost
  price : 0 < p.currentPrice

/-- A buy adds what it cost. -/
theorem bought_basis {now : Instant} {symbol : Value Rat} {n : Int} {price cost : Rat}
    {positions : List (Position Rat)} (hs : ∀ p ∈ s.positions, Sane p) (hprice : 0 < price)
    (hn : 0 < n) (hcost : price * n = cost)
    (h : @positionsAfterBuy Rat (arith root) now s symbol n price cost = .ok positions) :
    (∀ p ∈ positions, Sane p) ∧ costBasis positions = costBasis s.positions + cost := by
  let _ := arith root
  rcases positionsAfterBuy_ok h with ⟨-, rfl⟩ | ⟨p, as, bs, paid, average, -, hps, hpaid, havg, rfl⟩
  · refine ⟨?_, ?_⟩
    · rw [List.forall_mem_append, List.forall_mem_singleton]
      exact ⟨hs, hn, hprice, hprice⟩
    · rw [costBasis_append, costBasis_cons, ← hcost]
      simp only [costBasis, List.map_nil, List.sum_nil]
      ring
  · rw [hps] at hs ⊢
    have hp : Sane p := hs p (List.mem_append_right _ List.mem_cons_self)
    have hq : (0 : Rat) < p.quantity := by exact_mod_cast hp.held
    have hn' : (0 : Rat) < n := by exact_mod_cast hn
    have htotal : ((p.quantity + n : Int) : Rat) = p.quantity + n := by push_cast; ring
    have hpaid : p.averageCost * p.quantity = paid := times_ok_iff.mp hpaid
    have hsum : p.quantity + n ≠ 0 := by have := hp.held; omega
    have havg : (paid + cost) / ((p.quantity + n : Int) : Rat) = average :=
      (dividedBy_ok_iff hsum).mp havg
    rw [htotal] at havg
    have haverage : (p.quantity + n) * average = p.quantity * p.averageCost + cost := by
      rw [← havg, ← hpaid]
      field_simp
    refine ⟨forall_mem_replace hs ⟨?_, ?_, hp.price⟩, ?_⟩
    · have := hp.held
      show 1 ≤ p.quantity + n
      omega
    · have hcost' : 0 < cost := by rw [← hcost]; positivity
      show 0 < average
      rw [← havg, ← hpaid]
      have := hp.cost
      positivity
    · rw [costBasis_append, costBasis_append, costBasis_cons, costBasis_cons]
      show costBasis as + (((p.quantity + n : Int) : Rat) * average + costBasis bs) = _
      rw [htotal, haverage]
      ring

/-- A sell takes away what was paid for its shares. -/
theorem sold_basis (now : Instant) {symbol : Value Rat} {p : Position Rat} {n : Int}
    (hs : ∀ p ∈ s.positions, Sane p) (hp : @positionIn Rat (arith root) s symbol = some p)
    (hle : n ≤ p.quantity) :
    (∀ q ∈ @positionsAfterSell Rat (arith root) now s symbol p n, Sane q) ∧
      costBasis (@positionsAfterSell Rat (arith root) now s symbol p n) =
        costBasis s.positions - n * p.averageCost := by
  let _ := arith root
  obtain ⟨as, bs, hps, hnew⟩ := positionsAfterSell_eq now n hp
  rw [hnew]
  rw [hps] at hs ⊢
  have hsane : Sane p := hs p (List.mem_append_right _ List.mem_cons_self)
  by_cases hleft : p.quantity - n ≤ 0
  · have hall : n = p.quantity := by omega
    rw [if_pos hleft, List.append_nil]
    refine ⟨forall_mem_around hs, ?_⟩
    rw [costBasis_append, costBasis_append, costBasis_cons, hall]
    ring
  · rw [if_neg hleft, List.append_assoc, List.singleton_append]
    refine ⟨forall_mem_replace hs ⟨?_, hsane.cost, hsane.price⟩, ?_⟩
    · show 1 ≤ p.quantity - n
      omega
    · rw [costBasis_append, costBasis_append, costBasis_cons, costBasis_cons]
      show costBasis as + (((p.quantity - n : Int) : Rat) * p.averageCost + costBasis bs) = _
      push_cast
      ring

/-! ### The law -/

/-- **Solvent, with positive prices, and the conservation law.** -/
structure Conserved (s : Session Rat) : Prop where
  solvent : 0 ≤ s.cash
  sane : ∀ p ∈ s.positions, Sane p
  conserved : s.cash + costBasis s.positions = s.initialCapital + realised s.transactions

theorem create_conserved {now : Instant} {id user : String} {strategy : Strategy Rat}
    {options : Options Rat} {defaults : Defaults Rat}
    (h : @create Rat (arith root) now id user strategy options defaults = .ok s) :
    s.Conserved := by
  let _ := arith root
  obtain ⟨hpos, -, -, -, -, hcash, -, hps, hlog, -, -⟩ := create_ok h
  have hpos : 0 < s.initialCapital := not_le_zero_iff.mp hpos
  refine ⟨by rw [hcash]; exact hpos.le, by rw [hps]; simp, ?_⟩
  rw [hps, hlog, hcash]
  rfl

/-- **Every change keeps the law,** whatever is traded. -/
theorem Change.conserved (h : s.Conserved) (hc : @Change Rat (arith root) allowed s s') :
    s'.Conserved := by
  let _ := arith root
  have hlaw := h.conserved
  cases hc with
  | @bought now symbol n price cost positions _ hprice hn hcost hcash hps =>
    have hprice : 0 < price := not_le_zero_iff.mp hprice
    have hcost : price * n = cost := times_ok_iff.mp hcost
    have hcash : cost ≤ s.cash := not_lt.mp hcash
    obtain ⟨hsane, hbasis⟩ := bought_basis h.sane hprice hn hcost hps
    refine ⟨sub_nonneg.mpr hcash, hsane, ?_⟩
    show s.cash - cost + costBasis positions = s.initialCapital + realised (s.transactions ++ [_])
    rw [hbasis, realised_concat]
    simp only [Option.getD_none]
    linarith
  | @sold now symbol p n price value profit _ hp hprice hn hle hvalue hprofit =>
    have hprice : 0 < price := not_le_zero_iff.mp hprice
    have hvalue : price * n = value := times_ok_iff.mp hvalue
    have hprofit : (price - p.averageCost) * n = profit := times_ok_iff.mp hprofit
    have hn' : (0 : Rat) < n := by exact_mod_cast hn
    obtain ⟨hsane, hbasis⟩ := sold_basis now h.sane hp hle
    have hpositive : 0 < value := by rw [← hvalue]; positivity
    refine ⟨add_nonneg h.solvent hpositive.le, hsane, ?_⟩
    show s.cash + value + costBasis (s.positionsAfterSell now symbol p n) =
      s.initialCapital + realised (s.transactions ++ [_])
    rw [hbasis, realised_concat, ← hvalue]
    simp only [Option.getD_some]
    rw [← hprofit]
    linarith
  | @marked positions hm =>
    refine ⟨h.solvent, fun q hq => ?_, ?_⟩
    · obtain ⟨p, hp, rfl | ⟨x, t, hx, rfl⟩⟩ := mem_of_marked hm hq
      · exact h.sane q hp
      · have hsane := h.sane p hp
        exact ⟨hsane.held, hsane.cost, not_le_zero_iff.mp hx⟩
    · have hbasis : costBasis positions = costBasis s.positions :=
        congrArg List.sum (map_eq_of_marked (fun p q _ hqty havg => by rw [hqty, havg]) hm)
      show s.cash + costBasis positions = _
      rw [hbasis]; exact hlaw
  | guarded | noted | measured | dated | ended => exact ⟨h.solvent, h.sane, hlaw⟩

theorem Reachable.conserved (h : @Reachable Rat (arith root) s) : s.Conserved := by
  let _ := arith root
  exact h.invariant create_conserved fun _ _ hs hc => hc.conserved hs

/-! ### Figures without rounding -/

theorem equity_eq (s : Session Rat) :
    @equity Rat (arith root) s = .ok (s.cash + marketValue s.positions) := by
  let _ := arith root
  have hworth : (Position.worth : Position Rat → Except Failure Rat) =
      fun p => pure (p.currentPrice * (p.quantity : Rat)) := rfl
  have hall : s.positions.mapM Position.worth =
      (.ok (s.positions.map fun p => p.currentPrice * (p.quantity : Rat)) : Except Failure _) := by
    rw [hworth, List.mapM_pure]; rfl
  unfold equity
  rw [hall]
  show Except.ok (s.cash + Arith.sum _) = _
  rw [sum_eq]; rfl

/-- Without rounding, figures can always be computed. -/
theorem exists_recompute (s : Session Rat) : ∃ s', @recompute Rat (arith root) s = .ok s' := by
  let _ := arith root
  have hmetrics : ∃ metrics, s.metricsAt (s.cash + marketValue s.positions) = .ok metrics := by
    unfold metricsAt
    dsimp only
    split
    · exact ⟨_, rfl⟩
    · exact ⟨_, rfl⟩
  obtain ⟨metrics, hmetrics⟩ := hmetrics
  unfold recompute
  rw [equity_eq]
  show ∃ s', (s.metricsAt (s.cash + marketValue s.positions) >>= fun metrics => pure _) = .ok s'
  rw [hmetrics]
  exact ⟨_, rfl⟩

/-- What a session is worth, if the figures fit. -/
theorem currentCapital_eq (hs : @FiguresRight Rat (arith root) s) :
    s.currentCapital = s.cash + marketValue s.positions := by
  let _ := arith root
  have h : (Except.ok (s.cash + marketValue s.positions) : Except Failure Rat) =
      .ok s.currentCapital := (equity_eq s).symm.trans hs.worth
  exact (Except.ok.inj h).symm

/-- **The total profit** is what was realised and what would be realised now. -/
theorem totalPnL_eq (h : s.Conserved) (hs : @FiguresRight Rat (arith root) s) :
    s.metrics.totalPnL = realised s.transactions + unrealised s.positions := by
  let _ := arith root
  have hcapital := currentCapital_eq hs
  have hlaw := h.conserved
  have hvalue := marketValue_eq s.positions
  calc s.metrics.totalPnL = s.currentCapital - s.initialCapital := hs.pnl
    _ = s.cash + marketValue s.positions - s.initialCapital := by rw [hcapital]
    _ = realised s.transactions + unrealised s.positions := by rw [hvalue]; linarith

end Session

namespace Desk

open Session

/-- **Money is neither made nor lost.**  In exact arithmetic, with any square root, after any
history of a desk: a stored session has no debts, its positions have positive prices, and its cash
with what it paid for its positions is its initial capital with what its sells realised.  After
every cycle that reaches the computation of the figures, the total profit is the realised with the
unrealised one. -/
theorem money_conserved (root : Rat → Rat) :
    letI := Exact.arith root
    ∀ (strategies : List (Strategy Rat)) (defaults : Defaults Rat)
      (history : List (Instant × Operation Rat)) (id : String) (e : Stored Rat),
      ((ofStrategies strategies defaults).run history).store.find? id = some e →
      0 ≤ e.session.cash ∧
      (∀ p ∈ e.session.positions, 0 < p.averageCost ∧ 0 < p.currentPrice) ∧
      e.session.cash + costBasis e.session.positions =
        e.session.initialCapital + realised e.session.transactions ∧
      ∀ (now : Instant) (feed : Feed Rat), e.session.ReachesFigures now feed →
        (e.session.cycle now feed).metrics.totalPnL =
          realised (e.session.cycle now feed).transactions +
            unrealised (e.session.cycle now feed).positions := by
  intro strategies defaults history id e he
  let _ := Exact.arith root
  have h : e.session.Conserved := (reachable_of_find? he).conserved
  refine ⟨h.solvent, fun p hp => ⟨(h.sane p hp).cost, (h.sane p hp).price⟩, h.conserved, ?_⟩
  intro now feed hreach
  have hcycle : (e.session.cycle now feed).Conserved :=
    (cycle_evolves now feed e.session).preserves (fun _ _ hs hc => hc.conserved hs) h
  have hcomplete := cutShort_of_reachesFigures exists_recompute hreach
  exact totalPnL_eq hcycle (cycle_complete hcomplete)

/-- Two updates, each of which buys three shares and sells one of them, and a cycle after them. -/
theorem money_conserved_of_updates :
    letI := Exact.arith id
    ∃ e : Stored Rat, ((ofStrategies [steady buyAndTrim] .standard).run
      (updates "SPY" [10, 12])).store.find? "ada-steady-0" = some e ∧
      e.session.transactions.length = 4 ∧
      e.session.cash + costBasis e.session.positions =
        e.session.initialCapital + realised e.session.transactions ∧
      e.session.ReachesFigures ⟨2⟩ (quoting "SPY" 15) ∧
      (e.session.cycle ⟨2⟩ (quoting "SPY" 15)).metrics.totalPnL =
        realised (e.session.cycle ⟨2⟩ (quoting "SPY" 15)).transactions +
          unrealised (e.session.cycle ⟨2⟩ (quoting "SPY" 15)).positions := by
  let _ := Exact.arith id
  have h : (((ofStrategies [steady buyAndTrim] (.standard : Defaults Rat)).run
      (updates "SPY" [10, 12])).store.find? "ada-steady-0").any (fun e =>
        e.session.transactions.length = 4 ∧
          (e.session.cutShort ⟨2⟩ (quoting "SPY" 15)).isNone) = true := by
    decide +kernel
  obtain ⟨e, he, hdec⟩ := (Option.any_eq_true _ _).mp h
  obtain ⟨hlen, hnone⟩ := of_decide_eq_true hdec
  have hreach := reachesFigures_of_cutShort (Option.isNone_iff_eq_none.mp hnone)
  obtain ⟨-, -, hlaw, hpnl⟩ := money_conserved id _ _ _ _ e he
  exact ⟨e, he, hlen, hlaw, hreach, hpnl _ _ hreach⟩

end Desk

end PaperTrading
