import PaperTrading.Proofs.Replay.Causality
import PaperTrading.Proofs.Replay.Closing

/-!
# The accounts of a replay

A replay that closes its positions reports the same run three times: as a session with its metrics,
as a summary of the closed trades, and as an equity curve.  In exact arithmetic the three agree, and
they agree with the session that the last update cycle left behind.

* `run_closing_ok`: the parts of a replay that finishes.
* `length_profits`, `length_filter_profits`, `Statistics.of_ok`: the closed trades of the log, and
  what the summary counts.
* `Reconciled`: **a replay that adds up.**
* `replay_reconciled`: every replay that finishes does.
-/

namespace PaperTrading

/-- A summary counts the closed trades, those above zero, and the others. -/
theorem Statistics.of_ok {α : Type} [Arith α] {profits curve : List α} {period : Value α}
    {summary : Statistics α} (h : Statistics.of profits curve period = .ok summary) :
    summary.totalTrades = profits.length ∧
      summary.winningTrades = (profits.filter fun p => 0.0 < p).length ∧
      summary.losingTrades = (profits.filter fun p => p ≤ 0.0).length := by
  unfold Statistics.of at h
  simp only [bind_ok_iff, pure_ok_iff] at h
  obtain ⟨bars, -, ratio, -, rate, -, rfl⟩ := h
  exact ⟨rfl, rfl, rfl⟩

namespace Replay

open Session

section Parts

variable {α : Type} [Arith α] {now : Instant} {candles : Candles α} {strategy : Strategy α}
  {options : Options α} {warmup : Int} {r : Replay α}

/-! ### The parts of a replay -/

/-- The session after the last update cycle; the first one, if there was none. -/
def afterCycles (now : Instant) (candles : Candles α) (warmup : Int) (start : Session α) :
    Session α := (cycles now candles start (indices warmup candles.bars)).getLastD start

/-- **The parts of a replay** that finishes with a sale. -/
theorem run_closing_ok (hbars : candles.bars ≠ 0)
    (h : run now strategy options warmup candles true = .ok r) :
    1 ≤ warmup ∧ ∃ start, initial now strategy (optionsFor options candles) = .ok start ∧
      close now (candles.marketAt (candles.bars - 1)) (afterCycles now candles warmup start) =
        .ok r.session ∧
      r.equityCurve = (start :: cycles now candles start (indices warmup candles.bars) ++
        [r.session]).map (·.currentCapital) ∧
      Statistics.of (profits r.session) r.equityCurve r.session.settings.timePeriod =
        .ok r.statistics := by
  simp only [run, bind_ok_iff, refuse_ok_iff, pure_ok_iff] at h
  obtain ⟨_, hwarm, -, start, hstart, sessions, hcourse, summary, hsummary, rfl⟩ := h
  have hclosing : (true && decide (candles.bars ≠ 0)) = true := by simp [hbars]
  unfold course at hcourse
  dsimp only at hcourse
  rw [if_pos hclosing] at hcourse
  simp only [bind_ok_iff, pure_ok_iff] at hcourse
  obtain ⟨closed, hclosed, rfl⟩ := hcourse
  rw [List.getLastD_cons] at hclosed
  have hlast : ∀ x : Session α, (start :: cycles now candles start
      (indices warmup candles.bars) ++ [closed]).getLastD x = closed := fun x =>
    List.getLastD_concat
  rw [hlast] at hsummary ⊢
  exact ⟨one_le_of_checkWarmup hwarm, start, hstart, hclosed, rfl, hsummary⟩

theorem afterCycles_evolves {start : Session α} (ht : start.strategy.TradesTexts) :
    Evolves Value.Textual start (afterCycles now candles warmup start) := by
  have hmem : afterCycles now candles warmup start ∈
      start :: cycles now candles start (indices warmup candles.bars) := List.getLastD_mem_cons
  rcases List.mem_cons.mp hmem with heq | hmem
  · rw [heq]
  · exact (cycles_evolves hmem).mono fun _ => ht.textual

/-! ### Closed trades -/

omit [Arith α] in
/-- Every sell of the log is a closed trade. -/
theorem length_profits (s : Session α) :
    (profits s).length = s.transactions.countP (·.isSell) :=
  List.length_filterMap_eq_countP

omit [Arith α] in
/-- The closed trades of one kind, counted in the log. -/
theorem length_filter_profits (s : Session α) (kind : α → Bool) :
    ((profits s).filter kind).length = s.transactions.countP fun t => t.profit.any kind := by
  unfold profits
  rw [← List.countP_eq_length_filter, List.countP_filterMap]
  refine List.countP_congr fun t _ => ?_
  cases t.profit <;> rfl

end Parts

/-! ### The accounts -/

/-- **A replay that adds up,** seen from the session `last` after its last update cycle. -/
structure Reconciled (now : Instant) (candles : Candles Rat) (warmup : Int) (last : Session Rat)
    (r : Replay Rat) : Prop where
  /-- Left are the positions without candles, and those with a last close that is not above zero. -/
  left : r.session.positions = last.positions.filter fun p =>
    !candles.covers p.symbol || (candles.lastClose p.symbol).any (· ≤ 0)
  /-- Each of the others is sold in one piece, at its last close. -/
  sold : r.session.transactions = last.transactions ++ last.positions.filterMap fun p =>
    ((candles.lastClose p.symbol).filter (0 < ·)).map (sale now p)
  head : r.equityCurve.head? = some r.session.initialCapital
  points : r.equityCurve.length = 2 + (candles.bars - warmup + 1).toNat
  final : r.equityCurve.getLast? = some r.session.currentCapital
  worth : r.session.currentCapital = r.session.cash +
    (r.session.positions.map fun p => (p.quantity : Rat) * p.currentPrice).sum
  total : r.statistics.totalTrades = r.session.metrics.totalTrades
  winning : r.statistics.winningTrades = r.session.metrics.winningTrades
  losing : r.statistics.losingTrades = r.session.metrics.losingTrades
  /-- What was realised is what was gained, if everything could be sold. -/
  gained : r.session.positions = [] →
    (profits r.session).sum = r.session.currentCapital - r.session.initialCapital

section Exactly

open Exact

variable {root : Rat → Rat} {now : Instant} {candles : Candles Rat} {s : Session Rat}

/-- A closed trade is not won exactly if its profit is not above zero. -/
theorem countP_losers (log : List (Transaction Rat)) :
    (log.countP fun t => t.profit.any fun x => decide (x ≤ (0.0 : Rat))) =
      log.countP fun t => t.isSell && !@Transaction.isWinner Rat (arith root) t := by
  let _ := arith root
  refine List.countP_congr fun t _ => ?_
  unfold Transaction.isSell Transaction.isWinner
  cases t.profit with
  | none => simp
  | some x =>
    show decide (x ≤ (0.0 : Rat)) = true ↔ (true && !decide ((0.0 : Rat) < x)) = true
    simp

/-- **The summary counts what the metrics count.** -/
theorem counts_eq {curve : List Rat} {period : Value Rat} {summary : Statistics Rat}
    (h : @Statistics.of Rat (arith root) (profits s) curve period = .ok summary)
    (hs : @FiguresRight Rat (arith root) s) :
    summary.totalTrades = s.metrics.totalTrades ∧
      summary.winningTrades = s.metrics.winningTrades ∧
      summary.losingTrades = s.metrics.losingTrades := by
  let _ := arith root
  obtain ⟨htotal, hwon, hlost⟩ := Statistics.of_ok h
  rw [length_profits] at htotal
  rw [length_filter_profits] at hwon hlost
  have hsells : (s.transactions.countP fun t => t.profit.any fun x => decide ((0.0 : Rat) < x)) =
      s.transactions.countP fun t => t.isSell && t.isWinner := by
    refine List.countP_congr fun t _ => ?_
    unfold Transaction.isSell Transaction.isWinner
    cases t.profit <;> simp
  exact ⟨htotal.trans hs.total.symm, (hwon.trans hsells).trans hs.won.symm,
    (hlost.trans (countP_losers _)).trans hs.lost.symm⟩

/-- Without positions, what was realised is what was gained. -/
theorem sum_profits (h : s.Conserved) (hs : @FiguresRight Rat (arith root) s)
    (hnone : s.positions = []) : (profits s).sum = s.currentCapital - s.initialCapital := by
  have hlaw := h.conserved
  have hworth := currentCapital_eq hs
  rw [hnone] at hlaw hworth
  have hlaw : s.cash + 0 = s.initialCapital + (profits s).sum := hlaw
  have hworth : s.currentCapital = s.cash + 0 := hworth
  linarith

end Exactly

/-- **A replay adds up.**  Take a replay, in exact arithmetic with any square root, of a strategy
that trades texts over candles with a bar in common.  If it sells its positions at the end and
finishes, then what is left are the positions that have no last close above zero, each of the others
having been sold in one piece; the equity curve leads from the initial capital, over one point for
each update cycle, to the worth of what is left; the summary counts the same trades as the metrics;
and if nothing is left, the closed trades have realised the whole gain. -/
theorem replay_reconciled (root : Rat → Rat) :
    letI := Exact.arith root
    ∀ (now : Instant) (strategy : Strategy Rat) (options : Options Rat) (warmup : Int)
      (candles : Candles Rat) (r : Replay Rat), strategy.TradesTexts → candles.bars ≠ 0 →
      run now strategy options warmup candles true = .ok r →
      ∃ start, initial now strategy (optionsFor options candles) = .ok start ∧
        Reconciled now candles warmup (afterCycles now candles warmup start) r := by
  intro now strategy options warmup candles r ht hbars hrun
  let _ := Exact.arith root
  obtain ⟨hwarm, start, hstart, hclose, hcurve, hsummary⟩ := run_closing_ok hbars hrun
  obtain ⟨id, hcreate⟩ := initial_ok hstart
  obtain ⟨-, -, -, hstr, -, -, hcapital, hps, -⟩ := create_ok hcreate
  have ht : start.strategy.TradesTexts := by rw [hstr]; exact ht
  -- what the cycles and the sale keep
  have hcycles : Evolves Value.Textual start (afterCycles now candles warmup start) :=
    afterCycles_evolves ht
  have hheld : WellHeld (afterCycles now candles warmup start).positions :=
    hcycles.preserves (fun _ _ h hc => hc.wellHeld h) (by rw [hps]; exact wellHeld_nil)
  have hall : Evolves Value.Textual start r.session :=
    hcycles.trans (close_evolves hheld.textual hclose)
  have hconserved : r.session.Conserved :=
    hall.preserves (fun _ _ h hc => hc.conserved h) (create_conserved hcreate)
  have hinitial : r.session.initialCapital = start.initialCapital :=
    congrArg (·.2.2.2.1) hall.charter
  -- what the sale does
  obtain ⟨closed, hclosed, hleft, hsold, hright⟩ := close_sells root now hbars hheld
  obtain rfl : closed = r.session := Except.ok.inj (hclosed.symm.trans hclose)
  obtain ⟨htotal, hwinning, hlosing⟩ := counts_eq hsummary hright
  refine ⟨start, hstart, ?_, hsold, ?_, ?_, ?_, ?_, htotal, hwinning, hlosing,
    sum_profits hconserved hright⟩
  · rw [hleft]
    refine List.filter_congr fun p _ => ?_
    rw [Candles.covers_eq_isSome hbars]
    cases candles.lastClose p.symbol <;> simp
  · rw [hcurve, hinitial, List.map_append, List.map_cons, List.cons_append, List.head?_cons,
      hcapital]
  · rw [hcurve, List.length_map, List.length_append, List.length_cons, List.length_singleton,
      length_cycles, length_indices]
    omega
  · rw [hcurve, List.map_append, List.map_singleton, List.getLast?_concat]
  · rw [currentCapital_eq hright]
    have hmul : ∀ p : Position Rat, p.currentPrice * p.quantity = p.quantity * p.currentPrice :=
      fun p => mul_comm _ _
    simp only [marketValue, hmul]

/-- Candles of two symbols; at the last of three bars, the second one is worth nothing. -/
def failing : Candles Rat :=
  ⟨(recorded [10, 12, 11]).entries ++
    [("QQQ", [5, 6, 0].map fun close => ⟨"", 5, 6, 0, close, 1⟩)]⟩

/-- A strategy that trades in both symbols. -/
def inBoth : Strategy Rat := Desk.steady (Desk.buyAndTrim ++ [Desk.trading "buy" "QQQ" 2 []])

/-- A replay that can sell one of its two positions, and one that can sell all it has. -/
theorem replay_reconciled_of_three_bars :
    letI := Exact.arith id
    inBoth.TradesTexts ∧ failing.bars ≠ 0 ∧ ∃ (start : Session Rat) (a b : Replay Rat),
      run ⟨0⟩ inBoth .none 1 failing true = .ok a ∧
      run ⟨0⟩ inBoth .none 1 (recorded [10, 12, 11]) true = .ok b ∧
      initial ⟨0⟩ inBoth (optionsFor .none failing) = .ok start ∧
      Reconciled ⟨0⟩ failing 1 (afterCycles ⟨0⟩ failing 1 start) a ∧
      a.session.positions.map (·.quantity) = [4] ∧ b.session.positions = [] ∧
      (profits b.session).sum = b.session.currentCapital - b.session.initialCapital := by
  let _ := Exact.arith id
  have ha : (run ⟨0⟩ inBoth .none 1 failing true).toOption.any
      (fun r => r.session.positions.map (·.quantity) = [4]) = true := by
    decide +kernel
  have hb : (run ⟨0⟩ inBoth .none 1 (recorded [10, 12, 11]) true).toOption.any
      (fun r => r.session.positions.isEmpty) = true := by
    decide +kernel
  obtain ⟨a, ha, hleft⟩ := (Option.any_eq_true _ _).mp ha
  obtain ⟨b, hb, hnone⟩ := (Option.any_eq_true _ _).mp hb
  have ha := toOption_eq_some_iff.mp ha
  have hb := toOption_eq_some_iff.mp hb
  have hnone := List.isEmpty_iff.mp hnone
  have ht : inBoth.TradesTexts := by decide +kernel
  have hbars : failing.bars ≠ 0 := by decide
  obtain ⟨start, hstart, hA⟩ := replay_reconciled id _ _ _ _ _ a ht hbars ha
  obtain ⟨_, -, hB⟩ := replay_reconciled id _ _ _ _ _ b ht (by decide) hb
  exact ⟨ht, hbars, start, a, b, ha, hb, hstart, hA, of_decide_eq_true hleft, hnone,
    hB.gained hnone⟩

end Replay

end PaperTrading
