import Mathlib.Data.List.Basic
import PaperTrading.Number.Double
import PaperTrading.Proofs.Desk.History

/-!
# The figures of a session

A session shows two kinds of data: cash, positions and log, which the trades change, and the capital
and the metrics, which are computed from them at the end of a cycle.  A cycle that runs to its end
leaves figures that fit.  A failure that cuts a cycle short leaves the old figures beside whatever
the cycle has traded before.

* `Session.Fits`, `Session.FiguresRight`: **figures that fit cash, positions and log.**
* `Session.cutShort`: the failure that cuts a cycle short, if one does; `Session.ReachesFigures`:
  nothing fails before the figures are computed.
* `cycle_complete`, `cycle_stale`: **the figures after a cycle that ran to its end, and after one
  that was cut short.**
* `Desk.figuresRight_of_update_iff`: **exactly when the figures of an updated session fit.**
* `Desk.figures_stale_of_update`: an update that leaves figures which do not fit.
-/

namespace PaperTrading

open Arith

variable {α : Type} [Arith α]

/-! ### Figures that fit -/

/-- A sell that realised a profit above zero. -/
def Transaction.isWinner (t : Transaction α) : Bool := t.profit.any fun x => decide (0.0 < x)

namespace Session

variable {now : Instant} {market : Market α} {feed : Feed α} {s s' : Session α}

/-- **A capital and metrics that fit** cash, positions and log. -/
structure Fits (s : Session α) (capital : α) (metrics : Metrics α) : Prop where
  worth : s.equity = .ok capital
  total : metrics.totalTrades = s.transactions.countP (·.isSell)
  won : metrics.winningTrades = s.transactions.countP fun t => t.isSell && t.isWinner
  lost : metrics.losingTrades = s.transactions.countP fun t => t.isSell && !t.isWinner
  pnl : metrics.totalPnL = capital - s.initialCapital

/-- **The figures that a session shows fit** its cash, positions and log. -/
def FiguresRight (s : Session α) : Prop := s.Fits s.currentCapital s.metrics

omit [Arith α] in
/-- The figures that a session shows. -/
def figures (s : Session α) : α × Metrics α := (s.currentCapital, s.metrics)

/-- Every sell either realised a profit above zero or did not. -/
theorem countP_sells (log : List (Transaction α)) :
    log.countP (·.isSell) = (log.countP fun t => t.isSell && t.isWinner) +
      log.countP fun t => t.isSell && !t.isWinner := by
  induction log with
  | nil => rfl
  | cons t log ih =>
    rw [List.countP_cons, List.countP_cons, List.countP_cons, ih]
    cases t.isSell <;> cases t.isWinner <;> simp <;> omega

omit [Arith α] in
theorem length_sells (s : Session α) : s.sells.length = s.transactions.countP (·.isSell) :=
  List.countP_eq_length_filter.symm

theorem length_winners (s : Session α) :
    s.winners.length = s.transactions.countP fun t => t.isSell && t.isWinner := by
  unfold winners sells
  rw [List.filter_filter, ← List.countP_eq_length_filter]
  exact List.countP_congr fun t _ => by unfold Transaction.isWinner; rw [Bool.and_comm]

theorem metricsAt_ok {capital : α} {metrics : Metrics α} (h : s.metricsAt capital = .ok metrics) :
    metrics.totalPnL = capital - s.initialCapital ∧ metrics.totalTrades = s.sells.length ∧
      metrics.winningTrades = s.winners.length ∧
      metrics.losingTrades = s.sells.length - s.winners.length := by
  unfold metricsAt at h
  dsimp only at h
  split at h
  · simp only [bind_ok_iff, pure_ok_iff] at h
    obtain ⟨rate, -, rfl⟩ := h
    exact ⟨rfl, rfl, rfl, rfl⟩
  · simp only [bind_ok_iff, pure_ok_iff] at h
    obtain ⟨won, -, total, -, rate, -, rfl⟩ := h
    exact ⟨rfl, rfl, rfl, rfl⟩

/-- **A computation of the figures** leaves figures that fit. -/
theorem recompute_figuresRight (h : s.recompute = .ok s') : s'.FiguresRight := by
  obtain ⟨capital, metrics, hcap, hmet, rfl⟩ := recompute_ok h
  obtain ⟨hpnl, htotal, hwon, hlost⟩ := metricsAt_ok hmet
  have hsells := length_sells s
  have hwinners := length_winners s
  have hsum := countP_sells s.transactions
  exact ⟨hcap, htotal.trans hsells, hwon.trans hwinners, by
    show metrics.losingTrades = s.transactions.countP _; omega, hpnl⟩

/-- Figures that fit a session fit every other one with the same worth and the same sells. -/
theorem Fits.congr {capital : α} {metrics : Metrics α} (h : s.Fits capital metrics)
    (hworth : s'.equity = s.equity) (hsells : s'.sells = s.sells)
    (hcap : s'.initialCapital = s.initialCapital) : s'.Fits capital metrics := by
  have htotal : s'.transactions.countP (·.isSell) = s.transactions.countP (·.isSell) := by
    rw [← length_sells, ← length_sells, hsells]
  have hwon : (s'.transactions.countP fun t => t.isSell && t.isWinner) =
      s.transactions.countP fun t => t.isSell && t.isWinner := by
    rw [← length_winners, ← length_winners]
    unfold winners
    rw [hsells]
  have hnew := countP_sells s'.transactions
  have hold := countP_sells s.transactions
  have hlost := h.lost
  refine ⟨hworth.trans h.worth, h.total.trans htotal.symm, h.won.trans hwon.symm, by omega, ?_⟩
  rw [hcap]; exact h.pnl

/-! ### What is done before the figures are computed -/

theorem execute_figures {signal : Signal α} {t : Option (Transaction α)}
    (h : s.execute now market signal = .ok (s', t)) : s'.figures = s.figures := by
  cases execute_ok h with
  | guarded | bought | sold => rfl

/-- A batch computes no figures. -/
theorem executeAll_figures (signals : List (Signal α)) (s : Session α) :
    (executeAll now market signals s).1.figures = s.figures := by
  induction signals generalizing s with
  | nil => rfl
  | cons signal signals ih =>
    unfold executeAll
    split
    · next s₁ t h => exact (ih s₁).trans (execute_figures h)
    · next f _ =>
      split
      · exact ih (s.record now f)
      · rfl

/-- The signals and the marking of a cycle, with the failure that cuts them short. -/
def traded (now : Instant) (market : Market α) : Step α := fun s =>
  (applying now market (s.ran now market).2).andThen (revalue now market) (s.ran now market).1

omit [Arith α] in
theorem andThen_of_none {f g : Step α} (h : (f s).2 = none) : f.andThen g s = g (f s).1 := by
  unfold Step.andThen
  rcases hs : f s with ⟨s₁, cut⟩
  rw [hs] at h
  cases h; rfl

omit [Arith α] in
theorem andThen_of_some {f g : Step α} {e : Failure} (h : (f s).2 = some e) :
    f.andThen g s = f s := by
  unfold Step.andThen
  rcases hs : f s with ⟨s₁, cut⟩
  rw [hs] at h
  cases h; rfl

omit [Arith α] in
theorem andThen_assoc (f g h : Step α) : f.andThen (g.andThen h) = (f.andThen g).andThen h := by
  funext s
  unfold Step.andThen
  rcases f s with ⟨s₁, cut⟩
  cases cut <;> rfl

/-- Signals and marking compute no figures. -/
theorem traded_figures (now : Instant) (market : Market α) (s : Session α) :
    (traded now market s).1.figures = s.figures := by
  have hran : (s.ran now market).1.figures = s.figures := by
    unfold ran; split <;> rfl
  have happlied : (applying now market (s.ran now market).2 (s.ran now market).1).1.figures =
      s.figures := (executeAll_figures _ _).trans hran
  exact (andThen_keeps figures (fun _ => rfl) _).trans happlied

/-! ### Cycles -/

/-- A cycle before its date or its failure goes on record. -/
def attempt (now : Instant) (feed : Feed α) : Step α := fun s =>
  match Market.read feed with
  | .ok market => (traded now market).andThen recomputing s
  | .error f => (s, some f)

/-- **The failure that cuts a cycle short,** if one does. -/
def cutShort (now : Instant) (feed : Feed α) (s : Session α) : Option Failure :=
  (attempt now feed s).2

/-- **Nothing fails before the figures are computed.** -/
def ReachesFigures (now : Instant) (feed : Feed α) (s : Session α) : Prop :=
  ∃ market, Market.read feed = .ok market ∧ (traded now market s).2 = none

theorem cycle_eq_attempt (now : Instant) (feed : Feed α) (s : Session α) : s.cycle now feed =
    match attempt now feed s with
    | (s, none) => { s with lastUpdated := now }
    | (s, some f) => s.record now f := by
  unfold cycle attempt
  cases Market.read feed with
  | error f => rfl
  | ok market =>
    dsimp only
    rw [cycleOver_eq]
    unfold settle
    rw [andThen_assoc]
    rfl

/-- A computation of the figures, as a step, either succeeds or leaves the session as it was. -/
theorem recomputing_cases (s : Session α) :
    (∃ s', s.recompute = .ok s' ∧ recomputing s = (s', none)) ∨
      ∃ f, s.recompute = .error f ∧ recomputing s = (s, some f) := by
  unfold recomputing
  cases s.recompute with
  | ok s' => exact Or.inl ⟨s', rfl, rfl⟩
  | error f => exact Or.inr ⟨f, rfl, rfl⟩

/-- **An attempt leaves figures that fit, or the old ones** when a failure cuts it short. -/
theorem attempt_figures (now : Instant) (feed : Feed α) (s : Session α) :
    ((attempt now feed s).2 = none ∧ (attempt now feed s).1.FiguresRight) ∨
      ∃ f, (attempt now feed s).2 = some f ∧ (attempt now feed s).1.figures = s.figures := by
  unfold attempt
  cases Market.read feed with
  | error f => exact Or.inr ⟨f, rfl, rfl⟩
  | ok market =>
    dsimp only
    have htraded := traded_figures now market s
    cases hcut : (traded now market s).2 with
    | some f =>
      rw [andThen_of_some hcut]
      exact Or.inr ⟨f, hcut, htraded⟩
    | none =>
      rw [andThen_of_none hcut]
      rcases recomputing_cases (traded now market s).1 with ⟨x, hx, heq⟩ | ⟨f, -, heq⟩
      · rw [heq]
        exact Or.inl ⟨rfl, recompute_figuresRight hx⟩
      · rw [heq]
        exact Or.inr ⟨f, rfl, htraded⟩

/-- **A cycle that runs to its end** leaves figures that fit. -/
theorem cycle_complete (h : s.cutShort now feed = none) : (s.cycle now feed).FiguresRight := by
  rcases attempt_figures now feed s with ⟨hnone, hright⟩ | ⟨f, hsome, -⟩
  · rw [cycle_eq_attempt]
    rcases heq : attempt now feed s with ⟨x, cut⟩
    rw [heq] at hnone hright
    cases hnone
    exact ⟨hright.worth, hright.total, hright.won, hright.lost, hright.pnl⟩
  · exact absurd (h.symm.trans hsome) (by simp)

/-- **A cycle that is cut short** leaves the old figures, and its failure on record. -/
theorem cycle_stale {f : Failure} (h : s.cutShort now feed = some f) :
    (s.cycle now feed).figures = s.figures ∧
      ∃ es, (s.cycle now feed).errors = es ++ [⟨f.kind, f.message, now⟩] := by
  rcases attempt_figures now feed s with ⟨hnone, -⟩ | ⟨g, hsome, hold⟩
  · exact absurd (h.symm.trans hnone) (by simp)
  · have hfg : g = f := Option.some.inj (hsome.symm.trans h)
    rw [cycle_eq_attempt]
    rcases heq : attempt now feed s with ⟨x, cut⟩
    rw [heq] at hsome hold
    cases hsome
    rw [hfg]
    exact ⟨hold, x.errors, rfl⟩

/-- **Where the figures fitted before,** a cycle that is cut short leaves figures that fit exactly
if it has sold nothing and its trades and markings have left the worth as it was. -/
theorem figuresRight_iff_of_cutShort {f : Failure} (hs : s.FiguresRight)
    (hcut : s.cutShort now feed = some f) : (s.cycle now feed).FiguresRight ↔
      (s.cycle now feed).equity = s.equity ∧ (s.cycle now feed).sells = s.sells := by
  obtain ⟨hold, -⟩ := cycle_stale hcut
  obtain ⟨hcap, hmet⟩ := Prod.mk.inj hold
  have hcycle := cycle_evolves now feed s
  have hinitial : (s.cycle now feed).initialCapital = s.initialCapital :=
    congrArg (·.2.2.2.1) hcycle.charter
  constructor
  · intro h
    refine ⟨?_, ?_⟩
    · rw [h.worth, hs.worth, hcap]
    · obtain ⟨new, hnew⟩ := hcycle.extends.1
      have htotal := h.total
      rw [hmet, hs.total, ← hnew, List.countP_append] at htotal
      have hnone : new.countP (·.isSell) = 0 := by omega
      have hnil : new.filter (·.isSell) = [] := by
        rw [← List.length_eq_zero_iff, ← List.countP_eq_length_filter]; exact hnone
      unfold sells
      rw [← hnew, List.filter_append, hnil, List.append_nil]
  · rintro ⟨hworth, hsells⟩
    unfold FiguresRight
    rw [hcap, hmet]
    exact hs.congr hworth hsells hinitial

/-- Where figures can always be computed, a cycle that reaches them runs to its end. -/
theorem cutShort_of_reachesFigures (hall : ∀ x : Session α, ∃ y, x.recompute = .ok y)
    (h : s.ReachesFigures now feed) : s.cutShort now feed = none := by
  obtain ⟨market, hmarket, htraded⟩ := h
  unfold cutShort attempt
  rw [hmarket]
  dsimp only
  rw [andThen_of_none htraded]
  rcases recomputing_cases (traded now market s).1 with ⟨x, -, heq⟩ | ⟨f, hf, -⟩
  · rw [heq]
  · obtain ⟨y, hy⟩ := hall (traded now market s).1
    rw [hy] at hf
    cases hf

theorem reachesFigures_of_cutShort (h : s.cutShort now feed = none) :
    s.ReachesFigures now feed := by
  unfold cutShort attempt at h
  unfold ReachesFigures
  cases hmarket : Market.read feed with
  | error f => rw [hmarket] at h; cases h
  | ok market =>
    refine ⟨market, rfl, ?_⟩
    rw [hmarket] at h
    dsimp only at h
    cases hcut : (traded now market s).2 with
    | none => rfl
    | some f =>
      rw [andThen_of_some hcut, hcut] at h
      cases h

/-- **Exactly when the figures fit after a cycle:** when it ran to its end, or the old figures
happen to fit what it has traded. -/
theorem cycle_figuresRight_iff (now : Instant) (feed : Feed α) (s : Session α) :
    (s.cycle now feed).FiguresRight ↔
      s.cutShort now feed = none ∨ (s.cycle now feed).Fits s.currentCapital s.metrics := by
  cases hcut : s.cutShort now feed with
  | none => exact ⟨fun _ => Or.inl rfl, fun _ => cycle_complete hcut⟩
  | some f =>
    obtain ⟨hold, -⟩ := cycle_stale hcut
    obtain ⟨hcap, hmet⟩ := Prod.mk.inj hold
    unfold FiguresRight
    rw [hcap, hmet]
    exact ⟨Or.inr, fun h => h.resolve_left (by simp)⟩

end Session

namespace Desk

/-- **Exactly when the figures of an updated session fit.**  After any history of a desk, an update
runs one cycle of the stored session.  If nothing cuts the cycle short, the figures fit the new
cash, positions and log.  If a failure does, the failure goes on record and the figures are those
from before the cycle, so that they fit only if they fit what the cycle had traded by then: if they
fitted before, only if it had sold nothing and had left the worth of the session as it was. -/
theorem figuresRight_of_update_iff (strategies : List (Strategy α)) (defaults : Defaults α)
    (history : List (Instant × Operation α)) {now : Instant} {id : String} {feed : Feed α}
    {user : Option String} {d' : Desk α} {s' : Session α}
    (h : ((ofStrategies strategies defaults).run history).update now id feed user = (d', .ok s')) :
    ∃ e, ((ofStrategies strategies defaults).run history).store.find? id = some e ∧
      e.session.cycle now feed = s' ∧
      (e.session.cutShort now feed = none → s'.FiguresRight) ∧
      (∀ f, e.session.cutShort now feed = some f → s'.figures = e.session.figures ∧
        ∃ es, s'.errors = es ++ [⟨f.kind, f.message, now⟩]) ∧
      (s'.FiguresRight ↔ e.session.cutShort now feed = none ∨
        s'.Fits e.session.currentCapital e.session.metrics) ∧
      (e.session.FiguresRight → ∀ f, e.session.cutShort now feed = some f →
        (s'.FiguresRight ↔ s'.equity = e.session.equity ∧ s'.sells = e.session.sells)) := by
  obtain ⟨e, he, -, hcycle, -⟩ := update_ok (run_sound strategies defaults history) h
  refine ⟨e, he, hcycle, ?_⟩
  rw [← hcycle]
  exact ⟨Session.cycle_complete, fun f => Session.cycle_stale,
    Session.cycle_figuresRight_iff now feed e.session,
    fun hs f => Session.figuresRight_iff_of_cutShort hs⟩

/-- An update that buys three shares and sells one of them leaves figures that fit. -/
theorem figuresRight_of_whole_cycle : ∃ (d' : Desk Float) (s' : Session Float),
    ((ofStrategies [steady buyAndTrim] .standard).run (updates "SPY" [])).update ⟨0⟩ "ada-steady-0"
      (quoting "SPY" 10) none = (d', .ok s') ∧ s'.transactions.length = 2 ∧ s'.FiguresRight := by
  have h : (((ofStrategies [steady buyAndTrim] (.standard : Defaults Float)).run
      (updates "SPY" [])).update ⟨0⟩ "ada-steady-0" (quoting "SPY" 10) none).2.toOption.any
        (fun s' => s'.transactions.length = 2) = true := by
    decide +kernel
  have hcut : (((ofStrategies [steady buyAndTrim] (.standard : Defaults Float)).run
      (updates "SPY" [])).store.find? "ada-steady-0").any
        (fun e => (e.session.cutShort ⟨0⟩ (quoting "SPY" 10)).isNone) = true := by
    decide +kernel
  obtain ⟨s', hs', hlen⟩ := (Option.any_eq_true _ _).mp h
  have hupdate :=
    (Prod.eta _).symm.trans (congrArg (Prod.mk _) (toOption_eq_some_iff.mp hs'))
  obtain ⟨e, he, -, hright, -⟩ := figuresRight_of_update_iff _ _ _ hupdate
  rw [he] at hcut
  exact ⟨_, s', hupdate, of_decide_eq_true hlen, hright (Option.isNone_iff_eq_none.mp hcut)⟩

/-- **Figures that do not fit.**  Twice, a batch buys three shares, sells one of them and is then
cut short by a buy whose risk is below zero: the log has two sells, and the metrics count none. -/
theorem figures_stale_of_update : ∃ (d' : Desk Float) (s' : Session Float),
    ((ofStrategies [steady (buyAndTrim ++ [trading "buy" "SPY" 0 [("riskLevel", .int (-1))]])]
      .standard).run (updates "SPY" [10])).update ⟨1⟩ "ada-steady-0" (quoting "SPY" 12) none =
        (d', .ok s') ∧ s'.sells.length = 2 ∧ s'.metrics.totalTrades = 0 ∧ ¬ s'.FiguresRight := by
  have h : (((ofStrategies [steady (buyAndTrim ++ [trading "buy" "SPY" 0
      [("riskLevel", .int (-1))]])] (.standard : Defaults Float)).run (updates "SPY" [10])).update
        ⟨1⟩ "ada-steady-0" (quoting "SPY" 12) none).2.toOption.any
          (fun s' => s'.sells.length = 2 ∧ s'.metrics.totalTrades = 0) = true := by
    decide +kernel
  obtain ⟨s', hs', hdec⟩ := (Option.any_eq_true _ _).mp h
  obtain ⟨hsells, hnone⟩ := of_decide_eq_true hdec
  refine ⟨_, s', Prod.ext rfl (toOption_eq_some_iff.mp hs'), hsells, hnone, fun hright => ?_⟩
  have htotal := hright.total
  rw [← Session.length_sells] at htotal
  omega

end Desk

end PaperTrading
