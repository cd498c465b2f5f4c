import PaperTrading.Proofs.Ledger.Figures
import PaperTrading.Proofs.Number.Sign
import PaperTrading.Proofs.Session.Batch

/-!
# What a cycle reports

A cycle never fails.  Whatever fails in it, the market data, the run of the strategy, a signal, the
marking or the metrics, is found among the errors afterwards; and where no error was added, the
whole cycle has been done as it should be.

* `Executed`: the signals of a batch, all of them executed; `Executed.effects` counts what they left.
* `Settlement`: how what follows a run of the strategy can end.
* `Mishap`, `Completed`: **something fails in a cycle,** and nothing does.
* `cycle_reports`: a cycle in which something fails adds an error, and any other one is completed.
* `Desk.no_silent_failure`: **an update of an active session** always returns, and reports what
  failed.
-/

namespace PaperTrading

open Arith

namespace Session

variable {α : Type} [Arith α] {now : Instant} {market : Market α} {feed : Feed α}
  {s s' x y : Session α} {signal : Signal α} {signals : List (Signal α)}
  {ts us : List (Transaction α)}

/-! ### Signals that are all executed -/

/-- **A batch whose signals are all executed,** in order.  Each of them leaves one transaction or one
protective order. -/
inductive Executed (now : Instant) (market : Market α) :
    Session α → List (Signal α) → Session α → List (Transaction α) → Prop
  | nil {s : Session α} : Executed now market s [] s []
  | cons {s s₁ s₂ : Session α} {signal : Signal α} {signals : List (Signal α)}
      {t : Option (Transaction α)} {ts : List (Transaction α)}
      (hexec : s.execute now market signal = .ok (s₁, t))
      (heffect : Executes now market s signal s₁ t)
      (hs : Executed now market s₁ signals s₂ ts) :
      Executed now market s (signal :: signals) s₂ (t.toList ++ ts)

/-- **A signal of a batch fails** when its turn comes. -/
def Raises (now : Instant) (market : Market α) (s : Session α) (signals : List (Signal α)) : Prop :=
  ∃ done signal later x ts f, signals = done ++ signal :: later ∧
    Settled now market s done x ts ∧ x.execute now market signal = .error f

theorem Executed.settled (h : Executed now market s signals s' ts) :
    Settled now market s signals s' ts := by
  induction h with
  | nil => exact .nil
  | cons hexec _ _ ih => exact .cons (settles_of_execute hexec) ih

theorem Executed.errors (h : Executed now market s signals s' ts) : s'.errors = s.errors := by
  induction h with
  | nil => rfl
  | cons _ heffect _ ih =>
    cases heffect with
    | guarded | bought | sold => exact ih

/-- **As many transactions and orders as signals.** -/
theorem Executed.effects (h : Executed now market s signals s' ts) :
    s'.transactions = s.transactions ++ ts ∧ ∃ os : List (ProtectiveOrder α),
      s'.protectiveOrders = s.protectiveOrders ++ os ∧ ts.length + os.length = signals.length := by
  obtain ⟨hlog, os, es, horders, herrors, hcount⟩ := h.settled.effects
  rw [h.errors, List.self_eq_append_right] at herrors
  rw [herrors] at hcount
  exact ⟨hlog, os, horders, hcount⟩

/-- Executed signals are a batch that comes to its end. -/
theorem Executed.executeAll_eq (h : Executed now market s signals s' ts) :
    executeAll now market signals s = (s', ts, none) := by
  induction h with
  | nil => rfl
  | cons hexec _ _ ih => simp only [executeAll, hexec, ih]

/-- Where all signals are executed, none fails. -/
theorem Executed.not_raises (h : Executed now market s signals s' ts) :
    ¬ Raises now market s signals := by
  rintro ⟨done, signal, later, x, us, f, rfl, hdone, hfail⟩
  induction hdone generalizing ts with
  | nil =>
    cases h with
    | cons hexec => rw [hexec] at hfail; cases hfail
  | cons hsettles _ ih =>
    cases h with
    | cons hexec _ hs =>
      cases hsettles with
      | traded hexec' | guarded hexec' => cases hexec.symm.trans hexec'; exact ih hs hfail
      | refused hexec' => rw [hexec] at hexec'; cases hexec'

/-- **A batch that comes to its end** has executed all its signals, or one of them has failed and
left an error. -/
theorem Settled.executed_or_raises (h : Settled now market s signals s' ts) :
    Executed now market s signals s' ts ∨
      Raises now market s signals ∧ s.errors.length < s'.errors.length := by
  induction h with
  | nil => exact .inl .nil
  | @cons s s₁ s₂ signal signals t ts h hs ih =>
    -- a signal that adds no error hands the question on to the rest of the batch
    have hrest : s₁.errors = s.errors → s.execute now market signal = .ok (s₁, t) →
        Executed now market s (signal :: signals) s₂ (t.toList ++ ts) ∨
          Raises now market s (signal :: signals) ∧ s.errors.length < s₂.errors.length := by
      intro herrors hexec
      rcases ih with hdone | ⟨⟨done, signal', later, x, us, f, rfl, hdone, hfail⟩, hgrown⟩
      · exact .inl (.cons hexec (execute_ok hexec) hdone)
      · exact .inr ⟨⟨signal :: done, signal', later, x, _, f, rfl, .cons h hdone, hfail⟩,
          herrors ▸ hgrown⟩
    cases h with
    | traded hexec _ _ _ herrors => exact hrest herrors hexec
    | guarded hexec => exact hrest rfl hexec
    | refused hexec =>
      obtain ⟨-, -, es, -, herrors, -⟩ := hs.effects
      refine .inr ⟨⟨[], signal, signals, s, [], _, rfl, .nil, hexec⟩, ?_⟩
      rw [herrors]
      simp only [List.length_append, List.length_singleton]
      omega

/-! ### After the run -/

/-- **How what follows a run of the strategy can end:** a signal stops the batch, or a position cannot
be marked, or the figures cannot be computed, or all is done. -/
inductive Settlement (now : Instant) (market : Market α) (signals : List (Signal α))
    (s : Session α) : Session α × Option Failure → Prop
  | stopped {x : Session α} {f : Failure} (hraises : Raises now market s signals) :
      Settlement now market signals s (x, some f)
  | unmarked {x y : Session α} {ts : List (Transaction α)} {f : Failure}
      (hdone : Settled now market s signals x ts) (hmark : revalue now market x = (y, some f)) :
      Settlement now market signals s (y, some f)
  | unmeasured {x y : Session α} {ts : List (Transaction α)} {f : Failure}
      (hdone : Settled now market s signals x ts) (hmark : revalue now market x = (y, none))
      (hmeasure : y.recompute = .error f) : Settlement now market signals s (y, some f)
  | completed {x y z : Session α} {ts : List (Transaction α)}
      (hdone : Settled now market s signals x ts) (hmark : revalue now market x = (y, none))
      (hmeasure : y.recompute = .ok z) : Settlement now market signals s (z, none)

theorem settlement (now : Instant) (market : Market α) (signals : List (Signal α))
    (s : Session α) : Settlement now market signals s (settle now market signals s) := by
  obtain ⟨done, rest, rfl, hdone, hend⟩ := executeAll_settled now market signals s
  unfold settle
  rcases hend with ⟨rfl, hnone⟩ | ⟨signal, later, f, rfl, hfail, -, hcut⟩
  · rw [List.append_nil] at hdone hnone ⊢
    have happlied : (applying now market done s).2 = none := hnone
    rw [andThen_of_none happlied]
    rcases hmark : revalue now market (applying now market done s).1 with ⟨y, _ | f⟩
    · rw [andThen_of_none (by rw [hmark]), hmark]
      rcases recomputing_cases y with ⟨z, hz, heq⟩ | ⟨f, hf, heq⟩
      · rw [heq]; exact .completed hdone hmark hz
      · rw [heq]; exact .unmeasured hdone hmark hf
    · rw [andThen_of_some (by rw [hmark]), hmark]
      exact .unmarked hdone hmark
  · have happlied : (applying now market (done ++ signal :: later) s).2 = some f := hcut
    rw [andThen_of_some happlied]
    refine Prod.eta (applying now market (done ++ signal :: later) s) ▸ ?_
    rw [happlied]
    exact .stopped ⟨done, signal, later, _, _, f, rfl, hdone, hfail⟩

/-! ### Cycles -/

/-- **Something fails in a cycle:** the market data cannot be read, the run of the strategy fails, a
signal does when its turn comes, the marking does, or the computation of the metrics. -/
inductive Mishap (now : Instant) (feed : Feed α) (s : Session α) : Prop
  | unread {f : Failure} (hread : Market.read feed = .error f)
  | unrun {market : Market α} {f : Failure} (hread : Market.read feed = .ok market)
      (hrun : s.strategy.run now market = .error f)
  | unexecuted {market : Market α} {outcome : Outcome α} (hread : Market.read feed = .ok market)
      (hrun : s.strategy.run now market = .ok outcome)
      (hraises : Raises now market s outcome.signals)
  | unmarked {market : Market α} {outcome : Outcome α} {x y : Session α}
      {ts : List (Transaction α)} {f : Failure} (hread : Market.read feed = .ok market)
      (hrun : s.strategy.run now market = .ok outcome)
      (hexec : Executed now market s outcome.signals x ts)
      (hmark : revalue now market x = (y, some f))
  | unmeasured {market : Market α} {outcome : Outcome α} {x y : Session α}
      {ts : List (Transaction α)} {f : Failure} (hread : Market.read feed = .ok market)
      (hrun : s.strategy.run now market = .ok outcome)
      (hexec : Executed now market s outcome.signals x ts)
      (hmark : revalue now market x = (y, none)) (hmeasure : y.recompute = .error f)

/-- **A cycle in which nothing fails:** it executes all signals, marks all positions, computes the
figures and is dated. -/
inductive Completed (now : Instant) (feed : Feed α) (s : Session α) : Session α → Prop
  | intro {market : Market α} {outcome : Outcome α} {x y z : Session α}
      {ts : List (Transaction α)} (hread : Market.read feed = .ok market)
      (hrun : s.strategy.run now market = .ok outcome)
      (hexec : Executed now market s outcome.signals x ts)
      (hmark : revalue now market x = (y, none)) (hmeasure : y.recompute = .ok z) :
      Completed now feed s { z with lastUpdated := now }

theorem revalue_errors {f : Option Failure} (h : revalue now market x = (y, f)) :
    y.errors = x.errors := by
  have hy : (revalue now market x).1 = y := by rw [h]
  rw [← hy]
  rfl

theorem recompute_errors (h : s.recompute = .ok s') : s'.errors = s.errors := by
  obtain ⟨capital, metrics, -, -, rfl⟩ := recompute_ok h
  rfl

theorem Completed.errors (h : Completed now feed s s') : s'.errors = s.errors := by
  cases h with
  | intro _ _ hexec hmark hmeasure =>
    exact (recompute_errors hmeasure).trans ((revalue_errors hmark).trans hexec.errors)

/-- Something fails or nothing does. -/
theorem Completed.not_mishap (h : Completed now feed s s') : ¬ Mishap now feed s := by
  obtain ⟨hread, hrun, hexec, hmark, hmeasure⟩ := h
  intro hmis
  cases hmis with
  | unread hread' => cases hread.symm.trans hread'
  | unrun hread' hrun' =>
    cases hread.symm.trans hread'
    cases hrun.symm.trans hrun'
  | unexecuted hread' hrun' hraises =>
    cases hread.symm.trans hread'
    cases hrun.symm.trans hrun'
    exact hexec.not_raises hraises
  | unmarked hread' hrun' hexec' hmark' =>
    cases hread.symm.trans hread'
    cases hrun.symm.trans hrun'
    cases hexec.executeAll_eq.symm.trans hexec'.executeAll_eq
    cases hmark.symm.trans hmark'
  | unmeasured hread' hrun' hexec' hmark' hmeasure' =>
    cases hread.symm.trans hread'
    cases hrun.symm.trans hrun'
    cases hexec.executeAll_eq.symm.trans hexec'.executeAll_eq
    cases hmark.symm.trans hmark'
    cases hmeasure.symm.trans hmeasure'

omit [Arith α] in
theorem length_errors_record (now : Instant) (f : Failure) (s : Session α) :
    (s.record now f).errors.length = s.errors.length + 1 := by
  simp [record, note]

/-- **A cycle after a run that succeeds** adds an error for what fails, or is completed. -/
theorem cycleOver_reports {outcome : Outcome α} (hread : Market.read feed = .ok market)
    (hrun : s.strategy.run now market = .ok outcome) :
    Mishap now feed s ∧ s.errors.length < (s.cycleOver now market).errors.length ∨
      Completed now feed s (s.cycleOver now market) := by
  have hran : s.ran now market = (s, outcome.signals) := by unfold ran; rw [hrun]
  have hevolves : Evolves (fun _ => True) s (settle now market outcome.signals s).1 :=
    settle_evolves fun _ _ => trivial
  have hkept := hevolves.extends.2.2.length_le
  have hend := settlement now market outcome.signals s
  rw [cycleOver_eq, hran]
  dsimp only
  generalize settle now market outcome.signals s = r at hkept hend ⊢
  -- after a cut, the failure that cut is one error more than the batch has left
  have hcut : ∀ {x : Session α} {f : Failure}, s.errors.length ≤ x.errors.length →
      s.errors.length < (x.record now f).errors.length := fun {x f} h => by
    rw [length_errors_record]; omega
  cases hend with
  | stopped hraises => exact .inl ⟨.unexecuted hread hrun hraises, hcut hkept⟩
  | unmarked hdone hmark =>
    rcases hdone.executed_or_raises with hexec | ⟨hraises, -⟩
    · exact .inl ⟨.unmarked hread hrun hexec hmark, hcut hkept⟩
    · exact .inl ⟨.unexecuted hread hrun hraises, hcut hkept⟩
  | unmeasured hdone hmark hmeasure =>
    rcases hdone.executed_or_raises with hexec | ⟨hraises, -⟩
    · exact .inl ⟨.unmeasured hread hrun hexec hmark hmeasure, hcut hkept⟩
    · exact .inl ⟨.unexecuted hread hrun hraises, hcut hkept⟩
  | completed hdone hmark hmeasure =>
    rcases hdone.executed_or_raises with hexec | ⟨hraises, hgrown⟩
    · exact .inr (.intro hread hrun hexec hmark hmeasure)
    · refine .inl ⟨.unexecuted hread hrun hraises, ?_⟩
      show _ < List.length (Session.errors _)
      rw [recompute_errors hmeasure, revalue_errors hmark]
      exact hgrown

/-- **What a cycle reports:** something fails in it and it adds an error, or it is completed. -/
theorem cycle_reports (now : Instant) (feed : Feed α) (s : Session α) :
    Mishap now feed s ∧ s.errors.length < (s.cycle now feed).errors.length ∨
      Completed now feed s (s.cycle now feed) := by
  unfold cycle
  cases hread : Market.read feed with
  | error f =>
    refine .inl ⟨.unread hread, ?_⟩
    rw [length_errors_record]
    exact Nat.lt_succ_self _
  | ok market =>
    cases hrun : s.strategy.run now market with
    | ok outcome => exact cycleOver_reports hread hrun
    | error f =>
      refine .inl ⟨.unrun hread hrun, ?_⟩
      have hran : s.ran now market = (s.record now f, []) := by unfold ran; rw [hrun]
      have hkept : (s.ran now market).1.errors.length ≤ (s.cycleOver now market).errors.length :=
        cycleOver_evolves_ran.extends.2.2.length_le
      rw [hran, length_errors_record] at hkept
      exact hkept

/-- **Errors are added exactly if something fails.** -/
theorem mishap_iff (now : Instant) (feed : Feed α) (s : Session α) :
    s.errors.length < (s.cycle now feed).errors.length ↔ Mishap now feed s := by
  rcases cycle_reports now feed s with ⟨hmis, hgrown⟩ | hcompleted
  · exact ⟨fun _ => hmis, fun _ => hgrown⟩
  · rw [hcompleted.errors]
    exact ⟨fun h => absurd h (Nat.lt_irrefl _), fun h => absurd h hcompleted.not_mishap⟩

/-! ### What a completed cycle has done -/

/-- A marked position has the live price of its symbol. -/
theorem markOne_price {p q : Position α} {price : α} (h : markOne now market p = .ok q)
    (hlive : market.livePrice q.symbol = .ok (some price)) (hpos : ¬ price ≤ 0.0) :
    q.currentPrice = price := by
  have hsymbol : q.symbol = p.symbol := by
    rcases markOne_marked h with rfl | ⟨_, _, _, rfl⟩ <;> rfl
  unfold markOne at h
  rw [hsymbol] at hlive
  rw [hlive] at h
  have hfilter : (some price).filter (fun x => !decide (x ≤ 0.0)) = some price := by
    simp [Option.filter, hpos]
  simp only [bind, Except.bind, hfilter] at h
  cases h
  rfl

/-- **Marked positions have the live prices of their symbols.** -/
theorem markAll_prices {ps qs : List (Position α)} (h : markAll now market ps = (qs, none)) :
    ∀ q ∈ qs, ∀ price, market.livePrice q.symbol = .ok (some price) → ¬ price ≤ 0.0 →
      q.currentPrice = price := by
  induction ps generalizing qs with
  | nil => cases h; simp
  | cons p ps ih =>
    unfold markAll at h
    split at h
    · next q hq =>
      obtain ⟨rfl, hnone⟩ := Prod.mk.inj h
      have hrest : markAll now market ps = ((markAll now market ps).1, none) :=
        Prod.ext rfl hnone
      intro q' hq' price hlive hpos
      rcases List.mem_cons.mp hq' with rfl | hq'
      · exact markOne_price hq hlive hpos
      · exact ih hrest q' hq' price hlive hpos
    · cases h

/-- Figures that were computed are those that a second computation gives. -/
theorem recompute_self (h : s.recompute = .ok s') (now : Instant) :
    ({ s' with lastUpdated := now }).recompute = .ok { s' with lastUpdated := now } := by
  obtain ⟨capital, metrics, hcap, hmet, rfl⟩ := recompute_ok h
  have hcap' : ({ s with
      currentCapital := capital, metrics, lastUpdated := now } : Session α).equity = .ok capital :=
    hcap
  have hmet' : ({ s with
      currentCapital := capital, metrics, lastUpdated := now } : Session α).metricsAt capital =
        .ok metrics := hmet
  unfold recompute
  rw [hcap']
  simp only [bind, Except.bind]
  rw [hmet']
  rfl

/-- **What a completed cycle has done.** -/
theorem Completed.effects (h : Completed now feed s s') : ∃ market outcome x ts os,
    Market.read feed = .ok market ∧ s.strategy.run now market = .ok outcome ∧
    Executed now market s outcome.signals x ts ∧ s'.transactions = s.transactions ++ ts ∧
    s'.protectiveOrders = s.protectiveOrders ++ os ∧
    ts.length + os.length = outcome.signals.length ∧ s'.cash = x.cash ∧
    markAll now market x.positions = (s'.positions, none) ∧ s'.recompute = .ok s' := by
  obtain @⟨market, outcome, x, y, z, ts, hread, hrun, hexec, hmark, hmeasure⟩ := h
  obtain ⟨hlog, os, horders, hcount⟩ := hexec.effects
  have hself := recompute_self hmeasure now
  obtain ⟨capital, metrics, -, -, rfl⟩ := recompute_ok hmeasure
  obtain ⟨rfl, hnone⟩ := Prod.mk.inj hmark
  exact ⟨market, outcome, x, ts, os, hread, hrun, hexec, hlog, horders, hcount, rfl,
    Prod.ext rfl hnone, hself⟩

end Session

namespace Desk

open Session Double

/-- **No silent failure.**  An update of an active session by a user who may use it always returns
the session, which it leaves in the store.  Errors are only ever added, and some are added exactly
if something in the cycle fails.  If none was added, then the signals of the strategy were all
executed in order, each leaving one transaction or one protective order; every position whose
symbol has a live price above zero is at this price; and the capital and the metrics are those that
are computed from the cash, the positions and the log. -/
theorem no_silent_failure {d : Desk Float} {id : String} {e : Stored Float} {user : Option String}
    (hd : d.store.Sound) (he : d.store.find? id = some e)
    (hu : checkOwner user e.session = .ok ()) (hactive : e.session.status = .active)
    (now : Instant) (feed : Feed Float) : ∃ d' s',
      d.update now id feed user = (d', .ok s') ∧ d'.store.find? id = some ⟨e.ticket, s'⟩ ∧
      e.session.errors <+: s'.errors ∧
      (e.session.errors.length < s'.errors.length ↔ Mishap now feed e.session) ∧
      (s'.errors = e.session.errors → ∃ market outcome x ts os,
        Market.read feed = .ok market ∧ e.session.strategy.run now market = .ok outcome ∧
        Executed now market e.session outcome.signals x ts ∧
        s'.transactions = e.session.transactions ++ ts ∧
        s'.protectiveOrders = e.session.protectiveOrders ++ os ∧
        ts.length + os.length = outcome.signals.length ∧ s'.cash = x.cash ∧
        (∀ p ∈ s'.positions, ∀ quote price, p.symbol.lookUp market = .ok (some quote) →
          quote.price = some price → 0.0 < price → p.currentPrice = price) ∧
        s'.recompute = .ok s') := by
  have hevolves := cycle_evolves now feed e.session
  have hid : (e.session.cycle now feed).id = id :=
    (congrArg (·.1) hevolves.charter).trans (hd.keyed he)
  refine ⟨_, _, update_of_active hd he hu hactive now feed, ?_, hevolves.extends.2.2,
    mishap_iff now feed e.session, fun hsame => ?_⟩
  · show ((d.locked id).store.sessions.insert (e.session.cycle now feed).id _).find? id = _
    rw [hid, Table.find?_insert_self]
  · rcases cycle_reports now feed e.session with ⟨-, hgrown⟩ | hcompleted
    · rw [hsame] at hgrown
      exact absurd hgrown (Nat.lt_irrefl _)
    · obtain ⟨market, outcome, x, ts, os, hread, hrun, hexec, hlog, horders, hcount, hcash, hmark,
        hself⟩ := hcompleted.effects
      refine ⟨market, outcome, x, ts, os, hread, hrun, hexec, hlog, horders, hcount, hcash, ?_,
        hself⟩
      intro p hp quote price hquote hprice hpos
      refine markAll_prices hmark p hp price ?_ (not_le_zero_of_pos hpos)
      unfold Market.livePrice Quote.livePrice
      rw [hquote]
      show Except.ok (quote.price.filter isNonzero) = _
      rw [hprice, Option.filter_some, if_pos (isNonzero_of_pos hpos)]

/-- An update in which two signals are executed, and one with market data that cannot be read. -/
theorem no_silent_failure_of_updates : ∃ e : Stored Float,
    atWork.store.find? "ada-steady-0" = some e ∧
    (∃ s', (atWork.update ⟨1⟩ "ada-steady-0" (quoting "SPY" 10) none).2 = .ok s' ∧
      ¬ Mishap ⟨1⟩ (quoting "SPY" 10) e.session ∧ s'.transactions.length = 2 ∧
      s'.recompute = .ok s') ∧
    ∃ s', (atWork.update ⟨1⟩ "ada-steady-0" (.document .null) none).2 = .ok s' ∧
      Mishap ⟨1⟩ (.document .null) e.session := by
  have hsound : atWork.store.Sound := run_sound _ _ _
  have h : (atWork.store.find? "ada-steady-0").any (fun e => e.session.status = .active ∧
      e.session.errors = []) = true := by decide +kernel
  have hgood : (atWork.update ⟨1⟩ "ada-steady-0" (quoting "SPY" 10) none).2.toOption.any
      (fun s => s.errors = [] ∧ s.transactions.length = 2) = true := by decide +kernel
  have hbad : (atWork.update ⟨1⟩ "ada-steady-0" (.document .null) none).2.toOption.any
      (fun s => s.errors.length = 1) = true := by decide +kernel
  obtain ⟨e, he, hdec⟩ := (Option.any_eq_true _ _).mp h
  obtain ⟨hactive, hnone⟩ := of_decide_eq_true hdec
  have hu : checkOwner none e.session = .ok () := rfl
  obtain ⟨d₁, s₁, hup₁, -, -, hiff₁, hdone⟩ :=
    no_silent_failure hsound he hu hactive ⟨1⟩ (quoting "SPY" 10)
  obtain ⟨d₂, s₂, hup₂, -, -, hiff₂, -⟩ :=
    no_silent_failure hsound he hu hactive ⟨1⟩ (.document .null)
  rw [hup₁] at hgood ⊢
  rw [hup₂] at hbad ⊢
  obtain ⟨herrors, hlog⟩ := of_decide_eq_true hgood
  obtain ⟨-, -, -, -, -, -, -, -, -, -, -, -, -, hself⟩ := hdone (herrors.trans hnone.symm)
  refine ⟨e, he, ⟨s₁, rfl, ?_, hlog, hself⟩, s₂, rfl, ?_⟩
  · rw [← hiff₁, herrors, hnone]
    exact Nat.lt_irrefl _
  · rw [← hiff₂, of_decide_eq_true hbad, hnone]
    exact Nat.zero_lt_one

end Desk

end PaperTrading
