import PaperTrading.Proofs.Ledger.Figures
import PaperTrading.Proofs.Strategy.Itinerary

/-!
# Quiet updates

An update whose run emits no signal only appraises the session: it marks the positions to the market
and computes the capital and the metrics.  An appraisal does not depend on the moment but for the
dates that it leaves, and a second one over the same market finds everything done.  The failures that
such an update puts on record are the same every time.

* `Session.Quiet`: **the updates whose run emits no signal.**
* `Session.undated`, `Session.bare`: a session without its dates and its record, and a session without
  whatever an appraisal changes.
* `Session.appraise`: the marking and the figures; `appraise_undated`, `appraise_appraise`: at which
  moment they are computed does not matter, nor that they are computed again.
* `Session.cycle_of_quiet`, `Session.cycle_of_appraised`: **one quiet cycle, and one more.**
* `Desk.quiet_update_idempotent`: **a quiet update of any stored session,** and its repetition.
-/

namespace PaperTrading

variable {α : Type} [Arith α]

/-- The entry of a failure on record. -/
def Failure.entryAt (now : Instant) (f : Failure) : ErrorEntry := ⟨f.kind, f.message, now⟩

/-- A position without its date. -/
def Position.undated (p : Position α) : Position α := { p with lastUpdated := ⟨0⟩ }

/-- A position without its price and its date. -/
def Position.bare (p : Position α) : Position α := { p.undated with currentPrice := 0.0 }

namespace Session

variable {now now' : Instant} {market : Market α} {feed : Feed α} {s t : Session α}

/-! ### Runs without signals -/

/-- **A cycle whose run emits no signal,** or in which no run ends or even starts. -/
def Quiet (now : Instant) (feed : Feed α) (s : Session α) : Prop :=
  ∀ market outcome, Market.read feed = .ok market → s.strategy.run now market = .ok outcome →
    outcome.signals = []

instance (now : Instant) (feed : Feed α) (s : Session α) : Decidable (s.Quiet now feed) :=
  decidable_of_iff ((Market.read feed).toOption.all (fun market =>
      (s.strategy.run now market).toOption.all (·.signals.isEmpty)) = true) (by
    simp only [Option.all_eq_true, toOption_eq_some_iff, List.isEmpty_iff]
    exact ⟨fun h market outcome hmarket => h market hmarket outcome,
      fun h market hmarket outcome => h market outcome hmarket⟩)

/-- The cycle of a session is as quiet at another moment, as long as the strategy stays. -/
theorem Quiet.of_strategy_eq (h : s.Quiet now feed) (hstrategy : t.strategy = s.strategy) :
    t.Quiet now' feed := by
  intro market outcome hmarket hrun
  rw [hstrategy, Strategy.run_dated now now'] at hrun
  cases hfirst : s.strategy.run now market with
  | error f => rw [hfirst] at hrun; cases hrun
  | ok first =>
    rw [hfirst] at hrun
    cases hrun
    dsimp only
    rw [h market first hmarket hfirst, List.map_nil]

/-! ### What an appraisal changes -/

omit [Arith α] in
/-- **A session without dates and without its record.** -/
def undated (s : Session α) : Session α :=
  { s with positions := s.positions.map Position.undated, errors := [], lastUpdated := ⟨0⟩ }

/-- **A session without prices, figures, dates and record:** what an appraisal has to leave alone. -/
def bare (s : Session α) : Session α :=
  { s.undated with
    positions := s.positions.map Position.bare
    currentCapital := 0.0
    metrics := ⟨0.0, 0.0, 0, 0, 0, 0.0⟩ }

/-- **An appraisal:** the positions are marked to the market, and the figures computed. -/
def appraise (now : Instant) (market : Market α) : Step α := (revalue now market).andThen recomputing

theorem bare_undated (s : Session α) : s.undated.bare = s.bare := by
  unfold bare undated
  simp only [List.map_map]
  rfl

/-- A position is marked with a price and a date. -/
theorem markOne_bare {p q : Position α} (h : markOne now market p = .ok q) : q.bare = p.bare := by
  rcases markOne_marked h with rfl | ⟨price, time, -, rfl⟩ <;> rfl

theorem markAll_bare (now : Instant) (market : Market α) (ps : List (Position α)) :
    (markAll now market ps).1.map Position.bare = ps.map Position.bare := by
  induction ps with
  | nil => rfl
  | cons p ps ih =>
    unfold markAll
    split
    · next q hq => rw [List.map_cons, List.map_cons, markOne_bare hq, ih]
    · rfl

/-- A computation of the figures, also one that fails, changes the figures only. -/
theorem recomputing_eq (s : Session α) : ∃ capital metrics,
    (recomputing s).1 = { s with currentCapital := capital, metrics } := by
  rcases recomputing_cases s with ⟨x, hx, heq⟩ | ⟨f, -, heq⟩
  · obtain ⟨capital, metrics, -, -, rfl⟩ := recompute_ok hx
    exact ⟨capital, metrics, by rw [heq]⟩
  · exact ⟨s.currentCapital, s.metrics, by rw [heq]⟩

theorem recomputing_bare (s : Session α) : (recomputing s).1.bare = s.bare := by
  obtain ⟨capital, metrics, heq⟩ := recomputing_eq s
  rw [heq]; rfl

/-- **An appraisal changes prices, figures and dates only.** -/
theorem appraise_bare (now : Instant) (market : Market α) (s : Session α) :
    (appraise now market s).1.bare = s.bare := by
  unfold appraise
  rw [andThen_keeps bare recomputing_bare]
  show { s.bare with positions := (markAll now market s.positions).1.map Position.bare } = s.bare
  rw [markAll_bare]
  rfl

theorem appraise_errors (now : Instant) (market : Market α) (s : Session α) :
    (appraise now market s).1.errors = s.errors := by
  refine andThen_keeps errors (fun s => ?_) s
  obtain ⟨capital, metrics, heq⟩ := recomputing_eq s
  rw [heq]

/-! ### The moment of an appraisal -/

theorem markOne_undated (now : Instant) (market : Market α) (p : Position α) :
    markOne ⟨0⟩ market p.undated = (markOne now market p).map Position.undated := by
  unfold markOne
  show market.livePrice p.symbol >>= _ = _
  cases market.livePrice p.symbol with
  | error f => rfl
  | ok price =>
    simp only [bind, Except.bind]
    cases price.filter fun x => !decide (x ≤ 0.0) <;> rfl

theorem markAll_undated (now : Instant) (market : Market α) (ps : List (Position α)) :
    markAll ⟨0⟩ market (ps.map Position.undated) =
      ((markAll now market ps).1.map Position.undated, (markAll now market ps).2) := by
  induction ps with
  | nil => rfl
  | cons p ps ih =>
    rw [List.map_cons, markAll, markAll, markOne_undated now, ih]
    cases markOne now market p <;> rfl

theorem equity_undated (s : Session α) : s.undated.equity = s.equity := by
  unfold equity undated
  rw [List.mapM_map]
  rfl

theorem recomputing_undated (s : Session α) :
    recomputing s.undated = ((recomputing s).1.undated, (recomputing s).2) := by
  have hmetrics : ∀ capital, s.undated.metricsAt capital = s.metricsAt capital := fun _ => rfl
  unfold recomputing recompute
  rw [equity_undated]
  cases s.equity with
  | error f => rfl
  | ok capital =>
    simp only [bind, Except.bind]
    rw [hmetrics]
    cases s.metricsAt capital <;> rfl

/-- **An appraisal at any moment** is the timeless one, with its dates. -/
theorem appraise_undated (now : Instant) (market : Market α) (s : Session α) :
    appraise ⟨0⟩ market s.undated =
      ((appraise now market s).1.undated, (appraise now market s).2) := by
  have hmarked : revalue ⟨0⟩ market s.undated =
      ((revalue now market s).1.undated, (revalue now market s).2) := by
    unfold revalue
    have hpositions : s.undated.positions = s.positions.map Position.undated := rfl
    rw [hpositions, markAll_undated now]
    rfl
  unfold appraise
  cases hcut : (revalue now market s).2 with
  | some f =>
    have hcut' : (revalue ⟨0⟩ market s.undated).2 = some f := by rw [hmarked]; exact hcut
    rw [andThen_of_some hcut, andThen_of_some hcut', hmarked]
  | none =>
    have hcut' : (revalue ⟨0⟩ market s.undated).2 = none := by rw [hmarked]; exact hcut
    rw [andThen_of_none hcut, andThen_of_none hcut', hmarked]
    exact recomputing_undated _

/-! ### Appraisals twice -/

theorem markOne_markOne {p q : Position α} (h : markOne now market p = .ok q) :
    markOne now market q = .ok q := by
  unfold markOne at h ⊢
  obtain ⟨price, hprice, h⟩ := bind_ok_iff.mp h
  split at h
  · next x hx =>
    cases h
    refine bind_ok_iff.mpr ⟨price, hprice, ?_⟩
    rw [hx]; rfl
  · next hx =>
    cases h
    exact bind_ok_iff.mpr ⟨price, hprice, by rw [hx]; rfl⟩

theorem markAll_markAll (now : Instant) (market : Market α) (ps : List (Position α)) :
    markAll now market (markAll now market ps).1 = markAll now market ps := by
  induction ps with
  | nil => rfl
  | cons p ps ih =>
    cases hp : markOne now market p with
    | error f =>
      have hall : markAll now market (p :: ps) = (p :: ps, some f) := by rw [markAll, hp]
      rw [hall, hall]
    | ok q =>
      have hall : ∀ p qs, markOne now market p = .ok q → markAll now market (p :: qs) =
          (q :: (markAll now market qs).1, (markAll now market qs).2) := fun p qs hp => by
        rw [markAll, hp]
      rw [hall p ps hp, hall q _ (markOne_markOne hp), ih]

theorem recomputing_recomputing (s : Session α) :
    recomputing (recomputing s).1 = recomputing s := by
  rcases recomputing_cases s with ⟨x, hx, heq⟩ | ⟨f, hf, heq⟩
  · obtain ⟨capital, metrics, hcapital, hmetrics, rfl⟩ := recompute_ok hx
    have hagain : recompute { s with currentCapital := capital, metrics } =
        .ok { s with currentCapital := capital, metrics } :=
      bind_ok_iff.mpr ⟨capital, hcapital, bind_ok_iff.mpr ⟨metrics, hmetrics, rfl⟩⟩
    rw [heq]
    unfold recomputing
    rw [hagain]
  · rw [heq, heq]

theorem recomputing_positions (s : Session α) : (recomputing s).1.positions = s.positions := by
  obtain ⟨capital, metrics, heq⟩ := recomputing_eq s
  rw [heq]

/-- Positions that are marked already are marked no further, whatever the figures are. -/
theorem revalue_of_marked (h : s.positions = (revalue now market t).1.positions) :
    revalue now market s = (s, (revalue now market t).2) := by
  have hmarked : markAll now market s.positions = (s.positions, (revalue now market t).2) := by
    rw [h]
    exact markAll_markAll now market t.positions
  calc revalue now market s
      = ({ s with positions := (markAll now market s.positions).1 },
          (markAll now market s.positions).2) := rfl
    _ = (s, (revalue now market t).2) := by rw [hmarked]

/-- **A second appraisal finds everything done,** and fails where the first one did. -/
theorem appraise_appraise (now : Instant) (market : Market α) (s : Session α) :
    appraise now market (appraise now market s).1 = appraise now market s := by
  unfold appraise
  cases hcut : (revalue now market s).2 with
  | some f =>
    have hagain : revalue now market (revalue now market s).1 =
        ((revalue now market s).1, (revalue now market s).2) := revalue_of_marked rfl
    rw [andThen_of_some hcut, andThen_of_some (by rw [hagain, hcut]), hagain]
  | none =>
    have hagain := revalue_of_marked (recomputing_positions (revalue now market s).1)
    rw [andThen_of_none hcut, andThen_of_none (by rw [hagain, hcut]), hagain]
    exact recomputing_recomputing _

/-! ### Quiet cycles -/

/-- **What a quiet cycle makes of a session,** apart from dates and record. -/
def appraised (feed : Feed α) (s : Session α) : Session α :=
  match Market.read feed with
  | .ok market => (appraise ⟨0⟩ market s.undated).1
  | .error _ => s.undated

/-- **What a quiet cycle puts on record.** -/
def faults (feed : Feed α) (s : Session α) : List Failure :=
  match Market.read feed with
  | .ok market => (failureOf? (s.strategy.run ⟨0⟩ market)).toList ++
      (appraise ⟨0⟩ market s.undated).2.toList
  | .error f => [f]

/-- A quiet run leaves nothing to execute. -/
theorem ran_of_quiet (h : s.Quiet now feed) (hmarket : Market.read feed = .ok market) :
    (s.ran now market).2 = [] := by
  unfold ran
  split
  · next outcome hrun => exact h market outcome hmarket hrun
  · rfl

theorem ran_undated (now : Instant) (market : Market α) (s : Session α) :
    (s.ran now market).1.undated = s.undated := by
  unfold ran
  split <;> rfl

/-- A run puts its failure on record, which is the same at every moment. -/
theorem ran_errors (now : Instant) (market : Market α) (s : Session α) :
    (s.ran now market).1.errors = s.errors ++
      (failureOf? (s.strategy.run ⟨0⟩ market)).toList.map (·.entryAt now) := by
  rw [Strategy.run_dated now ⟨0⟩, Strategy.failureOf?_map]
  unfold ran
  cases s.strategy.run now market with
  | ok outcome => exact (List.append_nil _).symm
  | error f => rfl

/-- **A quiet cycle** appraises the session and puts its faults on record. -/
theorem cycle_of_quiet (h : s.Quiet now feed) : (s.cycle now feed).undated = s.appraised feed ∧
    (s.cycle now feed).errors = s.errors ++ (s.faults feed).map (·.entryAt now) := by
  unfold appraised faults cycle
  cases hmarket : Market.read feed with
  | error f => exact ⟨rfl, rfl⟩
  | ok market =>
    have htimeless := appraise_undated now market (s.ran now market).1
    have hkept := appraise_errors now market (s.ran now market).1
    rw [ran_undated] at htimeless
    dsimp only
    rw [htimeless, List.map_append, ← List.append_assoc, ← ran_errors]
    rcases heq : appraise now market (s.ran now market).1 with ⟨x, cut⟩
    have hsettle : settle now market (s.ran now market).2 (s.ran now market).1 = (x, cut) := by
      rw [ran_of_quiet h hmarket]
      exact heq
    rw [heq] at hkept
    rw [cycleOver_eq, hsettle]
    cases cut with
    | none => exact ⟨rfl, hkept.trans (List.append_nil _).symm⟩
    | some f => exact ⟨rfl, congrArg (· ++ [f.entryAt now]) hkept⟩

theorem appraised_bare (feed : Feed α) (s : Session α) : (s.appraised feed).bare = s.bare := by
  rw [← bare_undated s]
  unfold appraised
  cases Market.read feed with
  | error f => rfl
  | ok market => exact appraise_bare _ _ _

theorem bare_of_appraised (h : t.undated = s.appraised feed) : t.bare = s.bare := by
  rw [← bare_undated, h, appraised_bare]

/-- **What has been appraised** is appraised already, and has the same faults. -/
theorem appraised_of_appraised (h : t.undated = s.appraised feed) :
    t.appraised feed = s.appraised feed ∧ t.faults feed = s.faults feed := by
  have hstrategy : t.strategy = s.strategy := (congrArg strategy (bare_of_appraised h) :)
  unfold appraised at h ⊢
  unfold faults
  cases hmarket : Market.read feed with
  | error f =>
    rw [hmarket] at h
    exact ⟨h, rfl⟩
  | ok market =>
    rw [hmarket] at h
    dsimp only at h ⊢
    rw [h, appraise_appraise, hstrategy]
    exact ⟨rfl, rfl⟩

/-- **One more quiet cycle** of a session that has been appraised leaves it appraised, and puts the
same faults on record. -/
theorem cycle_of_appraised (h : s.Quiet now feed) (ht : t.undated = s.appraised feed)
    (now' : Instant) : (t.cycle now' feed).undated = s.appraised feed ∧
      (t.cycle now' feed).errors = t.errors ++ (s.faults feed).map (·.entryAt now') := by
  have hquiet : t.Quiet now' feed :=
    h.of_strategy_eq (congrArg strategy (bare_of_appraised ht) :)
  obtain ⟨hagain, hfaults⟩ := appraised_of_appraised ht
  rw [← hagain, ← hfaults]
  exact cycle_of_quiet hquiet

end Session

namespace Desk

omit [Arith α] in
/-- A session is put back under its own identifier. -/
theorem find?_replaced {s : Session α} {id : String} (hid : s.id = id) (d : Desk α) (key : String)
    (ticket : Nat) : ((d.locked key).replaced ticket s).store.find? id = some ⟨ticket, s⟩ := by
  subst hid
  exact Table.find?_insert_self ..

/-- **A quiet update of any stored session, made twice.**  An active session is updated for a user
who may use it, with market data on which the run of its strategy emits no signal.  The update
succeeds, leaves alone whatever is no price, figure, date or record, and puts some faults on record.
A second update with the same market data, at whatever moment, leaves the session as the first one
did apart from its dates, and puts the same faults on record again. -/
theorem quiet_update_idempotent (strategies : List (Strategy α)) (defaults : Defaults α)
    (history : List (Instant × Operation α)) {id : String} {e : Stored α}
    {user user' : Option String} {now : Instant} {feed : Feed α}
    (he : ((ofStrategies strategies defaults).run history).store.find? id = some e)
    (hactive : e.session.status = .active) (huser : checkOwner user e.session = .ok ())
    (huser' : checkOwner user' e.session = .ok ()) (hquiet : e.session.Quiet now feed)
    (now' : Instant) : ∃ d₁ s₁ d₂ s₂, ∃ faults : List Failure,
      ((ofStrategies strategies defaults).run history).update now id feed user = (d₁, .ok s₁) ∧
      d₁.store.find? id = some ⟨e.ticket, s₁⟩ ∧ s₁.bare = e.session.bare ∧
      s₁.errors = e.session.errors ++ faults.map (·.entryAt now) ∧
      d₁.update now' id feed user' = (d₂, .ok s₂) ∧
      d₂.store.find? id = some ⟨e.ticket, s₂⟩ ∧ s₂.undated = s₁.undated ∧
      s₂.errors = s₁.errors ++ faults.map (·.entryAt now') := by
  have hd := run_sound strategies defaults history
  generalize (ofStrategies strategies defaults).run history = d at he hd ⊢
  let s₁ := e.session.cycle now feed
  let s₂ := s₁.cycle now' feed
  obtain ⟨hundated₁, herrors₁⟩ := Session.cycle_of_quiet hquiet
  obtain ⟨hundated₂, herrors₂⟩ := Session.cycle_of_appraised hquiet hundated₁ now'
  have hbare₁ : s₁.bare = e.session.bare := Session.bare_of_appraised hundated₁
  have hbare₂ : s₂.bare = e.session.bare := Session.bare_of_appraised hundated₂
  have hid₁ : s₁.id = id := (congrArg Session.id hbare₁ :).trans (hd.keyed he)
  have hid₂ : s₂.id = id := (congrArg Session.id hbare₂ :).trans (hd.keyed he)
  -- the first update succeeds, and so does the second one on what the first one leaves behind
  have hfirst := update_of_active hd he huser hactive now feed
  have hd₁ := (effect_perform hd now (.update id feed user)).sound hd
  rw [show d.perform now (.update id feed user) = (d.update now id feed user).1 from rfl,
    hfirst] at hd₁
  have he₁ := find?_replaced hid₁ d id e.ticket
  have howner : checkOwner user' s₁ = .ok () := by
    have hsame : s₁.user = e.session.user := (congrArg Session.user hbare₁ :)
    unfold checkOwner at huser' ⊢
    rw [hsame]
    exact huser'
  have hactive₁ : s₁.status = .active := (congrArg Session.status hbare₁ :).trans hactive
  have hsecond := update_of_active hd₁ he₁ howner hactive₁ now' feed
  exact ⟨_, s₁, _, s₂, e.session.faults feed, hfirst, he₁, hbare₁, herrors₁, hsecond,
    find?_replaced hid₂ _ id e.ticket, hundated₂.trans hundated₁.symm, herrors₂⟩

/-- A strategy that buys three shares whenever the last price is below eleven. -/
def bargains : Strategy Float :=
  { steady [] with
    blocks := [⟨"cheap", "condition", "threshold", .ofList [("sourceType", .text "price"),
      ("source", .text "SPY.close"), ("operator", .text "<"), ("value", .int 11)], 0, ""⟩,
      trading "buy" "SPY" 3 []] }

/-- The market data of one symbol, with a candle at its price. -/
def tradedAt (price : Float) : Feed Float :=
  .table ⟨[("SPY", .inl ⟨some price, none, [⟨"", price, price, price, price, 1.0⟩]⟩)]⟩

/-- Three shares are bought at ten. -/
def holdingThree : List (Instant × Operation Float) :=
  [(⟨0⟩, .create (some "ada") "steady" .null), (⟨0⟩, .update "ada-steady-0" (tradedAt 10.0) none)]

/-- At twelve nothing is bought, and the session is worth more, once. -/
theorem quiet_update_of_rise : ∃ e d₁ s₁ d₂ s₂,
    ((ofStrategies [bargains] .standard).run holdingThree).store.find? "ada-steady-0" = some e ∧
    e.session.metrics.totalPnL == 0.0 ∧
    ((ofStrategies [bargains] .standard).run holdingThree).update ⟨1⟩ "ada-steady-0" (tradedAt 12.0)
      none = (d₁, .ok s₁) ∧
    s₁.bare = e.session.bare ∧ s₁.metrics.totalPnL == 6.0 ∧
    d₁.update ⟨2⟩ "ada-steady-0" (tradedAt 12.0) (some "ada") = (d₂, .ok s₂) ∧
    s₂.undated = s₁.undated := by
  have hstored : (((ofStrategies [bargains] .standard).run holdingThree).store.find?
      "ada-steady-0").any (fun e => e.session.status = .active ∧ e.session.user = "ada" ∧
        e.session.Quiet ⟨1⟩ (tradedAt 12.0) ∧ e.session.metrics.totalPnL == 0.0) = true := by
    decide +kernel
  have hworth : (((ofStrategies [bargains] .standard).run holdingThree).update ⟨1⟩ "ada-steady-0"
      (tradedAt 12.0) none).2.toOption.any (fun s => s.metrics.totalPnL == 6.0) = true := by
    decide +kernel
  obtain ⟨e, he, hdec⟩ := (Option.any_eq_true _ _).mp hstored
  obtain ⟨hactive, huser, hquiet, hzero⟩ := of_decide_eq_true hdec
  have howner : checkOwner (some "ada") e.session = .ok () := by
    unfold checkOwner
    rw [huser]
    rfl
  obtain ⟨d₁, s₁, d₂, s₂, -, hfirst, -, hbare, -, hsecond, -, hsame, -⟩ :=
    quiet_update_idempotent [bargains] .standard holdingThree he hactive
      (show checkOwner none e.session = .ok () from rfl) howner hquiet ⟨2⟩
  rw [hfirst] at hworth
  exact ⟨e, d₁, s₁, d₂, s₂, he, hzero, hfirst, hbare, hworth, hsecond, hsame⟩

end Desk

end PaperTrading
