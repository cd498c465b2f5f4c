import Mathlib.Data.List.Induction
import PaperTrading.Proofs.Session.Batch

/-!
# The order in which a strategy is evaluated

A run visits blocks: first every indicator block, then every condition block, and behind each
condition that holds every action block.  It ends at the first visit that fails, with the failure of
that block; and if no visit fails, it has the studies of the indicator blocks, and the signals of
the action blocks once for every condition that holds.

* `Visit`, `ending`: a visit to a block, and the failure with which a list of visits ends.
* `visiting`: **a computation that makes some visits;** `visiting_bind` puts two of them in a row.
* `Strategy.itinerary`: **the visits of a run,** read off the strategy and the market alone.
* `run_eq`: a run is the computation that makes these visits.
* `run_dated`: **what the moment of a run matters for.**
* `run_follows_itinerary`: what a run yields and where it ends.
-/

namespace PaperTrading

variable {α β γ : Type}

/-! ### Visits -/

/-- The failure of a computation, if it ends with one. -/
def failureOf? : Except Failure β → Option Failure
  | .ok _ => none
  | .error f => some f

/-- **A visit to a block,** with the failure that it ends with, if it does. -/
structure Visit (α : Type) where
  block : Block α
  failure : Option Failure

/-- The failure with which some visits end: that of the first one that fails, at its block. -/
def ending : List (Visit α) → Option Failure
  | [] => none
  | v :: vs => match v.failure with
    | some cause => some (.stoppedAt v.block.id cause)
    | none => ending vs

/-- **A computation that makes some visits** and yields a value if none of them fails. -/
def visiting (vs : List (Visit α)) (y : β) : Except Failure β :=
  match ending vs with
  | some f => .error f
  | none => .ok y

theorem failureOf?_eq_none_iff {x : Except Failure β} : failureOf? x = none ↔ ∃ y, x = .ok y := by
  cases x <;> simp [failureOf?]

theorem ending_append (vs ws : List (Visit α)) :
    ending (vs ++ ws) = (ending vs).or (ending ws) := by
  induction vs with
  | nil => rfl
  | cons v vs ih =>
    rw [List.cons_append, ending, ending]
    cases v.failure with
    | some cause => rfl
    | none => exact ih

/-- Visits end without a failure exactly when none of them fails. -/
theorem ending_eq_none_iff {vs : List (Visit α)} :
    ending vs = none ↔ ∀ v ∈ vs, v.failure = none := by
  induction vs with
  | nil => simp [ending]
  | cons v vs ih =>
    rw [ending, List.forall_mem_cons, ← ih]
    cases v.failure <;> simp

/-- **Visits end with a failure** exactly when some fails before which none does. -/
theorem ending_eq_some_iff {vs : List (Visit α)} {f : Failure} : ending vs = some f ↔
    ∃ done v later cause, vs = done ++ v :: later ∧ (∀ w ∈ done, w.failure = none) ∧
      v.failure = some cause ∧ f = .stoppedAt v.block.id cause := by
  constructor
  · intro h
    induction vs with
    | nil => cases h
    | cons v vs ih =>
      rw [ending] at h
      cases hv : v.failure with
      | some cause =>
        rw [hv] at h
        exact ⟨[], v, vs, cause, rfl, by simp, hv, (Option.some.inj h).symm⟩
      | none =>
        rw [hv] at h
        obtain ⟨done, w, later, cause, rfl, hdone, hw, hf⟩ := ih h
        exact ⟨v :: done, w, later, cause, rfl, List.forall_mem_cons.mpr ⟨hv, hdone⟩, hw, hf⟩
  · rintro ⟨done, v, later, cause, rfl, hdone, hv, rfl⟩
    rw [ending_append, ending_eq_none_iff.mpr hdone, ending, hv]
    rfl

theorem visiting_ok_iff {vs : List (Visit α)} {y z : β} :
    visiting vs y = .ok z ↔ ending vs = none ∧ y = z := by
  unfold visiting
  cases ending vs <;> simp

theorem visiting_error_iff {vs : List (Visit α)} {y : β} {f : Failure} :
    visiting vs y = .error f ↔ ending vs = some f := by
  unfold visiting
  cases ending vs <;> simp

/-- **Two computations in a row** make the visits of both. -/
theorem visiting_bind {vs ws : List (Visit α)} {y : β} {z : γ} {g : β → Except Failure γ}
    (h : g y = visiting ws z) : visiting vs y >>= g = visiting (vs ++ ws) z := by
  unfold visiting at h ⊢
  rw [ending_append]
  cases ending vs with
  | some f => rfl
  | none => exact h

/-- What is made of the value afterwards makes no visit. -/
theorem visiting_pure (vs : List (Visit α)) (y : β) (g : β → γ) :
    (visiting vs y >>= fun z => pure (g z)) = visiting vs (g y) := by
  unfold visiting
  cases ending vs <;> rfl

/-- The visit to a block is the evaluation of the block alone. -/
theorem atBlock_eq_visiting (b : Block α) {x : Except Failure β} {y : β}
    (h : ∀ z, x = .ok z → z = y) : atBlock b x = visiting [⟨b, failureOf? x⟩] y := by
  cases x with
  | error f => rfl
  | ok z =>
    rw [h z rfl]
    rfl

/-- A computation over a list makes the visits of its items, one after another. -/
theorem mapM_eq_visiting {δ : Type} {f : δ → Except Failure β} {g : δ → List (Visit α)} {y : δ → β}
    (h : ∀ x, f x = visiting (g x) (y x)) (xs : List δ) :
    xs.mapM f = visiting (xs.flatMap g) (xs.map y) := by
  induction xs with
  | nil => rfl
  | cons x xs ih =>
    rw [List.mapM_cons, h x, ih, List.flatMap_cons, List.map_cons]
    exact visiting_bind (visiting_pure _ _ _)

/-- A signal with another time. -/
def Signal.dated (now : Instant) (s : Signal α) : Signal α := { s with time := now }

namespace Strategy

variable [Arith α]

/-! ### The visits of a run -/

/-- The study of an indicator block. -/
def studyAt (market : Market α) (b : Block α) : Except Failure (Study α) :=
  Indicator.study b.kind market b.settings

/-- The signal of an action block. -/
def signalAt (now : Instant) (market : Market α) (b : Block α) :
    Except Failure (Option (Signal α)) :=
  Signal.generate now b.kind b.settings market

/-- Some studies with that of one more block, if it can be computed. -/
def withStudy (market : Market α) (studies : Studies α) (b : Block α) : Studies α :=
  match studyAt market b with
  | .ok x => studies.insert b.id x
  | .error _ => studies

/-- The studies of all indicator blocks that can be computed. -/
def board (s : Strategy α) (market : Market α) : Studies α :=
  (s.blocksOf .indicator).foldl (withStudy market) .empty

/-- What a condition block is, evaluated over the studies. -/
def conditionAt (s : Strategy α) (market : Market α) (b : Block α) : Except Failure Bool :=
  Condition.evaluate b.kind market ((s.board market).map Study.readout) b.settings

/-- A condition block that holds. -/
def Holds (s : Strategy α) (market : Market α) (b : Block α) : Prop :=
  s.conditionAt market b = .ok true

instance (s : Strategy α) (market : Market α) (b : Block α) : Decidable (s.Holds market b) :=
  match h : s.conditionAt market b with
  | .ok true => isTrue h
  | .ok false | .error _ => isFalse fun hb => by rw [Holds, h] at hb; cases hb

/-- **The number of conditions that hold.** -/
def holding (s : Strategy α) (market : Market α) : Nat :=
  (s.blocksOf .condition).countP fun b => decide (s.Holds market b)

/-- **The signals of the action blocks,** in order; a block without a price has none. -/
def emitted (now : Instant) (s : Strategy α) (market : Market α) : List (Signal α) :=
  (s.blocksOf .action).filterMap fun b => (signalAt now market b).toOption.join

/-- The visits to the indicator blocks. -/
def indicatorVisits (s : Strategy α) (market : Market α) : List (Visit α) :=
  (s.blocksOf .indicator).map fun b => ⟨b, failureOf? (studyAt market b)⟩

/-- The visits to the action blocks. -/
def actionVisits (now : Instant) (s : Strategy α) (market : Market α) : List (Visit α) :=
  (s.blocksOf .action).map fun b => ⟨b, failureOf? (signalAt now market b)⟩

/-- The visit to a condition block. -/
def conditionVisit (s : Strategy α) (market : Market α) (b : Block α) : Visit α :=
  ⟨b, failureOf? (s.conditionAt market b)⟩

/-- The visit to a condition block, followed by those to the action blocks if it holds. -/
def firing (now : Instant) (s : Strategy α) (market : Market α) (b : Block α) : List (Visit α) :=
  s.conditionVisit market b :: if s.Holds market b then s.actionVisits now market else []

/-- **The visits of a run:** all indicator blocks in order, then the condition blocks in order, each
that holds with all action blocks in order behind it. -/
def itinerary (now : Instant) (s : Strategy α) (market : Market α) : List (Visit α) :=
  s.indicatorVisits market ++ (s.blocksOf .condition).flatMap (s.firing now market)

variable {now : Instant} {s : Strategy α} {market : Market α} {b : Block α}

/-! ### Runs make these visits -/

theorem foldlM_addStudy (market : Market α) (bs : List (Block α)) (studies : Studies α) :
    bs.foldlM (addStudy market) studies =
      visiting (bs.map fun b => ⟨b, failureOf? (studyAt market b)⟩)
        (bs.foldl (withStudy market) studies) := by
  induction bs generalizing studies with
  | nil => rfl
  | cons b bs ih =>
    have hstep : addStudy market studies b =
        visiting [⟨b, failureOf? (studyAt market b)⟩] (withStudy market studies b) := by
      unfold addStudy withStudy studyAt
      cases Indicator.study b.kind market b.settings <;> rfl
    rw [List.foldlM_cons, hstep]
    exact visiting_bind (ih _)

theorem studies_eq (s : Strategy α) (market : Market α) :
    s.studies market = visiting (s.indicatorVisits market) (s.board market) :=
  foldlM_addStudy market _ _

theorem volley_eq (now : Instant) (s : Strategy α) (market : Market α) :
    volley now s market = visiting (s.actionVisits now market) (s.emitted now market) := by
  have hblock : ∀ b : Block α, atBlock b (Signal.generate now b.kind b.settings market) =
      visiting [⟨b, failureOf? (signalAt now market b)⟩] (signalAt now market b).toOption.join := by
    intro b
    refine atBlock_eq_visiting b fun z hz => ?_
    rw [signalAt, hz]
    rfl
  have hvisits : s.actionVisits now market =
      (s.blocksOf .action).flatMap fun b => [⟨b, failureOf? (signalAt now market b)⟩] := by
    rw [actionVisits, ← List.flatMap_singleton' (List.map _ _), List.flatMap_map]
  have hsignals : s.emitted now market = ((s.blocksOf .action).map fun b =>
      (signalAt now market b).toOption.join).filterMap fun signal => signal := by
    rw [emitted, List.filterMap_map]
    rfl
  unfold volley
  rw [mapM_eq_visiting hblock, ← hvisits, hsignals]
  exact visiting_pure _ _ _

/-- The signals of a condition block over the studies of the run. -/
theorem signalsOf_eq (now : Instant) (s : Strategy α) (market : Market α) (b : Block α) :
    signalsOf now s market ((s.board market).map Study.readout) b =
      visiting (s.firing now market b)
        (if s.Holds market b then s.emitted now market else []) := by
  have hcondition : ∀ holds, s.conditionAt market b = .ok holds →
      atBlock b (Condition.evaluate b.kind market ((s.board market).map Study.readout) b.settings) =
        visiting [s.conditionVisit market b] holds := by
    intro holds hb
    refine atBlock_eq_visiting b fun z hz => ?_
    exact Except.ok.inj (hz.symm.trans hb)
  unfold signalsOf firing
  cases hb : s.conditionAt market b with
  | error f =>
    have hnot : ¬ s.Holds market b := by rw [Holds, hb]; simp
    rw [if_neg hnot, if_neg hnot]
    unfold conditionAt at hb
    rw [conditionVisit, conditionAt, hb]
    rfl
  | ok holds =>
    rw [hcondition holds hb]
    cases holds with
    | true =>
      rw [if_pos (show s.Holds market b from hb), if_pos (show s.Holds market b from hb)]
      exact visiting_bind (volley_eq now s market)
    | false =>
      have hnot : ¬ s.Holds market b := by rw [Holds, hb]; simp
      rw [if_neg hnot, if_neg hnot]
      exact visiting_bind (show _ = visiting [] [] from rfl)

omit [Arith α] in
/-- A list once for every item of which something holds. -/
theorem flatten_map_ite {δ : Type} (p : δ → Prop) [DecidablePred p] (ys : List β) (xs : List δ) :
    (xs.map fun x => if p x then ys else []).flatten =
      (List.replicate (xs.countP fun x => decide (p x)) ys).flatten := by
  induction xs with
  | nil => rfl
  | cons x xs ih =>
    by_cases hx : p x
    · have hcount : (x :: xs).countP (fun x => decide (p x)) =
          xs.countP (fun x => decide (p x)) + 1 :=
        List.countP_cons_of_pos (decide_eq_true hx)
      rw [hcount, List.replicate_succ, List.map_cons, if_pos hx, List.flatten_cons,
        List.flatten_cons, ih]
    · have hcount : (x :: xs).countP (fun x => decide (p x)) = xs.countP (fun x => decide (p x)) :=
        List.countP_cons_of_neg (by simpa using hx)
      rw [hcount, List.map_cons, if_neg hx, List.flatten_cons, List.nil_append, ih]

/-- **A run makes the visits of the itinerary,** and yields the studies, and the signals once for
every condition that holds. -/
theorem run_eq (now : Instant) (s : Strategy α) (market : Market α) :
    s.run now market = visiting (s.itinerary now market)
      ⟨(List.replicate (s.holding market) (s.emitted now market)).flatten, s.board market⟩ := by
  have hsignals : s.signals now market (s.board market) =
      visiting ((s.blocksOf .condition).flatMap (s.firing now market))
        (List.replicate (s.holding market) (s.emitted now market)).flatten := by
    unfold signals
    rw [mapM_eq_visiting (signalsOf_eq now s market), holding, ← flatten_map_ite]
    exact visiting_pure _ _ _
  unfold run itinerary
  rw [studies_eq]
  refine visiting_bind ?_
  rw [hsignals]
  exact visiting_pure _ _ _

/-! ### Runs at different moments -/

omit [Arith α] in
theorem failureOf?_map {β γ : Type} (f : β → γ) (x : Except Failure β) :
    failureOf? (x.map f) = failureOf? x := by
  cases x <;> rfl

/-- A block emits the same signal at another moment, with another time. -/
theorem signalAt_dated (now now' : Instant) (market : Market α) (b : Block α) :
    signalAt now' market b = (signalAt now market b).map (Option.map (Signal.dated now')) := by
  unfold signalAt Signal.generate
  cases ActionKind.ofName? b.kind with
  | none => rfl
  | some kind =>
    dsimp only
    unfold Signal.emit
    cases Signal.priceOf kind b.settings market with
    | error f => rfl
    | ok price =>
      cases price with
      | none => rfl
      | some price => cases Signal.orderOf kind b.settings <;> rfl

theorem actionVisits_dated (now now' : Instant) (s : Strategy α) (market : Market α) :
    s.actionVisits now' market = s.actionVisits now market := by
  unfold actionVisits
  simp only [signalAt_dated now now', failureOf?_map]

theorem emitted_dated (now now' : Instant) (s : Strategy α) (market : Market α) :
    s.emitted now' market = (s.emitted now market).map (Signal.dated now') := by
  unfold emitted
  rw [List.map_filterMap]
  congr 1
  funext b
  rw [signalAt_dated now now']
  cases signalAt now market b with
  | error f => rfl
  | ok signal => cases signal <;> rfl

/-- **A run at another moment** makes the same visits, and its signals differ in their times only. -/
theorem run_dated (now now' : Instant) (s : Strategy α) (market : Market α) :
    s.run now' market = (s.run now market).map fun outcome =>
      { outcome with signals := outcome.signals.map (Signal.dated now') } := by
  have hvisits : s.itinerary now' market = s.itinerary now market := by
    unfold itinerary firing
    rw [actionVisits_dated now now']
  rw [run_eq, run_eq, hvisits, emitted_dated now now']
  unfold visiting
  cases ending (s.itinerary now market) with
  | some f => rfl
  | none =>
    dsimp only [Except.map]
    rw [List.map_flatten, List.map_replicate]

/-! ### What a run yields -/

/-- Where all studies can be computed, the last block of an identifier has its study under it. -/
theorem find?_foldl_withStudy {bs : List (Block α)}
    (h : ∀ b ∈ bs, failureOf? (studyAt market b) = none) (id : String) :
    (bs.foldl (withStudy market) .empty).find? id =
      (bs.filter (·.id == id)).getLast?.bind fun b => (studyAt market b).toOption := by
  induction bs using List.reverseRecOn with
  | nil => rfl
  | append_singleton bs b ih =>
    have hbs := ih fun c hc => h c (List.mem_append_left _ hc)
    obtain ⟨x, hx⟩ := failureOf?_eq_none_iff.mp (h b (List.mem_append_right _ List.mem_cons_self))
    rw [List.foldl_concat, withStudy, hx, Table.find?_insert, List.filter_append]
    by_cases hid : b.id = id
    · have hlast : [b].filter (·.id == id) = [b] := by simp [hid]
      rw [if_pos hid, hlast, List.getLast?_concat, Option.bind_some, hx]
      rfl
    · have hnone : [b].filter (·.id == id) = [] := by simp [hid]
      rw [if_neg hid, hnone, List.append_nil]
      exact hbs

/-- The visits to the action blocks are made exactly when a condition holds. -/
theorem forall_itinerary_iff {P : Visit α → Prop} : (∀ v ∈ s.itinerary now market, P v) ↔
    (∀ v ∈ s.indicatorVisits market, P v) ∧
      (∀ b ∈ s.blocksOf .condition, P (s.conditionVisit market b)) ∧
      (1 ≤ s.holding market → ∀ v ∈ s.actionVisits now market, P v) := by
  have hone : 1 ≤ s.holding market ↔ ∃ b ∈ s.blocksOf .condition, s.Holds market b := by
    unfold holding
    rw [Nat.one_le_iff_ne_zero, ← Nat.pos_iff_ne_zero, List.countP_pos_iff]
    simp
  unfold itinerary
  rw [List.forall_mem_append, hone]
  refine and_congr_right fun _ => ?_
  constructor
  · intro h
    refine ⟨fun b hb => h _ (List.mem_flatMap.mpr ⟨b, hb, List.mem_cons_self⟩), ?_⟩
    rintro ⟨b, hb, hholds⟩ v hv
    refine h v (List.mem_flatMap.mpr ⟨b, hb, List.mem_cons_of_mem _ ?_⟩)
    rw [if_pos hholds]
    exact hv
  · rintro ⟨hconditions, hactions⟩ v hv
    obtain ⟨b, hb, hv⟩ := List.mem_flatMap.mp hv
    rcases List.mem_cons.mp hv with rfl | hv
    · exact hconditions b hb
    · split at hv
      · next hholds => exact hactions ⟨b, hb, hholds⟩ v hv
      · cases hv

/-- In a run that succeeds, every indicator block has a study. -/
theorem studyAt_of_run {outcome : Outcome α} (h : s.run now market = .ok outcome)
    (hb : b ∈ s.blocksOf .indicator) : ∃ x, studyAt market b = .ok x := by
  rw [run_eq] at h
  have hvisits := ending_eq_none_iff.mp (visiting_ok_iff.mp h).1
  have hindicators := (forall_itinerary_iff.mp hvisits).1
  exact failureOf?_eq_none_iff.mp (hindicators ⟨b, _⟩ (List.mem_map.mpr ⟨b, hb, rfl⟩))

/-- **The studies of a run:** the last indicator block of an identifier has its study under it. -/
theorem find?_studies {outcome : Outcome α} (h : s.run now market = .ok outcome) (id : String) :
    outcome.studies.find? id = ((s.blocksOf .indicator).filter (·.id == id)).getLast?.bind
      fun b => (studyAt market b).toOption := by
  have hstudied : ∀ b ∈ s.blocksOf .indicator, failureOf? (studyAt market b) = none :=
    fun b hb => failureOf?_eq_none_iff.mpr (studyAt_of_run h hb)
  rw [run_eq] at h
  obtain ⟨-, rfl⟩ := visiting_ok_iff.mp h
  exact find?_foldl_withStudy hstudied id

/-- **Runs follow the itinerary.**  A run succeeds exactly when no visit of the itinerary fails.  It
then has the study of the last block of every identifier among the indicator blocks, and the signals
of the action blocks in order, once for every condition that holds.  Otherwise it ends at the first
visit that fails, with nothing but the block and the cause of that visit.  Where no indicator and no
condition fails, an action block that would fail makes the run fail exactly when some condition
holds. -/
theorem run_follows_itinerary (now : Instant) (s : Strategy α) (market : Market α) :
    ((∃ outcome, s.run now market = .ok outcome) ↔
      ∀ v ∈ s.itinerary now market, v.failure = none) ∧
    (∀ outcome, s.run now market = .ok outcome →
      (∀ id, outcome.studies.find? id = ((s.blocksOf .indicator).filter (·.id == id)).getLast?.bind
        fun b => (Indicator.study b.kind market b.settings).toOption) ∧
      outcome.signals = (List.replicate (s.holding market) (s.emitted now market)).flatten) ∧
    (∀ f, s.run now market = .error f ↔ ∃ done v later cause,
      s.itinerary now market = done ++ v :: later ∧ (∀ w ∈ done, w.failure = none) ∧
      v.failure = some cause ∧ f = .stoppedAt v.block.id cause) ∧
    ((∀ v ∈ s.indicatorVisits market, v.failure = none) →
      (∀ b ∈ s.blocksOf .condition, (s.conditionVisit market b).failure = none) →
      ∀ b ∈ s.blocksOf .action, ∀ cause,
        Signal.generate now b.kind b.settings market = .error cause →
        ((∃ f, s.run now market = .error f) ↔ 1 ≤ s.holding market)) := by
  have hsucceeds : (∃ outcome, s.run now market = .ok outcome) ↔
      ∀ v ∈ s.itinerary now market, v.failure = none := by
    rw [run_eq, ← ending_eq_none_iff]
    constructor
    · rintro ⟨outcome, h⟩
      exact (visiting_ok_iff.mp h).1
    · intro h
      exact ⟨_, visiting_ok_iff.mpr ⟨h, rfl⟩⟩
  refine ⟨hsucceeds, ?_, ?_, ?_⟩
  · intro outcome h
    refine ⟨find?_studies h, ?_⟩
    rw [run_eq] at h
    obtain ⟨-, rfl⟩ := visiting_ok_iff.mp h
    rfl
  · intro f
    rw [run_eq, visiting_error_iff, ending_eq_some_iff]
  · intro hindicators hconditions b hb cause hcause
    have hfails : (∃ f, s.run now market = .error f) ↔
        ¬ ∃ outcome, s.run now market = .ok outcome := by
      cases s.run now market <;> simp
    rw [hfails, hsucceeds, forall_itinerary_iff]
    constructor
    · intro h
      by_contra hzero
      exact h ⟨hindicators, hconditions, fun hone => absurd hone hzero⟩
    · rintro hone ⟨-, -, hactions⟩
      have hvisit : failureOf? (signalAt now market b) = none :=
        hactions hone ⟨b, _⟩ (List.mem_map.mpr ⟨b, hb, rfl⟩)
      rw [signalAt, hcause] at hvisit
      cases hvisit

/-- A strategy with one condition twice, which always holds. -/
def insistent (actions : List (Block Float)) : Strategy Float :=
  { Desk.steady actions with blocks := (Desk.steady []).blocks ++ (Desk.steady actions).blocks }

/-- A block that buys with a risk that is no number. -/
def broken : Block Float := Desk.trading "buy" "SPY" 1 [("riskLevel", .text "high")]

/-- Two conditions that hold fire two blocks twice, and a block without a readable risk ends the run
of a strategy that fires it. -/
theorem run_follows_itinerary_of_insistent :
    (∃ outcome, (insistent Desk.buyAndTrim).run ⟨0⟩ Session.atTen = .ok outcome ∧
      outcome.signals.length = 4 ∧ outcome.signals = (List.replicate 2
        ((insistent Desk.buyAndTrim).emitted ⟨0⟩ Session.atTen)).flatten) ∧
    ∃ f, (insistent [broken]).run ⟨0⟩ Session.atTen = .error f := by
  have hrun : ((insistent Desk.buyAndTrim).run ⟨0⟩ Session.atTen).toOption.any
      (fun outcome => outcome.signals.length = 4) = true := by
    decide +kernel
  have htwo : (insistent Desk.buyAndTrim).holding Session.atTen = 2 := by decide +kernel
  obtain ⟨outcome, houtcome, hlen⟩ := (Option.any_eq_true _ _).mp hrun
  have houtcome := toOption_eq_some_iff.mp houtcome
  obtain ⟨-, hyields, -, -⟩ :=
    run_follows_itinerary ⟨0⟩ (insistent Desk.buyAndTrim) Session.atTen
  have hsignals := (hyields outcome houtcome).2
  rw [htwo] at hsignals
  refine ⟨⟨outcome, houtcome, of_decide_eq_true hlen, hsignals⟩, ?_⟩
  have hfails : Signal.generate ⟨0⟩ broken.kind broken.settings Session.atTen =
      .error (.unreadableNumber "high") := by rfl
  have hblocks : (insistent [broken]).blocksOf .action = [broken] := by rfl
  obtain ⟨-, -, -, hfires⟩ := run_follows_itinerary ⟨0⟩ (insistent [broken]) Session.atTen
  have hindicators : ∀ v ∈ (insistent [broken]).indicatorVisits Session.atTen,
      v.failure = none := by
    decide +kernel
  have hconditions : ∀ b ∈ (insistent [broken]).blocksOf .condition,
      ((insistent [broken]).conditionVisit Session.atTen b).failure = none := by
    decide +kernel
  have hholds : 1 ≤ (insistent [broken]).holding Session.atTen := by decide +kernel
  have hbroken : broken ∈ (insistent [broken]).blocksOf .action := by
    rw [hblocks]
    exact List.mem_cons_self
  exact (hfires hindicators hconditions broken hbroken _ hfails).mpr hholds

end Strategy

end PaperTrading
