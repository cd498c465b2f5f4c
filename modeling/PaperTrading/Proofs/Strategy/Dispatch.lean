import PaperTrading.Proofs.Strategy.Itinerary

/-!
# What the evaluators can dispatch

Three evaluators take a block apart by the name of its kind: one for indicators, one for conditions,
one for actions.  A name that they know they evaluate; whatever goes wrong then, in reading
settings, in looking up prices or in computing, is never told as an unknown kind.

* `Failure.isUnknownKind`: the failures that tell of an unknown kind.
* `Knows`: a computation that never ends with one of them, with its laws.
* `knows_study`, `knows_condition`, `knows_signal`: **a known kind is never unknown to its
  evaluator.**
* `Role.Dispatches`, `dispatches_iff`: the names that an evaluator can dispatch are those that its
  role lists.
-/

namespace PaperTrading

open Arith

/-- **The failures that tell of an unknown kind.** -/
def Failure.isUnknownKind (f : Failure) : Bool :=
  ["UnknownIndicatorError", "UnknownConditionError", "UnknownActionError"].contains f.kind

/-! ### Computations that never find a kind unknown -/

section Knows

variable {β γ δ : Type} {x : Except Failure β} {f : Failure}

/-- **A computation that never ends with an unknown kind.** -/
def Knows (x : Except Failure β) : Prop := ¬ Outside (fun f => !f.isUnknownKind) x

theorem knows_ok (y : β) : Knows (.ok y) := not_outside_ok y

theorem knows_pure (y : β) : Knows (pure y) := not_outside_pure y

theorem knows_error_iff : Knows (.error f : Except Failure β) ↔ f.isUnknownKind = false := by
  rw [Knows, outside_error]
  simp

theorem knows_error (h : f.isUnknownKind = false) : Knows (.error f : Except Failure β) :=
  knows_error_iff.mpr h

/-- An evaluator that refuses a name tells of an unknown kind. -/
theorem not_knows_unknownKind (r : Role) (kind : String) :
    ¬ Knows (.error (.unknownKind r kind) : Except Failure β) := by
  rw [knows_error_iff]
  cases r <;> simp [Failure.isUnknownKind, Failure.kind]

/-- Two computations in a row. -/
theorem Knows.bind {g : β → Except Failure γ} (hx : Knows x) (hg : ∀ y, Knows (g y)) :
    Knows (x >>= g) := by
  unfold Knows at *
  rw [outside_bind]
  rintro (h | ⟨y, -, h⟩)
  · exact hx h
  · exact hg y h

/-- A computation over a list. -/
theorem Knows.mapM {g : δ → Except Failure γ} (hg : ∀ d, Knows (g d)) (ds : List δ) :
    Knows (ds.mapM g) := by
  rintro ⟨f, h, hf⟩
  obtain ⟨d, -, hd⟩ := error_of_mapM_error h
  exact hg d ⟨f, hd, hf⟩

/-- A choice between two computations. -/
theorem Knows.ite {p : Prop} [Decidable p] {y : Except Failure β} (hx : Knows x) (hy : Knows y) :
    Knows (if p then x else y) := by
  split
  · exact hx
  · exact hy

end Knows

section Evaluators

variable {α : Type}

/-! ### Values -/

theorem knows_key (v : Value α) : Knows v.key := by
  cases v with
  | null | bool | int | num | text => exact knows_ok _
  | list | object => exact knows_error rfl

theorem knows_lookUp {β : Type} (v : Value α) (t : Table β) : Knows (v.lookUp t) :=
  (knows_key v).bind fun _ => knows_pure _

theorem knows_items (v : Value α) : Knows v.items := by
  cases v with
  | text | list | object => exact knows_ok _
  | null | bool | int | num => exact knows_error rfl

variable [Arith α]

theorem knows_ofInteger (n : Int) : Knows (ofInteger α n) := by
  unfold ofInteger
  split
  · exact knows_ok _
  · exact knows_error rfl

theorem knows_quotient (x y : α) : Knows (quotient x y) := (knows_error rfl).ite (knows_ok _)

theorem knows_dividedBy (x : α) (n : Int) : Knows (dividedBy x n) :=
  (knows_ofInteger n).bind fun _ => knows_quotient _ _

theorem knows_squared (x : α) : Knows (squared x) := by
  unfold squared
  split
  · exact knows_ok _
  · exact knows_error rfl

theorem knows_root (x : α) : Knows (root x) := (knows_error rfl).ite (knows_ok _)

theorem knows_truncated (x : α) : Knows (truncated x) :=
  (knows_error rfl).ite ((knows_error rfl).ite (knows_ok _))

theorem knows_toNumber (v : Value α) : Knows v.toNumber := by
  cases v with
  | bool | int => exact knows_ofInteger _
  | num x => exact knows_ok x
  | text s =>
    unfold Value.toNumber
    dsimp only
    split
    · exact knows_ok _
    · exact knows_error rfl
  | null | list | object => exact knows_error rfl

theorem knows_toInteger (v : Value α) : Knows v.toInteger := by
  cases v with
  | bool | int => exact knows_ok _
  | num x => exact knows_truncated x
  | text s =>
    unfold Value.toInteger
    dsimp only
    split
    · exact knows_ok _
    · exact knows_error rfl
    · exact knows_error rfl
  | null | list | object => exact knows_error rfl

/-! ### Indicators -/

namespace Indicator

omit [Arith α] in
theorem knows_checkEnough (available : Nat) (needed : Int) (label : String) :
    Knows (checkEnough available needed label) := by
  unfold checkEnough shortage
  refine Knows.ite ?_ (knows_ok _)
  split <;> exact knows_error rfl

omit [Arith α] in
theorem knows_entriesFrom (xs : List α) (k : Int) : Knows (entriesFrom xs k) :=
  (knows_ok _).ite ((knows_error rfl).ite ((knows_error rfl).ite (knows_ok _)))

theorem knows_mean (window : List α) (period : Int) : Knows (mean window period) :=
  (knows_dividedBy _ _).ite ((knows_error rfl).ite (knows_ok _))

theorem knows_sma (prices : List α) (period : Int) : Knows (sma prices period) :=
  (knows_checkEnough _ _ _).bind fun _ => .mapM (fun _ => knows_mean _ _) _

theorem knows_ema (prices : List α) (period : Int) : Knows (ema prices period) :=
  (knows_checkEnough _ _ _).bind fun _ => (knows_dividedBy _ _).bind fun _ =>
    (knows_mean _ _).bind fun _ => knows_pure _

theorem knows_strength (gain loss : α) : Knows (strength gain loss) :=
  (knows_quotient _ _).bind fun _ => (knows_quotient _ _).bind fun _ => knows_pure _

theorem knows_strengths (weight : α) (period : Int) (gain loss : α) (steps : List (α × α)) :
    Knows (strengths weight period gain loss steps) := by
  induction steps generalizing gain loss with
  | nil => exact (knows_strength gain loss).bind fun _ => knows_pure _
  | cons step steps ih =>
    refine (knows_strength gain loss).bind fun _ => ?_
    refine (knows_dividedBy _ _).bind fun gain => (knows_dividedBy _ _).bind fun loss => ?_
    exact (ih gain loss).bind fun _ => knows_pure _

theorem knows_rsi (prices : List α) (period : Int) : Knows (rsi prices period) := by
  refine (knows_checkEnough _ _ _).bind fun _ => (knows_mean _ _).bind fun _ => ?_
  refine (knows_mean _ _).bind fun _ => (knows_ofInteger _).bind fun _ => ?_
  exact (knows_entriesFrom _ _).bind fun _ => knows_strengths _ _ _ _ _

theorem knows_macd (prices : List α) (fast slow signal : Int) :
    Knows (macd prices fast slow signal) := by
  refine (knows_checkEnough _ _ _).bind fun _ => (knows_ema _ _).bind fun _ => ?_
  exact (knows_ema _ _).bind fun _ => (knows_ema _ _).bind fun _ => knows_pure _

theorem knows_deviation (window : List α) (center : α) (period : Int) :
    Knows (deviation window center period) :=
  (Knows.mapM (fun _ => knows_squared _) window).bind fun _ =>
    (knows_mean _ _).bind fun _ => knows_root _

theorem knows_bollinger (prices : List α) (period : Int) (deviations : α) :
    Knows (bollinger prices period deviations) := by
  refine (knows_checkEnough _ _ _).bind fun _ => (knows_sma _ _).bind fun _ => ?_
  refine (Knows.mapM (fun d => ?_) _).bind fun _ => knows_pure _
  exact (knows_deviation _ _ _).bind fun _ => knows_pure _

theorem knows_periodSetting (settings : Table (Value α)) (name : String) (default : Int) :
    Knows (periodSetting settings name default) :=
  (knows_pure _).ite ((knows_toInteger _).bind fun _ => (knows_error rfl).ite (knows_pure _))

theorem knows_period (kind : IndicatorKind) (settings : Table (Value α)) :
    Knows (period kind settings) := by
  cases kind <;> exact knows_periodSetting _ _ _

/-- The least number of candles of a known kind. -/
theorem knows_leastCandles (kind : IndicatorKind) (settings : Table (Value α)) :
    Knows (leastCandles kind settings) := by
  refine (knows_period kind settings).bind fun n => ?_
  cases kind with
  | macd => exact (knows_periodSetting _ _ _).bind fun _ => knows_pure _
  | sma | ema | rsi | bollinger => exact knows_pure _

theorem knows_numberSetting (settings : Table (Value α)) (name : String) (default : α) :
    Knows (numberSetting settings name default) := knows_toNumber _

theorem knows_priceField (settings : Table (Value α)) : Knows (priceField settings) := by
  unfold priceField
  dsimp only
  split
  · split
    · exact knows_ok _
    · exact knows_error rfl
  · exact knows_error rfl

theorem knows_quoteOf (settings : Table (Value α)) (market : Market α) :
    Knows (quoteOf settings market) := by
  unfold quoteOf
  refine Knows.ite ((knows_lookUp _ _).bind fun quote => ?_) ((knows_ok _).bind fun quote => ?_)
  -- a symbol that was looked up, and none
  all_goals
    dsimp only
    split
    · exact knows_ok _
    · exact knows_error rfl

theorem knows_compute (kind : IndicatorKind) (prices : List α) (settings : Table (Value α))
    (timestamp : Option String) : Knows (compute kind prices settings timestamp) := by
  cases kind with
  | sma => exact (knows_period _ _).bind fun _ => (knows_sma _ _).bind fun _ => knows_pure _
  | ema => exact (knows_period _ _).bind fun _ => (knows_ema _ _).bind fun _ => knows_pure _
  | rsi =>
    refine (knows_period _ _).bind fun _ => (knows_rsi _ _).bind fun _ => ?_
    refine (knows_numberSetting _ _ _).bind fun _ => ?_
    exact (knows_numberSetting _ _ _).bind fun _ => knows_pure _
  | macd =>
    refine (knows_periodSetting _ _ _).bind fun _ => (knows_period _ _).bind fun _ => ?_
    refine (knows_periodSetting _ _ _).bind fun _ => ?_
    exact (knows_macd _ _ _ _).bind fun _ => knows_pure _
  | bollinger =>
    refine (knows_period _ _).bind fun _ => (knows_numberSetting _ _ _).bind fun _ => ?_
    exact (knows_bollinger _ _ _).bind fun _ => knows_pure _

/-- **A known kind of indicator** is never unknown, neither where its block is dispatched nor where
its least number of candles is asked for. -/
theorem knows_study {kind : String} {k : IndicatorKind} (h : IndicatorKind.ofName? kind = some k)
    (market : Market α) (settings : Table (Value α)) :
    Knows (study kind market settings) ∧ Knows (leastCandlesNamed kind settings) := by
  unfold study leastCandlesNamed
  rw [h]
  refine ⟨?_, knows_leastCandles k settings⟩
  refine (knows_quoteOf _ _).bind fun _ => (knows_priceField _).bind fun _ => ?_
  refine (knows_leastCandles _ _).bind fun _ => (knows_checkEnough _ _ _).bind fun _ => ?_
  exact knows_compute _ _ _ _

end Indicator

/-! ### Conditions -/

namespace Source

theorem knows_number? (v : Value α) : Knows (number? v) := by
  cases v with
  | int n => exact (knows_ofInteger n).bind fun _ => knows_pure _
  | null | bool | num | text | list | object => exact knows_ok _

omit [Arith α] in
theorem knows_history (r : Readout α) (line : Option String) : Knows (history r line) := by
  cases line with
  | none =>
    unfold history
    dsimp only
    split <;> exact knows_ok _
  | some line =>
    unfold history
    dsimp only
    split
    · exact knows_items _
    · exact knows_ok _

theorem knows_lineAt (r : Readout α) (line : Option String) (moment : Moment) :
    Knows (lineAt r line moment) := by
  refine (knows_ok _).ite ?_
  cases moment with
  | current => exact knows_number? _
  | previous =>
    refine (knows_history r line).bind fun values => ?_
    cases beforeLast values with
    | some v => exact knows_number? v
    | none => exact knows_pure _

theorem knows_indicator (readouts : Table (Readout α)) (address : String) (moment : Moment) :
    Knows (indicator readouts address moment) := by
  unfold indicator
  dsimp only
  split
  · exact knows_lineAt _ _ _
  · exact knows_ok _

theorem knows_resolve (type source : Value α) (market : Market α) (readouts : Table (Readout α))
    (moment : Moment) : Knows (resolve type source market readouts moment) := by
  refine (knows_ok _).ite ?_
  split
  · exact knows_indicator _ _ _
  · exact knows_ok _
  · exact knows_number? _
  · exact knows_ok _

end Source

namespace Condition

open Source

theorem knows_crossover (settings : Table (Value α)) (market : Market α)
    (readouts : Table (Readout α)) : Knows (crossover settings market readouts) := by
  refine (knows_resolve _ _ _ _ _).bind fun _ => (knows_resolve _ _ _ _ _).bind fun _ => ?_
  refine (knows_resolve _ _ _ _ _).bind fun _ => (knows_resolve _ _ _ _ _).bind fun _ => ?_
  split <;> exact knows_pure _

theorem knows_threshold (settings : Table (Value α)) (market : Market α)
    (readouts : Table (Readout α)) : Knows (threshold settings market readouts) := by
  refine (knows_resolve _ _ _ _ _).bind fun value => ?_
  cases value with
  | none => exact knows_pure _
  | some x =>
    refine (knows_key _).bind fun _ => (knows_number? _).bind fun _ => ?_
    split <;> exact knows_pure _

theorem knows_priceAction (settings : Table (Value α)) (market : Market α) :
    Knows (priceAction settings market) := by
  refine (knows_lookUp _ _).bind fun _ => ?_
  split
  · refine (knows_key _).bind fun _ => ?_
    split
    · exact knows_pure _
    · exact (knows_toInteger _).bind fun _ => knows_pure _
  · exact knows_pure _

/-- **A known kind of condition** is never unknown. -/
theorem knows_condition {kind : String} {k : ConditionKind}
    (h : ConditionKind.ofName? kind = some k)
    (market : Market α) (readouts : Table (Readout α)) (settings : Table (Value α)) :
    Knows (evaluate kind market readouts settings) := by
  unfold evaluate
  rw [h]
  cases k with
  | crossover => exact knows_crossover _ _ _
  | threshold => exact knows_threshold _ _ _
  | priceAction => exact knows_priceAction _ _

end Condition

/-! ### Actions -/

namespace Signal

theorem knows_livePrice (market : Market α) (symbol : Value α) : Knows (market.livePrice symbol) :=
  (knows_lookUp _ _).bind fun _ => knows_pure _

theorem knows_priceOf (kind : ActionKind) (settings : Table (Value α)) (market : Market α) :
    Knows (priceOf kind settings market) := by
  have htrading : Knows (tradingPrice settings market) :=
    ((knows_toNumber _).bind fun _ => knows_pure _).ite (knows_livePrice _ _)
  cases kind with
  | buy | sell => exact htrading
  | stopLoss | takeProfit => exact knows_livePrice _ _

theorem knows_numberOr (settings : Table (Value α)) (name : String) (default : α) :
    Knows (numberOr settings name default) := knows_toNumber _

theorem knows_shares (settings : Table (Value α)) : Knows (shares settings) :=
  (knows_pure _).ite ((knows_toNumber _).bind fun _ =>
    (knows_truncated _).bind fun _ => knows_pure _)

theorem knows_optionalNumber (settings : Table (Value α)) (name : String) :
    Knows (optionalNumber settings name) :=
  (knows_pure _).ite ((knows_toNumber _).bind fun _ => knows_pure _)

theorem knows_orderOf (kind : ActionKind) (settings : Table (Value α)) :
    Knows (orderOf kind settings) := by
  cases kind with
  | buy =>
    exact (knows_shares _).bind fun _ => (knows_numberOr _ _ _).bind fun _ => knows_pure _
  | sell =>
    exact (knows_numberOr _ _ _).bind fun _ => (knows_shares _).bind fun _ => knows_pure _
  | stopLoss =>
    exact (knows_optionalNumber _ _).bind fun _ => (knows_numberOr _ _ _).bind fun _ => knows_pure _
  | takeProfit => exact (knows_optionalNumber _ _).bind fun _ => knows_pure _

/-- **A known kind of action** is never unknown. -/
theorem knows_signal {kind : String} {k : ActionKind} (h : ActionKind.ofName? kind = some k)
    (now : Instant) (settings : Table (Value α)) (market : Market α) :
    Knows (generate now kind settings market) := by
  unfold generate
  rw [h]
  refine (knows_priceOf k settings market).bind fun price => ?_
  cases price with
  | none => exact knows_pure _
  | some price => exact (knows_orderOf k settings).bind fun _ => knows_pure _

end Signal

/-! ### Names that can be dispatched -/

/-- **A name that the evaluator of a role can dispatch:** whatever market, studies and settings it
is given, it does not find the name unknown. -/
def Role.Dispatches (α : Type) [Arith α] (r : Role) (kind : String) : Prop :=
  match r with
  | .indicator => ∀ (market : Market α) (settings : Table (Value α)),
    Knows (Indicator.study kind market settings) ∧ Knows (Indicator.leastCandlesNamed kind settings)
  | .condition => ∀ (market : Market α) (readouts : Table (Readout α)) (settings : Table (Value α)),
    Knows (Condition.evaluate kind market readouts settings)
  | .action => ∀ (now : Instant) (settings : Table (Value α)) (market : Market α),
    Knows (Signal.generate now kind settings market)

omit [Arith α] in
/-- A look-up by name finds the kinds whose names are listed. -/
theorem mem_names_iff {κ : Type} {name : κ → String} {all : List κ} {s : String} :
    s ∈ all.map name ↔ ∃ k, all.find? (name · == s) = some k := by
  rw [← Option.isSome_iff_exists, List.find?_isSome, List.mem_map]
  simp

omit [Arith α] in
theorem not_mem_names_iff {κ : Type} {name : κ → String} {all : List κ} {s : String} :
    s ∉ all.map name ↔ all.find? (name · == s) = none := by
  rw [mem_names_iff, ← Option.isSome_iff_exists, Option.not_isSome_iff_eq_none]

/-- **The names that an evaluator can dispatch** are those that its role lists. -/
theorem dispatches_iff {r : Role} {kind : String} : r.Dispatches α kind ↔ kind ∈ r.kinds := by
  constructor
  · intro h
    by_contra hnot
    -- an evaluator refuses a name that is not listed, whatever it is given
    cases r with
    | indicator =>
      have hnone : IndicatorKind.ofName? kind = none := not_mem_names_iff.mp hnot
      have hstudy := (h .empty .empty).1
      rw [Indicator.study, hnone] at hstudy
      exact not_knows_unknownKind _ _ hstudy
    | condition =>
      have hnone : ConditionKind.ofName? kind = none := not_mem_names_iff.mp hnot
      have hcondition := h .empty .empty .empty
      rw [Condition.evaluate, hnone] at hcondition
      exact not_knows_unknownKind _ _ hcondition
    | action =>
      have hnone : ActionKind.ofName? kind = none := not_mem_names_iff.mp hnot
      have hsignal := h ⟨0⟩ .empty .empty
      rw [Signal.generate, hnone] at hsignal
      exact not_knows_unknownKind _ _ hsignal
  · intro h
    cases r with
    | indicator =>
      obtain ⟨k, hk⟩ := mem_names_iff.mp h
      exact fun market settings => Indicator.knows_study hk market settings
    | condition =>
      obtain ⟨k, hk⟩ := mem_names_iff.mp h
      exact fun market readouts settings => Condition.knows_condition hk market readouts settings
    | action =>
      obtain ⟨k, hk⟩ := mem_names_iff.mp h
      exact fun now settings market => Signal.knows_signal hk now settings market

end Evaluators

end PaperTrading
