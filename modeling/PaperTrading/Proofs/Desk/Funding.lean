import PaperTrading.Config.Basic
import PaperTrading.Proofs.Desk.Opening
import PaperTrading.Proofs.Number.Sign

/-!
# The money of new sessions

A session starts with a capital and takes a risk.  Both come from the options of the request, else
from the configuration, else from the standard defaults, and both are checked on every way.  A risk
has to be between zero and one, and what is no number is not.  A capital only has to be not at or
below zero, which is also true of what is no number.

* `IsFraction`, `Options.InRange`, `Config.InRange`: **the risks, the options and the variables that
  are accepted.**
* `Defaults.Configured`: the defaults that stand in for what options leave open.
* `Options.inRange_of_read`, `Config.inRange_of_load`: whatever else is refused.
* `Desk.funded`: **the money of every new session,** and which requests and variables are refused.
* `Desk.funded_by_no_number`: a session whose capital is no number.
-/

namespace PaperTrading

/-! ### Numbers in range -/

/-- **A fraction above zero.** -/
def IsFraction (x : Float) : Prop := 0.0 < x ∧ x ≤ 1.0

instance (x : Float) : Decidable (IsFraction x) := inferInstanceAs (Decidable (0.0 < x ∧ x ≤ 1.0))

/-- The check of a risk refuses what is no fraction. -/
theorem refusesRisk_iff {x : Float} :
    (!(decide (0.0 < x) && decide (x ≤ 1.0))) = true ↔ ¬ IsFraction x := by
  unfold IsFraction
  rw [Bool.not_eq_true', Bool.and_eq_false_iff, decide_eq_false_iff_not, decide_eq_false_iff_not,
    not_and_or]

/-- What is not at or below zero is above it exactly when it is a number. -/
theorem zero_lt_iff_of_not_le {x : Float} (h : ¬ x ≤ 0.0) : 0.0 < x ↔ x.isNaN = false := by
  rw [Double.isNaN_eq_false_iff]
  constructor
  · intro hpos
    have hsign : Double.sign x = some .positive := (Double.zero_lt_iff.mp hpos).sign?
    rw [hsign]
    simp
  · exact (Double.not_le_zero_iff.mp h).resolve_left

/-- What is not at or below zero counts as given, also when it is no number. -/
theorem isNonzero_of_not_le {x : Float} (h : ¬ x ≤ 0.0) : Arith.isNonzero x = true := by
  rcases Double.not_le_zero_iff.mp h with hnone | hpos
  · exact Double.isNonzero_of_sign_eq_none hnone
  · exact Double.isNonzero_of_pos hpos

theorem filter_isNonzero {x : Option Float} (h : ∀ y ∈ x, Arith.isNonzero y = true) :
    x.filter Arith.isNonzero = x := by
  cases x with
  | none => rfl
  | some y => exact Option.filter_some_pos (h y rfl)

namespace Options

/-- A number among the options, under one of some names. -/
def numberIn (names : List String) (v : Value Float) : Except Failure (Option Float) := do
  (firstPresent (← (v.orElse (.object [])).fieldsFor "get") names).toNumber?

/-- **The capital that options name,** if they do. -/
def capitalIn : Value Float → Except Failure (Option Float) :=
  numberIn ["initialCapital", "initial_capital"]

/-- **The risk that options name,** if they do. -/
def riskIn : Value Float → Except Failure (Option Float) :=
  numberIn ["riskPerTrade", "risk_per_trade"]

/-- **Options whose numbers are accepted:** a capital that is not at or below zero, and a risk that is
a fraction, as far as they are named. -/
structure InRange (v : Value Float) (capital risk : Option Float) : Prop where
  capital_eq : capitalIn v = .ok capital
  capital_range : ∀ x ∈ capital, ¬ x ≤ 0.0
  risk_eq : riskIn v = .ok risk
  risk_range : ∀ x ∈ risk, IsFraction x

theorem check_ok {o : Options Float} (h : o.check = .ok ()) :
    (∀ x ∈ o.initialCapital, ¬ x ≤ 0.0) ∧ ∀ x ∈ o.riskPerTrade, IsFraction x := by
  have hrisk : ∀ {x : Float} {f : Failure}, (if !(decide (0.0 < x) && decide (x ≤ 1.0)) then throw f
      else pure () : Except Failure Unit) = .ok () → IsFraction x := by
    intro x f h
    by_contra hnot
    rw [if_pos (refusesRisk_iff.mpr hnot)] at h
    cases h
  unfold check at h
  cases hcapital : o.initialCapital with
  | none =>
    cases hfraction : o.riskPerTrade with
    | none => simp
    | some y =>
      rw [hcapital, hfraction] at h
      simpa using hrisk h
  | some x =>
    cases hfraction : o.riskPerTrade with
    | none =>
      rw [hcapital, hfraction] at h
      simpa using (refuse_ok_iff.mp h).1
    | some y =>
      rw [hcapital, hfraction] at h
      obtain ⟨hpositive, h⟩ := refuse_ok_iff.mp h
      simpa using ⟨hpositive, hrisk h⟩

/-- **Options that have been read** name numbers that are accepted. -/
theorem inRange_of_read {v : Value Float} {o : Options Float} (h : read v = .ok o) :
    InRange v o.initialCapital o.riskPerTrade := by
  obtain ⟨fields, hfields, h⟩ := bind_ok_iff.mp h
  obtain ⟨capital, hcapital, h⟩ := bind_ok_iff.mp h
  obtain ⟨symbols, -, h⟩ := bind_ok_iff.mp h
  obtain ⟨risk, hrisk, h⟩ := bind_ok_iff.mp h
  obtain ⟨_, hcheck, h⟩ := bind_ok_iff.mp h
  obtain rfl := pure_ok_iff.mp h
  obtain ⟨hcapital', hrisk'⟩ := check_ok hcheck
  exact ⟨bind_ok_iff.mpr ⟨fields, hfields, hcapital⟩, hcapital',
    bind_ok_iff.mpr ⟨fields, hfields, hrisk⟩, hrisk'⟩

/-- Options whose numbers are not accepted cannot be read. -/
theorem error_of_not_inRange {v : Value Float} (h : ¬ ∃ capital risk, InRange v capital risk) :
    ∃ f, read v = .error f := by
  cases hread : read v with
  | error f => exact ⟨f, rfl⟩
  | ok o => exact absurd ⟨_, _, inRange_of_read hread⟩ h

end Options

/-! ### Configurations -/

namespace Config

/-- The variables of an environment and of a file, unless the environment turns the file off. -/
def environmentOf (environment : Table String) (file : Option String) :
    Except Failure (Table String) :=
  (if ignoresFile environment then none else file).elim (.ok environment)
    (EnvFile.extend environment)

/-- **Variables whose numbers are accepted.** -/
structure InRange (environment : Table String) (file : Option String) (capital risk : Float) :
    Prop where
  capital_eq : ∃ vs, environmentOf environment file = .ok vs ∧
    numberOf vs "DEFAULT_INITIAL_CAPITAL" "10000" = .ok capital
  capital_range : ¬ capital ≤ 0.0
  risk_eq : ∃ vs, environmentOf environment file = .ok vs ∧
    numberOf vs "DEFAULT_RISK_PER_TRADE" "0.02" = .ok risk
  risk_range : IsFraction risk

theorem capitalOf_ok {vs : Table String} {x : Float} (h : capitalOf vs = .ok x) :
    numberOf vs "DEFAULT_INITIAL_CAPITAL" "10000" = .ok x ∧ ¬ x ≤ 0.0 := by
  obtain ⟨y, hy, h⟩ := bind_ok_iff.mp h
  obtain ⟨hrange, h⟩ := refuse_ok_iff.mp h
  obtain rfl := pure_ok_iff.mp h
  exact ⟨hy, hrange⟩

theorem riskOf_ok {vs : Table String} {x : Float} (h : riskOf vs = .ok x) :
    numberOf vs "DEFAULT_RISK_PER_TRADE" "0.02" = .ok x ∧ IsFraction x := by
  obtain ⟨y, hy, h⟩ := bind_ok_iff.mp h
  obtain ⟨hrange, h⟩ := refuse_ok_iff.mp h
  obtain rfl := pure_ok_iff.mp h
  exact ⟨hy, not_not.mp (refusesRisk_iff.not.mp hrange)⟩

/-- **A configuration that has been loaded** has numbers that are accepted. -/
theorem inRange_of_load {environment : Table String} {file : Option String} {c : Config Float}
    (h : load environment file = .ok c) : InRange environment file c.capital c.risk := by
  obtain ⟨vs, hvs, h⟩ := bind_ok_iff.mp h
  obtain ⟨capital, hcapital, h⟩ := bind_ok_iff.mp h
  obtain ⟨risk, hrisk, h⟩ := bind_ok_iff.mp h
  obtain ⟨port, -, h⟩ := bind_ok_iff.mp h
  obtain rfl := pure_ok_iff.mp h
  obtain ⟨hcapital, hpositive⟩ := capitalOf_ok hcapital
  obtain ⟨hrisk, hfraction⟩ := riskOf_ok hrisk
  exact ⟨⟨vs, hvs, hcapital⟩, hpositive, ⟨vs, hvs, hrisk⟩, hfraction⟩

end Config

/-- **The defaults of a desk:** the standard ones, or those of a configuration that has been loaded. -/
inductive Defaults.Configured : Defaults Float → Prop
  | standard : Configured .standard
  | loaded {environment : Table String} {file : Option String} {c : Config Float}
      (h : Config.load environment file = .ok c) : Configured c.defaults

theorem Defaults.Configured.inRange {defaults : Defaults Float} (h : defaults.Configured) :
    ¬ defaults.capital ≤ 0.0 ∧ IsFraction defaults.risk := by
  cases h with
  | standard => decide +kernel
  | loaded h => exact ⟨(Config.inRange_of_load h).capital_range, (Config.inRange_of_load h).risk_range⟩

/-! ### New sessions -/

namespace Desk

variable {d : Desk Float} {now : Instant} {user : Option String} {strategy : String}
  {options : Value Float} {s : Session Float}

/-- **The money of a session that is opened** is what the options name, else the default. -/
theorem Opens.money (h : d.Opens now user strategy options s) : ∃ capital risk,
    Options.InRange options capital risk ∧ s.initialCapital = capital.getD d.defaults.capital ∧
      s.settings.riskPerTrade = risk.getD d.defaults.risk := by
  obtain ⟨a, ha, hs⟩ := h
  obtain ⟨-, -, hread⟩ := vet_ok ha
  have hrange := Options.inRange_of_read hread
  -- what is in range is never taken for a number that has been left out
  have hcapital : a.options.initialCapital.filter Arith.isNonzero = a.options.initialCapital :=
    filter_isNonzero fun x hx => isNonzero_of_not_le (hrange.capital_range x hx)
  have hrisk : a.options.riskPerTrade.filter Arith.isNonzero = a.options.riskPerTrade :=
    filter_isNonzero fun x hx => Double.isNonzero_of_pos (hrange.risk_range x hx).1
  refine ⟨_, _, hrange, ?_, ?_⟩
  · rw [← hcapital]
    unfold Session.create Session.start at hs
    split at hs <;> cases hs
    rfl
  · rw [Session.settings_of_create hs, ← hrisk]
    rfl

/-- A session that has been stored under a free identifier was opened. -/
theorem opens_of_stored {id : String} {e : Stored Float} (hfree : d.store.find? id = none)
    (he : (d.create now user strategy options).1.store.find? id = some e) :
    d.Opens now user strategy options e.session := by
  have hput : ∀ {s : Session Float}, d.Opens now user strategy options s →
      (d.store.put s).find? id = some e → d.Opens now user strategy options e.session := by
    intro s hopens he
    by_cases hid : s.id = id
    · subst hid
      rw [Store.find?_put_self] at he
      cases he
      exact hopens
    · rw [Store.find?_put_of_ne _ _ hid, hfree] at he
      cases he
  have hcreated := created_create d now user strategy options
  generalize d.create now user strategy options = outcome at he hcreated
  cases hcreated with
  | refused | unread => exact absurd (hfree.symm.trans he) (by simp)
  | opened hopens => exact hput hopens he
  | unannounced hopens => exact hput hopens he

/-- **The money of every new session.**  Whatever a desk stores for a request has all its capital in
cash and takes a risk that is a fraction; both are what the options name, else the defaults.  The
capital is above zero exactly when it is a number.  A request whose options name anything else is
refused.  The same holds of what a configuration says about capital and risk. -/
theorem funded (hd : d.defaults.Configured) :
    (∀ now user strategy options id e, d.store.find? id = none →
      (d.create now user strategy options).1.store.find? id = some e →
      ∃ capital risk, Options.InRange options capital risk ∧
        e.session.initialCapital = capital.getD d.defaults.capital ∧
        e.session.settings.riskPerTrade = risk.getD d.defaults.risk ∧
        e.session.cash = e.session.initialCapital ∧
        e.session.currentCapital = e.session.initialCapital ∧
        IsFraction e.session.settings.riskPerTrade ∧
        (0.0 < e.session.initialCapital ↔ e.session.initialCapital.isNaN = false)) ∧
    (∀ now user strategy options, (¬ ∃ capital risk, Options.InRange options capital risk) →
      ∃ f, d.create now user strategy options = (d, .error f)) ∧
    (∀ environment file c, Config.load environment file = .ok c →
      Config.InRange environment file c.capital c.risk ∧
        (0.0 < c.capital ↔ c.capital.isNaN = false)) ∧
    ∀ environment file, (¬ ∃ capital risk, Config.InRange environment file capital risk) →
      ∃ f, (Config.load environment file : Except Failure (Config Float)) = .error f := by
  obtain ⟨-, hfraction⟩ := hd.inRange
  refine ⟨?_, ?_, ?_, ?_⟩
  · intro now user strategy options id e hfree he
    have hopens := opens_of_stored hfree he
    obtain ⟨capital, risk, hrange, hcapital, hrisk⟩ := hopens.money
    obtain ⟨-, huntouched, -⟩ := hopens.settled
    obtain ⟨a, -, hs⟩ := hopens
    refine ⟨capital, risk, hrange, hcapital, hrisk, huntouched.cash, huntouched.worth, ?_,
      zero_lt_iff_of_not_le (Session.create_ok hs).1⟩
    rw [hrisk]
    cases risk with
    | none => exact hfraction
    | some x => exact hrange.risk_range x rfl
  · intro now user strategy options hnot
    obtain ⟨f, hf⟩ := Options.error_of_not_inRange hnot
    refine ⟨f, ?_⟩
    unfold create vet
    rw [hf]
    rfl
  · intro environment file c hload
    have hrange := Config.inRange_of_load hload
    exact ⟨hrange, zero_lt_iff_of_not_le hrange.capital_range⟩
  · intro environment file hnot
    cases hload : (Config.load environment file : Except Failure (Config Float)) with
    | error f => exact ⟨f, rfl⟩
    | ok c => exact absurd ⟨_, _, Config.inRange_of_load hload⟩ hnot

/-- Two variables of a configuration. -/
def richAndBold : Table String :=
  ⟨[("DEFAULT_INITIAL_CAPITAL", "2500"), ("DEFAULT_RISK_PER_TRADE", "0.5")]⟩

/-- The capital is the configured one, and the risk is named by the options. -/
theorem funded_of_configured : ∃ (c : Config Float) (e : Stored Float),
    Config.load richAndBold none = .ok c ∧
    ((ofStrategies [steady buyAndTrim] c.defaults).create ⟨0⟩ (some "ada") "steady"
      (.object [("risk_per_trade", .text "0.25")])).1.store.find? "ada-steady-0" = some e ∧
    e.session.initialCapital == 2500.0 ∧ e.session.settings.riskPerTrade == 0.25 ∧
    e.session.cash = e.session.initialCapital ∧ IsFraction e.session.settings.riskPerTrade := by
  have hstored : (Config.load richAndBold none : Except Failure (Config Float)).toOption.any
      (fun c => ((ofStrategies [steady buyAndTrim] c.defaults).create ⟨0⟩ (some "ada") "steady"
        (.object [("risk_per_trade", .text "0.25")])).1.store.find? "ada-steady-0" |>.any fun e =>
          e.session.initialCapital == 2500.0 && e.session.settings.riskPerTrade == 0.25) = true := by
    decide +kernel
  obtain ⟨c, hc, hstored⟩ := (Option.any_eq_true _ _).mp hstored
  obtain ⟨e, he, hmoney⟩ := (Option.any_eq_true _ _).mp hstored
  obtain ⟨hcapital, hrisk⟩ := (Bool.and_eq_true _ _).mp hmoney
  have hload := toOption_eq_some_iff.mp hc
  obtain ⟨_, _, -, -, -, hcash, -, hfraction, -⟩ :=
    (funded (d := ofStrategies [steady buyAndTrim] c.defaults) (.loaded hload)).1 _ _ _ _ _ e
      (find?_ofStrategies _ _ _) he
  exact ⟨c, e, hload, he, hcapital, hrisk, hcash, hfraction⟩

/-- **A session whose capital is no number:** the options name one that is read as such, and so may
the configuration. -/
theorem funded_by_no_number :
    (∃ e, ((ofStrategies [steady buyAndTrim] .standard).create ⟨0⟩ (some "ada") "steady"
        (.object [("initialCapital", .text "nan")])).1.store.find? "ada-steady-0" = some e ∧
      e.session.initialCapital.isNaN = true ∧ ¬ 0.0 < e.session.initialCapital) ∧
    ∃ c : Config Float, Config.load ⟨[("DEFAULT_INITIAL_CAPITAL", "nan")]⟩ none = .ok c ∧
      c.capital.isNaN = true := by
  have hsession : (((ofStrategies [steady buyAndTrim] (.standard : Defaults Float)).create ⟨0⟩
      (some "ada") "steady" (.object [("initialCapital", .text "nan")])).1.store.find?
        "ada-steady-0").any (fun e => e.session.initialCapital.isNaN = true ∧
          ¬ 0.0 < e.session.initialCapital) = true := by
    decide +kernel
  have hconfig : (Config.load ⟨[("DEFAULT_INITIAL_CAPITAL", "nan")]⟩ none :
      Except Failure (Config Float)).toOption.any (fun c => c.capital.isNaN) = true := by
    decide +kernel
  obtain ⟨e, he, hdec⟩ := (Option.any_eq_true _ _).mp hsession
  obtain ⟨c, hc, hnan⟩ := (Option.any_eq_true _ _).mp hconfig
  exact ⟨⟨e, he, of_decide_eq_true hdec⟩, c, toOption_eq_some_iff.mp hc, hnan⟩

end Desk

end PaperTrading
