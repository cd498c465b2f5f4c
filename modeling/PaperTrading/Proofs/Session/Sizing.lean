import PaperTrading.Proofs.Number.Sign
import PaperTrading.Proofs.Session.Batch

/-!
# The risk setting of a session

A buy that leaves its size open is sized when it is executed, by a fraction of the cash.  A session
has a setting for this fraction, but an action block that names none sends a fraction of its own
with its signal, so that the setting is never asked.

* `Session.SizedBy`: **a buy that a fraction of the cash sizes.**
* `buy_of_affordable`, `buy_of_unaffordable`, `wants_buy`: what becomes of a buy without a size, and
  which of these buys fail for want of a single share.
* `unsizedBuy`: the signal of a block that names neither a size nor a risk; `generate_unsized` and
  `execute_unsized` say where it comes from and what is done with it.
* `sizedBy_setting_iff`: **exactly when the setting of the session governs the size.**
* `setting_ignored`: a session whose setting does not.
-/

namespace PaperTrading

open Arith

namespace Session

variable {α : Type} [Arith α] {now : Instant} {market : Market α} {s s' : Session α}
  {symbol : Value α} {price : α} {risk : Option α} {n : Int}

/-! ### Buys that a fraction sizes -/

/-- The signal is not executed, and the batch goes on behind it with the failure on record. -/
def Refuses (now : Instant) (market : Market α) (s : Session α) (signal : Signal α)
    (f : Failure) : Prop :=
  s.execute now market signal = .error f ∧ ∀ later,
    executeAll now market (signal :: later) s = executeAll now market later (s.record now f)

/-- **A buy that a fraction of the cash sizes.**  As many shares are bought as the fraction pays for
at the price; if it does not pay for one, the lack of funds goes on record. -/
def SizedBy (now : Instant) (market : Market α) (s : Session α) (signal : Signal α)
    (price fraction : α) : Prop :=
  ∃ n, Sizing.affordable s.cash fraction price = .ok n ∧
    (0 < n → ∃ s' cost, s.execute now market signal =
      .ok (s', some ⟨signal.symbol, n, price, cost, now, none⟩)) ∧
    (n ≤ 0 → Refuses now market s signal
      (.cannotAffordOne signal.symbol.display (written price) (fixed 2 s.cash)))

example (name price cash : String) :
    (Failure.cannotAffordOne name price cash).kind = "InsufficientFundsError" := rfl

/-- An order for so many shares is carried out. -/
def CanBuy (now : Instant) (s : Session α) (symbol : Value α) (price : α) (n : Int) : Prop :=
  ∃ r, s.buy now symbol price (some n) none = .ok r

/-! ### Buys without a size -/

/-- A buy without a size is an order for the shares that its risk pays for. -/
theorem buy_of_affordable (h : s.affordableQuantity risk price = .ok n) (hn : 0 < n) :
    s.buy now symbol price none risk = s.buy now symbol price (some n) none := by
  have hne : n ≠ 0 := by omega
  have hsized : s.buyQuantity none risk price = .ok n := h
  unfold buy
  rw [buyQuantity_of_given hne, hsized]

/-- What a risk pays for may be no share at all. -/
theorem buy_of_unaffordable {quantity : Option Int} (h : s.buyQuantity quantity risk price = .ok n)
    (hn : n ≤ 0) : s.buy now symbol price quantity risk =
      .error (.cannotAffordOne symbol.display (written price) (fixed 2 s.cash)) := by
  unfold buy
  rw [h]
  show (if n ≤ 0 then _ else _) = _
  rw [if_pos hn]
  rfl

/-! ### Buys that fail for want of a single share -/

section Wants

variable {β γ : Type} {x : Except Failure β}

/-- The failure of a buy that cannot pay for a single share. -/
def wantsOne : Failure → Bool
  | .cannotAffordOne .. => true
  | _ => false

/-- **A computation that fails for want of a single share.** -/
def Wants (x : Except Failure β) : Prop := Outside (fun f => !wantsOne f) x

theorem not_wants_ok (b : β) : ¬ Wants (.ok b) := not_outside_ok b

theorem not_wants_pure (b : β) : ¬ Wants (pure b) := not_outside_pure b

theorem wants_bind {g : β → Except Failure γ} :
    Wants (x >>= g) ↔ Wants x ∨ ∃ b, x = .ok b ∧ Wants (g b) := outside_bind

/-- A refusal fails for want of a share where it applies, if its failure says so. -/
theorem wants_check {p : Prop} [Decidable p] {f : Failure} {g : PUnit → Except Failure β} :
    Wants (if p then (throw f : Except Failure PUnit) >>= g else x) ↔
      p ∧ wantsOne f = true ∨ ¬ p ∧ Wants x := by
  have h : Wants (if p then .error f else x) ↔ p ∧ (!wantsOne f) = false ∨ ¬ p ∧ Wants x :=
    outside_refusal
  rw [Bool.not_eq_false'] at h
  exact h

end Wants

theorem not_wants_affordable (cash risk price : α) :
    ¬ Wants (Sizing.affordable cash risk price) := by
  unfold Sizing.affordable floored
  repeat' refine not_outside_refusal rfl ?_
  exact not_outside_ok _

theorem not_wants_ofInteger (n : Int) : ¬ Wants (ofInteger α n) := by
  unfold ofInteger
  split
  · exact not_wants_ok _
  · exact fun h => absurd (outside_error.mp h) (by decide)

theorem not_wants_times (x : α) (n : Int) : ¬ Wants (times x n) := by
  simp only [times, wants_bind, not_wants_ofInteger, not_wants_pure, and_false, exists_false,
    or_false, not_false_eq_true]

theorem not_wants_dividedBy (x : α) (n : Int) : ¬ Wants (dividedBy x n) := by
  have hquotient : ∀ y : α, ¬ Wants (quotient x y) := fun y =>
    not_outside_refusal rfl (not_outside_ok _)
  simp only [dividedBy, wants_bind, not_wants_ofInteger, hquotient, and_false, exists_false,
    or_false, not_false_eq_true]

theorem not_wants_positionsAfterBuy (cost : α) :
    ¬ Wants (s.positionsAfterBuy now symbol n price cost) := by
  unfold positionsAfterBuy
  split
  · simp only [enlarge, wants_bind, not_wants_times, not_wants_dividedBy, not_wants_pure,
      and_false, exists_false, or_false, not_false_eq_true]
  · exact not_wants_ok _

/-- **Exactly the buys for no share** fail for want of one. -/
theorem wants_buy : Wants (s.buy now symbol price none risk) ↔
    ∃ n, s.affordableQuantity risk price = .ok n ∧ n ≤ 0 := by
  have hsized : s.buyQuantity none risk price = s.affordableQuantity risk price := rfl
  have hnever : ¬ Wants (s.affordableQuantity risk price) := not_wants_affordable _ _ _
  simp only [buy, hsized, hnever, wants_bind, wants_check, wantsOne, not_wants_times,
    not_wants_positionsAfterBuy, not_wants_pure, and_false, exists_false, or_false, false_or,
    and_true, Bool.false_eq_true]

/-! ### Blocks that name neither a size nor a risk -/

/-- The signal of a block that buys and names neither a size nor a risk. -/
def unsizedBuy (now : Instant) (settings : Table (Value α)) (price : α) : Signal α :=
  ⟨Signal.symbolOf settings, some price, now,
    .trade .buy (Signal.orderType settings) none (some 0.02) none⟩

variable {settings : Table (Value α)} {fraction : α}

/-- **Such a block sends a risk of its own,** whatever the session is. -/
theorem generate_unsized (hshares : (Value.get settings "quantity").isMissingOrZero = true)
    (hrisk : (Value.get settings "riskLevel").isTrue = false)
    (hprice : Signal.tradingPrice settings market = .ok (some price)) :
    Signal.generate now "buy" settings market = .ok (some (unsizedBuy now settings price)) := by
  refine Signal.generate_of_order rfl hprice ?_
  show Signal.buyOrder settings = _
  unfold Signal.buyOrder
  rw [Signal.shares_of_missing hshares, Signal.numberOr_of_isTrue_eq_false hrisk]
  rfl

/-- It is executed as a buy without a size. -/
theorem execute_unsized (hprice : ¬ price ≤ 0.0) (hgiven : isNonzero price = true) :
    s.execute now market (unsizedBuy now settings price) = (do
      let (s, t) ← s.buy now (Signal.symbolOf settings) price none (some 0.02)
      return (s, some t)) :=
  execute_buy (priceIn_of_given rfl hgiven) hprice rfl

/-- The risk that the block sends is the fraction of the cash that counts. -/
theorem affordableQuantity_unsized (hdefault : isNonzero (0.02 : α) = true) :
    s.affordableQuantity (some 0.02) price = Sizing.affordable s.cash 0.02 price := by
  unfold affordableQuantity
  rw [Option.filter_some_pos hdefault]
  rfl

/-- What such a signal buys, its own risk pays for. -/
theorem affordable_of_bought {t : Transaction α} (hprice : ¬ price ≤ 0.0)
    (hgiven : isNonzero price = true) (hdefault : isNonzero (0.02 : α) = true)
    (h : s.execute now market (unsizedBuy now settings price) = .ok (s', some t)) :
    Sizing.affordable s.cash 0.02 price = .ok t.quantity ∧
      s.CanBuy now (Signal.symbolOf settings) price t.quantity := by
  rw [execute_unsized hprice hgiven] at h
  obtain ⟨⟨s₁, t₁⟩, hbuy, hsame⟩ := bind_ok_iff.mp h
  obtain ⟨-, ht⟩ := Prod.mk.inj (pure_ok_iff.mp hsame)
  obtain rfl : t₁ = t := Option.some.inj ht
  obtain ⟨n, _, _, hn, hpos, _, _, _, rfl, _⟩ := buy_ok hbuy
  have hn : s.affordableQuantity (some 0.02) price = .ok n := hn
  rw [buy_of_affordable hn hpos] at hbuy
  rw [affordableQuantity_unsized hdefault] at hn
  exact ⟨hn, _, hbuy⟩

/-- Where such a signal fails for want of a single share, its own risk pays for none. -/
theorem nonpos_of_refused {name text cash : String} (hprice : ¬ price ≤ 0.0)
    (hgiven : isNonzero price = true) (hdefault : isNonzero (0.02 : α) = true)
    (h : s.execute now market (unsizedBuy now settings price) =
      .error (.cannotAffordOne name text cash)) :
    ∃ n, Sizing.affordable s.cash 0.02 price = .ok n ∧ n ≤ 0 := by
  have hwants : Wants (s.execute now market (unsizedBuy now settings price)) :=
    ⟨_, h, rfl⟩
  rw [execute_unsized hprice hgiven, wants_bind] at hwants
  rw [← affordableQuantity_unsized hdefault]
  exact wants_buy.mp (hwants.resolve_right fun ⟨_, _, hnever⟩ => not_wants_pure _ hnever)

/-- **The fractions that size such a buy** are those that pay for as many shares as the risk that
the block sends. -/
theorem sizedBy_unsized_iff (hprice : ¬ price ≤ 0.0) (hgiven : isNonzero price = true)
    (hdefault : isNonzero (0.02 : α) = true) :
    SizedBy now market s (unsizedBuy now settings price) price fraction ↔
      ∃ n m, Sizing.affordable s.cash 0.02 price = .ok n ∧
        Sizing.affordable s.cash fraction price = .ok m ∧ n.toNat = m.toNat ∧
        (0 < n → s.CanBuy now (Signal.symbolOf settings) price n) := by
  constructor
  · rintro ⟨m, hm, hbought, hrefused⟩
    by_cases hpos : 0 < m
    · obtain ⟨s', cost, hexec⟩ := hbought hpos
      obtain ⟨hn, hcan⟩ := affordable_of_bought hprice hgiven hdefault hexec
      exact ⟨m, m, hn, hm, rfl, fun _ => hcan⟩
    · obtain ⟨n, hn, hle⟩ :=
        nonpos_of_refused hprice hgiven hdefault (hrefused (by omega)).1
      exact ⟨n, m, hn, hm, by omega, fun hnpos => by omega⟩
  · rintro ⟨n, m, hn, hm, hsame, hcan⟩
    rw [← affordableQuantity_unsized hdefault] at hn
    refine ⟨m, hm, fun hpos => ?_, fun hle => ?_⟩
    · obtain rfl : n = m := by omega
      obtain ⟨⟨s', t⟩, hbuy⟩ := hcan hpos
      rw [← buy_of_affordable hn hpos] at hbuy
      obtain ⟨n', cost, -, hn', -, -, -, -, rfl, -⟩ := buy_ok hbuy
      obtain rfl : n' = n := Except.ok.inj (hn'.symm.trans hn)
      exact ⟨s', cost, by rw [execute_unsized hprice hgiven, hbuy]; rfl⟩
    · have hexec : s.execute now market (unsizedBuy now settings price) = .error
          (.cannotAffordOne (Signal.symbolOf settings).display (written price)
            (fixed 2 s.cash)) := by
        have hnone : s.buyQuantity none (some 0.02) price = .ok n := hn
        rw [execute_unsized hprice hgiven, buy_of_unaffordable hnone (by omega)]
        rfl
      exact ⟨hexec, fun later => executeAll_of_refused hexec rfl⟩

/-- **The risk setting of a session governs nothing by itself.**  Take a block that buys and names
neither a size nor a risk, and a market at which it trades at a price above zero: its own, if it is
not for the market and names one, else the live price.  The block sends a signal, whatever the
setting of the session is; the signal buys what the fraction 0.02 of the cash pays for, as far as
such an order can be carried out at all; and this is what the setting pays for exactly when both pay
for the same number of shares. -/
theorem sizedBy_setting_iff {s : Session Float} {market : Market Float}
    {settings : Table (Value Float)} {price : Float} (now : Instant)
    (hshares : (Value.get settings "quantity").isMissingOrZero = true)
    (hrisk : (Value.get settings "riskLevel").isTrue = false)
    (hprice : Signal.tradingPrice settings market = .ok (some price)) (hpos : 0.0 < price) :
    ∃ signal, Signal.generate now "buy" settings market = .ok (some signal) ∧
      (SizedBy now market s signal price 0.02 ↔
        ∃ n, Sizing.affordable s.cash 0.02 price = .ok n ∧
          (0 < n → s.CanBuy now (Signal.symbolOf settings) price n)) ∧
      (SizedBy now market s signal price s.settings.riskPerTrade ↔
        SizedBy now market s signal price 0.02 ∧
          ∃ n m, Sizing.affordable s.cash 0.02 price = .ok n ∧
            Sizing.affordable s.cash s.settings.riskPerTrade price = .ok m ∧
            n.toNat = m.toNat) := by
  have hle := Double.not_le_zero_of_pos hpos
  have hgiven := Double.isNonzero_of_pos hpos
  have hdefault : isNonzero (0.02 : Float) = true := by decide
  have hone : ∀ fraction, SizedBy now market s (unsizedBuy now settings price) price fraction ↔ _ :=
    fun fraction => sizedBy_unsized_iff hle hgiven hdefault
  have htwo : SizedBy now market s (unsizedBuy now settings price) price 0.02 ↔
      ∃ n, Sizing.affordable s.cash 0.02 price = .ok n ∧
        (0 < n → s.CanBuy now (Signal.symbolOf settings) price n) := by
    rw [hone]
    constructor
    · rintro ⟨n, -, hn, -, -, hcan⟩
      exact ⟨n, hn, hcan⟩
    · rintro ⟨n, hn, hcan⟩
      exact ⟨n, n, hn, hn, rfl, hcan⟩
  refine ⟨_, generate_unsized hshares hrisk hprice, htwo, ?_⟩
  rw [htwo, hone]
  constructor
  · rintro ⟨n, m, hn, hm, hsame, hcan⟩
    exact ⟨⟨n, hn, hcan⟩, n, m, hn, hm, hsame⟩
  · rintro ⟨⟨n, hn, hcan⟩, n', m, hn', hm, hsame⟩
    obtain rfl : n = n' := Except.ok.inj (hn.symm.trans hn')
    exact ⟨n, m, hn, hm, hsame, hcan⟩

/-- The choice of a risk for a new session. -/
def risking (fraction : Float) : Options Float :=
  { Options.none with riskPerTrade := some fraction }

/-- The settings of a block that names a symbol and nothing else. -/
def plain : Table (Value Float) := ⟨[("symbol", .text "SPY")]⟩

/-- A setting that pays for the same twenty shares as the risk that the block sends. -/
theorem sizedBy_setting_of_like_risk :
    (Value.get plain "quantity").isMissingOrZero = true ∧
    (Value.get plain "riskLevel").isTrue = false ∧
    Signal.tradingPrice plain atTen = .ok (some 10.0) ∧ (0.0 : Float) < 10.0 ∧
    ∃ (s : Session Float) (signal : Signal Float),
      create ⟨0⟩ "one" "ada" (Desk.steady []) (risking 0.0201) .standard = .ok s ∧
      Signal.generate ⟨0⟩ "buy" plain atTen = .ok (some signal) ∧
      SizedBy ⟨0⟩ atTen s signal 10.0 s.settings.riskPerTrade := by
  have h : (create ⟨0⟩ "one" "ada" (Desk.steady []) (risking 0.0201) .standard).toOption.any
      (fun s => (Sizing.affordable s.cash 0.02 10.0).toOption = some 20 ∧
        (Sizing.affordable s.cash s.settings.riskPerTrade 10.0).toOption = some 20 ∧
        (s.buy ⟨0⟩ (.text "SPY") 10.0 (some 20) none).toOption.isSome) = true := by
    decide +kernel
  obtain ⟨s, hs, hdec⟩ := (Option.any_eq_true _ _).mp h
  obtain ⟨hn, hm, hcan⟩ := of_decide_eq_true hdec
  have hs := toOption_eq_some_iff.mp hs
  have hn := toOption_eq_some_iff.mp hn
  have hm := toOption_eq_some_iff.mp hm
  obtain ⟨r, hr⟩ := Option.isSome_iff_exists.mp hcan
  have hr := toOption_eq_some_iff.mp hr
  have hprice : Signal.tradingPrice plain atTen = .ok (some 10.0) := rfl
  have hpos : (0.0 : Float) < 10.0 := by decide
  have hsymbol : Signal.symbolOf plain = .text "SPY" := Value.isText_iff.mp (by decide)
  obtain ⟨signal, hsignal, hdefault, hsetting⟩ :=
    sizedBy_setting_iff (s := s) ⟨0⟩ rfl rfl hprice hpos
  refine ⟨rfl, rfl, hprice, hpos, s, signal, hs, hsignal, hsetting.mpr ⟨hdefault.mpr ?_, ?_⟩⟩
  · exact ⟨20, hn, fun _ => ⟨r, by rw [hsymbol]; exact hr⟩⟩
  · exact ⟨20, 20, hn, hm, rfl⟩

/-- **A setting that governs nothing.**  In a session that is to risk a tenth of its cash, which
pays for a hundred shares, the block buys twenty of them. -/
theorem setting_ignored : ∃ (s s' : Session Float) (signal : Signal Float) (t : Transaction Float),
    create ⟨0⟩ "one" "ada" (Desk.steady []) (risking 0.1) .standard = .ok s ∧
    Signal.generate ⟨0⟩ "buy" plain atTen = .ok (some signal) ∧
    Sizing.affordable s.cash s.settings.riskPerTrade 10.0 = .ok 100 ∧
    s.execute ⟨0⟩ atTen signal = .ok (s', some t) ∧ t.quantity = 20 ∧
    ¬ SizedBy ⟨0⟩ atTen s signal 10.0 s.settings.riskPerTrade := by
  have h : (create ⟨0⟩ "one" "ada" (Desk.steady []) (risking 0.1) .standard).toOption.any (fun s =>
      (Signal.generate ⟨0⟩ "buy" plain atTen).toOption.join.any fun signal =>
        (Sizing.affordable s.cash s.settings.riskPerTrade 10.0).toOption = some 100 ∧
        (s.execute ⟨0⟩ atTen signal).toOption.any fun r => r.2.any (·.quantity = 20)) = true := by
    decide +kernel
  obtain ⟨s, hs, h⟩ := (Option.any_eq_true _ _).mp h
  obtain ⟨signal, hsignal, h⟩ := (Option.any_eq_true _ _).mp h
  obtain ⟨hpaid, h⟩ := of_decide_eq_true h
  obtain ⟨⟨s', r⟩, hexec, htwenty⟩ := (Option.any_eq_true _ _).mp h
  obtain ⟨t, ht, htwenty⟩ := (Option.any_eq_true _ _).mp htwenty
  obtain rfl : r = some t := ht
  have hs := toOption_eq_some_iff.mp hs
  have hsignal := toOption_eq_some_iff.mp (Option.join_eq_some_iff.mp hsignal)
  have hpaid := toOption_eq_some_iff.mp hpaid
  have hexec := toOption_eq_some_iff.mp hexec
  have htwenty : t.quantity = 20 := of_decide_eq_true htwenty
  refine ⟨s, s', signal, t, hs, hsignal, hpaid, hexec, htwenty, ?_⟩
  rintro ⟨n, hn, hbought, -⟩
  obtain rfl : n = 100 := Except.ok.inj (hn.symm.trans hpaid)
  obtain ⟨x, cost, hx⟩ := hbought (by decide)
  rw [hexec] at hx
  cases hx
  cases htwenty

end Session

end PaperTrading
