import Mathlib.Data.Rat.Floor
import PaperTrading.Proofs.Ledger.Conservation
import PaperTrading.Proofs.Session.Sizing

/-!
# Selling a percentage

An action block that sells and names no number of shares names a percentage of the position instead.
In exact arithmetic as many whole shares are sold as the percentage is of the position, a product
just below a whole number counting as that number; less than one share cannot be sold.  But a block
that says zero is taken for one that says nothing, and sells everything, unless the zero is written
as a text.

* `Session.SellsShares`: **a sale of so many shares,** or its refusal.
* `percentSale`: the signal of a block that names no number of shares; `generate_percentSale` and
  `execute_percentSale` say where it comes from and what is done with it.
* `sellsShares_of_part`: the shares that a fraction of a position is are sold.
* `Exact.part_floor`: how many they are in exact arithmetic.
* `sellsShares_percentage_iff`: **exactly when a percentage is kept to.**
* `zero_percent_sells_all`: a block that is to sell none of four shares sells them.
-/

namespace PaperTrading

open Arith

namespace Session

section Sale

variable {α : Type} [Arith α] {now : Instant} {market : Market α} {s : Session α}
  {settings : Table (Value α)} {price fraction percent : α} {p : Position α} {n : Int}

/-! ### Sales by a fraction of the position -/

/-- **A sale of so many shares** out of a position.  They are sold and taken out of the position; if
there are none to sell, the signal is refused, and the shortage goes on record. -/
def SellsShares (now : Instant) (market : Market α) (s : Session α) (signal : Signal α)
    (p : Position α) (n : Int) : Prop :=
  (0 < n → ∃ s' t, s.execute now market signal = .ok (s', some t) ∧ t.isSell = true ∧
    t.symbol = signal.symbol ∧ t.quantity = n ∧
    s'.positions = s.positionsAfterSell now signal.symbol p n) ∧
  (n ≤ 0 → Refuses now market s signal
    (.notEnoughShares n signal.symbol.display p.quantity))

example (n held : Int) (name : String) :
    (Failure.notEnoughShares n name held).kind = "InsufficientSharesError" := rfl

/-- The signal of a block that sells and names no number of shares. -/
def percentSale (now : Instant) (settings : Table (Value α)) (price fraction : α) : Signal α :=
  ⟨Signal.symbolOf settings, some price, now,
    .trade .sell (Signal.orderType settings) none none (some fraction)⟩

/-- **Such a block sends a fraction,** which lies between zero and one. -/
theorem generate_percentSale (hshares : (Value.get settings "quantity").isMissingOrZero = true)
    (hpercent : Signal.numberOr settings "percentage" 100.0 = .ok percent)
    (hprice : Signal.tradingPrice settings market = .ok (some price)) :
    Signal.generate now "sell" settings market =
      .ok (some (percentSale now settings price (clamp (percent / 100.0)))) := by
  refine Signal.generate_of_order rfl hprice ?_
  show Signal.sellOrder settings = _
  unfold Signal.sellOrder
  rw [hpercent, Signal.shares_of_missing hshares]
  rfl

/-- It is executed as a sell without a size. -/
theorem execute_percentSale (hprice : ¬ price ≤ 0.0) (hgiven : isNonzero price = true) :
    s.execute now market (percentSale now settings price fraction) = (do
      let (s, t) ← s.sell now (Signal.symbolOf settings) price none none (some fraction)
      return (s, some t)) :=
  execute_sell (priceIn_of_given rfl hgiven) hprice rfl

/-- **The shares that the fraction of the position is are sold,** if they are no more than are held
and have a value. -/
theorem sellsShares_of_part (hprice : ¬ price ≤ 0.0) (hgiven : isNonzero price = true)
    (hp : s.positionIn (Signal.symbolOf settings) = some p)
    (hn : Sizing.part p.quantity fraction = .ok n) (hle : n ≤ p.quantity)
    (hvalue : ∀ x : α, ∃ y, times x n = .ok y) :
    SellsShares now market s (percentSale now settings price fraction) p n := by
  have hsized : s.sellQuantity p none none (some fraction) price = .ok n := hn
  obtain ⟨value, hv⟩ := hvalue price
  obtain ⟨profit, hprofit⟩ := hvalue (price - p.averageCost)
  constructor
  · intro hpos
    rw [execute_percentSale hprice hgiven, sell_of_sized hp hsized hpos hle hv hprofit]
    exact ⟨_, _, rfl, rfl, rfl, rfl, rfl⟩
  · intro hnone
    have hrefused : s.execute now market (percentSale now settings price fraction) = .error
        (.notEnoughShares n (Signal.symbolOf settings).display p.quantity) := by
      rw [execute_percentSale hprice hgiven, sell_of_shortage hp hsized (Or.inl hnone)]
      rfl
    exact ⟨hrefused, fun later => executeAll_of_refused hrefused rfl⟩

end Sale

end Session

/-! ### Exact arithmetic -/

namespace Exact

variable {root : Rat → Rat}

theorem clamp_eq_min (x : Rat) : @Arith.clamp Rat (arith root) x = min (max x 0) 1 := by
  show (if (1.0 : Rat) < (if x < (0.0 : Rat) then 0.0 else x) then (1.0 : Rat)
    else if x < (0.0 : Rat) then 0.0 else x) = _
  rw [zero_eq, show (1.0 : Rat) = 1 by norm_num]
  by_cases hlow : x < 0
  · rw [if_pos hlow, max_eq_right hlow.le, if_neg (by norm_num), min_eq_left zero_le_one]
  · rw [if_neg hlow, max_eq_left (not_lt.mp hlow)]
    by_cases hhigh : 1 < x
    · rw [if_pos hhigh, min_eq_right hhigh.le]
    · rw [if_neg hhigh, min_eq_left (not_lt.mp hhigh)]

/-- **The shares that a fraction of a position is,** whatever the fraction. -/
theorem part_floor (held : Int) (x : Rat) : @Sizing.part Rat (arith root) held x =
    .ok ⌊(held : Rat) * min (max x 0) 1 + 1e-9⌋ := by
  show (Except.ok (Rat.floor (held * @Arith.clamp Rat (arith root) x + 1e-9)) :
    Except Failure Int) = _
  rw [clamp_eq_min]
  rfl

theorem clamp_eq {x : Rat} (h0 : 0 ≤ x) (h1 : x ≤ 1) : @Arith.clamp Rat (arith root) x = x := by
  rw [clamp_eq_min, max_eq_left h0, min_eq_left h1]

/-- A fraction between none and all is not cut. -/
theorem part_eq {x : Rat} (h0 : 0 ≤ x) (h1 : x ≤ 1) (held : Int) :
    @Sizing.part Rat (arith root) held x = .ok ⌊(held : Rat) * x + 1e-9⌋ := by
  rw [part_floor, max_eq_left h0, min_eq_left h1]

/-- They are no more than are held. -/
theorem part_le {x : Rat} (h1 : x ≤ 1) {held : Int} (hheld : 0 ≤ held) :
    ⌊(held : Rat) * x + 1e-9⌋ ≤ held := by
  have hle : (held : Rat) * x ≤ held := mul_le_of_le_one_right (by exact_mod_cast hheld) h1
  have hlt : (held : Rat) * x + 1e-9 < held + 1 := by
    have htolerance : (1e-9 : Rat) < 1 := by norm_num
    linarith
  have := Int.floor_lt.mpr (show (held : Rat) * x + 1e-9 < ((held + 1 : Int) : Rat) by
    push_cast; exact hlt)
  omega

/-- A number that does not count as given is zero. -/
theorem eq_zero_of_not_isTrue {v : Value Rat} {x : Rat}
    (h : @Value.toNumber Rat (arith root) v = .ok x)
    (hfalse : @Value.isTrue Rat (arith root) v = false) : x = 0 := by
  let _ := arith root
  cases v with
  | null | list | object => cases h
  | bool b =>
    obtain rfl : b = false := hfalse
    cases h
    rfl
  | int n =>
    obtain rfl : n = 0 := by simpa [Value.isTrue] using hfalse
    cases h
    rfl
  | num y =>
    obtain rfl : y = x := Except.ok.inj h
    have hzero : (y == (0.0 : Rat)) = true := by simpa [Value.isTrue, isNonzero] using hfalse
    rw [zero_eq, beq_iff_eq] at hzero
    exact hzero
  | text t =>
    obtain rfl : t = "" := by simpa [Value.isTrue] using hfalse
    cases h

end Exact

namespace Session

/-- **Exactly when a percentage is kept to.**  In exact arithmetic, take a block that sells, names no
number of shares and names a percentage between zero and a hundred, a market at which it trades at
a price above zero, and a session that holds its symbol.  The block sends a signal, and the signal
sells the whole shares that the percentage of the position is, or is refused if they are none,
exactly when the setting counts as given.  A setting that does not is a zero, and sells
everything. -/
theorem sellsShares_percentage_iff (root : Rat → Rat) :
    letI := Exact.arith root
    ∀ (now : Instant) (market : Market Rat) (s : Session Rat) (settings : Table (Value Rat))
      (percent price : Rat) (p : Position Rat),
      (Value.get settings "quantity").isMissingOrZero = true →
      (Value.get settings "percentage").toNumber = .ok percent → 0 ≤ percent → percent ≤ 100 →
      Signal.tradingPrice settings market = .ok (some price) → 0 < price →
      s.positionIn (Signal.symbolOf settings) = some p → 1 ≤ p.quantity →
      ∃ signal, Signal.generate now "sell" settings market = .ok (some signal) ∧
        (SellsShares now market s signal p ⌊(p.quantity : Rat) * (percent / 100) + 1e-9⌋ ↔
          (Value.get settings "percentage").isTrue = true) ∧
        ((Value.get settings "percentage").isTrue = false →
          percent = 0 ∧ SellsShares now market s signal p p.quantity) := by
  intro now market s settings percent price p hshares hpercent h0 h100 hprice hpos hp hheld
  let _ := Exact.arith root
  have hle : ¬ price ≤ 0.0 := (@Exact.not_le_zero_iff root price).mpr hpos
  have hgiven : isNonzero price = true := by
    show (!(price == (0.0 : Rat))) = true
    rw [Exact.zero_eq, Bool.not_eq_true', beq_eq_false_iff_ne]
    exact hpos.ne'
  have hsells : ∀ x : Rat, 0 ≤ x → x ≤ 1 →
      SellsShares now market s (percentSale now settings price x) p
        ⌊(p.quantity : Rat) * x + 1e-9⌋ := fun x hx0 hx1 =>
    sellsShares_of_part hle hgiven hp (Exact.part_eq hx0 hx1 _) (Exact.part_le hx1 (by omega))
      fun y => ⟨_, (@Exact.times_ok_iff root y _ _).mpr rfl⟩
  by_cases htrue : (Value.get settings "percentage").isTrue = true
  · have hnumber : Signal.numberOr settings "percentage" 100.0 = .ok percent :=
      (Signal.numberOr_of_isTrue htrue _).trans hpercent
    have hfraction : clamp (percent / 100.0) = percent / 100 := by
      rw [show (100.0 : Rat) = 100 by norm_num]
      exact Exact.clamp_eq (by positivity) (by linarith)
    refine ⟨_, generate_percentSale hshares hnumber hprice, ⟨fun _ => htrue, fun _ => ?_⟩,
      fun hfalse => ?_⟩
    · rw [hfraction]
      exact hsells _ (by positivity) (by linarith)
    · rw [hfalse] at htrue
      cases htrue
  · have hfalse : (Value.get settings "percentage").isTrue = false := by simpa using htrue
    obtain rfl := Exact.eq_zero_of_not_isTrue hpercent hfalse
    have hnumber := Signal.numberOr_of_isTrue_eq_false hfalse (100.0 : Rat)
    have hfraction : clamp ((100.0 : Rat) / 100.0) = 1 := by
      rw [show (100.0 : Rat) / 100.0 = 1 by norm_num]
      exact Exact.clamp_eq zero_le_one le_rfl
    have hall : SellsShares now market s (percentSale now settings price 1) p p.quantity := by
      have h := hsells 1 zero_le_one le_rfl
      rw [mul_one, Int.floor_intCast_add, show ⌊(1e-9 : Rat)⌋ = 0 by norm_num, add_zero] at h
      exact h
    refine ⟨_, generate_percentSale hshares hnumber hprice, ?_, fun _ => ⟨rfl, ?_⟩⟩
    · rw [hfraction]
      constructor
      · -- no share is to be sold, but the whole position is
        intro hnone
        have hzero : ⌊(p.quantity : Rat) * (0 / 100) + 1e-9⌋ = 0 := by norm_num
        rw [hzero] at hnone
        obtain ⟨s', t, hexec, -⟩ := hall.1 (by omega)
        rw [(hnone.2 le_rfl).1] at hexec
        cases hexec
      · intro h
        exact absurd h htrue
    · rw [hfraction]
      exact hall

/-- A session that holds so many shares. -/
def holdingShares {α : Type} [Arith α] (s : Session α) (n : Int) : Session α :=
  { s with positions := [⟨.text "SPY", n, 10.0, 10.0, ⟨0⟩, ⟨0⟩⟩] }

/-- The settings of a block that sells a percentage. -/
def selling {α : Type} (percent : Value α) : Table (Value α) :=
  ⟨[("symbol", .text "SPY"), ("percentage", percent)]⟩

/-- Half of five shares are two. -/
theorem sellsShares_percentage_of_half :
    letI := Exact.arith fun x => x
    ∃ (market : Market Rat) (start s' : Session Rat) (signal : Signal Rat) (t : Transaction Rat),
      create ⟨0⟩ "one" "ada" (Desk.steady []) .none .standard = .ok start ∧
      Signal.tradingPrice (selling (.text "50")) market = .ok (some 10) ∧
      Signal.generate ⟨60⟩ "sell" (selling (.text "50")) market = .ok (some signal) ∧
      (holdingShares start 5).execute ⟨60⟩ market signal = .ok (s', some t) ∧ t.quantity = 2 := by
  let _ := Exact.arith fun x => x
  let market : Market Rat := ⟨[("SPY", ⟨some 10, none, []⟩)]⟩
  have hstart : (create ⟨0⟩ "one" "ada" (Desk.steady []) Options.none
      (.standard : Defaults Rat)).toOption.isSome := by
    decide +kernel
  obtain ⟨start, hstart⟩ := Option.isSome_iff_exists.mp hstart
  have hstart := toOption_eq_some_iff.mp hstart
  have hpercent : (Value.get (selling (.text "50")) "percentage").toNumber = .ok (50 : Rat) := by
    rw [← toOption_eq_some_iff]
    decide +kernel
  have hprice : Signal.tradingPrice (selling (.text "50")) market = .ok (some 10) := by
    rw [← toOption_eq_some_iff]
    decide +kernel
  have hsymbol : Signal.symbolOf (selling (.text "50" : Value Rat)) = .text "SPY" :=
    Value.isText_iff.mp (by decide +kernel)
  obtain ⟨signal, hsignal, hsells, -⟩ := sellsShares_percentage_iff (fun x => x) ⟨60⟩ market
    (holdingShares start 5) (selling (.text "50")) 50 10 ⟨.text "SPY", 5, 10.0, 10.0, ⟨0⟩, ⟨0⟩⟩ rfl
    hpercent (by norm_num) (by norm_num) hprice (by norm_num) (by rw [hsymbol]; rfl) (by decide)
  have htwo : ⌊((5 : Int) : Rat) * (50 / 100) + 1e-9⌋ = 2 := by norm_num [Int.floor_eq_iff]
  obtain ⟨s', t, hexec, -, -, ht, -⟩ := (hsells.mpr rfl).1 (by rw [htwo]; decide)
  exact ⟨market, start, s', signal, t, hstart, hprice, hsignal, hexec, by rw [ht]; exact htwo⟩

/-- **A zero that sells everything.**  A block that is to sell none of four shares sells them all. -/
theorem zero_percent_sells_all : ∃ (start s' : Session Float) (signal : Signal Float)
    (t : Transaction Float) (p : Position Float),
    create ⟨0⟩ "one" "ada" (Desk.steady []) .none .standard = .ok start ∧
    Signal.generate ⟨60⟩ "sell" (selling (.int 0)) atTen = .ok (some signal) ∧
    (holdingShares start 4).positionIn signal.symbol = some p ∧
    (holdingShares start 4).execute ⟨60⟩ atTen signal = .ok (s', some t) ∧ t.quantity = 4 ∧
    ¬ SellsShares ⟨60⟩ atTen (holdingShares start 4) signal p 0 := by
  have h : (create ⟨0⟩ "one" "ada" (Desk.steady []) Options.none .standard).toOption.any
      (fun start => (Signal.generate ⟨60⟩ "sell" (selling (.int 0)) atTen).toOption.join.any
        fun signal => ((holdingShares start 4).positionIn signal.symbol).isSome &&
          ((holdingShares start 4).execute ⟨60⟩ atTen signal).toOption.any
            fun r => r.2.any (·.quantity = 4)) = true := by
    decide +kernel
  obtain ⟨start, hstart, h⟩ := (Option.any_eq_true _ _).mp h
  obtain ⟨signal, hsignal, h⟩ := (Option.any_eq_true _ _).mp h
  obtain ⟨hp, h⟩ := Bool.and_eq_true_iff.mp h
  obtain ⟨p, hp⟩ := Option.isSome_iff_exists.mp hp
  obtain ⟨⟨s', r⟩, hexec, h⟩ := (Option.any_eq_true _ _).mp h
  obtain ⟨t, ht, hfour⟩ := (Option.any_eq_true _ _).mp h
  obtain rfl : r = some t := ht
  have hexec := toOption_eq_some_iff.mp hexec
  refine ⟨start, s', signal, t, p, toOption_eq_some_iff.mp hstart,
    toOption_eq_some_iff.mp (Option.join_eq_some_iff.mp hsignal), hp, hexec,
    of_decide_eq_true hfour, fun hnone => ?_⟩
  rw [(hnone.2 le_rfl).1] at hexec
  cases hexec

end Session

end PaperTrading
