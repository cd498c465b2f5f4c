import Mathlib.Algebra.Order.Floor.Ring
import Mathlib.Order.Bounds.Basic
import PaperTrading.Proofs.Session.Percentage

/-!
# Sizes that fit

A size is computed in one place and checked in another: a buy against the cash, a sell against the
position.  In exact arithmetic a computed size passes the check.  As many shares are bought as the
fraction of the cash pays for, and no fewer; and a fraction of a position is never more than the
position.

* `affordable_eq`, `isGreatest_floor`: **the shares that a fraction of the cash buys.**
* `floor_add_ne_iff`: when a tolerance makes a difference for the whole part of a number.
* `part_nonneg`, `part_of_one_le`, `part_of_nonpos`, `part_mono`: the shares that a fraction of a
  position is, for every fraction.
* `buy_of_covered`, `positionsAfterBuy_error`: a buy that the cash covers is not refused for it.
* `sizes_fit`: **computed sizes, and what becomes of trades of these sizes.**
-/

namespace PaperTrading

open Arith

/-! ### Whole shares -/

namespace Exact

variable {root : Rat → Rat}

/-- **The shares that a fraction of the cash buys.** -/
theorem affordable_eq {cash risk price : Rat} (hcash : 0 ≤ cash) (hrisk : 0 ≤ risk)
    (hprice : 0 < price) :
    @Sizing.affordable Rat (arith root) cash risk price = .ok ⌊cash * risk / price⌋ := by
  have hprice : ¬ price ≤ (0.0 : Rat) := by rw [zero_eq]; exact not_le.mpr hprice
  have hcash : ¬ cash < (0.0 : Rat) := by rw [zero_eq]; exact not_lt.mpr hcash
  have hrisk : ¬ risk < (0.0 : Rat) := by rw [zero_eq]; exact not_lt.mpr hrisk
  unfold Sizing.affordable
  rw [if_neg hprice, if_neg hcash, if_neg hrisk]
  rfl

/-- The whole part of a quotient is the greatest number of items that an amount pays for. -/
theorem isGreatest_floor (amount : Rat) {price : Rat} (hprice : 0 < price) :
    IsGreatest {n : Int | n * price ≤ amount} ⌊amount / price⌋ :=
  ⟨(le_div_iff₀ hprice).mp (Int.floor_le _),
    fun _ h => Int.le_floor.mpr ((le_div_iff₀ hprice).mpr h)⟩

/-- **A tolerance makes a difference** for the whole part of a number exactly if the number is that
close to the next whole one. -/
theorem floor_add_ne_iff (x : Rat) {tolerance : Rat} (h0 : 0 ≤ tolerance) :
    ⌊x + tolerance⌋ ≠ ⌊x⌋ ↔ 1 - tolerance ≤ Int.fract x := by
  have hfloor := Int.floor_le x
  have hfract : Int.fract x = x - ⌊x⌋ := rfl
  rw [ne_eq, Int.floor_eq_iff, hfract]
  constructor
  · intro h
    by_contra hlt
    exact h ⟨by linarith, by linarith⟩
  · rintro h ⟨-, hlt⟩
    linarith

theorem part_nonneg {held : Int} (hheld : 0 ≤ held) (x : Rat) :
    0 ≤ ⌊(held : Rat) * min (max x 0) 1 + 1e-9⌋ := by
  have hheld : (0 : Rat) ≤ held := by exact_mod_cast hheld
  have hfraction : (0 : Rat) ≤ min (max x 0) 1 := le_min (le_max_right x 0) zero_le_one
  exact Int.floor_nonneg.mpr (by positivity)

theorem part_of_one_le {x : Rat} (hx : 1 ≤ x) (held : Int) :
    ⌊(held : Rat) * min (max x 0) 1 + 1e-9⌋ = held := by
  rw [min_eq_right (hx.trans (le_max_left x 0)), mul_one, Int.floor_intCast_add,
    show ⌊(1e-9 : Rat)⌋ = 0 by norm_num, add_zero]

theorem part_of_nonpos {x : Rat} (hx : x ≤ 0) (held : Int) :
    ⌊(held : Rat) * min (max x 0) 1 + 1e-9⌋ = 0 := by
  rw [max_eq_right hx, min_eq_left zero_le_one, mul_zero, zero_add]
  norm_num

theorem part_mono {held held' : Int} {x x' : Rat} (hheld : 0 ≤ held) (hle : held ≤ held')
    (hx : x ≤ x') : ⌊(held : Rat) * min (max x 0) 1 + 1e-9⌋ ≤
      ⌊(held' : Rat) * min (max x' 0) 1 + 1e-9⌋ := by
  have hheld : (0 : Rat) ≤ held := by exact_mod_cast hheld
  have hle : (held : Rat) ≤ held' := by exact_mod_cast hle
  have hfraction : min (max x 0) 1 ≤ min (max x' 0) 1 :=
    min_le_min_right 1 (max_le_max_right 0 hx)
  have hnonneg : (0 : Rat) ≤ min (max x 0) 1 := le_min (le_max_right x 0) zero_le_one
  refine Int.floor_mono (add_le_add_left ?_ _)
  exact mul_le_mul hle hfraction hnonneg (hheld.trans hle)

end Exact

/-! ### Trades of computed sizes -/

namespace Session

section Sizes

variable {α : Type} [Arith α] {now : Instant} {s : Session α} {symbol : Value α} {price cost : α}
  {quantity : Option Int} {risk fraction : Option α} {n : Int}

/-- The fraction of the cash that a trade without a size risks: its own, if that counts as given, else
the one that the session is set to. -/
def riskTaken (s : Session α) (risk : Option α) : α :=
  (risk.filter isNonzero).getD s.settings.riskPerTrade

/-- No quantity, or a zero, leaves the size of a trade open. -/
def Unsized (quantity : Option Int) : Prop := quantity = none ∨ quantity = some 0

theorem buyQuantity_of_unsized (h : Unsized quantity) (risk : Option α) (price : α) :
    s.buyQuantity quantity risk price = Sizing.affordable s.cash (s.riskTaken risk) price := by
  rcases h with rfl | rfl <;> rfl

theorem sellQuantity_of_unsized (h : Unsized quantity) (p : Position α) (risk : Option α)
    (fraction price : α) :
    s.sellQuantity p quantity risk (some fraction) price = Sizing.part p.quantity fraction := by
  rcases h with rfl | rfl <;> rfl

/-- **A buy that the cash covers** fails only where its position cannot be enlarged. -/
theorem buy_of_covered (hn : s.buyQuantity quantity risk price = .ok n) (hpos : 0 < n)
    (hcost : times price n = .ok cost) (hcash : ¬ s.cash < cost) :
    s.buy now symbol price quantity risk =
      (s.positionsAfterBuy now symbol n price cost).map fun positions =>
        ({ s with
          positions, cash := s.cash - cost
          transactions := s.transactions ++ [⟨symbol, n, price, cost, now, none⟩] },
          ⟨symbol, n, price, cost, now, none⟩) := by
  unfold buy
  rw [hn]
  show (if n ≤ 0 then _ else _) = _
  rw [if_neg (by omega), hcost]
  show (if s.cash < cost then _ else _) = _
  rw [if_neg hcash]
  cases s.positionsAfterBuy now symbol n price cost <;> rfl

end Sizes

open Exact

variable {root : Rat → Rat} {now : Instant} {s : Session Rat} {symbol : Value Rat} {price cost : Rat}
  {quantity : Option Int} {risk : Option Rat} {n : Int}

theorem dividedBy_error {x : Rat} {m : Int} {f : Failure}
    (h : @dividedBy Rat (arith root) x m = .error f) : f = .divisionByZero false ∧ m = 0 := by
  by_cases hm : m = 0
  · subst hm
    have hzero : @dividedBy Rat (arith root) x 0 = .error (.divisionByZero false) :=
      if_pos (by rw [zero_eq]; rfl)
    exact ⟨(Except.error.inj (hzero.symm.trans h)).symm, rfl⟩
  · rw [(dividedBy_ok_iff hm).mpr rfl] at h
    cases h

/-- A position can be enlarged unless its shares and the new ones are none together. -/
theorem positionsAfterBuy_error {f : Failure}
    (h : @positionsAfterBuy Rat (arith root) now s symbol n price cost = .error f) :
    f = .divisionByZero false ∧
      ∃ p, @positionIn Rat (arith root) s symbol = some p ∧ p.quantity + n = 0 := by
  let _ := arith root
  unfold positionsAfterBuy at h
  split at h
  · next p hp =>
    rcases bind_error_iff.mp h with h | ⟨q, -, h⟩
    · unfold enlarge at h
      rcases bind_error_iff.mp h with h | ⟨paid, -, h⟩
      · cases h
      · rcases bind_error_iff.mp h with h | ⟨average, -, h⟩
        · obtain ⟨rfl, hzero⟩ := dividedBy_error h
          exact ⟨rfl, p, hp, hzero⟩
        · cases h
    · cases h
  · cases h

variable (now symbol) in
/-- **A buy that a fraction of the cash sizes.**  The cash covers it, so that it is refused for want of
funds only where the fraction does not pay for a single share. -/
theorem buy_of_unsized (hquantity : Unsized quantity) (hcash : 0 ≤ s.cash)
    (h0 : 0 ≤ @riskTaken Rat (arith root) s risk) (h1 : @riskTaken Rat (arith root) s risk ≤ 1)
    (hprice : 0 < price) :
    let amount := s.cash * @riskTaken Rat (arith root) s risk
    (amount < price → @buy Rat (arith root) now s symbol price quantity risk =
      .error (.cannotAffordOne (@Value.display Rat (arith root) symbol)
        (@Arith.written Rat (arith root) price) (@fixed Rat (arith root) 2 s.cash))) ∧
    (price ≤ amount → (∃ s' t, @buy Rat (arith root) now s symbol price quantity risk = .ok (s', t) ∧
        t.quantity = ⌊amount / price⌋) ∨
      @buy Rat (arith root) now s symbol price quantity risk = .error (.divisionByZero false) ∧
        ∃ p, @positionIn Rat (arith root) s symbol = some p ∧ p.quantity < 0) := by
  let _ := arith root
  intro amount
  have hn : s.buyQuantity quantity risk price = .ok ⌊amount / price⌋ :=
    (buyQuantity_of_unsized hquantity risk price).trans (affordable_eq hcash h0 hprice)
  have hamount : amount ≤ s.cash := mul_le_of_le_one_right hcash h1
  constructor
  · intro hlt
    refine buy_of_unaffordable hn (Int.lt_add_one_iff.mp (Int.floor_lt.mpr ?_))
    push_cast
    exact (div_lt_one hprice).mpr hlt
  · intro hle
    have hpos : 0 < ⌊amount / price⌋ := Int.floor_pos.mpr ((one_le_div hprice).mpr hle)
    have hfits : price * ⌊amount / price⌋ ≤ s.cash := by
      rw [mul_comm]
      exact (isGreatest_floor amount hprice).1.trans hamount
    rw [buy_of_covered hn hpos (times_ok_iff.mpr rfl) (not_lt.mpr hfits)]
    cases hps : s.positionsAfterBuy now symbol ⌊amount / price⌋ price (price * ⌊amount / price⌋) with
    | ok positions => exact .inl ⟨_, _, rfl, rfl⟩
    | error f =>
      obtain ⟨rfl, p, hp, hzero⟩ := positionsAfterBuy_error hps
      exact .inr ⟨rfl, p, hp, by omega⟩

/-- **A sell of a fraction of the position** is never refused for exceeding it. -/
theorem sell_of_unsized {fraction : Rat} {p : Position Rat} (hquantity : Unsized quantity)
    (hp : @positionIn Rat (arith root) s symbol = some p) (hheld : 0 ≤ p.quantity) :
    ∃ q, @Sizing.part Rat (arith root) p.quantity fraction = .ok q ∧
      (0 < q → ∃ s' t, @sell Rat (arith root) now s symbol price quantity risk (some fraction) =
        .ok (s', t) ∧ t.quantity = q) ∧
      (q = 0 → @sell Rat (arith root) now s symbol price quantity risk (some fraction) =
        .error (.notEnoughShares 0 (@Value.display Rat (arith root) symbol) p.quantity)) := by
  let _ := arith root
  have hn : s.sellQuantity p quantity risk (some fraction) price = _ :=
    (sellQuantity_of_unsized hquantity p risk fraction price).trans (part_floor p.quantity fraction)
  refine ⟨_, part_floor _ _, fun hpos => ?_, fun hzero => ?_⟩
  · have hle := part_le (min_le_right (max fraction 0) 1) hheld
    exact ⟨_, _, sell_of_sized hp hn hpos hle (times_ok_iff.mpr rfl) (times_ok_iff.mpr rfl), rfl⟩
  · rw [hzero] at hn
    exact sell_of_shortage hp hn (.inl le_rfl)

/-- **Computed sizes fit.**  In exact arithmetic:

* a fraction of the cash buys the greatest number of shares that it pays for;
* a buy that leaves its size open is never refused because its cost exceeds the cash, and is refused
  for want of funds exactly if the fraction of the cash that it risks does not pay for one share;
* a fraction of a position is between none and all of its shares, all from one on and none up to zero,
  it grows with the fraction and with the position, and it is the whole part of the product unless the
  product is within the tolerance of the next whole number;
* a sell of a fraction of a position sells these shares, or is refused if they are none. -/
theorem sizes_fit (root : Rat → Rat) :
    letI := Exact.arith root
    (∀ cash risk price : Rat, 0 ≤ cash → 0 ≤ risk → 0 < price →
      ∃ n, Sizing.affordable cash risk price = .ok n ∧
        IsGreatest {m : Int | m * price ≤ cash * risk} n) ∧
    (∀ (now : Instant) (s : Session Rat) (symbol : Value Rat) (price : Rat) (quantity : Option Int)
      (risk : Option Rat), Unsized quantity → 0 ≤ s.cash → 0 ≤ s.riskTaken risk →
      s.riskTaken risk ≤ 1 → 0 < price →
      (∀ n name text, s.buy now symbol price quantity risk ≠ .error (.cannotAfford n name text)) ∧
      ((∃ f, s.buy now symbol price quantity risk = .error f ∧ f.kind = "InsufficientFundsError") ↔
        s.cash * s.riskTaken risk < price) ∧
      ((∀ p, s.positionIn symbol = some p → 0 ≤ p.quantity) → price ≤ s.cash * s.riskTaken risk →
        ∃ s' t, s.buy now symbol price quantity risk = .ok (s', t) ∧
          Sizing.affordable s.cash (s.riskTaken risk) price = .ok t.quantity)) ∧
    (∀ (held : Int) (f : Rat), 0 ≤ held → ∃ q, Sizing.part held f = .ok q ∧ 0 ≤ q ∧ q ≤ held ∧
      (1 ≤ f → q = held) ∧ (f ≤ 0 → q = 0) ∧
      (∀ held' f' q', held ≤ held' → f ≤ f' → Sizing.part held' f' = .ok q' → q ≤ q') ∧
      (q ≠ ⌊(held : Rat) * min (max f 0) 1⌋ ↔
        1 - 1e-9 ≤ Int.fract ((held : Rat) * min (max f 0) 1))) ∧
    (∀ (now : Instant) (s : Session Rat) (symbol : Value Rat) (price : Rat) (quantity : Option Int)
      (risk : Option Rat) (f : Rat) (p : Position Rat), Unsized quantity →
      s.positionIn symbol = some p → 0 ≤ p.quantity → ∃ q, Sizing.part p.quantity f = .ok q ∧
      (0 < q → ∃ s' t, s.sell now symbol price quantity risk (some f) = .ok (s', t) ∧
        t.quantity = q) ∧
      (q = 0 → s.sell now symbol price quantity risk (some f) =
        .error (.notEnoughShares 0 symbol.display p.quantity))) := by
  let _ := Exact.arith root
  refine ⟨fun cash risk price hcash hrisk hprice => ⟨_, affordable_eq hcash hrisk hprice,
    isGreatest_floor (cash * risk) hprice⟩, ?_, ?_, ?_⟩
  · intro now s symbol price quantity risk hquantity hcash h0 h1 hprice
    obtain ⟨hshort, hlong⟩ := buy_of_unsized now symbol hquantity hcash h0 h1 hprice
    refine ⟨fun n name text h => ?_, ⟨fun ⟨f, h, hkind⟩ => ?_, fun hlt => ⟨_, hshort hlt, rfl⟩⟩,
      fun hheld hle => ?_⟩
    · rcases lt_or_ge (s.cash * s.riskTaken risk) price with hlt | hle
      · cases (hshort hlt).symm.trans h
      · rcases hlong hle with ⟨s', t, hbuy, -⟩ | ⟨hbuy, -⟩ <;> cases hbuy.symm.trans h
    · by_contra hge
      rcases hlong (not_lt.mp hge) with ⟨s', t, hbuy, -⟩ | ⟨hbuy, -⟩
      · cases hbuy.symm.trans h
      · cases hbuy.symm.trans h
        exact absurd hkind (by decide)
    · rcases hlong hle with ⟨s', t, hbuy, ht⟩ | ⟨-, p, hp, hneg⟩
      · exact ⟨s', t, hbuy, (affordable_eq hcash h0 hprice).trans (congrArg Except.ok ht.symm)⟩
      · exact absurd (hheld p hp) (not_le.mpr hneg)
  · intro held f hheld
    refine ⟨_, part_floor held f, part_nonneg hheld f, part_le (min_le_right _ 1) hheld,
      fun hf => part_of_one_le hf held, fun hf => part_of_nonpos hf held, ?_,
      floor_add_ne_iff _ (by norm_num)⟩
    intro held' f' q' hle hf hq'
    rw [part_floor] at hq'
    obtain rfl := Except.ok.inj hq'
    exact part_mono hheld hle hf
  · intro now s symbol price quantity risk f p hquantity hp hheld
    exact sell_of_unsized hquantity hp hheld

/-- A session that risks two of its ten thousand in a hundred: it can buy twenty shares at ten, and none
at two hundred and one.  All but a ten thousand millionth of one share is the whole share, although
its whole part is none; and half of five shares are two. -/
theorem sizes_fit_of_standard :
    letI := Exact.arith fun x => x
    ∃ s : Session Rat, create ⟨0⟩ "one" "ada" (Desk.steady []) .none .standard = .ok s ∧
      IsGreatest {m : Int | m * (3 : Rat) ≤ 1000 * (1 / 50)} 6 ∧
      (∃ s' t, s.buy ⟨0⟩ (.text "SPY") 10 none none = .ok (s', t) ∧ t.quantity = 20) ∧
      (∃ f, s.buy ⟨0⟩ (.text "SPY") 201 (some 0) none = .error f ∧
        f.kind = "InsufficientFundsError") ∧
      Sizing.part 1 (0.9999999999 : Rat) = .ok 1 ∧
      1 - 1e-9 ≤ Int.fract (((1 : Int) : Rat) * min (max 0.9999999999 0) 1) ∧
      ∃ s' t, (holdingShares s 5).sell ⟨0⟩ (.text "SPY") 10 none none (some (1 / 2)) =
        .ok (s', t) ∧ t.quantity = 2 := by
  let _ := Exact.arith fun x => x
  have h : (create ⟨0⟩ "one" "ada" (Desk.steady []) Options.none
      (.standard : Defaults Rat)).toOption.any (fun s => s.cash = 10000 ∧
        s.riskTaken none = 1 / 50 ∧ (s.positionIn (.text "SPY")).isNone) = true := by
    decide +kernel
  obtain ⟨s, hs, hdec⟩ := (Option.any_eq_true _ _).mp h
  obtain ⟨hcash, hrisk, hnone⟩ := of_decide_eq_true hdec
  have hnone := Option.isNone_iff_eq_none.mp hnone
  have hnonneg : 0 ≤ s.cash := by rw [hcash]; norm_num
  have h0 : 0 ≤ s.riskTaken none := by rw [hrisk]; norm_num
  have h1 : s.riskTaken none ≤ 1 := by rw [hrisk]; norm_num
  obtain ⟨hafford, hbuy, hpart, hsell⟩ := sizes_fit fun x => x
  obtain ⟨n, hn, hgreatest⟩ := hafford 1000 (1 / 50) 3 (by norm_num) (by norm_num) (by norm_num)
  obtain ⟨-, -, hten⟩ := hbuy ⟨0⟩ s (.text "SPY") 10 none none (.inl rfl) hnonneg h0 h1 (by norm_num)
  obtain ⟨s', t, hbought, ht⟩ := hten (fun p hp => by rw [hnone] at hp; cases hp)
    (by rw [hcash, hrisk]; norm_num)
  obtain ⟨-, hshort, -⟩ :=
    hbuy ⟨0⟩ s (.text "SPY") 201 (some 0) none (.inr rfl) hnonneg h0 h1 (by norm_num)
  obtain ⟨q, hq, -, -, -, -, -, htolerance⟩ := hpart 1 0.9999999999 (by decide)
  obtain ⟨m, hm, hsold, -⟩ := hsell ⟨0⟩ (holdingShares s 5) (.text "SPY") 10 none none (1 / 2)
    ⟨.text "SPY", 5, 10.0, 10.0, ⟨0⟩, ⟨0⟩⟩ (.inl rfl) rfl (by decide)
  have hsix : Sizing.affordable (1000 : Rat) (1 / 50) 3 = .ok 6 := by decide +kernel
  have htwenty : Sizing.affordable (10000 : Rat) (1 / 50) 10 = .ok 20 := by decide +kernel
  have hone : Sizing.part 1 (0.9999999999 : Rat) = .ok 1 := by decide +kernel
  have htwo : Sizing.part 5 (1 / 2 : Rat) = .ok 2 := by decide +kernel
  obtain rfl := Except.ok.inj (hsix.symm.trans hn)
  obtain rfl := Except.ok.inj (hone.symm.trans hq)
  obtain rfl := Except.ok.inj (htwo.symm.trans hm)
  rw [hcash, hrisk] at ht
  have hnot : (1 : Int) ≠ ⌊((1 : Int) : Rat) * min (max 0.9999999999 0) 1⌋ := by decide +kernel
  exact ⟨s, toOption_eq_some_iff.mp hs, hgreatest,
    ⟨s', t, hbought, (Except.ok.inj (htwenty.symm.trans ht)).symm⟩,
    hshort.mpr (by rw [hcash, hrisk]; norm_num), hone, htolerance.mp hnot, hsold (by decide)⟩

end Session

end PaperTrading
