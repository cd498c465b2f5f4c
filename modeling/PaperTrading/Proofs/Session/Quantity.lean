import PaperTrading.Proofs.Number.Fraction
import PaperTrading.Proofs.Session.Batch
import PaperTrading.Number.Exact

/-!
# Naming a quantity

An action block may name the number of shares that it trades, by an integer, by a double or by a text.
The number is read as a double and cut to its integer part, and a part of zero is taken for no number
at all.  So a block that names less than one share trades as if it had named none.

* `Value.said?`, `Value.read?`: the number that a setting says, and the one that it is read as.
* `Value.Short`: the settings that are read without rounding (`read_exact`).
* `one_le_read`: a setting that says at least one is read as at least one.
* `quantity_of_signal`, `quantity_of_executed`: what becomes of a number of shares.
* `quantity_bound_iff`: **exactly when no more is traded than was named.**
* `half_share_buys_twenty`: a block that is to buy half a share buys twenty.
-/

namespace PaperTrading

open Arith

/-! ### Settings -/

namespace Value

/-- **The number that a setting says,** without rounding; truth values and lists say none. -/
def said? : Value Float → Option Rat
  | .int n => some n
  | .num x => Double.fraction? x
  | .text s => (Numeral.read? s).bind Exact.ofNumeral?
  | _ => none

/-- **Settings that are read without rounding:** doubles, and integers of up to 53 binary digits. -/
inductive Short : Value Float → Prop
  | num (x : Float) : Short (.num x)
  | int {n : Int} (h : n.natAbs < 2 ^ 53) : Short (.int n)
  | text {s : String} {n : Nat} (hs : Numeral.read? s = some (.finite false n 0))
      (h : n < 2 ^ 53) : Short (.text s)

variable {v : Value Float} {q r : Rat} {x : Float}

/-- The numeral of a text that says a number above zero. -/
theorem numeral_of_pos {numeral : Numeral} (h : Exact.ofNumeral? numeral = some q) (hpos : 0 < q) :
    ∃ (digits : Nat) (exponent : Int), numeral = .finite false digits exponent ∧
      q = digits * 10 ^ exponent := by
  cases numeral with
  | infinity | nan => cases h
  | finite negative digits exponent =>
    have hsize : (OfScientific.ofScientific digits (exponent < 0) exponent.natAbs : Rat) =
        digits * 10 ^ exponent := by
      have hexp : (if (exponent < 0 : Bool) = true then -(exponent.natAbs : Int)
          else exponent.natAbs) = exponent := by
        by_cases hneg : exponent < 0
        · rw [if_pos (decide_eq_true hneg)]
          omega
        · rw [if_neg (by simpa using hneg)]
          omega
      rw [Rat.ofScientific_def', hexp]
    have hnonneg : (0 : Rat) ≤ digits * 10 ^ exponent := by positivity
    simp only [Exact.ofNumeral?, hsize, Option.some.injEq] at h
    cases negative with
    | true =>
      rw [if_pos rfl] at h
      linarith
    | false => exact ⟨digits, exponent, rfl, h.symm⟩

/-- Digits with an exponent that are at least one. -/
theorem ten_pow_le {digits : Nat} {exponent : Int} (h : (1 : Rat) ≤ digits * 10 ^ exponent) :
    10 ^ (-exponent).toNat ≤ digits := by
  rcases Int.le_total 0 exponent with hpos | hneg
  · rw [show (-exponent).toNat = 0 by omega, pow_zero]
    by_contra hzero
    obtain rfl : digits = 0 := by omega
    norm_num at h
  · have hexp : exponent = -((-exponent).toNat : Int) := by omega
    rw [hexp, zpow_neg, zpow_natCast, ← div_eq_mul_inv, le_div_iff₀ (by positivity), one_mul] at h
    exact_mod_cast h

theorem isMissingOrZero_of_said (hq : v.said? = some q) (hpos : 0 < q) :
    v.isMissingOrZero = false := by
  cases v with
  | null | bool | list | object => cases hq
  | int n =>
    obtain rfl : (n : Rat) = q := Option.some.inj hq
    have hne : n ≠ 0 := by
      rintro rfl
      norm_num at hpos
    simpa [isMissingOrZero] using hne
  | num x =>
    have hgiven := Double.isNonzero_of_pos (Double.zero_lt_of_fraction hq hpos)
    simp [isMissingOrZero, hgiven]
  | text s =>
    have hne : s ≠ "" := by
      rintro rfl
      have hnone : Numeral.read? "" = none := by decide +kernel
      rw [said?, hnone] at hq
      cases hq
    simpa [isMissingOrZero] using hne

/-- **How a setting is read:** a double as it is, and anything else as the nearest double of digits with
an exponent, which for a short setting are few and have none. -/
theorem toNumber_of_said (hq : v.said? = some q) (hpos : 0 < q) (hx : v.toNumber = .ok x) :
    v = .num x ∨ ∃ (digits : Nat) (exponent : Int), q = digits * 10 ^ exponent ∧
      x = Double.nearest digits exponent ∧ (v.Short → digits < 2 ^ 53 ∧ exponent = 0) := by
  cases v with
  | null | bool | list | object => cases hq
  | num y => exact .inl (congrArg num (Except.ok.inj hx))
  | int n =>
    obtain rfl : (n : Rat) = q := Option.some.inj hq
    have hn : 0 < n := by exact_mod_cast hpos
    obtain ⟨k, rfl⟩ := Int.eq_ofNat_of_zero_le hn.le
    have hread : ofInteger Float (k : Int) = .ok x := hx
    refine .inr ⟨k, 0, by simp, ?_, fun hshort => ?_⟩
    · unfold ofInteger at hread
      split at hread
      · next y hy =>
        cases hread
        exact (Double.ofInt?_eq hn.le hy).1
      · cases hread
    · cases hshort with
      | int h => exact ⟨h, rfl⟩
  | text s =>
    obtain ⟨numeral, hread, hnumeral⟩ := Option.bind_eq_some_iff.mp hq
    obtain ⟨digits, exponent, rfl, hvalue⟩ := numeral_of_pos hnumeral hpos
    refine .inr ⟨digits, exponent, hvalue, ?_, fun hshort => ?_⟩
    · simp only [toNumber, hread] at hx
      exact (Except.ok.inj hx).symm
    · cases hshort with
      | text hs h =>
        rw [hread] at hs
        cases hs
        exact ⟨h, rfl⟩

/-- **A setting that says at least one** is read as at least one. -/
theorem one_le_read (hq : v.said? = some q) (hone : 1 ≤ q) (hx : v.toNumber = .ok x)
    (hr : Double.fraction? x = some r) : 1 ≤ r := by
  rcases toNumber_of_said hq (by linarith) hx with rfl | ⟨digits, exponent, rfl, rfl, -⟩
  · obtain rfl : q = r := Option.some.inj (hq.symm.trans hr)
    exact hone
  · exact Double.one_le_fraction (Double.nearest_large (ten_pow_le hone)) hr

/-- **A short setting** is read as what it says. -/
theorem read_exact (hq : v.said? = some q) (hpos : 0 < q) (hshort : v.Short)
    (hx : v.toNumber = .ok x) : Double.fraction? x = some q := by
  rcases toNumber_of_said hq hpos hx with rfl | ⟨digits, exponent, rfl, rfl, hfew⟩
  · exact hq
  · obtain ⟨hdigits, rfl⟩ := hfew hshort
    rw [zpow_zero, mul_one] at hpos ⊢
    exact Double.fraction?_of_isExactly (Double.nearest_exact (by exact_mod_cast hpos) hdigits)

/-- The number that a setting is read as, which may have been rounded. -/
def read? (v : Value Float) : Option Rat :=
  v.toNumber.toOption.bind Double.fraction?

end Value

namespace Session

variable {α : Type} [Arith α] {now later : Instant} {market : Market α} {s s' : Session α}
  {settings : Table (Value α)} {signal : Signal α} {t : Transaction α} {side : Side}
  {type : Value α} {quantity : Option Int} {risk fraction : Option α}

/-! ### Numbers of shares -/

/-- **The number of shares of a signal** is the one that its block names. -/
theorem quantity_of_signal {kind : String}
    (h : Signal.generate now kind settings market = .ok (some signal))
    (ho : signal.order = .trade side type quantity risk fraction) :
    Signal.shares settings = .ok quantity := by
  obtain ⟨k, price, order, -, horder, rfl⟩ := Strategy.generate_ok h
  obtain rfl : order = .trade side type quantity risk fraction := ho
  cases k with
  | buy =>
    simp only [Signal.orderOf, Signal.buyOrder, bind_ok_iff, pure_ok_iff, Order.trade.injEq] at horder
    obtain ⟨n, hn, _, -, -, -, rfl, -, -⟩ := horder
    exact hn
  | sell =>
    simp only [Signal.orderOf, Signal.sellOrder, bind_ok_iff, pure_ok_iff, Order.trade.injEq]
      at horder
    obtain ⟨_, -, n, hn, -, -, rfl, -, -⟩ := horder
    exact hn
  | stopLoss | takeProfit =>
    simp only [Signal.orderOf, Signal.stopLossOrder, Signal.takeProfitOrder, bind_ok_iff, pure_ok_iff,
      reduceCtorEq, and_false, exists_false] at horder

/-- **What an executed order trades:** at least one share, and the number that it names unless this
is zero. -/
theorem quantity_of_executed (h : s.execute now market signal = .ok (s', some t)) :
    ∃ side type quantity risk fraction, signal.order = .trade side type quantity risk fraction ∧
      0 < t.quantity ∧ ∀ n, quantity = some n → n ≠ 0 → t.quantity = n := by
  unfold execute at h
  split at h
  · cases h
  · next side type quantity risk fraction ho =>
    simp only [bind_ok_iff, pure_ok_iff, Prod.mk.injEq, Option.some.injEq] at h
    obtain ⟨price, -, ⟨s₁, t₁⟩, htrade, rfl, rfl⟩ := h
    refine ⟨side, type, quantity, risk, fraction, ho, ?_⟩
    obtain ⟨-, hbuy | hsell⟩ := trade_ok htrade
    · obtain ⟨n, cost, positions, hn, hpos, -, -, -, rfl, -⟩ := buy_ok hbuy
      refine ⟨hpos, fun m hm hne => ?_⟩
      rw [hm, buyQuantity_of_given hne] at hn
      exact (Except.ok.inj hn).symm
    · obtain ⟨p, n, value, profit, -, hn, hpos, -, -, -, rfl, -⟩ := sell_ok hsell
      refine ⟨hpos, fun m hm hne => ?_⟩
      rw [hm, sellQuantity_of_given hne] at hn
      exact (Except.ok.inj hn).symm

/-- **Exactly when no more is traded than was named.**  Take a signal of an action block whose
setting says a number of shares above zero, and a transaction into which any session executes it at
any market.  Then the setting was read as some number, and the transaction is for no more shares
than the setting says exactly when it says at least one and the integer part of the number read is
not above it.  A double, or an integer of up to 53 binary digits, is read as what it says, so that
its integer part is not above it. -/
theorem quantity_bound_iff {now later : Instant} {kind : String} {settings : Table (Value Float)}
    {market marketLater : Market Float} {signal : Signal Float} {s s' : Session Float}
    {t : Transaction Float} {q : Rat} (hq : (Value.get settings "quantity").said? = some q)
    (hpos : 0 < q) (hg : Signal.generate now kind settings market = .ok (some signal))
    (hexec : s.execute later marketLater signal = .ok (s', some t)) :
    ∃ r, (Value.get settings "quantity").read? = some r ∧
      ((t.quantity : Rat) ≤ q ↔ 1 ≤ q ∧ (⌊r⌋ : Rat) ≤ q) ∧
      ((Value.get settings "quantity").Short → r = q) := by
  obtain ⟨side, type, quantity, risk, fraction, ho, htraded, hkept⟩ := quantity_of_executed hexec
  have hshares := quantity_of_signal hg ho
  unfold Signal.shares at hshares
  rw [if_neg (by simp [Value.isMissingOrZero_of_said hq hpos])] at hshares
  simp only [bind_ok_iff, pure_ok_iff] at hshares
  obtain ⟨x, hx, n, hn, rfl⟩ := hshares
  obtain ⟨r, hr⟩ := Double.truncated_ok hn
  have hone : (1 : Rat) ≤ t.quantity := by exact_mod_cast htraded
  refine ⟨r, ?_, ?_, fun hshort => ?_⟩
  · rw [Value.read?, hx]
    exact hr
  · -- a setting that says at least one is read so, and its integer part is traded
    have hnamed : 1 ≤ q → t.quantity = ⌊r⌋ := fun hle => by
      have hread := Value.one_le_read hq hle hx hr
      obtain rfl : n = ⌊r⌋ := Double.truncated_eq hn hr (by linarith)
      have hfloor : 1 ≤ ⌊r⌋ := Int.le_floor.mpr (by exact_mod_cast hread)
      exact hkept _ rfl (by omega)
    constructor
    · intro hle
      have hleast := hone.trans hle
      rw [hnamed hleast] at hle
      exact ⟨hleast, hle⟩
    · rintro ⟨hleast, hle⟩
      rw [hnamed hleast]
      exact hle
  · exact Option.some.inj (hr.symm.trans (Value.read_exact hq hpos hshort hx))

/-- The settings of a block that names a number of shares. -/
def naming (n : Value Float) : Table (Value Float) :=
  ⟨[("symbol", .text "SPY"), ("quantity", n)]⟩

/-- A block that is to buy three shares buys no more. -/
theorem quantity_bound_of_three : ∃ (s s' : Session Float) (signal : Signal Float)
    (t : Transaction Float),
    create ⟨0⟩ "one" "ada" (Desk.steady []) .none .standard = .ok s ∧
    (Value.get (naming (.int 3)) "quantity").said? = some 3 ∧ (0 : Rat) < 3 ∧
    Signal.generate ⟨60⟩ "buy" (naming (.int 3)) atTen = .ok (some signal) ∧
    s.execute ⟨60⟩ atTen signal = .ok (s', some t) ∧ (t.quantity : Rat) ≤ 3 := by
  have h : (create ⟨0⟩ "one" "ada" (Desk.steady []) Options.none .standard).toOption.any (fun s =>
      (Signal.generate ⟨60⟩ "buy" (naming (.int 3)) atTen).toOption.join.any fun signal =>
        (s.execute ⟨60⟩ atTen signal).toOption.any (·.2.isSome)) = true := by
    decide +kernel
  obtain ⟨s, hs, h⟩ := (Option.any_eq_true _ _).mp h
  obtain ⟨signal, hsignal, h⟩ := (Option.any_eq_true _ _).mp h
  obtain ⟨⟨s', r⟩, hexec, h⟩ := (Option.any_eq_true _ _).mp h
  obtain ⟨t, rfl⟩ := Option.isSome_iff_exists.mp h
  have hsignal := toOption_eq_some_iff.mp (Option.join_eq_some_iff.mp hsignal)
  have hexec := toOption_eq_some_iff.mp hexec
  have hq : (Value.get (naming (.int 3)) "quantity").said? = some (3 : Rat) := rfl
  have hpos : (0 : Rat) < 3 := by norm_num
  obtain ⟨r, -, hbound, hread⟩ := quantity_bound_iff hq hpos hsignal hexec
  obtain rfl := hread (.int (by decide))
  exact ⟨s, s', signal, t, toOption_eq_some_iff.mp hs, hq, hpos, hsignal, hexec,
    hbound.mpr ⟨by norm_num, Int.floor_le _⟩⟩

/-- **Half a share that buys twenty.**  A block that is to buy half a share is sized as if it named
no number, and buys twenty shares. -/
theorem half_share_buys_twenty : ∃ (s s' : Session Float) (signal : Signal Float)
    (t : Transaction Float) (q : Rat),
    create ⟨0⟩ "one" "ada" (Desk.steady []) .none .standard = .ok s ∧
    (Value.get (naming (.num 0.5)) "quantity").said? = some q ∧ q = 1 / 2 ∧
    Signal.generate ⟨60⟩ "buy" (naming (.num 0.5)) atTen = .ok (some signal) ∧
    s.execute ⟨60⟩ atTen signal = .ok (s', some t) ∧ t.quantity = 20 ∧
    ¬ (t.quantity : Rat) ≤ q := by
  have hq : (Value.get (naming (.num 0.5)) "quantity").said? = some (1 / 2) := by
    decide +kernel
  have h : (create ⟨0⟩ "one" "ada" (Desk.steady []) Options.none .standard).toOption.any (fun s =>
      (Signal.generate ⟨60⟩ "buy" (naming (.num 0.5)) atTen).toOption.join.any fun signal =>
        (s.execute ⟨60⟩ atTen signal).toOption.any fun r => r.2.any (·.quantity = 20)) = true := by
    decide +kernel
  obtain ⟨s, hs, h⟩ := (Option.any_eq_true _ _).mp h
  obtain ⟨signal, hsignal, h⟩ := (Option.any_eq_true _ _).mp h
  obtain ⟨⟨s', r⟩, hexec, h⟩ := (Option.any_eq_true _ _).mp h
  obtain ⟨t, ht, htwenty⟩ := (Option.any_eq_true _ _).mp h
  obtain rfl : r = some t := ht
  have htwenty : t.quantity = 20 := of_decide_eq_true htwenty
  refine ⟨s, s', signal, t, 1 / 2, toOption_eq_some_iff.mp hs, hq, rfl,
    toOption_eq_some_iff.mp (Option.join_eq_some_iff.mp hsignal), toOption_eq_some_iff.mp hexec,
    htwenty, ?_⟩
  rw [htwenty]
  norm_num

end Session

end PaperTrading
