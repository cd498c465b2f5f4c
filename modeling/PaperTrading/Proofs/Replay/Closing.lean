import PaperTrading.Proofs.Ledger.Conservation
import PaperTrading.Proofs.Replay.Course
import PaperTrading.Proofs.Session.Batch

/-!
# The sale at the end of a replay

A replay that closes its positions offers each of them, as a whole, at the close of the last bar
that every symbol has.  A position whose symbol has no candles is not offered, and an offer at a
price that is not above zero is refused and goes on record; all the others are sold, each in one
piece.

* `Candles.lastClose`, `Candles.covers`: the closes at the last bar, and the symbols that have one.
* `offer`, `sale`: the signal that sells a whole position, and the transaction that it makes.
* `closingSignal_eq`, `livePrice_last`: the last bar offers positions at the last closes and knows
  no other prices.
* `sell_whole`, `execute_offer`, `execute_refused`: the two ways in which an offer ends.
* `executeAll_offers`: **the offers of all positions,** in order.
* `close_sells`: **the sale succeeds,** and what is left.
-/

namespace PaperTrading

variable {α : Type}

/-! ### The last bar -/

namespace Candles

/-- The close of a symbol at the last bar that every symbol has; none without candles of it. -/
def lastClose (c : Candles α) : Value α → Option α
  | .text symbol => (c.find? symbol).bind fun series => series[c.bars - 1]?.map Candle.close
  | _ => none

/-- There are candles of the symbol. -/
def covers (c : Candles α) : Value α → Bool
  | .text symbol => c.contains symbol
  | _ => false

theorem bars_le_length {c : Candles α} {symbol : String} {series : List (Candle α)}
    (h : c.find? symbol = some series) : c.bars ≤ series.length := by
  obtain ⟨e, he, rfl⟩ := Option.map_eq_some_iff.mp h
  have hmem : e.2.length ∈ c.values.map List.length :=
    List.mem_map_of_mem (List.mem_map_of_mem (List.mem_of_find?_eq_some he))
  unfold bars
  cases hmin : (c.values.map List.length).min? with
  | none => exact Nat.zero_le _
  | some n => exact (List.min?_eq_some_iff.mp hmin).2 _ hmem

/-- The price of a quote is the close of its bar. -/
theorem price_quoteAt {index : Nat} {series : List (Candle α)} (h : index < series.length) :
    (quoteAt index series).price = series[index]?.map Candle.close := by
  unfold quoteAt
  simp [List.getLast?_take, h]

/-- A symbol of the candles has a last close, which is its price at the last bar. -/
theorem lastClose_of_find? {c : Candles α} (hbars : c.bars ≠ 0) {symbol : String}
    {series : List (Candle α)} (h : c.find? symbol = some series) :
    ∃ x, c.lastClose (.text symbol) = some x ∧ (quoteAt (c.bars - 1) series).price = some x := by
  have hlt : c.bars - 1 < series.length := by
    have := bars_le_length h
    omega
  have hclose : c.lastClose (.text symbol) = series[c.bars - 1]?.map Candle.close := by
    simp only [lastClose, h, Option.bind_some]
  rw [hclose, price_quoteAt hlt, List.getElem?_eq_getElem hlt]
  exact ⟨_, rfl, rfl⟩

/-- What the market at the last bar holds of a symbol. -/
theorem lookUp_last [Arith α] {c : Candles α} (hbars : c.bars ≠ 0) {v : Value α}
    (hv : v.Textual) : ∃ q : Option (Quote α), v.lookUp (c.marketAt (c.bars - 1)) = .ok q ∧
      q.map Quote.price = (c.lastClose v).map some := by
  obtain ⟨symbol, rfl⟩ := hv
  refine ⟨(c.find? symbol).map (quoteAt (c.bars - 1)), ?_, ?_⟩
  · show Except.ok ((c.map (quoteAt (c.bars - 1))).find? symbol) = _
    rw [Table.find?_map]
  · cases h : c.find? symbol with
    | none => simp only [lastClose, h, Option.map_none, Option.bind_none]
    | some series =>
      obtain ⟨x, hclose, hprice⟩ := lastClose_of_find? hbars h
      simp only [hclose, hprice, Option.map_some]

/-- Exactly the symbols of the candles have a last close. -/
theorem covers_eq_isSome {c : Candles α} (hbars : c.bars ≠ 0) (v : Value α) :
    c.covers v = (c.lastClose v).isSome := by
  cases v with
  | text symbol =>
    show (c.find? symbol).isSome = _
    cases h : c.find? symbol with
    | none => simp only [lastClose, h, Option.bind_none, Option.isSome_none]
    | some series =>
      obtain ⟨x, hclose, -⟩ := lastClose_of_find? hbars h
      rw [hclose]
      rfl
  | null | bool | int | num | list | object => rfl

end Candles

namespace Replay

open Arith Session

/-! ### Offers -/

/-- The signal that sells a whole position at a price. -/
def offer (now : Instant) (p : Position α) (price : α) : Signal α :=
  ⟨p.symbol, some price, now, .trade .sell (.text "market") (some p.quantity) none none⟩

section Offers

variable [Arith α] {now : Instant} {market : Market α} {candles : Candles α} {s : Session α}
  {p : Position α} {price : α}

/-- The last bar offers a position at the last close of its symbol, if there is one. -/
theorem closingSignal_eq (hbars : candles.bars ≠ 0) (ht : p.symbol.Textual) :
    closingSignal now (candles.marketAt (candles.bars - 1)) p =
      .ok ((candles.lastClose p.symbol).map (offer now p)) := by
  obtain ⟨q, hq, hprice⟩ := Candles.lookUp_last hbars ht
  unfold closingSignal
  rw [hq]
  show Except.ok (q.map fun quote => _) = _
  have hoffer : (q.map Quote.price).map (fun x => (⟨p.symbol, x, now,
      .trade .sell (.text "market") (some p.quantity) none none⟩ : Signal α)) =
        (candles.lastClose p.symbol).map (offer now p) := by
    rw [hprice, Option.map_map]
    rfl
  rw [← hoffer, Option.map_map]
  rfl

/-- The last bar knows no other price of a symbol than its last close. -/
theorem livePrice_last (hbars : candles.bars ≠ 0) (ht : p.symbol.Textual) :
    (candles.marketAt (candles.bars - 1)).livePrice p.symbol =
      .ok ((candles.lastClose p.symbol).filter isNonzero) := by
  obtain ⟨q, hq, hprice⟩ := Candles.lookUp_last hbars ht
  unfold Market.livePrice
  rw [hq]
  show Except.ok (q.bind Quote.livePrice) = _
  have hlive : (q.map Quote.price).bind (Option.filter isNonzero) =
      (candles.lastClose p.symbol).filter isNonzero := by
    rw [hprice]
    cases candles.lastClose p.symbol <;> rfl
  rw [← hlive]
  cases q <;> rfl

/-- Around a position there is no other in its symbol. -/
theorem replaceFirst_around {as bs : List (Position α)} (h : WellHeld (as ++ p :: bs))
    (new : List (Position α)) :
    (as ++ p :: bs).find? (·.symbol.same p.symbol) = some p ∧
      replaceFirst p.symbol new (as ++ p :: bs) = as ++ new ++ bs := by
  have ht : p.symbol.Textual := h.textual p (List.mem_append_right _ List.mem_cons_self)
  have hothers : ∀ a ∈ as, a.symbol.same p.symbol = false := fun a ha =>
    ht.same_eq_false.mpr (h.ne_around a (List.mem_append_left _ ha))
  clear h
  induction as with
  | nil => simp [replaceFirst, ht.same_self]
  | cons a as ih =>
    obtain ⟨hfind, hreplace⟩ := ih fun b hb => hothers b (List.mem_cons_of_mem _ hb)
    have ha := hothers a List.mem_cons_self
    refine ⟨?_, ?_⟩
    · rw [List.cons_append, List.find?_cons, ha, hfind]
    · rw [List.cons_append, replaceFirst, ha, hreplace]
      rfl

/-- A sell of all shares of a position leaves the others in their places. -/
theorem sell_whole (now : Instant) {as bs : List (Position α)} {value profit : α}
    (hw : WellHeld s.positions) (hps : s.positions = as ++ p :: bs)
    (hvalue : times price p.quantity = .ok value)
    (hprofit : times (price - p.averageCost) p.quantity = .ok profit) :
    s.sell now p.symbol price (some p.quantity) none none = .ok
      ({ s with
        positions := as ++ bs, cash := s.cash + value
        transactions := s.transactions ++
          [⟨p.symbol, p.quantity, price, value, now, some profit⟩] },
        ⟨p.symbol, p.quantity, price, value, now, some profit⟩) := by
  rw [hps] at hw
  have hheld : 1 ≤ p.quantity := hw.held p (List.mem_append_right _ List.mem_cons_self)
  obtain ⟨hfind, hreplace⟩ := replaceFirst_around hw []
  have hp : s.positionIn p.symbol = some p := by
    unfold positionIn
    rw [hps, hfind]
  have hquantity := s.sellQuantity_of_given (by omega : p.quantity ≠ 0) p none none price
  have hleft : s.positionsAfterSell now p.symbol p p.quantity = as ++ bs := by
    unfold positionsAfterSell
    dsimp only
    rw [if_pos (by omega), hps, hreplace, List.append_nil]
  rw [sell_of_sized hp hquantity (by omega) le_rfl hvalue hprofit, hleft]

/-- **An offer above zero sells the position.** -/
theorem execute_offer {as bs : List (Position α)} {value profit : α} (hw : WellHeld s.positions)
    (hps : s.positions = as ++ p :: bs) (hin : (offer now p price).priceIn market = .ok price)
    (hprice : ¬ price ≤ 0.0) (hvalue : times price p.quantity = .ok value)
    (hprofit : times (price - p.averageCost) p.quantity = .ok profit) :
    s.execute now market (offer now p price) = .ok
      ({ s with
        positions := as ++ bs, cash := s.cash + value
        transactions := s.transactions ++
          [⟨p.symbol, p.quantity, price, value, now, some profit⟩] },
        some ⟨p.symbol, p.quantity, price, value, now, some profit⟩) := by
  have hsell := sell_whole now hw hps hvalue hprofit
  rw [execute_sell hin hprice rfl]
  show (s.sell now p.symbol price (some p.quantity) none none >>= _) = _
  rw [hsell]
  rfl

/-- **Any other offer is refused.** -/
theorem execute_refused (s : Session α) (hin : (offer now p price).priceIn market = .ok price)
    (hprice : price ≤ 0.0) : s.execute now market (offer now p price) =
      .error (.invalidPrice "sell" p.symbol.display (written price)) := by
  rw [execute_trade rfl hin]
  unfold trade
  rw [if_pos hprice]
  rfl

end Offers

/-! ### The sweep -/

section Exactly

open Exact

variable {root : Rat → Rat} {now : Instant} {market : Market Rat} {candles : Candles Rat}
  {s s' : Session Rat}

/-- The transaction that sells a whole position at a price. -/
def sale (now : Instant) (p : Position Rat) (price : Rat) : Transaction Rat :=
  ⟨p.symbol, p.quantity, price, price * p.quantity, now,
    some ((price - p.averageCost) * p.quantity)⟩

/-- An offer is made at its own price: a price of zero counts as none, and then the live price,
which is none either, gives way to zero. -/
theorem priceIn_offer {p : Position Rat} {price : Rat}
    (hlive : @Market.livePrice Rat (arith root) market p.symbol =
      .ok ((some price).filter (@isNonzero Rat (arith root)))) :
    @Signal.priceIn Rat (arith root) (offer now p price) market = .ok price := by
  let _ := arith root
  cases hzero : isNonzero price with
  | true => exact priceIn_of_given rfl hzero
  | false =>
    have hprice : price = 0 := by
      have h : (price == 0.0) = true := by simpa [isNonzero] using hzero
      rw [zero_eq] at h
      exact beq_iff_eq.mp h
    have hnone : (some price).filter isNonzero = none := by simp [Option.filter, hzero]
    have hfilter : (offer now p price).price.filter isNonzero = none := hnone
    unfold Signal.priceIn
    rw [hfilter]
    rw [hnone] at hlive
    show (market.livePrice p.symbol >>= _) = _
    rw [hlive, hprice, ← zero_eq]
    rfl

/-- **The offers of all positions, in order.**  What is offered above zero is sold; the rest is held
on, in its order. -/
theorem executeAll_offers (root : Rat → Rat) (now : Instant) (price : Position Rat → Option Rat)
    {kept ps : List (Position Rat)} {s : Session Rat} (hps : s.positions = kept ++ ps)
    (hw : WellHeld s.positions)
    (hlive : ∀ p ∈ ps, @Market.livePrice Rat (arith root) market p.symbol =
      .ok ((price p).filter (@isNonzero Rat (arith root)))) :
    ∃ s' ts, @executeAll Rat (arith root) now market
        (ps.filterMap fun p => (price p).map (offer now p)) s = (s', ts, none) ∧
      s'.positions = kept ++ ps.filter (fun p => (price p).all (· ≤ 0)) ∧
      s'.transactions =
        s.transactions ++ ps.filterMap fun p => ((price p).filter (0 < ·)).map (sale now p) := by
  let _ := arith root
  induction ps generalizing kept s with
  | nil => exact ⟨s, [], rfl, by simpa using hps, by simp⟩
  | cons p ps ih =>
    have hkeep : s.positions = (kept ++ [p]) ++ ps := by rw [hps, List.append_assoc]; rfl
    have htail := fun q hq => hlive q (List.mem_cons_of_mem _ hq)
    cases hp : price p with
    | none =>
      obtain ⟨s', ts, hall, hleft, hlog⟩ := ih hkeep hw htail
      refine ⟨s', ts, ?_, ?_, ?_⟩
      · simpa [hp] using hall
      · simpa [hp] using hleft
      · simpa [hp] using hlog
    | some x =>
      have hin : (offer now p x).priceIn market = .ok x :=
        priceIn_offer (hp ▸ hlive p List.mem_cons_self)
      by_cases hx : x ≤ 0
      · -- refused: the position is kept and a failure goes on record
        have hrefused := execute_refused s hin (by rw [zero_eq]; exact hx)
        obtain ⟨s', ts, hall, hleft, hlog⟩ := ih (s := s.record now
          (.invalidPrice "sell" p.symbol.display (Arith.written x))) hkeep hw htail
        refine ⟨s', ts, ?_, ?_, ?_⟩
        · simp only [List.filterMap_cons, hp, Option.map_some]
          rw [executeAll_of_refused hrefused rfl]
          exact hall
        · simpa [hp, hx] using hleft
        · simpa [hp, hx, record, note] using hlog
      · -- sold
        have hsold := execute_offer hw hps hin (not_le_zero_iff.mpr (not_le.mp hx))
          (times_ok_iff.mpr rfl) (times_ok_iff.mpr rfl)
        have hw' : WellHeld (kept ++ ps) := (hps ▸ hw).around
        obtain ⟨s', ts, hall, hleft, hlog⟩ := ih (s := { s with
          positions := kept ++ ps, cash := s.cash + x * p.quantity
          transactions := s.transactions ++ [sale now p x] }) rfl hw' htail
        refine ⟨s', sale now p x :: ts, ?_, ?_, ?_⟩
        · simp only [List.filterMap_cons, hp, Option.map_some]
          exact executeAll_of_ok hsold hall
        · simpa [hp, hx] using hleft
        · simpa [hp, not_le.mp hx] using hlog

/-- **The sale at the end succeeds.**  Left are the positions without candles and those with a last
close that is not above zero; each of the others has been sold in one piece, and the figures are
those of what is left. -/
theorem close_sells (root : Rat → Rat) (now : Instant) (hbars : candles.bars ≠ 0)
    (hw : WellHeld s.positions) :
    ∃ s', @close Rat (arith root) now (candles.marketAt (candles.bars - 1)) s = .ok s' ∧
      s'.positions = s.positions.filter (fun p => (candles.lastClose p.symbol).all (· ≤ 0)) ∧
      s'.transactions = s.transactions ++ s.positions.filterMap (fun p =>
        ((candles.lastClose p.symbol).filter (0 < ·)).map (sale now p)) ∧
      @FiguresRight Rat (arith root) s' := by
  let _ := arith root
  have hsignals : s.positions.mapM (closingSignal now (candles.marketAt (candles.bars - 1))) =
      .ok (s.positions.map fun p => (candles.lastClose p.symbol).map (offer now p)) :=
    mapM_eq_map fun p hp => closingSignal_eq hbars (hw.textual p hp)
  obtain ⟨s₁, ts, hall, hleft, hlog⟩ := executeAll_offers root now
    (fun p => candles.lastClose p.symbol) (List.nil_append s.positions).symm hw
    fun p hp => livePrice_last hbars (hw.textual p hp)
  obtain ⟨s', hs'⟩ : ∃ s', s₁.recompute = .ok s' := exists_recompute s₁
  obtain ⟨capital, metrics, -, -, heq⟩ := recompute_ok hs'
  refine ⟨s', ?_, ?_, ?_, recompute_figuresRight hs'⟩
  · unfold close
    rw [hsignals]
    simp only [bind, Except.bind, List.filterMap_map, Function.comp_def]
    rw [hall]
    exact hs'
  · rw [heq]
    exact hleft
  · rw [heq]
    exact hlog

end Exactly

end Replay

end PaperTrading
