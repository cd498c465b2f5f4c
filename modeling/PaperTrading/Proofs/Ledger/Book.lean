import PaperTrading.Number.Double
import PaperTrading.Proofs.Desk.History
import PaperTrading.Proofs.Ledger.Positions

/-!
# The trade log and the portfolio

The trade log alone determines cash and holdings: posting its entries one after another, from the
initial capital, rebuilds both.  The posting rules here know nothing of signals, sizes or markets;
they read an entry as an accountant would, and every number in them is computed by the same
operations as in the trade, so that the result agrees to the last bit.

* `Book`, `Book.post`, `Book.replay`: the books, the posting of one entry and of a whole log.
* `Session.book`: the books that a session shows.
* `Session.Reconstructed`: **the log rebuilds the books,** and the profit of every sell is the one
  that the books before it give.
* `Change.reconstructed`: a change keeps this.
* `Desk.replay_stored`: **this holds of every stored session of every history,** and whatever is
  done next only adds to its log.
-/

namespace PaperTrading

open Arith

/-- Shares of one symbol, with what each of them cost on average. -/
structure Holding (α : Type) where
  symbol : Value α
  quantity : Int
  averageCost : α

/-- **The books of an account:** its cash and what it holds, in the order of opening. -/
structure Book (α : Type) where
  cash : α
  holdings : List (Holding α)

variable {α : Type} [Arith α]

namespace Book

/-- What is held of a symbol. -/
def holdingIn (b : Book α) (symbol : Value α) : Option (Holding α) :=
  b.holdings.find? (·.symbol.same symbol)

/-- The holdings with one of them changed; one without shares is dropped. -/
def put (b : Book α) (h : Holding α) : List (Holding α) :=
  (b.holdings.map fun k => if k.symbol.same h.symbol then h else k).filter (·.quantity ≠ 0)

/-- **The books after one entry of the log.**  A buy opens a holding at its price or averages the
costs; a sell of what is not held cannot be posted. -/
def post (b : Book α) (t : Transaction α) : Except Failure (Book α) :=
  match b.holdingIn t.symbol, t.isSell with
  | none, false =>
    .ok ⟨b.cash - t.total, b.holdings ++ [⟨t.symbol, t.quantity, t.price⟩]⟩
  | some h, false => do
    let quantity := h.quantity + t.quantity
    let averageCost ← dividedBy ((← times h.averageCost h.quantity) + t.total) quantity
    return ⟨b.cash - t.total, b.put { h with quantity, averageCost }⟩
  | some h, true =>
    .ok ⟨b.cash + t.total, b.put { h with quantity := h.quantity - t.quantity }⟩
  | none, true => .error (.noPosition t.symbol.display)

/-- **The books after a whole log,** from a capital in cash. -/
def replay (capital : α) (log : List (Transaction α)) : Except Failure (Book α) :=
  log.foldlM post ⟨capital, []⟩

theorem replay_concat {capital : α} {log : List (Transaction α)} {b : Book α}
    (h : replay capital log = .ok b) (t : Transaction α) :
    replay capital (log ++ [t]) = b.post t := by
  unfold replay at h ⊢
  rw [List.foldlM_append, h]
  show (b.post t >>= fun b => pure b) = b.post t
  rw [bind_pure]

/-- Among others, only the changed holding is touched. -/
theorem put_around {cash : α} {as bs : List (Holding α)} {k h : Holding α}
    (hsame : k.symbol.same h.symbol = true)
    (hothers : ∀ x ∈ as ++ bs, x.symbol.same h.symbol = false ∧ x.quantity ≠ 0) :
    put ⟨cash, as ++ k :: bs⟩ h = as ++ (if h.quantity = 0 then [] else [h]) ++ bs := by
  have hkeep : ∀ xs : List (Holding α), (∀ x ∈ xs, x ∈ as ++ bs) →
      (xs.map fun x => if x.symbol.same h.symbol then h else x).filter (·.quantity ≠ 0) = xs := by
    intro xs hxs
    have hmap : (xs.map fun x => if x.symbol.same h.symbol then h else x) = xs.map id :=
      List.map_congr_left fun x hx => by rw [(hothers x (hxs x hx)).1]; rfl
    rw [hmap, List.map_id, List.filter_eq_self]
    exact fun x hx => by simpa using (hothers x (hxs x hx)).2
  show ((as ++ k :: bs).map fun x => if x.symbol.same h.symbol then h else x).filter
    (·.quantity ≠ 0) = _
  rw [List.map_append, List.filter_append, hkeep as fun x hx => List.mem_append_left _ hx,
    List.map_cons, if_pos hsame, List.filter_cons,
    hkeep bs fun x hx => List.mem_append_right _ hx, List.append_assoc]
  by_cases hq : h.quantity = 0 <;> simp [hq]

end Book

/-! ### The books of a session -/

/-- What a position holds. -/
def Position.holding (p : Position α) : Holding α := ⟨p.symbol, p.quantity, p.averageCost⟩

namespace Session

/-- **The books that a session shows.** -/
def book (s : Session α) : Book α := ⟨s.cash, s.positions.map Position.holding⟩

variable {now : Instant} {s s' : Session α} {symbol : Value α} {p : Position α} {n : Int}
  {price cost : α} {positions : List (Position α)} {allowed : Value α → Prop}

theorem holdingIn_book (s : Session α) (symbol : Value α) :
    s.book.holdingIn symbol = (s.positionIn symbol).map Position.holding := by
  unfold book Book.holdingIn positionIn
  rw [List.find?_map]; rfl

/-- A new holding in the symbol of a position takes its place in the books. -/
theorem put_book {as bs : List (Position α)} {h : Holding α} (hw : WellHeld (as ++ p :: bs))
    (hs : s.positions = as ++ p :: bs) (hsym : h.symbol = p.symbol) :
    s.book.put h = as.map Position.holding ++ (if h.quantity = 0 then [] else [h]) ++
      bs.map Position.holding := by
  have hp : p.symbol.Textual := hw.textual p (List.mem_append_right _ List.mem_cons_self)
  have hb : s.book = ⟨s.cash, as.map Position.holding ++ p.holding :: bs.map Position.holding⟩ := by
    unfold book; rw [hs, List.map_append, List.map_cons]
  rw [hb]
  refine Book.put_around (by rw [hsym]; exact hp.same_self) fun x hx => ?_
  rw [← List.map_append] at hx
  obtain ⟨q, hq, rfl⟩ := List.mem_map.mp hx
  rw [hsym]
  refine ⟨hp.same_eq_false.mpr (hw.ne_around q hq), ?_⟩
  have hheld := hw.around.held q hq
  show q.quantity ≠ 0
  omega

/-- **A buy is posted** as it was made. -/
theorem post_bought (hw : WellHeld s.positions) (hn : 0 < n)
    (h : s.positionsAfterBuy now symbol n price cost = .ok positions) :
    s.book.post ⟨symbol, n, price, cost, now, none⟩ =
      .ok ⟨s.cash - cost, positions.map Position.holding⟩ := by
  unfold Book.post
  dsimp only
  rw [holdingIn_book]
  rcases positionsAfterBuy_ok h with ⟨hp, rfl⟩ |
    ⟨p, as, bs, paid, average, hp, hs, hpaid, havg, rfl⟩
  · rw [hp, List.map_append]
    rfl
  · have hw' : WellHeld (as ++ p :: bs) := by rw [← hs]; exact hw
    have hheld := hw'.held p (List.mem_append_right _ List.mem_cons_self)
    have hput := put_book (h := ⟨p.symbol, p.quantity + n, average⟩) hw' hs rfl
    rw [if_neg (show p.quantity + n ≠ 0 by omega)] at hput
    rw [hp]
    simp only [Option.map_some, Transaction.isSell, Option.isSome_none]
    show (times p.averageCost p.quantity >>= fun x => dividedBy (x + cost) (p.quantity + n) >>=
      fun averageCost => pure (⟨s.cash - cost, s.book.put ⟨p.symbol, p.quantity + n, averageCost⟩⟩ :
        Book α)) = _
    rw [hpaid]
    show (dividedBy (paid + cost) (p.quantity + n) >>= _) = _
    rw [havg]
    show Except.ok (⟨s.cash - cost, s.book.put ⟨p.symbol, p.quantity + n, average⟩⟩ : Book α) = _
    rw [hput]
    simp [Position.holding]

/-- **A sell is posted** as it was made. -/
theorem post_sold {value profit : α} (hw : WellHeld s.positions)
    (hp : s.positionIn symbol = some p) (hle : n ≤ p.quantity) :
    s.book.post ⟨symbol, n, price, value, now, some profit⟩ =
      .ok ⟨s.cash + value, (s.positionsAfterSell now symbol p n).map Position.holding⟩ := by
  obtain ⟨as, bs, hs, hnew⟩ := positionsAfterSell_eq now n hp
  have hw' : WellHeld (as ++ p :: bs) := by rw [← hs]; exact hw
  have hput := put_book (h := ⟨p.symbol, p.quantity - n, p.averageCost⟩) hw' hs rfl
  unfold Book.post
  dsimp only
  rw [holdingIn_book, hp, hnew]
  show Except.ok
    (⟨s.cash + value, s.book.put ⟨p.symbol, p.quantity - n, p.averageCost⟩⟩ : Book α) = _
  rw [hput]
  by_cases hleft : p.quantity - n = 0
  · simp [hleft]
  · rw [if_neg hleft, if_neg (show ¬ p.quantity - n ≤ 0 by omega)]
    simp [Position.holding]

/-! ### The invariant -/

/-- **The log rebuilds the books,** and every sell realised the profit that the books before it
give. -/
structure Reconstructed (s : Session α) : Prop where
  books : Book.replay s.initialCapital s.transactions = .ok s.book
  profits : ∀ past t profit, past ++ [t] <+: s.transactions → t.profit = some profit →
    ∃ b h, Book.replay s.initialCapital past = .ok b ∧ b.holdingIn t.symbol = some h ∧
      times (t.price - h.averageCost) t.quantity = .ok profit

theorem create_reconstructed {id user : String} {strategy : Strategy α} {options : Options α}
    {defaults : Defaults α} (h : create now id user strategy options defaults = .ok s) :
    s.Reconstructed := by
  obtain ⟨-, -, -, -, -, hcash, -, hps, hlog, -, -⟩ := create_ok h
  constructor
  · unfold book
    rw [hlog, hcash, hps]; rfl
  · intro past t profit hpre
    rw [hlog, List.prefix_nil] at hpre
    simp at hpre

/-- One more entry that is posted as it was made. -/
theorem Reconstructed.concat {t : Transaction α} (h : s.Reconstructed)
    (hcap : s'.initialCapital = s.initialCapital) (hlog : s'.transactions = s.transactions ++ [t])
    (hpost : s.book.post t = .ok s'.book)
    (hprofit : ∀ profit, t.profit = some profit → ∃ p, s.positionIn t.symbol = some p ∧
      times (t.price - p.averageCost) t.quantity = .ok profit) : s'.Reconstructed := by
  constructor
  · rw [hcap, hlog, Book.replay_concat h.books, hpost]
  · intro past u profit hpre hu
    rw [hlog] at hpre
    rw [hcap]
    rcases List.prefix_concat_iff.mp hpre with heq | hpre
    · -- the new entry: the books before it are those of `s`
      obtain ⟨rfl, htu⟩ := List.append_inj' heq rfl
      cases htu
      obtain ⟨p, hp, htimes⟩ := hprofit profit hu
      exact ⟨s.book, p.holding, h.books, by rw [holdingIn_book, hp]; rfl, htimes⟩
    · exact h.profits past u profit hpre hu

/-- What shows the same books and log is rebuilt as well. -/
theorem Reconstructed.congr (h : s.Reconstructed) (hcap : s'.initialCapital = s.initialCapital)
    (hlog : s'.transactions = s.transactions) (hbook : s'.book = s.book) : s'.Reconstructed := by
  constructor
  · rw [hcap, hlog, hbook]; exact h.books
  · rw [hcap, hlog]; exact h.profits

/-- **Changes keep the log and the books in step** when they trade only texts. -/
theorem Change.reconstructed (hw : WellHeld s.positions) (h : s.Reconstructed)
    (hc : Change allowed s s') : s'.Reconstructed := by
  cases hc with
  | bought _ _ hn _ _ hps =>
    exact h.concat rfl rfl (post_bought hw hn hps) fun profit hx => by cases hx
  | sold _ hp _ _ hle _ hprofit =>
    refine h.concat rfl rfl (post_sold hw hp hle) fun profit hx => ?_
    cases hx
    exact ⟨_, hp, hprofit⟩
  | marked hm =>
    refine h.congr rfl rfl ?_
    show (⟨s.cash, _⟩ : Book α) = ⟨s.cash, _⟩
    rw [map_eq_of_marked (f := Position.holding) _ hm]
    intro p q hsym hqty havg
    unfold Position.holding
    rw [hsym, hqty, havg]
  | guarded | noted | measured | dated | ended => exact h.congr rfl rfl rfl

/-- Sessions that trade texts are well-formed, and their logs rebuild their books. -/
theorem Reachable.reconstructed (h : s.Reachable) (ht : s.strategy.TradesTexts) :
    WellHeld s.positions ∧ s.Reconstructed := by
  refine h.textual_invariant (P := fun s => WellHeld s.positions ∧ s.Reconstructed)
    (fun hc => ?_) (fun s s' hs hc => ⟨hc.wellHeld hs.1, hc.reconstructed hs.1 hs.2⟩) ht
  obtain ⟨-, -, -, -, -, -, -, hps, -, -, -⟩ := create_ok hc
  exact ⟨by rw [hps]; exact wellHeld_nil, create_reconstructed hc⟩

end Session

namespace Desk

/-- **The log of a stored session rebuilds its portfolio.**  After any history of a desk, a session
whose strategy trades texts has a log from which its cash and its positions follow, with the same
operations in the same order; every sell in it realised the profit that the books before it give;
and whatever is done next, log, orders and errors of the session only grow. -/
theorem replay_stored (strategies : List (Strategy α)) (defaults : Defaults α)
    (history : List (Instant × Operation α)) {id : String} {e : Stored α}
    (he : ((ofStrategies strategies defaults).run history).store.find? id = some e)
    (ht : e.session.strategy.TradesTexts) :
    Book.replay e.session.initialCapital e.session.transactions = .ok e.session.book ∧
    (∀ past t profit, past ++ [t] <+: e.session.transactions → t.profit = some profit →
      ∃ b h, Book.replay e.session.initialCapital past = .ok b ∧ b.holdingIn t.symbol = some h ∧
        times (t.price - h.averageCost) t.quantity = .ok profit) ∧
    ∀ (now : Instant) (o : Operation α) (e' : Stored α),
      (((ofStrategies strategies defaults).run history).perform now o).store.find? id = some e' →
      e'.ticket = e.ticket →
      e.session.transactions <+: e'.session.transactions ∧
        e.session.protectiveOrders <+: e'.session.protectiveOrders ∧
        e.session.errors <+: e'.session.errors := by
  obtain ⟨-, hr⟩ := (reachable_of_find? he).reconstructed ht
  refine ⟨hr.books, hr.profits, fun now o e' he' hticket => ?_⟩
  have hsound := run_sound strategies defaults history
  exact (advance_of_ticket_eq hsound he he' hticket).evolves.extends

/-- Two updates, each of which buys three shares and sells one of them. -/
theorem replay_stored_of_updates : ∃ e : Stored Float,
    ((ofStrategies [steady buyAndTrim] .standard).run (updates "SPY" [10, 12])).store.find?
      "ada-steady-0" = some e ∧ e.session.strategy.TradesTexts ∧
    e.session.transactions.length = 4 ∧
    Book.replay e.session.initialCapital e.session.transactions = .ok e.session.book := by
  have h : (((ofStrategies [steady buyAndTrim] (.standard : Defaults Float)).run
      (updates "SPY" [10, 12])).store.find? "ada-steady-0").any (fun e =>
        e.session.strategy.TradesTexts ∧ e.session.transactions.length = 4) = true := by
    decide +kernel
  obtain ⟨e, he, hdec⟩ := (Option.any_eq_true _ _).mp h
  obtain ⟨ht, hlen⟩ := of_decide_eq_true hdec
  exact ⟨e, he, ht, hlen, (replay_stored _ _ _ he ht).1⟩

end Desk

end PaperTrading
