import PaperTrading.Proofs.Ledger.Positions
import PaperTrading.Proofs.Session.Batch

/-!
# Executing in place

A signal is executed here on a session that is written field by field: the position first, one entry
after another, then the cash, then the log.  What has been written when a failure comes would stay
written.  But everything that can fail is computed before the first write, and so the writes amount
to what `Session.execute` says of the whole session.

* `InPlace`: work on a session in place.
* `overwrite`, `discard`: the writes to one position of the list.
* `buyInPlace`, `sellInPlace`, `executeInPlace`: **the trades, one write after another.**
* `Amounts`: work in place amounts to a computation of whole sessions; `Amounts.read` and
  `Amounts.check` say that what comes before the first write may fail.
* `executeInPlace_amounts`: **executing in place amounts to executing.**
* `TouchesOnly`: the positions before and after a trade in one symbol.
* `execution_atomic`: **all or nothing.**
-/

namespace PaperTrading

open Arith

variable {α β γ : Type}

/-- **Work on a session in place.**  What was written before a failure stays written. -/
abbrev InPlace (α β : Type) := EStateM Failure (Session α) β

variable [Arith α]

/-- Two positions have equal entries. -/
def Position.alike (p q : Position α) : Bool :=
  p.symbol.same q.symbol && p.quantity == q.quantity && p.averageCost == q.averageCost &&
    p.currentPrice == q.currentPrice && decide (p.openTime = q.openTime) &&
    decide (p.lastUpdated = q.lastUpdated)

namespace Session

/-! ### Writes -/

/-- The place of the first position in a symbol. -/
def placeOf (s : Session α) (symbol : Value α) : Nat := s.positions.findIdx (·.symbol.same symbol)

omit [Arith α] in
/-- Writes to the position at a place. -/
def overwrite (place : Nat) (f : Position α → Position α) : InPlace α Unit :=
  modify fun s => { s with positions := s.positions.modify place f }

/-- The first place of a position that is, or is like, the one at a given place. -/
def firstLike (s : Session α) (place : Nat) : Nat :=
  min place (s.positions.findIdx fun q => s.positions[place]?.any q.alike)

/-- Takes out the first position that is, or is like, the one at a place. -/
def discard (place : Nat) : InPlace α Unit :=
  modify fun s => { s with positions := s.positions.eraseIdx (s.firstLike place) }

omit [Arith α] in
/-- Adds a position at the end of the list. -/
def openPosition (p : Position α) : InPlace α Unit :=
  modify fun s => { s with positions := s.positions ++ [p] }

omit [Arith α] in
/-- Writes to the cash. -/
def adjustCash (f : α → α) : InPlace α Unit := modify fun s => { s with cash := f s.cash }

omit [Arith α] in
/-- Adds a transaction at the end of the log. -/
def log (t : Transaction α) : InPlace α Unit :=
  modify fun s => { s with transactions := s.transactions ++ [t] }

/-! ### Trades -/

/-- **A buy in place.** -/
def buyInPlace (now : Instant) (symbol : Value α) (price : α) (quantity : Option Int)
    (risk : Option α) : InPlace α (Transaction α) := do
  let s ← get
  let n ← ofExcept (s.buyQuantity quantity risk price)
  if n ≤ 0 then throw (.cannotAffordOne symbol.display (written price) (fixed 2 s.cash))
  let cost ← ofExcept (times price n)
  if s.cash < cost then throw (.cannotAfford n symbol.display (written price))
  match s.positionIn symbol with
  | some p =>
    let paid ← ofExcept (times p.averageCost p.quantity)
    let total := p.quantity + n
    let average ← ofExcept (dividedBy (paid + cost) total)
    overwrite (s.placeOf symbol) fun p => { p with averageCost := average }
    overwrite (s.placeOf symbol) fun p => { p with quantity := total }
    overwrite (s.placeOf symbol) fun p => { p with lastUpdated := now }
  | none => openPosition ⟨symbol, n, price, price, now, now⟩
  adjustCash (· - cost)
  let t : Transaction α := ⟨symbol, n, price, cost, now, none⟩
  log t
  return t

/-- **A sell in place.** -/
def sellInPlace (now : Instant) (symbol : Value α) (price : α) (quantity : Option Int)
    (risk fraction : Option α) : InPlace α (Transaction α) := do
  let s ← get
  match s.positionIn symbol with
  | none => throw (.noPosition symbol.display)
  | some p =>
    let n ← ofExcept (s.sellQuantity p quantity risk fraction price)
    if n ≤ 0 ∨ p.quantity < n then throw (.notEnoughShares n symbol.display p.quantity)
    let value ← ofExcept (times price n)
    let profit ← ofExcept (times (price - p.averageCost) n)
    overwrite (s.placeOf symbol) fun p => { p with quantity := p.quantity - n }
    if p.quantity - n ≤ 0 then discard (s.placeOf symbol)
    else overwrite (s.placeOf symbol) fun p => { p with lastUpdated := now }
    adjustCash (· + value)
    let t : Transaction α := ⟨symbol, n, price, value, now, some profit⟩
    log t
    return t

/-- **One signal in place.** -/
def executeInPlace (now : Instant) (market : Market α) (signal : Signal α) :
    InPlace α (Option (Transaction α)) :=
  match signal.order with
  | .protect protection type value trailingType trailingValue => do
    modify fun s => s.protect now signal.symbol signal.price protection type value trailingType
      trailingValue
    return none
  | .trade side _ quantity risk fraction => do
    let price ← ofExcept (signal.priceIn market)
    if price ≤ 0.0 then
      throw (.invalidPrice side.name signal.symbol.display (written price))
    match side with
    | .buy => some <$> buyInPlace now signal.symbol price quantity risk
    | .sell => some <$> sellInPlace now signal.symbol price quantity risk fraction
    | .other name => throw (.unsupportedSide name)

/-! ### Whole sessions -/

omit [Arith α] in
/-- **Work in place amounts to a computation of whole sessions:** where that fails, the session has
been left as it was, and elsewhere the same session is left behind. -/
def Amounts (s : Session α) (work : InPlace α β) (x : Except Failure (Session α × β)) : Prop :=
  work s = match x with
    | .ok (s', y) => .ok y s'
    | .error f => .error f s

section Amounts

variable {s s₁ : Session α} {f : Failure}

omit [Arith α]

theorem Amounts.ok_iff {work : InPlace α β} {x : Except Failure (Session α × β)}
    (h : Amounts s work x) {y : β} : work s = .ok y s₁ ↔ x = .ok (s₁, y) := by
  unfold Amounts at h
  rw [h]
  cases x <;> simp [Prod.ext_iff, and_comm]

theorem Amounts.error_iff {work : InPlace α β} {x : Except Failure (Session α × β)}
    (h : Amounts s work x) : work s = .error f s₁ ↔ x = .error f ∧ s₁ = s := by
  unfold Amounts at h
  rw [h]
  cases x <;> simp [eq_comm]

/-- What is computed before the first write may fail. -/
theorem Amounts.read {x : Except Failure γ} {work : γ → InPlace α β}
    {g : γ → Except Failure (Session α × β)} (h : ∀ y, x = .ok y → Amounts s (work y) (g y)) :
    Amounts s (ofExcept x >>= work) (x >>= g) := by
  cases x with
  | error f => rfl
  | ok y => exact h y rfl

/-- What is checked before the first write may fail. -/
theorem Amounts.check {p : Prop} [Decidable p] {k : PUnit → InPlace α β} {work : InPlace α β}
    {g : PUnit → Except Failure (Session α × β)} {x : Except Failure (Session α × β)}
    (h : ¬ p → Amounts s work x) :
    Amounts s (if p then throw f >>= k else work) (if p then throw f >>= g else x) := by
  by_cases hp : p
  · rw [if_pos hp, if_pos hp]; rfl
  · rw [if_neg hp, if_neg hp]; exact h hp

/-- A result may be put into another form afterwards. -/
theorem Amounts.map {work : InPlace α β} {x : Except Failure (Session α × β)}
    (h : Amounts s work x) (g : β → γ) :
    Amounts s (g <$> work) (do let (s, y) ← x; return (s, g y)) := by
  unfold Amounts at h
  show EStateM.map g work s = _
  unfold EStateM.map
  rw [h]
  cases x <;> rfl

/-- After a write the work goes on with what was written. -/
theorem run_write {write : InPlace α Unit} {work : Unit → InPlace α β}
    (h : write s = .ok () s₁) : (write >>= work) s = work () s₁ := by
  show EStateM.bind write work s = _
  unfold EStateM.bind
  rw [h]

end Amounts

/-! ### Places -/

omit [Arith α] in
theorem modify_around {as bs : List β} {x : β} (f : β → β) :
    (as ++ x :: bs).modify as.length f = as ++ f x :: bs := by
  induction as with
  | nil => rfl
  | cons a as ih => rw [List.cons_append, List.length_cons, List.modify_succ_cons, ih]; rfl

omit [Arith α] in
/-- The first item that answers a question is at the place behind all those that do not. -/
theorem findIdx_around {q : β → Bool} {as bs : List β} {x : β} (has : ∀ a ∈ as, q a = false)
    (hx : q x = true) : (as ++ x :: bs).findIdx q = as.length := by
  induction as with
  | nil => rw [List.nil_append, List.findIdx_cons, hx]; rfl
  | cons a as ih =>
    rw [List.cons_append, List.findIdx_cons, has a List.mem_cons_self,
      ih fun b hb => has b (List.mem_cons_of_mem a hb)]
    rfl

variable {s : Session α} {symbol : Value α} {p : Position α} {as bs : List (Position α)}

omit [Arith α] in
/-- **A write to a place** goes to the position there. -/
theorem overwrite_around (hs : s.positions = as ++ p :: bs) (f : Position α → Position α) :
    overwrite as.length f s = .ok () { s with positions := as ++ f p :: bs } := by
  show EStateM.Result.ok () { s with positions := s.positions.modify as.length f } = _
  rw [hs, modify_around]

theorem firstLike_around (hs : s.positions = as ++ p :: bs)
    (has : ∀ a ∈ as, a.symbol.same p.symbol = false) : s.firstLike as.length = as.length := by
  have hat : s.positions[as.length]? = some p := by
    rw [hs, List.getElem?_append_right (Nat.le_refl _), Nat.sub_self]; rfl
  have hnone : as.findIdx (fun q => (some p).any q.alike) = as.length := by
    rw [List.findIdx_eq_length]
    intro a ha
    simp [Position.alike, has a ha]
  unfold firstLike
  rw [hat, hs, List.findIdx_append, hnone, if_neg (Nat.lt_irrefl _)]
  exact Nat.min_eq_left (Nat.le_add_left _ _)

/-- **Only the position itself is taken out** where no other one is in its symbol. -/
theorem discard_around (hs : s.positions = as ++ p :: bs)
    (has : ∀ a ∈ as, a.symbol.same p.symbol = false) :
    discard as.length s = .ok () { s with positions := as ++ bs } := by
  show EStateM.Result.ok () { s with
    positions := s.positions.eraseIdx (s.firstLike as.length) } = _
  rw [firstLike_around hs has, hs, List.eraseIdx_append_of_length_le (Nat.le_refl _), Nat.sub_self]
  rfl

/-! ### Executing -/

/-- **A buy in place amounts to a buy.** -/
theorem buyInPlace_amounts (now : Instant) (s : Session α) (symbol : Value α) (price : α)
    (quantity : Option Int) (risk : Option α) :
    Amounts s (buyInPlace now symbol price quantity risk)
      (s.buy now symbol price quantity risk) := by
  show Amounts s (ofExcept (s.buyQuantity quantity risk price) >>= _)
    (s.buyQuantity quantity risk price >>= _)
  refine .read fun n _ => .check fun _ => .read fun cost _ => .check fun _ => ?_
  unfold positionsAfterBuy
  cases hp : s.positionIn symbol with
  | none => rfl
  | some p =>
    obtain ⟨as, bs, hs, hsym, has, hnew⟩ := replaceFirst_split hp
    have hplace : s.placeOf symbol = as.length := by
      unfold placeOf
      rw [hs, findIdx_around has hsym]
    dsimp only
    rw [hplace]
    unfold enlarge
    simp only [bind_assoc, pure_bind]
    refine .read fun paid _ => .read fun average _ => ?_
    show (overwrite as.length _ >>= _) s = .ok _ _
    rw [run_write (overwrite_around hs _), run_write (overwrite_around rfl _),
      run_write (overwrite_around rfl _), hnew, List.append_assoc]
    rfl

/-- **A sell in place amounts to a sell** when no two positions are in one symbol. -/
theorem sellInPlace_amounts (now : Instant) {s : Session α}
    (hdistinct : s.positions.Pairwise fun p q => p.symbol.same q.symbol = false)
    (symbol : Value α) (price : α) (quantity : Option Int) (risk fraction : Option α) :
    Amounts s (sellInPlace now symbol price quantity risk fraction)
      (s.sell now symbol price quantity risk fraction) := by
  unfold sell
  show (match s.positionIn symbol with | none => _ | some p => _ : InPlace α _) s = _
  cases hp : s.positionIn symbol with
  | none => rfl
  | some p =>
    obtain ⟨as, bs, hs, hsym, has, hnew⟩ := replaceFirst_split hp
    have hplace : s.placeOf symbol = as.length := by
      unfold placeOf
      rw [hs, findIdx_around has hsym]
    have hbefore : ∀ a ∈ as, a.symbol.same p.symbol = false := by
      rw [hs, List.pairwise_append] at hdistinct
      exact fun a ha => hdistinct.2.2 a ha p List.mem_cons_self
    refine Amounts.read fun n _ => .check fun _ => .read fun value _ => .read fun profit _ => ?_
    rw [hplace]
    unfold positionsAfterSell
    show (overwrite as.length _ >>= _) s = .ok _ _
    rw [run_write (overwrite_around hs _), hnew]
    dsimp only
    by_cases hleft : p.quantity - n ≤ 0
    · rw [if_pos hleft, if_pos hleft, run_write (discard_around
        (p := { p with quantity := p.quantity - n }) rfl hbefore), List.append_nil]
      rfl
    · rw [if_neg hleft, if_neg hleft, run_write (overwrite_around rfl _), List.append_assoc]
      rfl

/-- **Executing in place amounts to executing.** -/
theorem executeInPlace_amounts (now : Instant) (market : Market α) {s : Session α}
    (hdistinct : s.positions.Pairwise fun p q => p.symbol.same q.symbol = false)
    (signal : Signal α) :
    Amounts s (executeInPlace now market signal) (s.execute now market signal) := by
  unfold executeInPlace execute
  cases signal.order with
  | protect => rfl
  | trade side type quantity risk fraction =>
    refine .read fun price _ => ?_
    unfold trade
    by_cases hprice : price ≤ 0.0
    · rw [if_pos hprice, if_pos hprice]; rfl
    · rw [if_neg hprice, if_neg hprice]
      cases side with
      | buy => exact (buyInPlace_amounts now s signal.symbol price quantity risk).map some
      | sell =>
        exact (sellInPlace_amounts now hdistinct signal.symbol price quantity risk
          fraction).map some
      | other name => rfl

/-! ### All or nothing -/

/-- **The positions before and after a trade in a symbol:** one position is added, written to or
taken out, and all others stay as they are and where they are. -/
inductive TouchesOnly (symbol : Value α) : List (Position α) → List (Position α) → Prop
  | added {ps : List (Position α)} {p : Position α} (hp : p.symbol = symbol)
      (hnone : ∀ q ∈ ps, q.symbol.same symbol = false) : TouchesOnly symbol ps (ps ++ [p])
  | changed {as bs : List (Position α)} {p q : Position α} (hp : p.symbol.same symbol = true)
      (hq : q.symbol = p.symbol) : TouchesOnly symbol (as ++ p :: bs) (as ++ q :: bs)
  | removed {as bs : List (Position α)} {p : Position α} (hp : p.symbol.same symbol = true) :
      TouchesOnly symbol (as ++ p :: bs) (as ++ bs)

theorem touchesOnly_of_buy {now : Instant} {n : Int} {price cost : α}
    {positions : List (Position α)}
    (h : s.positionsAfterBuy now symbol n price cost = .ok positions) :
    TouchesOnly symbol s.positions positions := by
  rcases positionsAfterBuy_ok h with ⟨hp, rfl⟩ | ⟨p, as, bs, paid, average, hp, hs, -, -, rfl⟩
  · exact .added rfl (not_same_of_positionIn hp)
  · rw [hs]
    exact .changed (same_of_positionIn hp) rfl

theorem touchesOnly_of_sell (now : Instant) (n : Int) (hp : s.positionIn symbol = some p) :
    TouchesOnly symbol s.positions (s.positionsAfterSell now symbol p n) := by
  obtain ⟨as, bs, hs, hnew⟩ := positionsAfterSell_eq now n hp
  rw [hs, hnew]
  split
  · rw [List.append_nil]
    exact .removed (same_of_positionIn hp)
  · rw [List.append_assoc]
    exact .changed (same_of_positionIn hp) rfl

/-- **All or nothing.**  Whatever a signal does to a session in place is what executing it does to
the session as a whole.  If it fails, whatever the failure is, nothing has been written.  If there
is no transaction, one protective order has been added and that is all.  With a transaction, that
one has been logged, the cash has changed by exactly its total, one position has been touched, and
nothing else has. -/
theorem execution_atomic (now : Instant) (market : Market α) {s : Session α}
    (hdistinct : s.positions.Pairwise fun p q => p.symbol.same q.symbol = false)
    (signal : Signal α) :
    (∀ f left, executeInPlace now market signal s = .error f left →
      s.execute now market signal = .error f ∧ left = s) ∧
    (∀ left, executeInPlace now market signal s = .ok none left →
      s.execute now market signal = .ok (left, none) ∧
      ∃ o, left = { s with protectiveOrders := s.protectiveOrders ++ [o] }) ∧
    ∀ t left, executeInPlace now market signal s = .ok (some t) left →
      s.execute now market signal = .ok (left, some t) ∧
      TouchesOnly t.symbol s.positions left.positions ∧
      left = { s with
        positions := left.positions
        cash := if t.isSell then s.cash + t.total else s.cash - t.total
        transactions := s.transactions ++ [t] } := by
  have hamounts := executeInPlace_amounts now market hdistinct signal
  refine ⟨fun f left h => hamounts.error_iff.mp h, fun left h => ?_, fun t left h => ?_⟩
  · have hok := hamounts.ok_iff.mp h
    cases execute_ok hok with
    | guarded => exact ⟨hok, _, rfl⟩
  · have hok := hamounts.ok_iff.mp h
    cases execute_ok hok with
    | bought _ _ _ _ _ hps => exact ⟨hok, touchesOnly_of_buy hps, rfl⟩
    | sold _ hp => exact ⟨hok, touchesOnly_of_sell now _ hp, rfl⟩

/-- A session that holds three shares of one symbol and two of another. -/
def holdingTwo (s : Session Float) : Session Float :=
  { s with
    positions := [⟨.text "QQQ", 2, 20.0, 20.0, ⟨0⟩, ⟨0⟩⟩, ⟨.text "SPY", 3, 10.0, 10.0, ⟨0⟩, ⟨0⟩⟩] }

/-- A trade in the second symbol at ten. -/
def tradeAtTen (side : Side) (n : Int) : Signal Float :=
  ⟨.text "SPY", some 10.0, ⟨0⟩, .trade side (.text "market") (some n) none none⟩

/-- A purchase of so many shares that no number can say what they cost leaves the session alone, and
a sale of all three shares takes their position out. -/
theorem execution_atomic_of_trades : ∃ s : Session Float,
    (∃ start, create ⟨0⟩ "one" "ada" (Desk.steady []) .none .standard = .ok start ∧
      s = holdingTwo start) ∧
    (s.positions.Pairwise fun p q => p.symbol.same q.symbol = false) ∧
    (∃ f, executeInPlace ⟨60⟩ atTen (tradeAtTen .buy (Int.pow 10 400)) s = .error f s ∧
      f.isExecution = false) ∧
    ∃ t left, executeInPlace ⟨60⟩ atTen (tradeAtTen .sell 3) s = .ok (some t) left ∧
      TouchesOnly t.symbol s.positions left.positions ∧ left.positions.length = 1 ∧
      left.transactions = s.transactions ++ [t] := by
  have h : (create ⟨0⟩ "one" "ada" (Desk.steady []) Options.none .standard).toOption.any
      (fun start =>
        (match (holdingTwo start).execute ⟨60⟩ atTen (tradeAtTen .buy (Int.pow 10 400)) with
          | .error f => !f.isExecution
          | .ok _ => false) &&
        ((holdingTwo start).execute ⟨60⟩ atTen (tradeAtTen .sell 3)).toOption.any fun r =>
          r.2.isSome && r.1.positions.length == 1) = true := by
    decide +kernel
  obtain ⟨start, hstart, h⟩ := (Option.any_eq_true _ _).mp h
  obtain ⟨hbuy, hsell⟩ := Bool.and_eq_true_iff.mp h
  have hdistinct : (holdingTwo start).positions.Pairwise
      fun p q => p.symbol.same q.symbol = false :=
    .cons (fun q hq => by obtain rfl := List.mem_singleton.mp hq; decide)
      (List.pairwise_singleton _ _)
  have hamounts := executeInPlace_amounts ⟨60⟩ atTen hdistinct
  refine ⟨holdingTwo start, ⟨start, toOption_eq_some_iff.mp hstart, rfl⟩, hdistinct, ?_, ?_⟩
  · cases hexec : (holdingTwo start).execute ⟨60⟩ atTen (tradeAtTen .buy (Int.pow 10 400)) with
    | ok r => rw [hexec] at hbuy; cases hbuy
    | error f =>
      rw [hexec] at hbuy
      exact ⟨f, (hamounts _).error_iff.mpr ⟨hexec, rfl⟩, by simpa using hbuy⟩
  · obtain ⟨⟨left, r⟩, hexec, hleft⟩ := (Option.any_eq_true _ _).mp hsell
    obtain ⟨hsome, hlength⟩ := Bool.and_eq_true_iff.mp hleft
    obtain ⟨t, rfl⟩ := Option.isSome_iff_exists.mp hsome
    have hsold := (hamounts _).ok_iff.mpr (toOption_eq_some_iff.mp hexec)
    obtain ⟨-, htouches, hleft⟩ := (execution_atomic _ _ hdistinct _).2.2 t left hsold
    exact ⟨t, left, hsold, htouches, of_decide_eq_true hlength, by rw [hleft]⟩

end Session

end PaperTrading
