import Mathlib.Algebra.Order.BigOperators.Group.List
import Mathlib.Algebra.Ring.Int.Defs
import PaperTrading.Number.Double
import PaperTrading.Number.Exact
import PaperTrading.Proofs.Replay.Course

/-!
# What is held and what was traded

Shares are neither lost nor made.  For every symbol, a session holds what its log says it bought,
less what the log says it sold; and at no moment had it sold more than it had bought before.

* `boughtIn`, `soldIn`, `Session.heldIn`: the shares of a symbol in a log and in a session.
* `Session.sharesIn`: the same shares as a sum over all positions, in which a trade changes one
  summand.
* `Session.Tallied`: **well-formed holdings that agree with the log,** at its end and all along it.
* `Change.tallied`: a change that trades only texts keeps the tally.
* `holdings_tallied`: **the tally of every stored session and at the end of every replay.**
-/

namespace PaperTrading

open Arith

variable {α : Type} [Arith α]

/-! ### Counting shares -/

/-- The shares of a symbol that a log bought. -/
def boughtIn (symbol : Value α) (log : List (Transaction α)) : Int :=
  ((log.filter fun t => !t.isSell && t.symbol.same symbol).map (·.quantity)).sum

/-- The shares of a symbol that a log sold. -/
def soldIn (symbol : Value α) (log : List (Transaction α)) : Int :=
  ((log.filter fun t => t.isSell && t.symbol.same symbol).map (·.quantity)).sum

theorem boughtIn_nil (v : Value α) : boughtIn v [] = 0 := rfl

theorem soldIn_nil (v : Value α) : soldIn v [] = 0 := rfl

omit [Arith α] in
/-- One more entry adds its quantity, if it counts. -/
theorem quantities_concat (counts : Transaction α → Bool) (log : List (Transaction α))
    (t : Transaction α) : (((log ++ [t]).filter counts).map (·.quantity)).sum =
      ((log.filter counts).map (·.quantity)).sum + if counts t then t.quantity else 0 := by
  rw [List.filter_append, List.map_append, List.sum_append, List.filter_cons]
  by_cases ht : counts t = true <;> simp [ht]

theorem boughtIn_concat (v : Value α) (log : List (Transaction α)) (t : Transaction α) :
    boughtIn v (log ++ [t]) =
      boughtIn v log + if !t.isSell && t.symbol.same v then t.quantity else 0 :=
  quantities_concat (fun t => !t.isSell && t.symbol.same v) log t

theorem soldIn_concat (v : Value α) (log : List (Transaction α)) (t : Transaction α) :
    soldIn v (log ++ [t]) =
      soldIn v log + if t.isSell && t.symbol.same v then t.quantity else 0 :=
  quantities_concat (fun t => t.isSell && t.symbol.same v) log t

namespace Session

variable {now : Instant} {s s' : Session α} {symbol : Value α} {p : Position α} {n : Int}
  {price cost : α} {positions : List (Position α)}

/-- **The shares of a symbol that a session holds;** zero without a position. -/
def heldIn (s : Session α) (symbol : Value α) : Int :=
  ((s.positionIn symbol).map (·.quantity)).getD 0

/-- The shares of a symbol in some positions. -/
def sharesIn (symbol : Value α) (ps : List (Position α)) : Int :=
  (ps.map fun p => if p.symbol.same symbol then p.quantity else 0).sum

theorem sharesIn_append (v : Value α) (ps qs : List (Position α)) :
    sharesIn v (ps ++ qs) = sharesIn v ps + sharesIn v qs := by
  unfold sharesIn; rw [List.map_append, List.sum_append]

theorem sharesIn_cons (v : Value α) (p : Position α) (ps : List (Position α)) :
    sharesIn v (p :: ps) = (if p.symbol.same v then p.quantity else 0) + sharesIn v ps := rfl

theorem sharesIn_eq_zero {v : Value α} {ps : List (Position α)}
    (h : ∀ p ∈ ps, p.symbol.same v = false) : sharesIn v ps = 0 := by
  induction ps with
  | nil => rfl
  | cons p ps ih =>
    rw [sharesIn_cons, h p List.mem_cons_self, ih fun q hq => h q (List.mem_cons_of_mem _ hq)]
    rfl

theorem sharesIn_nonneg (h : WellHeld positions) (v : Value α) : 0 ≤ sharesIn v positions := by
  refine List.sum_nonneg fun x hx => ?_
  obtain ⟨p, hp, rfl⟩ := List.mem_map.mp hx
  have := h.held p hp
  split <;> omega

/-- Among well-formed positions, the sum is the one position that counts. -/
theorem heldIn_eq_sharesIn (h : WellHeld s.positions) (v : Value α) :
    s.heldIn v = sharesIn v s.positions := by
  unfold heldIn
  cases hp : s.positionIn v with
  | none => exact (sharesIn_eq_zero (not_same_of_positionIn hp)).symm
  | some p =>
    obtain ⟨as, bs, hs, hsame, -, -⟩ := replaceFirst_split hp
    rw [hs] at h ⊢
    have hpt : p.symbol.Textual := h.textual p (List.mem_append_right _ List.mem_cons_self)
    have hv : p.symbol = v := hpt.eq_of_same hsame
    have hothers : ∀ q ∈ as ++ bs, q.symbol.same v = false := by
      intro q hq
      rw [← hv]
      exact hpt.same_eq_false.mpr (h.ne_around q hq)
    rw [sharesIn_append, sharesIn_cons, if_pos hsame,
      sharesIn_eq_zero fun q hq => hothers q (List.mem_append_left _ hq),
      sharesIn_eq_zero fun q hq => hothers q (List.mem_append_right _ hq)]
    simp

/-! ### Trades -/

/-- A buy adds its shares. -/
theorem sharesIn_bought (ht : symbol.Textual)
    (h : s.positionsAfterBuy now symbol n price cost = .ok positions) (v : Value α) :
    sharesIn v positions = sharesIn v s.positions + if symbol.same v then n else 0 := by
  rcases positionsAfterBuy_ok h with ⟨-, rfl⟩ | ⟨p, as, bs, paid, average, hp, hs, -, -, rfl⟩
  · rw [sharesIn_append]
    simp [sharesIn]
  · have hsym : p.symbol = symbol := ht.same_iff.mp (same_of_positionIn hp)
    rw [hs]
    simp only [sharesIn_append, sharesIn_cons, hsym]
    split <;> omega

/-- A sell takes its shares away. -/
theorem sharesIn_sold (ht : symbol.Textual) (hp : s.positionIn symbol = some p)
    (hle : n ≤ p.quantity) (v : Value α) :
    sharesIn v (s.positionsAfterSell now symbol p n) =
      sharesIn v s.positions - if symbol.same v then n else 0 := by
  obtain ⟨as, bs, hs, hnew⟩ := positionsAfterSell_eq now n hp
  have hsym : p.symbol = symbol := ht.same_iff.mp (same_of_positionIn hp)
  rw [hnew, hs]
  by_cases hleft : p.quantity - n ≤ 0
  · rw [if_pos hleft]
    simp only [sharesIn_append, sharesIn_cons, hsym]
    have hnil : sharesIn v [] = 0 := rfl
    split <;> omega
  · rw [if_neg hleft]
    simp only [sharesIn_append, sharesIn_cons, hsym]
    have hnil : sharesIn v [] = 0 := rfl
    split <;> omega

/-! ### The tally -/

/-- **Holdings that agree with the log.** -/
structure Tallied (s : Session α) : Prop where
  wellHeld : WellHeld s.positions
  traded : ∀ t ∈ s.transactions, 1 ≤ t.quantity
  tally : ∀ v, s.heldIn v = boughtIn v s.transactions - soldIn v s.transactions
  covered : ∀ past, past <+: s.transactions → ∀ v, soldIn v past ≤ boughtIn v past

theorem create_tallied {id user : String} {strategy : Strategy α} {options : Options α}
    {defaults : Defaults α} (h : create now id user strategy options defaults = .ok s) :
    s.Tallied := by
  obtain ⟨-, -, -, -, -, -, -, hps, hlog, -, -⟩ := create_ok h
  refine ⟨by rw [hps]; exact wellHeld_nil, by rw [hlog]; simp, fun v => ?_, fun past hpast v => ?_⟩
  · unfold heldIn positionIn
    rw [hps, hlog]; rfl
  · rw [hlog, List.prefix_nil] at hpast
    rw [hpast, soldIn_nil, boughtIn_nil]

/-- One more entry that moves as many shares in the positions as in the log. -/
theorem Tallied.concat {t : Transaction α} (h : s.Tallied) (hw : WellHeld s'.positions)
    (hlog : s'.transactions = s.transactions ++ [t]) (ht : 1 ≤ t.quantity)
    (hshares : ∀ v, sharesIn v s'.positions = sharesIn v s.positions +
      (if !t.isSell && t.symbol.same v then t.quantity else 0) -
      (if t.isSell && t.symbol.same v then t.quantity else 0)) : s'.Tallied := by
  have htally : ∀ v, sharesIn v s'.positions =
      boughtIn v s'.transactions - soldIn v s'.transactions := by
    intro v
    have hold := h.tally v
    rw [heldIn_eq_sharesIn h.wellHeld] at hold
    rw [hlog, boughtIn_concat, soldIn_concat, hshares v]
    omega
  refine ⟨hw, fun u hu => ?_, fun v => ?_, fun past hpast v => ?_⟩
  · rw [hlog] at hu
    rcases List.mem_append.mp hu with hu | hu
    · exact h.traded u hu
    · rw [List.mem_singleton.mp hu]; exact ht
  · rw [heldIn_eq_sharesIn hw]; exact htally v
  · rw [hlog] at hpast
    rcases List.prefix_concat_iff.mp hpast with rfl | hpast
    · -- what is held now cannot be negative
      have hnow := htally v
      have hnonneg := sharesIn_nonneg hw v
      rw [hlog] at hnow
      omega
    · exact h.covered past hpast v

/-- What holds the same shares with the same log is tallied as well. -/
theorem Tallied.congr (h : s.Tallied) (hw : WellHeld s'.positions)
    (hlog : s'.transactions = s.transactions)
    (hshares : ∀ v, sharesIn v s'.positions = sharesIn v s.positions) : s'.Tallied := by
  refine ⟨hw, by rw [hlog]; exact h.traded, fun v => ?_, by rw [hlog]; exact h.covered⟩
  rw [heldIn_eq_sharesIn hw, hshares, ← heldIn_eq_sharesIn h.wellHeld, hlog]
  exact h.tally v

/-- **Changes keep the tally** when they trade only texts. -/
theorem Change.tallied (h : s.Tallied) (hc : Change Value.Textual s s') : s'.Tallied := by
  have hw : WellHeld s'.positions := hc.wellHeld h.wellHeld
  cases hc with
  | bought hsym _ hn _ _ hps =>
    refine h.concat hw rfl hn fun v => ?_
    rw [sharesIn_bought hsym hps v]
    simp [Transaction.isSell]
  | sold hsym hp _ hn hle =>
    refine h.concat hw rfl hn fun v => ?_
    show sharesIn v (s.positionsAfterSell _ _ _ _) = _
    rw [sharesIn_sold hsym hp hle v]
    simp [Transaction.isSell]
  | marked hm =>
    refine h.congr hw rfl fun v => ?_
    unfold sharesIn
    exact congrArg List.sum (map_eq_of_marked (fun p q hsym hqty _ => by rw [hsym, hqty]) hm)
  | guarded | noted | measured | dated | ended => exact h.congr hw rfl fun _ => rfl

end Session

/-- **Shares are neither lost nor made.**  After any history of a desk, and at the end of every
replay, a session whose strategy trades texts holds every symbol once and at least one share of it;
every entry of its log is for at least one share; of every symbol it holds what the log bought less
what it sold; and no beginning of the log sold more of a symbol than it bought. -/
theorem holdings_tallied :
    (∀ (strategies : List (Strategy α)) (defaults : Defaults α)
      (history : List (Instant × Operation α)) (id : String) (e : Stored α),
      ((Desk.ofStrategies strategies defaults).run history).store.find? id = some e →
      e.session.strategy.TradesTexts → e.session.Tallied) ∧
    ∀ (now : Instant) (strategy : Strategy α) (options : Options α) (warmup : Int)
      (candles : Candles α) (closeAtEnd : Bool) (r : Replay α),
      Replay.run now strategy options warmup candles closeAtEnd = .ok r →
      strategy.TradesTexts → r.session.Tallied := by
  constructor
  · intro strategies defaults history id e he ht
    exact (Desk.reachable_of_find? he).textual_invariant Session.create_tallied
      (fun _ _ h hc => hc.tallied h) ht
  · intro now strategy options warmup candles closeAtEnd r hr ht
    obtain ⟨id, start, hstart, hevolves⟩ := Replay.run_evolves ht hr
    exact hevolves.preserves (fun _ _ h hc => hc.tallied h) (Session.create_tallied hstart)

/-- Two updates of a stored session, and a replay of two bars. -/
theorem holdings_tallied_of_updates :
    (∃ e : Stored Float, ((Desk.ofStrategies [Desk.steady Desk.buyAndTrim] .standard).run
      (Desk.updates "SPY" [10, 12])).store.find? "ada-steady-0" = some e ∧
        e.session.heldIn (.text "SPY") = 4 ∧ e.session.Tallied) ∧
    letI := Exact.arith id
    ∃ r : Replay Rat, Replay.run ⟨0⟩ (Desk.steady Desk.buyAndTrim) .none 1 (.ofList [("SPY",
      [⟨"", 9, 11, 8, 10, 1⟩, ⟨"", 9, 13, 8, 12, 1⟩])]) true = .ok r ∧
        r.session.transactions.length = 5 ∧ r.session.Tallied := by
  constructor
  · have h : (((Desk.ofStrategies [Desk.steady Desk.buyAndTrim] (.standard : Defaults Float)).run
        (Desk.updates "SPY" [10, 12])).store.find? "ada-steady-0").any (fun e =>
          e.session.strategy.TradesTexts ∧ e.session.heldIn (.text "SPY") = 4) = true := by
      decide +kernel
    obtain ⟨e, he, hdec⟩ := (Option.any_eq_true _ _).mp h
    obtain ⟨ht, hheld⟩ := of_decide_eq_true hdec
    exact ⟨e, he, hheld, holdings_tallied.1 _ _ _ _ e he ht⟩
  · let _ := Exact.arith id
    have h : (Replay.run ⟨0⟩ (Desk.steady Desk.buyAndTrim) .none 1 (.ofList [("SPY",
        [⟨"", 9, 11, 8, 10, 1⟩, ⟨"", 9, 13, 8, 12, (1 : Rat)⟩])]) true).toOption.any (fun r =>
          r.session.transactions.length = 5) = true := by
      decide +kernel
    have ht : (Desk.steady Desk.buyAndTrim : Strategy Rat).TradesTexts := by decide +kernel
    obtain ⟨r, hr, hdec⟩ := (Option.any_eq_true _ _).mp h
    have hr := toOption_eq_some_iff.mp hr
    exact ⟨r, hr, of_decide_eq_true hdec, holdings_tallied.2 _ _ _ _ _ _ r hr ht⟩

end PaperTrading
