import Mathlib.Tactic.FieldSimp
import PaperTrading.Proofs.Indicator.Ranges
import PaperTrading.Proofs.Ledger.Deals

/-!
# The average cost of a position

A buy weighs the price that it pays with the average cost so far, and a sell leaves the average cost
as it is.  Positions are closed and opened again, and the log records the trades in all symbols one
after another; so the prices that count for a position are those of the buys in its symbol since the
log left no share of it for the last time.

* `OpenSince`, `paidIn`: the part of a log during which a position is open, and the prices paid in it.
* `Session.CostWithin`: **an average cost between the least and the greatest price paid.**
* `DealtBy.costWithin`: a trade keeps all average costs between the prices paid.
* `Session.CostsKept`, `Change.costsKept`: **only a buy in its symbol changes an average cost.**
* `average_cost_bounded`: **the average costs of all stored sessions.**
-/

namespace PaperTrading

open Arith

/-! ### The log since a position was opened -/

section Log

variable {α : Type} [Arith α] {v : Value α} {past later : List (Transaction α)} {t : Transaction α}

/-- **The prices that a log paid** for a symbol. -/
def paidIn (symbol : Value α) (log : List (Transaction α)) : List α :=
  (log.filter fun t => !t.isSell && t.symbol.same symbol).map (·.price)

theorem paidIn_append (v : Value α) (xs ys : List (Transaction α)) :
    paidIn v (xs ++ ys) = paidIn v xs ++ paidIn v ys := by
  unfold paidIn
  rw [List.filter_append, List.map_append]

theorem paidIn_single_buy (ht : t.isSell = false) (hv : t.symbol.same v = true) :
    paidIn v [t] = [t.price] := by
  simp [paidIn, ht, hv]

/-- **A position has been open since:** in the end `past` left no share of the symbol, and whatever
followed in `later` left some. -/
structure OpenSince (symbol : Value α) (past later : List (Transaction α)) : Prop where
  opened : balanceIn symbol past = 0
  stayed : ∀ part, part <+: later → part ≠ [] → 0 < balanceIn symbol (past ++ part)

theorem openSince_nil (h : balanceIn v past = 0) : OpenSince v past [] :=
  ⟨h, fun _ hpart hne => absurd (List.prefix_nil.mp hpart) hne⟩

theorem OpenSince.concat (h : OpenSince v past later)
    (ht : 0 < balanceIn v (past ++ (later ++ [t]))) : OpenSince v past (later ++ [t]) := by
  refine ⟨h.opened, fun part hpart hne => ?_⟩
  rcases List.prefix_concat_iff.mp hpart with rfl | hpart
  · exact ht
  · exact h.stayed part hpart hne

end Log

/-! ### Weighted averages -/

/-- A weighted average of two numbers stays between what both are between. -/
theorem averaged_within {window : List Rat} {x y : Rat} {m n : Int} (hm : 1 ≤ m) (hn : 1 ≤ n)
    (hx : Within window x) (hy : Within window y) :
    Within window ((x * m + y * n) / (m + n : Int)) := by
  have hm' : (1 : Rat) ≤ m := by exact_mod_cast hm
  have hn' : (1 : Rat) ≤ n := by exact_mod_cast hn
  have hsum : (0 : Rat) < m + n := by linarith
  have hweight : (n : Rat) / (m + n) ≤ 1 := (div_le_one hsum).mpr (by linarith)
  have hdrawn : (x * m + y * n) / (m + n : Int) = (y - x) * (n / (m + n)) + x := by
    push_cast
    field_simp
    ring
  rw [hdrawn]
  exact drawn_within (div_nonneg (by linarith) hsum.le) hweight hx hy

namespace Session

/-! ### Between the prices paid -/

section Exact

variable {root : Rat → Rat} {s s' : Session Rat} {allowed : Value Rat → Prop} {t : Transaction Rat}
  {p q : Position Rat} {as bs : List (Position Rat)} {old new : Option (Position Rat)}

/-- **An average cost between the prices paid:** it is between the least and the greatest price of
the buys in its symbol since the position was last opened. -/
def CostWithin [Arith Rat] (log : List (Transaction Rat)) (p : Position Rat) : Prop :=
  ∃ past later, log = past ++ later ∧ OpenSince p.symbol past later ∧
    Within (paidIn p.symbol later) p.averageCost

/-- One more transaction, after which shares are left and the average cost is between the prices. -/
theorem CostWithin.concat [Arith Rat] {log : List (Transaction Rat)} (h : CostWithin log p)
    (hsym : q.symbol = p.symbol) (hopen : 0 < balanceIn q.symbol (log ++ [t]))
    (hcost : ∀ prices, Within prices p.averageCost →
      Within (prices ++ paidIn p.symbol [t]) q.averageCost) : CostWithin (log ++ [t]) q := by
  obtain ⟨past, later, rfl, hsince, hwithin⟩ := h
  refine ⟨past, later ++ [t], List.append_assoc .., ?_, ?_⟩
  · rw [hsym] at hopen ⊢
    exact hsince.concat (by rwa [← List.append_assoc])
  · rw [hsym, paidIn_append]
    exact hcost _ hwithin

/-- **A trade keeps all average costs between the prices paid.** -/
theorem DealtBy.costWithin (hcmp : @Value.Comparable Rat (Exact.arith root) allowed)
    (h : @Balanced Rat (Exact.arith root) allowed s)
    (hd : @DealtBy Rat (Exact.arith root) t s s' as bs old new) (ht : allowed t.symbol)
    (hs : ∀ p ∈ s.positions, @CostWithin (Exact.arith root) s.transactions p) :
    ∀ q ∈ s'.positions, @CostWithin (Exact.arith root) s'.transactions q := by
  let _ := Exact.arith root
  intro q hq
  obtain ⟨hone, hbalance⟩ := (hd.balanced hcmp h ht).held q hq
  have hopen : 0 < balanceIn q.symbol s'.transactions := by omega
  rw [hd.logged] at hopen hbalance ⊢
  have hkept : ∀ {c : Rat} {prices : List Rat} (more : List Rat), Within prices c →
      Within (prices ++ more) c := fun more hc => hc.mono (List.subset_append_left _ more)
  rcases hd.mem_after_iff.mp hq with hq | hnew
  · exact (hs q (hd.mem_before_iff.mpr (.inl hq))).concat rfl hopen fun _ => hkept _
  · subst hnew
    cases hd.deal with
    | opened now hbuy =>
      have hclosed : balanceIn t.symbol s.transactions = 0 := by
        have hafter : balanceIn t.symbol (s.transactions ++ [t]) = t.quantity := hbalance
        rw [balanceIn_concat_same (hcmp.refl ht), Transaction.shares, hbuy] at hafter
        simpa using hafter
      refine ⟨s.transactions, [t], rfl, (openSince_nil hclosed).concat hopen, ?_⟩
      · rw [paidIn_single_buy hbuy (hcmp.refl ht)]
        exact within_of_mem (by simp)
    | @enlarged now p cost paid average hbuy hcost hpaid haverage =>
      have hp := hd.mem_before_iff.mpr (.inr rfl)
      refine (hs p hp).concat rfl hopen fun prices hprices => ?_
      obtain rfl := Exact.times_ok_iff.mp hcost
      obtain rfl := Exact.times_ok_iff.mp hpaid
      have hqty := (h.held p hp).1
      have hleast := hd.least
      obtain rfl := (Exact.dividedBy_ok_iff (by omega)).mp haverage
      rw [paidIn_single_buy hbuy (hcmp.symm (h.symbols p hp) ht (hd.found p rfl))]
      exact averaged_within hqty hleast (hkept _ hprices) (within_of_mem (by simp))
    | @lowered now p hsell hleft =>
      have hp := hd.mem_before_iff.mpr (.inr rfl)
      exact (hs p hp).concat rfl hopen fun _ => hkept _

/-- **Positions with their average costs:** they agree with the log, and every average cost is between
the prices paid. -/
structure Costed [Arith Rat] (allowed : Value Rat → Prop) (s : Session Rat) : Prop where
  balanced : s.Balanced allowed
  within : ∀ p ∈ s.positions, CostWithin s.transactions p

theorem create_costed {now : Instant} {id user : String} {strategy : Strategy Rat}
    {options : Options Rat} {defaults : Defaults Rat}
    (h : @create Rat (Exact.arith root) now id user strategy options defaults = .ok s) :
    @Costed (Exact.arith root) allowed s := by
  let _ := Exact.arith root
  obtain ⟨-, -, -, -, -, -, -, hps, -, -, -⟩ := create_ok h
  exact ⟨create_balanced h, by simp [hps]⟩

theorem Change.costed (hcmp : @Value.Comparable Rat (Exact.arith root) allowed)
    (h : @Costed (Exact.arith root) allowed s) (hc : @Change Rat (Exact.arith root) allowed s s') :
    @Costed (Exact.arith root) allowed s' := by
  let _ := Exact.arith root
  refine ⟨hc.balanced hcmp h.balanced, ?_⟩
  rcases hc.deals with ⟨t, as, bs, old, new, ht, hd⟩ | ⟨hlog, hm⟩
  · exact hd.costWithin hcmp h.balanced ht h.within
  · intro q hq
    obtain ⟨p, hp, hpq⟩ := mem_of_marked hm hq
    obtain ⟨hsym, -, hcost⟩ := markedAs_fields hpq
    unfold CostWithin
    rw [hsym, hcost, hlog]
    exact h.within p hp

end Exact

/-! ### What changes an average cost -/

section Kept

variable {α : Type} [Arith α] {s s' s'' : Session α} {allowed : Value α → Prop}
  {new new' : List (Transaction α)}

/-- **Average costs are kept** between two moments of a session, except for what was bought in `new`: a
later position has the symbol and the average cost of an earlier one, or its symbol was bought. -/
def CostsKept (s s' : Session α) (new : List (Transaction α)) : Prop :=
  ∀ q ∈ s'.positions,
    (∃ p ∈ s.positions, q.symbol = p.symbol ∧ q.averageCost = p.averageCost) ∨
      ∃ t ∈ new, t.isSell = false ∧ t.symbol.same q.symbol = true

theorem CostsKept.refl (s : Session α) : CostsKept s s [] := fun q hq => .inl ⟨q, hq, rfl, rfl⟩

theorem CostsKept.trans (h : CostsKept s s' new) (h' : CostsKept s' s'' new') :
    CostsKept s s'' (new ++ new') := by
  intro r hr
  rcases h' r hr with ⟨q, hq, hsym, hcost⟩ | ⟨t, ht, hbuy⟩
  · rcases h q hq with ⟨p, hp, hsym', hcost'⟩ | ⟨t, ht, hbuy⟩
    · exact .inl ⟨p, hp, hsym.trans hsym', hcost.trans hcost'⟩
    · exact .inr ⟨t, List.mem_append_left _ ht, hsym ▸ hbuy⟩
  · exact .inr ⟨t, List.mem_append_right _ ht, hbuy⟩

theorem costsKept_of_marked
    (h : List.Forall₂ Position.MarkedAs s.positions s'.positions) : CostsKept s s' [] := by
  intro q hq
  obtain ⟨p, hp, hpq⟩ := mem_of_marked h hq
  obtain ⟨hsym, -, hcost⟩ := markedAs_fields hpq
  exact .inl ⟨p, hp, hsym, hcost⟩

/-- **Only a buy in its symbol changes an average cost.** -/
theorem Change.costsKept (hcmp : Value.Comparable allowed)
    (hs : ∀ p ∈ s.positions, allowed p.symbol) (hc : Change allowed s s') :
    ∃ new, s'.transactions = s.transactions ++ new ∧ CostsKept s s' new := by
  rcases hc.deals with ⟨t, as, bs, old, new, ht, hd⟩ | ⟨hlog, hm⟩
  · refine ⟨[t], hd.logged, fun q hq => ?_⟩
    rcases hd.mem_after_iff.mp hq with hq | hnew
    · exact .inl ⟨q, hd.mem_before_iff.mpr (.inl hq), rfl, rfl⟩
    · subst hnew
      have hold : ∀ p, old = some p → p ∈ s.positions ∧ t.symbol.same p.symbol = true := by
        intro p hp
        have hps := hd.mem_before_iff.mpr (.inr hp)
        exact ⟨hps, hcmp.symm (hs p hps) ht (hd.found p hp)⟩
      cases hd.deal with
      | opened now hbuy => exact .inr ⟨t, by simp, hbuy, hcmp.refl ht⟩
      | @enlarged now p _ _ _ hbuy => exact .inr ⟨t, by simp, hbuy, (hold p rfl).2⟩
      | @lowered now p => exact .inl ⟨p, (hold p rfl).1, rfl, rfl⟩
  · exact ⟨[], by rw [hlog, List.append_nil], costsKept_of_marked hm⟩

theorem Evolves.costsKept (hcmp : Value.Comparable allowed) (h : s.Balanced allowed)
    (he : Evolves allowed s s') :
    ∃ new, s'.transactions = s.transactions ++ new ∧ CostsKept s s' new := by
  refine (he.preserves (P := fun s' => s'.Balanced allowed ∧
    ∃ new, s'.transactions = s.transactions ++ new ∧ CostsKept s s' new) ?_ ⟨h, [], ?_⟩).2
  · rintro s₁ s₂ ⟨h₁, new, hlog, hkept⟩ hc
    obtain ⟨new', hlog', hkept'⟩ := hc.costsKept hcmp h₁.symbols
    exact ⟨hc.balanced hcmp h₁, new ++ new', by rw [hlog', hlog, List.append_assoc],
      hkept.trans hkept'⟩
  · exact ⟨(List.append_nil _).symm, .refl s⟩

theorem transactions_of_execute {now : Instant} {market : Market α} {signal : Signal α}
    {t : Option (Transaction α)} (h : s.execute now market signal = .ok (s', t)) :
    s'.transactions = s.transactions ++ t.toList := by
  cases execute_ok h with
  | guarded => exact (List.append_nil _).symm
  | bought | sold => rfl

/-- **An executed signal** changes an average cost only if it buys. -/
theorem execute_costsKept {now : Instant} {market : Market α} {signal : Signal α}
    {t : Option (Transaction α)} (hcmp : Value.Comparable allowed)
    (hs : ∀ p ∈ s.positions, allowed p.symbol) (hsym : allowed signal.symbol)
    (h : s.execute now market signal = .ok (s', t)) : CostsKept s s' t.toList := by
  obtain ⟨new, hlog, hkept⟩ := (execute_change hsym h).costsKept hcmp hs
  rw [transactions_of_execute h, List.append_cancel_left_eq] at hlog
  rwa [hlog]

end Kept

end Session

/-! ### The average costs of stored sessions -/

/-- **Average costs stay between the prices paid, and only buys change them.**  In exact arithmetic, in
every session that a desk stores after any history and whose strategy trades proper symbols, as every
strategy of a file does (`Strategy.ofFile_tradesProper`):

* the log splits at the last moment when it left no share of the symbol of a position; it leaves as many
  shares as are held, and the average cost is between the least and the greatest price of the buys in
  that symbol since then;
* whatever happens until any later moment, a position has the symbol and the average cost of one from
  before, unless the log has recorded a buy in its symbol meanwhile.

In any session, an executed signal keeps all average costs except where it buys, and markings and
computations of the figures keep all of them. -/
theorem average_cost_bounded (root : Rat → Rat) :
    letI := Exact.arith root
    (∀ (strategies : List (Strategy Rat)) (defaults : Defaults Rat)
      (history : List (Instant × Operation Rat)) (id : String) (e : Stored Rat),
      ((Desk.ofStrategies strategies defaults).run history).store.find? id = some e →
      e.session.strategy.TradesProper →
      (∀ p ∈ e.session.positions, ∃ past later, e.session.transactions = past ++ later ∧
        OpenSince p.symbol past later ∧ balanceIn p.symbol (past ++ later) = p.quantity ∧
        Within (paidIn p.symbol later) p.averageCost) ∧
      ∀ (more : List (Instant × Operation Rat)) (e' : Stored Rat),
        ((Desk.ofStrategies strategies defaults).run (history ++ more)).store.find? id = some e' →
        e'.ticket = e.ticket → ∃ new, e'.session.transactions = e.session.transactions ++ new ∧
          e.session.CostsKept e'.session new) ∧
    (∀ (now : Instant) (market : Market Rat) (s s' : Session Rat) (signal : Signal Rat)
      (t : Option (Transaction Rat)), (∀ p ∈ s.positions, p.symbol.Proper) → signal.symbol.Proper →
      s.execute now market signal = .ok (s', t) → s.CostsKept s' t.toList) ∧
    (∀ (now : Instant) (market : Market Rat) (s : Session Rat),
      s.CostsKept (Session.revalue now market s).1 []) ∧
    ∀ s s' : Session Rat, s.recompute = .ok s' → s.CostsKept s' [] := by
  let _ := Exact.arith root
  have hcmp := Value.proper_comparable root
  refine ⟨fun strategies defaults history id e he hproper => ?_,
    fun now market s s' signal t hs hsym h => Session.execute_costsKept hcmp hs hsym h,
    fun now market s => Session.costsKept_of_marked (Session.markAll_marked s.positions), ?_⟩
  · have hcosted : e.session.Costed Value.Proper :=
      (Desk.reachable_of_find? he).invariant_of_trades
        Session.create_costed (fun _ _ h hc => hc.costed hcmp h) hproper
    refine ⟨fun p hp => ?_, fun more e' he' ht => ?_⟩
    · obtain ⟨past, later, hlog, hsince, hwithin⟩ := hcosted.within p hp
      exact ⟨past, later, hlog, hsince, hlog ▸ (hcosted.balanced.held p hp).2, hwithin⟩
    · rw [Desk.run_append] at he'
      have hevolves := Desk.evolves_of_ticket_eq (Desk.run_sound _ _ _) he more he' ht
      exact (hevolves.mono hproper).costsKept hcmp hcosted.balanced
  · intro s s' h
    obtain ⟨capital, metrics, -, -, rfl⟩ := Session.recompute_ok h
    exact Session.CostsKept.refl s

/-- Two shares are sold, and two are bought. -/
def turnover {α : Type} : List (Block α) :=
  [Desk.trading "sell" "SPY" 2 [], Desk.trading "buy" "SPY" 2 []]

/-- The first update only buys, at ten; the second one closes the position and opens it anew at twenty,
so that the ten no longer counts; the third one does so at thirty. -/
theorem average_cost_bounded_of_turnover :
    letI := Exact.arith fun x => x
    let desk : Desk Rat := Desk.ofStrategies [Desk.steady turnover] .standard
    let rise := (⟨2⟩, .update "ada-steady-0" (Desk.quoting "SPY" 30) none)
    let offer : Signal Rat := ⟨.text "SPY", some 40, ⟨3⟩, .trade .buy .null (some 1) none none⟩
    ∃ e e' : Stored Rat,
      (desk.run (Desk.updates "SPY" [10, 20])).store.find? "ada-steady-0" = some e ∧
      (desk.run (Desk.updates "SPY" [10, 20] ++ [rise])).store.find? "ada-steady-0" = some e' ∧
      (∃ p ∈ e.session.positions, p.averageCost = 20 ∧
        ∃ past later, e.session.transactions = past ++ later ∧ OpenSince p.symbol past later ∧
          Within (paidIn p.symbol later) 20) ∧
      (∃ new, e'.session.transactions = e.session.transactions ++ new ∧
        e.session.CostsKept e'.session new) ∧
      (∃ s t, e.session.execute ⟨3⟩ .empty offer = .ok (s, t) ∧ e.session.CostsKept s t.toList) ∧
      ∃ s, e.session.recompute = .ok s ∧ e.session.CostsKept s [] := by
  let _ := Exact.arith fun x => x
  intro desk rise offer
  have h : ((desk.run (Desk.updates "SPY" [10, 20])).store.find? "ada-steady-0").any (fun e =>
      e.ticket = 0 ∧ e.session.strategy.TradesTexts ∧
        (∀ p ∈ e.session.positions, p.symbol.Textual) ∧
        (∃ p ∈ e.session.positions, p.averageCost = 20) ∧
        (e.session.execute ⟨3⟩ .empty offer).toOption.isSome ∧
        e.session.recompute.toOption.isSome) = true := by
    decide +kernel
  have h' : ((desk.run (Desk.updates "SPY" [10, 20] ++ [rise])).store.find? "ada-steady-0").any
      (fun e => e.ticket = 0) = true := by
    decide +kernel
  obtain ⟨e, he, hdec⟩ := (Option.any_eq_true _ _).mp h
  obtain ⟨ht, htexts, htextual, ⟨p, hp, hcost⟩, hexecute, hrecompute⟩ := of_decide_eq_true hdec
  obtain ⟨e', he', hdec'⟩ := (Option.any_eq_true _ _).mp h'
  have ht' := of_decide_eq_true hdec'
  obtain ⟨⟨s, t⟩, hs⟩ := Option.isSome_iff_exists.mp hexecute
  obtain ⟨s', hs'⟩ := Option.isSome_iff_exists.mp hrecompute
  have hs := toOption_eq_some_iff.mp hs
  have hs' := toOption_eq_some_iff.mp hs'
  obtain ⟨hstored, hexecuted, -, hmeasured⟩ := average_cost_bounded fun x => x
  obtain ⟨hbounds, hlater⟩ := hstored _ _ _ _ e he htexts.tradesProper
  obtain ⟨past, later, hlog, hsince, -, hwithin⟩ := hbounds p hp
  refine ⟨e, e', he, he', ⟨p, hp, hcost, past, later, hlog, hsince, hcost ▸ hwithin⟩,
    hlater _ e' he' (ht'.trans ht.symm), ⟨s, t, hs, hexecuted _ _ _ _ _ _ ?_ ?_ hs⟩,
    s', hs', hmeasured _ _ hs'⟩
  · intro q hq
    obtain ⟨x, hx⟩ := htextual q hq
    exact hx ▸ .text x
  · exact .text "SPY"

end PaperTrading
