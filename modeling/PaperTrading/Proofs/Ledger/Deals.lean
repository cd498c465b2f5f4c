import PaperTrading.Proofs.Ledger.Holdings
import PaperTrading.Proofs.Value.Equality

/-!
# Deals

Every trade opens a position, enlarges one, lowers one or closes one, and leaves the others alone.  From
this, a session holds every symbol once and agrees with its log about each, whatever values its symbols
are: all that is used of their equality is that it is an equivalence.

* `Session.Deal`, `Session.DealtBy`, `Change.deals`: **what a trade does to the positions.**
* `balanceIn`: the shares of a symbol that a log leaves.
* `Session.Balanced`: **positions in different symbols that agree with the log.**
* `Change.balanced`: changes keep positions balanced.
-/

namespace PaperTrading

open Arith

variable {α : Type} [Arith α]

/-! ### The shares that a log leaves -/

/-- **The shares of a symbol that a log leaves:** those that it bought, less those that it sold. -/
def balanceIn (symbol : Value α) (log : List (Transaction α)) : Int :=
  boughtIn symbol log - soldIn symbol log

omit [Arith α] in
/-- The shares that a transaction adds. -/
def Transaction.shares (t : Transaction α) : Int := if t.isSell then -t.quantity else t.quantity

theorem balanceIn_concat (v : Value α) (log : List (Transaction α)) (t : Transaction α) :
    balanceIn v (log ++ [t]) = balanceIn v log + if t.symbol.same v then t.shares else 0 := by
  unfold balanceIn Transaction.shares
  rw [boughtIn_concat, soldIn_concat]
  cases t.isSell <;> cases t.symbol.same v <;> simp <;> omega

theorem balanceIn_concat_same {v : Value α} {t : Transaction α} (h : t.symbol.same v = true)
    (log : List (Transaction α)) : balanceIn v (log ++ [t]) = balanceIn v log + t.shares := by
  rw [balanceIn_concat, if_pos h]

theorem balanceIn_concat_other {v : Value α} {t : Transaction α} (h : t.symbol.same v = false)
    (log : List (Transaction α)) : balanceIn v (log ++ [t]) = balanceIn v log := by
  rw [balanceIn_concat, h]
  exact Int.add_zero _

/-- Of two symbols that are the same, a log leaves as many shares. -/
theorem balanceIn_congr {v w : Value α} {log : List (Transaction α)}
    (h : ∀ t ∈ log, t.symbol.same v = t.symbol.same w) : balanceIn v log = balanceIn w log := by
  induction log using List.reverseRecOn with
  | nil => rfl
  | append_singleton log t ih =>
    rw [balanceIn_concat, balanceIn_concat, h t (by simp),
      ih fun u hu => h u (List.mem_append_left _ hu)]

namespace Session

variable {s s' : Session α} {allowed : Value α → Prop} {t : Transaction α} {v : Value α}
  {p q : Position α} {as bs : List (Position α)} {old new : Option (Position α)}

/-! ### Around one item of a list -/

section Items

variable {β : Type} {as bs : List β} {x : β}

theorem mem_around_iff {o : Option β} : x ∈ as ++ o.toList ++ bs ↔ x ∈ as ++ bs ∨ o = some x := by
  cases o with
  | none => simp
  | some y =>
    simp only [Option.toList_some, List.mem_append, List.mem_singleton, Option.some.injEq]
    rw [or_right_comm, @eq_comm β x]

/-- What holds of each pair in a list, holds of the pairs around an item and of those with it. -/
theorem pairwise_around {R : β → β → Prop} : (as ++ x :: bs).Pairwise R ↔
    (as ++ bs).Pairwise R ∧ (∀ a ∈ as, R a x) ∧ ∀ b ∈ bs, R x b := by
  simp only [List.pairwise_append, List.pairwise_cons, List.forall_mem_cons]
  grind

end Items

/-! ### What a trade does to the positions -/

/-- **What a trade does to one position:** a buy opens it or enlarges it, a sell lowers it or closes
it. -/
inductive Deal (t : Transaction α) : Option (Position α) → Option (Position α) → Prop
  | opened (now : Instant) (ht : t.isSell = false) :
      Deal t none (some ⟨t.symbol, t.quantity, t.price, t.price, now, now⟩)
  | enlarged (now : Instant) {p : Position α} {cost paid average : α} (ht : t.isSell = false)
      (hcost : times t.price t.quantity = .ok cost)
      (hpaid : times p.averageCost p.quantity = .ok paid)
      (haverage : dividedBy (paid + cost) (p.quantity + t.quantity) = .ok average) :
      Deal t (some p) (some { p with
        averageCost := average, quantity := p.quantity + t.quantity, lastUpdated := now })
  | lowered (now : Instant) {p : Position α} (ht : t.isSell = true)
      (hleft : t.quantity < p.quantity) :
      Deal t (some p) (some { p with quantity := p.quantity - t.quantity, lastUpdated := now })
  | closed {p : Position α} (ht : t.isSell = true) (hall : t.quantity = p.quantity) :
      Deal t (some p) none

/-- The shares of a position, if there is one. -/
def sharesOf (p : Option (Position α)) : Int := p.elim 0 (·.quantity)

theorem Deal.shares (h : Deal t old new) : sharesOf old + t.shares = sharesOf new := by
  unfold Transaction.shares sharesOf
  cases h with
  | opened _ ht => simp [ht]
  | enlarged _ ht => simp [ht]
  | lowered _ ht => simp [ht, sub_eq_add_neg]
  | closed ht hall => simp [ht, hall]

/-- A trade leaves a position of at least one share behind, or none. -/
theorem Deal.pos (h : Deal t old new) (ht : 1 ≤ t.quantity)
    (hold : ∀ p, old = some p → 1 ≤ p.quantity) (hq : new = some q) : 1 ≤ q.quantity := by
  subst hq
  cases h with
  | opened => exact ht
  | @enlarged _ p =>
    have := hold p rfl
    show 1 ≤ p.quantity + t.quantity
    omega
  | @lowered _ p _ hleft =>
    show 1 ≤ p.quantity - t.quantity
    omega

/-- **A trade in its place:** it goes on record, and of the positions only the one in its symbol is
another one than before.  A position that was not there joins at the end. -/
structure DealtBy (t : Transaction α) (s s' : Session α) (as bs : List (Position α))
    (old new : Option (Position α)) : Prop where
  deal : Deal t old new
  least : 1 ≤ t.quantity
  logged : s'.transactions = s.transactions ++ [t]
  before : s.positions = as ++ old.toList ++ bs
  after : s'.positions = as ++ new.toList ++ bs
  found : ∀ p, old = some p → p.symbol.same t.symbol = true
  joins : old = none → bs = [] ∧ ∀ a ∈ as, a.symbol.same t.symbol = false

theorem DealtBy.mem_before_iff (hd : DealtBy t s s' as bs old new) :
    q ∈ s.positions ↔ q ∈ as ++ bs ∨ old = some q := by rw [hd.before, mem_around_iff]

theorem DealtBy.mem_after_iff (hd : DealtBy t s s' as bs old new) :
    q ∈ s'.positions ↔ q ∈ as ++ bs ∨ new = some q := by rw [hd.after, mem_around_iff]

/-- **A change is a trade in its place,** or it leaves the log as it is and marks the positions at
most. -/
theorem Change.deals (hc : Change allowed s s') :
    (∃ t as bs old new, allowed t.symbol ∧ DealtBy t s s' as bs old new) ∨
      s'.transactions = s.transactions ∧
        List.Forall₂ Position.MarkedAs s.positions s'.positions := by
  have hrefl : List.Forall₂ Position.MarkedAs s.positions s.positions :=
    List.forall₂_same.mpr fun _ _ => .inl rfl
  cases hc with
  | @bought now symbol n price cost positions hsym _ hn hcost _ hps =>
    refine .inl ⟨⟨symbol, n, price, cost, now, none⟩, ?_⟩
    rcases positionsAfterBuy_ok hps with
      ⟨hnone, rfl⟩ | ⟨p, as, bs, paid, average, hp, hs, hpaid, haverage, rfl⟩
    · exact ⟨s.positions, [], none, _, hsym, .opened now rfl, hn, rfl, by simp, by simp,
        (fun _ h => nomatch h), fun _ => ⟨rfl, not_same_of_positionIn hnone⟩⟩
    · refine ⟨as, bs, some p, _, hsym, .enlarged now rfl hcost hpaid haverage, hn, rfl,
        by simpa using hs, by simp, fun q hq => ?_, fun h => nomatch h⟩
      cases hq
      exact same_of_positionIn hp
  | @sold now symbol p n price value profit hsym hp _ hn hle =>
    refine .inl ⟨⟨symbol, n, price, value, now, some profit⟩, ?_⟩
    obtain ⟨as, bs, hs, hnew⟩ := positionsAfterSell_eq now n hp
    have hfound : ∀ q, some p = some q → q.symbol.same symbol = true := by
      intro q hq
      cases hq
      exact same_of_positionIn hp
    by_cases hleft : p.quantity - n ≤ 0
    · rw [if_pos hleft] at hnew
      exact ⟨as, bs, some p, none, hsym, .closed rfl (show n = p.quantity by omega), hn, rfl,
        by simpa using hs, hnew, hfound, fun h => nomatch h⟩
    · rw [if_neg hleft] at hnew
      exact ⟨as, bs, some p, _, hsym, .lowered now rfl (show n < p.quantity by omega), hn, rfl,
        by simpa using hs, hnew, hfound, fun h => nomatch h⟩
  | marked h => exact .inr ⟨rfl, h⟩
  | guarded | noted | measured | dated | ended => exact .inr ⟨rfl, hrefl⟩

/-! ### Balanced positions -/

/-- **Positions in different symbols that agree with the log:** of each, as many shares are held as the
log leaves, at least one, and of any other symbol the log leaves none. -/
structure Balanced (allowed : Value α → Prop) (s : Session α) : Prop where
  symbols : ∀ p ∈ s.positions, allowed p.symbol
  traded : ∀ t ∈ s.transactions, allowed t.symbol
  distinct : (s.positions.map (·.symbol)).Pairwise fun v w => v.same w = false
  held : ∀ p ∈ s.positions, 1 ≤ p.quantity ∧ balanceIn p.symbol s.transactions = p.quantity
  others : ∀ v, allowed v → (∀ p ∈ s.positions, p.symbol.same v = false) →
    balanceIn v s.transactions = 0

theorem create_balanced {now : Instant} {id user : String} {strategy : Strategy α}
    {options : Options α} {defaults : Defaults α}
    (h : create now id user strategy options defaults = .ok s) : s.Balanced allowed := by
  obtain ⟨-, -, -, -, -, -, -, hps, hlog, -, -⟩ := create_ok h
  constructor <;> simp [hps, hlog, balanceIn, boughtIn_nil, soldIn_nil]

/-- Markings leave positions balanced. -/
theorem Balanced.marked (h : s.Balanced allowed) (hlog : s'.transactions = s.transactions)
    (hm : List.Forall₂ Position.MarkedAs s.positions s'.positions) : s'.Balanced allowed := by
  refine ⟨fun q hq => ?_, by rw [hlog]; exact h.traded, ?_, fun q hq => ?_, fun v hv hnone => ?_⟩
  · obtain ⟨p, hp, hpq⟩ := mem_of_marked hm hq
    rw [(markedAs_fields hpq).1]
    exact h.symbols p hp
  · rw [map_eq_of_marked (fun _ _ hsym _ _ => hsym) hm]
    exact h.distinct
  · obtain ⟨p, hp, hpq⟩ := mem_of_marked hm hq
    obtain ⟨hsym, hqty, -⟩ := markedAs_fields hpq
    rw [hsym, hqty, hlog]
    exact h.held p hp
  · rw [hlog]
    refine h.others v hv fun p hp => ?_
    have hmem : p.symbol ∈ s'.positions.map (·.symbol) := by
      rw [map_eq_of_marked (fun _ _ hsym _ _ => hsym) hm]
      exact List.mem_map_of_mem hp
    obtain ⟨q, hq, hsym⟩ := List.mem_map.mp hmem
    exact hsym ▸ hnone q hq

section Deals

variable (hcmp : Value.Comparable allowed) (h : s.Balanced allowed)
  (hd : DealtBy t s s' as bs old new) (ht : allowed t.symbol)
include hcmp h hd ht

/-- Around the position of a trade, all symbols are others. -/
theorem DealtBy.ne_around : ∀ q ∈ as ++ bs, q.symbol.same t.symbol = false := by
  intro q hq
  cases old with
  | none =>
    obtain ⟨rfl, hall⟩ := hd.joins rfl
    exact hall q (by simpa using hq)
  | some p =>
    have hp := h.symbols p (hd.mem_before_iff.mpr (.inr rfl))
    have hq' := h.symbols q (hd.mem_before_iff.mpr (.inl hq))
    have hdistinct := h.distinct
    rw [List.pairwise_map, hd.before, Option.toList_some, List.append_assoc, List.singleton_append,
      pairwise_around] at hdistinct
    rw [← hcmp.congr hq' hp ht (hd.found p rfl)]
    rcases List.mem_append.mp hq with hq | hq
    · exact hdistinct.2.1 q hq
    · rw [hcmp.comm hq' hp]
      exact hdistinct.2.2 q hq

/-- The position that a trade leaves behind is in its symbol. -/
theorem DealtBy.new_symbol (hq : new = some q) :
    allowed q.symbol ∧ q.symbol.same t.symbol = true := by
  have hold : ∀ p, old = some p → allowed p.symbol ∧ p.symbol.same t.symbol = true := fun p hp =>
    ⟨h.symbols p (hd.mem_before_iff.mpr (.inr hp)), hd.found p hp⟩
  subst hq
  cases hd.deal with
  | opened => exact ⟨ht, hcmp.refl ht⟩
  | @enlarged _ p | @lowered _ p => exact hold p rfl

theorem DealtBy.symbols : ∀ q ∈ s'.positions, allowed q.symbol := by
  intro q hq
  rcases hd.mem_after_iff.mp hq with hq | hq
  · exact h.symbols q (hd.mem_before_iff.mpr (.inl hq))
  · exact (hd.new_symbol hcmp h ht hq).1

theorem DealtBy.distinct :
    (s'.positions.map (·.symbol)).Pairwise fun v w => v.same w = false := by
  have hne := hd.ne_around hcmp h ht
  have haround : (as ++ bs).Pairwise fun p q => p.symbol.same q.symbol = false := by
    have hdistinct := h.distinct
    rw [List.pairwise_map, hd.before] at hdistinct
    exact hdistinct.sublist ((List.sublist_append_left as _).append_right bs)
  rw [List.pairwise_map, hd.after]
  cases hnew : new with
  | none => simpa using haround
  | some q =>
    obtain ⟨hq, hqt⟩ := hd.new_symbol hcmp h ht hnew
    rw [Option.toList_some, List.append_assoc, List.singleton_append, pairwise_around]
    have hother : ∀ r ∈ as ++ bs, r.symbol.same q.symbol = false := fun r hr => by
      have hr' := h.symbols r (hd.mem_before_iff.mpr (.inl hr))
      rw [hcmp.congr hr' hq ht hqt]
      exact hne r hr
    refine ⟨haround, fun a ha => hother a (List.mem_append_left _ ha), fun b hb => ?_⟩
    have hb' := h.symbols b (hd.mem_before_iff.mpr (.inl (List.mem_append_right _ hb)))
    rw [hcmp.comm hq hb']
    exact hother b (List.mem_append_right _ hb)

/-- **After a trade,** the log leaves as many shares of its symbol as the position has that the trade
leaves behind. -/
theorem DealtBy.balance (hv : allowed v) (htv : t.symbol.same v = true) :
    balanceIn v s'.transactions = sharesOf new := by
  have hbefore : balanceIn v s.transactions = sharesOf old := by
    cases hold : old with
    | none =>
      obtain ⟨rfl, hall⟩ := hd.joins hold
      refine h.others v hv fun p hp => ?_
      have hp' : p ∈ as := by simpa [hd.before, hold] using hp
      rw [← hcmp.congr (h.symbols p hp) ht hv htv]
      exact hall p hp'
    | some p =>
      have hp := hd.mem_before_iff.mpr (.inr hold)
      have hpv := hcmp.trans (h.symbols p hp) ht hv (hd.found p hold) htv
      rw [balanceIn_congr fun u hu => (hcmp.congr (h.traded u hu) (h.symbols p hp) hv hpv).symm]
      exact (h.held p hp).2
  rw [hd.logged, balanceIn_concat_same htv, hbefore, hd.deal.shares]

/-- **After a trade,** every position agrees with the log. -/
theorem DealtBy.held : ∀ q ∈ s'.positions,
    1 ≤ q.quantity ∧ balanceIn q.symbol s'.transactions = q.quantity := by
  intro q hq
  rcases hd.mem_after_iff.mp hq with hq | hnew
  · have hqs := hd.mem_before_iff.mpr (.inl hq)
    have hother : t.symbol.same q.symbol = false := by
      rw [hcmp.comm ht (h.symbols q hqs)]
      exact hd.ne_around hcmp h ht q hq
    rw [hd.logged, balanceIn_concat_other hother]
    exact h.held q hqs
  · obtain ⟨hqa, hqt⟩ := hd.new_symbol hcmp h ht hnew
    refine ⟨hd.deal.pos hd.least (fun p hp => ?_) hnew, ?_⟩
    · exact (h.held p (hd.mem_before_iff.mpr (.inr hp))).1
    · rw [hd.balance hcmp h ht hqa (hcmp.symm hqa ht hqt), hnew]
      rfl

/-- **After a trade,** the log leaves no share of a symbol without a position. -/
theorem DealtBy.others (hv : allowed v) (hnone : ∀ p ∈ s'.positions, p.symbol.same v = false) :
    balanceIn v s'.transactions = 0 := by
  by_cases htv : t.symbol.same v = true
  · rw [hd.balance hcmp h ht hv htv]
    cases hnew : new with
    | none => rfl
    | some q =>
      obtain ⟨hqa, hqt⟩ := hd.new_symbol hcmp h ht hnew
      have hqv := hnone q (hd.mem_after_iff.mpr (.inr hnew))
      rw [hcmp.trans hqa ht hv hqt htv] at hqv
      cases hqv
  · have htv := Bool.eq_false_iff.mpr htv
    rw [hd.logged, balanceIn_concat_other htv]
    refine h.others v hv fun p hp => ?_
    rcases hd.mem_before_iff.mp hp with hp' | hold
    · exact hnone p (hd.mem_after_iff.mpr (.inl hp'))
    · have hp := h.symbols p hp
      rw [hcmp.comm hp hv, hcmp.congr hv hp ht (hd.found p hold), hcmp.comm hv ht]
      exact htv

/-- **A trade keeps positions balanced.** -/
theorem DealtBy.balanced : s'.Balanced allowed where
  symbols := hd.symbols hcmp h ht
  traded := by
    rw [hd.logged]
    exact List.forall_mem_append.mpr ⟨h.traded, List.forall_mem_singleton.mpr ht⟩
  distinct := hd.distinct hcmp h ht
  held := hd.held hcmp h ht
  others _ := hd.others hcmp h ht

end Deals

/-- **Changes keep positions balanced.** -/
theorem Change.balanced (hcmp : Value.Comparable allowed) (h : s.Balanced allowed)
    (hc : Change allowed s s') : s'.Balanced allowed := by
  rcases hc.deals with ⟨t, as, bs, old, new, ht, hd⟩ | ⟨hlog, hm⟩
  · exact hd.balanced hcmp h ht
  · exact h.marked hlog hm

end Session

end PaperTrading
