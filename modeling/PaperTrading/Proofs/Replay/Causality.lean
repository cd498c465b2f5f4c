import PaperTrading.Number.Exact
import PaperTrading.Proofs.Desk.History
import PaperTrading.Replay.Run

/-!
# Replays do not look ahead

At a bar a replay knows the candles up to that bar and nothing of those behind it.  Two replays over
candles that agree on their first bars are therefore the same replay for as long as those bars last,
whatever comes after.

* `Candles.marketAt_eq`: what is seen at a bar among those on which the candles agree.
* `cycles_mono`, `cycles_congr`: the cycles of a run, over more bars and over other candles.
* `afterBar`: the session after the update cycle of a bar.
* `no_lookahead`: **the sessions and the equity curves of two replays** agree as far as the candles
  do.
-/

namespace PaperTrading

variable {α : Type}

/-! ### Candles that agree on their first bars -/

namespace Candles

/-- A quote is made from the bars up to its own. -/
theorem quoteAt_take {index k : Nat} (h : index < k) (series : List (Candle α)) :
    quoteAt index (series.take k) = quoteAt index series := by
  simp only [quoteAt, List.take_take, Nat.min_eq_left (Nat.succ_le_of_lt h)]

/-- **What is seen at a bar** among those on which the candles agree. -/
theorem marketAt_eq {A B : Candles α} {k : Nat} (h : A.map (List.take k) = B.map (List.take k))
    {index : Nat} (hi : index < k) : A.marketAt index = B.marketAt index := by
  have hsee : ∀ C : Candles α, C.marketAt index = (C.map (List.take k)).map (quoteAt index) := by
    intro C
    rw [Table.map_map, marketAt]
    exact congrArg (Table.map · C) (funext fun series => (quoteAt_take hi series).symm)
  rw [hsee A, hsee B, h]

end Candles

namespace Replay

/-! ### The bars of a replay -/

/-- The bars of a longer replay begin with those of a shorter one. -/
theorem indices_mono (warmup : Int) {k n : Nat} (h : k ≤ n) :
    indices warmup k <+: indices warmup n := by
  obtain ⟨m, rfl⟩ := Nat.exists_eq_add_of_le h
  unfold indices
  rw [List.range_add, List.drop_append]
  exact List.prefix_append _ _

theorem lt_of_mem_indices {warmup : Int} {k i : Nat} (h : i ∈ indices warmup k) : i < k :=
  List.mem_range.mp (List.mem_of_mem_drop h)

theorem mem_indices {warmup : Int} {k i : Nat} (hi : i < k) (hw : warmup ≤ i + 1) :
    i ∈ indices warmup k := by
  refine List.mem_drop_iff_getElem.mpr ⟨i - (warmup - 1).toNat, ?_, ?_⟩
  · rw [List.length_range]; omega
  · rw [List.getElem_range]; omega

theorem length_indices (warmup : Int) (k : Nat) :
    (indices warmup k).length = k - (warmup - 1).toNat := by
  rw [indices, List.length_drop, List.length_range]

variable [Arith α] {now : Instant} {A B : Candles α} {s : Session α}

/-! ### The cycles of a replay -/

theorem length_cycles (C : Candles α) (s : Session α) (is : List Nat) :
    (cycles now C s is).length = is.length := by
  induction is generalizing s with
  | nil => rfl
  | cons i is ih => rw [cycles, List.length_cons, List.length_cons, ih]

/-- The cycles over more bars begin with those over fewer. -/
theorem cycles_mono (now : Instant) (C : Candles α) (s : Session α) {is js : List Nat}
    (h : is <+: js) : cycles now C s is <+: cycles now C s js := by
  obtain ⟨ks, rfl⟩ := h
  induction is generalizing s with
  | nil => exact List.nil_prefix
  | cons i is ih => exact (List.prefix_cons_inj _).mpr (ih _)

/-- Cycles over bars at which the same market is seen. -/
theorem cycles_congr (now : Instant) (s : Session α) {is : List Nat}
    (h : ∀ i ∈ is, A.marketAt i = B.marketAt i) : cycles now A s is = cycles now B s is := by
  induction is generalizing s with
  | nil => rfl
  | cons i is ih =>
    have hstep : cycleAt now A s i = cycleAt now B s i := by
      rw [cycleAt, cycleAt, h i List.mem_cons_self]
    rw [cycles, cycles, hstep]
    exact congrArg _ (ih _ fun j hj => h j (List.mem_cons_of_mem _ hj))

/-! ### The sessions of a replay, bar by bar -/

/-- The bars of a run, each with the session after its update cycle. -/
def timeline (now : Instant) (C : Candles α) (s : Session α) (is : List Nat) :
    List (Nat × Session α) := is.zip (cycles now C s is)

/-- **The session after the update cycle of a bar;** none if there is no cycle at the bar. -/
def afterBar (now : Instant) (C : Candles α) (warmup : Int) (s : Session α) (bar : Nat) :
    Option (Session α) := (timeline now C s (indices warmup C.bars)).lookup bar

theorem timeline_mono (now : Instant) (C : Candles α) (s : Session α) {is js : List Nat}
    (h : is <+: js) : timeline now C s is <+: timeline now C s js := by
  obtain ⟨later, hlater⟩ := cycles_mono now C s h
  obtain ⟨ks, rfl⟩ := h
  rw [timeline, timeline, ← hlater, List.zip_append (length_cycles C s is).symm]
  exact List.prefix_append _ _

/-- Among its first bars, a replay is known from these bars alone. -/
theorem afterBar_of_timeline {C : Candles α} {k : Nat} (hk : k ≤ C.bars) {warmup : Int} {bar : Nat}
    {x : Session α} (h : (timeline now C s (indices warmup k)).lookup bar = some x) :
    afterBar now C warmup s bar = some x := by
  obtain ⟨later, hlater⟩ := timeline_mono now C s (indices_mono warmup hk)
  rw [afterBar, ← hlater, List.lookup_append, h]
  rfl

/-- Every bar from the end of the warm-up on has a session. -/
theorem exists_lookup_timeline (now : Instant) (C : Candles α) (s : Session α) {warmup : Int}
    {k bar : Nat} (hb : bar < k) (hw : warmup ≤ bar + 1) :
    ∃ x, (timeline now C s (indices warmup k)).lookup bar = some x := by
  have hbars : (timeline now C s (indices warmup k)).map Prod.fst = indices warmup k :=
    List.map_fst_zip (Nat.le_of_eq (length_cycles C s _).symm)
  have hmem := mem_indices hb hw
  rw [← hbars] at hmem
  obtain ⟨p, hp, hbar⟩ := List.mem_map.mp hmem
  exact Option.isSome_iff_exists.mp (List.lookup_isSome_iff.mpr ⟨p, hp, beq_iff_eq.mpr hbar.symm⟩)

theorem timeline_congr {k : Nat} (h : A.map (List.take k) = B.map (List.take k)) (warmup : Int) :
    timeline now A s (indices warmup k) = timeline now B s (indices warmup k) := by
  have hsee : ∀ i ∈ indices warmup k, A.marketAt i = B.marketAt i := fun i hi =>
    Candles.marketAt_eq h (lt_of_mem_indices hi)
  rw [timeline, timeline, cycles_congr now s hsee]

/-! ### Replays that finish -/

omit [Arith α] in
theorem one_le_of_checkWarmup {warmup : Int} {u : Unit} (h : checkWarmup warmup = .ok u) :
    1 ≤ warmup := by
  unfold checkWarmup at h
  split at h
  · cases h
  · omega

/-- A replay that finishes has started, and its equity curve begins with the capital at the start
and after each of the cycles over its first bars. -/
theorem run_ok {strategy : Strategy α} {options : Options α} {warmup : Int} {C : Candles α}
    {closeAtEnd : Bool} {r : Replay α} {k : Nat} (hk : k ≤ C.bars)
    (h : run now strategy options warmup C closeAtEnd = .ok r) :
    1 ≤ warmup ∧ ∃ start, initial now strategy (optionsFor options C) = .ok start ∧
      (start :: cycles now C start (indices warmup k)).map (·.currentCapital) <+:
        r.equityCurve := by
  simp only [run, bind_ok_iff, refuse_ok_iff, pure_ok_iff] at h
  obtain ⟨_, hwarm, -, start, hstart, sessions, hcourse, -, -, rfl⟩ := h
  have hcycles : start :: cycles now C start (indices warmup C.bars) <+: sessions := by
    unfold course at hcourse
    dsimp only at hcourse
    split at hcourse
    · simp only [bind_ok_iff, pure_ok_iff] at hcourse
      obtain ⟨closed, -, rfl⟩ := hcourse
      exact List.prefix_append _ _
    · rw [pure_ok_iff] at hcourse
      exact hcourse ▸ List.prefix_rfl
  have hfirst := (List.prefix_cons_inj start).mpr
    (cycles_mono now C start (indices_mono warmup hk))
  exact ⟨one_le_of_checkWarmup hwarm, start, hstart, (hfirst.trans hcycles).map _⟩

omit [Arith α] in
/-- The symbols of the candles are the same, and so are the options. -/
theorem optionsFor_eq {k : Nat} (h : A.map (List.take k) = B.map (List.take k))
    (options : Options α) : optionsFor options A = optionsFor options B := by
  have hkeys : A.keys = B.keys := by
    rw [← Table.keys_map (List.take k) A, h, Table.keys_map]
  rw [optionsFor, optionsFor, hkeys]

/-- **Replays do not look ahead.**  Of two replays over candles that agree on their first `k` bars,
the session after every cycle at one of these bars is the same, and the equity curves begin with the
same capital at the start and after these cycles. -/
theorem no_lookahead {k : Nat} {strategy : Strategy α} {options : Options α} {warmup : Int}
    {closeA closeB : Bool} {a b : Replay α} (hA : k ≤ A.bars) (hB : k ≤ B.bars)
    (h : A.map (List.take k) = B.map (List.take k))
    (ha : run now strategy options warmup A closeA = .ok a)
    (hb : run now strategy options warmup B closeB = .ok b) :
    (∃ start, initial now strategy (optionsFor options A) = .ok start ∧
      initial now strategy (optionsFor options B) = .ok start ∧
      ∀ bar < k, warmup ≤ bar + 1 → ∃ x, afterBar now A warmup start bar = some x ∧
        afterBar now B warmup start bar = some x) ∧
    ∃ past : List α, past.length = 1 + (k - warmup + 1).toNat ∧ past <+: a.equityCurve ∧
      past <+: b.equityCurve := by
  obtain ⟨hwarm, start, hstart, hcurve⟩ := run_ok hA ha
  obtain ⟨-, start', hstart', hcurve'⟩ := run_ok hB hb
  have hsame := hstart'
  rw [← optionsFor_eq h options, hstart] at hsame
  cases hsame
  have hcycles : cycles now A start (indices warmup k) = cycles now B start (indices warmup k) :=
    cycles_congr now start fun i hi => Candles.marketAt_eq h (lt_of_mem_indices hi)
  refine ⟨⟨start, hstart, hstart', fun bar hbar hw => ?_⟩, _, ?_, hcurve, hcycles ▸ hcurve'⟩
  · obtain ⟨x, hx⟩ := exists_lookup_timeline now A start hbar hw
    refine ⟨x, afterBar_of_timeline hA hx, afterBar_of_timeline hB ?_⟩
    rw [← timeline_congr h]
    exact hx
  · rw [List.length_map, List.length_cons, length_cycles, length_indices]
    omega

/-- Candles of one symbol with these closes. -/
def recorded (closes : List Rat) : Candles Rat :=
  ⟨[("SPY", closes.map fun close => ⟨"", 9, 20, 8, close, 1⟩)]⟩

/-- Three bars, and four that begin with the same two. -/
theorem no_lookahead_of_two_bars :
    letI := Exact.arith id
    ∃ a b : Replay Rat,
      run ⟨0⟩ (Desk.steady Desk.buyAndTrim) .none 1 (recorded [10, 12, 11]) true = .ok a ∧
      run ⟨0⟩ (Desk.steady Desk.buyAndTrim) .none 1 (recorded [10, 12, 15, 9]) true = .ok b ∧
      a.equityCurve.length = 5 ∧ b.equityCurve.length = 6 ∧
      ∃ past : List Rat, past.length = 3 ∧ past <+: a.equityCurve ∧ past <+: b.equityCurve := by
  let _ := Exact.arith id
  have ha : (run ⟨0⟩ (Desk.steady Desk.buyAndTrim) .none 1 (recorded [10, 12, 11])
      true).toOption.any (fun r => r.equityCurve.length = 5) = true := by
    decide +kernel
  have hb : (run ⟨0⟩ (Desk.steady Desk.buyAndTrim) .none 1 (recorded [10, 12, 15, 9])
      true).toOption.any (fun r => r.equityCurve.length = 6) = true := by
    decide +kernel
  obtain ⟨a, ha, hlenA⟩ := (Option.any_eq_true _ _).mp ha
  obtain ⟨b, hb, hlenB⟩ := (Option.any_eq_true _ _).mp hb
  have ha := toOption_eq_some_iff.mp ha
  have hb := toOption_eq_some_iff.mp hb
  have hagree : (recorded [10, 12, 11]).map (List.take 2) =
      (recorded [10, 12, 15, 9]).map (List.take 2) := rfl
  obtain ⟨-, hpast⟩ := no_lookahead (by decide) (by decide) hagree ha hb
  exact ⟨a, b, ha, hb, of_decide_eq_true hlenA, of_decide_eq_true hlenB, hpast⟩

end Replay

end PaperTrading
