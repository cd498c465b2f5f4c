import PaperTrading.Proofs.Desk.History
import PaperTrading.Proofs.Ledger.Positions
import PaperTrading.Replay.Run

/-!
# Replays as sequences of changes

A replay is one session from its creation on: update cycles, bar by bar, and then perhaps a sale of
all that it holds.  Both are sequences of changes, so that what every change keeps holds at the end
of a replay.

* `cycles_evolves`, `close_evolves`: the cycles and the final sale.
* `run_evolves`: **a replay that finishes** ends with a session that has evolved from a new one.
-/

namespace PaperTrading

namespace Replay

open Session Relation

variable {α : Type} [Arith α] {now : Instant} {candles : Candles α} {s s' : Session α}
  {allowed : Value α → Prop}

/-- Every session of the cycles has evolved from the first one. -/
theorem cycles_evolves {indices : List Nat} {x : Session α}
    (hx : x ∈ cycles now candles s indices) :
    Evolves s.strategy.Trades s x := by
  induction indices generalizing s with
  | nil => simp [cycles] at hx
  | cons index indices ih =>
    have h : Evolves s.strategy.Trades s (cycleAt now candles s index) := cycle_evolves _ _ _
    have hstr : (cycleAt now candles s index).strategy = s.strategy :=
      congrArg (·.2.2.1) h.charter
    rcases List.mem_cons.mp hx with rfl | hx
    · exact h
    · have htail := ih hx
      rw [hstr] at htail
      exact h.trans htail

omit [Arith α] in
theorem symbol_of_closingSignal {market : Market α} {p : Position α} {signal : Signal α}
    (h : closingSignal now market p = .ok (some signal)) : signal.symbol = p.symbol := by
  unfold closingSignal at h
  simp only [bind_ok_iff, pure_ok_iff, Option.map_eq_some_iff] at h
  obtain ⟨quote, -, quote', -, rfl⟩ := h
  rfl

/-- **The final sale** trades the symbols of the positions. -/
theorem close_evolves {market : Market α} (hsym : ∀ p ∈ s.positions, allowed p.symbol)
    (h : close now market s = .ok s') : Evolves allowed s s' := by
  unfold close at h
  obtain ⟨signals, hsignals, h⟩ := bind_ok_iff.mp h
  have hsold : Evolves allowed s
      (s.executeAll now market (signals.filterMap fun signal => signal)).1 := by
    refine executeAll_evolves fun signal hm => ?_
    obtain ⟨o, ho, hs⟩ := List.mem_filterMap.mp hm
    subst hs
    obtain ⟨p, hp, hc⟩ := mem_of_mapM_ok hsignals ho
    rw [symbol_of_closingSignal hc]
    exact hsym p hp
  split at h
  · cases h
  · next s₁ _ heq =>
    rw [heq] at hsold
    exact hsold.tail (recompute_change h)

/-- **The sessions of a replay** have evolved from the first one and trade texts only. -/
theorem course_evolves {warmup : Int} {closeAtEnd : Bool} {sessions : List (Session α)}
    (ht : s.strategy.TradesTexts) (hw : WellHeld s.positions)
    (h : course now candles warmup closeAtEnd s = .ok sessions) {x : Session α}
    (hx : x ∈ sessions) : Evolves Value.Textual s x := by
  have hrun : ∀ y ∈ s :: cycles now candles s (indices warmup candles.bars),
      Evolves Value.Textual s y := by
    intro y hy
    rcases List.mem_cons.mp hy with rfl | hy
    · exact ReflTransGen.refl
    · exact (cycles_evolves hy).mono fun _ => ht.textual
  unfold course at h
  dsimp only at h
  split at h
  · simp only [bind_ok_iff, pure_ok_iff] at h
    obtain ⟨closed, hclosed, rfl⟩ := h
    rcases List.mem_append.mp hx with hx | hx
    · exact hrun x hx
    · rw [List.mem_singleton.mp hx]
      rw [List.getLastD_cons] at hclosed
      have hlast := hrun _ List.getLastD_mem_cons
      have hheld := hlast.preserves (fun _ _ h hc => hc.wellHeld h) hw
      exact hlast.trans (close_evolves hheld.textual hclosed)
  · rw [pure_ok_iff] at h
    rw [h] at hrun
    exact hrun x hx

theorem initial_ok {strategy : Strategy α} {options : Options α}
    (h : initial now strategy options = .ok s) :
    ∃ id, create now id strategy.owner strategy options .standard = .ok s := by
  unfold initial at h
  simp only [bind_ok_iff, pure_ok_iff] at h
  obtain ⟨-, -, x, hx, -, -, rfl⟩ := h
  exact ⟨_, hx⟩

/-- **A replay that finishes** ends with a session that has evolved from a new one. -/
theorem run_evolves {strategy : Strategy α} {options : Options α} {warmup : Int}
    {closeAtEnd : Bool} {r : Replay α} (ht : strategy.TradesTexts)
    (h : run now strategy options warmup candles closeAtEnd = .ok r) :
    ∃ id start, create now id strategy.owner strategy (optionsFor options candles) .standard =
      .ok start ∧ Evolves Value.Textual start r.session := by
  unfold run at h
  simp only [bind_ok_iff, refuse_ok_iff, pure_ok_iff] at h
  obtain ⟨-, -, -, start, hstart, sessions, hcourse, -, -, rfl⟩ := h
  obtain ⟨id, hcreate⟩ := initial_ok hstart
  refine ⟨id, start, hcreate, ?_⟩
  obtain ⟨-, -, -, hstr, -, -, -, hps, -⟩ := create_ok hcreate
  have hlast : sessions.getLastD start ∈ start :: sessions := List.getLastD_mem_cons
  rcases List.mem_cons.mp hlast with hlast | hlast
  · show Evolves Value.Textual start (sessions.getLastD start)
    rw [hlast]
  · exact course_evolves (by rw [hstr]; exact ht) (by rw [hps]; exact wellHeld_nil) hcourse hlast

end Replay

end PaperTrading
