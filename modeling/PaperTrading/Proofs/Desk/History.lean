import Mathlib.Data.List.Induction
import PaperTrading.Number.Double
import PaperTrading.Proofs.Desk.Effect

/-!
# Histories of a desk

A desk starts without sessions and then performs operations, of any users and at any moments.  What
is stored afterwards was created on it and has only been updated and stopped since.

* `Session.Reachable`: the sessions that arise by creation and advances; `Reachable.invariant` says
  what holds of all of them.
* `run_induction`: what every operation keeps holds after any history.
* `reachable_of_find?`: **every stored session has arisen by creation, update cycles and stops.**
* `advance_of_ticket_eq`, `evolves_of_ticket_eq`: what an operation and a history make of a session
  that stays stored.
* `steady`, `updates`, `atWork`: a small desk at work.
-/

namespace PaperTrading

variable {α : Type} [Arith α]

namespace Session

/-- **The sessions that arise** by creation, update cycles and stops. -/
inductive Reachable : Session α → Prop
  | created {now : Instant} {id user : String} {strategy : Strategy α} {options : Options α}
      {defaults : Defaults α} {s : Session α}
      (h : create now id user strategy options defaults = .ok s) : Reachable s
  | advanced {s s' : Session α} (h : Reachable s) (h' : Advance s s') : Reachable s'

/-- **What holds of new sessions and is kept by every change** in symbols of the strategy, holds of
all sessions that arise. -/
theorem Reachable.invariant {P : Session α → Prop}
    (hcreated : ∀ {now id user strategy options defaults} {s : Session α},
      create now id user strategy options defaults = .ok s → P s)
    (hchange : ∀ s s', P s → Change s.strategy.Trades s s' → P s') (h : Reachable s) : P s := by
  induction h with
  | created h => exact hcreated h
  | @advanced s s' _ h' ih =>
    -- the strategy is the same all along the way, so the trades of `s` are those of every change
    have hk : P s' ∧ s'.strategy = s.strategy := by
      refine h'.evolves.preserves (P := fun x => P x ∧ x.strategy = s.strategy) ?_ ⟨ih, rfl⟩
      rintro x y ⟨hx, hstr⟩ hc
      refine ⟨hchange x y hx (by rw [hstr]; exact hc), ?_⟩
      have := hc.charter
      simp only [charter, Prod.mk.injEq] at this
      exact this.2.2.1.trans hstr
    exact hk.1

/-- **What holds of new sessions and is kept by every change** in symbols of some kind, holds of all
sessions that arise with a strategy that trades only those. -/
theorem Reachable.invariant_of_trades {P : Session α → Prop} {allowed : Value α → Prop}
    (hcreated : ∀ {now id user strategy options defaults} {s : Session α},
      create now id user strategy options defaults = .ok s → P s)
    (hchange : ∀ s s', P s → Change allowed s s' → P s') (h : Reachable s)
    (ht : ∀ v, s.strategy.Trades v → allowed v) : P s := by
  refine h.invariant (P := fun s => (∀ v, s.strategy.Trades v → allowed v) → P s)
    (fun hc _ => hcreated hc) (fun s s' ih hc ht => ?_) ht
  have hstr : s'.strategy = s.strategy := congrArg (·.2.2.1) hc.charter
  rw [hstr] at ht
  exact hchange s s' (ih ht) (hc.mono ht)

/-- And with texts, in particular. -/
theorem Reachable.textual_invariant {P : Session α → Prop}
    (hcreated : ∀ {now id user strategy options defaults} {s : Session α},
      create now id user strategy options defaults = .ok s → P s)
    (hchange : ∀ s s', P s → Change Value.Textual s s' → P s') (h : Reachable s)
    (ht : s.strategy.TradesTexts) : P s :=
  h.invariant_of_trades hcreated hchange fun _ => ht.textual

end Session

namespace Desk

variable {d : Desk α} {now : Instant} {id : String} {e e' : Stored α}

/-! ### Histories -/

omit [Arith α] in
theorem find?_ofStrategies (strategies : List (Strategy α)) (defaults : Defaults α) (id : String) :
    (ofStrategies strategies defaults).store.find? id = none := rfl

omit [Arith α] in
theorem ofStrategies_sound (strategies : List (Strategy α)) (defaults : Defaults α) :
    (ofStrategies strategies defaults).store.Sound := by
  constructor <;> intro id e h <;> rw [find?_ofStrategies] at h <;> cases h

/-- **What every operation keeps** on a sound store, any history keeps. -/
theorem run_invariant {P : Desk α → Prop}
    (hstep : ∀ d now o, d.store.Sound → P d → P (d.perform now o)) (hd : d.store.Sound) (h : P d)
    (history : List (Instant × Operation α)) :
    (d.run history).store.Sound ∧ P (d.run history) := by
  induction history using List.reverseRecOn with
  | nil => exact ⟨hd, h⟩
  | append_singleton history o ih =>
    rw [run_concat]
    exact ⟨(effect_perform ih.1 o.1 o.2).sound ih.1, hstep _ o.1 o.2 ih.1 ih.2⟩

/-- **The desks that arise** from one without sessions. -/
theorem run_induction {P : Desk α → Prop} {strategies : List (Strategy α)} {defaults : Defaults α}
    (hstart : P (ofStrategies strategies defaults))
    (hstep : ∀ d now o, d.store.Sound → P d → P (d.perform now o))
    (history : List (Instant × Operation α)) :
    ((ofStrategies strategies defaults).run history).store.Sound ∧
      P ((ofStrategies strategies defaults).run history) :=
  run_invariant hstep (ofStrategies_sound strategies defaults) hstart history

theorem sound_run (hd : d.store.Sound) (history : List (Instant × Operation α)) :
    (d.run history).store.Sound :=
  (run_invariant (P := fun _ => True) (fun _ _ _ _ _ => trivial) hd trivial history).1

theorem run_sound (strategies : List (Strategy α)) (defaults : Defaults α)
    (history : List (Instant × Operation α)) :
    ((ofStrategies strategies defaults).run history).store.Sound :=
  sound_run (ofStrategies_sound strategies defaults) history

/-- **Every stored session** has arisen by creation, update cycles and stops. -/
theorem reachable_of_find? {strategies : List (Strategy α)} {defaults : Defaults α}
    {history : List (Instant × Operation α)}
    (h : ((ofStrategies strategies defaults).run history).store.find? id = some e) :
    e.session.Reachable := by
  refine (run_induction (P := fun d => ∀ id e, d.store.find? id = some e → e.session.Reachable)
    ?_ ?_ history).2 id e h
  · intro id e h
    rw [find?_ofStrategies] at h
    cases h
  · intro d now o hd ih id e h
    rcases (effect_perform hd now o).comes_from h with ⟨e₀, he, -, hadv⟩ | ⟨-, -, -, -, _, _, hs⟩
    · exact .advanced (ih id e₀ he) hadv
    · exact .created hs

/-- **The same stored session** before and after an operation: it has advanced. -/
theorem advance_of_ticket_eq (hd : d.store.Sound) {o : Operation α}
    (he : d.store.find? id = some e) (he' : (d.perform now o).store.find? id = some e')
    (ht : e'.ticket = e.ticket) : e.session.Advance e'.session := by
  rcases (effect_perform hd now o).comes_from he' with ⟨e₀, he₀, -, hadv⟩ | ⟨-, hnew, -⟩
  · rw [he] at he₀
    cases he₀
    exact hadv
  · have := hd.issued he
    omega

/-- **A ticket is never given out again:** whoever has it later is the session that had it before,
after a sequence of changes. -/
theorem evolves_of_ticket_eq (hd : d.store.Sound) (he : d.store.find? id = some e)
    (between : List (Instant × Operation α)) (he' : (d.run between).store.find? id = some e')
    (ht : e'.ticket = e.ticket) :
    Session.Evolves e.session.strategy.Trades e.session e'.session := by
  refine ((run_invariant (P := fun d' => e.ticket < d'.store.next ∧
    ∀ e', d'.store.find? id = some e' → e'.ticket = e.ticket →
      Session.Evolves e.session.strategy.Trades e.session e'.session) ?_ hd ?_ between).2).2 e' he' ht
  · rintro d₁ now o hd₁ ⟨hissued, ih⟩
    have heffect := effect_perform hd₁ now o
    refine ⟨Nat.lt_of_lt_of_le hissued heffect.next_le, fun e₂ he₂ ht₂ => ?_⟩
    rcases heffect.comes_from he₂ with ⟨e₁, he₁, ht₁, hadv⟩ | ⟨-, hnew, -⟩
    · have hbefore := ih e₁ he₁ (ht₁.symm.trans ht₂)
      have hstr : e₁.session.strategy = e.session.strategy := congrArg (·.2.2.1) hbefore.charter
      exact hbefore.trans (hstr ▸ hadv.evolves)
    · omega
  · refine ⟨hd.issued he, fun e₁ he₁ _ => ?_⟩
    cases he.symm.trans he₁
    exact Relation.ReflTransGen.refl

/-- What was fixed about a session stays as long as its ticket does. -/
theorem charter_of_ticket_eq (hd : d.store.Sound) (he : d.store.find? id = some e)
    (between : List (Instant × Operation α)) (he' : (d.run between).store.find? id = some e')
    (ht : e'.ticket = e.ticket) : e'.session.charter = e.session.charter :=
  (evolves_of_ticket_eq hd he between he' ht).charter

/-! ### A desk at work -/

omit [Arith α] in
/-- An action block that names a symbol and a number of shares, with further settings. -/
def trading (kind symbol : String) (shares : Int) (more : List (String × Value α)) : Block α :=
  ⟨kind, "action", kind, .ofList (("symbol", .text symbol) :: ("quantity", .int shares) :: more), 1,
    ""⟩

omit [Arith α] in
/-- Three shares are bought, and one of them is sold. -/
def buyAndTrim : List (Block α) := [trading "buy" "SPY" 3 [], trading "sell" "SPY" 1 []]

omit [Arith α] in
/-- A strategy whose only condition always holds. -/
def steady (actions : List (Block α)) : Strategy α where
  id := "steady"
  owner := "ada"
  blocks := ⟨"always", "condition", "threshold", .ofList [("sourceType", .text "value"),
    ("source", .int 1), ("operator", .text ">"), ("value", .int 0)], 0, ""⟩ :: actions
  symbols := []
  timeframe := "1d"
  name := ""

omit [Arith α] in
/-- The market data of one symbol at a price. -/
def quoting (symbol : String) (price : Int) : Feed α :=
  .document (.object [(symbol, .object [("price", .int price)])])

omit [Arith α] in
/-- A session of the steady strategy is created, and updated at one price after another. -/
def updates (symbol : String) (prices : List Int) : List (Instant × Operation α) :=
  (⟨0⟩, .create (some "ada") "steady" .null) :: prices.zipIdx.map fun (x, i) =>
    (⟨i⟩, .update "ada-steady-0" (quoting symbol x) none)

/-- A desk with one session, which has not been updated yet. -/
def atWork : Desk Float := (ofStrategies [steady buyAndTrim] .standard).run (updates "SPY" [])

end Desk

end PaperTrading
