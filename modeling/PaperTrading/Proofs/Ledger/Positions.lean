import Mathlib.Data.List.Nodup
import PaperTrading.Proofs.Session.Evolution

/-!
# The positions of a session

A trade touches one position and leaves the others in their places.  From this, what a session holds
stays well-formed: every symbol is a text and is held once, and every quantity is at least one.

* `WellHeld`: **well-formed positions.**
* `positionsAfterBuy_ok`, `positionsAfterSell_eq`: the list of positions before and after a trade,
  split around the position that it touches.
* `Change.wellHeld`: a change that trades only texts keeps positions well-formed.
-/

namespace PaperTrading

open Arith

variable {α : Type}

namespace Session

variable {p : Position α}

/-! ### Items of a list -/

section Items

variable {β : Type} {P : β → Prop} {x y : β} {as bs : List β}

/-- What holds of every item holds of those around one of them. -/
theorem forall_mem_around (h : ∀ z ∈ as ++ x :: bs, P z) : ∀ z ∈ as ++ bs, P z := by
  rw [List.forall_mem_append, List.forall_mem_cons] at h
  rw [List.forall_mem_append]
  exact ⟨h.1, h.2.2⟩

/-- An item may give its place to another one of which the same holds. -/
theorem forall_mem_replace (h : ∀ z ∈ as ++ x :: bs, P z) (hy : P y) :
    ∀ z ∈ as ++ y :: bs, P z := by
  rw [List.forall_mem_append, List.forall_mem_cons] at h ⊢
  exact ⟨h.1, hy, h.2.2⟩

end Items

/-! ### Well-formed positions -/

/-- **Well-formed positions:** every symbol is a text and is held once, and at least one share is
held of each. -/
structure WellHeld (ps : List (Position α)) : Prop where
  textual : ∀ p ∈ ps, p.symbol.Textual
  distinct : (ps.map (·.symbol)).Nodup
  held : ∀ p ∈ ps, 1 ≤ p.quantity

theorem wellHeld_nil : WellHeld ([] : List (Position α)) :=
  ⟨by simp, List.nodup_nil, by simp⟩

/-- Around a well-held position, all symbols are others. -/
theorem WellHeld.ne_around {as bs : List (Position α)} (h : WellHeld (as ++ p :: bs)) :
    ∀ q ∈ as ++ bs, q.symbol ≠ p.symbol := by
  have hd := h.distinct
  rw [List.map_append, List.map_cons, List.nodup_middle, List.nodup_cons, ← List.map_append] at hd
  exact fun q hq he => hd.1 (he ▸ List.mem_map_of_mem hq)

theorem WellHeld.around {as bs : List (Position α)} (h : WellHeld (as ++ p :: bs)) :
    WellHeld (as ++ bs) := by
  have hsub : (as ++ bs).Sublist (as ++ p :: bs) :=
    (List.sublist_cons_self p bs).append_left as
  exact ⟨forall_mem_around h.textual, h.distinct.sublist (hsub.map _), forall_mem_around h.held⟩

/-- A position may change everything but its symbol, as long as it keeps a share. -/
theorem WellHeld.replace {as bs : List (Position α)} {q : Position α}
    (h : WellHeld (as ++ p :: bs)) (hsym : q.symbol = p.symbol) (hq : 1 ≤ q.quantity) :
    WellHeld (as ++ q :: bs) := by
  have hp : p.symbol.Textual := h.textual p (List.mem_append_right _ List.mem_cons_self)
  refine ⟨forall_mem_replace h.textual (by rw [hsym]; exact hp), ?_, forall_mem_replace h.held hq⟩
  have hd := h.distinct
  rw [List.map_append, List.map_cons] at hd ⊢
  rw [hsym]; exact hd

/-- A new position may join at the end, if its symbol is a text that is not held yet. -/
theorem WellHeld.concat {ps : List (Position α)} (h : WellHeld ps) (ht : p.symbol.Textual)
    (hnew : ∀ q ∈ ps, q.symbol ≠ p.symbol) (hp : 1 ≤ p.quantity) : WellHeld (ps ++ [p]) := by
  refine ⟨fun r hr => ?_, ?_, fun r hr => ?_⟩
  · rcases List.mem_append.mp hr with hr | hr
    · exact h.textual r hr
    · rw [List.mem_singleton.mp hr]; exact ht
  · rw [List.map_append, List.map_singleton, List.nodup_append]
    refine ⟨h.distinct, List.nodup_singleton _, ?_⟩
    intro v hv w hw hvw
    obtain ⟨q, hq, rfl⟩ := List.mem_map.mp hv
    exact hnew q hq (hvw.trans (List.mem_singleton.mp hw))
  · rcases List.mem_append.mp hr with hr | hr
    · exact h.held r hr
    · rw [List.mem_singleton.mp hr]; exact hp

end Session

/-! ### The list around a position -/

variable [Arith α]

theorem Value.Textual.same_iff {v w : Value α} (hw : w.Textual) : v.same w = true ↔ v = w := by
  obtain ⟨x, rfl⟩ := hw
  cases v <;> simp [Value.same]

theorem Value.Textual.same_eq_false {v w : Value α} (hw : w.Textual) :
    v.same w = false ↔ v ≠ w := by
  rw [← Bool.not_eq_true, hw.same_iff]

/-- A text is the same as itself only. -/
theorem Value.Textual.eq_of_same {v w : Value α} (hv : v.Textual) (h : v.same w = true) :
    v = w := by
  obtain ⟨x, rfl⟩ := hv
  cases w <;> simp_all [Value.same]

theorem Value.Textual.same_self {v : Value α} (hv : v.Textual) : v.same v = true :=
  hv.same_iff.mpr rfl

namespace Session

variable {now : Instant} {s s' : Session α} {symbol : Value α} {p : Position α} {n : Int}
  {price cost : α} {positions : List (Position α)}

/-- The first position in a symbol splits the list, and a replacement takes its place. -/
theorem replaceFirst_split {ps : List (Position α)}
    (h : ps.find? (·.symbol.same symbol) = some p) :
    ∃ as bs, ps = as ++ p :: bs ∧ p.symbol.same symbol = true ∧
      (∀ a ∈ as, a.symbol.same symbol = false) ∧
      ∀ new, replaceFirst symbol new ps = as ++ new ++ bs := by
  induction ps with
  | nil => cases h
  | cons q ps ih =>
    rw [List.find?_cons] at h
    split at h
    · next hq =>
      cases h
      exact ⟨[], ps, rfl, hq, by simp, fun new => by simp [replaceFirst, hq]⟩
    · next hq =>
      obtain ⟨as, bs, rfl, hp, has, hnew⟩ := ih h
      refine ⟨q :: as, bs, rfl, hp, ?_, fun new => ?_⟩
      · intro a ha
        rcases List.mem_cons.mp ha with rfl | ha
        · exact hq
        · exact has a ha
      · simp only [replaceFirst, hq, hnew, List.cons_append]
        rfl

/-- **The positions after a buy:** a new one at the end, or the held one enlarged in its place. -/
theorem positionsAfterBuy_ok (h : s.positionsAfterBuy now symbol n price cost = .ok positions) :
    (s.positionIn symbol = none ∧
      positions = s.positions ++ [⟨symbol, n, price, price, now, now⟩]) ∨
    ∃ p as bs paid average, s.positionIn symbol = some p ∧ s.positions = as ++ p :: bs ∧
      times p.averageCost p.quantity = .ok paid ∧
      dividedBy (paid + cost) (p.quantity + n) = .ok average ∧
      positions = as ++ { p with
        averageCost := average, quantity := p.quantity + n, lastUpdated := now } :: bs := by
  unfold positionsAfterBuy at h
  split at h
  · next p hp =>
    obtain ⟨as, bs, hs, -, -, hnew⟩ := replaceFirst_split hp
    unfold enlarge at h
    simp only [bind_ok_iff, pure_ok_iff] at h
    obtain ⟨q, ⟨paid, hpaid, average, havg, rfl⟩, rfl⟩ := h
    exact Or.inr ⟨p, as, bs, paid, average, hp, hs, hpaid, havg, by rw [hnew]; simp⟩
  · next hp =>
    cases h
    exact Or.inl ⟨hp, rfl⟩

/-- **The positions after a sell:** the held one lowered in its place, or gone. -/
theorem positionsAfterSell_eq (now : Instant) (n : Int) (hp : s.positionIn symbol = some p) :
    ∃ as bs, s.positions = as ++ p :: bs ∧
      s.positionsAfterSell now symbol p n = as ++ (if p.quantity - n ≤ 0 then []
        else [{ p with quantity := p.quantity - n, lastUpdated := now }]) ++ bs := by
  obtain ⟨as, bs, hs, -, -, hnew⟩ := replaceFirst_split hp
  exact ⟨as, bs, hs, by unfold positionsAfterSell; rw [hnew]⟩

theorem same_of_positionIn (hp : s.positionIn symbol = some p) : p.symbol.same symbol = true := by
  have h := List.find?_some hp
  exact h

/-- No position is held in a symbol that is not found. -/
theorem not_same_of_positionIn (hp : s.positionIn symbol = none) :
    ∀ q ∈ s.positions, q.symbol.same symbol = false := by
  intro q hq
  have h := List.find?_eq_none.mp hp q hq
  simpa using h

/-! ### Markings -/

theorem markedAs_fields {p q : Position α} (h : p.MarkedAs q) :
    q.symbol = p.symbol ∧ q.quantity = p.quantity ∧ q.averageCost = p.averageCost := by
  rcases h with rfl | ⟨x, t, -, rfl⟩ <;> exact ⟨rfl, rfl, rfl⟩

/-- Whatever is read off symbol, quantity and average cost alone, a marking leaves as it was. -/
theorem map_eq_of_marked {β : Type} {f : Position α → β} {ps qs : List (Position α)}
    (hf : ∀ p q : Position α, q.symbol = p.symbol → q.quantity = p.quantity →
      q.averageCost = p.averageCost → f q = f p)
    (h : List.Forall₂ Position.MarkedAs ps qs) : qs.map f = ps.map f := by
  induction h with
  | nil => rfl
  | cons hpq _ ih =>
    obtain ⟨hsym, hqty, havg⟩ := markedAs_fields hpq
    rw [List.map_cons, List.map_cons, ih, hf _ _ hsym hqty havg]

/-- Every position after a marking is one from before, marked. -/
theorem mem_of_marked {ps qs : List (Position α)} (h : List.Forall₂ Position.MarkedAs ps qs)
    {q : Position α} (hq : q ∈ qs) : ∃ p ∈ ps, p.MarkedAs q := by
  induction h with
  | nil => cases hq
  | cons hpq _ ih =>
    rcases List.mem_cons.mp hq with rfl | hq
    · exact ⟨_, List.mem_cons_self, hpq⟩
    · obtain ⟨p, hp, hm⟩ := ih hq
      exact ⟨p, List.mem_cons_of_mem _ hp, hm⟩

theorem WellHeld.marked {ps qs : List (Position α)} (h : WellHeld ps)
    (hm : List.Forall₂ Position.MarkedAs ps qs) : WellHeld qs := by
  refine ⟨fun q hq => ?_, ?_, fun q hq => ?_⟩
  · obtain ⟨p, hp, hpq⟩ := mem_of_marked hm hq
    rw [(markedAs_fields hpq).1]; exact h.textual p hp
  · rw [map_eq_of_marked (fun _ _ hsym _ _ => hsym) hm]; exact h.distinct
  · obtain ⟨p, hp, hpq⟩ := mem_of_marked hm hq
    rw [(markedAs_fields hpq).2.1]; exact h.held p hp

/-- **Changes keep positions well-formed** when they trade only texts. -/
theorem Change.wellHeld (h : WellHeld s.positions) (hc : Change Value.Textual s s') :
    WellHeld s'.positions := by
  cases hc with
  | @bought _ symbol n _ _ positions ht _ hn _ _ hps =>
    show WellHeld positions
    rcases positionsAfterBuy_ok hps with ⟨hnone, rfl⟩ | ⟨p, as, bs, paid, avg, hp, hs, -, -, rfl⟩
    · refine h.concat ht (fun q hq => ?_) hn
      exact ht.same_eq_false.mp (not_same_of_positionIn hnone q hq)
    · rw [hs] at h
      have := h.held p (List.mem_append_right _ List.mem_cons_self)
      exact h.replace rfl (show 1 ≤ p.quantity + n by omega)
  | @sold now symbol p n _ _ _ _ hp _ _ hle =>
    show WellHeld (s.positionsAfterSell now symbol p n)
    obtain ⟨as, bs, hs, hnew⟩ := positionsAfterSell_eq now n hp
    rw [hs] at h
    rw [hnew]
    split
    · simpa using h.around
    · rw [List.append_assoc]
      exact h.replace rfl (show 1 ≤ p.quantity - n by omega)
  | marked hm => exact h.marked hm
  | guarded | noted | measured | dated | ended => exact h

end Session

end PaperTrading
