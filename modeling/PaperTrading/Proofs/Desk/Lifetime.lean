import PaperTrading.Proofs.Desk.History

/-!
# How long a session is stored

A session that is stored stays stored until its owner removes it, and an identifier that is free
stays free until a session is created under it.

* `run_of_stored`: **what any history makes of a stored session.**
* `perform_of_free`, `run_of_free`: **what any history makes of a free identifier.**
-/

namespace PaperTrading.Desk

variable {α : Type} [Arith α] {d : Desk α} {id : String} {e : Stored α}

/-- **A stored session stays stored,** with its ticket and with whatever operations keep of it, or it
does so until its owner removes it. -/
theorem run_of_stored {P : Session α → Prop} (hP : ∀ {s s'}, P s → s.Advance s' → P s')
    (hd : d.store.Sound) (he : d.store.find? id = some e) (h : P e.session)
    (later : List (Instant × Operation α)) :
    (∃ s, (d.run later).store.find? id = some ⟨e.ticket, s⟩ ∧ P s) ∨ ∃ kept now rest s,
      later = kept ++ (now, .delete id (some e.session.user)) :: rest ∧
      (d.run kept).store.find? id = some ⟨e.ticket, s⟩ ∧ P s ∧
      ((d.run kept).perform now (.delete id (some e.session.user))).store.find? id = none := by
  induction later generalizing d e with
  | nil => exact .inl ⟨e.session, he, h⟩
  | cons o later ih =>
    obtain ⟨now, o⟩ := o
    have heffect := effect_perform hd now o
    rcases heffect.keeps_or_removes he with ⟨s, hs, hadv⟩ | ⟨rfl, hgone⟩
    · rcases ih (heffect.sound hd) hs (hP h hadv) with
        hkept | ⟨kept, now', rest, s', rfl, hs', hP', hgone⟩
      · exact .inl hkept
      · rw [hadv.user_eq] at hgone ⊢
        exact .inr ⟨(now, o) :: kept, now', rest, s', rfl, hs', hP', hgone⟩
    · exact .inr ⟨[], now, later, e.session, rfl, he, h, hgone⟩

/-- One operation leaves a free identifier free, unless it creates a session under it. -/
theorem perform_of_free (hd : d.store.Sound) (hfree : d.store.find? id = none) (now : Instant)
    (o : Operation α) : (d.perform now o).store.find? id = none ∨
      ∃ user strategy options e, o = .create (some user) strategy options ∧
        (d.perform now o).store.find? id = some e := by
  cases he : (d.perform now o).store.find? id with
  | none => exact .inl rfl
  | some e =>
    obtain ⟨-, -, ⟨strategy, options, rfl⟩, -⟩ := (effect_perform hd now o).opens hfree he
    exact .inr ⟨_, strategy, options, e, rfl, rfl⟩

/-- **A free identifier stays free,** or it does so until a session is created under it. -/
theorem run_of_free (hd : d.store.Sound) (hfree : d.store.find? id = none)
    (later : List (Instant × Operation α)) :
    (d.run later).store.find? id = none ∨ ∃ kept now user strategy options rest e,
      later = kept ++ (now, .create (some user) strategy options) :: rest ∧
      (d.run kept).store.find? id = none ∧
      ((d.run kept).perform now (.create (some user) strategy options)).store.find? id =
        some e := by
  induction later generalizing d with
  | nil => exact .inl hfree
  | cons o later ih =>
    obtain ⟨now, o⟩ := o
    rcases perform_of_free hd hfree now o with hstill | ⟨user, strategy, options, e, rfl, he⟩
    · rcases ih ((effect_perform hd now o).sound hd) hstill with
        h | ⟨kept, now', user, strategy, options, rest, e, rfl, h, he⟩
      · exact .inl h
      · exact .inr ⟨(now, o) :: kept, now', user, strategy, options, rest, e, rfl, h, he⟩
    · exact .inr ⟨[], now, user, strategy, options, later, e, rfl, hfree, he⟩

end PaperTrading.Desk
