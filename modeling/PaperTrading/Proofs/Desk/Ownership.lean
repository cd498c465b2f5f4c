import PaperTrading.Proofs.Desk.Effect

/-!
# Who gets to see a session

Whatever a desk hands out to a user is a session of that user: it was created for the user, or it
passed the check of the owner.

* `user_of_create`, `user_of_get`, `user_of_list`, `user_of_update`, `user_of_refresh`,
  `user_of_stop`: **the sessions that the operations hand out.**
-/

namespace PaperTrading.Desk

variable {α : Type} [Arith α] {d : Desk α} {now : Instant} {id u : String} {s : Session α}

theorem user_of_create {user : Option String} {strategy : String} {options : Value α}
    (h : (d.create now user strategy options).2 = .ok s) : user = some s.user := by
  unfold create at h
  cases ha : d.vet user strategy options with
  | error g => rw [ha] at h; cases h
  | ok a =>
    rw [ha] at h
    dsimp only at h
    unfold openUnder at h
    cases hs : Session.create now (d.store.freeId (a.baseId now strategy) 0) a.user a.strategy
        a.options d.defaults with
    | error g => rw [hs] at h; cases h
    | ok s₁ =>
      rw [hs] at h
      obtain ⟨_, -, hs₁⟩ := bind_ok_iff.mp h
      cases pure_ok_iff.mp hs₁
      obtain ⟨-, -, huser, -⟩ := Session.create_ok hs
      rw [user_of_vet ha, huser]

omit [Arith α] in
theorem user_of_get (h : d.get id (some u) = .ok s) : s.user = u := by
  unfold get at h
  obtain ⟨e, -, h⟩ := bind_ok_iff.mp h
  obtain ⟨_, hcheck, h⟩ := bind_ok_iff.mp h
  cases pure_ok_iff.mp h
  exact eq_user_of_checkOwner hcheck

omit [Arith α] in
theorem user_of_list (h : s ∈ d.list (some u)) : s.user = u := by
  have hmem := List.mem_mergeSort.mp (show s ∈ d.store.ofUser u from h)
  exact beq_iff_eq.mp (List.mem_filter.mp hmem).2

/-- A session that passed the check of the owner and has advanced belongs to the user. -/
theorem user_of_found (hd : d.store.Sound) {f : Session α → Except Failure (Session α)}
    (hf : ∀ {s s'}, f s = .ok s' → s.Advance s')
    (h : (d.withFound id fun e => d.withOwner (some u) e.session (d.change e f)).2 = .ok s) :
    s.user = u := by
  obtain ⟨e, -, hcheck, hfs, -⟩ := found_ok hd (Prod.ext rfl h)
  rw [(hf hfs).user_eq, eq_user_of_checkOwner hcheck]

theorem user_of_update (hd : d.store.Sound) {feed : Feed α}
    (h : (d.update now id feed (some u)).2 = .ok s) : s.user = u :=
  user_of_found hd cycleActive_advance h

theorem user_of_stop (hd : d.store.Sound) (h : (d.stop now id (some u)).2 = .ok s) : s.user = u :=
  user_of_found hd (f := fun s => .ok (stopped now s)) (fun h => by cases h; exact .stopped now) h

theorem user_of_refresh (hd : d.store.Sound) {provider : Provider α}
    (h : (d.refresh now id (some u) provider).2.result = .ok s) : s.user = u := by
  unfold refresh at h
  split at h
  · unfold refreshFound at h
    split at h
    · cases h
    · split at h
      · cases h
      · exact user_of_update hd h
  · cases h

end PaperTrading.Desk
