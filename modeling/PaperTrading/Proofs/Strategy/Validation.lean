import PaperTrading.Proofs.Strategy.Dispatch

/-!
# What validation promises

A strategy is validated before a session is opened with it.  Validation looks at names only, yet it
decides what can happen much later: the strategies that it accepts are those all of whose blocks
their evaluators can dispatch, and no run of one of them, over any market, ends because a kind is
unknown.

* `Block.Accepted`, `Block.Refused`: a block whose evaluator can dispatch it, and the failure of any
  other.
* `forM_ok_iff`, `forM_error_iff`: a check of every item of a list, and the first item that fails
  it.
* `cause_of_visit`: what ends a visit of a run, if all blocks are accepted.
* `validation_decides_dispatch`: **what validation accepts, what it promises, and what it reports.**
-/

namespace PaperTrading

variable {α : Type}

/-! ### Checks of a list -/

section Checks

variable {ε β : Type} {f : β → Except ε Unit} {xs : List β}

/-- A check of every item succeeds where it does for each. -/
theorem forM_ok_iff : xs.forM f = .ok () ↔ ∀ x ∈ xs, f x = .ok () := by
  induction xs with
  | nil => simp [pure, Except.pure]
  | cons x xs ih =>
    show (f x >>= fun _ => xs.forM f) = .ok () ↔ _
    rw [bind_ok_iff, List.forall_mem_cons, ← ih]
    constructor
    · rintro ⟨⟨⟩, hx, hxs⟩
      exact ⟨hx, hxs⟩
    · rintro ⟨hx, hxs⟩
      exact ⟨(), hx, hxs⟩

/-- **The first item that fails** decides with what a check of every item fails. -/
theorem forM_error_iff {e : ε} : xs.forM f = .error e ↔ ∃ done x later,
    xs = done ++ x :: later ∧ (∀ y ∈ done, f y = .ok ()) ∧ f x = .error e := by
  constructor
  · intro h
    induction xs with
    | nil => cases h
    | cons x xs ih =>
      have h : (f x >>= fun _ => xs.forM f) = .error e := h
      cases hx : f x with
      | error e' =>
        rw [hx] at h
        cases h
        exact ⟨[], x, xs, rfl, by simp, hx⟩
      | ok =>
        rw [hx] at h
        obtain ⟨done, y, later, rfl, hdone, hy⟩ := ih h
        exact ⟨x :: done, y, later, rfl, List.forall_mem_cons.mpr ⟨hx, hdone⟩, hy⟩
  · rintro ⟨done, x, later, rfl, hdone, hx⟩
    induction done with
    | nil =>
      show (f x >>= fun _ => later.forM f) = .error e
      rw [hx]
      rfl
    | cons y done ih =>
      obtain ⟨hy, hdone⟩ := List.forall_mem_cons.mp hdone
      show (f y >>= fun _ => (done ++ x :: later).forM f) = .error e
      rw [hy]
      exact ih hdone

end Checks

/-! ### Blocks -/

theorem Role.ofName?_eq_some_iff {s : String} {r : Role} :
    Role.ofName? s = some r ↔ s = r.name := by
  constructor
  · intro h
    have hname := List.find?_some h
    exact (beq_iff_eq.mp hname).symm
  · rintro rfl
    exact Role.ofName?_name r

theorem Role.name_injective {r r' : Role} (h : r.name = r'.name) : r = r' := by
  have hr := Role.ofName?_name r
  rw [h, Role.ofName?_name] at hr
  exact (Option.some.inj hr).symm

variable [Arith α]

/-- **A block that can be dispatched:** it has a role, and the evaluator of the role can dispatch
its kind. -/
def Block.Accepted (b : Block α) : Prop := ∃ r : Role, b.role = r.name ∧ r.Dispatches α b.kind

/-- **The failure of a block that cannot be dispatched:** its role is unknown, or its kind is. -/
inductive Block.Refused (b : Block α) : Failure → Prop
  | role (h : ∀ r : Role, b.role ≠ r.name) : Refused b (.unknownRole b.role b.id)
  | kind {r : Role} (hrole : b.role = r.name) (hkind : ¬ r.Dispatches α b.kind) :
      Refused b (.unknownKindOnBlock r b.kind b.id)

/-- **A block is accepted or refused,** and validated accordingly. -/
theorem Block.validate_cases (b : Block α) :
    b.Accepted ∧ b.validate = .ok () ∨ ¬ b.Accepted ∧ ∃ f, b.Refused f ∧ b.validate = .error f := by
  unfold Block.validate
  cases hrole : Role.ofName? b.role with
  | none =>
    have hnone : ∀ r : Role, b.role ≠ r.name := by
      intro r hr
      rw [Role.ofName?_eq_some_iff.mpr hr] at hrole
      cases hrole
    exact .inr ⟨fun ⟨r, hr, _⟩ => hnone r hr, _, .role hnone, rfl⟩
  | some r =>
    have hr : b.role = r.name := Role.ofName?_eq_some_iff.mp hrole
    by_cases hkind : b.kind ∈ r.kinds
    · exact .inl ⟨⟨r, hr, dispatches_iff.mpr hkind⟩, if_pos hkind⟩
    · have hdispatch : ¬ r.Dispatches α b.kind := fun h => hkind (dispatches_iff.mp h)
      refine .inr ⟨?_, _, .kind hr hdispatch, if_neg hkind⟩
      rintro ⟨r', hr', h⟩
      rw [Role.name_injective (hr.symm.trans hr')] at hdispatch
      exact hdispatch h

theorem Block.validate_ok_iff {b : Block α} : b.validate = .ok () ↔ b.Accepted := by
  rcases b.validate_cases with ⟨hacc, hok⟩ | ⟨hnot, f, -, herror⟩
  · exact iff_of_true hok hacc
  · rw [herror]
    exact iff_of_false (fun h => nomatch h) hnot

theorem Block.validate_error_iff {b : Block α} {f : Failure} :
    b.validate = .error f ↔ b.Refused f := by
  rcases b.validate_cases with ⟨⟨r, hr, hdispatch⟩, hok⟩ | ⟨-, g, hg, herror⟩
  · rw [hok]
    refine iff_of_false (fun h => nomatch h) fun h => ?_
    cases h with
    | role hnone => exact hnone r hr
    | kind hrole hkind =>
      rw [Role.name_injective (hrole.symm.trans hr)] at hkind
      exact hkind hdispatch
  · rw [herror, Except.error.injEq]
    constructor
    · rintro rfl
      exact hg
    · intro h
      -- the role of a block decides between the two failures
      cases h with
      | role hnone =>
        cases hg with
        | role => rfl
        | kind hrole => exact absurd hrole (hnone _)
      | kind hrole =>
        cases hg with
        | role hnone => exact absurd hrole (hnone _)
        | kind hrole' => rw [Role.name_injective (hrole.symm.trans hrole')]

namespace Strategy

variable {s : Strategy α} {now : Instant} {market : Market α}

/-! ### Runs of accepted strategies -/

/-- In a strategy of accepted blocks, the evaluator of a role can dispatch the blocks of the
role. -/
theorem dispatches_of_blocksOf (h : ∀ b ∈ s.blocks, b.Accepted) {r : Role} {b : Block α}
    (hb : b ∈ s.blocksOf r) : r.Dispatches α b.kind := by
  obtain ⟨hmem, hrole⟩ := List.mem_filter.mp hb
  obtain ⟨r', hr', hdispatch⟩ := h b hmem
  rw [Role.name_injective ((beq_iff_eq.mp hrole).symm.trans hr')]
  exact hdispatch

omit [Arith α] in
theorem known_of_failureOf? {β : Type} {x : Except Failure β} (h : Knows x) {cause : Failure}
    (hx : failureOf? x = some cause) : cause.isUnknownKind = false := by
  cases x with
  | ok y => cases hx
  | error f =>
    cases hx
    exact knows_error_iff.mp h

/-- **What ends a visit of a run,** if all blocks are accepted, is no unknown kind. -/
theorem cause_of_visit (h : ∀ b ∈ s.blocks, b.Accepted) : ∀ v ∈ s.itinerary now market,
    ∀ cause, v.failure = some cause → cause.isUnknownKind = false := by
  refine forall_itinerary_iff.mpr ⟨?_, ?_, fun _ => ?_⟩
  · intro v hv cause hcause
    obtain ⟨b, hb, rfl⟩ := List.mem_map.mp hv
    have hdispatch : Role.indicator.Dispatches α b.kind := dispatches_of_blocksOf h hb
    exact known_of_failureOf? (hdispatch market b.settings).1 hcause
  · intro b hb cause hcause
    have hdispatch : Role.condition.Dispatches α b.kind := dispatches_of_blocksOf h hb
    exact known_of_failureOf? (hdispatch market _ b.settings) hcause
  · intro v hv cause hcause
    obtain ⟨b, hb, rfl⟩ := List.mem_map.mp hv
    have hdispatch : Role.action.Dispatches α b.kind := dispatches_of_blocksOf h hb
    exact known_of_failureOf? (hdispatch now b.settings market) hcause

/-- **Validation decides what can be dispatched.**  It accepts a strategy exactly when every block
has a role whose evaluator can dispatch the kind of the block.  A run of an accepted strategy, over
any market, ends with a cause at a block if it fails, and the cause is never an unknown kind.  Any
other strategy is refused for the first block that cannot be dispatched, with the failure of that
block. -/
theorem validation_decides_dispatch (s : Strategy α) :
    (s.validate = .ok () ↔ ∀ b ∈ s.blocks, b.Accepted) ∧
    (s.validate = .ok () → ∀ (now : Instant) (market : Market α) (f : Failure),
      s.run now market = .error f →
        ∃ block cause, f = .stoppedAt block cause ∧ cause.isUnknownKind = false) ∧
    ∀ f, s.validate = .error f ↔ ∃ good b later, s.blocks = good ++ b :: later ∧
      (∀ g ∈ good, g.Accepted) ∧ b.Refused f := by
  have haccepts : s.validate = .ok () ↔ ∀ b ∈ s.blocks, b.Accepted := by
    unfold validate
    simp only [forM_ok_iff, Block.validate_ok_iff]
  refine ⟨haccepts, ?_, ?_⟩
  · intro hvalid now market f hrun
    rw [run_eq, visiting_error_iff, ending_eq_some_iff] at hrun
    obtain ⟨done, v, later, cause, hsplit, -, hcause, rfl⟩ := hrun
    have hmem : v ∈ s.itinerary now market := by
      rw [hsplit]
      exact List.mem_append_right _ List.mem_cons_self
    exact ⟨v.block.id, cause, rfl, cause_of_visit (haccepts.mp hvalid) v hmem cause hcause⟩
  · intro f
    unfold validate
    simp only [forM_error_iff, Block.validate_ok_iff, Block.validate_error_iff]

/-- A strategy with a mean of prices, and one with a block of a kind that conditions do not know. -/
def averaging (condition : String) : Strategy Float :=
  { Desk.steady [] with blocks := [⟨"mean", "indicator", "sma", .empty, 0, ""⟩,
    ⟨"always", "condition", condition, .empty, 1, ""⟩] }

/-- A run of an accepted strategy that fails for want of candles, and a strategy that is refused. -/
theorem validation_decides_dispatch_of_averaging :
    ((averaging "threshold").validate = .ok () ∧ ∃ block cause,
      (averaging "threshold").run ⟨0⟩ Session.atTen = .error (.stoppedAt block cause) ∧
        cause.isUnknownKind = false) ∧
    (averaging "always").validate = .error (.unknownKindOnBlock .condition "always" "always") ∧
    ¬ Role.condition.Dispatches Float "always" := by
  have hvalid : (averaging "threshold").validate = .ok () := by rfl
  have hfails : ((averaging "threshold").run ⟨0⟩ Session.atTen).toOption.isNone = true := by
    decide +kernel
  obtain ⟨-, hknown, -⟩ := validation_decides_dispatch (averaging "threshold")
  obtain ⟨-, -, hrefuses⟩ := validation_decides_dispatch (averaging "always")
  have hrefused : (averaging "always").validate =
      .error (.unknownKindOnBlock .condition "always" "always") := by rfl
  refine ⟨⟨hvalid, ?_⟩, hrefused, ?_⟩
  · cases hrun : (averaging "threshold").run ⟨0⟩ Session.atTen with
    | ok outcome =>
      rw [hrun] at hfails
      cases hfails
    | error f =>
      obtain ⟨block, cause, rfl, hcause⟩ := hknown hvalid _ _ _ hrun
      exact ⟨block, cause, rfl, hcause⟩
  · obtain ⟨good, b, later, -, -, hb⟩ := (hrefuses _).mp hrefused
    generalize hf : Failure.unknownKindOnBlock .condition "always" "always" = f at hb
    cases hb with
    | role => cases hf
    | kind hrole hkind =>
      obtain ⟨rfl, hname, -⟩ := Failure.unknownKindOnBlock.inj hf
      rw [hname]
      exact hkind

end Strategy

end PaperTrading
