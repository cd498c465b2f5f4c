import PaperTrading.Number.Double
import PaperTrading.Proofs.Desk.History
import PaperTrading.Proofs.Ledger.Positions
import PaperTrading.Proofs.Session.Escape

/-!
# What becomes of a batch of signals

A batch deals with its signals in order.  Each has one effect: a transaction, a protective order, or
an entry among the errors, and what cannot be executed changes nothing else.  A batch comes to its
end if none of its signals fails in another way when its turn comes; one that does leaves the
signals behind it unseen, and no trace of itself.

* `Settles`: **one signal and its one effect.**
* `Settled`: the signals of a batch, dealt with in order; `Settled.effects` counts what they left.
* `executeAll_settled`: how far a batch comes.
* `executeAll_accounts`: **exactly when a batch comes to its end,** and what it has done by then.
* `batch_cut_short`: a batch of two signals that deals with neither.
-/

namespace PaperTrading

open Arith

namespace Session

variable {α : Type} [Arith α] {now : Instant} {market : Market α} {s s₁ s' : Session α}
  {signal : Signal α} {signals : List (Signal α)} {t : Option (Transaction α)}
  {ts : List (Transaction α)}

/-! ### One signal -/

/-- **One signal and its one effect.**  A trade adds its transaction and a protection its order; a
signal that cannot be executed adds an error and leaves the rest as it was. -/
inductive Settles (now : Instant) (market : Market α) (s : Session α) (signal : Signal α) :
    Session α → Option (Transaction α) → Prop
  | traded {s₁ : Session α} {t : Transaction α}
      (h : s.execute now market signal = .ok (s₁, some t)) (hsym : t.symbol = signal.symbol)
      (hlog : s₁.transactions = s.transactions ++ [t])
      (horders : s₁.protectiveOrders = s.protectiveOrders) (herrors : s₁.errors = s.errors) :
      Settles now market s signal s₁ (some t)
  | guarded {o : ProtectiveOrder α}
      (h : s.execute now market signal =
        .ok ({ s with protectiveOrders := s.protectiveOrders ++ [o] }, none))
      (hsym : o.symbol = signal.symbol) :
      Settles now market s signal { s with protectiveOrders := s.protectiveOrders ++ [o] } none
  | refused {f : Failure} (h : s.execute now market signal = .error f)
      (hf : f.isExecution = true) :
      Settles now market s signal
        { s with errors := s.errors ++ [⟨f.kind, f.message, now⟩] } none

/-- A signal that is executed has one effect. -/
theorem settles_of_execute (h : s.execute now market signal = .ok (s₁, t)) :
    Settles now market s signal s₁ t := by
  cases execute_ok h with
  | guarded hsym => exact .guarded h hsym
  | bought | sold => exact .traded h rfl rfl rfl rfl

/-! ### A batch -/

/-- **The signals of a batch, dealt with in order.** -/
inductive Settled (now : Instant) (market : Market α) :
    Session α → List (Signal α) → Session α → List (Transaction α) → Prop
  | nil {s : Session α} : Settled now market s [] s []
  | cons {s s₁ s₂ : Session α} {signal : Signal α} {signals : List (Signal α)}
      {t : Option (Transaction α)} {ts : List (Transaction α)}
      (h : Settles now market s signal s₁ t) (hs : Settled now market s₁ signals s₂ ts) :
      Settled now market s (signal :: signals) s₂ (t.toList ++ ts)

/-- **As many effects as signals:** what a batch adds to log, orders and errors. -/
theorem Settled.effects (h : Settled now market s signals s' ts) :
    s'.transactions = s.transactions ++ ts ∧
      ∃ (os : List (ProtectiveOrder α)) (es : List ErrorEntry),
        s'.protectiveOrders = s.protectiveOrders ++ os ∧ s'.errors = s.errors ++ es ∧
        ts.length + os.length + es.length = signals.length := by
  induction h with
  | nil => exact ⟨by simp, [], [], by simp, by simp, rfl⟩
  | cons h _ ih =>
    obtain ⟨hlog, os, es, horders, herrors, hcount⟩ := ih
    cases h with
    | @traded _ t _ _ hlog₁ horders₁ herrors₁ =>
      refine ⟨?_, os, es, horders₁ ▸ horders, herrors₁ ▸ herrors, ?_⟩
      · rw [hlog, hlog₁, List.append_assoc]; rfl
      · simp only [Option.toList_some, List.cons_append, List.nil_append, List.length_cons]
        omega
    | @guarded o =>
      refine ⟨hlog, o :: os, es, ?_, herrors, ?_⟩
      · rw [horders, List.append_assoc]; rfl
      · simp only [Option.toList_none, List.nil_append, List.length_cons]
        omega
    | @refused f =>
      refine ⟨hlog, os, ⟨f.kind, f.message, now⟩ :: es, horders, ?_, ?_⟩
      · rw [herrors, List.append_assoc]; rfl
      · simp only [Option.toList_none, List.nil_append, List.length_cons]
        omega

/-- A batch goes on after a signal that is executed. -/
theorem executeAll_of_ok {cut : Option Failure} (h : s.execute now market signal = .ok (s₁, t))
    (hall : executeAll now market signals s₁ = (s', ts, cut)) :
    executeAll now market (signal :: signals) s = (s', t.toList ++ ts, cut) := by
  simp only [executeAll, h, hall]

/-- A batch goes on after a signal that cannot be executed. -/
theorem executeAll_of_refused {f : Failure} (h : s.execute now market signal = .error f)
    (hf : f.isExecution = true) :
    executeAll now market (signal :: signals) s =
      executeAll now market signals (s.record now f) := by
  simp only [executeAll, h, hf, if_true]

/-- **How far a batch comes:** through all its signals, or up to one that stops it. -/
theorem executeAll_settled (now : Instant) (market : Market α) (signals : List (Signal α))
    (s : Session α) : ∃ done rest, signals = done ++ rest ∧
      Settled now market s done (executeAll now market signals s).1
        (executeAll now market signals s).2.1 ∧
      (rest = [] ∧ (executeAll now market signals s).2.2 = none ∨
        ∃ signal later f, rest = signal :: later ∧
          (executeAll now market signals s).1.execute now market signal = .error f ∧
          f.isExecution = false ∧ (executeAll now market signals s).2.2 = some f) := by
  induction signals generalizing s with
  | nil => exact ⟨[], [], rfl, .nil, .inl ⟨rfl, rfl⟩⟩
  | cons signal signals ih =>
    cases hexec : s.execute now market signal with
    | ok r =>
      obtain ⟨s₁, t⟩ := r
      obtain ⟨done, rest, rfl, hdone, hend⟩ := ih s₁
      simp only [executeAll, hexec]
      exact ⟨signal :: done, rest, rfl, .cons (settles_of_execute hexec) hdone, hend⟩
    | error f =>
      cases hf : f.isExecution with
      | true =>
        obtain ⟨done, rest, rfl, hdone, hend⟩ := ih (s.record now f)
        rw [executeAll_of_refused hexec hf]
        exact ⟨signal :: done, rest, rfl, .cons (.refused hexec hf) hdone, hend⟩
      | false =>
        simp only [executeAll, hexec, hf, Bool.false_eq_true, if_false]
        exact ⟨[], signal :: signals, rfl, .nil, .inr ⟨signal, signals, f, rfl, hexec, hf, rfl⟩⟩

/-- What has been dealt with decides the session in which the rest of a batch is met. -/
theorem executeAll_of_settled {done : List (Signal α)} (h : Settled now market s done s₁ ts)
    (later : List (Signal α)) :
    (executeAll now market (done ++ later) s).2.2 = (executeAll now market later s₁).2.2 := by
  induction h with
  | nil => rfl
  | cons h _ ih =>
    rw [← ih]
    cases h with
    | traded h => simp only [List.cons_append, executeAll, h]
    | guarded h => simp only [List.cons_append, executeAll, h]
    | refused h hf =>
      rw [List.cons_append, executeAll_of_refused h hf]
      rfl

/-- **Exactly when a batch comes to its end.**  A batch deals with its signals in order, up to the
first that escapes it.  It deals with all of them, each with its one effect, exactly when no signal
escapes in the session that those before it leave behind. -/
theorem executeAll_accounts (now : Instant) (market : Market α) (signals : List (Signal α))
    (s : Session α) :
    (∃ done rest, signals = done ++ rest ∧
      Settled now market s done (executeAll now market signals s).1
        (executeAll now market signals s).2.1 ∧
      (rest = [] ∧ (executeAll now market signals s).2.2 = none ∨
        ∃ signal later f, rest = signal :: later ∧
          (executeAll now market signals s).1.Escapes market signal ∧ f.isExecution = false ∧
          (executeAll now market signals s).2.2 = some f)) ∧
    ((executeAll now market signals s).2.2 = none ∧
        Settled now market s signals (executeAll now market signals s).1
          (executeAll now market signals s).2.1 ↔
      ∀ done signal later x ts, signals = done ++ signal :: later →
        Settled now market s done x ts → ¬ x.Escapes market signal) := by
  obtain ⟨done, rest, hsplit, hdone, hend⟩ := executeAll_settled now market signals s
  refine ⟨⟨done, rest, hsplit, hdone, ?_⟩, ?_, ?_⟩
  · rcases hend with hend | ⟨signal, later, f, hrest, hexec, hf, hcut⟩
    · exact .inl hend
    · exact .inr ⟨signal, later, f, hrest, stops_execute.mp ⟨f, hexec, hf⟩, hf, hcut⟩
  · rintro ⟨hnone, -⟩ done' signal later x ts hsplit' hdone' hescapes
    obtain ⟨f, hexec, hf⟩ := stops_execute.mpr hescapes
    have hcut := executeAll_of_settled hdone' (signal :: later)
    rw [← hsplit', hnone, executeAll, hexec] at hcut
    simp [hf] at hcut
  · intro hall
    rcases hend with ⟨rfl, hnone⟩ | ⟨signal, later, f, rfl, hexec, hf, -⟩
    · rw [List.append_nil] at hsplit
      exact ⟨hnone, hsplit ▸ hdone⟩
    · exact absurd (stops_execute.mp ⟨f, hexec, hf⟩) (hall _ _ _ _ _ hsplit hdone)

/-- A market of one symbol with a live price of ten. -/
def atTen : Market Float := ⟨[("SPY", ⟨some 10.0, none, []⟩)]⟩

/-- **A batch that leaves no trace.**  In a new session, a buy whose risk is below zero ends the
batch: the failure is not among the errors, and the buy of one share behind it is not executed,
although by itself it would be. -/
theorem batch_cut_short : ∃ (s s₁ : Session Float) (first second : Signal Float) (f : Failure)
    (t : Transaction Float), create ⟨0⟩ "one" "ada" (Desk.steady []) .none .standard = .ok s ∧
      WellHeld s.positions ∧
      Signal.generate ⟨0⟩ "buy" ⟨[("riskLevel", .int (-1))]⟩ atTen = .ok (some first) ∧
      Signal.generate ⟨0⟩ "buy" ⟨[("quantity", .int 1)]⟩ atTen = .ok (some second) ∧
      executeAll ⟨0⟩ atTen [first, second] s = (s, [], some f) ∧
      s.execute ⟨0⟩ atTen second = .ok (s₁, some t) ∧ t.quantity = 1 := by
  have h : (create ⟨0⟩ "one" "ada" (Desk.steady []) Options.none .standard).toOption.any (fun s =>
      (Signal.generate ⟨0⟩ "buy" ⟨[("riskLevel", .int (-1))]⟩ atTen).toOption.join.any fun first =>
      (Signal.generate ⟨0⟩ "buy" ⟨[("quantity", .int 1)]⟩ atTen).toOption.join.any fun second =>
        (match s.execute ⟨0⟩ atTen first with
          | .error f => !f.isExecution
          | .ok _ => false) &&
        (s.execute ⟨0⟩ atTen second).toOption.any fun r => r.2.any (·.quantity = 1)) = true := by
    decide +kernel
  obtain ⟨s, hs, h⟩ := (Option.any_eq_true _ _).mp h
  obtain ⟨first, hfirst, h⟩ := (Option.any_eq_true _ _).mp h
  obtain ⟨second, hsecond, h⟩ := (Option.any_eq_true _ _).mp h
  obtain ⟨hstop, htrade⟩ := Bool.and_eq_true_iff.mp h
  obtain ⟨⟨s₁, r⟩, hexec, hone⟩ := (Option.any_eq_true _ _).mp htrade
  obtain ⟨t, ht, hone⟩ := (Option.any_eq_true _ _).mp hone
  obtain rfl : r = some t := ht
  have hs := toOption_eq_some_iff.mp hs
  have hfirst := toOption_eq_some_iff.mp (Option.join_eq_some_iff.mp hfirst)
  have hsecond := toOption_eq_some_iff.mp (Option.join_eq_some_iff.mp hsecond)
  have hexec := toOption_eq_some_iff.mp hexec
  cases hf : s.execute ⟨0⟩ atTen first with
  | ok r => rw [hf] at hstop; cases hstop
  | error f =>
    rw [hf] at hstop
    have hstop : f.isExecution = false := by simpa using hstop
    have hcut : executeAll ⟨0⟩ atTen [first, second] s = (s, [], some f) := by
      simp only [executeAll, hf, hstop, Bool.false_eq_true, if_false]
    obtain ⟨-, -, -, -, -, -, -, hps, -⟩ := create_ok hs
    exact ⟨s, s₁, first, second, f, t, hs, hps ▸ wellHeld_nil, hfirst, hsecond, hcut, hexec,
      of_decide_eq_true hone⟩

end Session

end PaperTrading
