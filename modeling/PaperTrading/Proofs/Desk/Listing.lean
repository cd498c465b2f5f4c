import PaperTrading.Proofs.Desk.History
import PaperTrading.Proofs.Sorting

/-!
# Lists of sessions

The sessions of a user are listed in the order of their start.  Sorting keeps sessions of one moment
in the order of the store, which is the order in which they were stored, and so that of their tickets.

* `Store.Ordered`, `Effect.ordered`: **the order of a store** is the order of the tickets.
* `list_eq`: **what a user is shown:** exactly the own sessions, each of them once, in order.
-/

namespace PaperTrading

variable {α : Type} [Arith α]

/-! ### The order of a store -/

/-- **A store in order:** its identifiers are distinct, and its tickets grow along it. -/
structure Store.Ordered (s : Store α) : Prop where
  nodup : s.sessions.keys.Nodup
  tickets : (s.sessions.values.map (·.ticket)).Pairwise (· < ·)

namespace Desk

variable {d : Desk α} {now : Instant} {o : Operation α} {st : Store α}

/-- **Stores stay in order.** -/
theorem Effect.ordered (h : Effect d now o st) (hd : d.store.Sound) (ho : d.store.Ordered) :
    st.Ordered := by
  cases h with
  | kept hst => exact ⟨hst ▸ ho.nodup, hst ▸ ho.tickets⟩
  | @advanced _ e s _ he _ _ hst =>
    refine ⟨hst ▸ Table.nodup_insert ho.nodup _ _, ?_⟩
    have hsame : (⟨e.ticket, s⟩ : Stored α).ticket = e.ticket := rfl
    rw [hst, Table.map_values_insert (·.ticket) he hsame]
    exact ho.tickets
  | removed _ _ hst =>
    refine ⟨hst ▸ Table.nodup_erase ho.nodup _, ?_⟩
    rw [hst]
    exact ho.tickets.sublist ((Table.values_erase _ _).map _)
  | opened _ _ hfree hst =>
    refine ⟨hst ▸ Table.nodup_insert ho.nodup _ _, ?_⟩
    rw [hst, Table.values_insert_of_none hfree, List.map_append]
    refine List.pairwise_append.mpr ⟨ho.tickets, List.pairwise_singleton _ _, fun n hn m hm => ?_⟩
    -- the new ticket is above all that were given out
    obtain ⟨e, he, rfl⟩ := List.mem_map.mp hn
    obtain ⟨⟨k, e⟩, hentry, rfl⟩ := List.mem_map.mp he
    rw [List.mem_singleton.mp hm]
    exact hd.issued ((Table.mem_entries_iff ho.nodup).mp hentry)

theorem run_ordered (strategies : List (Strategy α)) (defaults : Defaults α)
    (history : List (Instant × Operation α)) :
    ((ofStrategies strategies defaults).run history).store.Ordered :=
  (run_induction (P := fun d => d.store.Ordered) ⟨List.nodup_nil, List.Pairwise.nil⟩
    (fun _ now o hd ho => (effect_perform hd now o).ordered hd ho) history).2

/-! ### What a user is shown -/

omit [Arith α] in
/-- In a store that is sound and in order, the values are what is found under their identifiers. -/
theorem mem_values_iff (hd : st.Sound) (ho : st.Ordered) {e : Stored α} :
    e ∈ st.sessions.values ↔ st.find? e.session.id = some e := by
  unfold Table.values
  rw [List.mem_map]
  constructor
  · rintro ⟨⟨k, e⟩, hentry, rfl⟩
    have he : st.find? k = some e := (Table.mem_entries_iff ho.nodup).mp hentry
    rw [hd.keyed he]
    exact he
  · exact fun he => ⟨_, (Table.mem_entries_iff ho.nodup).mpr he, rfl⟩

omit [Arith α] in
/-- The order in which sessions are listed. -/
def startsBefore (a b : Stored α) : Bool := a.session.startTime ≤ b.session.startTime

omit [Arith α] in
theorem startsBefore_trans (a b c : Stored α) (hab : startsBefore a b = true)
    (hbc : startsBefore b c = true) : startsBefore a c = true :=
  decide_eq_true (Int.le_trans (of_decide_eq_true hab) (of_decide_eq_true hbc))

omit [Arith α] in
theorem startsBefore_total (a b : Stored α) : (startsBefore a b || startsBefore b a) = true := by
  unfold startsBefore
  rw [Bool.or_eq_true, decide_eq_true_iff, decide_eq_true_iff]
  exact Int.le_total _ _

omit [Arith α] in
/-- **What a user is shown:** exactly the own sessions that are stored, each of them once, in the order
of their start; sessions of one moment in the order in which they were stored. -/
theorem list_eq (hd : d.store.Sound) (ho : d.store.Ordered) (user : String) :
    ∃ es : List (Stored α), d.list (some user) = es.map (·.session) ∧
      (∀ e, e ∈ es ↔ e.session.user = user ∧ d.store.find? e.session.id = some e) ∧
      es.Pairwise fun a b => a.session.startTime ≤ b.session.startTime ∧
        (b.session.startTime ≤ a.session.startTime → a.ticket < b.ticket) := by
  refine ⟨(d.store.sessions.values.filter (·.session.user == user)).mergeSort startsBefore, ?_,
    fun e => ?_, ?_⟩
  · show (((d.store.sessions.values.map (·.session)).filter (·.user == user)).mergeSort
      fun a b => a.startTime ≤ b.startTime) = _
    rw [List.filter_map]
    exact (List.map_mergeSort (f := fun e : Stored α => e.session) fun _ _ _ _ => rfl).symm
  · rw [List.mem_mergeSort, List.mem_filter, mem_values_iff hd ho, beq_iff_eq, and_comm]
  · have htickets : (d.store.sessions.values.filter (·.session.user == user)).Pairwise
        fun a b => a.ticket < b.ticket :=
      (List.pairwise_map.mp ho.tickets).sublist List.filter_sublist
    have hsorted := pairwise_mergeSort_stable startsBefore_trans startsBefore_total htickets
    simpa only [startsBefore, decide_eq_true_iff] using hsorted

end Desk

end PaperTrading
