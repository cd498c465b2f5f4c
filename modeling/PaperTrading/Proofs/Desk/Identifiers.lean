import Mathlib.Data.List.Nodup
import Mathlib.Data.List.Perm.Subperm
import PaperTrading.Desk.Store
import PaperTrading.Proofs.Text.Digits
import PaperTrading.Session.Creation

/-!
# Free identifiers

A new session is stored under the first free one of a row of candidates.  The candidates are
pairwise different, so that one more of them than there are sessions leaves one free.  All of them
end with a digit, and they contain whatever the user and the strategy contain.

* `candidate_injective`: different numbers give different candidates.
* `exists_free`: one of the first candidates is free.
* `exists_freeId`, `find?_freeId`: **the first free candidate is chosen,** and nothing is stored under
  it.
* `Search`, `search_iff`: a search that looks up one candidate after the other ends there.
* `endsWithDigit_freeId`, `slash_mem_freeId`: what identifiers look like.
-/

namespace PaperTrading

namespace Store

variable {α : Type}

theorem candidate_injective (base : String) : Function.Injective (candidate base) := by
  -- a numbered candidate is longer than the base
  have hlonger : ∀ n : Nat, base ≠ base ++ "-" ++ toString n := fun n h => by
    have hlen := congrArg String.length h
    simp only [String.length_append] at hlen
    have : "-".length = 1 := rfl
    omega
  intro m n h
  unfold candidate at h
  split_ifs at h with hm hn hn
  · omega
  · exact absurd h (hlonger n)
  · exact absurd h.symm (hlonger m)
  · exact toString_injective ((String.append_right_inj _).mp h)

theorem contains_eq_false_iff {s : Store α} {id : String} :
    s.contains id = false ↔ s.find? id = none := by
  unfold contains Table.contains find?
  exact Option.isSome_eq_false_iff.trans Option.isNone_iff_eq_none

/-- **Among one more candidates than there are sessions,** one is free. -/
theorem exists_free (s : Store α) (base : String) (n : Nat) :
    ∃ k ≤ s.size, s.find? (candidate base (n + k)) = none := by
  by_contra hall
  have hused : (List.range (s.size + 1)).map (fun k => candidate base (n + k)) ⊆
      s.sessions.keys := by
    intro id hid
    obtain ⟨k, hk, rfl⟩ := List.mem_map.mp hid
    rw [Table.mem_keys, ← Bool.not_eq_false]
    intro hfree
    rw [List.mem_range] at hk
    exact hall ⟨k, by omega, contains_eq_false_iff.mp hfree⟩
  have hinj : Function.Injective fun k => candidate base (n + k) := fun k l h => by
    have := candidate_injective base h
    omega
  have hnodup : ((List.range (s.size + 1)).map fun k => candidate base (n + k)).Nodup :=
    List.Nodup.map hinj List.nodup_range
  have hle := (hnodup.subperm hused).length_le
  have hkeys : s.sessions.keys.length = s.size := List.length_map ..
  rw [List.length_map, List.length_range, hkeys] at hle
  omega

/-- **The first free candidate** is the identifier that is chosen. -/
theorem exists_freeId (s : Store α) (base : String) (n : Nat) :
    ∃ k ≤ s.size, s.freeId base n = candidate base (n + k) ∧
      s.find? (candidate base (n + k)) = none ∧
      ∀ j < k, s.find? (candidate base (n + j)) ≠ none := by
  unfold freeId
  rw [List.find?_map]
  cases h : (List.range (s.size + 1)).find?
      ((!s.contains ·) ∘ fun k => candidate base (n + k)) with
  | none =>
    obtain ⟨k, hk, hfree⟩ := exists_free s base n
    have hused := List.find?_eq_none.mp h k (List.mem_range.mpr (by omega))
    rw [Function.comp_apply, contains_eq_false_iff.mpr hfree] at hused
    exact absurd rfl hused
  | some k =>
    obtain ⟨hfree, hk, hbefore⟩ := List.find?_range_eq_some.mp h
    rw [List.mem_range] at hk
    refine ⟨k, by omega, rfl, contains_eq_false_iff.mp (by simpa using hfree), fun j hj hnone => ?_⟩
    have hused := hbefore j hj
    rw [Function.comp_apply, contains_eq_false_iff.mpr hnone] at hused
    exact absurd hused (by decide)

/-- **Nothing is stored under the identifier that is chosen.** -/
theorem find?_freeId (s : Store α) (base : String) (n : Nat) :
    s.find? (s.freeId base n) = none := by
  obtain ⟨k, -, hid, hfree, -⟩ := s.exists_freeId base n
  rw [hid, hfree]

/-! ### The search -/

/-- **A search for a free identifier,** from the `n`-th candidate on, with the number of its look-ups. -/
inductive Search (s : Store α) (base : String) : Nat → Nat → String → Prop
  | free {n : Nat} (h : s.find? (candidate base n) = none) : Search s base n 1 (candidate base n)
  | taken {n lookups : Nat} {id : String} (h : s.find? (candidate base n) ≠ none)
      (rest : Search s base (n + 1) lookups id) : Search s base n (lookups + 1) id

variable {s : Store α} {base : String} {n : Nat}

theorem search_of_taken {k : Nat} (htaken : ∀ j < k, s.find? (candidate base (n + j)) ≠ none)
    (hfree : s.find? (candidate base (n + k)) = none) :
    s.Search base n (k + 1) (candidate base (n + k)) := by
  induction k generalizing n with
  | zero => exact .free hfree
  | succ k ih =>
    have hshift : ∀ j, n + 1 + j = n + (j + 1) := fun j => by omega
    refine .taken (htaken 0 (by omega)) ?_
    rw [← hshift k] at hfree ⊢
    refine ih (fun j hj => ?_) hfree
    rw [hshift]
    exact htaken (j + 1) (by omega)

/-- A search can end in one way only. -/
theorem Search.unique {lookups lookups' : Nat} {id id' : String} (h : s.Search base n lookups id)
    (h' : s.Search base n lookups' id') : lookups' = lookups ∧ id' = id := by
  induction h generalizing lookups' with
  | free hfree =>
    cases h' with
    | free => exact ⟨rfl, rfl⟩
    | taken htaken => exact absurd hfree htaken
  | taken htaken _ ih =>
    cases h' with
    | free hfree => exact absurd hfree htaken
    | taken _ rest =>
      obtain ⟨hlookups, hid⟩ := ih rest
      exact ⟨by rw [hlookups], hid⟩

/-- **A search ends,** after at most one look-up more than there are sessions, at the identifier that
is chosen. -/
theorem search_iff (s : Store α) (base : String) (n : Nat) : ∃ k ≤ s.size,
    s.freeId base n = candidate base (n + k) ∧
      (∀ j < k, s.find? (candidate base (n + j)) ≠ none) ∧
      ∀ lookups id, s.Search base n lookups id ↔ lookups = k + 1 ∧ id = s.freeId base n := by
  obtain ⟨k, hk, hid, hfree, htaken⟩ := s.exists_freeId base n
  refine ⟨k, hk, hid, htaken, fun lookups id => ?_⟩
  have hends := search_of_taken htaken hfree
  rw [hid]
  constructor
  · exact hends.unique
  · rintro ⟨rfl, rfl⟩
    exact hends

/-! ### What identifiers look like -/

/-- The identifier that is chosen is one of the candidates. -/
theorem freeId_eq_candidate (s : Store α) (base : String) (n : Nat) :
    ∃ k, s.freeId base n = candidate base k := by
  obtain ⟨k, -, hid, -⟩ := s.exists_freeId base n
  exact ⟨n + k, hid⟩

theorem endsWithDigit_candidate {base : String} (h : EndsWithDigit base) (n : Nat) :
    EndsWithDigit (candidate base n) := by
  unfold candidate
  split
  · exact h
  · exact (endsWithDigit_nat n).append _

theorem slash_mem_candidate (base : String) (n : Nat) :
    '/' ∈ (candidate base n).toList ↔ '/' ∈ base.toList := by
  have hdash : '/' ∉ "-".toList := by decide +kernel
  unfold candidate
  split
  · exact Iff.rfl
  · simp only [String.toList_append, List.mem_append, hdash, slash_not_mem_nat, or_false]

variable [Arith α]

/-- **The identifier of a new session ends with a digit.** -/
theorem endsWithDigit_freeId (s : Store α) (now : Instant) (user strategy : String) (n : Nat) :
    EndsWithDigit (s.freeId (Session.baseId α now user strategy) n) := by
  obtain ⟨k, hk⟩ := s.freeId_eq_candidate (Session.baseId α now user strategy) n
  rw [hk]
  exact endsWithDigit_candidate ((endsWithDigit_int _).append _) k

/-- **It has a slash in it** exactly if the user or the strategy has. -/
theorem slash_mem_freeId (s : Store α) (now : Instant) (user strategy : String) (n : Nat) :
    '/' ∈ (s.freeId (Session.baseId α now user strategy) n).toList ↔
      '/' ∈ user.toList ∨ '/' ∈ strategy.toList := by
  have hdash : '/' ∉ "-".toList := by decide +kernel
  obtain ⟨k, hk⟩ := s.freeId_eq_candidate (Session.baseId α now user strategy) n
  rw [hk, slash_mem_candidate]
  unfold Session.baseId
  simp only [String.toList_append, List.mem_append, hdash, slash_not_mem_int, or_false]

end Store

end PaperTrading
