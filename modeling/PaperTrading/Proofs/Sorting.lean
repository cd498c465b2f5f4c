import Mathlib.Data.List.Sort

/-!
# Stable sorting

Sorting by merging leaves alone whatever is in order already, and keeps ties in the order in which
they stood.

* `filter_mergeSort`: **items among which every order is right** stand in a sorted list as before.
* `pairwise_mergeSort_stable`: what holds along a list still holds between its ties.
-/

namespace PaperTrading

variable {β : Type} {le : β → β → Bool}

section Order

variable (trans : ∀ a b c, le a b = true → le b c = true → le a c = true)
  (total : ∀ a b, (le a b || le b a) = true)
include trans total

/-- **Items among which every order is right** stand in a sorted list as they stood before. -/
theorem filter_mergeSort {p : β → Bool} (l : List β)
    (h : ∀ a b, p a = true → p b = true → le a b = true) :
    (l.mergeSort le).filter p = l.filter p := by
  have hties : (l.filter p).Pairwise fun a b => le a b = true :=
    List.pairwise_of_forall_mem_list fun a ha b hb =>
      h a b (List.mem_filter.mp ha).2 (List.mem_filter.mp hb).2
  have hsub : (l.filter p).Sublist ((l.mergeSort le).filter p) := by
    have := (List.sublist_mergeSort trans total hties List.filter_sublist).filter p
    simpa only [List.filter_filter, Bool.and_self] using this
  exact (hsub.eq_of_length ((List.mergeSort_perm l le).filter p).length_eq.symm).symm

/-- **A sorted list keeps ties in their order:** what holds along the list before still holds between
two items neither of which comes before the other. -/
theorem pairwise_mergeSort_stable {R : β → β → Prop} {l : List β} (h : l.Pairwise R) :
    (l.mergeSort le).Pairwise fun a b => le a b = true ∧ (le b a = true → R a b) := by
  rw [List.pairwise_iff_forall_sublist]
  intro a b hab
  have hle : le a b = true :=
    List.pairwise_iff_forall_sublist.mp (List.pairwise_mergeSort trans total l) hab
  refine ⟨hle, fun hba => ?_⟩
  -- the items tied with `a` stand in the sorted list as they stood before
  let tied (x : β) : Bool := le a x && le x a
  have hkept : (l.mergeSort le).filter tied = l.filter tied := by
    refine filter_mergeSort trans total l fun x y hx hy => ?_
    simp only [tied, Bool.and_eq_true] at hx hy
    exact trans x a y hx.2 hy.1
  have hpair : [a, b].Sublist ((l.mergeSort le).filter tied) := by
    have haa : le a a = true := by simpa using total a a
    have := hab.filter tied
    simpa [tied, haa, hle, hba] using this
  rw [hkept] at hpair
  exact List.pairwise_iff_forall_sublist.mp h (hpair.trans List.filter_sublist)

end Order

end PaperTrading
