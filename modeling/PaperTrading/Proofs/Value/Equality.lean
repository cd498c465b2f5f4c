import Mathlib.Data.List.Forall2
import Mathlib.Data.List.Perm.Subperm
import PaperTrading.Proofs.Number.Unrounded
import PaperTrading.Proofs.Value.Proper

/-!
# Equality of values

Values are compared across their types, and objects without regard to the order of their fields.  In
exact arithmetic this is an equivalence on all proper values.  With doubles it is not: a value that is
not a number is not even the same as itself.

* `Value.Comparable`: **an equivalence** on some values; `Comparable.congr`.
* `same_list_iff`, `same_object_iff`, `same_number_iff`: when two values are the same, by the type of
  the first one.
* `proper_comparable`: **proper values are comparable in exact arithmetic.**
-/

namespace PaperTrading

namespace Value

variable {α : Type} [Arith α]

/-! ### Comparable values -/

/-- **Values that can be compared:** among those that are allowed, equality is an equivalence. -/
structure Comparable (allowed : Value α → Prop) : Prop where
  refl : ∀ {v}, allowed v → v.same v = true
  symm : ∀ {v w}, allowed v → allowed w → v.same w = true → w.same v = true
  trans : ∀ {u v w}, allowed u → allowed v → allowed w → u.same v = true → v.same w = true →
    u.same w = true

section Comparable

variable {allowed : Value α → Prop} {u v w : Value α}

theorem Comparable.comm (h : Comparable allowed) (hv : allowed v) (hw : allowed w) :
    v.same w = w.same v :=
  Bool.eq_iff_iff.mpr ⟨h.symm hv hw, h.symm hw hv⟩

/-- Values that are the same are the same as the same others. -/
theorem Comparable.congr (h : Comparable allowed) (hu : allowed u) (hv : allowed v)
    (hw : allowed w) (hsame : v.same w = true) : u.same v = u.same w :=
  Bool.eq_iff_iff.mpr
    ⟨fun huv => h.trans hu hv hw huv hsame, fun huw => h.trans hu hw hv huw (h.symm hv hw hsame)⟩

end Comparable

/-! ### When two values are the same -/

theorem sameItems_iff {vs ws : List (Value α)} : sameItems vs ws = true ↔
    vs.length = ws.length ∧ ∀ i (h : i < vs.length) (h' : i < ws.length),
      same vs[i] ws[i] = true := by
  have hrel : sameItems vs ws = true ↔ List.Forall₂ (fun v w => same v w = true) vs ws := by
    induction vs generalizing ws with
    | nil => cases ws <;> simp [sameItems]
    | cons v vs ih => cases ws <;> simp [sameItems, ih]
  exact hrel.trans List.forall₂_iff_get

theorem sameFields_iff {fs gs : List (String × Value α)} : sameFields fs gs = true ↔
    ∀ f ∈ fs, ∃ w, Table.find? ⟨gs⟩ f.1 = some w ∧ same f.2 w = true := by
  induction fs with
  | nil => simp [sameFields]
  | cons f fs ih =>
    rw [sameFields, Bool.and_eq_true, ih, List.forall_mem_cons, Table.find?]
    cases gs.find? (·.1 == f.1) <;> simp

theorem same_list_iff {vs : List (Value α)} {w : Value α} : same (list vs) w = true ↔
    ∃ ws, w = list ws ∧ vs.length = ws.length ∧
      ∀ i (h : i < vs.length) (h' : i < ws.length), same vs[i] ws[i] = true := by
  cases w <;> simp [same, sameItems_iff]

theorem same_object_iff {fs : List (String × Value α)} {w : Value α} :
    same (object fs) w = true ↔ ∃ gs, w = object gs ∧ fs.length = gs.length ∧
      ∀ f ∈ fs, ∃ w, Table.find? ⟨gs⟩ f.1 = some w ∧ same f.2 w = true := by
  cases w <;> simp [same, sameFields_iff]

theorem same_null_iff {w : Value α} : same null w = true ↔ w = null := by
  cases w <;> simp [same]

theorem same_text_iff {s : String} {w : Value α} : same (text s) w = true ↔ w = text s := by
  cases w <;> simp [same, @eq_comm String s]

/-! ### Numbers without rounding -/

section Exact

open Exact

variable {root : Rat → Rat} {u v w : Value Rat}

/-- The number that a value is compared as. -/
def number? : Value Rat → Option Rat
  | bool b => some (bit b : Int)
  | int n => some n
  | num x => some x
  | _ => none

theorem isInteger_iff {x : Rat} {n : Int} :
    @isInteger Rat (arith root) x n = true ↔ x = n := by
  show (!false && !false && x.floor == n && x == (n : Rat)) = true ↔ x = n
  simp only [Bool.not_false, Bool.true_and, Bool.and_eq_true, beq_iff_eq]
  exact ⟨fun h => h.2, fun h => ⟨by rw [h, Rat.floor_intCast], h⟩⟩

/-- **Numbers are compared by size,** whatever their types. -/
theorem same_number_iff {x : Rat} (h : v.number? = some x) :
    @same Rat (arith root) v w = true ↔ w.number? = some x := by
  have hbit : ∀ a b : Bool, bit b = bit a ↔ a = b := by decide
  cases v <;> cases h <;> cases w <;> simp [same, number?, isInteger_iff, hbit] <;> exact eq_comm

/-! ### The equivalence -/

theorem same_refl (hv : v.Proper) : @same Rat (arith root) v v = true := by
  let _ := arith root
  induction hv with
  | null => rfl
  | bool | int | num => exact (same_number_iff rfl).mpr rfl
  | text s => exact same_text_iff.mpr rfl
  | list _ ih =>
    exact same_list_iff.mpr ⟨_, rfl, rfl, fun i h _ => ih _ (List.getElem_mem h)⟩
  | object hnames _ ih =>
    refine same_object_iff.mpr ⟨_, rfl, rfl, fun f hf => ⟨f.2, ?_, ih f hf⟩⟩
    exact (Table.mem_entries_iff (t := ⟨_⟩) hnames).mp hf

theorem same_symm (hv : v.Proper) (hw : w.Proper) (h : @same Rat (arith root) v w = true) :
    @same Rat (arith root) w v = true := by
  let _ := arith root
  induction hv generalizing w with
  | null =>
    obtain rfl := same_null_iff.mp h
    exact h
  | bool | int | num =>
    have hnumber := (same_number_iff rfl).mp h
    exact (same_number_iff hnumber).mpr rfl
  | text s =>
    obtain rfl := same_text_iff.mp h
    exact h
  | list _ ih =>
    obtain ⟨ws, rfl, hlen, hitems⟩ := same_list_iff.mp h
    cases hw with
    | list hws =>
      exact same_list_iff.mpr ⟨_, rfl, hlen.symm, fun i hi hi' =>
        ih _ (List.getElem_mem hi') (hws _ (List.getElem_mem hi)) (hitems i hi' hi)⟩
  | @object fs hnames _ ih =>
    obtain ⟨gs, rfl, hlen, hfields⟩ := same_object_iff.mp h
    cases hw with
    | object hnames' hgs =>
      have hfields' : ∀ f ∈ fs, ∃ w, (f.1, w) ∈ gs ∧ f.2.same w = true := by
        intro f hf
        obtain ⟨w, hw, hsame⟩ := hfields f hf
        exact ⟨w, (Table.mem_entries_iff (t := ⟨gs⟩) hnames').mpr hw, hsame⟩
      refine same_object_iff.mpr ⟨fs, rfl, hlen.symm, fun g hg => ?_⟩
      -- there are as many names on both sides, so that each one on the right is on the left
      have hsub : fs.map (·.1) ⊆ gs.map (·.1) := by
        intro k hk
        obtain ⟨f, hf, rfl⟩ := List.mem_map.mp hk
        obtain ⟨w, hw, -⟩ := hfields' f hf
        exact List.mem_map.mpr ⟨(f.1, w), hw, rfl⟩
      have hperm : (fs.map (·.1)).Perm (gs.map (·.1)) :=
        (List.subperm_of_subset hnames hsub).perm_of_length_le (by simp [hlen])
      obtain ⟨f, hf, hname⟩ := List.mem_map.mp (hperm.mem_iff.mpr (List.mem_map_of_mem hg))
      obtain ⟨w, hw, hsame⟩ := hfields' f hf
      have hunique : w = g.2 := by
        have hfound := (Table.mem_entries_iff (t := ⟨gs⟩) hnames').mp hw
        rw [hname, (Table.mem_entries_iff (t := ⟨gs⟩) hnames').mp hg] at hfound
        exact (Option.some.inj hfound).symm
      refine ⟨f.2, (Table.mem_entries_iff (t := ⟨fs⟩) hnames).mp (hname ▸ hf), ?_⟩
      exact ih f hf (hgs g hg) (hunique ▸ hsame)

theorem same_trans (hu : u.Proper) (huv : @same Rat (arith root) u v = true)
    (hvw : @same Rat (arith root) v w = true) : @same Rat (arith root) u w = true := by
  let _ := arith root
  induction hu generalizing v w with
  | null => rwa [same_null_iff.mp huv] at hvw
  | bool | int | num =>
    have hnumber := (same_number_iff rfl).mp huv
    exact (same_number_iff rfl).mpr ((same_number_iff hnumber).mp hvw)
  | text s => rwa [same_text_iff.mp huv] at hvw
  | list _ ih =>
    obtain ⟨vs, rfl, hlen, huv⟩ := same_list_iff.mp huv
    obtain ⟨ws, rfl, hlen', hvw⟩ := same_list_iff.mp hvw
    refine same_list_iff.mpr ⟨ws, rfl, hlen.trans hlen', fun i hi hi' => ?_⟩
    exact ih _ (List.getElem_mem hi) (huv i hi (hlen ▸ hi)) (hvw i (hlen ▸ hi) hi')
  | object _ _ ih =>
    obtain ⟨gs, rfl, hlen, huv⟩ := same_object_iff.mp huv
    obtain ⟨hs, rfl, hlen', hvw⟩ := same_object_iff.mp hvw
    refine same_object_iff.mpr ⟨hs, rfl, hlen.trans hlen', fun f hf => ?_⟩
    obtain ⟨y, hy, hfy⟩ := huv f hf
    obtain ⟨z, hz, hyz⟩ := hvw (f.1, y) (Table.mem_entries_of_find? hy)
    exact ⟨z, hz, ih f hf hfy hyz⟩

/-- **Proper values are comparable** in exact arithmetic. -/
theorem proper_comparable (root : Rat → Rat) : @Comparable Rat (arith root) Proper := by
  let _ := arith root
  exact ⟨same_refl, same_symm, fun hu _ _ => same_trans hu⟩

end Exact

end Value

end PaperTrading
