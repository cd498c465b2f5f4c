import Mathlib.Logic.Function.Basic

/-!
# Written numbers

A number is written in digits, of which there is at least one, and it can be read off them.  A
number that stands behind a dash at the end of a text can be read off the text.

* `isDigit_of_mem_toString`, `toString_injective`: **written numbers.**
* `EndsWithDigit`: a text that ends with a digit.
* `number_of_dashed`: the number behind the last dash of a text.
-/

namespace PaperTrading

/-! ### Digits of numbers -/

theorem isDigit_of_mem_toString {n : Nat} {c : Char} (h : c ∈ (toString n).toList) :
    c.isDigit = true := by
  rw [Nat.toString_eq_ofList_toDigits, String.toList_ofList] at h
  exact Nat.isDigit_of_mem_toDigits (by decide) (by decide) h

/-- **A number can be read off its digits.** -/
theorem toString_injective : Function.Injective (toString : Nat → String) := by
  intro m n h
  rw [Nat.toString_eq_ofList_toDigits, Nat.toString_eq_ofList_toDigits] at h
  have hvalue := congrArg (Nat.ofDigitChars 10 · 0) (String.ofList_injective h)
  simpa only [Nat.ofDigitChars_ten_toDigits] using hvalue

theorem slash_not_mem_nat (n : Nat) : '/' ∉ (toString n).toList := fun h =>
  nomatch isDigit_of_mem_toString h

theorem slash_not_mem_int (n : Int) : '/' ∉ (toString n).toList := by
  cases n with
  | ofNat n => exact slash_not_mem_nat n
  | negSucc n =>
    show '/' ∉ ("-" ++ toString (n + 1)).toList
    rw [String.toList_append, List.mem_append]
    rintro (h | h)
    · revert h; decide +kernel
    · exact slash_not_mem_nat _ h

theorem dash_not_mem_nat (n : Nat) : '-' ∉ (toString n).toList := fun h =>
  nomatch isDigit_of_mem_toString h

/-- **The number behind the last dash** of a text is a matter of the text alone. -/
theorem number_of_dashed {s t : String} {m n : Nat}
    (h : s ++ "-" ++ toString m = t ++ "-" ++ toString n) : m = n := by
  -- read from its end, such a text begins with the digits of its number, up to the dash
  have hdigits : ∀ (s : String) (n : Nat), (s ++ "-" ++ toString n).toList.reverse.takeWhile
      (· != '-') = (toString n).toList.reverse := by
    intro s n
    have hall : ∀ c ∈ (toString n).toList.reverse, (c != '-') = true := by
      intro c hc
      rw [List.mem_reverse] at hc
      rw [bne_iff_ne]
      rintro rfl
      exact dash_not_mem_nat n hc
    have hdash : "-".toList = ['-'] := rfl
    rw [String.toList_append, String.toList_append, List.reverse_append, List.reverse_append, hdash,
      List.takeWhile_append_of_pos hall]
    simp
  have hreverse := hdigits s m
  rw [h, hdigits t n] at hreverse
  exact toString_injective (String.toList_injective (List.reverse_inj.mp hreverse)).symm

/-! ### Texts that end with a digit -/

/-- A text that ends with a digit. -/
def EndsWithDigit (s : String) : Prop := ∃ c, s.toList.getLast? = some c ∧ c.isDigit = true

theorem EndsWithDigit.append {t : String} (h : EndsWithDigit t) (s : String) :
    EndsWithDigit (s ++ t) := by
  obtain ⟨c, hc, hdigit⟩ := h
  refine ⟨c, ?_, hdigit⟩
  rw [String.toList_append, List.getLast?_append, hc]
  rfl

theorem EndsWithDigit.ne_empty {s : String} (h : EndsWithDigit s) : s ≠ "" := by
  rintro rfl
  obtain ⟨c, hc, -⟩ := h
  cases hc

theorem endsWithDigit_nat (n : Nat) : EndsWithDigit (toString n) := by
  have hne : (toString n).toList ≠ [] := by
    rw [Nat.toString_eq_ofList_toDigits, String.toList_ofList]
    exact Nat.toDigits_ne_nil
  exact ⟨_, List.getLast?_eq_some_getLast hne, isDigit_of_mem_toString (List.getLast_mem hne)⟩

theorem endsWithDigit_int (n : Int) : EndsWithDigit (toString n) := by
  cases n with
  | ofNat n => exact endsWithDigit_nat n
  | negSucc n => exact (endsWithDigit_nat (n + 1)).append "-"

end PaperTrading
