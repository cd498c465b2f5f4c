import Mathlib.Algebra.Order.Field.Rat
import Mathlib.Tactic.Linarith
import PaperTrading.Number.Exact

/-!
# Operations without rounding

What the operations of exact arithmetic yield, in the terms of ordinary fractions.

* `times_ok_iff`, `quotient_eq`, `dividedBy_ok_iff`: products with integers, and quotients.
* `sum_eq`: sums.
-/

namespace PaperTrading

namespace Exact

variable {root : Rat → Rat}

theorem zero_eq : (0.0 : Rat) = 0 := by norm_num

theorem times_ok_iff {x y : Rat} {n : Int} :
    @Arith.times Rat (arith root) x n = .ok y ↔ x * n = y := by
  show (Except.ok (x * n) : Except Failure Rat) = .ok y ↔ x * n = y
  rw [Except.ok.injEq]

theorem quotient_eq {y : Rat} (hy : y ≠ 0) (x : Rat) :
    @Arith.quotient Rat (arith root) x y = .ok (x / y) := by
  have hne : ¬ (y == 0.0) = true := by
    rw [zero_eq, beq_iff_eq]; exact hy
  show (if (y == 0.0) = true then Except.error (Failure.divisionByZero false)
    else Except.ok (x / y)) = .ok (x / y)
  rw [if_neg hne]

theorem dividedBy_ok_iff {x y : Rat} {n : Int} (hn : n ≠ 0) :
    @Arith.dividedBy Rat (arith root) x n = .ok y ↔ x / n = y := by
  show @Arith.quotient Rat (arith root) x n = .ok y ↔ x / n = y
  rw [quotient_eq (by exact_mod_cast hn), Except.ok.injEq]

theorem not_le_zero_iff {x : Rat} : ¬ @LE.le Rat (arith root).toLE x 0.0 ↔ 0 < x := by
  show ¬ x ≤ 0.0 ↔ 0 < x
  rw [zero_eq, not_le]

theorem sum_eq (xs : List Rat) : @Arith.sum Rat (arith root) xs = xs.sum := by
  show xs.foldl (· + ·) 0.0 = xs.sum
  rw [zero_eq, List.sum_eq_foldl]

end Exact

end PaperTrading
