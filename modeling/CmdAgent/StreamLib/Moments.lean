import Mathlib.Algebra.BigOperators.Group.List.Basic
import Mathlib.Algebra.Order.BigOperators.Group.List
import Mathlib.Algebra.Order.Field.Basic
import Mathlib.Tactic.FieldSimp
import Mathlib.Tactic.LinearCombination
import Mathlib.Tactic.Ring
/-!
# Mean and deviation

The mean of a list of numbers and the sum of the squared distances from it, with what one
more number at either end changes.
-/

namespace StreamLib.Moments

section
variable {K : Type} [Field K]

/-- The mean; that of no numbers is 0. -/
def mean (xs : List K) : K := xs.sum / xs.length

/-- The sum of the squared distances from `a`. -/
def squares (a : K) (xs : List K) : K := (xs.map fun x => (x - a) * (x - a)).sum

/-- The sum of the squared distances from the mean. -/
def deviation (xs : List K) : K := squares (mean xs) xs

theorem squares_expand (a : K) (xs : List K) :
    squares a xs = (xs.map fun x => x * x).sum - 2 * a * xs.sum + xs.length * (a * a) := by
  induction xs with
  | nil => simp [squares]
  | cons x xs ih =>
    rw [squares] at ih ⊢
    rw [List.map_cons, List.sum_cons, ih, List.map_cons, List.sum_cons, List.sum_cons, List.length_cons, Nat.cast_succ]
    ring

theorem mean_perm {xs ys : List K} (h : xs.Perm ys) : mean xs = mean ys := by
  rw [mean, mean, h.sum_eq, h.length_eq]

theorem deviation_perm {xs ys : List K} (h : xs.Perm ys) : deviation xs = deviation ys := by
  rw [deviation, deviation, mean_perm h]
  exact (h.map _).sum_eq

variable [CharZero K]

theorem length_mul_mean (xs : List K) : (xs.length : K) * mean xs = xs.sum := by
  cases xs with
  | nil => simp [mean]
  | cons x xs => exact mul_div_cancel₀ _ (Nat.cast_ne_zero.2 (Nat.succ_ne_zero _))

/-- Around any other point the squares grow by the distance of the mean. -/
theorem squares_eq (a : K) (xs : List K) :
    squares a xs = deviation xs + xs.length * ((mean xs - a) * (mean xs - a)) := by
  have hmean := length_mul_mean xs
  rw [deviation, squares_expand, squares_expand, ← hmean]
  ring

/-! ## One more number -/

theorem mean_cons (x : K) (xs : List K) : (xs.length + 1) * mean (x :: xs) = xs.length * mean xs + x := by
  have hmean := length_mul_mean (x :: xs)
  rw [List.length_cons, Nat.cast_succ, List.sum_cons, ← length_mul_mean xs] at hmean
  rw [hmean, add_comm]

theorem deviation_cons (x : K) (xs : List K) :
    deviation (x :: xs) = deviation xs + (x - mean (x :: xs)) * (x - mean xs) := by
  have hmean := mean_cons x xs
  have hsquares := squares_eq (mean (x :: xs)) xs
  rw [deviation, squares, List.map_cons, List.sum_cons, ← squares, hsquares]
  linear_combination (mean (x :: xs) - mean xs) * hmean

theorem mean_concat (xs : List K) (x : K) : (xs.length + 1) * mean (xs ++ [x]) = xs.length * mean xs + x := by
  rw [mean_perm (List.perm_append_singleton x xs)]
  exact mean_cons x xs

/-- The squares can be summed up together with the mean. -/
theorem deviation_concat (xs : List K) (x : K) :
    deviation (xs ++ [x]) = deviation xs + (x - mean (xs ++ [x])) * (x - mean xs) := by
  have hperm := List.perm_append_singleton x xs
  rw [deviation_perm hperm, mean_perm hperm]
  exact deviation_cons x xs

end

/-! ## Equal numbers -/

section
variable {K : Type} [Field K] [LinearOrder K] [IsStrictOrderedRing K]

theorem squares_nonneg (a : K) (xs : List K) : 0 ≤ squares a xs := by
  refine List.sum_nonneg ?_
  intro y hy
  obtain ⟨x, -, rfl⟩ := List.mem_map.1 hy
  exact mul_self_nonneg _

theorem squares_eq_zero_iff (a : K) (xs : List K) : squares a xs = 0 ↔ ∀ x ∈ xs, x = a := by
  induction xs with
  | nil => simp [squares]
  | cons x xs ih =>
    rw [squares, List.map_cons, List.sum_cons, ← squares,
      add_eq_zero_iff_of_nonneg (mul_self_nonneg _) (squares_nonneg a xs), ih, mul_self_eq_zero, sub_eq_zero,
      List.forall_mem_cons]

theorem mean_of_all {a : K} {xs : List K} (h : ∀ x ∈ xs, x = a) (hne : xs ≠ []) : mean xs = a := by
  have hlen : (xs.length : K) ≠ 0 := Nat.cast_ne_zero.2 (mt List.length_eq_zero_iff.1 hne)
  rw [mean, List.eq_replicate_of_mem h, List.sum_replicate, List.length_replicate, nsmul_eq_mul,
    mul_div_cancel_left₀ a hlen]

end

end StreamLib.Moments
