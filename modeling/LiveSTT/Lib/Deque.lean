import Mathlib.Data.List.Basic
import Mathlib.Data.List.DropRight

/-!
# Bounded queues

`boundedAppend n xs x` appends to a queue of capacity `n`, dropping from the front what no longer
fits: the behaviour of a double-ended queue with a maximal length. What a reader of the queue relies
on is that everything in it was appended at some time, and that it is the end of what was appended.
-/

variable {α : Type*}

/-- Append `x`, keeping only the last `n` elements. -/
def boundedAppend (n : ℕ) (xs : List α) (x : α) : List α :=
  (xs ++ [x]).drop (xs.length + 1 - n)

theorem mem_of_mem_boundedAppend {n : ℕ} {xs : List α} {x y : α}
    (h : y ∈ boundedAppend n xs x) : y ∈ xs ∨ y = x := by
  simpa using List.mem_of_mem_drop h

/-- A bounded queue holds the last `n` of the elements appended to it. -/
theorem boundedAppend_rtake (n : ℕ) (xs : List α) (x : α) :
    boundedAppend n (xs.rtake n) x = (xs ++ [x]).rtake n := by
  rw [boundedAppend, List.rtake, List.rtake, List.length_drop, List.length_append,
    List.length_singleton]
  rcases Nat.lt_or_ge xs.length n with hlt | hle
  · rw [Nat.sub_eq_zero_of_le hlt.le, List.drop_zero, Nat.sub_zero]
  · have hone : xs.length - (xs.length - n) + 1 - n = 1 := by omega
    have hdrop : xs.length + 1 - n = xs.length - n + 1 := by omega
    rw [hone, hdrop, ← List.drop_drop, List.drop_append_of_le_length (Nat.sub_le _ _)]
