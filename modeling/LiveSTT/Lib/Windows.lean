import Mathlib.Algebra.GroupWithZero.Nat
import Mathlib.Data.List.Basic

/-!
# Windows of a stream

A buffer collects the elements of a stream until their sizes add up to `full`. Then it is a window,
and collecting begins anew. Elements are not split, so a window can be larger than `full`; it would
have been smaller without its last element.

`Windowed` says what was collected: the windows, followed by what is in the buffer, are the stream.
-/

section

variable {α : Type*} (size : α → ℕ) (full : ℕ)

/-- The sizes added up. -/
def totalSize (xs : List α) : ℕ := (xs.map size).sum

/-- The stream `xs` has been cut into windows, and `rest` is in the buffer. -/
structure Windowed (xs : List α) (windows : List (List α)) (rest : List α) : Prop where
  parts : windows.flatten ++ rest = xs
  filled : ∀ w ∈ windows, full ≤ totalSize size w ∧ totalSize size w.dropLast < full
  unfilled : totalSize size rest < full

variable {size full} {xs rest : List α} {windows : List (List α)}

theorem totalSize_concat (x : α) : totalSize size (xs ++ [x]) = totalSize size xs + size x := by
  simp [totalSize]

theorem windowed_nil (hfull : 0 < full) : Windowed size full [] [] [] :=
  ⟨rfl, fun _ hw ↦ absurd hw List.not_mem_nil, hfull⟩

/-- An element is collected. -/
theorem Windowed.grows (h : Windowed size full xs windows rest) {x : α}
    (hx : totalSize size (rest ++ [x]) < full) :
    Windowed size full (xs ++ [x]) windows (rest ++ [x]) :=
  ⟨by rw [← List.append_assoc, h.parts], h.filled, hx⟩

/-- An element fills the window. -/
theorem Windowed.fills (h : Windowed size full xs windows rest) {x : α}
    (hx : full ≤ totalSize size (rest ++ [x])) :
    Windowed size full (xs ++ [x]) (windows ++ [rest ++ [x]]) [] := by
  have hfull : 0 < full := Nat.zero_lt_of_lt h.unfilled
  refine ⟨?_, fun w hw ↦ ?_, hfull⟩
  · rw [List.flatten_concat, List.append_nil, ← List.append_assoc, h.parts]
  · rcases List.mem_append.1 hw with hold | hnew
    · exact h.filled w hold
    · obtain rfl := List.mem_singleton.1 hnew
      rw [List.dropLast_concat]
      exact ⟨hx, h.unfilled⟩

/-- The last window was cut off the end of the stream. -/
theorem Windowed.last_suffix {w : List α} (h : Windowed size full xs (windows ++ [w]) []) :
    w <:+ xs := by
  rw [← h.parts, List.append_nil, List.flatten_concat]
  exact List.suffix_append _ _

end
