import Mathlib.Data.List.Basic

/-!
# Lists cut into pieces

A list read `k` entries at a time: piece `i` is what stands behind the first `i * k` entries, cut
off after `k`. All pieces are nonempty, all but the last have `k` entries, and together they are the
list (`flatten_cut`). A reader that keeps its place finds piece `i` where the pieces before it end
(`drop_place`).
-/

namespace Pieces

variable {α : Type*} {k i : ℕ} {xs : List α}

/-- Piece `i`. -/
def piece (k : ℕ) (xs : List α) (i : ℕ) : List α :=
  (xs.drop (i * k)).take k

/-- How many pieces there are. -/
def count (k : ℕ) (xs : List α) : ℕ :=
  (xs.length + k - 1) / k

/-- The pieces. -/
def cut (k : ℕ) (xs : List α) : List (List α) :=
  (List.range (count k xs)).map (piece k xs)

theorem length_piece (k : ℕ) (xs : List α) (i : ℕ) :
    (piece k xs i).length = min k (xs.length - i * k) := by
  rw [piece, List.length_take, List.length_drop]

theorem lt_count_iff (hk : 0 < k) : i < count k xs ↔ i * k < xs.length := by
  rw [count, Nat.lt_div_iff_mul_lt hk]
  omega

theorem piece_ne_nil_iff (hk : 0 < k) : piece k xs i ≠ [] ↔ i < count k xs := by
  rw [lt_count_iff hk, ← List.length_pos_iff, length_piece]
  omega

/-- Only the last piece may be short. -/
theorem length_piece_of_lt (hk : 0 < k) (hi : i + 1 < count k xs) : (piece k xs i).length = k := by
  rw [lt_count_iff hk, Nat.succ_mul] at hi
  rw [length_piece]
  omega

@[simp] theorem length_cut (k : ℕ) (xs : List α) : (cut k xs).length = count k xs := by
  simp [cut]

theorem getElem?_cut (hi : i < count k xs) : (cut k xs)[i]? = some (piece k xs i) := by
  simp [cut, hi]

theorem count_pos_iff (hk : 0 < k) : 0 < count k xs ↔ xs ≠ [] := by
  rw [lt_count_iff hk, Nat.zero_mul, List.length_pos_iff]

/-- The first pieces are the first entries. -/
theorem flatten_pieces (n : ℕ) : ((List.range n).map (piece k xs)).flatten = xs.take (n * k) := by
  induction n with
  | zero => simp
  | succ n ih =>
    rw [List.range_succ, List.map_append, List.flatten_append, ih, List.map_singleton,
      List.flatten_singleton, piece, Nat.succ_mul, List.take_add]

/-- The pieces are the list. -/
theorem flatten_cut (hk : 0 < k) : (cut k xs).flatten = xs := by
  have hend : xs.length ≤ count k xs * k := Nat.not_lt.1 fun hlt ↦
    absurd ((lt_count_iff hk).2 hlt) (Nat.lt_irrefl _)
  rw [cut, flatten_pieces, List.take_of_length_le hend]

/-! ### Reading -/

/-- Where piece `i` begins, for a reader that does not go beyond the end. -/
def place (k : ℕ) (xs : List α) (i : ℕ) : ℕ :=
  min (i * k) xs.length

/-- What a reader finds there. -/
theorem drop_place (k : ℕ) (xs : List α) (i : ℕ) :
    (xs.drop (place k xs i)).take k = piece k xs i := by
  rw [place, piece]
  rcases Nat.le_total (i * k) xs.length with hle | hle
  · rw [Nat.min_eq_left hle]
  · rw [Nat.min_eq_right hle, List.drop_length, List.drop_eq_nil_of_le hle]

/-- And where it is then. -/
theorem place_succ (k : ℕ) (xs : List α) (i : ℕ) :
    place k xs i + (piece k xs i).length = place k xs (i + 1) := by
  rw [place, place, length_piece, Nat.succ_mul]
  omega

end Pieces
