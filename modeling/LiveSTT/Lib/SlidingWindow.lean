import Mathlib.Algebra.Order.Group.Defs
import Mathlib.Data.List.Basic
import Mathlib.Data.List.TakeWhile

/-!
# Sliding windows over a sorted history

A limiter that admits at most `n` events in any window of width `w` need not keep its history: it is
enough to keep what the eviction of old events from the front leaves. `Kept w now history recent`
says what the shortened list is to the history at a reading `now` of the clock, and `Kept.evict`
that after an eviction the two agree on the window that ends there.

`Sparse n w history` is the guarantee: no closed interval of width `w` holds more than `n` events.
It is kept when an event is admitted only at a window with room (`Sparse.append`).
-/

namespace SlidingWindow

variable {α : Type*} [LinearOrder α]

/-- The events of a history in a closed interval. -/
def within (history : List α) (lo hi : α) : List α :=
  history.filter fun x ↦ lo ≤ x ∧ x ≤ hi

/-- In a sorted list, dropping what is below a bound from the front drops all of it. -/
theorem dropWhile_lt_eq_filter {xs : List α} (h : xs.Pairwise (· ≤ ·)) (c : α) :
    xs.dropWhile (· < c) = xs.filter (c ≤ ·) := by
  induction xs with
  | nil => rfl
  | cons x xs ih =>
    obtain ⟨hx, hxs⟩ := List.pairwise_cons.1 h
    rcases lt_or_ge x c with hlt | hle
    · rw [List.dropWhile_cons_of_pos (by simpa using hlt),
        List.filter_cons_of_neg (by simpa using hlt), ih hxs]
    · rw [List.dropWhile_cons_of_neg (by simpa using hle), eq_comm, List.filter_eq_self]
      intro y hy
      rcases List.mem_cons.1 hy with rfl | hy
      · simpa using hle
      · simpa using hle.trans (hx y hy)

/-! ### What is kept of a history -/

variable [AddCommGroup α]

/-- `recent` is what is kept of the history at a reading `now`: the events not kept have left the
window. -/
structure Kept (w now : α) (history recent : List α) : Prop where
  sorted : history.Pairwise (· ≤ ·)
  le : ∀ x ∈ history, x ≤ now
  old : ∃ old, history = old ++ recent ∧ ∀ x ∈ old, x < now - w

variable {w now : α} {history recent : List α}

/-- The eviction at `now` leaves the window that ends at `now`. -/
theorem Kept.evict (h : Kept w now history recent) :
    recent.dropWhile (· < now - w) = within history (now - w) now := by
  obtain ⟨old, rfl, hold⟩ := h.old
  have hsorted : recent.Pairwise (· ≤ ·) := (List.pairwise_append.1 h.sorted).2.1
  rw [dropWhile_lt_eq_filter hsorted, within, List.filter_append]
  have hnil : old.filter (fun x ↦ now - w ≤ x ∧ x ≤ now) = [] := by
    refine List.filter_eq_nil_iff.2 fun x hx ↦ ?_
    simp [hold x hx]
  rw [hnil, List.nil_append]
  refine List.filter_congr fun x hx ↦ ?_
  simp [h.le x (List.mem_append_right _ hx)]

theorem Kept.nil : Kept w now [] [] :=
  ⟨.nil, nofun, [], rfl, nofun⟩

/-- An event at the reading. -/
theorem Kept.append (h : Kept w now history recent) :
    Kept w now (history ++ [now]) (recent ++ [now]) := by
  obtain ⟨old, hhistory, hold⟩ := h.old
  refine ⟨?_, ?_, old, ?_, hold⟩
  · exact List.pairwise_append.2 ⟨h.sorted, List.pairwise_singleton _ _, fun x hx y hy ↦
      (List.mem_singleton.1 hy) ▸ h.le x hx⟩
  · intro x hx
    rcases List.mem_append.1 hx with hx | hx
    · exact h.le x hx
    · exact (List.mem_singleton.1 hx).le
  · rw [hhistory, List.append_assoc]

/-- The window is kept. -/
theorem Kept.window (h : Kept w now history recent) :
    Kept w now history (within history (now - w) now) := by
  obtain ⟨old, hhistory, hold⟩ := h.old
  refine ⟨h.sorted, h.le, old ++ recent.takeWhile (· < now - w), ?_, fun x hx ↦ ?_⟩
  · rw [← h.evict, List.append_assoc, List.takeWhile_append_dropWhile, hhistory]
  · rcases List.mem_append.1 hx with hx | hx
    · exact hold x hx
    · simpa using List.mem_takeWhile_imp hx

section Ordered

variable [IsOrderedAddMonoid α]

/-- The clock goes on. -/
theorem Kept.advance {later : α} (h : Kept w now history recent) (hle : now ≤ later) :
    Kept w later history recent := by
  obtain ⟨old, hhistory, hold⟩ := h.old
  exact ⟨h.sorted, fun x hx ↦ (h.le x hx).trans hle, old, hhistory, fun x hx ↦
    (hold x hx).trans_le (sub_le_sub_right hle w)⟩

/-! ### The guarantee -/

/-- No closed interval of width `w` holds more than `n` events. -/
def Sparse (n : ℕ) (w : α) (history : List α) : Prop :=
  ∀ a, (within history a (a + w)).length ≤ n

/-- An event is admitted when the window that ends with it has room. -/
theorem Sparse.append {n : ℕ} (h : Sparse n w history) (hle : ∀ x ∈ history, x ≤ now)
    (hroom : (within history (now - w) now).length < n) : Sparse n w (history ++ [now]) := by
  intro a
  rw [within, List.filter_append]
  by_cases hnow : a ≤ now ∧ now ≤ a + w
  · -- What the interval holds was in the window that ends with the event.
    have hle' : (within history a (a + w)).length ≤ (within history (now - w) now).length := by
      rw [within, within, ← List.countP_eq_length_filter, ← List.countP_eq_length_filter]
      refine List.countP_mono_left fun x hx hin ↦ ?_
      have ha : a ≤ x := (of_decide_eq_true hin).1
      exact decide_eq_true ⟨(sub_le_iff_le_add.2 hnow.2).trans ha, hle x hx⟩
    have hone : ([now].filter fun x ↦ a ≤ x ∧ x ≤ a + w).length ≤ 1 :=
      List.length_filter_le _ _
    rw [List.length_append]
    exact (Nat.add_le_add hle' hone).trans hroom
  · have hnil : [now].filter (fun x ↦ a ≤ x ∧ x ≤ a + w) = [] := by simpa using hnow
    rw [hnil, List.append_nil]
    exact h a

end Ordered

end SlidingWindow
