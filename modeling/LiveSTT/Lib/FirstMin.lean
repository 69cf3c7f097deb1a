import Mathlib.Order.Lattice
import Mathlib.Data.List.Basic

/-!
# The first minimum below a bound

A scan of a list for its smallest key keeps the best element so far, and the key of that element as
the bound the next one has to stay below. Elements without a key are skipped. The bound it starts
with is part of the result: an element that does not stay below it is not taken.

`scanMin` is the scan, `FirstMin` is what it is for, and `scanMin_eq_some_iff` and
`scanMin_eq_none_iff` say that one computes the other.
-/

section

variable {α β : Type*} [LinearOrder β] (key : α → Option β)

/-- The scan, with the best element so far and the bound for the next. -/
def scanMin : List α → Option α → β → Option α
  | [], best, _ => best
  | x :: xs, best, bound =>
    match key x with
    | none => scanMin xs best bound
    | some k => if k < bound then scanMin xs (some x) k else scanMin xs best bound

/-- An element of the list with a key below the bound, smaller than all keys before it and no
greater than any key behind it. -/
def FirstMin (bound : β) (xs : List α) (x : α) : Prop :=
  ∃ pre post k, xs = pre ++ x :: post ∧ key x = some k ∧ k < bound ∧
    (∀ y ∈ pre, ∀ l, key y = some l → k < l) ∧ ∀ y ∈ post, ∀ l, key y = some l → k ≤ l

/-- No key is below the bound. -/
def NoneBelow (bound : β) (xs : List α) : Prop :=
  ∀ y ∈ xs, ∀ l, key y = some l → bound ≤ l

variable {key} {bound : β} {xs : List α} {x : α}

theorem FirstMin.mem (h : FirstMin key bound xs x) : x ∈ xs := by
  obtain ⟨pre, post, k, rfl, -⟩ := h
  exact List.mem_append_right pre List.mem_cons_self

/-- One more element in front, with a key that is not below the bound, or with none. -/
theorem FirstMin.cons (h : FirstMin key bound xs x) {y : α}
    (hy : ∀ l, key y = some l → bound ≤ l) : FirstMin key bound (y :: xs) x := by
  obtain ⟨pre, post, k, rfl, hk, hbound, hpre, hpost⟩ := h
  refine ⟨y :: pre, post, k, rfl, hk, hbound, ?_, hpost⟩
  intro z hz l hl
  rcases List.mem_cons.1 hz with rfl | hz
  · exact hbound.trans_le (hy l hl)
  · exact hpre z hz l hl

/-- A smaller minimum among the rest. -/
theorem FirstMin.of_lt {y : α} {k : β} (h : FirstMin key k xs x) (hy : key y = some k)
    (hbound : k < bound) : FirstMin key bound (y :: xs) x := by
  have hfirst : FirstMin key k (y :: xs) x := by
    refine h.cons fun l hl ↦ ?_
    rw [hy] at hl
    exact (Option.some.inj hl).le
  obtain ⟨pre, post, k', heq, hk', hlt, hpre, hpost⟩ := hfirst
  exact ⟨pre, post, k', heq, hk', hlt.trans hbound, hpre, hpost⟩

theorem NoneBelow.cons (h : NoneBelow key bound xs) {y : α}
    (hy : ∀ l, key y = some l → bound ≤ l) : NoneBelow key bound (y :: xs) := by
  intro z hz l hl
  rcases List.mem_cons.1 hz with rfl | hz
  · exact hy l hl
  · exact h z hz l hl

/-- A minimum is below the bound, so there is none where no key is. -/
theorem FirstMin.not_noneBelow (h : FirstMin key bound xs x) : ¬ NoneBelow key bound xs := by
  intro hnone
  have hmem := h.mem
  obtain ⟨pre, post, k, -, hk, hbound, -⟩ := h
  exact absurd hbound (not_lt.2 (hnone x hmem k hk))

variable (key) in
/-- **What the scan finds.** -/
theorem scanMin_cases (xs : List α) (best : Option α) (bound : β) :
    (NoneBelow key bound xs ∧ scanMin key xs best bound = best) ∨
      ∃ x, FirstMin key bound xs x ∧ scanMin key xs best bound = some x := by
  induction xs generalizing best bound with
  | nil => exact Or.inl ⟨fun _ hy ↦ absurd hy List.not_mem_nil, rfl⟩
  | cons y xs ih =>
    rw [scanMin]
    split
    · rename_i hnone
      have hskip : ∀ l, key y = some l → bound ≤ l := fun l hl ↦ by
        rw [hnone] at hl
        contradiction
      rcases ih best bound with ⟨hbelow, heq⟩ | ⟨x, hx, heq⟩
      · exact Or.inl ⟨hbelow.cons hskip, heq⟩
      · exact Or.inr ⟨x, hx.cons hskip, heq⟩
    · rename_i k hk
      split
      · rename_i hlt
        -- `y` is the best so far: it stays, or a smaller one follows.
        rcases ih (some y) k with ⟨hbelow, heq⟩ | ⟨x, hx, heq⟩
        · refine Or.inr ⟨y, ⟨[], xs, k, rfl, hk, hlt, ?_, hbelow⟩, heq⟩
          exact fun _ hz ↦ absurd hz List.not_mem_nil
        · exact Or.inr ⟨x, hx.of_lt hk hlt, heq⟩
      · rename_i hle
        have hskip : ∀ l, key y = some l → bound ≤ l := fun l hl ↦ by
          rw [hk] at hl
          exact Option.some.inj hl ▸ not_lt.1 hle
        rcases ih best bound with ⟨hbelow, heq⟩ | ⟨x, hx, heq⟩
        · exact Or.inl ⟨hbelow.cons hskip, heq⟩
        · exact Or.inr ⟨x, hx.cons hskip, heq⟩

/-- The first minimum is one element. -/
theorem FirstMin.unique {y : α} (hx : FirstMin key bound xs x) (hy : FirstMin key bound xs y) :
    x = y := by
  obtain ⟨pre, post, k, rfl, hk, -, hpre, hpost⟩ := hx
  obtain ⟨pre', post', k', heq, hk', -, hpre', hpost'⟩ := hy
  rcases List.append_eq_append_iff.1 heq with ⟨mid, hmid, hrest⟩ | ⟨mid, hmid, hrest⟩
  · cases mid with
    | nil => exact (List.cons.inj hrest).1
    | cons z mid =>
      -- `x` stands before `y`, so its key is the greater one, and is not.
      obtain ⟨rfl, rfl⟩ := List.cons.inj hrest
      have hxy : k' < k := hpre' x (hmid ▸ List.mem_append_right _ List.mem_cons_self) k hk
      have hyx : k ≤ k' := hpost y (List.mem_append_right _ List.mem_cons_self) k' hk'
      exact absurd hxy (not_lt.2 hyx)
  · cases mid with
    | nil => exact (List.cons.inj hrest).1.symm
    | cons z mid =>
      obtain ⟨rfl, rfl⟩ := List.cons.inj hrest
      have hyx : k < k' := hpre y (hmid ▸ List.mem_append_right _ List.mem_cons_self) k' hk'
      have hxy : k' ≤ k := hpost' x (List.mem_append_right _ List.mem_cons_self) k hk
      exact absurd hyx (not_lt.2 hxy)

/-- **The scan returns the first minimum.** -/
theorem scanMin_eq_some_iff : scanMin key xs none bound = some x ↔ FirstMin key bound xs x := by
  rcases scanMin_cases key xs none bound with ⟨hnone, heq⟩ | ⟨y, hy, heq⟩
  · rw [heq]
    exact ⟨fun h ↦ by contradiction, fun h ↦ absurd hnone h.not_noneBelow⟩
  · rw [heq, Option.some.injEq]
    exact ⟨fun h ↦ h ▸ hy, fun h ↦ hy.unique h⟩

/-- **And nothing exactly if no key is below the bound.** -/
theorem scanMin_eq_none_iff : scanMin key xs none bound = none ↔ NoneBelow key bound xs := by
  rcases scanMin_cases key xs none bound with ⟨hnone, heq⟩ | ⟨y, hy, heq⟩
  · exact ⟨fun _ ↦ hnone, fun _ ↦ heq⟩
  · rw [heq]
    exact ⟨fun h ↦ by contradiction, fun h ↦ absurd h hy.not_noneBelow⟩

end
