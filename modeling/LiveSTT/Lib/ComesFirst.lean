import Mathlib.Data.List.Basic

/-!
# Which comes first in a queue

A queue is served from its front and grows at its end. `comesFirst good bad q` says that it holds a
good entry with no bad one in front of it. This is kept when the queue grows (`comesFirst_append`)
and when an entry is served that is neither (`comesFirst_cons`).
-/

variable {α : Type*} {good good' bad bad' : α → Bool} {x : α} {q q' : List α}

/-- The queue holds a good entry, with no bad one in front of it. -/
def comesFirst (good bad : α → Bool) : List α → Bool
  | [] => false
  | x :: q => good x || (!bad x && comesFirst good bad q)

theorem comesFirst_cons : comesFirst good bad (x :: q) = true ↔
    good x = true ∨ bad x = false ∧ comesFirst good bad q = true := by
  rw [comesFirst, Bool.or_eq_true, Bool.and_eq_true, Bool.not_eq_true']

/-- The queue grows. -/
theorem comesFirst_append (h : comesFirst good bad q = true) :
    comesFirst good bad (q ++ q') = true := by
  induction q with
  | nil => contradiction
  | cons x q ih =>
    rw [List.cons_append, comesFirst_cons]
    exact (comesFirst_cons.1 h).imp_right fun hx ↦ ⟨hx.1, ih hx.2⟩

/-- More entries are good, and none of the queue is bad that was not. -/
theorem comesFirst_mono (hgood : ∀ x ∈ q, good x = true → good' x = true)
    (hbad : ∀ x ∈ q, bad x = false → bad' x = false) (h : comesFirst good bad q = true) :
    comesFirst good' bad' q = true := by
  induction q with
  | nil => contradiction
  | cons x q ih =>
    rw [List.forall_mem_cons] at hgood hbad
    rw [comesFirst_cons] at h ⊢
    exact h.imp hgood.1 fun hx ↦ ⟨hbad.1 hx.1, ih hgood.2 hbad.2 hx.2⟩

/-- An entry that is not good makes no difference at the end. -/
theorem comesFirst_concat (hx : good x = false) :
    comesFirst good bad (q ++ [x]) = comesFirst good bad q := by
  induction q with
  | nil => simp [comesFirst, hx]
  | cons y q ih => rw [List.cons_append, comesFirst, ih, comesFirst]

/-- Only the entries of the queue make a difference. -/
theorem comesFirst_congr (hgood : ∀ x ∈ q, good x = good' x) (hbad : ∀ x ∈ q, bad x = bad' x) :
    comesFirst good bad q = comesFirst good' bad' q := by
  induction q with
  | nil => rfl
  | cons x q ih =>
    rw [List.forall_mem_cons] at hgood hbad
    rw [comesFirst, comesFirst, hgood.1, hbad.1, ih hgood.2 hbad.2]
