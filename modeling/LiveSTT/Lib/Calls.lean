import Mathlib.Data.List.Basic

/-!
# Programs that issue calls and may raise

A program issues calls, one after the other, and then returns a value or raises an exception. An
exception ends the program, unless `tryExcept` handles it; the calls behind `tryFinally` are issued
either way, and when they raise it is their exception that counts.

Of a program it is said, by its parts: that it returns (`Returns`), what holds of the value it
returns (`Ensures`), and what holds of the calls it issues (`Only`).

The calls issued are a list, in order, and the rules are compositional: for a sequence, a loop, a
handler and a `finally`. A program says nothing of what its calls do; the answers it goes by are
part of it, as the environment gave them.
-/

/-- The calls that were issued, and how the program ended. -/
structure Calls (ε κ α : Type) where
  issued : List κ
  result : Except ε α

namespace Calls

variable {ε ε' κ α β : Type}

/-! ### Programs -/

/-- Return a value. -/
protected def pure (a : α) : Calls ε κ α := ⟨[], .ok a⟩

/-- Go on with the value that was returned. -/
protected def bind (x : Calls ε κ α) (f : α → Calls ε κ β) : Calls ε κ β :=
  match x.result with
  | .ok a => ⟨x.issued ++ (f a).issued, (f a).result⟩
  | .error e => ⟨x.issued, .error e⟩

instance : Monad (Calls ε κ) where
  pure := Calls.pure
  bind := Calls.bind

/-- Compute a value, or raise, without a call. -/
def compute (r : Except ε α) : Calls ε κ α := ⟨[], r⟩

/-- Issue a call. -/
def call (k : κ) (r : Except ε α) : Calls ε κ α := ⟨[k], r⟩

/-- Do it for each element of a list. -/
def each (f : β → Calls ε κ α) : List β → Calls ε κ (List α)
  | [] => pure []
  | b :: bs => do
    let a ← f b
    let as ← each f bs
    return a :: as

/-- `try: x except: handler`, where the handler does not raise. -/
def tryExcept (x : Calls ε κ α) (handler : ε → α) : Calls ε' κ α where
  issued := x.issued
  result := match x.result with
    | .ok a => .ok a
    | .error e => .ok (handler e)

/-- `try: x finally: y`. -/
def tryFinally (x : Calls ε κ α) (y : Calls ε κ Unit) : Calls ε κ α where
  issued := x.issued ++ y.issued
  result := match y.result with
    | .ok () => x.result
    | .error e => .error e

variable {x : Calls ε κ α} {y : Calls ε κ Unit} {f : α → Calls ε κ β} {g : β → Calls ε κ α}
  {handler : ε → α} {bs : List β}

theorem bind_of_ok {a : α} (h : x.result = .ok a) :
    x >>= f = ⟨x.issued ++ (f a).issued, (f a).result⟩ := by
  show Calls.bind x f = _
  rw [Calls.bind, h]

theorem bind_of_error {e : ε} (h : x.result = .error e) : x >>= f = ⟨x.issued, .error e⟩ := by
  show Calls.bind x f = _
  rw [Calls.bind, h]

/-! ### Which programs return -/

/-- The program returns. -/
def Returns (x : Calls ε κ α) : Prop := ∃ a, x.result = .ok a

theorem returns_pure (a : α) : (pure a : Calls ε κ α).Returns := ⟨a, rfl⟩

/-- A sequence of calls returns exactly if its first part does and the rest does with its result. -/
theorem returns_bind_iff : (x >>= f).Returns ↔ ∃ a, x.result = .ok a ∧ (f a).Returns := by
  rcases hx : x.result with e | a
  · rw [bind_of_error hx]
    refine iff_of_false ?_ ?_
    · rintro ⟨b, hb⟩
      simp at hb
    · rintro ⟨a, ha, -⟩
      simp at ha
  · rw [bind_of_ok hx]
    constructor
    · intro h
      exact ⟨a, rfl, h⟩
    · rintro ⟨a', ha', h⟩
      obtain rfl := Except.ok.inj ha'
      exact h

theorem returns_tryExcept : (tryExcept x handler : Calls ε' κ α).Returns := by
  rcases hx : x.result with e | a
  · exact ⟨handler e, by rw [tryExcept, hx]⟩
  · exact ⟨a, by rw [tryExcept, hx]⟩

/-- A `finally` lets an exception through, and adds its own. -/
theorem returns_tryFinally_iff : (x.tryFinally y).Returns ↔ x.Returns ∧ y.Returns := by
  rcases hy : y.result with e | ⟨⟩
  · refine iff_of_false ?_ ?_
    · rintro ⟨a, ha⟩
      simp [tryFinally, hy] at ha
    · rintro ⟨-, u, hu⟩
      simp [hy] at hu
  · have hresult : (x.tryFinally y).result = x.result := by rw [tryFinally, hy]
    rw [Returns, hresult]
    exact (and_iff_left ⟨(), hy⟩).symm

/-- A loop returns if its body does for every element. -/
theorem returns_each (h : ∀ b, (g b).Returns) : (each g bs).Returns := by
  induction bs with
  | nil => exact returns_pure []
  | cons b bs ih =>
    obtain ⟨a, ha⟩ := h b
    obtain ⟨as, has⟩ := ih
    rw [each]
    refine returns_bind_iff.2 ⟨a, ha, ?_⟩
    exact returns_bind_iff.2 ⟨as, has, returns_pure _⟩

/-! ### What they return -/

/-- What the program returns, if it does, has the property. -/
def Ensures (Q : α → Prop) (x : Calls ε κ α) : Prop := ∀ a, x.result = .ok a → Q a

variable {Q : α → Prop} {R : β → Prop}

theorem ensures_pure {a : α} (h : Q a) : Ensures Q (pure a : Calls ε κ α) := by
  intro a' ha'
  obtain rfl : a = a' := Except.ok.inj ha'
  exact h

theorem ensures_bind (h : ∀ a, x.result = .ok a → Ensures R (f a)) : Ensures R (x >>= f) := by
  intro b hb
  rcases hx : x.result with e | a
  · rw [bind_of_error hx] at hb
    simp at hb
  · rw [bind_of_ok hx] at hb
    exact h a hx b hb

/-- What holds of both the body and the handler holds of the result. -/
theorem ensures_tryExcept (h : Ensures Q x) (hhandler : ∀ e, Q (handler e)) :
    Ensures Q (tryExcept x handler : Calls ε' κ α) := by
  intro a ha
  rcases hx : x.result with e | a'
  · rw [tryExcept, hx] at ha
    obtain rfl := Except.ok.inj ha
    exact hhandler e
  · rw [tryExcept, hx] at ha
    obtain rfl := Except.ok.inj ha
    exact h a' hx

theorem ensures_tryFinally (h : Ensures Q x) : Ensures Q (x.tryFinally y) := by
  intro a ha
  rcases hy : y.result with e | ⟨⟩
  · simp [tryFinally, hy] at ha
  · refine h a ?_
    rwa [tryFinally, hy] at ha

/-! ### Programs that have returned -/

/-- Both parts have, and all their calls were issued. -/
theorem exists_of_bind_ok {b : β} (h : (x >>= f).result = .ok b) :
    ∃ a, x.result = .ok a ∧ (f a).result = .ok b ∧ (x >>= f).issued = x.issued ++ (f a).issued := by
  rcases hx : x.result with e | a
  · rw [bind_of_error hx] at h
    contradiction
  · rw [bind_of_ok hx] at h ⊢
    exact ⟨a, rfl, h, rfl⟩

/-- So has each round of a loop. -/
theorem issued_of_each_ok {as : List α} (h : (each g bs).result = .ok as) :
    (each g bs).issued = bs.flatMap (fun b ↦ (g b).issued) ∧ ∀ b ∈ bs, (g b).Returns := by
  induction bs generalizing as with
  | nil => exact ⟨rfl, nofun⟩
  | cons b bs ih =>
    rw [each] at h ⊢
    obtain ⟨a, hb, hrest, hissued⟩ := exists_of_bind_ok h
    obtain ⟨as', hbs, -, hissued'⟩ := exists_of_bind_ok hrest
    obtain ⟨heq, hall⟩ := ih hbs
    refine ⟨?_, List.forall_mem_cons.2 ⟨⟨a, hb⟩, hall⟩⟩
    rw [hissued, hissued', heq, List.flatMap_cons]
    exact congrArg _ (List.append_nil _)

/-- The part that was tried has, and the calls behind it. -/
theorem result_of_tryFinally_ok {a : α} (h : (x.tryFinally y).result = .ok a) :
    x.result = .ok a ∧ y.result = .ok () := by
  rcases hy : y.result with e | ⟨⟩
  · simp [tryFinally, hy] at h
  · rw [tryFinally, hy] at h
    exact ⟨h, rfl⟩

/-! ### What they call -/

/-- Every call that is issued has the property. -/
def Only (P : κ → Prop) (x : Calls ε κ α) : Prop := ∀ k ∈ x.issued, P k

variable {P : κ → Prop}

theorem only_pure (a : α) : Only P (pure a : Calls ε κ α) := by
  intro k hk
  exact absurd hk List.not_mem_nil

theorem only_compute (r : Except ε α) : Only P (compute r : Calls ε κ α) := by
  intro k hk
  exact absurd hk List.not_mem_nil

theorem only_call {k : κ} (r : Except ε α) (h : P k) : Only P (call k r) := by
  intro k' hk'
  obtain rfl := List.mem_singleton.1 hk'
  exact h

/-- Each part makes no other calls. -/
theorem only_bind (hx : Only P x) (h : ∀ a, x.result = .ok a → Only P (f a)) :
    Only P (x >>= f) := by
  intro k hk
  rcases hresult : x.result with e | a
  · rw [bind_of_error hresult] at hk
    exact hx k hk
  · rw [bind_of_ok hresult] at hk
    rcases List.mem_append.1 hk with hk | hk
    · exact hx k hk
    · exact h a hresult k hk

theorem only_each (h : ∀ b, Only P (g b)) : Only P (each g bs) := by
  induction bs with
  | nil => exact only_pure []
  | cons b bs ih =>
    rw [each]
    exact only_bind (h b) fun _ _ ↦ only_bind ih fun _ _ ↦ only_pure _

theorem only_tryExcept (h : Only P x) : Only P (tryExcept x handler : Calls ε' κ α) := h

theorem only_tryFinally (hx : Only P x) (hy : Only P y) : Only P (x.tryFinally y) := by
  intro k hk
  rcases List.mem_append.1 hk with hk | hk
  · exact hx k hk
  · exact hy k hk

end Calls
