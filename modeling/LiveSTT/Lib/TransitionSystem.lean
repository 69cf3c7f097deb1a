import Mathlib.Data.List.Basic

/-!
# Labelled transition systems, guarded runs and their invariants

The substrate for reasoning about programs that take step after step: a system is a set of initial
states and a **partial step function** over labels. All nondeterminism — scheduling, the answers of
the environment, time — lives in the label, so a step is executable and a concrete run is checked by
evaluation.

## Guarded runs

`M.Run G s as t` is a run from `s` to `t` taking the labels `as`, each of them in a state where the
guard `G` allows it. The guard is how an assumption about the environment, or a condition on the
runs a result is about, is stated once and kept out of the system itself. Runs grow on the right, so
an induction on a run sees the last step.

## The rules

* `Run.invariant` and `Inductive.reachable`: a predicate preserved by every allowed step holds
  throughout the run, respectively in every reachable state.
* `Reachable.induct`: the same where the step uses what is known of every reachable state.
* `Run.relates`: what holds between the two ends of every step, reflexively and transitively, holds
  between the two ends of a run.
* `Run.mono`: weakening the guard keeps the run.
* `Refines.reachable`: invariants pass along a state abstraction that turns each step into a run.
* `observe` adds a history variable, which restricts no run (`Reachable.observe`) and can be left
  out again (`refines_observe`).
* `exec` evaluates a list of labels; `exists_reachable_of_exec` turns an evaluation into a
  reachable state.
-/

/-- A labelled transition system. A label resolves every choice, so a step is a partial function:
`none` is a label that is not possible in the state. -/
structure TransitionSystem (σ : Type*) (α : Type*) where
  /-- The initial states. -/
  init : σ → Prop
  /-- The successor under a label, if the label is possible. -/
  step : σ → α → Option σ

namespace TransitionSystem

variable {σ α : Type*} (M : TransitionSystem σ α)

/-! ### Runs -/

/-- A run from `s`, each label allowed by the guard `G` in the state it is taken in. -/
inductive Run (G : σ → α → Prop) (s : σ) : List α → σ → Prop
  | nil : Run G s [] s
  | snoc {as : List α} {a : α} {t u : σ} :
      Run G s as t → G t a → M.step t a = some u → Run G s (as ++ [a]) u

/-- The states reachable from an initial one by guarded steps. -/
def Reachable (G : σ → α → Prop) (t : σ) : Prop :=
  ∃ s as, M.init s ∧ M.Run G s as t

/-- Every label is allowed in every state. -/
def always (_ : σ) (_ : α) : Prop := True

instance (s : σ) (a : α) : Decidable (always s a) :=
  inferInstanceAs (Decidable True)

variable {M} {G H : σ → α → Prop}

theorem Run.single {s t : σ} {a : α} (hG : G s a) (h : M.step s a = some t) :
    M.Run G s [a] t :=
  show M.Run G s ([] ++ [a]) t from Run.snoc Run.nil hG h

theorem Run.trans {s t u : σ} {as bs : List α} (h₁ : M.Run G s as t) (h₂ : M.Run G t bs u) :
    M.Run G s (as ++ bs) u := by
  induction h₂ with
  | nil => simpa using h₁
  | snoc _ hG hstep ih =>
    rw [← List.append_assoc]
    exact Run.snoc ih hG hstep

/-- A run along two lists of labels passes through a state between them. -/
theorem Run.split {s u : σ} {as bs : List α} (h : M.Run G s (as ++ bs) u) :
    ∃ t, M.Run G s as t ∧ M.Run G t bs u := by
  generalize hcs : as ++ bs = cs at h
  induction h generalizing bs with
  | nil =>
    obtain ⟨rfl, rfl⟩ := List.append_eq_nil_iff.1 hcs
    exact ⟨s, Run.nil, Run.nil⟩
  | @snoc cs c t u hrun hG hstep ih =>
    rcases List.eq_nil_or_concat bs with rfl | ⟨bs, b, rfl⟩
    · obtain rfl : as = cs ++ [c] := by simpa using hcs
      exact ⟨u, Run.snoc hrun hG hstep, Run.nil⟩
    · rw [List.concat_eq_append, ← List.append_assoc] at hcs
      obtain ⟨has, hb⟩ := List.append_inj' hcs rfl
      obtain rfl : b = c := List.singleton_injective hb
      obtain ⟨v, hv, hrest⟩ := ih has
      refine ⟨v, hv, ?_⟩
      rw [List.concat_eq_append]
      exact Run.snoc hrest hG hstep

/-- The labels determine where a run ends. -/
theorem Run.deterministic {s t u : σ} {as : List α} (ht : M.Run G s as t) (hu : M.Run H s as u) :
    t = u := by
  induction ht generalizing u with
  | nil =>
    generalize hbs : ([] : List α) = bs at hu
    cases hu with
    | nil => rfl
    | snoc => simp at hbs
  | @snoc as a t v _ _ hstep ih =>
    generalize hbs : as ++ [a] = bs at hu
    cases hu with
    | nil => simp at hbs
    | @snoc bs b w _ hrun _ hstep' =>
      obtain ⟨rfl, hb⟩ := List.append_inj' hbs rfl
      obtain rfl : a = b := List.singleton_injective hb
      obtain rfl := ih hrun
      exact Option.some.inj (hstep.symm.trans hstep')

/-- A guard that is as weak on the steps that are possible allows the run. -/
theorem Run.weaken {s t : σ} {as : List α}
    (hGH : ∀ s a, (M.step s a).isSome = true → G s a → H s a) (h : M.Run G s as t) :
    M.Run H s as t := by
  induction h with
  | nil => exact Run.nil
  | snoc _ hG hstep ih => exact Run.snoc ih (hGH _ _ (Option.isSome_of_eq_some hstep) hG) hstep

/-- A weaker guard allows every run a stronger one does. -/
theorem Run.mono {s t : σ} {as : List α} (hGH : ∀ s a, G s a → H s a) (h : M.Run G s as t) :
    M.Run H s as t :=
  h.weaken fun s a _ ↦ hGH s a

theorem Reachable.of_init {s : σ} (h : M.init s) : M.Reachable G s :=
  ⟨s, [], h, Run.nil⟩

theorem Reachable.step {s t : σ} {a : α} (h : M.Reachable G s) (hG : G s a)
    (hstep : M.step s a = some t) : M.Reachable G t := by
  obtain ⟨s₀, as, hs₀, hrun⟩ := h
  exact ⟨s₀, as ++ [a], hs₀, Run.snoc hrun hG hstep⟩

/-- A run continues reachability. -/
theorem Reachable.run {s t : σ} {as : List α} (h : M.Reachable G s) (hrun : M.Run G s as t) :
    M.Reachable G t := by
  obtain ⟨s₀, as₀, hs₀, hrun₀⟩ := h
  exact ⟨s₀, as₀ ++ as, hs₀, hrun₀.trans hrun⟩

/-- A weaker guard reaches every state a stronger one does. -/
theorem Reachable.mono {t : σ} (hGH : ∀ s a, G s a → H s a) (h : M.Reachable G t) :
    M.Reachable H t := by
  obtain ⟨s₀, as, hs₀, hrun⟩ := h
  exact ⟨s₀, as, hs₀, hrun.mono hGH⟩

/-! ### Invariants -/

/-- **The run rule.** A predicate that every allowed step preserves is preserved by a run. -/
theorem Run.invariant {I : σ → Prop} {s t : σ} {as : List α}
    (hstep : ∀ {s a t}, I s → G s a → M.step s a = some t → I t)
    (hrun : M.Run G s as t) (hs : I s) : I t := by
  induction hrun with
  | nil => exact hs
  | snoc _ hG h ih => exact hstep ih hG h

/-- **The relational run rule.** A reflexive and transitive relation between the two ends of every
allowed step holds between the two ends of a run. -/
theorem Run.relates {R : σ → σ → Prop} {s t : σ} {as : List α} (hrefl : ∀ s, R s s)
    (htrans : ∀ {s t u}, R s t → R t u → R s u)
    (hstep : ∀ {s a t}, G s a → M.step s a = some t → R s t)
    (hrun : M.Run G s as t) : R s t := by
  induction hrun with
  | nil => exact hrefl s
  | snoc _ hG h ih => exact htrans ih (hstep hG h)

variable (M G) in
/-- An **inductive invariant** under a guard: true initially and preserved by allowed steps. -/
structure Inductive (I : σ → Prop) : Prop where
  init : ∀ s, M.init s → I s
  step : ∀ {s a t}, I s → G s a → M.step s a = some t → I t

/-- **The invariant rule.** -/
theorem Inductive.reachable {I : σ → Prop} (hI : M.Inductive G I) {t : σ}
    (h : M.Reachable G t) : I t := by
  obtain ⟨s, as, hs, hrun⟩ := h
  exact hrun.invariant hI.step (hI.init s hs)

/-- **The invariant rule, with what is known.** The step may use whatever holds of every reachable
state. -/
theorem Reachable.induct {I : σ → Prop} {t : σ} (h : M.Reachable G t) (init : ∀ s, M.init s → I s)
    (step : ∀ {s a t}, M.Reachable G s → I s → G s a → M.step s a = some t → I t) : I t := by
  obtain ⟨s, as, hs, hrun⟩ := h
  induction hrun with
  | nil => exact init s hs
  | snoc hrun hG hstep ih => exact step ⟨s, _, hs, hrun⟩ ih hG hstep

/-! ### Refinement -/

/-- `M` refines `N` along the state abstraction `f`: a step of `M` is a run of `N` on the abstracted
states, which may be empty. -/
structure Refines {τ β : Type*} (M : TransitionSystem σ α) (G : σ → α → Prop)
    (N : TransitionSystem τ β) (H : τ → β → Prop) (f : σ → τ) : Prop where
  init : ∀ s, M.init s → N.init (f s)
  step : ∀ {s a t}, G s a → M.step s a = some t → ∃ bs, N.Run H (f s) bs (f t)

/-- A run of `M` is abstracted to a run of `N`. -/
theorem Refines.run {τ β : Type*} {N : TransitionSystem τ β} {H : τ → β → Prop} {f : σ → τ}
    (hf : M.Refines G N H f) {s t : σ} {as : List α} (hrun : M.Run G s as t) :
    ∃ bs, N.Run H (f s) bs (f t) := by
  induction hrun with
  | nil => exact ⟨[], Run.nil⟩
  | snoc _ hG hstep ih =>
    obtain ⟨bs, hbs⟩ := ih
    obtain ⟨bs', hbs'⟩ := hf.step hG hstep
    exact ⟨bs ++ bs', hbs.trans hbs'⟩

/-- **The refinement rule.** Reachable states are abstracted to reachable states, so what is
invariant of `N` holds of `M` through `f`. -/
theorem Refines.reachable {τ β : Type*} {N : TransitionSystem τ β} {H : τ → β → Prop} {f : σ → τ}
    (hf : M.Refines G N H f) {t : σ} (h : M.Reachable G t) : N.Reachable H (f t) := by
  obtain ⟨s, as, hs, hrun⟩ := h
  obtain ⟨bs, hbs⟩ := hf.run hrun
  exact ⟨f s, bs, hf.init s hs, hbs⟩

/-! ### History variables -/

/-- The system with a history variable: it starts at `h₀`, and `f` computes its value after a step
from the value before and the two ends of the step. It decides nothing. -/
def observe {η : Type*} (M : TransitionSystem σ α) (h₀ : η) (f : η → σ → σ → η) :
    TransitionSystem (σ × η) α where
  init p := M.init p.1 ∧ p.2 = h₀
  step p a := (M.step p.1 a).map fun t ↦ (t, f p.2 p.1 t)

section Observe

variable {η : Type*} {h₀ : η} {f : η → σ → σ → η}

theorem step_observe {p q : σ × η} {a : α} (h : (M.observe h₀ f).step p a = some q) :
    M.step p.1 a = some q.1 ∧ q.2 = f p.2 p.1 q.1 := by
  obtain ⟨t, ht, rfl⟩ := Option.map_eq_some_iff.1 h
  exact ⟨ht, rfl⟩

/-- The history variable is left out. -/
theorem refines_observe {K : σ × η → α → Prop} :
    (M.observe h₀ f).Refines K M always Prod.fst where
  init _ hp := hp.1
  step _ hstep := ⟨_, Run.single trivial (step_observe hstep).1⟩

/-- The history variable restricts no run. -/
theorem Reachable.observe {t : σ} (h : M.Reachable G t) (h₀ : η) (f : η → σ → σ → η) :
    ∃ x, (M.observe h₀ f).Reachable (fun p a ↦ G p.1 a) (t, x) := by
  refine h.induct (I := fun t ↦ ∃ x, (M.observe h₀ f).Reachable (fun p a ↦ G p.1 a) (t, x))
    (fun s hs ↦ ⟨h₀, Reachable.of_init ⟨hs, rfl⟩⟩) fun {s a t} _ ih hG hstep ↦ ?_
  obtain ⟨x, hx⟩ := ih
  exact ⟨f x s t, hx.step hG (by simp [TransitionSystem.observe, hstep])⟩

end Observe

/-! ### Evaluating runs -/

/-- Take the labels one after another, stopping at the first that is impossible or not allowed. -/
def exec (M : TransitionSystem σ α) (G : σ → α → Prop) [∀ s a, Decidable (G s a)] :
    σ → List α → Option σ
  | s, [] => some s
  | s, a :: as => if G s a then (M.step s a).bind fun t ↦ exec M G t as else none

/-- A run may be executed. -/
theorem run_of_exec [∀ s a, Decidable (G s a)] :
    ∀ {as : List α} {s t : σ}, M.exec G s as = some t → M.Run G s as t
  | [], s, t, h => by
    obtain rfl : s = t := by simpa [exec] using h
    exact Run.nil
  | a :: as, s, t, h => by
    by_cases hG : G s a
    · simp only [exec, if_pos hG, Option.bind_eq_some_iff] at h
      obtain ⟨u, hu, hrest⟩ := h
      exact Run.trans (Run.single hG hu) (run_of_exec hrest)
    · simp [exec, hG] at h

/-- A test that succeeds on the evaluated end state: a run leads to a state that passes it. -/
theorem Run.exists_of_exec [∀ s a, Decidable (G s a)] {s : σ} {as : List α} {p : σ → Bool}
    (h : (M.exec G s as).any p = true) : ∃ t, M.Run G s as t ∧ p t = true := by
  obtain ⟨t, ht, hp⟩ := (Option.any_eq_true _ _).1 h
  exact ⟨t, run_of_exec ht, hp⟩

theorem Reachable.exists_of_exec [∀ s a, Decidable (G s a)] {s : σ} (hs : M.Reachable G s)
    (as : List α) (p : σ → Bool) (h : (M.exec G s as).any p = true) :
    ∃ t, M.Reachable G t ∧ p t = true := by
  obtain ⟨t, hrun, hp⟩ := Run.exists_of_exec h
  exact ⟨t, hs.run hrun, hp⟩

theorem exists_reachable_of_exec [∀ s a, Decidable (G s a)] (s : σ) (as : List α) (p : σ → Bool)
    (hs : M.init s) (h : (M.exec G s as).any p = true) : ∃ t, M.Reachable G t ∧ p t = true :=
  (Reachable.of_init hs).exists_of_exec as p h

/-- The same for a reachable state and a run from it. -/
theorem exists_run_of_exec [∀ s a, Decidable (G s a)] (s : σ) (as bs : List α) (p : σ → σ → Bool)
    (hs : M.init s)
    (h : ((M.exec G s as).any fun t ↦ (M.exec G t bs).any fun u ↦ p t u) = true) :
    ∃ t u, M.Reachable G t ∧ M.Run G t bs u ∧ p t u = true := by
  obtain ⟨t, hrun, ht⟩ := Run.exists_of_exec h
  obtain ⟨u, hrun', hp⟩ := Run.exists_of_exec ht
  exact ⟨t, u, ⟨s, as, hs, hrun⟩, hrun', hp⟩

end TransitionSystem
