import Mathlib.Data.List.Basic
import Mathlib.Logic.Function.Basic
import LiveSTT.Lib.TransitionSystem

/-!
# Recording sessions, abstractly

A recorder has at most one session active, keeps a durable record of it so that a session survives a
crash, and lets a session be stopped from several places. This is its bookkeeping of sessions with
everything else left out: identifiers, records and the places stops come from are arbitrary types,
and of a background task only the session it works for is left.

* A **start** takes an identifier, puts the record, makes the session active and spawns a task.
* A **stop** takes the active session and, in a second step, makes the recorder idle and may clear
  the record. Nothing keeps other steps from happening between the two.
* A **task** marks its session when it is done, or loses it.
* A **crash** loses everything but the record and the marks. After the next boot the recorder may
  resume the session of the record.

The log is no part of the recorder: no step consults it.
-/

namespace LiveSTT.Sessions

/-- What the log keeps. -/
inductive Mark (ι ε : Type*)
  /-- A start took the identifier. -/
  | began (id : ι)
  | put (record : ε)
  /-- A stop made the recorder idle; `cleared` is whether it cleared the record. -/
  | idled (cleared : Bool)
  | resumed (id : ι)
  /-- A stop returned. -/
  | returned (captured : Option ι) (cleared : Bool)
  /-- The start of the session, or its task, was lost. -/
  | lost (id : ι)

/-- A start in progress. -/
inductive Start (ι : Type*)
  | none
  /-- The identifier is taken. -/
  | putting (id : ι)
  /-- The session is active; its task is not spawned yet. -/
  | active (id : ι)

/-- A stop in progress: the session it took and, once it has made the recorder idle, whether it
cleared the record. -/
structure Stop (ι : Type*) where
  captured : Option ι
  idled : Option Bool

/-- The state. A task is the session it works for, or `none` once it is done. -/
@[ext] structure State (ι ε κ : Type*) where
  up : Bool := false
  active : Option ι := none
  record : Option ε := none
  start : Start ι := .none
  stops : κ → Option (Stop ι) := fun _ ↦ none
  tasks : List (Option ι) := []
  marked : List ι := []
  log : List (Mark ι ε) := []

/-- The steps. -/
inductive Act (ι ε κ : Type*)
  | boot
  | resume (id : ι)
  | crash (lost : List ι)
  | begin (id : ι)
  | put (record : ε)
  | activate (id : ι)
  | spawn (id : ι)
  | call (k : κ) (id : ι)
  | idle (k : κ) (captured : Option ι) (cleared : Bool)
  | finish (k : κ) (captured : Option ι) (cleared : Bool)
  | mark (i : ℕ) (id : ι) (published : Bool)
  | lose (i : ℕ) (id : ι)
  | drop (i : ℕ)

variable {ι ε κ : Type*}

/-- A start of the session, or its task, is in progress. -/
def State.Pending (v : State ι ε κ) (id : ι) : Prop :=
  v.start = .putting id ∨ v.start = .active id ∨ some id ∈ v.tasks

/-- When a step is possible, in a recorder that is up. -/
def Possible (idOf : ε → ι) (v : State ι ε κ) : Act ι ε κ → Prop
  | .boot => False
  | .resume id =>
    v.record.map idOf = some id ∧ v.active = none ∧ v.start = .none ∧ ∀ k, v.stops k = none
  | .crash lost => ∀ id, v.Pending id → id ∈ lost
  | .begin _ => v.start = .none
  | .put r => v.start = .putting (idOf r)
  | .activate id => v.start = .putting id
  | .spawn id => v.start = .active id
  | .call k id => v.active = some id ∧ v.stops k = none
  | .idle k captured _ =>
    v.stops k = some ⟨captured, none⟩ ∨ v.stops k = none ∧ captured = none
  | .finish k captured cleared => v.stops k = some ⟨captured, some cleared⟩
  | .mark i id _ => v.tasks[i]? = some (some id)
  | .lose i id => v.tasks[i]? = some (some id)
  | .drop i => v.tasks[i]? = some none

/-- The recorder boots when it is down, and takes every other step when it is up. -/
def Enabled (idOf : ε → ι) (v : State ι ε κ) : Act ι ε κ → Prop
  | .boot => v.up = false
  | a => v.up = true ∧ Possible idOf v a

variable [DecidableEq κ]

/-- What a step does. -/
def next (v : State ι ε κ) : Act ι ε κ → State ι ε κ
  | .boot => { up := true, record := v.record, marked := v.marked, log := v.log }
  | .resume id => { v with active := some id, log := v.log ++ [.resumed id] }
  | .crash lost => { record := v.record, marked := v.marked, log := v.log ++ lost.map .lost }
  | .begin id => { v with start := .putting id, log := v.log ++ [.began id] }
  | .put r => { v with record := some r, log := v.log ++ [.put r] }
  | .activate id => { v with active := some id, start := .active id }
  | .spawn id => { v with start := .none, tasks := v.tasks ++ [some id] }
  | .call k id => { v with stops := Function.update v.stops k (some ⟨some id, none⟩) }
  | .idle k captured cleared => { v with
      active := none
      record := if cleared then none else v.record
      stops := Function.update v.stops k (some ⟨captured, some cleared⟩)
      log := v.log ++ [.idled cleared] }
  | .finish k captured cleared => { v with
      stops := Function.update v.stops k none
      log := v.log ++ [.returned captured cleared] }
  | .mark i id published => { v with
      tasks := v.tasks.set i none
      marked := v.marked ++ if published then [id] else [] }
  | .lose i id => { v with tasks := v.tasks.eraseIdx i, log := v.log ++ [.lost id] }
  | .drop i => { v with tasks := v.tasks.eraseIdx i }

open Classical in
/-- The recorder, down, with no record. -/
noncomputable def system (idOf : ε → ι) (κ : Type*) [DecidableEq κ] :
    TransitionSystem (State ι ε κ) (Act ι ε κ) where
  init v := v = {}
  step v a := if Enabled idOf v a then some (next v a) else none

variable {idOf : ε → ι}

theorem step_eq_some_iff {v w : State ι ε κ} {a : Act ι ε κ} :
    (system idOf κ).step v a = some w ↔ Enabled idOf v a ∧ next v a = w := by
  by_cases h : Enabled idOf v a
  · simp [system, h]
  · simp [system, h]

/-- A step of a recorder that is up. -/
theorem run_next {G : State ι ε κ → Act ι ε κ → Prop} {v : State ι ε κ} {a : Act ι ε κ}
    (hG : G v a) (h : Enabled idOf v a) : (system idOf κ).Run G v [a] (next v a) :=
  TransitionSystem.Run.single hG (step_eq_some_iff.2 ⟨h, rfl⟩)

/-- Marks are published. -/
def Act.Published : Act ι ε κ → Prop
  | .mark _ _ published => published = true
  | _ => True

end LiveSTT.Sessions
