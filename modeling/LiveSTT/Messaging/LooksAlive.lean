import Mathlib.Algebra.GroupWithZero.Nat
import LiveSTT.Messaging.Heartbeats

/-!
# Heartbeats that go on

The converse of `beats_while_working`: where the end of `run_business_logic` is not silenced, the
run can go on to an iteration of the heartbeat after it (`exists_beat`). The handles that are ready
are run first. None of them ends the heartbeat before one begins an iteration; when none is left,
the heartbeat waits, and begins one when what it waits for has happened.

The induction is on what is left to be run before nothing is ready (`load`), where the callback of a
task weighs more, since it can make `start` ready. `Restless` is kept on the way: the logic has
ended, and the heartbeat is neither ended nor cancelled. So the condition of `beats_while_working`
is exact for the moment of the end, not for the run as a whole.
-/

namespace LiveSTT.Service

open TransitionSystem

/-! ### What is ready -/

/-- A heartbeat that has not begun is ready, and so is `start` when it has been cancelled. -/
structure Tied (s : State) : Prop where
  single : Single s.ready
  created : s.heartbeat = .created → ∃ ok, .heartbeat ok ∈ s.ready
  called : s.parentCancelled = true → .parent ∈ s.ready

/-- The tasks have not been created. -/
structure Idle (s : State) : Prop where
  ready : s.ready = []
  tasks : s.tasks = []
  heartbeat : s.heartbeat = .created
  logic : s.logic = none
  parent : s.parent = .connecting ∨ s.parent = .ended

section Tied

variable {s t : State} {rest : List Handle}

/-- Steps beside the two keep them tied. -/
theorem Tied.aside (h : Aside s t) (hs : Tied s) : Tied t where
  single := h.single hs.single
  created ht := by
    obtain ⟨ok, hok⟩ := hs.created (h.heartbeat ▸ ht)
    exact ⟨ok, h.ready.subset hok⟩
  called ht := by
    rcases h.called ht with hold | hparent
    · exact h.ready.subset (hs.called hold)
    · exact hparent

/-- A handle is taken off that is neither the heartbeat's nor that of a cancelled `start`. -/
theorem Tied.pop {h : Handle} (hs : Tied s) (hready : s.ready = h :: rest)
    (hh : h.isHeartbeat = false) (hparent : h = .parent → s.parentCancelled = false) :
    Tied { s with ready := rest } where
  single := hs.single.pop hready
  created ht := by
    obtain ⟨ok, hok⟩ := hs.created ht
    rw [hready, List.mem_cons] at hok
    refine ⟨ok, hok.resolve_left ?_⟩
    rintro rfl
    contradiction
  called ht := by
    have hmem := hs.called ht
    rw [hready, List.mem_cons] at hmem
    refine hmem.resolve_left fun hh ↦ ?_
    rw [hparent hh.symm] at ht
    contradiction

/-- The heartbeat has begun, and nobody has cancelled `start`. -/
theorem Tied.of_heartbeat {ok : Bool} (hs : Tied s) (hready : s.ready = .heartbeat ok :: rest)
    (hbegun : t.heartbeat ≠ .created) (hsame : t.parentCancelled = s.parentCancelled)
    (hkept : t.ready = rest ∨ t.ready = rest ++ [.done .heartbeat]) : Tied t where
  single := by
    have hsingle := hs.single.pop hready
    rcases hkept with hkept | hkept
    · rw [hkept]
      exact hsingle
    · rw [hkept, Single, countP_concat]
      exact hsingle
  created ht := absurd ht hbegun
  called ht := by
    have hmem := hs.called (hsame ▸ ht)
    rw [hready, List.mem_cons] at hmem
    rcases hmem with hfalse | hrest
    · contradiction
    · rcases hkept with hkept | hkept
      · rw [hkept]
        exact hrest
      · rw [hkept]
        exact List.mem_append_left _ hrest

/-- The heartbeat is run. -/
theorem tied_heartbeatStep {ok : Bool} (hs : Tied s) (hready : s.ready = .heartbeat ok :: rest)
    (touched : Bool) : Tied (heartbeatStep { s with ready := rest } ok touched) := by
  have hended : Tied (endHeartbeat { s with ready := rest }) :=
    hs.of_heartbeat hready (by simp [endHeartbeat, State.schedule]) rfl (Or.inr rfl)
  have hbegun : Tied (beginIteration { s with ready := rest }) := by
    rw [beginIteration]
    split
    · exact hended
    · exact hs.of_heartbeat hready (by simp) rfl (Or.inl rfl)
  rw [heartbeatStep.eq_def]
  dsimp only
  split
  · rename_i hpc
    exact hs.of_heartbeat hready (by simp [hpc]) rfl (Or.inl rfl)
  · exact hended
  · exact hs.of_heartbeat hready (by simp) rfl (Or.inl rfl)
  · split
    · exact hbegun
    · exact hended
  · refine hs.of_heartbeat hready ?_ rfl (Or.inl rfl)
    split <;> simp
  · exact hbegun
  · exact hbegun

/-- `start` goes on. -/
theorem tied_parentStep (hs : Tied s) (hready : s.ready = .parent :: rest) (c : Choice) :
    Tied (parentStep { s with ready := rest } c) := by
  rw [parentStep]
  split
  · have hcreated : s.heartbeat = .created → ∃ ok, .heartbeat ok ∈ rest := by
      intro ht
      obtain ⟨ok, hok⟩ := hs.created ht
      rw [hready, List.mem_cons] at hok
      rcases hok with hfalse | hrest
      · contradiction
      · exact ⟨ok, hrest⟩
    have hseen : Tied { s with ready := rest, parentCancelled := false } :=
      ⟨hs.single.pop hready, hcreated, fun ht ↦ absurd ht Bool.false_ne_true⟩
    exact (hseen.aside (aside_abort _ _)).aside (aside_leave _)
  · rename_i hcancelled
    exact (hs.pop hready rfl fun _ ↦ Bool.eq_false_iff.2 hcancelled).aside (aside_leave _)

theorem aside_doneStep (s : State) (child : Child) (c : Choice) : Aside s (doneStep s child c) := by
  obtain ⟨t, hwoken, -, hdone⟩ := doneStep_cases s child c
  rw [hdone]
  split
  · exact (hwoken.trans (aside_abort _ _)).trans (aside_cancelParent _)
  · exact hwoken

/-- `run_business_logic` goes on or ends. -/
theorem tied_logicStep (hs : Tied s) (hready : s.ready = .logic :: rest) (c : Choice) :
    Tied (logicStep { s with ready := rest } c) := by
  have hpop := hs.pop hready rfl nofun
  simp only [logicStep]
  split
  · exact hpop
  · have hset : Tied (if c.setsStop then setStop { s with ready := rest }
        else { s with ready := rest }) := by
      split
      · exact hpop.aside (aside_setStop _)
      · exact hpop
    cases c.outcome with
    | none => exact hset
    | some outcome =>
      simp only [endLogic]
      generalize (if c.setsStop then setStop { s with ready := rest }
        else { s with ready := rest }) = u at hset ⊢
      have hended : Tied (State.schedule { u.record (.ended outcome) with logic := some outcome }
          (.done .logic)) := by
        refine ⟨?_, fun ht ↦ ?_, fun ht ↦ List.mem_append_left _ (hset.called ht)⟩
        · rw [Single, State.schedule, countP_concat]
          exact hset.single
        obtain ⟨ok, hok⟩ := hset.created ht
        exact ⟨ok, List.mem_append_left _ hok⟩
      split
      · exact (hended.aside (aside_cancelHeartbeat _).1).aside (aside_cancelParent _)
      · exact hended

theorem tied_runHandle {h : Handle} (hs : Tied s) (hready : s.ready = h :: rest) (c : Choice) :
    Tied (runHandle { s with ready := rest } h c) := by
  cases h with
  | heartbeat ok => exact tied_heartbeatStep hs hready c.touched
  | logic => exact tied_logicStep hs hready c
  | parent => exact tied_parentStep hs hready c
  | done child => exact (hs.pop hready rfl nofun).aside (aside_doneStep _ child c)

theorem tied_createTasks (s : State) : Tied (createTasks s) :=
  ⟨Nat.le_refl 1, fun _ ↦ ⟨true, List.mem_cons_self⟩, nofun⟩

/-- The stop event does not wake an idle service. -/
theorem idle_setStop (hs : Idle s) : Idle (setStop s) := by
  rw [setStop]
  split
  · exact hs
  · split
    · rename_i hparent
      rcases hs.parent with h | h
      · rw [h] at hparent
        contradiction
      · rw [h] at hparent
        contradiction
    · exact ⟨hs.ready, hs.tasks, hs.heartbeat, hs.logic, hs.parent⟩

/-- What can happen before the tasks are created. -/
theorem idle_step {a : Action} (hs : Idle s) (ht : step s a = some t) : Idle t ∨ Tied t := by
  cases a with
  | connected ok =>
    obtain ⟨-, ht⟩ := Option.ite_none_right_eq_some.1 ht
    obtain rfl := Option.some.inj ht
    split
    · exact Or.inr (tied_createTasks s)
    · exact Or.inl ⟨hs.ready, hs.tasks, hs.heartbeat, hs.logic, Or.inr rfl⟩
  | stop =>
    obtain rfl := Option.some.inj ht
    exact Or.inl (idle_setStop hs)
  | cancel =>
    simp only [step] at ht
    rcases hs.parent with hparent | hparent
    · rw [hparent] at ht
      obtain rfl := Option.some.inj ht
      exact Or.inl ⟨hs.ready, hs.tasks, hs.heartbeat, hs.logic, Or.inr rfl⟩
    · rw [hparent] at ht
      contradiction
  | answered ok =>
    obtain ⟨hwaits, -⟩ := Option.ite_none_right_eq_some.1 ht
    rw [State.heartbeatWaits, hs.heartbeat] at hwaits
    contradiction
  | wake =>
    obtain ⟨hwaits, -⟩ := Option.ite_none_right_eq_some.1 ht
    rw [State.logicWaits, hs.tasks] at hwaits
    contradiction
  | run c =>
    simp only [step, hs.ready] at ht
    contradiction

theorem tied_step {a : Action} (hs : Tied s) (ht : step s a = some t) : Tied t := by
  rcases step_cases ht with rfl | rfl | haside | ⟨c, h, rest, rfl, hready, rfl⟩
  · exact tied_createTasks s
  · exact ⟨hs.single, hs.created, hs.called⟩
  · exact hs.aside haside
  · exact tied_runHandle hs hready c

end Tied

theorem tied_reachable {s : State} (hs : system.Reachable always s) : Idle s ∨ Tied s := by
  refine hs.induct (I := fun s ↦ Idle s ∨ Tied s) (fun s hs ↦ ?_) fun _ hs _ ht ↦ ?_
  · obtain rfl : s = {} := hs
    exact Or.inl ⟨rfl, rfl, rfl, rfl, Or.inl rfl⟩
  · exact hs.elim (fun hs ↦ idle_step hs ht) fun hs ↦ Or.inr (tied_step hs ht)

/-! ### What is ready is run -/

/-- `run_business_logic` has ended, and the heartbeat will get to an iteration. -/
structure Restless (s : State) : Prop extends Tied s where
  stopSet : s.stopSet = false
  heartbeat : s.heartbeat ≠ .ended
  cancelled : s.cancelled = false
  first : comesFirst (silences s.heartbeat (s.logic.any Outcome.fails) s.parentCancelled)
    (begins s.heartbeat) s.ready = false
  ended : ∃ outcome, s.logic = some outcome ∧ .ended outcome ∈ s.trace

/-- A callback can make `start` ready. -/
def weight : Handle → Nat
  | .done _ => 2
  | _ => 1

/-- What is to be run before nothing is ready. -/
def load (ready : List Handle) : Nat := (ready.map weight).sum

section Restless

variable {s t : State} {rest : List Handle}

/-- The handle neither begins an iteration nor keeps the heartbeat from it. -/
theorem Restless.head {h : Handle} (hs : Restless s) (hready : s.ready = h :: rest)
    (hbegins : begins s.heartbeat h = false) :
    silences s.heartbeat (s.logic.any Outcome.fails) s.parentCancelled h = false ∧
      comesFirst (silences s.heartbeat (s.logic.any Outcome.fails) s.parentCancelled)
        (begins s.heartbeat) rest = false := by
  have hfirst := hs.first
  rw [hready, comesFirst, hbegins, Bool.not_false, Bool.true_and, Bool.or_eq_false_iff] at hfirst
  exact hfirst

/-- A handle that is no heartbeat may be taken off the queue. -/
theorem Restless.pop {h : Handle} (hs : Restless s) (hready : s.ready = h :: rest)
    (hh : h.isHeartbeat = false) : Restless { s with ready := rest } := by
  have hbegins : begins s.heartbeat h = false := by
    cases h with
    | heartbeat ok => contradiction
    | _ => rfl
  obtain ⟨hsilent, hfirst⟩ := hs.head hready hbegins
  have htied : Tied { s with ready := rest } := by
    refine hs.toTied.pop hready hh ?_
    rintro rfl
    exact hsilent
  exact ⟨htied, hs.stopSet, hs.heartbeat, hs.cancelled, hfirst, hs.ended⟩

/-- `start` may be woken. -/
theorem Restless.wakeParent (hs : Restless s) : Restless (wakeParent s) := by
  have haside := aside_wakeParent s
  have htied := hs.toTied.aside haside
  rw [Service.wakeParent] at htied ⊢
  split
  · exact hs
  · rename_i hnone
    -- A cancelled `start` would be ready, so its step does not silence the heartbeat.
    have hcalled : s.parentCancelled = false := by
      refine Bool.eq_false_iff.2 fun hcalled ↦ hnone ?_
      exact List.contains_iff_mem.2 (hs.called hcalled)
    rw [if_neg hnone] at htied
    refine ⟨htied, hs.stopSet, hs.heartbeat, hs.cancelled, ?_, hs.ended⟩
    rw [← hs.first]
    exact comesFirst_concat (x := Handle.parent) hcalled

theorem load_cons (h : Handle) (rest : List Handle) : load (h :: rest) = weight h + load rest := by
  rw [load, List.map_cons, List.sum_cons, load]

theorem load_wakeParent (s : State) : load (wakeParent s).ready ≤ load s.ready + 1 := by
  rw [wakeParent]
  split
  · exact Nat.le_add_right _ _
  · rw [State.schedule, load, List.map_append, List.sum_append]
    exact Nat.le_refl _

/-- An iteration begins after `run_business_logic` has ended. -/
theorem Restless.beginIteration (hs : Restless s) (ready : List Handle) :
    ¬ BeatsWhileWorking (beginIteration { s with ready }).trace := by
  obtain ⟨outcome, -, hmem⟩ := hs.ended
  intro hbeats
  rw [Service.beginIteration, if_neg (by rw [hs.stopSet]; exact Bool.false_ne_true)] at hbeats
  exact hbeats rfl rfl outcome hmem

/-- The heartbeat goes on to its next iteration. -/
theorem Restless.next {ok : Bool} (hs : Restless s) (hready : s.ready = .heartbeat ok :: rest)
    (hbegins : begins s.heartbeat (.heartbeat ok) = false) {pc : HeartbeatPc} (hended : pc ≠ .ended)
    (hcreated : pc ≠ .created) : Restless { s with ready := rest, heartbeat := pc } := by
  have hnone := hs.single.others hready
  refine ⟨⟨hs.single.pop hready, fun ht ↦ absurd ht hcreated, fun ht ↦ ?_⟩, hs.stopSet, hended,
    hs.cancelled, ?_, hs.ended⟩
  · have hmem := hs.called ht
    rw [hready, List.mem_cons] at hmem
    rcases hmem with hfalse | hrest
    · contradiction
    · exact hrest
  · rw [← (hs.head hready hbegins).2]
    refine comesFirst_congr (fun x hx ↦ ?_) fun x hx ↦ ?_
    · cases x with
      | heartbeat ok' =>
        have hfalse := hnone _ hx
        contradiction
      | done child => cases child <;> rfl
      | _ => rfl
    · cases x with
      | heartbeat ok' =>
        have hfalse := hnone _ hx
        contradiction
      | _ => rfl

/-! ### One handle -/

/-- The next state of a drained state, or an iteration. -/
def Drained (s t : State) : Prop :=
  ¬ BeatsWhileWorking t.trace ∨ Restless t ∧ load t.ready < load s.ready

/-- The heartbeat is run: it begins an iteration, or there is less left to be run. -/
theorem drained_heartbeatStep {ok : Bool} (hs : Restless s)
    (hready : s.ready = .heartbeat ok :: rest) :
    Drained s (heartbeatStep { s with ready := rest } ok true) := by
  have hload : load rest < load s.ready := by
    have hweight : weight (.heartbeat ok) = 1 := rfl
    rw [hready, load_cons, hweight]
    omega
  rw [heartbeatStep.eq_def]
  dsimp only
  split
  · rename_i hended
    exact absurd hended hs.heartbeat
  · rename_i hcancelled _
    rw [hs.cancelled] at hcancelled
    contradiction
  · rename_i hcreated _
    refine Or.inr ⟨hs.next hready ?_ (by simp) (by simp), hload⟩
    rw [hcreated]
    rfl
  · rename_i hconnecting _
    split
    · exact Or.inl (hs.beginIteration rest)
    · rename_i hfailed
      -- The step would end the heartbeat, and silence it.
      have hfirst := hs.first
      rw [hready, hconnecting, comesFirst, Bool.or_eq_false_iff] at hfirst
      rw [Bool.eq_false_iff.2 hfailed] at hfirst
      obtain ⟨hfalse, -⟩ := hfirst
      contradiction
  · rename_i hputting _
    refine Or.inr ⟨hs.next hready ?_ ?_ ?_, hload⟩
    · rw [hputting]
      rfl
    · split <;> simp
    · split <;> simp
  · exact Or.inl (hs.beginIteration rest)
  · exact Or.inl (hs.beginIteration rest)

/-- The callback of a task that is done is run: it may wake `start`, which weighs less. -/
theorem drained_doneStep {child : Child} (hs : Restless s)
    (hready : s.ready = .done child :: rest) :
    Drained s (doneStep { s with ready := rest } child {}) := by
  have hpop := hs.pop hready rfl
  have htasks : Restless { s with ready := rest, tasks := s.tasks.erase child } :=
    ⟨⟨hpop.single, hpop.created, hpop.called⟩, hpop.stopSet, hpop.heartbeat, hpop.cancelled,
      hpop.first, hpop.ended⟩
  have hload : load rest + 1 < load s.ready := by
    have hweight : weight (.done child) = 2 := rfl
    rw [hready, load_cons, hweight]
    omega
  have hquiet : ¬ (child = .logic ∧ s.logic.any Outcome.fails = true) := by
    rintro ⟨rfl, hfails⟩
    have hsilent := (hs.head hready rfl).1
    rw [hfails] at hsilent
    contradiction
  obtain ⟨t, hwoken, hcases, hdone⟩ := doneStep_cases { s with ready := rest } child {}
  have hlogic : t.logic = s.logic := hwoken.logic
  rw [hdone, hlogic, if_neg fun h ↦ hquiet ⟨h.1, h.2.1⟩]
  rcases hcases with rfl | rfl
  · refine Or.inr ⟨htasks, ?_⟩
    show load rest < load s.ready
    omega
  · -- `start` is woken at the price of the callback.
    exact Or.inr ⟨htasks.wakeParent, Nat.lt_of_le_of_lt (load_wakeParent _) hload⟩

/-- **A ready handle is run.** -/
theorem Restless.drain {h : Handle} (hs : Restless s) (hready : s.ready = h :: rest) :
    ∃ t, step s go = some t ∧ Drained s t := by
  have hstep : step s go = some (runHandle { s with ready := rest } h {}) := by
    simp only [step, go, hready]
  refine ⟨_, hstep, ?_⟩
  have hload : h.isHeartbeat = false → load rest < load s.ready := by
    intro _
    rw [hready, load_cons]
    have hpos : 0 < weight h := by cases h <;> simp [weight]
    omega
  cases h with
  | heartbeat ok => exact drained_heartbeatStep hs hready
  | logic =>
    obtain ⟨outcome, hlogic, -⟩ := hs.ended
    have hsome : s.logic.isSome = true := by
      rw [hlogic]
      rfl
    rw [runHandle, logicStep, if_pos hsome]
    exact Or.inr ⟨hs.pop hready rfl, hload rfl⟩
  | parent =>
    have hpop := hs.pop hready rfl
    have hcalled : s.parentCancelled = false := (hs.head hready rfl).1
    rw [runHandle, parentStep, if_neg (by rw [hcalled]; exact Bool.false_ne_true)]
    exact Or.inr ⟨⟨⟨hpop.single, hpop.created, hpop.called⟩, hpop.stopSet, hpop.heartbeat,
      hpop.cancelled, hpop.first, hpop.ended⟩, hload rfl⟩
  | done child => exact drained_doneStep hs hready

/-! ### Nothing is ready -/

/-- What the heartbeat waits for happens. -/
theorem run_answered (hwaits : s.heartbeatWaits = true) (hready : s.ready = []) :
    system.Run always s [.answered true, go] (heartbeatStep { s with ready := [] } true true) := by
  refine (Run.single (t := s.schedule (.heartbeat true)) trivial ?_).trans (Run.single trivial ?_)
  · exact if_pos hwaits
  · show step _ go = _
    simp only [step, go, State.schedule, hready, List.nil_append, runHandle]

theorem Restless.begun (hs : Restless s) (hready : s.ready = []) : s.heartbeat ≠ .created := by
  intro hcreated
  obtain ⟨ok, hok⟩ := hs.created hcreated
  rw [hready] at hok
  contradiction

/-- With nothing ready the heartbeat waits for its interval. -/
theorem Restless.waits (hs : Restless s) (hready : s.ready = []) : s.heartbeatWaits = true := by
  have hsuspended : s.heartbeat.suspended = true := by
    cases hpc : s.heartbeat with
    | created => exact absurd hpc (hs.begun hready)
    | ended => exact absurd hpc hs.heartbeat
    | _ => rfl
  rw [State.heartbeatWaits, hsuspended, hready]
  rfl

/-- When its next handle begins an iteration, that can be run: a beat with `run_business_logic`
ended. -/
theorem Restless.beat (hs : Restless s) (hready : s.ready = [])
    (hbegins : begins s.heartbeat (.heartbeat true) = true) :
    ∃ as u, system.Run always s as u ∧ ¬ BeatsWhileWorking u.trace := by
  refine ⟨_, _, run_answered (hs.waits hready) hready, ?_⟩
  have hstep : heartbeatStep { s with ready := [] } true true =
      Service.beginIteration { s with ready := [] } := by
    rw [heartbeatStep.eq_def]
    dsimp only
    split
    · rename_i hpc
      rw [hpc] at hbegins
      contradiction
    · rename_i hcancelled _
      rw [hs.cancelled] at hcancelled
      contradiction
    · rename_i hpc _
      rw [hpc] at hbegins
      contradiction
    · exact if_pos rfl
    · rename_i hpc _
      rw [hpc] at hbegins
      contradiction
    · rfl
    · rfl
  rw [hstep]
  exact hs.beginIteration []

/-- Otherwise the iteration that has begun is completed first. -/
theorem Restless.beat_of_nil (hs : Restless s) (hready : s.ready = []) :
    ∃ as u, system.Run always s as u ∧ ¬ BeatsWhileWorking u.trace := by
  by_cases hbegins : begins s.heartbeat (.heartbeat true) = true
  · exact hs.beat hready hbegins
  · -- The iteration that has begun is completed first.
    have hrun := run_answered (hs.waits hready) hready
    have hputting : s.heartbeat = .putting := by
      cases hpc : s.heartbeat with
      | created => exact absurd hpc (hs.begun hready)
      | ended => exact absurd hpc hs.heartbeat
      | putting => rfl
      | _ =>
        rw [hpc] at hbegins
        contradiction
    have hstep : heartbeatStep { s with ready := [] } true true =
        { s with ready := [], heartbeat := .sleeping } := by
      simp only [heartbeatStep, hs.cancelled, hputting, Bool.and_self, if_true]
    have hslept : Restless { s with ready := [], heartbeat := .sleeping } := by
      refine ⟨⟨Nat.zero_le 1, nofun, fun ht ↦ ?_⟩, hs.stopSet, nofun, hs.cancelled, rfl, hs.ended⟩
      rw [← hready]
      exact hs.called ht
    obtain ⟨as, u, hrun', hu⟩ := hslept.beat rfl rfl
    exact ⟨_, u, hrun.trans (hstep ▸ hrun'), hu⟩

/-- The handles that are ready are run, and then what the heartbeat waits for happens. -/
theorem Restless.exists_beat (hs : Restless s) :
    ∃ as u, system.Run always s as u ∧ ¬ BeatsWhileWorking u.trace := by
  induction hn : load s.ready using Nat.strongRecOn generalizing s with
  | ind n ih =>
    cases hready : s.ready with
    | nil => exact hs.beat_of_nil hready
    | cons h rest =>
      obtain ⟨t, hstep, hdrained⟩ := hs.drain hready
      have hgo : system.Run always s [go] t := Run.single trivial hstep
      rcases hdrained with hbeat | ⟨ht, hload⟩
      · exact ⟨[go], t, hgo, hbeat⟩
      · obtain ⟨as, u, hrun, hu⟩ := ih _ (hn ▸ hload) ht rfl
        exact ⟨_, u, hgo.trans hrun, hu⟩

end Restless

/-- The state after a step that ends `run_business_logic` unsilenced. -/
theorem restless_of_not_silenced {s t : State} {a : Action} (hs : system.Reachable always s)
    (hsilenced : silenced s a = false) (ht : step s a = some t) : Restless t := by
  cases a with
  | run c =>
    simp only [silenced] at hsilenced
    split at hsilenced
    · rename_i rest outcome hready hlogic houtcome
      have htied : Tied t := by
        rcases tied_reachable hs with hidle | htied
        · have hnil := hidle.ready
          rw [hready] at hnil
          contradiction
        · exact tied_step htied ht
      simp only [silencedAt, Bool.or_eq_false_iff, decide_eq_false_iff_not] at hsilenced
      obtain ⟨⟨⟨⟨⟨hstop, hsets⟩, hended⟩, hcancelled⟩, hstays⟩, hfirst⟩ := hsilenced
      simp only [step, hready, runHandle, logicStep, hlogic, houtcome, hsets, endLogic,
        hstays] at ht
      obtain rfl := Option.some.inj ht
      exact ⟨htied, hstop, hended, hcancelled, hfirst, outcome, rfl,
        List.mem_append_right _ (List.mem_singleton_self _)⟩
    · contradiction
  | _ => contradiction

/-- **Where the end of `run_business_logic` is not silenced, the heartbeat goes on**, in some
continuation of the run. -/
theorem exists_beat {s t : State} {a : Action} (hs : system.Reachable always s)
    (hsilenced : silenced s a = false) (ht : step s a = some t) :
    ∃ as u, system.Run always t as u ∧ ¬ BeatsWhileWorking u.trace :=
  (restless_of_not_silenced hs hsilenced ht).exists_beat

end LiveSTT.Service
