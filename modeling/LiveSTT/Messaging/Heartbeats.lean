import LiveSTT.Lib.ComesFirst
import LiveSTT.Lib.EventLog
import LiveSTT.Messaging.Service

/-!
# Heartbeats of a service whose logic has ended

The heartbeat says that a service is running. It goes on until `stop_event` is set or it is
cancelled, and it is cancelled when `run_business_logic` fails, but not when that returns. So a
service that gives up, because its stream could not be verified, looks alive for as long as its
process lives (`looks_alive`).

No iteration begins after the end of `run_business_logic` in the runs in which that end is
`Silenced`: `stop_event` is set by then, or the heartbeat has ended or been cancelled, or the event
loop comes to the callback of a failure before any step of the heartbeat that begins an iteration
(`beats_while_working`). Where it is not, the run can go on to an iteration (`exists_beat`).

The event loop is a queue of handles that are ready, and a step runs the first. What the handles do
to one another is kept apart from the heartbeat by `Aside`, which most of the lemmas are about;
`Orderly` is carried through the steps that remain, those of the heartbeat and the end of the logic.
-/

namespace LiveSTT.Service

open EventLog TransitionSystem

/-! ### The condition -/

/-- The step of the heartbeat begins an iteration, unless it is to end. -/
def begins (pc : HeartbeatPc) : Handle → Bool
  | .heartbeat ok =>
    match pc with
    | .connecting => ok
    | .sleeping | .retrying => true
    | _ => false
  | _ => false

/-- The handle ends the heartbeat or has it cancelled: its own step, if it could not connect; the
callback of `run_business_logic`, if that failed; and the step of `start`, if that was cancelled. -/
def silences (pc : HeartbeatPc) (failed parentCancelled : Bool) : Handle → Bool
  | .heartbeat ok => pc = .connecting && !ok
  | .done .logic => failed
  | .parent => parentCancelled
  | _ => false

/-- The last step of `run_business_logic`, which ends in the outcome with `rest` left to run, comes
late enough for the heartbeat, or early enough. -/
def silencedAt (s : State) (c : Choice) (outcome : Outcome) (rest : List Handle) : Bool :=
  s.stopSet || c.setsStop || s.heartbeat = .ended || s.cancelled || outcome = .exited ||
    comesFirst (silences s.heartbeat outcome.fails s.parentCancelled) (begins s.heartbeat)
      (rest ++ [.done .logic])

/-- If the step ends `run_business_logic`, it does so as `silencedAt` says. -/
def silenced (s : State) : Action → Bool
  | .run c =>
    match s.ready, s.logic, c.outcome with
    | .logic :: rest, none, some outcome => silencedAt s c outcome rest
    | _, _, _ => true
  | _ => true

/-- No iteration begins after `run_business_logic` has ended. -/
def BeatsWhileWorking : List Event → Prop :=
  Justified fun before e ↦ e = .beat → ∀ outcome, .ended outcome ∉ before

/-! ### The invariant -/

/-- The heartbeat begins no more iterations, or is cancelled before it can. -/
def Calm (s : State) : Prop :=
  s.stopSet = true ∨ s.heartbeat = .ended ∨ s.cancelled = true ∨
    comesFirst (silences s.heartbeat (s.logic.any Outcome.fails) s.parentCancelled)
      (begins s.heartbeat) s.ready = true

/-- The heartbeat is ready once at most. -/
def Single (ready : List Handle) : Prop := ready.countP Handle.isHeartbeat ≤ 1

/-- What holds whether the heartbeat is calm or not. -/
structure Loose (s : State) : Prop where
  single : Single s.ready
  aborting : s.aborting = true → s.heartbeat = .ended ∨ s.cancelled = true
  ended : ∀ outcome, .ended outcome ∈ s.trace → s.logic.isSome = true
  beats : BeatsWhileWorking s.trace

structure Orderly (s : State) : Prop extends Loose s where
  calm : s.logic.isSome = true → Calm s

/-- What happens beside the steps of the heartbeat and the end of `run_business_logic`. -/
structure Aside (s t : State) : Prop where
  stopSet : s.stopSet = true → t.stopSet = true
  heartbeat : t.heartbeat = s.heartbeat
  cancelled : s.cancelled = true → t.cancelled = true
  logic : t.logic = s.logic
  parentCancelled : s.parentCancelled = true → t.parentCancelled = true
  called : t.parentCancelled = true → s.parentCancelled = true ∨ .parent ∈ t.ready
  aborting : t.aborting = true → s.aborting = true ∨ t.heartbeat = .ended ∨ t.cancelled = true
  ready : s.ready <+: t.ready
  single : Single s.ready → Single t.ready
  trace : t.trace = s.trace

section Aside

variable {s t u : State}

theorem Aside.refl (s : State) : Aside s s :=
  ⟨id, rfl, id, rfl, id, Or.inl, Or.inl, List.prefix_refl _, id, rfl⟩

/-- Such steps may follow one another. -/
theorem Aside.trans (h : Aside s t) (h' : Aside t u) : Aside s u where
  stopSet hs := h'.stopSet (h.stopSet hs)
  heartbeat := h'.heartbeat.trans h.heartbeat
  cancelled hs := h'.cancelled (h.cancelled hs)
  logic := h'.logic.trans h.logic
  parentCancelled hs := h'.parentCancelled (h.parentCancelled hs)
  called hu := by
    rcases h'.called hu with ht | hparent
    · exact (h.called ht).imp_right fun hparent ↦ h'.ready.subset hparent
    · exact Or.inr hparent
  aborting hu := by
    rcases h'.aborting hu with ht | hu
    · rcases h.aborting ht with hs | hended | hcancelled
      · exact Or.inl hs
      · exact Or.inr (Or.inl (h'.heartbeat.trans hended))
      · exact Or.inr (Or.inr (h'.cancelled hcancelled))
    · exact Or.inr hu
  ready := h.ready.trans h'.ready
  single hs := h'.single (h.single hs)
  trace := h'.trace.trans h.trace

/-- They do not wake a calm heartbeat. -/
theorem Calm.aside (h : Aside s t) (hs : Calm s) : Calm t := by
  rcases hs with hstop | hended | hcancelled | hfirst
  · exact Or.inl (h.stopSet hstop)
  · exact Or.inr (Or.inl (h.heartbeat.trans hended))
  · exact Or.inr (Or.inr (Or.inl (h.cancelled hcancelled)))
  · obtain ⟨l, hready⟩ := h.ready
    refine Or.inr (Or.inr (Or.inr ?_))
    rw [← hready, h.heartbeat, h.logic]
    -- Cancelling `start` makes its step one that silences, and takes nothing away.
    refine comesFirst_append (comesFirst_mono (fun x _ hx ↦ ?_) (fun _ _ ↦ id) hfirst)
    cases x with
    | parent => exact h.parentCancelled hx
    | done child => cases child <;> exact hx
    | _ => exact hx

/-- Nor do they touch what holds without the calm. -/
theorem Loose.aside (h : Aside s t) (hs : Loose s) : Loose t where
  single := h.single hs.single
  aborting ht := by
    rcases h.aborting ht with haborting | hdone
    · rcases hs.aborting haborting with hended | hcancelled
      · exact Or.inl (h.heartbeat.trans hended)
      · exact Or.inr (h.cancelled hcancelled)
    · exact hdone
  ended outcome hmem := by
    rw [h.logic]
    exact hs.ended outcome (h.trace ▸ hmem)
  beats := h.trace ▸ hs.beats

theorem Orderly.aside (h : Aside s t) (hs : Orderly s) : Orderly t :=
  ⟨hs.toLoose.aside h, fun ht ↦ (hs.calm (h.logic ▸ ht)).aside h⟩

/-- The heartbeat has ended, or has to see that it is cancelled. -/
theorem Loose.orderly (hs : Loose s) (h : s.heartbeat = .ended ∨ s.cancelled = true) : Orderly s :=
  ⟨hs, fun _ ↦ h.elim (fun hended ↦ Or.inr (Or.inl hended))
    fun hcancelled ↦ Or.inr (Or.inr (Or.inl hcancelled))⟩

/-! ### Scheduling and cancelling -/

theorem countP_concat (ready : List Handle) (h : Handle) :
    (ready ++ [h]).countP Handle.isHeartbeat =
    ready.countP Handle.isHeartbeat + if h.isHeartbeat then 1 else 0 := by
  rw [List.countP_append, List.countP_singleton]

/-- A handle that is no heartbeat may be scheduled. -/
theorem aside_schedule {h : Handle} (hh : h.isHeartbeat = false) : Aside s (s.schedule h) where
  stopSet := id
  heartbeat := rfl
  cancelled := id
  logic := rfl
  parentCancelled := id
  called := Or.inl
  aborting := Or.inl
  ready := List.prefix_append _ _
  single hs := by
    rw [Single, State.schedule, countP_concat, hh]
    exact hs
  trace := rfl

/-- The heartbeat gets a handle if it waits. -/
theorem aside_schedule_heartbeat (hwaits : s.heartbeatWaits = true) (ok : Bool) :
    Aside s (s.schedule (.heartbeat ok)) := by
  have hnone : s.ready.countP Handle.isHeartbeat = 0 := by
    rw [State.heartbeatWaits, Bool.and_eq_true, Bool.not_eq_true', List.any_eq_false] at hwaits
    exact List.countP_eq_zero.2 hwaits.2
  refine ⟨id, rfl, id, rfl, id, Or.inl, Or.inl, List.prefix_append _ _, fun _ ↦ ?_, rfl⟩
  rw [Single, State.schedule, countP_concat, hnone]
  exact Nat.le_refl 1

theorem aside_wakeParent (s : State) : Aside s (wakeParent s) := by
  rw [wakeParent]
  split
  · exact Aside.refl s
  · exact aside_schedule rfl

theorem mem_wakeParent (s : State) : .parent ∈ (wakeParent s).ready := by
  rw [wakeParent]
  split
  · rename_i hready
    exact List.contains_iff_mem.1 hready
  · exact List.mem_append_right _ (List.mem_singleton_self _)

theorem aside_cancelParent (s : State) : Aside s (cancelParent s) := by
  have h := aside_wakeParent s
  exact ⟨h.stopSet, h.heartbeat, h.cancelled, h.logic, fun _ ↦ rfl,
    fun _ ↦ Or.inr (mem_wakeParent s),
    h.aborting, h.ready, h.single, h.trace⟩

theorem aside_cancelLogic (s : State) : Aside s (cancelLogic s) := by
  rw [cancelLogic]
  split
  · exact aside_schedule rfl
  · exact Aside.refl s

/-- A cancelled heartbeat has ended, or has to see it. -/
theorem aside_cancelHeartbeat (s : State) : Aside s (cancelHeartbeat s) ∧
    ((cancelHeartbeat s).heartbeat = .ended ∨ (cancelHeartbeat s).cancelled = true) := by
  rw [cancelHeartbeat]
  split
  · rename_i hended
    exact ⟨Aside.refl s, Or.inl hended⟩
  · refine ⟨?_, Or.inr rfl⟩
    have h : Aside s (if s.heartbeatWaits then s.schedule (.heartbeat false) else s) := by
      split
      · rename_i hwaits
        exact aside_schedule_heartbeat hwaits false
      · exact Aside.refl s
    exact ⟨h.stopSet, h.heartbeat, fun _ ↦ rfl, h.logic, h.parentCancelled, h.called,
      fun _ ↦ Or.inr (Or.inr rfl), h.ready, h.single, h.trace⟩

/-- The group is set to abort. -/
theorem Aside.aborted (h : Aside s t) (ht : t.heartbeat = .ended ∨ t.cancelled = true) :
    Aside s { t with aborting := true } :=
  ⟨h.stopSet, h.heartbeat, h.cancelled, h.logic, h.parentCancelled, h.called, fun _ ↦ Or.inr ht,
    h.ready, h.single, h.trace⟩

/-- The abort of the group cancels its tasks, and schedules what is woken by that. -/
theorem aside_abort (s : State) (heartbeatFirst : Bool) : Aside s (abort s heartbeatFirst) := by
  rw [abort]
  split
  · exact Aside.refl s
  · split
    · obtain ⟨haside, hcancelled⟩ := aside_cancelHeartbeat s
      have hlogic := aside_cancelLogic (cancelHeartbeat s)
      exact (haside.trans hlogic).aborted
        (hcancelled.imp (fun hended ↦ hlogic.heartbeat.trans hended) hlogic.cancelled)
    · obtain ⟨haside, hcancelled⟩ := aside_cancelHeartbeat (cancelLogic s)
      exact ((aside_cancelLogic s).trans haside).aborted hcancelled

theorem aborting_abort (s : State) (heartbeatFirst : Bool) :
    (abort s heartbeatFirst).aborting = true := by
  rw [abort]
  split
  · assumption
  · split <;> rfl

/-- The stop event wakes `start`, if that waits for it. -/
theorem aside_setStop (s : State) : Aside s (setStop s) := by
  rw [setStop]
  split
  · exact Aside.refl s
  · split
    · have h := aside_wakeParent s
      exact ⟨fun _ ↦ rfl, h.heartbeat, h.cancelled, h.logic, h.parentCancelled, h.called,
        h.aborting, h.ready, h.single, h.trace⟩
    · exact ⟨fun _ ↦ rfl, rfl, id, rfl, id, Or.inl, Or.inl, List.prefix_refl _, id, rfl⟩

theorem stopSet_setStop (s : State) : (setStop s).stopSet = true := by
  rw [setStop]
  split
  · assumption
  · split <;> rfl

/-- **What a step does**: the tasks are created, or `start` is over without them; a handle is run;
or something happens beside. -/
theorem step_cases {a : Action} (ht : step s a = some t) :
    t = createTasks s ∨ t = { s with parent := .ended } ∨ Aside s t ∨
      ∃ c h rest, a = .run c ∧ s.ready = h :: rest ∧
        t = runHandle { s with ready := rest } h c := by
  cases a with
  | connected ok =>
    obtain ⟨-, ht⟩ := Option.ite_none_right_eq_some.1 ht
    obtain rfl := Option.some.inj ht
    split
    · exact Or.inl rfl
    · exact Or.inr (Or.inl rfl)
  | stop =>
    obtain rfl := Option.some.inj ht
    exact Or.inr (Or.inr (Or.inl (aside_setStop s)))
  | cancel =>
    simp only [step] at ht
    split at ht
    · obtain rfl := Option.some.inj ht
      exact Or.inr (Or.inl rfl)
    · contradiction
    · obtain rfl := Option.some.inj ht
      exact Or.inr (Or.inr (Or.inl (aside_cancelParent s)))
  | answered ok =>
    obtain ⟨hwaits, ht⟩ := Option.ite_none_right_eq_some.1 ht
    obtain rfl := Option.some.inj ht
    exact Or.inr (Or.inr (Or.inl (aside_schedule_heartbeat hwaits ok)))
  | wake =>
    obtain ⟨-, ht⟩ := Option.ite_none_right_eq_some.1 ht
    obtain rfl := Option.some.inj ht
    exact Or.inr (Or.inr (Or.inl (aside_schedule rfl)))
  | run c =>
    simp only [step] at ht
    split at ht
    · contradiction
    · rename_i h rest hready
      obtain rfl := Option.some.inj ht
      exact Or.inr (Or.inr (Or.inr ⟨c, h, rest, rfl, hready, rfl⟩))

end Aside

/-! ### The steps -/

section Steps

variable {s t : State} {rest : List Handle}

theorem Single.pop {h : Handle} (hsingle : Single s.ready) (hready : s.ready = h :: rest) :
    Single rest := by
  rw [Single, hready, List.countP_cons] at hsingle
  rw [Single]
  omega

/-- No other handle is one of the heartbeat. -/
theorem Single.others {ok : Bool} (hsingle : Single s.ready)
    (hready : s.ready = .heartbeat ok :: rest) : ∀ x ∈ rest, x.isHeartbeat = false := by
  rw [Single, hready, List.countP_cons_of_pos rfl] at hsingle
  have hzero : rest.countP Handle.isHeartbeat = 0 := by omega
  exact fun x hx ↦ Bool.eq_false_iff.2 (List.countP_eq_zero.1 hzero x hx)

/-- A handle is taken off. -/
theorem Loose.pop {h : Handle} (hs : Loose s) (hready : s.ready = h :: rest) :
    Loose { s with ready := rest } :=
  ⟨hs.single.pop hready, hs.aborting, hs.ended, hs.beats⟩

/-- A handle is taken off that does nothing to the heartbeat. -/
theorem Orderly.pop {h : Handle} (hs : Orderly s) (hready : s.ready = h :: rest)
    (hh : silences s.heartbeat (s.logic.any Outcome.fails) s.parentCancelled h = false) :
    Orderly { s with ready := rest } := by
  refine ⟨hs.toLoose.pop hready, fun hlogic ↦ ?_⟩
  refine (hs.calm hlogic).imp_right fun h ↦ h.imp_right fun h ↦ h.imp_right fun hfirst ↦ ?_
  rw [hready, comesFirst_cons, hh] at hfirst
  exact (hfirst.resolve_left Bool.false_ne_true).2

/-- The heartbeat ends. -/
theorem orderly_endHeartbeat (hs : Loose s) : Orderly (endHeartbeat s) := by
  refine Loose.orderly ⟨?_, fun _ ↦ Or.inl rfl, hs.ended, hs.beats⟩ (Or.inl rfl)
  rw [Single, endHeartbeat, State.schedule, countP_concat]
  exact hs.single

/-- The heartbeat goes on without beginning an iteration. -/
theorem orderly_next {ok : Bool} (hs : Orderly s) (hready : s.ready = .heartbeat ok :: rest)
    (hended : s.heartbeat ≠ .ended) (hconnected : s.heartbeat ≠ .connecting) (pc : HeartbeatPc) :
    Orderly { s with ready := rest, heartbeat := pc } := by
  have hloose := hs.toLoose.pop hready
  have hnone := hs.single.others hready
  refine ⟨⟨hloose.single, fun haborting ↦ ?_, hloose.ended, hloose.beats⟩, fun hlogic ↦ ?_⟩
  · rcases hs.aborting haborting with hended' | hcancelled'
    · exact absurd hended' hended
    · exact Or.inr hcancelled'
  · rcases hs.calm hlogic with hstop | hended' | hcancelled' | hfirst
    · exact Or.inl hstop
    · exact absurd hended' hended
    · exact Or.inr (Or.inr (Or.inl hcancelled'))
    · have hsilent : ¬ silences s.heartbeat (s.logic.any Outcome.fails) s.parentCancelled
          (.heartbeat ok) = true := by
        simp [silences, hconnected]
      rw [hready, comesFirst_cons] at hfirst
      obtain ⟨-, hfirst⟩ := hfirst.resolve_left hsilent
      refine Or.inr (Or.inr (Or.inr ?_))
      -- No other handle is one of the heartbeat, so that its position makes no difference to them.
      refine comesFirst_mono (fun x hx hgood ↦ ?_) (fun x hx _ ↦ ?_) hfirst
      · cases x with
        | heartbeat ok' =>
          have hfalse := hnone _ hx
          contradiction
        | done child => cases child <;> exact hgood
        | _ => exact hgood
      · cases x with
        | heartbeat ok' =>
          have hfalse := hnone _ hx
          contradiction
        | _ => rfl

/-- A handle with which the heartbeat begins an iteration does not silence it. -/
theorem silences_of_begins {pc : HeartbeatPc} {ok : Bool} (h : begins pc (.heartbeat ok) = true)
    (failed parentCancelled : Bool) :
    silences pc failed parentCancelled (.heartbeat ok) = false := by
  cases pc with
  | connecting =>
    have hok : ok = true := h
    rw [hok]
    rfl
  | _ => rfl

/-- **An iteration begins only while `run_business_logic` works.** -/
theorem orderly_beginIteration {ok : Bool} (hs : Orderly s)
    (hready : s.ready = .heartbeat ok :: rest) (hcancelled : s.cancelled = false)
    (hended : s.heartbeat ≠ .ended) (hbegins : begins s.heartbeat (.heartbeat ok) = true) :
    Orderly (beginIteration { s with ready := rest }) := by
  have hloose := hs.toLoose.pop hready
  rw [beginIteration]
  split
  · exact orderly_endHeartbeat hloose
  · rename_i hstop
    have hworks : ¬ s.logic.isSome = true := by
      intro hlogic
      rcases hs.calm hlogic with hstop' | hended' | hcancelled' | hfirst
      · exact hstop hstop'
      · exact hended hended'
      · rw [hcancelled] at hcancelled'
        contradiction
      · -- The step is the first entry, so that nothing in front of it silences the heartbeat.
        rw [hready, comesFirst_cons, hbegins, silences_of_begins hbegins] at hfirst
        obtain ⟨hfalse, -⟩ := hfirst.resolve_left Bool.false_ne_true
        contradiction
    refine ⟨⟨hloose.single, fun haborting ↦ ?_, fun outcome hmem ↦ ?_, ?_⟩, fun hlogic ↦ ?_⟩
    · rcases hs.aborting haborting with hended' | hcancelled'
      · exact absurd hended' hended
      · exact Or.inr hcancelled'
    · rcases List.mem_append.1 hmem with hold | hnew
      · exact hs.ended outcome hold
      · rw [List.mem_singleton] at hnew
        contradiction
    · exact hs.beats.append_singleton fun _ outcome hmem ↦ hworks (hs.ended outcome hmem)
    · exact absurd hlogic hworks

/-- The heartbeat is run: it begins an iteration, goes back to its wait, or ends. -/
theorem orderly_heartbeatStep {ok : Bool} (hs : Orderly s)
    (hready : s.ready = .heartbeat ok :: rest) (touched : Bool) :
    Orderly (heartbeatStep { s with ready := rest } ok touched) := by
  have hloose := hs.toLoose.pop hready
  have hpc : ∀ pc, s.heartbeat = pc → pc ≠ .ended → s.heartbeat ≠ .ended := fun pc h hne ↦ h ▸ hne
  rw [heartbeatStep.eq_def]
  dsimp only
  split
  · rename_i hended
    exact hloose.orderly (Or.inl hended)
  · exact orderly_endHeartbeat hloose
  · rename_i hcreated _
    exact orderly_next hs hready (hpc _ hcreated nofun) (by rw [hcreated]; exact nofun) _
  · rename_i hconnecting hcancelled
    split
    · rename_i hok
      exact orderly_beginIteration hs hready hcancelled (hpc _ hconnecting nofun)
        (by rw [hconnecting]; exact hok)
    · exact orderly_endHeartbeat hloose
  · rename_i hputting _
    exact orderly_next hs hready (hpc _ hputting nofun) (by rw [hputting]; exact nofun) _
  · rename_i hsleeping hcancelled
    exact orderly_beginIteration hs hready hcancelled (hpc _ hsleeping nofun)
      (by rw [hsleeping]; rfl)
  · rename_i hretrying hcancelled
    exact orderly_beginIteration hs hready hcancelled (hpc _ hretrying nofun)
      (by rw [hretrying]; rfl)

theorem aside_leave (s : State) : Aside s (leave s) :=
  ⟨id, rfl, id, rfl, id, Or.inl, Or.inl, List.prefix_refl _, id, rfl⟩

/-- The group aborts. -/
theorem orderly_abort (hs : Loose s) (heartbeatFirst : Bool) :
    Orderly (abort s heartbeatFirst) := by
  have hloose := hs.aside (aside_abort s heartbeatFirst)
  exact hloose.orderly (hloose.aborting (aborting_abort s heartbeatFirst))

/-- `start` goes on behind the group. -/
theorem orderly_parentStep (hs : Orderly s) (hready : s.ready = .parent :: rest) (c : Choice) :
    Orderly (parentStep { s with ready := rest } c) := by
  have hloose := hs.toLoose.pop hready
  rw [parentStep]
  split
  · refine (orderly_abort ?_ c.heartbeatFirst).aside (aside_leave _)
    exact ⟨hloose.single, hloose.aborting, hloose.ended, hloose.beats⟩
  · rename_i hcancelled
    exact (hs.pop hready (Bool.eq_false_iff.2 hcancelled)).aside (aside_leave _)

/-- What the callback of a child does before it looks at how the child ended, and then. -/
theorem doneStep_cases (s : State) (child : Child) (c : Choice) :
    ∃ t, Aside s t ∧ (t = { s with tasks := s.tasks.erase child } ∨
        t = wakeParent { s with tasks := s.tasks.erase child }) ∧
      doneStep s child c = if child = .logic ∧ t.logic.any Outcome.fails ∧ ¬ t.aborting then
        cancelParent (abort t c.heartbeatFirst) else t := by
  have htasks : Aside s { s with tasks := s.tasks.erase child } :=
    ⟨id, rfl, id, rfl, id, Or.inl, Or.inl, List.prefix_refl _, id, rfl⟩
  refine ⟨_, ?_, ?_, rfl⟩
  · dsimp only
    split
    · exact htasks.trans (aside_wakeParent _)
    · exact htasks
  · dsimp only
    split
    · exact Or.inr rfl
    · exact Or.inl rfl

/-- The group takes note of a child that has ended. -/
theorem orderly_doneStep {child : Child} (hs : Orderly s) (hready : s.ready = .done child :: rest)
    (c : Choice) : Orderly (doneStep { s with ready := rest } child c) := by
  have hloose := hs.toLoose.pop hready
  obtain ⟨t, hwoken, -, hdone⟩ := doneStep_cases { s with ready := rest } child c
  rw [hdone]
  split
  · exact (orderly_abort (hloose.aside hwoken) c.heartbeatFirst).aside (aside_cancelParent _)
  · rename_i hquiet
    by_cases haborting : t.aborting = true
    · -- A group that is aborting has cancelled the heartbeat already.
      have hloose := hloose.aside hwoken
      exact hloose.orderly (hloose.aborting haborting)
    · refine (hs.pop hready ?_).aside hwoken
      cases child with
      | heartbeat => rfl
      | logic =>
        refine Bool.eq_false_iff.2 fun hfails ↦ hquiet ⟨rfl, ?_, haborting⟩
        rw [hwoken.logic]
        exact hfails

/-- `run_business_logic` ends. -/
theorem loose_ended (hs : Loose s) (outcome : Outcome) :
    Loose (State.schedule
      { s.record (.ended outcome) with logic := some outcome } (.done .logic)) := by
  refine ⟨?_, hs.aborting, fun _ _ ↦ rfl, ?_⟩
  · rw [Single, State.schedule, countP_concat]
    exact hs.single
  · exact hs.beats.append_singleton nofun

/-- The end of `run_business_logic`, by a return or an exception, is noted; an exit cancels the
heartbeat and `start` as well. -/
theorem orderly_endLogic {c : Choice} {outcome : Outcome}
    (ht : Orderly
      (if c.setsStop then setStop { s with ready := rest } else { s with ready := rest }))
    (hsilenced : silencedAt s c outcome rest = true) :
    Orderly (endLogic
      (if c.setsStop then setStop { s with ready := rest } else { s with ready := rest })
      outcome) := by
  have hloose := loose_ended ht.toLoose outcome
  simp only [endLogic]
  split
  · have hcancel := aside_cancelHeartbeat (State.schedule { State.record
      (if c.setsStop then setStop { s with ready := rest } else { s with ready := rest })
      (.ended outcome) with logic := some outcome } (.done .logic))
    exact ((hloose.aside hcancel.1).orderly hcancel.2).aside (aside_cancelParent _)
  · rename_i hstays
    refine ⟨hloose, fun _ ↦ ?_⟩
    by_cases hsets : c.setsStop = true
    · refine Or.inl ?_
      rw [if_pos hsets]
      exact stopSet_setStop _
    · rw [if_neg hsets]
      simp only [silencedAt, Bool.eq_false_iff.2 hsets, hstays, Bool.or_false, decide_false,
        Bool.or_eq_true, decide_eq_true_eq] at hsilenced
      rcases hsilenced with ((hstop | hended) | hcancelled) | hfirst
      · exact Or.inl hstop
      · exact Or.inr (Or.inl hended)
      · exact Or.inr (Or.inr (Or.inl hcancelled))
      · exact Or.inr (Or.inr (Or.inr hfirst))

/-- `run_business_logic` goes on, or ends at a moment in which `silenced` holds. -/
theorem orderly_logicStep (hs : Orderly s) (hready : s.ready = .logic :: rest) (c : Choice)
    (hsilenced : silenced s (.run c) = true) : Orderly (logicStep { s with ready := rest } c) := by
  have hpop : Orderly { s with ready := rest } := hs.pop hready rfl
  simp only [logicStep]
  split
  · exact hpop
  · rename_i hworks
    have hset : Orderly (if c.setsStop then setStop { s with ready := rest }
        else { s with ready := rest }) := by
      split
      · exact hpop.aside (aside_setStop _)
      · exact hpop
    cases houtcome : c.outcome with
    | none => exact hset
    | some outcome =>
      have hlogic : s.logic = none := Option.not_isSome_iff_eq_none.1 hworks
      simp only [silenced, hready, hlogic, houtcome] at hsilenced
      exact orderly_endLogic hset hsilenced

/-- Whatever handle is run. -/
theorem orderly_runHandle {h : Handle} (hs : Orderly s) (hready : s.ready = h :: rest) (c : Choice)
    (hsilenced : silenced s (.run c) = true) :
    Orderly (runHandle { s with ready := rest } h c) := by
  cases h with
  | heartbeat ok => exact orderly_heartbeatStep hs hready c.touched
  | logic => exact orderly_logicStep hs hready c hsilenced
  | parent => exact orderly_parentStep hs hready c
  | done child => exact orderly_doneStep hs hready c

theorem orderly_createTasks (s : State) : Orderly (createTasks s) :=
  ⟨⟨Nat.le_refl 1, nofun, nofun, justified_nil⟩, nofun⟩

theorem orderly_step {a : Action} (hs : Orderly s) (hsilenced : silenced s a = true)
    (ht : step s a = some t) : Orderly t := by
  rcases step_cases ht with rfl | rfl | haside | ⟨c, h, rest, rfl, hready, rfl⟩
  · exact orderly_createTasks s
  · exact ⟨⟨hs.single, hs.aborting, hs.ended, hs.beats⟩, hs.calm⟩
  · exact hs.aside haside
  · exact orderly_runHandle hs hready c hsilenced

end Steps

/-- **No iteration begins after `run_business_logic` has ended**, in every run in which that end is
silenced. -/
theorem beats_while_working {s : State} (hs : system.Reachable (fun s a ↦ silenced s a = true) s) :
    BeatsWhileWorking s.trace := by
  have hinductive : system.Inductive (fun s a ↦ silenced s a = true) Orderly := by
    refine ⟨fun s hs ↦ ?_, fun hs hsilenced ht ↦ orderly_step hs hsilenced ht⟩
    obtain rfl : s = {} := hs
    exact ⟨⟨Nat.zero_le 1, nofun, nofun, justified_nil⟩, nofun⟩
  exact (hinductive.reachable hs).beats

/-- A step in which nothing is left open. -/
def go : Action := .run {}

/-- The service connects, its logic begins to verify its stream, and the heartbeat begins. -/
def verifying : List Action := [.connected true, go, go, .answered true, go]

/-- The verification fails, and the logic ends in the outcome. -/
def failing (outcome : Outcome) : List Action := [.wake, .run { outcome := some outcome }, go]

/-- The logic raises, and the heartbeat is cancelled. -/
theorem beats_while_working_raised :
    ∃ s, system.Reachable (fun s a ↦ silenced s a = true) s ∧
      s.trace = [.beat, .ended .raised] ∧ s.heartbeat = .ended ∧ BeatsWhileWorking s.trace := by
  obtain ⟨s, hs, htest⟩ := exists_reachable_of_exec (M := system)
    (G := fun s a ↦ silenced s a = true)
    {} (verifying ++ failing .raised ++ [go]) (fun s ↦ s.trace = [.beat, .ended .raised] ∧
      s.heartbeat = .ended) rfl (by decide +kernel)
  obtain ⟨htrace, hended⟩ := of_decide_eq_true htest
  exact ⟨s, hs, htrace, hended, beats_while_working hs⟩

/-- The logic returns, and the next iteration begins two seconds later. -/
theorem looks_alive :
    ∃ s, system.Reachable always s ∧ s.stopSet = false ∧
      s.trace = [.beat, .ended .returned, .beat] ∧ ¬ BeatsWhileWorking s.trace := by
  obtain ⟨s, hs, htest⟩ := exists_reachable_of_exec (M := system) (G := always) {}
    (verifying ++ failing .returned ++ [.answered true, go, .answered true, go])
    (fun s ↦ s.stopSet = false ∧ s.trace = [.beat, .ended .returned, .beat]) rfl (by decide +kernel)
  obtain ⟨hstop, htrace⟩ := of_decide_eq_true htest
  refine ⟨s, hs, hstop, htrace, fun hbeats ↦ ?_⟩
  have hsplit : s.trace = [.beat, .ended .returned] ++ .beat :: [] := htrace
  exact hbeats hsplit rfl .returned (by decide)

end LiveSTT.Service
