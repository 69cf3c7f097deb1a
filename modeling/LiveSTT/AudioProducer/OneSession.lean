import LiveSTT.AudioProducer.Views

/-!
# At most one active session

`is_active` and `session_id` are assigned together, and the test of `_handle_control_message` that
ignores a start while a session is active stands an await before the assignment it protects. Nothing
can get in between: only the control loop starts sessions, and it is the one that waits. So in every
run, whatever calls fail, the flag says whether there is a session, a session is only left for none,
and a start that finds a session changes nothing (`one_session`).

The invariant `Guarded` adds to the flag what protects the assignment: while a start waits for its
put, no session is active. `Turns` is what one step can do to the session in memory.

Nothing is assumed of the calls. A put that fails leaves its start without an entry, and it becomes
active all the same; a delete that fails leaves the entry, and no session. Neither matters here, as
the invariant does not speak of the entry.
-/

namespace LiveSTT.AudioProducer

/-! ### What a step does to the session in memory -/

/-- The session in memory is kept, or left for none. -/
inductive Rests (mem mem' : Memory) : Prop
  | kept (hid : mem'.sessionId = mem.sessionId) (hactive : mem'.isActive = mem.isActive)
  | left (hid : mem'.sessionId = none) (hactive : mem'.isActive = false)

/-- The session in memory is kept, is left, or begins where there was none. -/
inductive Turns (mem mem' : Memory) : Prop
  | rests (h : Rests mem mem')
  | began (id : SessionId) (hnone : mem.sessionId = none) (hid : mem'.sessionId = some id)
      (hactive : mem'.isActive = true)

section Turns

variable {mem mem' : Memory}

theorem Rests.of_mem (h : mem' = mem ∨ mem' = mem.idle) : Rests mem mem' := by
  rcases h with rfl | rfl
  · exact Rests.kept rfl rfl
  · exact Rests.left rfl rfl

theorem Rests.none (h : Rests mem mem') (hnone : mem.sessionId = none) : mem'.sessionId = none := by
  cases h with
  | kept hid _ => exact hid.trans hnone
  | left hid _ => exact hid

/-- Whichever way the session turns, the flag turns with it. -/
theorem Turns.flag (h : Turns mem mem') (hflag : mem.isActive = mem.sessionId.isSome) :
    mem'.isActive = mem'.sessionId.isSome := by
  cases h with
  | rests hrests =>
    cases hrests with
    | kept hid hactive => rw [hactive, hid, hflag]
    | left hid hactive => rw [hactive, hid]; rfl
  | began id hnone hid hactive => rw [hactive, hid]; rfl

/-- A session in memory after a step was there before, or there was none. -/
theorem Turns.eq_of_some (h : Turns mem mem') {id id' : SessionId} (hid : mem.sessionId = some id)
    (hid' : mem'.sessionId = some id') : id' = id := by
  cases h with
  | rests hrests =>
    cases hrests with
    | kept hkept _ => exact Option.some.inj (hid'.symm.trans (hkept.trans hid))
    | left hleft _ => cases hleft.symm.trans hid'
  | began _ hnone _ _ => cases hnone.symm.trans hid

end Turns

/-! ### The invariant -/

/-- The flag agrees with the session, a start that waits for its put found none, and there is none
while the process is down. -/
structure Guarded (s : State) : Prop where
  flag : s.mem.isActive = s.mem.sessionId.isSome
  putting : ∀ id ∈ s.ctrl.putting, s.mem.sessionId = none
  down : s.up = false → s.mem.sessionId = none

section Steps

variable {below : Bytes → Bool} {s t : State}

/-- A step of a running process that begins no session. -/
theorem Guarded.of_rests (h : Guarded s) (hrests : Rests s.mem t.mem)
    (hputting : ∀ id ∈ t.ctrl.putting, id ∈ s.ctrl.putting) (hup : t.up = true) :
    Turns s.mem t.mem ∧ Guarded t := by
  have hturns : Turns s.mem t.mem := Turns.rests hrests
  refine ⟨hturns, hturns.flag h.flag, fun id hid ↦ ?_, fun hdown ↦ ?_⟩
  · exact hrests.none (h.putting id (hputting id hid))
  · rw [hup] at hdown
    contradiction

/-- A step that only moves the process on, and counts silence. -/
theorem Guarded.of_kept (h : Guarded s) (hid : t.mem.sessionId = s.mem.sessionId)
    (hactive : t.mem.isActive = s.mem.isActive) (hputting : t.ctrl.putting = s.ctrl.putting)
    (hup : t.up = s.up) : Turns s.mem t.mem ∧ Guarded t := by
  have hturns : Turns s.mem t.mem := Turns.rests (Rests.kept hid hactive)
  refine ⟨hturns, hturns.flag h.flag, fun id hput ↦ ?_, fun hdown ↦ ?_⟩
  · rw [hid]
    rw [hputting] at hput
    exact h.putting id hput
  · rw [hid]
    exact h.down (hup ▸ hdown)

/-! ### Stops -/

theorem guarded_stopStep (h : Guarded s) (hup : s.up = true) {pc : StopPc} {r : Reply}
    {w : Coroutine} : Turns s.mem (stopStep s pc r w).mem ∧ Guarded (stopStep s pc r w) :=
  h.of_rests (Rests.of_mem (mem_stopStep s r w pc)) stopping_stopStep.loops.putting
    (stopping_stopStep.up.trans hup)

theorem guarded_beginStop (h : Guarded s) (hup : s.up = true) {now : Stamp} {r : Reply}
    {w : Coroutine} : Turns s.mem (beginStop s now r w).mem ∧ Guarded (beginStop s now r w) := by
  refine h.of_rests (Rests.of_mem ?_) stopping_beginStop.loops.putting
    (stopping_beginStop.up.trans hup)
  rw [mem_beginStop]
  exact ite_eq_or_eq _ _ _

/-! ### Starts -/

theorem Guarded.none_of_idle (h : Guarded s) (hidle : s.mem.isActive = false) :
    s.mem.sessionId = none := by
  rw [h.flag] at hidle
  exact Option.not_isSome_iff_eq_none.1 (Bool.eq_false_iff.1 hidle)

/-- A session is activated where there was none. -/
theorem guarded_activate (h : Guarded s) (hup : s.up = true) (hnone : s.mem.sessionId = none)
    {stamp : Stamp} {label : Json} {r : Reply} :
    Turns s.mem (activate s stamp label r).mem ∧ Guarded (activate s stamp label r) := by
  have hturns : Turns s.mem (activate s stamp label r).mem := by
    rw [mem_activate]
    split <;> exact Turns.began stamp.id hnone rfl rfl
  refine ⟨hturns, hturns.flag h.flag, fun id hid ↦ ?_, fun hdown ↦ ?_⟩
  · rw [putting_activate] at hid
    contradiction
  · rw [up_activate, hup] at hdown
    contradiction

/-- A start begins only when the flag is down, so that memory has no session. -/
theorem guarded_beginStart (h : Guarded s) (hup : s.up = true) (hidle : s.mem.isActive = false)
    {stamp : Stamp} {label : Json} {r : Reply} :
    Turns s.mem (beginStart s stamp label r).mem ∧ Guarded (beginStart s stamp label r) := by
  have hnone : s.mem.sessionId = none := h.none_of_idle hidle
  rcases hkv : s.mem.sessionKv with - | -
  · rw [beginStart_of_no_kv s stamp label r hkv]
    exact guarded_activate (s := s.record (.startBegan stamp.id)) ⟨h.flag, h.putting,
      h.down⟩ hup hnone
  · rw [beginStart_of_kv s stamp label r hkv]
    exact ⟨Turns.rests (Rests.kept rfl rfl), h.flag, fun _ _ ↦ hnone, h.down⟩

/-- A start that waited for its put still finds none, as the control loop handles one message at a
time. -/
theorem guarded_startStep (h : Guarded s) (hup : s.up = true) {pc : StartPc} {r : Reply}
    (hctrl : s.ctrl = .starting pc) :
    Turns s.mem (startStep s pc r).mem ∧ Guarded (startStep s pc r) := by
  cases pc with
  | kvPutting stamp label =>
    refine guarded_activate h hup (h.putting stamp.id ?_)
    rw [hctrl]
    exact List.mem_singleton_self _
  | configReading stamp label since value =>
    exact h.of_kept rfl rfl (by rw [hctrl]; rfl) (up_announce _ _ _)
  | eventPublishing => exact h.of_kept rfl rfl (by rw [hctrl]; rfl) rfl

/-! ### The loops -/

/-- A start while a session is active is ignored, a stop of it leaves it or goes on to the calls. -/
theorem guarded_handleControlMessage (h : Guarded s) (hup : s.up = true)
    (hctrl : s.ctrl = .fetching) {payload : Option Json} {now : Stamp} {r : Reply} :
    Turns s.mem (handleControlMessage s payload now r).mem ∧
      Guarded (handleControlMessage s payload now r) := by
  have hmove : ∀ pc : CtrlPc, pc.putting = [] →
      Turns s.mem s.mem ∧ Guarded { s with ctrl := pc } := fun pc hpc ↦
    h.of_kept (t := { s with ctrl := pc }) rfl rfl (by rw [hctrl]; exact hpc) rfl
  rw [handleControlMessage.eq_def]
  split
  · exact hmove _ rfl
  · split
    · split
      · exact hmove _ rfl
      · rename_i hidle
        exact guarded_beginStart h hup (Bool.not_eq_true _ ▸ hidle)
    · split
      · exact guarded_beginStop h hup
      · exact hmove _ rfl
  · exact hmove _ rfl

/-- The silence check can only stop the session. -/
theorem guarded_checkSilence (h : Guarded s) (hup : s.up = true) {data : Bytes} {b : Bool}
    {now : Stamp} {r : Reply} : Turns s.mem (checkSilence s data b now r).mem ∧
      Guarded (checkSilence s data b now r) := by
  simp only [checkSilence]
  split
  · exact h.of_kept rfl rfl rfl rfl
  · have hcounted := h.of_kept
      (t := { s with mem := s.mem.countSilence data b, audio := .waiting }) rfl rfl rfl rfl
    split
    · -- Counting changes the counter only, so what the stop does it does to the session.
      obtain ⟨hturns, hguarded⟩ : Turns _ (beginStop _ now r .audio).mem ∧
          Guarded (beginStop _ now r .audio) := guarded_beginStop hcounted.2 hup
      refine ⟨?_, hguarded⟩
      rcases hturns with (⟨hid, hactive⟩ | ⟨hid, hactive⟩) | ⟨id, hnone, hid, hactive⟩
      · exact Turns.rests (Rests.kept hid hactive)
      · exact Turns.rests (Rests.left hid hactive)
      · exact Turns.began id hnone hid hactive
    · exact hcounted

/-- The recovery takes up a session in a process that has none. -/
theorem guarded_boot (h : Guarded s) (hdown : s.up = false) {sessionKv configKv raised : Bool} :
    Turns s.mem (boot s sessionKv configKv raised).mem ∧
      Guarded (boot s sessionKv configKv raised) := by
  have hblank : Turns s.mem (Memory.mk none false 0 defaultSilenceTimeoutS (.str "") sessionKv
      (sessionKv && configKv)) := Turns.rests (Rests.left rfl rfl)
  rw [boot, recoverSession.eq_def]
  split
  · rename_i entry _
    split
    · exact ⟨Turns.began entry.sessionId (h.down hdown) rfl rfl, rfl, by simp [State.record,
        CtrlPc.putting], by simp [State.record]⟩
    · exact ⟨hblank, rfl, by simp [CtrlPc.putting], by simp⟩
  · exact ⟨hblank, rfl, by simp [CtrlPc.putting], by simp⟩

/-- **One step.** -/
theorem guarded_step {a : Action} (h : Guarded s) (ht : step below s a = some t) :
    Turns s.mem t.mem ∧ Guarded t := by
  cases stepped_of_step ht with
  | boot hdown sessionKv configKv raised => exact guarded_boot h hdown
  | crash hup =>
    exact ⟨Turns.rests (Rests.left rfl rfl), rfl, by simp [crash, CtrlPc.putting], fun _ ↦ rfl⟩
  | chunk hup haudio data r =>
    rw [routeChunk.eq_def]
    split
    · exact h.of_kept (by simp) (by simp) (by simp) (by simp)
    · exact h.of_kept rfl rfl rfl rfl
  | published hup haudio now r => exact guarded_checkSilence h hup
  | dropped hup haudio now r => exact h.of_kept rfl rfl rfl rfl
  | buffered hup haudio now r => exact h.of_kept rfl rfl rfl rfl
  | audioStop hup haudio now r => exact guarded_stopStep h hup
  | subscribed hup hctrl ok => exact h.of_kept rfl rfl (by rw [hctrl]; cases ok <;> rfl) rfl
  | message hup hctrl payload now r => exact guarded_handleControlMessage h hup hctrl
  | ctrlStart hup hctrl r => exact guarded_startStep h hup hctrl
  | ctrlStop hup hctrl r => exact guarded_stopStep h hup
  | @ctrlAcked raised hup hctrl r =>
    exact h.of_kept rfl rfl (by rw [hctrl]; cases raised <;> rfl) rfl
  | ctrlExit hup hctrl => exact h.of_kept rfl rfl (by rw [hctrl]; rfl) rfl
  | @flush i f hup hi answer r =>
    have hF := flushed_flushStep s i f answer r
    exact h.of_kept (congrArg _ hF.mem) (congrArg _ hF.mem) (congrArg _ hF.ctrl) hF.up
  | expire n => exact h.of_kept rfl rfl rfl rfl
  | setConfig value => exact h.of_kept rfl rfl rfl rfl

theorem guarded_inductive (below : Bytes → Bool) (G : State → Action → Prop) :
    (system below).Inductive G Guarded where
  init s hs := by
    obtain rfl : s = {} := hs
    exact ⟨rfl, by simp, fun _ ↦ rfl⟩
  step h _ ht := (guarded_step h ht).2

end Steps

/-! ### A start that finds a session -/

/-- A start handled while a session is active is acked, and nothing else. -/
theorem ignored_of_active {below : Bytes → Bool} {s t : State} {payload : Option Json} {now : Stamp}
    {r : Reply} (hactive : s.mem.isActive = true) (hstart : wantsStart payload = true)
    (ht : step below s (.message payload now r) = some t) :
    t = { s with ctrl := .acking r.raised } := by
  cases stepped_of_step ht with
  | message hup hctrl _ _ _ =>
    rw [handleControlMessage.eq_def]
    split
    · rfl
    · rename_i data
      have hcommand : (Dict.getOr data "command" .null).isStr "start" = true := hstart
      rw [if_pos hcommand, if_pos hactive]
    · rename_i value hother
      rw [wantsStart.eq_def] at hstart
      split at hstart
      · rename_i data hdata
        exact absurd (Option.some.inj hdata) (hother data)
      · contradiction

/-- The ack moves the control loop on, and nothing else. -/
theorem acked_of_acking {below : Bytes → Bool} {s t : State} {raised : Bool} {r : Reply}
    (hctrl : s.ctrl = .acking raised) (ht : step below s (.ctrl r) = some t) :
    t = { s with ctrl := if raised then .exited else .fetching } := by
  obtain ⟨-, hstep⟩ := Option.ite_none_right_eq_some.1 ht
  rw [runStep, ctrlStep, hctrl] at hstep
  exact (Option.some.inj hstep).symm

/-- The flag says whether there is a session; a session is left for none before another one begins;
a start that finds a session only moves the control loop, to its ack and on from there. -/
structure AtMostOne (below : Bytes → Bool) (s : State) : Prop where
  flag : s.mem.isActive = true ↔ s.mem.sessionId ≠ none
  switch : ∀ a t id id', step below s a = some t → s.mem.sessionId = some id →
    t.mem.sessionId = some id' → id' = id
  start : ∀ payload now r t, s.mem.isActive = true → wantsStart payload = true →
    step below s (.message payload now r) = some t → t = { s with ctrl := .acking r.raised }
  ack : ∀ raised r t, s.ctrl = .acking raised → step below s (.ctrl r) = some t →
    t = { s with ctrl := if raised then .exited else .fetching }

/-- **At most one active session**, in every run. -/
theorem one_session {below : Bytes → Bool} {s : State}
    (h : (system below).Reachable TransitionSystem.always s) : AtMostOne below s := by
  have hG := (guarded_inductive below TransitionSystem.always).reachable h
  refine ⟨?_, fun a t id id' ht hid hid' ↦ ?_, fun _ _ _ _ ↦ ignored_of_active,
    fun _ _ _ ↦ acked_of_acking⟩
  · rw [hG.flag, Option.isSome_iff_ne_none]
  · exact (guarded_step hG ht).1.eq_of_some hid hid'

/-- A session is started, and the process restarted: the session is resumed, and a second start can
be handled. -/
theorem one_session_resumed :
    ∃ s, (system silent).Reachable TransitionSystem.always s ∧ s.mem.sessionId = some first.id ∧
      (step silent s (.message (command "start") second .ok)).isSome ∧ AtMostOne silent s := by
  obtain ⟨s, hs, htest⟩ := TransitionSystem.exists_reachable_of_exec
    (M := system silent) (G := TransitionSystem.always) {}
    (running ++ starting first ++ started ++ [.crash] ++ running)
    (fun s ↦ s.mem.sessionId = some first.id ∧
      (step silent s (.message (command "start") second .ok)).isSome) rfl (by decide +kernel)
  obtain ⟨hid, hstart⟩ := of_decide_eq_true htest
  exact ⟨s, hs, hid, hstart, one_session hs⟩

end LiveSTT.AudioProducer
