import LiveSTT.AudioProducer.Views

/-!
# What a message does to the control loop

`_handle_control_message` acks a payload that is no JSON, and otherwise asks the value for its
command, starts or stops, and acks. Every call in a start or a stop may fail, and the message is
acked all the same. But only an object has a `get`: any other JSON value raises, before the ack and
outside of every `try`. The task of the control loop dies of it, silently, and no command is read
until the process is started again (`exited_of_malformed`).

So a message is handled — with one ack, in at most four more steps of the loop, starting or stopping
a session only if its command says so — exactly if its payload is no JSON or an object
(`handles_iff`); and in a run in which all payloads are, the loop goes on (`ctrl_ne_exited`).

The number of the acks is kept beside the state (`acked`), as no code counts them. `Running` is a
handler on its way, with the number of calls it has still to make (`CtrlPc.rest`), and each function
of a start or a stop comes with the lemma that it makes that number smaller, whatever its call has
returned.
-/

namespace LiveSTT.AudioProducer

open TransitionSystem

/-! ### Messages -/

/-- A payload that is neither undecodable nor an object. -/
def malformed : Option Json → Bool
  | none => false
  | some (.obj _) => false
  | some _ => true

/-- The payload is an object with the command. -/
def commands (payload : Option Json) (name : String) : Prop :=
  ∃ data, payload = some (.obj data) ∧ Dict.getOr data "command" .null = .str name

/-! ### Where the handler is -/

namespace CtrlPc

/-- At the ack of a message. -/
def isAcking : CtrlPc → Bool
  | .acking _ => true
  | _ => false

/-- The message is acked: the loop is at the ack, or at the next fetch. -/
def hasAcked : CtrlPc → Bool
  | .acking _ | .fetching => true
  | _ => false

/-- In the handler. -/
def busy : CtrlPc → Bool
  | .starting _ | .stopping _ | .acking _ => true
  | _ => false

/-- The steps that the handler has still to take, at most. -/
def rest : CtrlPc → ℕ
  | .starting (.kvPutting _ _) | .stopping (.eosPublishing _ _) => 4
  | .starting (.configReading _ _ _ _) | .stopping (.kvDeleting _ _ _) => 3
  | .starting .eventPublishing | .stopping (.eventPublishing _ _) => 2
  | .acking _ => 1
  | .subscribing | .fetching | .exited => 0

end CtrlPc

/-- An ack is issued when the loop comes to it. -/
def countAcks (n : ℕ) (s t : State) : ℕ :=
  if t.ctrl.isAcking ∧ s.ctrl.isAcking = false then n + 1 else n

/-- audio-producer, with the number of acks issued on `session.control`. -/
def acked (below : Bytes → Bool) : TransitionSystem (State × ℕ) Action :=
  (system below).observe 0 countAcks

/-- The ack that the step issues, if it issues one, succeeds. -/
def ackSucceeds (below : Bytes → Bool) (s : State) (a : Action) : Prop :=
  ∀ t, step below s a = some t → t.ctrl ≠ .acking true

/-- The process goes on, and no other message is fetched. -/
def Action.duringHandler : Action → Bool
  | .boot _ _ _ | .crash | .subscribed _ | .message _ _ _ | .ctrlExit => false
  | _ => true

/-- A step of the control loop. -/
def Action.isCtrl : Action → Bool
  | .ctrl _ => true
  | _ => false

/-- A run of the process while the message is handled, with acks that succeed. -/
def handling (below : Bytes → Bool) (p : State × ℕ) (a : Action) : Prop :=
  ackSucceeds below p.1 a ∧ a.duringHandler = true

/-- Where a run of the handler has come to, with the steps `as` behind its first one. The loop takes
at most four of them; it can always go on, or has returned to the next fetch; the message is acked
once, by the time the handler is at its ack; and it is in a start or a stop only if the message
commands it. -/
structure Handled (below : Bytes → Bool) (p : State × ℕ) (payload : Option Json) (as : List Action)
    (q : State × ℕ) : Prop where
  steps : as.countP Action.isCtrl + q.1.ctrl.rest ≤ 4
  goesOn : q.1.ctrl = .fetching ∨
    q.1.ctrl.busy = true ∧ ∀ r, (step below q.1 (.ctrl r)).isSome = true
  acks : q.2 = p.2 + if q.1.ctrl.hasAcked then 1 else 0
  starts : ∀ pc, q.1.ctrl = .starting pc → commands payload "start"
  stops : ∀ pc, q.1.ctrl = .stopping pc → commands payload "stop"

/-- The message is handled, whatever happens beside and whatever the calls of the handler answer. -/
def Handles (below : Bytes → Bool) (p : State × ℕ) (payload : Option Json) (now : Stamp) : Prop :=
  ∀ r t as q, (acked below).step p (.message payload now r) = some t → t.1.ctrl ≠ .acking true →
    (acked below).Run (handling below) t as q → Handled below p payload as q

section

variable {below : Bytes → Bool} {s t : State} {w : Coroutine} {r : Reply} {payload : Option Json}

/-! ### What the functions of the handler do to it -/

/-- A stop of the control loop takes a step, and ends at the ack. -/
theorem rest_of_stopping (captured : Option SessionId) (stoppedAt : String) :
    (∃ pc, (idleStop s captured stoppedAt r .control).ctrl = .stopping pc) ∧
      (idleStop s captured stoppedAt r .control).ctrl.rest ≤ 3 := by
  rw [idleStop]
  split
  · exact ⟨⟨_, rfl⟩, Nat.le_refl _⟩
  · exact ⟨⟨_, rfl⟩, Nat.le_succ 2⟩

/-- One call of `_stop_session` brings the handler nearer to the ack. -/
theorem ctrl_stopStep (pc : StopPc) :
    (stopStep s pc r .control).ctrl.rest < (CtrlPc.stopping pc).rest ∧
      ((∃ pc', (stopStep s pc r .control).ctrl = .stopping pc') ∨
        (stopStep s pc r .control).ctrl = .acking r.raised) := by
  cases pc with
  | eosPublishing id stoppedAt =>
    obtain ⟨hstopping, hrest⟩ := rest_of_stopping (s := s) (r := r) (some id) stoppedAt
    exact ⟨Nat.lt_succ_of_le hrest, Or.inl hstopping⟩
  | kvDeleting captured stoppedAt cleared => exact ⟨Nat.le_refl _, Or.inl ⟨_, rfl⟩⟩
  | eventPublishing captured cleared => exact ⟨Nat.le_refl _, Or.inr rfl⟩

/-- A stop of the control loop has at most four calls before the ack. -/
theorem ctrl_beginStop (now : Stamp) :
    (∃ pc, (beginStop s now r .control).ctrl = .stopping pc) ∧
      (beginStop s now r .control).ctrl.rest ≤ 4 := by
  rw [beginStop.eq_def]
  split
  · exact ⟨⟨_, rfl⟩, Nat.le_refl _⟩
  · obtain ⟨hstopping, hrest⟩ :=
      rest_of_stopping (s := s.record (.stopBegan none)) (r := r) none now.iso
    exact ⟨hstopping, Nat.le_succ_of_le hrest⟩

theorem ctrl_activate (stamp : Stamp) (label : Json) :
    (∃ pc, (activate s stamp label r).ctrl = .starting pc) ∧
      (activate s stamp label r).ctrl.rest ≤ 3 := by
  rw [activate]
  split
  · exact ⟨⟨_, rfl⟩, Nat.le_refl _⟩
  · exact ⟨⟨_, rfl⟩, Nat.le_succ 2⟩

/-- One call of a start brings the handler nearer to the ack. -/
theorem ctrl_startStep (pc : StartPc) :
    (startStep s pc r).ctrl.rest < (CtrlPc.starting pc).rest ∧
      ((∃ pc', (startStep s pc r).ctrl = .starting pc') ∨
        (startStep s pc r).ctrl = .acking r.raised) := by
  cases pc with
  | kvPutting stamp label =>
    obtain ⟨hstarting, hrest⟩ := ctrl_activate (s := s) (r := r) stamp label
    exact ⟨Nat.lt_succ_of_le hrest, Or.inl hstarting⟩
  | configReading stamp label since value => exact ⟨Nat.le_refl _, Or.inl ⟨_, rfl⟩⟩
  | eventPublishing => exact ⟨Nat.le_refl _, Or.inr rfl⟩

/-- A start has at most four calls before the ack. -/
theorem ctrl_beginStart (stamp : Stamp) (label : Json) :
    (∃ pc, (beginStart s stamp label r).ctrl = .starting pc) ∧
      (beginStart s stamp label r).ctrl.rest ≤ 4 := by
  rcases hkv : s.mem.sessionKv with - | -
  · rw [beginStart_of_no_kv s stamp label r hkv]
    obtain ⟨hstarting, hrest⟩ := ctrl_activate (s := s.record (.startBegan stamp.id))
      (r := r) stamp label
    exact ⟨hstarting, Nat.le_succ_of_le hrest⟩
  · rw [beginStart_of_kv s stamp label r hkv]
    exact ⟨⟨_, rfl⟩, Nat.le_refl _⟩

/-- A message is acked at once, or a command is begun. -/
theorem ctrl_handleControlMessage (hpayload : malformed payload = false) (now : Stamp) :
    (handleControlMessage s payload now r).ctrl = .acking r.raised ∨
      (commands payload "start" ∧ (∃ pc,
        (handleControlMessage s payload now r).ctrl = .starting pc) ∧
        (handleControlMessage s payload now r).ctrl.rest ≤ 4) ∨
      (commands payload "stop" ∧ (∃ pc,
        (handleControlMessage s payload now r).ctrl = .stopping pc) ∧
        (handleControlMessage s payload now r).ctrl.rest ≤ 4) := by
  rw [handleControlMessage.eq_def]
  split
  · exact Or.inl rfl
  · rename_i data
    split
    · rename_i hstart
      split
      · exact Or.inl rfl
      · exact Or.inr (Or.inl ⟨⟨data, rfl, Json.isStr_iff.1 hstart⟩, ctrl_beginStart now _⟩)
    · split
      · rename_i hstop
        exact Or.inr (Or.inr ⟨⟨data, rfl, Json.isStr_iff.1 hstop.1⟩, ctrl_beginStop now⟩)
      · exact Or.inl rfl
  · rename_i value hnot
    cases value with
    | obj data => exact absurd rfl (hnot data)
    | _ => simp [malformed] at hpayload

/-- A value that is no object ends the loop. -/
theorem ctrl_of_malformed (hpayload : malformed payload = true) (now : Stamp) :
    (handleControlMessage s payload now r).ctrl = .exited := by
  rcases payload with - | (- | - | - | - | - | data)
  all_goals first | rfl | simp [malformed] at hpayload

/-- The audio loop and the flush tasks leave the control loop where it is. -/
theorem ctrl_of_beside {a : Action} (ht : step below s a = some t) (ha : a.duringHandler = true)
    (hbeside : a.isCtrl = false) : t.ctrl = s.ctrl ∧ t.up = s.up := by
  have hmoved {u v : State} (h : Stopping .audio u v) : v.ctrl = u.ctrl ∧ v.up = u.up := by
    refine ⟨?_, h.up⟩
    cases h.loops with
    | audio hctrl _ => exact hctrl
  -- `check_silence` has stored its counters before it stops the session
  cases stepped_of_step ht with
  | chunk _ _ data r =>
    rw [routeChunk.eq_def]
    split
    · simp
    · exact ⟨rfl, rfl⟩
  | published _ _ now r =>
    simp only [checkSilence]
    split
    · exact ⟨rfl, rfl⟩
    · split
      · obtain ⟨hkept, hup⟩ := hmoved stopping_beginStop
        exact ⟨hkept, hup⟩
      · exact ⟨rfl, rfl⟩
  | dropped _ _ now r => exact ⟨rfl, rfl⟩
  | buffered _ _ now r => exact ⟨rfl, rfl⟩
  | audioStop _ _ now r => exact hmoved stopping_stopStep
  | @flush i f _ _ answer r =>
    have hF := flushed_flushStep s i f answer r
    exact ⟨hF.ctrl, hF.up⟩
  | expire n => exact ⟨rfl, rfl⟩
  | setConfig value => exact ⟨rfl, rfl⟩
  | _ => contradiction

/-! ### One step of a run -/

/-- A step of the loop in the handler: it has one step less to take, stays in its start or stop or
comes to the ack, and returns from there. -/
theorem ctrl_step (ht : step below s (.ctrl r) = some t)
    (hack : t.ctrl ≠ .acking true) : t.up = true ∧ t.ctrl.rest < s.ctrl.rest ∧
      ((∃ pc pc', s.ctrl = .starting pc ∧ t.ctrl = .starting pc') ∨
        (∃ pc pc', s.ctrl = .stopping pc ∧ t.ctrl = .stopping pc') ∨
        (s.ctrl.hasAcked = false ∧ s.ctrl.busy = true ∧ t.ctrl = .acking false) ∨
        ∃ raised, s.ctrl = .acking raised ∧ t.ctrl = if raised then .exited else .fetching) := by
  have hreply (h : t.ctrl = .acking r.raised) : t.ctrl = .acking false := by
    rcases hr : r.raised with - | -
    · rw [h, hr]
    · exact absurd (h.trans (by rw [hr])) hack
  cases stepped_of_step ht with
  | @ctrlStart pc hup hctrl =>
    obtain ⟨hrest, hnext⟩ := ctrl_startStep (s := s) (r := r) pc
    refine ⟨?_, ?_, ?_⟩
    · cases pc with
      | kvPutting stamp label => exact (up_activate s stamp label r).trans hup
      | configReading stamp label since value => exact (up_announce s _ r).trans hup
      | eventPublishing => exact hup
    · rwa [hctrl]
    · rcases hnext with ⟨pc', hpc'⟩ | hacking
      · exact Or.inl ⟨pc, pc', hctrl, hpc'⟩
      · exact Or.inr (Or.inr (Or.inl ⟨by rw [hctrl]; rfl, by rw [hctrl]; rfl, hreply hacking⟩))
  | @ctrlStop pc hup hctrl r =>
    obtain ⟨hrest, hnext⟩ := ctrl_stopStep (s := s) (r := r) pc
    refine ⟨(stopping_stopStep (w := .control)).up.trans hup, ?_, ?_⟩
    · rwa [hctrl]
    · rcases hnext with ⟨pc', hpc'⟩ | hacking
      · exact Or.inr (Or.inl ⟨pc, pc', hctrl, hpc'⟩)
      · exact Or.inr (Or.inr (Or.inl ⟨by rw [hctrl]; rfl, by rw [hctrl]; rfl, hreply hacking⟩))
  | @ctrlAcked raised hup hctrl r =>
    refine ⟨hup, ?_, Or.inr (Or.inr (Or.inr ⟨raised, hctrl, rfl⟩))⟩
    rw [hctrl]
    cases raised
    · exact Nat.zero_lt_one
    · exact Nat.zero_lt_one

/-- Where the handler of a message can be. -/
inductive InHandler (payload : Option Json) : CtrlPc → Prop
  | starting (pc : StartPc) (h : commands payload "start") : InHandler payload (.starting pc)
  | stopping (pc : StopPc) (h : commands payload "stop") : InHandler payload (.stopping pc)
  | acking : InHandler payload (.acking false)
  | returned : InHandler payload .fetching

/-- The invariant of a run of the handler. -/
structure Running (p : State × ℕ) (payload : Option Json) (as : List Action) (q : State × ℕ) :
    Prop where
  up : q.1.up = true
  steps : as.countP Action.isCtrl + q.1.ctrl.rest ≤ 4
  handler : InHandler payload q.1.ctrl
  acks : q.2 = p.2 + if q.1.ctrl.hasAcked then 1 else 0

variable {p q u : State × ℕ} {as : List Action}

theorem countAcks_of_ctrl (n : ℕ) (h : t.ctrl = s.ctrl) : countAcks n s t = n := by
  rw [countAcks, h]
  cases s.ctrl.isAcking
  · rfl
  · rfl

/-- The handler begins. -/
theorem running_message (hctrl : s.ctrl = .fetching)
    (hpayload : malformed payload = false) (now : Stamp) {n : ℕ}
    (hack : (handleControlMessage s payload now r).ctrl ≠ .acking true)
    (hup' : (handleControlMessage s payload now r).up = true) :
    Running (s, n) payload [] (handleControlMessage s payload now r,
      countAcks n s (handleControlMessage s payload now r)) := by
  have hcount : countAcks n s (handleControlMessage s payload now r) =
      n + if (handleControlMessage s payload now r).ctrl.isAcking then 1 else 0 := by
    rw [countAcks, hctrl]
    cases (handleControlMessage s payload now r).ctrl.isAcking
    · rfl
    · rfl
  rcases ctrl_handleControlMessage (s := s) (r := r) hpayload now with
    hacking | ⟨hcommand, ⟨pc, hpc⟩, hrest⟩ | ⟨hcommand, ⟨pc, hpc⟩, hrest⟩
  · have hfalse : (handleControlMessage s payload now r).ctrl = .acking false := by
      rcases hr : r.raised with - | -
      · rw [hacking, hr]
      · exact absurd (hacking.trans (by rw [hr])) hack
    refine ⟨hup', ?_, ?_, ?_⟩
    · rw [hfalse]
      decide
    · rw [hfalse]
      exact .acking
    · rw [hcount, hfalse]
      rfl
  · refine ⟨hup', by simpa using hrest, ?_, ?_⟩
    · rw [hpc]
      exact .starting pc hcommand
    · rw [hcount, hpc]
      rfl
  · refine ⟨hup', by simpa using hrest, ?_, ?_⟩
    · rw [hpc]
      exact .stopping pc hcommand
    · rw [hcount, hpc]
      rfl

/-- And goes on. -/
theorem running_step {a : Action} (h : Running p payload as q) (hG : handling below q a)
    (hstep : (acked below).step q a = some u) : Running p payload (as ++ [a]) u := by
  obtain ⟨ht, hcount⟩ := step_observe hstep
  have ht : step below q.1 a = some u.1 := ht
  obtain ⟨hup, hsteps, hhandler, hacks⟩ := h
  rcases hctrl : a.isCtrl with - | -
  · obtain ⟨hkept, hup'⟩ := ctrl_of_beside ht hG.2 hctrl
    refine ⟨hup'.trans hup, ?_, ?_, ?_⟩
    · rw [List.countP_append, hkept]
      simpa [hctrl] using hsteps
    · rwa [hkept]
    · rw [hcount, countAcks_of_ctrl _ hkept, hkept, hacks]
  · obtain ⟨r, rfl⟩ : ∃ r, a = .ctrl r := by
      cases a with
      | ctrl r => exact ⟨r, rfl⟩
      | _ => contradiction
    obtain ⟨hup', hrest, hnext⟩ := ctrl_step ht (hG.1 u.1 ht)
    have hsteps' : (as ++ [Action.ctrl r]).countP Action.isCtrl + u.1.ctrl.rest ≤ 4 := by
      have hone : [Action.ctrl r].countP Action.isCtrl = 1 := rfl
      rw [List.countP_append, hone]
      omega
    have hcount : u.2 = countAcks q.2 q.1 u.1 := hcount
    rw [countAcks, hacks] at hcount
    rcases hnext with ⟨pc, pc', hpc, hpc'⟩ | ⟨pc, pc', hpc, hpc'⟩ | ⟨hnot, hbusy, hacking⟩ |
      ⟨raised, hacking, hreturn⟩
    · rw [hpc] at hhandler hcount
      rw [hpc'] at hcount
      cases hhandler with
      | starting pc hcommand =>
        refine ⟨hup', hsteps', ?_, ?_⟩
        · rw [hpc']
          exact .starting pc' hcommand
        · rw [hpc', hcount]
          rfl
    · rw [hpc] at hhandler hcount
      rw [hpc'] at hcount
      cases hhandler with
      | stopping pc hcommand =>
        refine ⟨hup', hsteps', ?_, ?_⟩
        · rw [hpc']
          exact .stopping pc' hcommand
        · rw [hpc', hcount]
          rfl
    · -- the ack is issued here
      have hisAcking : q.1.ctrl.isAcking = false := by
        cases hpc : q.1.ctrl with
        | acking raised =>
          rw [hpc] at hnot
          contradiction
        | _ => rfl
      rw [hnot, hacking, hisAcking] at hcount
      refine ⟨hup', hsteps', ?_, ?_⟩
      · rw [hacking]
        exact .acking
      · rw [hacking, hcount]
        rfl
    · rw [hacking] at hhandler hcount
      cases hhandler with
      | acking =>
        refine ⟨hup', hsteps', ?_, ?_⟩
        · rw [hreturn]
          exact .returned
        · rw [hreturn, hcount, hreturn]
          rfl

/-- A run of the handler to its ack handles the message. -/
theorem Running.handled (h : Running p payload as q) : Handled below p payload as q := by
  refine ⟨h.steps, ?_, h.acks, fun pc hpc ↦ ?_, fun pc hpc ↦ ?_⟩
  · have hup := h.up
    have hhandler := h.handler
    generalize hctrl : q.1.ctrl = ctrl at hhandler
    cases hhandler with
    | returned => exact Or.inl rfl
    | _ => exact Or.inr ⟨rfl, fun r ↦ by simp [step, runStep, ctrlStep, hup, hctrl]⟩
  · have hhandler := h.handler
    rw [hpc] at hhandler
    cases hhandler with
    | starting _ hcommand => exact hcommand
  · have hhandler := h.handler
    rw [hpc] at hhandler
    cases hhandler with
    | stopping _ hcommand => exact hcommand

/-- A handler does not end the process. -/
theorem up_handleControlMessage (payload : Option Json) (now : Stamp) :
    (handleControlMessage s payload now r).up = s.up := by
  have hstart (label : Json) : (beginStart s now label r).up = s.up := by
    rcases hkv : s.mem.sessionKv with - | -
    · rw [beginStart_of_no_kv s now label r hkv]
      exact up_activate _ _ _ _
    · rw [beginStart_of_kv s now label r hkv]
  rw [handleControlMessage.eq_def]
  split
  · rfl
  · split
    · split
      · rfl
      · exact hstart _
    · split
      · exact (stopping_beginStop (w := .control)).up
      · rfl
  · rfl

theorem step_message (hup : s.up = true) (hctrl : s.ctrl = .fetching) (now : Stamp) :
    step below s (.message payload now r) = some (handleControlMessage s payload now r) := by
  simp [step, runStep, hup, hctrl]

/-- A message that is no JSON or an object is handled. -/
theorem handles_of_not_malformed (hup : p.1.up = true) (hctrl : p.1.ctrl = .fetching)
    (hpayload : malformed payload = false) (now : Stamp) : Handles below p payload now := by
  intro r t as q hstep hack hrun
  obtain ⟨ht, hcount⟩ := step_observe hstep
  have ht : step below p.1 (.message payload now r) = some t.1 := ht
  rw [step_message hup hctrl] at ht
  have hfirst : t.1 = handleControlMessage p.1 payload now r := (Option.some.inj ht).symm
  have hbegin : Running p payload [] t := by
    have hbegin := running_message (n := p.2) (r := r) hctrl hpayload now (hfirst ▸ hack)
      ((up_handleControlMessage payload now).trans hup)
    rwa [← hfirst, ← hcount] at hbegin
  have hrunning : Running p payload as q := by
    induction hrun with
    | nil => exact hbegin
    | snoc _ hG hstep ih => exact running_step ih hG hstep
  exact hrunning.handled

/-- Any other message ends the loop, without an ack. -/
theorem not_handles_of_malformed (hup : p.1.up = true) (hctrl : p.1.ctrl = .fetching)
    (hpayload : malformed payload = true) (now : Stamp) : ¬ Handles below p payload now := by
  intro hhandles
  have hexited := ctrl_of_malformed (s := p.1) (r := .ok) hpayload now
  have hstep : (acked below).step p (.message payload now .ok) =
      some (handleControlMessage p.1 payload now .ok,
        countAcks p.2 p.1 (handleControlMessage p.1 payload now .ok)) := by
    have ht : (system below).step p.1 (.message payload now .ok) =
        some (handleControlMessage p.1 payload now .ok) := step_message hup hctrl now
    simp [acked, observe, ht]
  have hhandled := hhandles .ok _ [] _ hstep (by simp [hexited]) Run.nil
  rcases hhandled.goesOn with hreturned | ⟨hbusy, -⟩
  · exact absurd (hexited.symm.trans hreturned) (by simp)
  · rw [hexited] at hbusy
    contradiction

/-! ### Runs -/

/-- The loop is subscribed, acks succeed, every payload is no JSON or an object, and the process is
not told to stop. -/
def wellFormed (below : Bytes → Bool) (s : State) (a : Action) : Prop :=
  ackSucceeds below s a ∧ a ≠ .subscribed false ∧ a ≠ .ctrlExit ∧
    ∀ payload now r, a = .message payload now r → malformed payload = false

/-- Then the loop goes on. -/
theorem ctrl_ne_exited (h : (system below).Reachable (wellFormed below) s) : s.ctrl ≠ .exited := by
  have hinv : s.ctrl ≠ .exited ∧ s.ctrl ≠ .acking true := by
    refine h.induct (I := fun s ↦ s.ctrl ≠ .exited ∧ s.ctrl ≠ .acking true) ?_ ?_
    · rintro s rfl
      simp
    · rintro s a t - ⟨hne, hack⟩ ⟨hsucceeds, hsub, hexit, hpayload⟩ hstep
      have ht : step below s a = some t := hstep
      refine ⟨?_, hsucceeds t ht⟩
      cases a with
      | boot sessionKv configKv raised =>
        cases stepped_of_step ht with
        | boot => simp
      | crash =>
        cases stepped_of_step ht with
        | crash => simp [crash]
      | subscribed ok =>
        cases stepped_of_step ht with
        | subscribed =>
          cases ok with
          | false => exact absurd rfl hsub
          | true => simp
      | message payload now r =>
        cases stepped_of_step ht with
        | message =>
          rcases ctrl_handleControlMessage (s := s) (r := r) (hpayload payload now r rfl) now with
            hpc | ⟨-, ⟨pc, hpc⟩, -⟩ | ⟨-, ⟨pc, hpc⟩, -⟩
          all_goals simp [hpc]
      | ctrlExit => exact absurd rfl hexit
      | ctrl r =>
        obtain ⟨-, -, ⟨pc, pc', -, hpc⟩ | ⟨pc, pc', -, hpc⟩ | ⟨-, -, hpc⟩ | ⟨raised, hpc, hnext⟩⟩ :=
          ctrl_step ht (hsucceeds t ht)
        · simp [hpc]
        · simp [hpc]
        · simp [hpc]
        · cases raised with
          | false => simp [hnext]
          | true => exact absurd hpc hack
      | _ => rwa [(ctrl_of_beside ht rfl rfl).1]
  exact hinv.1

/-- Without it the loop is gone until the process ends: no message is read any more. -/
theorem exited_of_malformed (hpayload : malformed payload = true) {now : Stamp} {u : State}
    (hstep : step below s (.message payload now r) = some t)
    (hrun : (system below).Run (fun _ a ↦ a ≠ .crash) t as u) :
    u.up = true ∧ u.ctrl = .exited := by
  have hbegin : t.up = true ∧ t.ctrl = .exited := by
    cases stepped_of_step hstep with
    | message hup hctrl =>
      exact ⟨(up_handleControlMessage payload now).trans hup, ctrl_of_malformed hpayload now⟩
  refine hrun.invariant (I := fun s ↦ s.up = true ∧ s.ctrl = .exited) ?_ hbegin
  rintro s a t ⟨hup, hctrl⟩ hcrash hstep
  have ht : step below s a = some t := hstep
  by_cases hbeside : a.duringHandler = true ∧ a.isCtrl = false
  · obtain ⟨hkept, hup'⟩ := ctrl_of_beside ht hbeside.1 hbeside.2
    exact ⟨hup'.trans hup, hkept.trans hctrl⟩
  · -- every other step but a crash is one of the control loop, or of a process that is down
    cases a with
    | crash => exact absurd rfl hcrash
    | boot => simp [step, hup] at ht
    | subscribed => simp [step, runStep, hup, hctrl] at ht
    | message => simp [step, runStep, hup, hctrl] at ht
    | ctrl => simp [step, runStep, ctrlStep, hup, hctrl] at ht
    | ctrlExit => simp [step, runStep, hup, hctrl] at ht
    | _ => exact absurd ⟨rfl, rfl⟩ hbeside

end

/-- A message that the control loop fetches is handled exactly if its payload is no JSON or an
object. In a run in which every payload is, the loop goes on, whatever the calls of starts and stops
answer. -/
theorem control_loop_survives (below : Bytes → Bool) :
    (∀ p payload now, (acked below).Reachable (fun _ _ ↦ True) p → p.1.up = true →
      p.1.ctrl = .fetching → (Handles below p payload now ↔ malformed payload = false)) ∧
    ∀ s, (system below).Reachable (wellFormed below) s → s.ctrl ≠ .exited := by
  refine ⟨fun p payload now _ hup hctrl ↦ ?_, fun s hs ↦ ctrl_ne_exited hs⟩
  rcases hpayload : malformed payload with - | -
  · exact iff_of_true (handles_of_not_malformed hup hctrl hpayload now) rfl
  · exact iff_of_false (not_handles_of_malformed hup hctrl hpayload now) (by simp)

/-- The process runs, and the control loop waits for a message. -/
def atFetch (s : State) : Bool :=
  s.up && match s.ctrl with
    | .fetching => true
    | _ => false

theorem atFetch_iff {s : State} : atFetch s = true ↔ s.up = true ∧ s.ctrl = .fetching := by
  rw [atFetch, Bool.and_eq_true]
  refine and_congr_right fun _ ↦ ?_
  cases s.ctrl <;> simp

/-- A loop at its first fetch handles a start command, bytes that are no JSON, and a stop without a
session. -/
theorem control_loop_survives_first : ∃ p, (acked silent).Reachable (fun _ _ ↦ True) p ∧
    p.1.ctrl = .fetching ∧ Handles silent p (command "start") first ∧ Handles silent p none first ∧
    Handles silent p (command "stop") first := by
  obtain ⟨p, hp, htest⟩ := exists_reachable_of_exec (M := acked silent)
    (G := always) ({}, 0) running
    (fun p ↦ atFetch p.1) ⟨rfl, rfl⟩ (by decide +kernel)
  obtain ⟨hup, hctrl⟩ := atFetch_iff.1 htest
  have hiff := (control_loop_survives silent).1 p
  exact ⟨p, hp, hctrl, (hiff _ first hp hup hctrl).2 rfl, (hiff _ first hp hup hctrl).2 rfl,
    (hiff _ first hp hup hctrl).2 rfl⟩

/-- The payload `[]` is JSON, and ends the loop unacked. -/
theorem not_handles_array : ∃ p, (acked silent).Reachable (fun _ _ ↦ True) p ∧
    p.1.ctrl = .fetching ∧ ¬ Handles silent p (some (.arr [])) first ∧
    ∃ q, (acked silent).step p (.message (some (.arr [])) first .ok) = some q ∧
      q.1.ctrl = .exited ∧ q.2 = p.2 := by
  obtain ⟨p, hp, htest⟩ := exists_reachable_of_exec (M := acked silent)
    (G := always) ({}, 0) running
    (fun p ↦ atFetch p.1) ⟨rfl, rfl⟩ (by decide +kernel)
  obtain ⟨hup, hctrl⟩ := atFetch_iff.1 htest
  refine ⟨p, hp, hctrl, not_handles_of_malformed hup hctrl rfl first, ?_⟩
  have ht : (system silent).step p.1 (.message (some (.arr [])) first .ok) =
      some (handleControlMessage p.1 (some (.arr [])) first .ok) := step_message hup hctrl first
  have hexited : (handleControlMessage p.1 (some (.arr [])) first .ok).ctrl = .exited :=
    ctrl_of_malformed rfl first
  refine ⟨(handleControlMessage p.1 (some (.arr [])) first .ok,
    countAcks p.2 p.1 (handleControlMessage p.1 (some (.arr [])) first .ok)), ?_, hexited, ?_⟩
  · simp [acked, observe, ht]
  · simp [countAcks, hexited, CtrlPc.isAcking]

end LiveSTT.AudioProducer
