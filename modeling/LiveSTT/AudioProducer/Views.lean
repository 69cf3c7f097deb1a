import LiveSTT.AudioProducer.Model

/-!
# Views of the producer's state

What the invariants speak of: the executions of `_stop_session` in progress, the session a start is
about to make active, and the session the KV entry names. An execution of `_stop_session` runs in
either loop, so its functions are stated with the coroutine that runs them, and `otherStops` is what
the other one is doing.

What a step of a stop leaves alone is said once, for both loops (`Stopping`, `Moved`): the
invariants about the pre-roll, the timeouts and the live audio use it in place of the calls of
`_stop_session`.
-/

namespace LiveSTT.AudioProducer

def AudioPc.stops : AudioPc → List StopPc
  | .stopping pc => [pc]
  | _ => []

def CtrlPc.stops : CtrlPc → List StopPc
  | .stopping pc => [pc]
  | _ => []

/-- The session whose flush task is about to be spawned. -/
def CtrlPc.spawning : CtrlPc → List SessionId
  | .starting (.configReading stamp _ _ _) => [stamp.id]
  | _ => []

/-- The session a start is about to make active. -/
def CtrlPc.putting : CtrlPc → List SessionId
  | .starting (.kvPutting stamp _) => [stamp.id]
  | _ => []

theorem starts_of_spawning {pc : CtrlPc} {id : SessionId} (h : id ∈ pc.spawning) :
    id ∈ pc.starts := by
  rw [CtrlPc.spawning.eq_def] at h
  split at h
  · exact h
  · contradiction

theorem starts_of_putting {pc : CtrlPc} {id : SessionId} (h : id ∈ pc.putting) :
    id ∈ pc.starts := by
  rw [CtrlPc.putting.eq_def] at h
  split at h
  · exact h
  · contradiction

namespace State

variable (s : State)

/-- The executions of `_stop_session` in progress. -/
def stops : List StopPc := s.audio.stops ++ s.ctrl.stops

/-- The execution of `_stop_session` of the other coroutine. -/
def otherStops : Coroutine → List StopPc
  | .audio => s.ctrl.stops
  | .control => s.audio.stops

/-- The session the KV entry names. -/
def entryId : Option SessionId := s.broker.current.map KvEntry.sessionId

end State

/-- The id a start took. -/
def Event.startOf : Event → Option SessionId
  | .startBegan id => some id
  | _ => none

/-- The ids starts took, one entry for each start. -/
def State.started (s : State) : List SessionId := s.trace.filterMap Event.startOf

theorem started_record {s : State} {e : Event} (he : e.startOf = none) :
    (s.record e).started = s.started := by
  rw [State.started, State.record, List.filterMap_append, List.filterMap_cons_none he,
    List.filterMap_nil, List.append_nil, State.started]

theorem started_of_trace {s t : State} (h : t.trace = s.trace) : t.started = s.started := by
  rw [State.started, h, State.started]

section Suspend

variable (s : State) (pc : StopPc) (who : Coroutine)

theorem perm_stops_suspendStop : (s.suspendStop pc who).stops.Perm (pc :: s.otherStops who) := by
  cases who with
  | audio => exact List.Perm.refl _
  | control => exact List.perm_append_comm

theorem putting_suspendStop : ∀ id ∈ (s.suspendStop pc who).ctrl.putting, id ∈ s.ctrl.putting := by
  cases who with
  | audio => exact fun id hid ↦ hid
  | control => exact nofun

@[simp] theorem mem_suspendStop : (s.suspendStop pc who).mem = s.mem := by cases who <;> rfl
@[simp] theorem up_suspendStop : (s.suspendStop pc who).up = s.up := by cases who <;> rfl
@[simp] theorem trace_suspendStop : (s.suspendStop pc who).trace = s.trace := by cases who <;> rfl
@[simp] theorem entryId_suspendStop : (s.suspendStop pc who).entryId = s.entryId := by
  cases who <;> rfl

@[simp] theorem broker_suspendStop : (s.suspendStop pc who).broker = s.broker := by
    cases who <;> rfl

end Suspend

/-! ### What a publish leaves alone -/

section Publish

variable (s : State) (msg : Stored) (e : Lifecycle) (r : Reply)

@[simp] theorem broker_publish : (s.publish msg r).broker =
    { s.broker with audio := s.broker.audio ++ if r.applied then [msg] else [] } := by
  rw [State.publish]
  split
  · rfl
  · rw [List.append_nil]

@[simp] theorem broker_announce : (s.announce e r).broker =
    { s.broker with events := s.broker.events ++ if r.applied then [e] else [] } := by
  rw [State.announce]
  split
  · rfl
  · rw [List.append_nil]

@[simp] theorem up_publish : (s.publish msg r).up = s.up := by rw [State.publish]; split <;> rfl
@[simp] theorem mem_publish : (s.publish msg r).mem = s.mem := by rw [State.publish]; split <;> rfl
@[simp] theorem audio_publish : (s.publish msg r).audio = s.audio := by
  rw [State.publish]; split <;> rfl
@[simp] theorem ctrl_publish : (s.publish msg r).ctrl = s.ctrl := by
  rw [State.publish]; split <;> rfl
@[simp] theorem flushes_publish : (s.publish msg r).flushes = s.flushes := by
  rw [State.publish]; split <;> rfl
@[simp] theorem captured_publish : (s.publish msg r).captured = s.captured := by
  rw [State.publish]; split <;> rfl
@[simp] theorem trace_publish : (s.publish msg r).trace = s.trace := by
  rw [State.publish]; split <;> rfl

@[simp] theorem up_announce : (s.announce e r).up = s.up := by rw [State.announce]; split <;> rfl
@[simp] theorem mem_announce : (s.announce e r).mem = s.mem := by rw [State.announce]; split <;> rfl
@[simp] theorem audio_announce : (s.announce e r).audio = s.audio := by
  rw [State.announce]; split <;> rfl
@[simp] theorem ctrl_announce : (s.announce e r).ctrl = s.ctrl := by
  rw [State.announce]; split <;> rfl
@[simp] theorem flushes_announce : (s.announce e r).flushes = s.flushes := by
  rw [State.announce]; split <;> rfl
@[simp] theorem captured_announce : (s.announce e r).captured = s.captured := by
  rw [State.announce]; split <;> rfl
@[simp] theorem trace_announce : (s.announce e r).trace = s.trace := by
  rw [State.announce]; split <;> rfl

end Publish

/-! ### What a stop does to memory and to the audio stream -/

section Stop

variable (s : State) (captured : Option SessionId) (stoppedAt : String) (cleared : Bool) (r : Reply)
  (w : Coroutine)

@[simp] theorem mem_finishStop : (finishStop s captured cleared r w).mem = s.mem := by
  cases w <;> rfl
@[simp] theorem broker_finishStop : (finishStop s captured cleared r w).broker = s.broker := by
  cases w <;> rfl

@[simp] theorem mem_announceStop : (announceStop s captured stoppedAt cleared r w).mem = s.mem := by
  simp [announceStop]

@[simp] theorem mem_idleStop : (idleStop s captured stoppedAt r w).mem = s.mem.idle := by
  rw [idleStop]
  split
  · exact mem_suspendStop _ _ _
  · exact mem_announceStop _ _ _ _ _ _

/-- `_stop_session`, called, waits at the EOS marker, or is idle already. -/
theorem mem_beginStop (now : Stamp) :
    (beginStop s now r w).mem = if s.mem.sessionId.isSome then s.mem else s.mem.idle := by
  rw [beginStop.eq_def]
  split
  · rename_i id hid
    simp [hid, State.record]
  · rename_i hid
    rw [mem_idleStop, hid]
    rfl

theorem mem_stopStep (pc : StopPc) :
    (stopStep s pc r w).mem = s.mem ∨ (stopStep s pc r w).mem = s.mem.idle := by
  cases pc <;> simp [stopStep]

/-- Of the calls of a stop only the first is on the audio stream. -/
@[simp] theorem stored_announceStop :
    (announceStop s captured stoppedAt cleared r w).broker.audio = s.broker.audio := by
  simp [announceStop]

@[simp] theorem stored_idleStop :
    (idleStop s captured stoppedAt r w).broker.audio = s.broker.audio := by
  rw [idleStop]
  split
  · simp [State.goIdle, State.record]
  · exact stored_announceStop _ _ _ _ _ _

@[simp] theorem stored_stopStep (pc : StopPc) :
    (stopStep s pc r w).broker.audio = s.broker.audio := by
  cases pc <;> simp [stopStep]

/-- The beginning of a stop stores the marker of the session in memory, if the broker takes it. -/
theorem stored_beginStop (now : Stamp) : (beginStop s now r w).broker.audio =
    s.broker.audio ++ if r.applied then s.mem.sessionId.toList.map .liveEos else [] := by
  rw [beginStop.eq_def]
  split
  · rename_i id hid
    rw [hid]
    simp [State.record]
  · rename_i hid
    rw [hid]
    simp [State.record]

/-- A stop puts no entry. -/
theorem entryId_idleStop (id : SessionId) :
    (idleStop s captured stoppedAt r w).entryId = some id → s.entryId = some id := by
  rw [idleStop]
  split
  · rw [entryId_suspendStop]
    cases r.applied
    · exact fun hid ↦ hid
    · intro hid
      contradiction
  · rw [announceStop, entryId_suspendStop, State.entryId, broker_announce]
    exact fun hid ↦ hid

/-- A stop writes no session into the entry. -/
theorem entryId_stopStep (pc : StopPc) (id : SessionId) :
    (stopStep s pc r w).entryId = some id → s.entryId = some id := by
  cases pc with
  | eosPublishing _ _ => exact entryId_idleStop _ _ _ _ _ id
  | kvDeleting captured stoppedAt cleared =>
    rw [stopStep, announceStop, entryId_suspendStop, State.entryId, broker_announce]
    exact fun hid ↦ hid
  | eventPublishing captured cleared =>
    rw [stopStep, State.entryId, broker_finishStop]
    exact fun hid ↦ hid

theorem entryId_beginStop (now : Stamp) (id : SessionId) :
    (beginStop s now r w).entryId = some id → s.entryId = some id := by
  rw [beginStop.eq_def]
  split
  · rw [entryId_suspendStop, State.entryId, broker_publish]
    exact fun hid ↦ hid
  · exact entryId_idleStop _ _ _ _ _ id

end Stop

/-! ### What a stop leaves alone -/

/-- The coroutine is in a stop, or past it; the other one is where it was. -/
inductive Moved (s t : State) : Coroutine → Prop
  | audio (hctrl : t.ctrl = s.ctrl) (haudio : t.audio = .waiting ∨ ∃ pc, t.audio = .stopping pc) :
    Moved s t .audio
  | control (haudio : t.audio = s.audio)
      (hctrl : (∃ raised, t.ctrl = .acking raised) ∨ ∃ pc, t.ctrl = .stopping pc) :
    Moved s t .control

/-- A step of a coroutine in `_stop_session` moves it, and leaves the pre-roll and the flush tasks
alone. -/
structure Stopping (w : Coroutine) (s t : State) : Prop where
  up : t.up = s.up
  loops : Moved s t w
  flushes : t.flushes = s.flushes
  captured : t.captured = s.captured
  preBuffer : t.broker.preBuffer = s.broker.preBuffer
  expired : t.broker.expired = s.broker.expired
  started : t.started = s.started

section Stopping

variable {s u : State} {captured : Option SessionId} {stoppedAt : String} {cleared : Bool}
  {r : Reply} {w : Coroutine}

theorem stopping_suspendStop (pc : StopPc) : Stopping w s (s.suspendStop pc w) := by
  cases w with
  | audio => exact ⟨rfl, Moved.audio rfl (Or.inr ⟨pc, rfl⟩), rfl, rfl, rfl, rfl, rfl⟩
  | control => exact ⟨rfl, Moved.control rfl (Or.inr ⟨pc, rfl⟩), rfl, rfl, rfl, rfl, rfl⟩

/-- What came before in the step touched none of it. -/
theorem Stopping.of_eq {t : State} (h : Stopping w u t) (hup : u.up = s.up)
    (haudio : u.audio = s.audio) (hctrl : u.ctrl = s.ctrl) (hflushes : u.flushes = s.flushes)
    (hcaptured : u.captured = s.captured) (hpre : u.broker.preBuffer = s.broker.preBuffer)
    (hexpired : u.broker.expired = s.broker.expired) (hstarted : u.started = s.started) :
    Stopping w s t := by
  refine ⟨h.up.trans hup, ?_, h.flushes.trans hflushes, h.captured.trans hcaptured,
    h.preBuffer.trans hpre, h.expired.trans hexpired, h.started.trans hstarted⟩
  cases h.loops with
  | audio hctrl' haudio' => exact Moved.audio (hctrl'.trans hctrl) haudio'
  | control haudio' hctrl' => exact Moved.control (haudio'.trans haudio) hctrl'

theorem stopping_announceStop : Stopping w s (announceStop s captured stoppedAt cleared r w) :=
  (stopping_suspendStop _).of_eq (up_announce _ _ _) (audio_announce _ _ _) (ctrl_announce _ _ _)
    (flushes_announce _ _ _) (captured_announce _ _ _) (by simp) (by simp)
    (started_of_trace (trace_announce _ _ _))

theorem stopping_idleStop : Stopping w s (idleStop s captured stoppedAt r w) := by
  rw [idleStop]
  split
  · exact (stopping_suspendStop _).of_eq rfl rfl rfl rfl rfl rfl rfl (started_record rfl)
  · exact stopping_announceStop.of_eq rfl rfl rfl rfl rfl rfl rfl (started_record rfl)

theorem stopping_beginStop {now : Stamp} : Stopping w s (beginStop s now r w) := by
  rw [beginStop.eq_def]
  split
  · exact (stopping_suspendStop _).of_eq (up_publish _ _ _) (audio_publish _ _ _)
      (ctrl_publish _ _ _) (flushes_publish _ _ _) (captured_publish _ _ _) (by simp [State.record])
      (by simp [State.record]) ((started_of_trace (trace_publish _ _ _)).trans (started_record rfl))
  · exact stopping_idleStop.of_eq rfl rfl rfl rfl rfl rfl rfl (started_record rfl)

/-- Every call of `_stop_session` is such a step. -/
theorem stopping_stopStep {pc : StopPc} : Stopping w s (stopStep s pc r w) := by
  cases pc with
  | eosPublishing id stoppedAt => exact stopping_idleStop
  | kvDeleting captured stoppedAt cleared => exact stopping_announceStop
  | eventPublishing captured cleared =>
    cases w with
    | audio => exact ⟨rfl, Moved.audio rfl (Or.inl rfl), rfl, rfl, rfl, rfl, started_record rfl⟩
    | control => exact ⟨rfl, Moved.control rfl (Or.inl ⟨_, rfl⟩), rfl, rfl, rfl, rfl,
        started_record rfl⟩

/-- A stop puts no entry. -/
theorem Moved.putting {t : State} (h : Moved s t w) :
    ∀ id ∈ t.ctrl.putting, id ∈ s.ctrl.putting := by
  intro id hid
  cases h with
  | audio hctrl _ => rwa [hctrl] at hid
  | control _ hctrl =>
    rcases hctrl with ⟨raised, hctrl⟩ | ⟨pc, hctrl⟩ <;>
      · rw [hctrl] at hid
        contradiction

/-- Nor does it spawn a flush task. -/
theorem Moved.spawning {t : State} (h : Moved s t w) :
    ∀ id ∈ t.ctrl.spawning, id ∈ s.ctrl.spawning := by
  intro id hid
  cases h with
  | audio hctrl _ => rwa [hctrl] at hid
  | control _ hctrl =>
    rcases hctrl with ⟨raised, hctrl⟩ | ⟨pc, hctrl⟩ <;>
      · rw [hctrl] at hid
        contradiction

end Stopping

/-! ### What a start does to memory -/

section Start

variable (s : State) (stamp : Stamp) (label : Json) (r : Reply)

theorem mem_activate : (activate s stamp label r).mem =
    if s.mem.configKv then s.mem.activate stamp.id label
    else { s.mem.activate stamp.id label with silenceSamples := 0 } := by
  rw [activate]
  split <;> rfl

@[simp] theorem up_activate : (activate s stamp label r).up = s.up := by
  rw [activate]
  split
  · rfl
  · exact up_announce _ _ _

/-- A start without a KV handle. -/
theorem beginStart_of_no_kv (hkv : s.mem.sessionKv = false) :
    beginStart s stamp label r = activate (s.record (.startBegan stamp.id)) stamp label r := by
  simp only [beginStart, State.record, hkv]
  rfl

/-- A start that waits for its put. -/
theorem beginStart_of_kv (hkv : s.mem.sessionKv = true) : beginStart s stamp label r =
    { s with
      ctrl := .starting (.kvPutting stamp label)
      broker := { s.broker with
        current := if r.applied then some (entryOf stamp label) else s.broker.current }
      trace := s.trace ++ .startBegan stamp.id ::
        if r.applied then [.kvPut (entryOf stamp label)] else [] } := by
  cases r <;> simp [beginStart, State.record, State.putEntry, hkv, Reply.applied]

@[simp] theorem captured_activate : (activate s stamp label r).captured = s.captured := by
  rw [activate]
  split
  · rfl
  · exact captured_announce _ _ _

@[simp] theorem preBuffer_activate :
    (activate s stamp label r).broker.preBuffer = s.broker.preBuffer := by
  rw [activate]
  split
  · rfl
  · simp [spawnFlush, State.makeActive, State.record]

@[simp] theorem expired_activate :
    (activate s stamp label r).broker.expired = s.broker.expired := by
  rw [activate]
  split
  · rfl
  · simp [spawnFlush, State.makeActive, State.record]

@[simp] theorem stored_activate :
    (activate s stamp label r).broker.audio = s.broker.audio := by
  rw [activate]
  split
  · rfl
  · simp [spawnFlush, State.makeActive, State.record]

/-- Only the put of the KV entry comes before the activation. -/
theorem putting_activate : (activate s stamp label r).ctrl.putting = [] := by
  rw [activate]
  split <;> rfl

/-! ### A start does not touch the audio loop -/

variable {s}

theorem audio_activate :
    (activate s stamp label r).audio = s.audio ∧ (activate s stamp label r).ctrl.stops = [] := by
  rw [activate]
  split
  · exact ⟨rfl, rfl⟩
  · rw [spawnFlush, State.announce]
    split <;> exact ⟨rfl, rfl⟩

/-- A start moves the control loop only, and is no stop. -/
theorem audio_startStep (pc : StartPc) :
    (startStep s pc r).audio = s.audio ∧ (startStep s pc r).ctrl.stops = [] := by
  cases pc with
  | kvPutting stamp label => exact audio_activate stamp label r
  | configReading stamp label since value =>
    rw [startStep, spawnFlush, State.announce]
    split <;> exact ⟨rfl, rfl⟩
  | eventPublishing => exact ⟨rfl, rfl⟩

end Start

/-! ### What a boot recovers -/

section Boot

variable (s : State) (sessionKv configKv raised : Bool)

@[simp] theorem broker_boot : (boot s sessionKv configKv raised).broker = s.broker := by
  rw [boot, recoverSession.eq_def]
  split
  · split <;> rfl
  · rfl

@[simp] theorem ctrl_boot : (boot s sessionKv configKv raised).ctrl = .subscribing := by
  rw [boot, recoverSession.eq_def]
  split
  · split <;> rfl
  · rfl

@[simp] theorem audio_boot : (boot s sessionKv configKv raised).audio = .waiting := by
  rw [boot, recoverSession.eq_def]
  split
  · split <;> rfl
  · rfl

@[simp] theorem flushes_boot : (boot s sessionKv configKv raised).flushes = [] := by
  rw [boot, recoverSession.eq_def]
  split
  · split <;> rfl
  · rfl

theorem started_boot : (boot s sessionKv configKv raised).started = s.started := by
  rw [boot, recoverSession.eq_def]
  split
  · split
    · exact started_record rfl
    · rfl
  · rfl

@[simp] theorem captured_boot : (boot s sessionKv configKv raised).captured = s.captured := by
  rw [boot, recoverSession.eq_def]
  split
  · split <;> rfl
  · rfl

theorem counter_boot : (boot s sessionKv configKv raised).mem.silenceSamples = 0 ∧
    (boot s sessionKv configKv raised).mem.silenceTimeoutS = defaultSilenceTimeoutS := by
  rw [boot, recoverSession.eq_def]
  split
  · split <;> exact ⟨rfl, rfl⟩
  · exact ⟨rfl, rfl⟩

variable {s sessionKv configKv raised}

/-- A session that is active after a boot is the one the KV entry names. -/
theorem entryId_of_boot {id : SessionId}
    (hid : (boot s sessionKv configKv raised).mem.sessionId = some id) :
    (sessionKv = true ∧ raised = false) ∧ s.entryId = some id := by
  rw [boot, recoverSession.eq_def] at hid
  split at hid
  · rename_i entry hentry
    split at hid
    · rename_i hresumed
      refine ⟨⟨hresumed.1, Bool.not_eq_true _ ▸ hresumed.2.1⟩, ?_⟩
      exact (congrArg (Option.map KvEntry.sessionId) hentry).trans hid
    · contradiction
  · contradiction

end Boot

/-! ### The chunks on a live subject -/

/-- The chunk of a message on `audio.live.<id>`. -/
def Stored.chunkOn (id : SessionId) : Stored → Option Captured
  | .live id' chunk => if id' = id then some chunk else none
  | _ => none

/-- The chunks published on `audio.live.<id>`. -/
def State.liveChunks (s : State) (id : SessionId) : List Captured :=
  s.broker.audio.filterMap (Stored.chunkOn id)

section LiveChunks

variable {s t : State}

theorem liveChunks_of_audio (h : t.broker.audio = s.broker.audio) (id : SessionId) :
    t.liveChunks id = s.liveChunks id := by
  rw [State.liveChunks, h, State.liveChunks]

/-- Messages that are no live chunks. -/
theorem liveChunks_of_append {E : List Stored} (h : t.broker.audio = s.broker.audio ++ E)
    (hE : ∀ id, ∀ msg ∈ E, msg.chunkOn id = none) (id : SessionId) :
    t.liveChunks id = s.liveChunks id := by
  rw [State.liveChunks, h, List.filterMap_append, List.filterMap_eq_nil_iff.2 (hE id),
    List.append_nil, State.liveChunks]

end LiveChunks

/-! ### Commands, and calls that succeed -/

/-- A start command. -/
def wantsStart : Option Json → Bool
  | some (.obj data) => (Dict.getOr data "command" .null).isStr "start"
  | _ => false

/-- A stop command. -/
def wantsStop : Option Json → Bool
  | some (.obj data) => (Dict.getOr data "command" .null).isStr "stop"
  | _ => false

/-- Every call of the step succeeds. -/
def Action.callsSucceed : Action → Bool
  | .boot sessionKv configKv raised => sessionKv && configKv && !raised
  | .chunk _ r => r = .ok
  | .audio _ r => r = .ok
  | .message _ _ r => r = .ok
  | .ctrl r => r = .ok
  | .flush _ _ r => r = .ok
  | _ => true

/-! ### What is about to happen -/

/-- `_check_silence` is about to stop the session. -/
def State.silenceReached (s : State) (below : Bytes → Bool) : Bool :=
  match s.audio with
  | .livePublishing chunk false =>
    !rmsRaises chunk.data &&
      (s.mem.countSilence chunk.data (belowThreshold below chunk.data)).silentForLong
  | _ => false

/-- An id that no start has taken. -/
def State.fresh (s : State) (id : SessionId) : Bool :=
  s.trace.all fun
    | .startBegan id' => id' ≠ id
    | _ => true

theorem not_mem_of_fresh {s : State} {id : SessionId} (h : s.fresh id = true) :
    .startBegan id ∉ s.trace := by
  intro hmem
  have hne := List.all_eq_true.1 h _ hmem
  exact of_decide_eq_true hne rfl

/-! ### Commands executed without interference -/

/-- Ten o'clock, and a minute later. -/
def first : Stamp := ⟨⟨"20260301-100000", by decide⟩, "2026-03-01T10:00:00+00:00"⟩
def second : Stamp := ⟨⟨"20260301-100100", by decide⟩, "2026-03-01T10:01:00+00:00"⟩

/-- A command with no label. -/
def command (name : String) : Option Json := some (.obj [("command", .str name)])

/-- The process starts, and the control loop subscribes. -/
def running : List Action := [.boot true true false, .subscribed true]

/-- A start command, up to the point where its session is active. -/
def starting (now : Stamp) : List Action := [.message (command "start") now .ok, .ctrl .ok]

/-- The rest of the start, its ack included. -/
def started : List Action := [.ctrl .ok, .ctrl .ok, .ctrl .ok]

/-- A tenth of a second of silence. -/
def silence : Bytes := List.replicate 3072 0

/-- Every chunk is below the threshold. -/
def silent (_ : Bytes) : Bool := true

/-- Silent chunks are captured and published; the last publish is under way. -/
def silentChunks (now : Stamp) : ℕ → List Action
  | 0 => [.chunk silence .ok]
  | n + 1 => .chunk silence .ok :: .audio now .ok :: silentChunks now n

end LiveSTT.AudioProducer
