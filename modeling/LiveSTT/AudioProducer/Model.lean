import LiveSTT.Lib.Json
import LiveSTT.Lib.TransitionSystem
import LiveSTT.Messaging.Audio
import LiveSTT.Messaging.Broker

/-!
# audio-producer: one process, two loops and the flush tasks

`AudioProducerService` captures audio and decides where it goes: to `preroll.audio` while idle, to
`audio.live.<session>` while a session is active. Three kinds of coroutine share its memory and
interleave at their awaits:

* the **audio loop** publishes chunks, and stops the session when it has been silent for long
enough;
* the **control loop** executes the start and stop commands of `session.control`;
* each start spawns a **flush task** that copies the pre-roll to `audio.backfill.<session>`.

Both loops can be inside `_stop_session`, so its position is a type of its own (`StopPc`) and its
functions take the coroutine that runs them.

The broker's side is explicit: the entry `current` of the KV bucket `session_state`, the stream
`PRE_BUFFER`, the audio stream, and the lifecycle events on `system.session`. What the broker holds
survives a crash; a boot recovers the session from the KV. The `trace` is no part of the program: it
records what the results about whole runs speak of.

Calls take effect when they are issued, and each label carries the answer to the call its step ends
in. `self.nc` is set throughout, as `BaseService.start` connects before it runs the business logic.
-/

namespace LiveSTT.AudioProducer

/-- `_DEFAULT_SILENCE_TIMEOUT_S`. -/
def defaultSilenceTimeoutS : ℤ := 300

/-! ### The data -/

/-- A session id as `strftime("%Y%m%d-%H%M%S")` builds it: never empty, so a set `session_id` is
truthy. -/
abbrev SessionId := { s : String // s ≠ "" }

/-- A reading of the clock: as a session id, and in ISO format. -/
structure Stamp where
  id : SessionId
  iso : String
  deriving DecidableEq

/-- A captured chunk. `seq` counts the chunks the source has yielded. -/
structure Captured where
  seq : ℕ
  data : Bytes
  deriving DecidableEq

/-- The value of the entry `current`. -/
structure KvEntry where
  sessionId : SessionId
  startedAt : String
  state : String
  label : Json

/-- A message on the audio stream. `since` is the number of chunks captured when the session of the
flush task became active. -/
inductive Stored
  | live (id : SessionId) (chunk : Captured)
  | liveEos (id : SessionId)
  | backfill (id : SessionId) (chunk : Captured) (since : ℕ)
  | backfillEos (id : SessionId)
  deriving DecidableEq

/-- A session lifecycle event on `system.session`. -/
inductive Lifecycle
  | started (id : SessionId) (startedAt : String) (label : Json)
  | stopped (id : Option SessionId) (stoppedAt : String)

/-- What the broker holds. -/
structure Broker where
  current : Option KvEntry := none
  /-- `silence_timeout_s` of the config bucket, if it is there and an integer. -/
  silenceTimeoutS : Option ℤ := none
  /-- The messages ever stored in `PRE_BUFFER`; the first `expired` of them are gone. -/
  preBuffer : List Captured := []
  expired : ℕ := 0
  audio : List Stored := []
  events : List Lifecycle := []

/-- The attributes of the service. A KV handle is `None` when its setup failed. -/
structure Memory where
  sessionId : Option SessionId := none
  isActive : Bool := false
  silenceSamples : ℕ := 0
  silenceTimeoutS : ℤ := defaultSilenceTimeoutS
  label : Json := .str ""
  sessionKv : Bool := false
  configKv : Bool := false

/-! ### Positions -/

/-- Where `_stop_session` is suspended. `captured` is its local `session_id`. -/
inductive StopPc
  /-- At the publish of the EOS marker. -/
  | eosPublishing (id : SessionId) (stoppedAt : String)
  /-- At `self._session_kv.delete`; `cleared` is whether it took effect. -/
  | kvDeleting (captured : Option SessionId) (stoppedAt : String) (cleared : Bool)
  /-- At the publish of the lifecycle event. -/
  | eventPublishing (captured : Option SessionId) (cleared : Bool)

/-- Where `_start_session` is suspended. -/
inductive StartPc
  /-- At `self._session_kv.put`. -/
  | kvPutting (stamp : Stamp) (label : Json)
  /-- At `self._config_kv.get`, which returns `value`; the session is active. -/
  | configReading (stamp : Stamp) (label : Json) (since : ℕ) (value : Option ℤ)
  /-- At the publish of the lifecycle event; the flush task is spawned. -/
  | eventPublishing

/-- Where `_audio_loop` is suspended. -/
inductive AudioPc
  /-- At the source, for the next chunk. -/
  | waiting
  /-- At the publish of a chunk on `audio.live.<session>`. -/
  | livePublishing (chunk : Captured) (raised : Bool)
  /-- At the publish of a chunk on `preroll.audio`. -/
  | prerollPublishing
  | stopping (pc : StopPc)

/-- Where `_session_control_loop` is suspended. -/
inductive CtrlPc
  | subscribing
  | fetching
  | starting (pc : StartPc)
  | stopping (pc : StopPc)
  /-- At the ack of a command. -/
  | acking (raised : Bool)
  | exited

/-- Where a flush task is suspended; `cursor` is the position of its consumer in `PRE_BUFFER`. -/
inductive FlushPc
  | subscribing
  | fetching (cursor : ℕ)
  /-- At the publish of a chunk; `rest` are the fetched chunks after it. -/
  | publishing (cursor : ℕ) (rest : List Captured) (raised : Bool)
  | acking (cursor : ℕ) (rest : List Captured) (raised : Bool)
  | eosPublishing

/-- A flush task: `_flush_preroll(js, id)`, spawned for the activation at `since` captured
chunks. -/
structure Flush where
  id : SessionId
  since : ℕ
  pc : FlushPc

/-- The coroutines that run `_stop_session`. -/
inductive Coroutine
  | audio
  | control
  deriving DecidableEq

/-! ### The state -/

/-- What the results about runs speak of. -/
inductive Event
  /-- `_start_session` was called and took its id. -/
  | startBegan (id : SessionId)
  /-- A put of the KV entry took effect. -/
  | kvPut (entry : KvEntry)
  /-- `_start_session` made the session active. -/
  | activated (id : SessionId)
  /-- `_recover_session` made the session active. -/
  | resumed (id : SessionId)
  /-- `_stop_session` was called. -/
  | stopBegan (captured : Option SessionId)
  /-- `_stop_session` went idle and deleted the KV entry: which session was active, which session's
  entry the delete removed, and whether the delete took effect. -/
  | idled (captured was deleted : Option SessionId) (cleared : Bool)
  | stopReturned (captured : Option SessionId) (cleared : Bool)
  /-- The subscription of a flush task failed. -/
  | subscribeFailed (id : SessionId)
  /-- The process died in the start of the session, or in its flush task. -/
  | cut (id : SessionId)

structure State where
  up : Bool := false
  mem : Memory := {}
  audio : AudioPc := .waiting
  ctrl : CtrlPc := .subscribing
  flushes : List Flush := []
  broker : Broker := {}
  /-- The number of chunks captured so far. -/
  captured : ℕ := 0
  trace : List Event := []

def State.record (s : State) (e : Event) : State := { s with trace := s.trace ++ [e] }

/-- A publish on the audio stream. -/
def State.publish (s : State) (msg : Stored) (r : Reply) : State :=
  if r.applied then { s with broker := { s.broker with audio := s.broker.audio ++ [msg] } } else s

/-- A publish on `system.session`. -/
def State.announce (s : State) (e : Lifecycle) (r : Reply) : State :=
  if r.applied then { s with broker := { s.broker with events := s.broker.events ++ [e] } } else s

/-- Suspend a coroutine in `_stop_session`. -/
def State.suspendStop (s : State) (pc : StopPc) : Coroutine → State
  | .audio => { s with audio := .stopping pc }
  | .control => { s with ctrl := .stopping pc }

/-! ### Stopping a session -/

/-- The end of `_stop_session`: the audio loop goes on to the next chunk, the control loop acks the
command. -/
def finishStop (s : State) (captured : Option SessionId) (cleared : Bool) (r : Reply) :
    Coroutine → State
  | .audio => { s.record (.stopReturned captured cleared) with audio := .waiting }
  | .control => { s.record (.stopReturned captured cleared) with ctrl := .acking r.raised }

/-- `_stop_session` from its lifecycle event. -/
def announceStop (s : State) (captured : Option SessionId) (stoppedAt : String) (cleared : Bool)
    (r : Reply) (who : Coroutine) : State :=
  (s.announce (.stopped captured stoppedAt) r).suspendStop (.eventPublishing captured cleared) who

/-- What going idle does to the attributes. -/
def Memory.idle (mem : Memory) : Memory :=
  { mem with isActive := false, sessionId := none, label := .str "" }

/-- The transition to idle, with the delete of the KV entry if it took effect. -/
def State.goIdle (s : State) (captured : Option SessionId) (cleared : Bool) : State :=
  { s.record (.idled captured s.mem.sessionId
      (if cleared then s.broker.current.map KvEntry.sessionId else none) cleared) with
    mem := s.mem.idle
    broker := { s.broker with current := if cleared then none else s.broker.current } }

/-- `_stop_session` from the transition to idle. -/
def idleStop (s : State) (captured : Option SessionId) (stoppedAt : String) (r : Reply)
    (who : Coroutine) : State :=
  if s.mem.sessionKv then
    (s.goIdle captured r.applied).suspendStop (.kvDeleting captured stoppedAt r.applied) who
  else announceStop (s.goIdle captured false) captured stoppedAt false r who

/-- `_stop_session`, called. -/
def beginStop (s : State) (now : Stamp) (r : Reply) (who : Coroutine) : State :=
  match s.mem.sessionId with
  | some id =>
    ((s.record (.stopBegan (some id))).publish (.liveEos id) r).suspendStop
      (.eosPublishing id now.iso) who
  | none => idleStop (s.record (.stopBegan none)) none now.iso r who

/-- `_stop_session`, resumed. Every call in it may raise; it goes on all the same. -/
def stopStep (s : State) (pc : StopPc) (r : Reply) (who : Coroutine) : State :=
  match pc with
  | .eosPublishing id stoppedAt => idleStop s (some id) stoppedAt r who
  | .kvDeleting captured stoppedAt cleared => announceStop s captured stoppedAt cleared r who
  | .eventPublishing captured cleared => finishStop s captured cleared r who

/-! ### Starting a session -/

/-- The end of `_start_session`: spawn the flush task, and publish the lifecycle event. -/
def spawnFlush (s : State) (stamp : Stamp) (label : Json) (since : ℕ) (value : Option ℤ)
    (r : Reply) : State :=
  { s.announce (.started stamp.id stamp.iso label) r with
    mem := { s.mem with
      silenceTimeoutS := value.getD s.mem.silenceTimeoutS, silenceSamples := 0 }
    flushes := s.flushes ++ [⟨stamp.id, since, .subscribing⟩]
    ctrl := .starting .eventPublishing }

/-- What becoming active does to the attributes. -/
def Memory.activate (mem : Memory) (id : SessionId) (label : Json) : Memory :=
  { mem with
    sessionId := some id, isActive := true, label := label
    silenceTimeoutS := defaultSilenceTimeoutS }

/-- The session becomes active. -/
def State.makeActive (s : State) (id : SessionId) (label : Json) : State :=
  { s.record (.activated id) with mem := s.mem.activate id label }

/-- `_start_session` from the activation. -/
def activate (s : State) (stamp : Stamp) (label : Json) (r : Reply) : State :=
  if s.mem.configKv then
    { s.makeActive stamp.id label with ctrl := .starting (.configReading stamp label s.captured
        (if r.raised then none else s.broker.silenceTimeoutS)) }
  else spawnFlush (s.makeActive stamp.id label) stamp label s.captured none r

/-- The entry `_start_session` puts. -/
def entryOf (stamp : Stamp) (label : Json) : KvEntry :=
  ⟨stamp.id, stamp.iso, "active", label⟩

/-- The put of the KV entry took effect. -/
def State.putEntry (s : State) (entry : KvEntry) : State :=
  { s.record (.kvPut entry) with broker := { s.broker with current := some entry } }

/-- `_start_session`, called. -/
def beginStart (s : State) (stamp : Stamp) (label : Json) (r : Reply) : State :=
  let s := s.record (.startBegan stamp.id)
  if s.mem.sessionKv then
    { (if r.applied then s.putEntry (entryOf stamp label) else s) with
      ctrl := .starting (.kvPutting stamp label) }
  else activate s stamp label r

/-- `_start_session`, resumed; at its end the control loop acks the command. -/
def startStep (s : State) (pc : StartPc) (r : Reply) : State :=
  match pc with
  | .kvPutting stamp label => activate s stamp label r
  | .configReading stamp label since value => spawnFlush s stamp label since value r
  | .eventPublishing => { s with ctrl := .acking r.raised }

/-! ### The control loop -/

/-- `_handle_control_message`. A payload that is no JSON is acked; one that is no object raises in
`data.get`, which ends the loop. -/
def handleControlMessage (s : State) (payload : Option Json) (now : Stamp) (r : Reply) : State :=
  match payload with
  | none => { s with ctrl := .acking r.raised }
  | some (.obj data) =>
    if (Dict.getOr data "command" .null).isStr "start" then
      if s.mem.isActive then { s with ctrl := .acking r.raised }
      else beginStart s now (Dict.getOr data "label" (.str "")) r
    else if (Dict.getOr data "command" .null).isStr "stop" ∧ s.mem.isActive then
      beginStop s now r .control
    else { s with ctrl := .acking r.raised }
  | some _ => { s with ctrl := .exited }

/-- `_session_control_loop`, resumed. An ack that raises ends the loop. -/
def ctrlStep (s : State) (r : Reply) : Option State :=
  match s.ctrl with
  | .starting pc => some (startStep s pc r)
  | .stopping pc => some (stopStep s pc r .control)
  | .acking raised => some { s with ctrl := if raised then .exited else .fetching }
  | _ => none

/-! ### The audio loop -/

/-- A chunk is captured, and published where it belongs. -/
def routeChunk (s : State) (data : Bytes) (r : Reply) : State :=
  match s.mem.isActive, s.mem.sessionId with
  | true, some id =>
    { s.publish (.live id ⟨s.captured, data⟩) r with
      captured := s.captured + 1, audio := .livePublishing ⟨s.captured, data⟩ r.raised }
  | _, _ =>
    { s with
      captured := s.captured + 1
      audio := .prerollPublishing
      broker := if r.applied then
        { s.broker with preBuffer := s.broker.preBuffer ++ [⟨s.captured, data⟩] } else s.broker }

/-- `_compute_rms` raises: `array("h", data)` does on half a sample, and is not reached without a
whole one. -/
def rmsRaises (data : Bytes) : Bool :=
  data.length / 2 ≠ 0 && data.length % 2 = 1

/-- `_compute_rms(data) < SILENCE_THRESHOLD_DBFS`. Without a sample the level is −∞; of samples
`below` tells it. -/
def belowThreshold (below : Bytes → Bool) (data : Bytes) : Bool :=
  data.length / 2 = 0 || below data

/-- The counter of `_check_silence` after a chunk; `below` is whether its level is below
`SILENCE_THRESHOLD_DBFS`. -/
def Memory.countSilence (mem : Memory) (data : Bytes) (below : Bool) : Memory :=
  { mem with silenceSamples := if below then mem.silenceSamples + data.length / 2 else 0 }

/-- `silence_s >= self.silence_timeout_s`, at 16000 samples a second. -/
def Memory.silentForLong (mem : Memory) : Bool :=
  mem.silenceTimeoutS * 16000 ≤ mem.silenceSamples

/-- `_check_silence`. -/
def checkSilence (s : State) (data : Bytes) (below : Bool) (now : Stamp) (r : Reply) : State :=
  -- The audio loop catches what `_compute_rms` raises and goes on to the next chunk.
  if rmsRaises data then { s with audio := .waiting }
  else
    let s := { s with mem := s.mem.countSilence data below, audio := .waiting }
    if s.mem.silentForLong then beginStop s now r .audio else s

/-- `_audio_loop`, resumed. A publish that raised drops the chunk. -/
def audioStep (s : State) (below : Bytes → Bool) (now : Stamp) (r : Reply) : Option State :=
  match s.audio with
  | .waiting => none
  | .livePublishing chunk false =>
    some (checkSilence s chunk.data (belowThreshold below chunk.data) now r)
  | .livePublishing _ true => some { s with audio := .waiting }
  | .prerollPublishing => some { s with audio := .waiting }
  | .stopping pc => some (stopStep s pc r .audio)

/-! ### Flush tasks -/

/-- What a fetch returns: the number of messages, or that it raised, a timeout included. -/
inductive Fetched
  | msgs (n : ℕ)
  | raised
  deriving DecidableEq

def State.setFlush (s : State) (i : ℕ) (f : Flush) (pc : FlushPc) : State :=
  { s with flushes := s.flushes.set i { f with pc := pc } }

/-- The loop is left: publish the EOS marker. -/
def flushEos (s : State) (i : ℕ) (f : Flush) (r : Reply) : State :=
  (s.publish (.backfillEos f.id) r).setFlush i f .eosPublishing

/-- The loop over a fetched batch: publish the next chunk, or fetch again. -/
def flushBatch (s : State) (i : ℕ) (f : Flush) (cursor : ℕ) (batch : List Captured) (r : Reply) :
    State :=
  match batch with
  | [] => s.setFlush i f (.fetching cursor)
  | chunk :: rest =>
    (s.publish (.backfill f.id chunk f.since) r).setFlush i f (.publishing cursor rest r.raised)

/-- The stored messages from a position on. -/
def Broker.preRoll (broker : Broker) (cursor : ℕ) : List Captured :=
  broker.preBuffer.drop (max cursor broker.expired)

/-- `PRE_BUFFER` drops its oldest messages, as far as there are any. -/
def Broker.expire (broker : Broker) (n : ℕ) : Broker :=
  { broker with expired := min (broker.expired + n) broker.preBuffer.length }

/-- `_flush_preroll`, resumed. `answer` is what a fetch returned, `r` ends the call of a
subscription under way, and otherwise the call the step issues. -/
def flushStep (s : State) (i : ℕ) (f : Flush) (answer : Fetched) (r : Reply) : State :=
  match f.pc with
  | .subscribing =>
    if r.raised then
      { s.record (.subscribeFailed f.id) with flushes := s.flushes.eraseIdx i }
    else s.setFlush i f (.fetching 0)
  | .fetching cursor =>
    match answer with
    | .msgs n =>
      match (s.broker.preRoll cursor).take n with
      | [] => flushEos s i f r
      | chunk :: rest => flushBatch s i f (max cursor s.broker.expired + rest.length + 1)
          (chunk :: rest) r
    | .raised => flushEos s i f r
  | .publishing cursor rest false => s.setFlush i f (.acking cursor rest r.raised)
  | .publishing _ _ true => flushEos s i f r
  | .acking cursor rest false => flushBatch s i f cursor rest r
  | .acking _ _ true => flushEos s i f r
  | .eosPublishing => { s with flushes := s.flushes.eraseIdx i }

/-! ### The process -/

/-- The session whose start is in progress, before its flush task is spawned. -/
def CtrlPc.starts : CtrlPc → List SessionId
  | .starting (.kvPutting stamp _) => [stamp.id]
  | .starting (.configReading stamp _ _ _) => [stamp.id]
  | _ => []

/-- The process dies: what was in memory is gone. -/
def crash (s : State) : State where
  broker := s.broker
  captured := s.captured
  trace := s.trace ++ (s.ctrl.starts ++ s.flushes.map Flush.id).map .cut

/-- `_recover_session`; `raised` is whether the read of the entry raised. -/
def recoverSession (s : State) (raised : Bool) : State :=
  match s.broker.current with
  | some entry =>
    if s.mem.sessionKv ∧ ¬ raised ∧ entry.state = "active" then
      { s.record (.resumed entry.sessionId) with
        mem := { s.mem with
          sessionId := some entry.sessionId, isActive := true, label := entry.label } }
    else s
  | none => s

/-- `run_business_logic` up to the start of the loops. The buckets are set up one after the
other. -/
def boot (s : State) (sessionKv configKv raised : Bool) : State :=
  recoverSession {
    up := true
    mem := { sessionKv := sessionKv, configKv := sessionKv && configKv }
    broker := s.broker
    captured := s.captured
    trace := s.trace } raised

inductive Action
  /-- The process starts. -/
  | boot (sessionKv configKv raised : Bool)
  /-- The process ends: it crashes, or its audio loop ends, which cancels the rest. -/
  | crash
  /-- The source yields a chunk. -/
  | chunk (data : Bytes) (r : Reply)
  /-- The audio loop continues. -/
  | audio (now : Stamp) (r : Reply)
  /-- The subscription to `session.control` succeeds or fails. -/
  | subscribed (ok : Bool)
  /-- A command is fetched from `session.control`. -/
  | message (payload : Option Json) (now : Stamp) (r : Reply)
  /-- The control loop continues. -/
  | ctrl (r : Reply)
  /-- The control loop sees `stop_event`. -/
  | ctrlExit
  /-- The `i`-th flush task continues. -/
  | flush (i : ℕ) (answer : Fetched) (r : Reply)
  /-- `PRE_BUFFER` drops its oldest messages. -/
  | expire (n : ℕ)
  /-- The config bucket changes. -/
  | setConfig (value : Option ℤ)

/-- A step of the running process. -/
def runStep (below : Bytes → Bool) (s : State) : Action → Option State
  | .chunk data r =>
    match s.audio with
    | .waiting => some (routeChunk s data r)
    | _ => none
  | .audio now r => audioStep s below now r
  | .subscribed ok =>
    match s.ctrl with
    | .subscribing => some { s with ctrl := if ok then .fetching else .exited }
    | _ => none
  | .message payload now r =>
    match s.ctrl with
    | .fetching => some (handleControlMessage s payload now r)
    | _ => none
  | .ctrl r => ctrlStep s r
  | .ctrlExit =>
    match s.ctrl with
    | .fetching => some { s with ctrl := .exited }
    | _ => none
  | .flush i answer r => s.flushes[i]?.map fun f ↦ flushStep s i f answer r
  | .crash => some (crash s)
  | _ => none

def step (below : Bytes → Bool) (s : State) : Action → Option State
  | .boot sessionKv configKv raised =>
    if s.up then none else some (boot s sessionKv configKv raised)
  | .expire n => some { s with broker := s.broker.expire n }
  | .setConfig value => some { s with broker := { s.broker with silenceTimeoutS := value } }
  | a => if s.up then runStep below s a else none

/-- audio-producer, down, with an empty broker. -/
def system (below : Bytes → Bool) : TransitionSystem State Action where
  init s := s = {}
  step := step below

/-! ### What a step can do -/

/-- The inversion of `step`: where each step finds the process, and what it does. -/
inductive Stepped (below : Bytes → Bool) (s : State) : Action → State → Prop
  | boot (hdown : s.up = false) (sessionKv configKv raised : Bool) :
    Stepped below s (.boot sessionKv configKv raised) (boot s sessionKv configKv raised)
  | crash (hup : s.up = true) : Stepped below s .crash (crash s)
  | chunk (hup : s.up = true) (haudio : s.audio = .waiting) (data : Bytes) (r : Reply) :
    Stepped below s (.chunk data r) (routeChunk s data r)
  | published {chunk : Captured} (hup : s.up = true)
      (haudio : s.audio = .livePublishing chunk false)
      (now : Stamp) (r : Reply) :
    Stepped below s (.audio now r)
      (checkSilence s chunk.data (belowThreshold below chunk.data) now r)
  | dropped {chunk : Captured} (hup : s.up = true) (haudio : s.audio = .livePublishing chunk true)
      (now : Stamp) (r : Reply) : Stepped below s (.audio now r) { s with audio := .waiting }
  | buffered (hup : s.up = true) (haudio : s.audio = .prerollPublishing) (now : Stamp) (r : Reply) :
    Stepped below s (.audio now r) { s with audio := .waiting }
  | audioStop {pc : StopPc} (hup : s.up = true) (haudio : s.audio = .stopping pc) (now : Stamp)
      (r : Reply) : Stepped below s (.audio now r) (stopStep s pc r .audio)
  | subscribed (hup : s.up = true) (hctrl : s.ctrl = .subscribing) (ok : Bool) :
    Stepped below s (.subscribed ok) { s with ctrl := if ok then .fetching else .exited }
  | message (hup : s.up = true) (hctrl : s.ctrl = .fetching) (payload : Option Json) (now : Stamp)
      (r : Reply) : Stepped below s (.message payload now r) (handleControlMessage s payload now r)
  | ctrlStart {pc : StartPc} (hup : s.up = true) (hctrl : s.ctrl = .starting pc) (r : Reply) :
    Stepped below s (.ctrl r) (startStep s pc r)
  | ctrlStop {pc : StopPc} (hup : s.up = true) (hctrl : s.ctrl = .stopping pc) (r : Reply) :
    Stepped below s (.ctrl r) (stopStep s pc r .control)
  | ctrlAcked {raised : Bool} (hup : s.up = true) (hctrl : s.ctrl = .acking raised) (r : Reply) :
    Stepped below s (.ctrl r) { s with ctrl := if raised then .exited else .fetching }
  | ctrlExit (hup : s.up = true) (hctrl : s.ctrl = .fetching) :
    Stepped below s .ctrlExit { s with ctrl := .exited }
  | flush {i : ℕ} {f : Flush} (hup : s.up = true) (hi : s.flushes[i]? = some f) (answer : Fetched)
      (r : Reply) : Stepped below s (.flush i answer r) (flushStep s i f answer r)
  | expire (n : ℕ) : Stepped below s (.expire n) { s with broker := s.broker.expire n }
  | setConfig (value : Option ℤ) :
    Stepped below s (.setConfig value)
      { s with broker := { s.broker with silenceTimeoutS := value } }

section Stepped

variable {below : Bytes → Bool} {s t : State}

/-- The next call of the audio loop is one of the cases of `Stepped`. -/
theorem stepped_of_audioStep {now : Stamp} {r : Reply} (hup : s.up = true)
    (ht : audioStep s below now r = some t) : Stepped below s (.audio now r) t := by
  rw [audioStep.eq_def] at ht
  split at ht
  · nomatch ht
  · obtain rfl := Option.some.inj ht
    exact Stepped.published hup ‹_› now r
  · obtain rfl := Option.some.inj ht
    exact Stepped.dropped hup ‹_› now r
  · obtain rfl := Option.some.inj ht
    exact Stepped.buffered hup ‹_› now r
  · obtain rfl := Option.some.inj ht
    exact Stepped.audioStop hup ‹_› now r

/-- So is the next call of the control loop. -/
theorem stepped_of_ctrlStep {r : Reply} (hup : s.up = true) (ht : ctrlStep s r = some t) :
    Stepped below s (.ctrl r) t := by
  rw [ctrlStep.eq_def] at ht
  split at ht
  · obtain rfl := Option.some.inj ht
    exact Stepped.ctrlStart hup ‹_› r
  · obtain rfl := Option.some.inj ht
    exact Stepped.ctrlStop hup ‹_› r
  · obtain rfl := Option.some.inj ht
    exact Stepped.ctrlAcked hup ‹_› r
  · nomatch ht

/-- So is whatever a process that is up does. -/
theorem stepped_of_runStep {a : Action} (hup : s.up = true) (ht : runStep below s a = some t) :
    Stepped below s a t := by
  cases a with
  | chunk data r =>
    simp only [runStep] at ht
    split at ht
    · obtain rfl := Option.some.inj ht
      exact Stepped.chunk hup ‹_› data r
    · nomatch ht
  | audio now r => exact stepped_of_audioStep hup ht
  | subscribed ok =>
    simp only [runStep] at ht
    split at ht
    · obtain rfl := Option.some.inj ht
      exact Stepped.subscribed hup ‹_› ok
    · nomatch ht
  | message payload now r =>
    simp only [runStep] at ht
    split at ht
    · obtain rfl := Option.some.inj ht
      exact Stepped.message hup ‹_› payload now r
    · nomatch ht
  | ctrl r => exact stepped_of_ctrlStep hup ht
  | ctrlExit =>
    simp only [runStep] at ht
    split at ht
    · obtain rfl := Option.some.inj ht
      exact Stepped.ctrlExit hup ‹_›
    · nomatch ht
  | flush i answer r =>
    obtain ⟨f, hi, rfl⟩ := Option.map_eq_some_iff.1 ht
    exact Stepped.flush hup hi answer r
  | crash =>
    obtain rfl := Option.some.inj ht
    exact Stepped.crash hup
  | _ => nomatch ht

/-- **Every step is one of these.** -/
theorem stepped_of_step {a : Action} (ht : step below s a = some t) : Stepped below s a t := by
  have hrun : (if s.up then runStep below s a else none) = some t → Stepped below s a t := by
    intro ht
    obtain ⟨hup, hstep⟩ := Option.ite_none_right_eq_some.1 ht
    exact stepped_of_runStep hup hstep
  cases a with
  | boot sessionKv configKv raised =>
    obtain ⟨hdown, hboot⟩ := Option.ite_none_left_eq_some.1 ht
    obtain rfl := Option.some.inj hboot
    exact Stepped.boot (Bool.eq_false_iff.2 hdown) sessionKv configKv raised
  | expire n =>
    obtain rfl := Option.some.inj ht
    exact Stepped.expire n
  | setConfig value =>
    obtain rfl := Option.some.inj ht
    exact Stepped.setConfig value
  | _ => exact hrun ht

end Stepped

/-! ### What a flush task leaves alone -/

/-- A message on a backfill subject. -/
def Stored.isBackfill : Stored → Bool
  | .backfill _ _ _ => true
  | .backfillEos _ => true
  | _ => false

/-- A step of a flush task publishes at most one backfill message, and apart from that only moves
the flush tasks on. -/
structure Flushed (s t : State) : Prop where
  up : t.up = s.up
  mem : t.mem = s.mem
  audio : t.audio = s.audio
  ctrl : t.ctrl = s.ctrl
  captured : t.captured = s.captured
  current : t.broker.current = s.broker.current
  preBuffer : t.broker.preBuffer = s.broker.preBuffer
  expired : t.broker.expired = s.broker.expired
  events : t.broker.events = s.broker.events
  stored : t.broker.audio = s.broker.audio ∨
    ∃ msg, msg.isBackfill = true ∧ t.broker.audio = s.broker.audio ++ [msg]
  trace : t.trace = s.trace ∨ ∃ id, t.trace = s.trace ++ [.subscribeFailed id]

section Flushed

variable (s : State) (i : ℕ) (f : Flush)

theorem flushed_setFlush (pc : FlushPc) : Flushed s (s.setFlush i f pc) :=
  ⟨rfl, rfl, rfl, rfl, rfl, rfl, rfl, rfl, rfl, Or.inl rfl, Or.inl rfl⟩

theorem flushed_publish {msg : Stored} (hmsg : msg.isBackfill = true) (r : Reply) (pc : FlushPc) :
    Flushed s ((s.publish msg r).setFlush i f pc) := by
  rw [State.publish]
  split
  · exact ⟨rfl, rfl, rfl, rfl, rfl, rfl, rfl, rfl, rfl, Or.inr ⟨msg, hmsg, rfl⟩, Or.inl rfl⟩
  · exact flushed_setFlush s i f pc

theorem flushed_flushBatch (cursor : ℕ) (batch : List Captured) (r : Reply) :
    Flushed s (flushBatch s i f cursor batch r) := by
  cases batch with
  | nil => exact flushed_setFlush s i f _
  | cons chunk rest => exact flushed_publish s i f rfl r _

/-- A step of a flush task touches the task, the audio stream and the trace, and nothing else. -/
theorem flushed_flushStep (answer : Fetched) (r : Reply) :
    Flushed s (flushStep s i f answer r) := by
  rw [flushStep.eq_def]
  split
  · split
    · exact ⟨rfl, rfl, rfl, rfl, rfl, rfl, rfl, rfl, rfl, Or.inl rfl, Or.inr ⟨f.id, rfl⟩⟩
    · exact flushed_setFlush s i f _
  · split
    · split
      · exact flushed_publish s i f rfl r _
      · exact flushed_flushBatch s i f _ _ r
    · exact flushed_publish s i f rfl r _
  · exact flushed_setFlush s i f _
  · exact flushed_publish s i f rfl r _
  · exact flushed_flushBatch s i f _ _ r
  · exact flushed_publish s i f rfl r _
  · exact ⟨rfl, rfl, rfl, rfl, rfl, rfl, rfl, rfl, rfl, Or.inl rfl, Or.inl rfl⟩

end Flushed

end LiveSTT.AudioProducer
