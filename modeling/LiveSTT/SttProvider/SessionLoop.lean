import LiveSTT.Lib.TransitionSystem
import LiveSTT.Messaging.Audio
import LiveSTT.Messaging.Broker

/-!
# stt-provider: the session loop

`_run_session_loop` with the functions it calls. For each session it opens one transcriber
connection, drains `audio.backfill`, flushes the transcriber, drains `audio.live` until the EOS
marker, and closes the connection. Both lanes are read through durable consumers: a message is
delivered again until it is acked, also after a restart.

One step runs the loop from the await it is suspended at to its next one. What the transcriber and
the consumers answer is in the label: a fetch returns any stored message that is not acked, times
out or raises; the connection can close at any time, which the drain task notes in `dg_closed`.

The two awaits between a connection and the first message — the status message and the lag check —
touch nothing the loop reads, and belong to the step that leaves the connection attempt.

The fetches and acks are those of durable consumers, kept in the model as the stored messages and
the acked ones; so a message may be fetched again as long as it is not acked, by the next call or by
the process that comes after a restart. `Stepped` names the cases of a step for the results that go
over runs.
-/

namespace LiveSTT.SttProvider

/-! ### Messages and consumers -/

/-- `_session_id_from_subject`. -/
def sessionIdFromSubject (subject : String) : Option String :=
  if '.' ∈ subject.toList then some (lastToken subject) else none

/-- The first test of `_send_msgs`: the loop is in a session, and the subject names another one. -/
def isStale (sessionId : Option String) (msg : AudioMsg) : Bool :=
  match sessionId, sessionIdFromSubject msg.subject with
  | some sid, some msgSid => sid ≠ "" ∧ msgSid ≠ "" ∧ msgSid ≠ sid
  | _, _ => false

/-- A message as a consumer delivers it: the `seq`-th one of its lane. -/
structure Delivery where
  lane : Lane
  seq : ℕ
  msg : AudioMsg
  deriving DecidableEq, Repr

/-- The two lanes of the audio stream, and what the durable consumers recorded as acked. -/
structure Streams where
  backfill : List AudioMsg := []
  live : List AudioMsg := []
  acked : List (Lane × ℕ) := []

def Streams.lane (streams : Streams) : Lane → List AudioMsg
  | .live => streams.live
  | .backfill => streams.backfill

def Streams.store (streams : Streams) (msg : AudioMsg) : Lane → Streams
  | .live => { streams with live := streams.live ++ [msg] }
  | .backfill => { streams with backfill := streams.backfill ++ [msg] }

/-- What a fetch can return: a stored message that was not acked. -/
def Streams.deliver (streams : Streams) (lane : Lane) (seq : ℕ) : Option Delivery :=
  if (lane, seq) ∈ streams.acked then none
  else (streams.lane lane)[seq]?.map fun msg ↦ ⟨lane, seq, msg⟩

/-! ### The state -/

/-- What the loop knows about the session it is in. `connection` numbers the connections. -/
structure Session where
  id : Option String := none
  connection : ℕ := 0
  dgClosed : Bool := false

/-- Where `_send_msgs` is suspended; `rest` are the messages after the current one. -/
inductive SendPc
  /-- At the ack of a message of another session. -/
  | skipping (rest : List Delivery) (raised : Bool)
  /-- At the ack of an EOS marker. -/
  | ending (raised : Bool)
  /-- At `transcriber.send_audio`. -/
  | sending (d : Delivery) (rest : List Delivery) (raised : Bool)
  /-- At the ack after a send. -/
  | acking (rest : List Delivery) (raised : Bool)
  /-- At the status message after a failed send or ack. -/
  | reporting

/-- Where `_run_session_loop` is suspended. -/
inductive Pc
  | subscribing
  /-- At a fetch of `_wait_for_audio` for the first backfill message. -/
  | waitingBackfill
  /-- At an attempt to connect, or at the delay before the next. -/
  | connecting (id : Option String) (first : List Delivery)
  /-- In `_send_msgs`, called for a lane. -/
  | forwarding (lane : Lane) (pc : SendPc)
  /-- At a fetch of `_fetch_phase`. -/
  | fetching (lane : Lane)
  /-- At `transcriber.finalize()`. -/
  | finalizing
  /-- At `finalize_done.wait()`. -/
  | flushing
  /-- At a fetch of `_wait_for_audio` for the first live message. -/
  | waitingLive
  /-- In `_close_transcriber`; an exception may be on its way out. -/
  | closing (raising : Bool)
  | ended
  | failed

/-- What the loop does to the outside world. -/
inductive Event
  | connected (connection : ℕ)
  /-- `send_audio` returned. -/
  | sent (d : Delivery) (connection : ℕ)
  /-- An ack reached the consumer, sent while the loop was in the session `id`. -/
  | acked (d : Delivery) (id : Option String)
  deriving DecidableEq, Repr

structure State where
  streams : Streams := {}
  stopEvent : Bool := false
  session : Session := {}
  pc : Pc := .subscribing
  /-- The number of connections so far. -/
  connections : ℕ := 0
  log : List Event := []

def State.goto (s : State) (pc : Pc) : State := { s with pc := pc }

/-- `await msg.ack()`, and where the loop is suspended then. -/
def State.ack (s : State) (d : Delivery) (r : Reply) (pc : Pc) : State :=
  if r.applied then
    { s with
      streams := { s.streams with acked := s.streams.acked ++ [(d.lane, d.seq)] }
      log := s.log ++ [.acked d s.session.id]
      pc := pc }
  else s.goto pc

/-! ### The functions of the loop -/

/-- The `while` loop: wait for the next session. -/
def nextSession (s : State) : State :=
  s.goto (if s.stopEvent then .ended else .waitingBackfill)

/-- The end of a phase, with what `_fetch_phase` returned. -/
def endPhase (s : State) (lane : Lane) (eos : Bool) : State :=
  match lane with
  | .backfill =>
    if eos ∧ ¬ s.session.dgClosed ∧ ¬ s.stopEvent then s.goto .finalizing
    else s.goto (.closing false)
  | .live => s.goto (.closing false)

/-- `_fetch_phase` after a call of `_send_msgs`. -/
def fetchPhase (s : State) (lane : Lane) (eos : Bool) : State :=
  if eos then endPhase s lane true
  else if s.session.dgClosed ∨ s.stopEvent then endPhase s lane false
  else s.goto (.fetching lane)

/-- `_send_msgs` from one message on; `r` is the answer to the call this issues. -/
def sendMsgs (s : State) (lane : Lane) (msgs : List Delivery) (r : Reply) : State :=
  match msgs with
  | [] => fetchPhase s lane false
  | d :: rest =>
    if isStale s.session.id d.msg then s.ack d r (.forwarding lane (.skipping rest r.raised))
    else if d.msg.isEos then s.ack d r (.forwarding lane (.ending r.raised))
    else s.goto (.forwarding lane (.sending d rest r.raised))

/-- `send_audio` returned: ack the message. -/
def ackSent (s : State) (lane : Lane) (d : Delivery) (rest : List Delivery) (r : Reply) : State :=
  State.ack { s with log := s.log ++ [.sent d s.session.connection] } d r
    (.forwarding lane (.acking rest r.raised))

/-- `_send_msgs` resumed. An ack outside its `try` that raises leaves the loop through the `finally`
that closes the transcriber. -/
def sendStep (s : State) (lane : Lane) (pc : SendPc) (r : Reply) : State :=
  match pc with
  | .skipping rest false => sendMsgs s lane rest r
  | .skipping _ true => s.goto (.closing true)
  | .ending false =>
    fetchPhase { s with session := { s.session with
      dgClosed := s.session.dgClosed || decide (lane = .live) } } lane true
  | .ending true => s.goto (.closing true)
  | .sending d rest false => ackSent s lane d rest r
  | .sending _ _ true => s.goto (.forwarding lane .reporting)
  | .acking rest false => sendMsgs s lane rest r
  | .acking _ true => s.goto (.forwarding lane .reporting)
  | .reporting => fetchPhase { s with session := { s.session with dgClosed := true } } lane false

/-- A transcriber is connected: a session begins with the message that announced it. -/
def beginSession (s : State) (id : Option String) (first : List Delivery) (r : Reply) : State :=
  sendMsgs { s with
    session := { id := id, connection := s.connections }
    connections := s.connections + 1
    log := s.log ++ [.connected s.connections] } .backfill first r

/-- A fetch returned a message. -/
def fetchedStep (s : State) (d : Delivery) (r : Reply) : Option State :=
  match s.pc with
  | .waitingBackfill =>
    some (s.goto (if s.stopEvent then .ended
      else .connecting (sessionIdFromSubject d.msg.subject) [d]))
  | .fetching lane => some (sendMsgs s lane [d] r)
  | .waitingLive =>
    some (if s.stopEvent then s.goto (.closing false) else sendMsgs s .live [d] r)
  | _ => none

/-- The lane a fetch is under way on. -/
def Pc.fetches : Pc → Option Lane
  | .waitingBackfill => some .backfill
  | .fetching lane => some lane
  | .waitingLive => some .live
  | _ => none

/-- A fetch timed out, or raised and the loop slept. -/
def unfetchedStep (s : State) : Option State :=
  match s.pc with
  | .waitingBackfill => some (nextSession s)
  | .fetching lane => some (fetchPhase s lane false)
  | .waitingLive => some (if s.stopEvent then s.goto (.closing false) else s)
  | _ => none

/-- Every other await: `ok` is whether a subscription or connection attempt succeeded, `r` the
answer to the next call. -/
def resumeStep (s : State) (ok : Bool) (r : Reply) : Option State :=
  match s.pc with
  | .subscribing => some (if ok then nextSession s else s.goto .ended)
  | .connecting id first =>
    if ok then some (beginSession s id first r)
    else some (if s.stopEvent then s.goto .ended else s)
  | .forwarding lane pc => some (sendStep s lane pc r)
  | .finalizing => some (s.goto .flushing)
  | .flushing => some (s.goto (if s.stopEvent then .closing false else .waitingLive))
  | .closing false => some (nextSession s)
  | .closing true => some (s.goto .failed)
  | _ => none

/-! ### The system -/

inductive Action
  /-- A message is stored on a lane. -/
  | arrive (lane : Lane) (msg : AudioMsg)
  /-- The fetch under way returns the `seq`-th message of its lane. -/
  | fetched (seq : ℕ) (r : Reply)
  /-- The fetch under way times out or raises. -/
  | unfetched
  | resume (ok : Bool) (r : Reply)
  /-- The drain task ended: the connection is closed. -/
  | dgClosed
  /-- `stop_event` is set. -/
  | stop
  /-- The process dies and starts again. -/
  | restart

def step (s : State) : Action → Option State
  | .arrive lane msg => some { s with streams := s.streams.store msg lane }
  | .fetched seq r =>
    (s.pc.fetches.bind fun lane ↦ s.streams.deliver lane seq).bind fun d ↦ fetchedStep s d r
  | .unfetched => unfetchedStep s
  | .resume ok r => resumeStep s ok r
  | .dgClosed => some { s with session := { s.session with dgClosed := true } }
  | .stop => some { s with stopEvent := true }
  | .restart => some { s with stopEvent := false, session := {}, pc := .subscribing }

/-- stt-provider, started on empty streams. -/
def system : TransitionSystem State Action where
  init s := s = {}
  step := step

/-! ### What a step can do -/

/-- The inversion of `step`: where each step finds the loop, and what it does. -/
inductive Stepped (s : State) : Action → State → Prop
  | arrive (lane : Lane) (msg : AudioMsg) :
    Stepped s (.arrive lane msg) { s with streams := s.streams.store msg lane }
  | announced {seq : ℕ} {d : Delivery} (hpc : s.pc = .waitingBackfill)
      (hd : s.streams.deliver .backfill seq = some d) (r : Reply) :
    Stepped s (.fetched seq r) (s.goto (if s.stopEvent then .ended
      else .connecting (sessionIdFromSubject d.msg.subject) [d]))
  | fetched {seq : ℕ} {lane : Lane} {d : Delivery} (hpc : s.pc = .fetching lane)
      (hd : s.streams.deliver lane seq = some d) (r : Reply) :
    Stepped s (.fetched seq r) (sendMsgs s lane [d] r)
  | fetchedLive {seq : ℕ} {d : Delivery} (hpc : s.pc = .waitingLive)
      (hd : s.streams.deliver .live seq = some d) (r : Reply) :
    Stepped s (.fetched seq r)
      (if s.stopEvent then s.goto (.closing false) else sendMsgs s .live [d] r)
  | idle (hpc : s.pc = .waitingBackfill) : Stepped s .unfetched (nextSession s)
  | unfetched {lane : Lane} (hpc : s.pc = .fetching lane) :
    Stepped s .unfetched (fetchPhase s lane false)
  | unfetchedLive (hpc : s.pc = .waitingLive) :
    Stepped s .unfetched (if s.stopEvent then s.goto (.closing false) else s)
  | subscribed (hpc : s.pc = .subscribing) (ok : Bool) (r : Reply) :
    Stepped s (.resume ok r) (if ok then nextSession s else s.goto .ended)
  | connected {id : Option String} {first : List Delivery} (hpc : s.pc = .connecting id first)
      (r : Reply) : Stepped s (.resume true r) (beginSession s id first r)
  | unconnected {id : Option String} {first : List Delivery} (hpc : s.pc = .connecting id first)
      (r : Reply) : Stepped s (.resume false r) (if s.stopEvent then s.goto .ended else s)
  | forwarded {lane : Lane} {pc : SendPc} (hpc : s.pc = .forwarding lane pc) (ok : Bool)
      (r : Reply) :
      Stepped s (.resume ok r) (sendStep s lane pc r)
  | finalized (hpc : s.pc = .finalizing) (ok : Bool) (r : Reply) :
    Stepped s (.resume ok r) (s.goto .flushing)
  | flushed (hpc : s.pc = .flushing) (ok : Bool) (r : Reply) :
    Stepped s (.resume ok r) (s.goto (if s.stopEvent then .closing false else .waitingLive))
  | closed (hpc : s.pc = .closing false) (ok : Bool) (r : Reply) :
    Stepped s (.resume ok r) (nextSession s)
  | raised (hpc : s.pc = .closing true) (ok : Bool) (r : Reply) :
    Stepped s (.resume ok r) (s.goto .failed)
  | dgClosed : Stepped s .dgClosed { s with session := { s.session with dgClosed := true } }
  | stop : Stepped s .stop { s with stopEvent := true }
  | restart : Stepped s .restart { s with stopEvent := false, session := {}, pc := .subscribing }

section Stepped

variable {s t : State} {r : Reply}

/-- What a fetch that returns a message does is one of the cases. -/
theorem stepped_of_fetchedStep {seq : ℕ} {lane : Lane} {d : Delivery}
    (hlane : s.pc.fetches = some lane) (hd : s.streams.deliver lane seq = some d)
    (ht : fetchedStep s d r = some t) : Stepped s (.fetched seq r) t := by
  rw [fetchedStep.eq_def] at ht
  split at ht <;> rename_i hpc
  · rw [hpc] at hlane
    obtain rfl := Option.some.inj hlane
    obtain rfl := Option.some.inj ht
    exact .announced hpc hd r
  · rw [hpc] at hlane
    obtain rfl := Option.some.inj hlane
    obtain rfl := Option.some.inj ht
    exact .fetched hpc hd r
  · rw [hpc] at hlane
    obtain rfl := Option.some.inj hlane
    obtain rfl := Option.some.inj ht
    exact .fetchedLive hpc hd r
  · nomatch ht

/-- So is what one does that returns none. -/
theorem stepped_of_unfetchedStep (ht : unfetchedStep s = some t) : Stepped s .unfetched t := by
  rw [unfetchedStep.eq_def] at ht
  split at ht <;> rename_i hpc
  · obtain rfl := Option.some.inj ht
    exact .idle hpc
  · obtain rfl := Option.some.inj ht
    exact .unfetched hpc
  · obtain rfl := Option.some.inj ht
    exact .unfetchedLive hpc
  · nomatch ht

/-- And what a resumed call does. -/
theorem stepped_of_resumeStep {ok : Bool} (ht : resumeStep s ok r = some t) :
    Stepped s (.resume ok r) t := by
  rw [resumeStep.eq_def] at ht
  split at ht <;> rename_i hpc
  · obtain rfl := Option.some.inj ht
    exact .subscribed hpc ok r
  · cases ok <;> obtain rfl := Option.some.inj ht
    · exact .unconnected hpc r
    · exact .connected hpc r
  · obtain rfl := Option.some.inj ht
    exact .forwarded hpc ok r
  · obtain rfl := Option.some.inj ht
    exact .finalized hpc ok r
  · obtain rfl := Option.some.inj ht
    exact .flushed hpc ok r
  · obtain rfl := Option.some.inj ht
    exact .closed hpc ok r
  · obtain rfl := Option.some.inj ht
    exact .raised hpc ok r
  · nomatch ht

/-- And so is every step. -/
theorem stepped_of_step {a : Action} (ht : step s a = some t) : Stepped s a t := by
  cases a with
  | arrive lane msg =>
    obtain rfl := Option.some.inj ht
    exact .arrive lane msg
  | fetched seq r =>
    obtain ⟨d, hd, ht⟩ := Option.bind_eq_some_iff.1 ht
    obtain ⟨lane, hlane, hd⟩ := Option.bind_eq_some_iff.1 hd
    exact stepped_of_fetchedStep hlane hd ht
  | unfetched => exact stepped_of_unfetchedStep ht
  | resume ok r => exact stepped_of_resumeStep ht
  | dgClosed =>
    obtain rfl := Option.some.inj ht
    exact .dgClosed
  | stop =>
    obtain rfl := Option.some.inj ht
    exact .stop
  | restart =>
    obtain rfl := Option.some.inj ht
    exact .restart

end Stepped

end LiveSTT.SttProvider
