import LiveSTT.SttProvider.AckAfterSend

/-!
# Catching up on recorded sessions

Sessions can be queued on both lanes before stt-provider reads them. When nothing fails, the loop
forwards them one after the other: a connection for each session, its backfill, its live audio
(`catches_up`). The specification is the list of `jobs` of the recordings in order, and what it is
to leave in the log (`events`).

The loop is at every await in front of some job, and its position says what kind of job that can be.
`Queue` says this of the jobs that are left, so that the simulation needs no counting: the job at
the head is the next one of its lane, which is what a fetch in stream order returns.

"When nothing fails" is one predicate of a step, `flawless`: calls return, fetches come in the order
of the stream, and Deepgram does not close a connection in its session. The result is about every
state on the way (`CaughtUp`): what has been sent is a beginning of the plan's audio, and all of it
once the backfill is acked to its end and the loop waits for more.
-/

namespace LiveSTT.SttProvider

/-! ### The recordings -/

/-- What a message carries that is no EOS marker. -/
structure Chunk where
  headers : Option (List (String × String)) := none
  data : Bytes
  notEos : AudioMsg.isEos ⟨"", headers, data⟩ = false

/-- The audio of a session. -/
structure Recording where
  id : String
  backfill : List Chunk
  live : List Chunk

namespace Recording

variable (rec : Recording)

def chunks : Lane → List Chunk
  | .backfill => rec.backfill
  | .live => rec.live

def subject (lane : Lane) : String := "audio." ++ lane.tag ++ "." ++ rec.id

def message (lane : Lane) (chunk : Chunk) : AudioMsg :=
  ⟨rec.subject lane, chunk.headers, chunk.data⟩

def eos (lane : Lane) : AudioMsg := ⟨rec.subject lane, some [("LiveSTT-EOS", "true")], []⟩

/-- The messages of a session on a lane: its chunks, and the EOS marker. -/
def messages (lane : Lane) : List AudioMsg :=
  (rec.chunks lane).map (rec.message lane) ++ [rec.eos lane]

/-- What a session is to send to the transcriber. -/
def audio : List Bytes := rec.backfill.map Chunk.data ++ rec.live.map Chunk.data

/-- The session id the loop reads from the subjects. -/
def sessionId : Option String := some (lastToken rec.id)

end Recording

/-- A lane, when all is stored. -/
def recorded (plan : List Recording) (lane : Lane) : List AudioMsg :=
  plan.flatMap fun rec ↦ rec.messages lane

/-! ### The specification -/

/-- A unit of work of the loop. -/
inductive Job
  | connect (connection : ℕ)
  | forward (connection : ℕ) (id : Option String) (lane : Lane) (msg : AudioMsg)

namespace Job

/-- The message of a job on a lane. -/
def onLane (lane : Lane) : Job → Option AudioMsg
  | .connect _ => none
  | .forward _ _ lane' msg => if lane' = lane then some msg else none

/-- What a job leaves in the log, where some jobs are done. -/
def events (done : List Job) : Job → List Event
  | .connect connection => [.connected connection]
  | .forward connection id lane msg =>
    let d : Delivery := ⟨lane, (done.filterMap (onLane lane)).length, msg⟩
    if msg.isEos then [.acked d id] else [.sent d connection, .acked d id]

end Job

def Recording.jobs (rec : Recording) (connection : ℕ) : List Job :=
  .connect connection ::
    ((rec.messages .backfill).map (.forward connection rec.sessionId .backfill) ++
      (rec.messages .live).map (.forward connection rec.sessionId .live))

/-- The jobs of the recordings, one after the other. -/
def jobs : ℕ → List Recording → List Job
  | _, [] => []
  | connection, rec :: plan => rec.jobs connection ++ jobs (connection + 1) plan

/-- What jobs leave in the log, after others that are done. -/
def events : List Job → List Job → List Event
  | _, [] => []
  | done, job :: rest => job.events done ++ events (done ++ [job]) rest

theorem events_append (done js js' : List Job) :
    events done (js ++ js') = events done js ++ events (done ++ js) js' := by
  induction js generalizing done with
  | nil => rw [List.nil_append, events, List.nil_append, List.append_nil]
  | cons job js ih =>
    rw [List.cons_append, events, ih, events, List.append_assoc, List.append_assoc,
      List.singleton_append]

/-! ### What the jobs are in front of the loop -/

/-- What the loop is doing in a session. -/
structure Mode where
  connection : ℕ
  id : Option String
  lane : Lane

/-- The jobs left, for a loop between two sessions or in a session, when `k` sessions have begun. -/
inductive Queue : Option Mode → ℕ → List Job → Prop
  | empty {k : ℕ} : Queue none k []
  | connect {k : ℕ} {id : Option String} {rest : List Job}
    (h : Queue (some ⟨k, id, .backfill⟩) (k + 1) rest) : Queue none k (.connect k :: rest)
  | chunk {k c : ℕ} {id : Option String} {lane : Lane} {msg : AudioMsg} {rest : List Job}
    (hid : sessionIdFromSubject msg.subject = id) (heos : msg.isEos = false)
    (h : Queue (some ⟨c, id, lane⟩) k rest) :
    Queue (some ⟨c, id, lane⟩) k (.forward c id lane msg :: rest)
  | backfillEos {k c : ℕ} {id : Option String} {msg : AudioMsg} {rest : List Job}
    (hid : sessionIdFromSubject msg.subject = id) (heos : msg.isEos = true)
    (h : Queue (some ⟨c, id, .live⟩) k rest) :
    Queue (some ⟨c, id, .backfill⟩) k (.forward c id .backfill msg :: rest)
  | liveEos {k c : ℕ} {id : Option String} {msg : AudioMsg} {rest : List Job}
    (hid : sessionIdFromSubject msg.subject = id) (heos : msg.isEos = true)
    (h : Queue none k rest) : Queue (some ⟨c, id, .live⟩) k (.forward c id .live msg :: rest)

section Recorded

variable (rec : Recording)

/-- Only what is behind the last dot counts. -/
theorem lastToken_append (s t : String) : lastToken (s ++ "." ++ t) = lastToken t := by
  have htake : ∀ l l' : List Char,
    (l ++ '.' :: l').takeWhile (· ≠ '.') = l.takeWhile (· ≠ '.') := by
    intro l l'
    induction l with
    | nil => rfl
    | cons c l ih => simp only [List.cons_append, List.takeWhile_cons, ih]
  have hlist : (s ++ "." ++ t).toList.reverse = t.toList.reverse ++ '.' :: s.toList.reverse := by
    simp
  rw [lastToken, hlist, htake, lastToken]

/-- The loop reads the same id from every subject of a session. -/
theorem sessionIdFromSubject_subject (lane : Lane) :
    sessionIdFromSubject (rec.subject lane) = rec.sessionId := by
  have hdot : '.' ∈ (rec.subject lane).toList := by simp [Recording.subject]
  rw [sessionIdFromSubject, if_pos hdot, Recording.subject, lastToken_append, Recording.sessionId]

/-- A message of a session is not stale there. -/
theorem isStale_of_mem {lane : Lane} {msg : AudioMsg} (h : msg ∈ rec.messages lane) :
    isStale rec.sessionId msg = false := by
  have hsubject : msg.subject = rec.subject lane := by
    rcases List.mem_append.1 h with hchunk | heos
    · obtain ⟨chunk, -, rfl⟩ := List.mem_map.1 hchunk
      rfl
    · rw [List.mem_singleton.1 heos]
      rfl
  rw [isStale.eq_def, hsubject, sessionIdFromSubject_subject]
  simp [Recording.sessionId]

theorem isEos_message (lane : Lane) (chunk : Chunk) : (rec.message lane chunk).isEos = false :=
  chunk.notEos

/-- Chunks in front of a queue. -/
theorem Queue.chunks {k c : ℕ} {lane : Lane} {rest : List Job} (cs : List Chunk)
    (h : Queue (some ⟨c, rec.sessionId, lane⟩) k rest) : Queue (some ⟨c, rec.sessionId, lane⟩) k
      ((cs.map (rec.message lane)).map (.forward c rec.sessionId lane) ++ rest) := by
  induction cs with
  | nil => exact h
  | cons chunk cs ih =>
    exact Queue.chunk (sessionIdFromSubject_subject rec lane) (isEos_message rec lane chunk) ih

/-- **The jobs of the recordings are such a queue.** -/
theorem queue_jobs (k : ℕ) (plan : List Recording) : Queue none k (jobs k plan) := by
  induction plan generalizing k with
  | nil => exact Queue.empty
  | cons rec plan ih =>
    have hlive : Queue (some ⟨k, rec.sessionId, .live⟩) (k + 1)
        ((rec.messages .live).map (.forward k rec.sessionId .live) ++ jobs (k + 1) plan) := by
      rw [Recording.messages, List.map_append, List.append_assoc]
      exact Queue.chunks rec _ (Queue.liveEos (sessionIdFromSubject_subject rec .live) rfl (ih _))
    rw [jobs, Recording.jobs, List.cons_append, List.append_assoc, Recording.messages,
      List.map_append, List.append_assoc]
    exact Queue.connect (Queue.chunks rec _
      (Queue.backfillEos (sessionIdFromSubject_subject rec .backfill) rfl hlive))

/-- On each lane the jobs are in stream order. -/
theorem onLane_jobs (lane : Lane) (k : ℕ) (plan : List Recording) :
    (jobs k plan).filterMap (Job.onLane lane) = recorded plan lane := by
  have hlane : ∀ (lane' : Lane) (c : ℕ) (id : Option String) (msgs : List AudioMsg),
      (msgs.map (Job.forward c id lane')).filterMap (Job.onLane lane) =
        if lane' = lane then msgs else [] := by
    intro lane' c id msgs
    induction msgs with
    | nil => rw [List.map_nil, List.filterMap_nil, ite_self]
    | cons msg msgs ih =>
      rw [List.map_cons, List.filterMap_cons, ih]
      by_cases hsame : lane' = lane <;> simp [Job.onLane, hsame]
  induction plan generalizing k with
  | nil => rfl
  | cons rec plan ih =>
    rw [jobs, List.filterMap_append, ih, recorded, recorded, List.flatMap_cons]
    congr 1
    rw [Recording.jobs, List.filterMap_cons_none rfl, List.filterMap_append, hlane, hlane]
    cases lane with
    | live => rfl
    | backfill => exact List.append_nil _

end Recorded

/-! ### The invariant -/

/-- What the loop is doing while it reads a lane. -/
def State.mode (s : State) (lane : Lane) : Mode := ⟨s.session.connection, s.session.id, lane⟩

/-- The number of messages of a lane among the jobs. -/
def count (lane : Lane) (js : List Job) : ℕ := (js.filterMap (Job.onLane lane)).length

/-- Some jobs are done, and the loop is in front of the others. -/
structure Tracks (plan : List Recording) (s : State) (mode : Option Mode) (done rest : List Job) :
    Prop where
  jobs : jobs 0 plan = done ++ rest
  log : s.log = events [] done
  acked : ∀ lane i, (lane, i) ∈ s.streams.acked ↔ i < count lane done
  stored : ∀ lane, s.streams.lane lane <+: recorded plan lane
  queue : Queue mode s.connections rest

/-- The connection is closed only because the process stops. -/
def State.Open (s : State) : Prop := s.session.dgClosed = true → s.stopEvent = true

/-- In a session, at a lane. -/
def Within (plan : List Recording) (s : State) (lane : Lane) : Prop :=
  s.Open ∧ ∃ done rest, Tracks plan s (some (s.mode lane)) done rest

/-- Between two sessions. -/
def Between (plan : List Recording) (s : State) : Prop :=
  ∃ done rest, Tracks plan s none done rest

/-- A message is the next one to forward. -/
def Sending (plan : List Recording) (s : State) (lane : Lane) (d : Delivery) : Prop :=
  s.Open ∧ ∃ done rest msg, Tracks plan s (some (s.mode lane)) done
      (.forward s.session.connection s.session.id lane msg :: rest) ∧
    d = ⟨lane, count lane done, msg⟩ ∧ msg.isEos = false

/-- A session is about to begin, with its first message. -/
def Beginning (plan : List Recording) (s : State) (id : Option String) (first : List Delivery) :
    Prop :=
  ∃ done rest msg, Tracks plan s none done
      (.connect s.connections :: .forward s.connections id .backfill msg :: rest) ∧
    first = [⟨.backfill, count .backfill done, msg⟩]

/-- The session is over, or left because the process stops. -/
def Left (plan : List Recording) (s : State) : Prop :=
  Between plan s ∨ s.stopEvent = true ∧ ∃ mode done rest, Tracks plan s mode done rest

/-- What holds at each await of the loop. -/
def Position (plan : List Recording) (s : State) : Prop :=
  match s.pc with
  | .subscribing => Between plan s
  | .waitingBackfill => Between plan s
  | .connecting id first => Beginning plan s id first
  | .forwarding lane (.sending d rest raised) => Sending plan s lane d ∧ rest = [] ∧ raised = false
  | .forwarding lane (.acking rest raised) => Within plan s lane ∧ rest = [] ∧ raised = false
  | .forwarding .backfill (.ending raised) => Within plan s .live ∧ raised = false
  | .forwarding .live (.ending raised) => Between plan s ∧ raised = false
  | .forwarding _ _ => False
  | .fetching lane => Within plan s lane
  | .finalizing => Within plan s .live
  | .flushing => Within plan s .live
  | .waitingLive => Within plan s .live
  | .closing raising => Left plan s ∧ raising = false
  | .ended => ∃ mode done rest, Tracks plan s mode done rest
  | .failed => False

/-! ### One job after the other -/

section Steps

variable {plan : List Recording} {s t : State} {mode : Option Mode} {done rest : List Job}
  {lane : Lane}

/-- It is about the log, the streams and the connections. -/
theorem Tracks.congr (h : Tracks plan s mode done rest) (hlog : t.log = s.log)
    (hstreams : t.streams = s.streams) (hconnections : t.connections = s.connections) :
    Tracks plan t mode done rest := by
  refine ⟨h.jobs, hlog ▸ h.log, ?_, ?_, ?_⟩
  · rw [hstreams]
    exact h.acked
  · rw [hstreams]
    exact h.stored
  · rw [hconnections]
    exact h.queue

theorem count_append (js js' : List Job) :
    count lane (js ++ js') = count lane js + count lane js' := by
  rw [count, List.filterMap_append, List.length_append, count, count]

/-! ### The head of a queue -/

theorem Queue.id_of_forward {c k : ℕ} {id : Option String} {msg : AudioMsg}
    (h : Queue (some ⟨c, id, lane⟩) k (.forward c id lane msg :: rest)) :
    sessionIdFromSubject msg.subject = id := by
  cases h <;> assumption

/-- In a session, the first message left on its lane is that of the first job. -/
theorem Queue.head {c k : ℕ} {id : Option String} {msg : AudioMsg}
    (h : Queue (some ⟨c, id, lane⟩) k rest)
    (hhead : (rest.filterMap (Job.onLane lane)).head? = some msg) :
    ∃ rest', rest = .forward c id lane msg :: rest' := by
  have hsame : ∀ msg' rest', ((Job.forward c id lane msg' :: rest').filterMap
      (Job.onLane lane)).head? = some msg → msg' = msg := by
    intro msg' rest' hhead
    have hlane : (Job.forward c id lane msg').onLane lane = some msg' := if_pos rfl
    rw [List.filterMap_cons_some hlane] at hhead
    exact Option.some.inj hhead
  cases h with
  | chunk _ _ _ => exact ⟨_, by rw [hsame _ _ hhead]⟩
  | backfillEos _ _ _ => exact ⟨_, by rw [hsame _ _ hhead]⟩
  | liveEos _ _ _ => exact ⟨_, by rw [hsame _ _ hhead]⟩

/-- Between two sessions, the first backfill message left begins the next one. -/
theorem Queue.head_connect {k : ℕ} {msg : AudioMsg} (h : Queue none k rest)
    (hhead : (rest.filterMap (Job.onLane .backfill)).head? = some msg) :
    ∃ rest', rest = .connect k :: .forward k (sessionIdFromSubject msg.subject) .backfill msg ::
      rest' := by
  cases h with
  | empty => contradiction
  | connect h =>
    obtain ⟨rest', rfl⟩ := h.head hhead
    have hid : sessionIdFromSubject msg.subject = _ := h.id_of_forward
    exact ⟨rest', by rw [hid]⟩

/-! ### What follows a job -/

theorem Queue.of_connect {k : ℕ} {id : Option String} {msg : AudioMsg}
    (h : Queue none k (.connect k :: .forward k id .backfill msg :: rest)) :
    Queue (some ⟨k, id, .backfill⟩) (k + 1) (.forward k id .backfill msg :: rest) := by
  cases h with
  | connect h => cases h with
    | chunk hid heos h => exact Queue.chunk hid heos h
    | backfillEos hid heos h => exact Queue.backfillEos hid heos h

theorem Queue.of_chunk {c k : ℕ} {id : Option String} {msg : AudioMsg}
    (h : Queue (some ⟨c, id, lane⟩) k (.forward c id lane msg :: rest)) (heos : msg.isEos = false) :
    Queue (some ⟨c, id, lane⟩) k rest := by
  cases h with
  | chunk _ _ h => exact h
  | backfillEos _ heos' _ => cases heos.symm.trans heos'
  | liveEos _ heos' _ => cases heos.symm.trans heos'

theorem Queue.of_backfillEos {c k : ℕ} {id : Option String} {msg : AudioMsg}
    (h : Queue (some ⟨c, id, .backfill⟩) k (.forward c id .backfill msg :: rest))
    (heos : msg.isEos = true) : Queue (some ⟨c, id, .live⟩) k rest := by
  cases h with
  | chunk _ heos' _ => cases heos.symm.trans heos'
  | backfillEos _ _ h => exact h

theorem Queue.of_liveEos {c k : ℕ} {id : Option String} {msg : AudioMsg}
    (h : Queue (some ⟨c, id, .live⟩) k (.forward c id .live msg :: rest))
    (heos : msg.isEos = true) : Queue none k rest := by
  cases h with
  | chunk _ heos' _ => cases heos.symm.trans heos'
  | liveEos _ _ h => exact h

/-- The message at the head of a queue is of the session the loop is in. -/
theorem not_stale {c k : ℕ} {id : Option String} {msg : AudioMsg}
    (h : Queue (some ⟨c, id, lane⟩) k (.forward c id lane msg :: rest)) :
    isStale id msg = false := by
  rw [isStale.eq_def, h.id_of_forward]
  cases id with
  | none => rfl
  | some id => simp

/-- A job that forwards is done: its message is acked, and the log goes on with its events. -/
theorem Tracks.forwarded {c : ℕ} {id : Option String} {msg : AudioMsg} {mode' : Option Mode}
    (h : Tracks plan s mode done (.forward c id lane msg :: rest))
    (hlog : t.log = s.log ++ Job.events done (.forward c id lane msg))
    (hacked : t.streams = { s.streams with acked := s.streams.acked ++ [(lane, count lane done)] })
    (hconnections : t.connections = s.connections) (hqueue : Queue mode' s.connections rest) :
    Tracks plan t mode' (done ++ [.forward c id lane msg]) rest := by
  refine ⟨?_, ?_, fun lane' i ↦ ?_, fun lane' ↦ ?_, ?_⟩
  · rw [h.jobs, List.append_assoc, List.singleton_append]
  · rw [hlog, h.log, events_append, List.nil_append, events, events, List.append_nil]
  · rw [hacked, List.mem_append, h.acked, count_append, List.mem_singleton]
    by_cases hlane : lane' = lane
    · subst hlane
      have hone : count lane' [.forward c id lane' msg] = 1 := by simp [count, Job.onLane]
      rw [hone, Prod.mk.injEq, eq_self_iff_true, true_and]
      omega
    · have hzero : count lane' [.forward c id lane msg] = 0 := by
        simp [count, Job.onLane, Ne.symm hlane]
      rw [hzero, Prod.mk.injEq]
      simp [hlane]
  · rw [hacked]
    exact h.stored lane'
  · rw [hconnections]
    exact hqueue

/-- **In stream order**: a fetch that returns the first message not acked returns the next of the
lane. -/
theorem Tracks.deliver {seq : ℕ} {d : Delivery} (h : Tracks plan s mode done rest)
    (hseq : ∀ i < seq, (lane, i) ∈ s.streams.acked) (hd : s.streams.deliver lane seq = some d) :
    seq = count lane done ∧ ∃ msg, (rest.filterMap (Job.onLane lane)).head? = some msg ∧
      d = ⟨lane, count lane done, msg⟩ := by
  rw [Streams.deliver] at hd
  split at hd
  · contradiction
  · rename_i hnot
    have heq : seq = count lane done := by
      have hle : ¬ seq < count lane done := fun hlt ↦ hnot ((h.acked lane seq).2 hlt)
      have hge : ¬ count lane done < seq := fun hlt ↦
        Nat.lt_irrefl _ ((h.acked lane _).1 (hseq _ hlt))
      omega
    obtain ⟨msg, hmsg, rfl⟩ := Option.map_eq_some_iff.1 hd
    refine ⟨heq, msg, ?_, by rw [heq]⟩
    have hrecorded : (recorded plan lane)[seq]? = some msg := by
      obtain ⟨later, hlater⟩ := h.stored lane
      rw [← hlater, List.getElem?_append_left (List.getElem?_eq_some_iff.1 hmsg).1]
      exact hmsg
    rw [← onLane_jobs lane 0, h.jobs, List.filterMap_append,
      List.getElem?_append_right (Nat.le_of_eq heq.symm), heq, count, Nat.sub_self] at hrecorded
    rw [List.head?_eq_getElem?]
    exact hrecorded

/-! ### The loop -/

/-- A phase goes on, or ends because the process stops. -/
theorem position_fetchPhase (h : Within plan s lane) : Position plan (fetchPhase s lane false) := by
  obtain ⟨hopen, done, rest, htracks⟩ := h
  rw [fetchPhase, if_neg Bool.false_ne_true]
  split
  · rename_i hleft
    have hstop : s.stopEvent = true := hleft.elim hopen id
    have hclosing : endPhase s lane false = s.goto (.closing false) := by
      cases lane with
      | backfill => rw [endPhase, if_neg (by simp)]
      | live => rfl
    rw [hclosing]
    exact ⟨Or.inr ⟨hstop, _, done, rest, htracks.congr rfl rfl rfl⟩, rfl⟩
  · exact ⟨hopen, done, rest, htracks.congr rfl rfl rfl⟩

/-- `_send_msgs` with the message of the job at the head. -/
theorem position_sendMsgs {msg : AudioMsg} (hopen : s.Open)
    (h : Tracks plan s (some (s.mode lane)) done
      (.forward s.session.connection s.session.id lane msg :: rest)) :
    Position plan (sendMsgs s lane [⟨lane, count lane done, msg⟩] .ok) := by
  have hfresh : isStale s.session.id msg = false := not_stale h.queue
  rw [sendMsgs, if_neg (by rw [hfresh]; exact Bool.false_ne_true)]
  split
  · -- An EOS marker is acked: the session goes on with its live audio, or is over.
    rename_i heos
    have hevents : Job.events done (.forward s.session.connection s.session.id lane msg) =
        [.acked ⟨lane, count lane done, msg⟩ s.session.id] := if_pos heos
    cases lane with
    | backfill => exact ⟨⟨hopen, _, rest, h.forwarded (congrArg _ hevents.symm) rfl rfl
        (h.queue.of_backfillEos heos)⟩, rfl⟩
    | live => exact ⟨⟨_, rest, h.forwarded (congrArg _ hevents.symm) rfl rfl
        (h.queue.of_liveEos heos)⟩, rfl⟩
  · rename_i heos
    exact ⟨⟨hopen, done, rest, msg, h.congr rfl rfl rfl, rfl, Bool.eq_false_iff.2 heos⟩, rfl, rfl⟩

/-- `send_audio` returned, and the message is acked. -/
theorem within_ackSent {d : Delivery} (h : Sending plan s lane d) :
    Within plan (ackSent s lane d [] .ok) lane := by
  obtain ⟨hopen, done, rest, msg, htracks, rfl, heos⟩ := h
  have hevents : Job.events done (.forward s.session.connection s.session.id lane msg) =
      [.sent ⟨lane, count lane done, msg⟩ s.session.connection,
        .acked ⟨lane, count lane done, msg⟩ s.session.id] :=
    if_neg (by rw [heos]; exact Bool.false_ne_true)
  refine ⟨hopen, _, rest, htracks.forwarded ?_ rfl rfl (htracks.queue.of_chunk heos)⟩
  rw [hevents]
  exact List.append_assoc _ _ _

/-- A message that is sent is acked next, and one that is acked is behind the loop. -/
theorem position_sendStep {pc : SendPc} (hpc : s.pc = .forwarding lane pc) (h : Position plan s) :
    Position plan (sendStep s lane pc .ok) := by
  rw [Position, hpc] at h
  cases pc with
  | sending d rest raised =>
    obtain ⟨hsending, rfl, rfl⟩ := h
    exact ⟨within_ackSent hsending, rfl, rfl⟩
  | acking rest raised =>
    obtain ⟨hwithin, rfl, rfl⟩ := h
    exact position_fetchPhase hwithin
  | ending raised =>
    cases lane with
    | backfill =>
      obtain ⟨⟨hopen, done, rest, htracks⟩, rfl⟩ := h
      have hopen' : (s.session.dgClosed || decide (Lane.backfill = Lane.live)) = true →
          s.stopEvent = true := by
        rw [decide_eq_false (by simp), Bool.or_false]
        exact hopen
      rw [sendStep, fetchPhase, if_pos rfl, endPhase]
      split
      · exact ⟨hopen', done, rest, htracks.congr rfl rfl rfl⟩
      · rename_i hend
        refine ⟨Or.inr ⟨?_, _, done, rest, htracks.congr rfl rfl rfl⟩, rfl⟩
        by_contra hstop
        exact hend ⟨rfl, fun hclosed ↦ hstop (hopen' hclosed), hstop⟩
    | live =>
      obtain ⟨⟨done, rest, htracks⟩, rfl⟩ := h
      exact ⟨Or.inl ⟨done, rest, htracks.congr rfl rfl rfl⟩, rfl⟩
  | skipping rest raised => cases lane <;> exact absurd h id
  | reporting => cases lane <;> exact absurd h id

/-- A session begins with the message that announced it. -/
theorem position_beginSession {id : Option String} {first : List Delivery}
    (h : Beginning plan s id first) : Position plan (beginSession s id first .ok) := by
  obtain ⟨done, rest, msg, htracks, rfl⟩ := h
  have hcount : count .backfill done = count .backfill (done ++ [.connect s.connections]) := by
    rw [count_append]
    rfl
  have hbegun : Tracks plan { s with
      session := { id := id, connection := s.connections }
      connections := s.connections + 1
      log := s.log ++ [.connected s.connections] } (some ⟨s.connections, id, .backfill⟩)
      (done ++ [.connect s.connections]) (.forward s.connections id .backfill msg :: rest) := by
    refine ⟨?_, ?_, fun lane i ↦ ?_, htracks.stored, htracks.queue.of_connect⟩
    · rw [htracks.jobs, List.append_assoc]
      rfl
    · rw [htracks.log, events_append]
      rfl
    · rw [htracks.acked, count_append]
      exact Iff.rfl
  rw [beginSession, hcount]
  exact position_sendMsgs (fun hclosed ↦ by cases hclosed) hbegun

theorem position_nextSession (h : Between plan s) : Position plan (nextSession s) := by
  obtain ⟨done, rest, htracks⟩ := h
  rw [nextSession]
  split
  · exact ⟨_, done, rest, htracks.congr rfl rfl rfl⟩
  · exact ⟨done, rest, htracks.congr rfl rfl rfl⟩

end Steps

/-! ### Runs -/

/-- Nothing fails: the messages arrive as they are recorded, a fetch returns the first message that
is not acked, calls succeed, and the connection stays open while its session lasts. -/
def flawless (plan : List Recording) (s : State) : Action → Bool
  | .arrive lane msg => (recorded plan lane)[(s.streams.lane lane).length]? = some msg
  | .fetched seq r =>
    r = .ok && s.pc.fetches.all fun lane ↦ ∀ i < seq, s.streams.acked.contains (lane, i)
  | .resume _ r => r = .ok
  | .dgClosed => !s.pc.inSession || s.stopEvent
  | .restart => false
  | _ => true

section Runs

variable {plan : List Recording} {s t : State}

/-- The message a fetch returns is that of the job at the head. -/
theorem position_fetched {seq : ℕ} {lane : Lane} {d : Delivery} (h : Within plan s lane)
    (hseq : ∀ i < seq, (lane, i) ∈ s.streams.acked) (hd : s.streams.deliver lane seq = some d) :
    Position plan (sendMsgs s lane [d] .ok) := by
  obtain ⟨hopen, done, rest, htracks⟩ := h
  obtain ⟨-, msg, hhead, rfl⟩ := htracks.deliver hseq hd
  obtain ⟨rest', rfl⟩ := htracks.queue.head hhead
  exact position_sendMsgs hopen htracks

/-- The first message of a lane that is not acked: it announces the next session. -/
theorem position_announced {seq : ℕ} {d : Delivery} (h : Between plan s)
    (hseq : ∀ i < seq, (Lane.backfill, i) ∈ s.streams.acked)
    (hd : s.streams.deliver .backfill seq = some d) :
    Position plan (s.goto (if s.stopEvent then .ended
      else .connecting (sessionIdFromSubject d.msg.subject) [d])) := by
  obtain ⟨done, rest, htracks⟩ := h
  obtain ⟨-, msg, hhead, rfl⟩ := htracks.deliver hseq hd
  split
  · exact ⟨_, done, rest, htracks.congr rfl rfl rfl⟩
  · obtain ⟨rest', rfl⟩ := htracks.queue.head_connect hhead
    exact ⟨done, rest', msg, htracks.congr rfl rfl rfl, rfl⟩

/-- The process stops in a session. -/
theorem position_closing (h : Within plan s lane) (hstop : s.stopEvent = true) :
    Position plan (s.goto (.closing false)) := by
  obtain ⟨-, done, rest, htracks⟩ := h
  exact ⟨Or.inr ⟨hstop, _, done, rest, htracks.congr rfl rfl rfl⟩, rfl⟩

/-- A step beside the loop: messages arrive, the process is told to stop, the connection closes. -/
theorem Position.congr (h : Position plan s) (hpc : t.pc = s.pc)
    (hmode : t.mode = s.mode) (hconnections : t.connections = s.connections)
    (hstop : s.stopEvent = true → t.stopEvent = true)
    (hopen : s.pc.inSession = true → s.Open → t.Open)
    (htracks : ∀ mode done rest, Tracks plan s mode done rest → Tracks plan t mode done rest) :
    Position plan t := by
  have hbetween : Between plan s → Between plan t := fun ⟨done, rest, h⟩ ↦
    ⟨done, rest, htracks _ _ _ h⟩
  have hwithin : ∀ lane, s.pc.inSession = true → Within plan s lane → Within plan t lane :=
    fun lane hin ⟨hs, done, rest, h⟩ ↦ ⟨hopen hin hs, done, rest, hmode ▸ htracks _ _ _ h⟩
  have hin : ∀ {pc : Pc}, s.pc = pc → pc.inSession = true → s.pc.inSession = true := by
    rintro _ rfl hin
    exact hin
  rw [Position] at h ⊢
  rw [hpc]
  cases hs : s.pc with
  | forwarding lane pc =>
    rw [hs] at h
    cases pc with
    | sending d rest raised =>
      obtain ⟨⟨hs', done, rest', msg, h, hd⟩, hrest⟩ := h
      have hsession : t.session.connection = s.session.connection ∧ t.session.id = s.session.id :=
        ⟨congrArg Mode.connection (congrFun hmode lane), congrArg Mode.id (congrFun hmode lane)⟩
      refine ⟨⟨hopen (hin hs rfl) hs', done, rest', msg, ?_, hd⟩, hrest⟩
      rw [hmode, hsession.1, hsession.2]
      exact htracks _ _ _ h
    | acking rest raised => exact ⟨hwithin lane (hin hs rfl) h.1, h.2⟩
    | ending raised =>
      cases lane with
      | backfill => exact ⟨hwithin .live (hin hs rfl) h.1, h.2⟩
      | live => exact ⟨hbetween h.1, h.2⟩
    | skipping rest raised => cases lane <;> exact absurd h id
    | reporting => cases lane <;> exact absurd h id
  | connecting id first =>
    rw [hs] at h
    obtain ⟨done, rest, msg, h, hfirst⟩ := h
    refine ⟨done, rest, msg, ?_, hfirst⟩
    rw [hconnections]
    exact htracks _ _ _ h
  | closing raising =>
    rw [hs] at h
    refine ⟨h.1.imp hbetween ?_, h.2⟩
    exact fun ⟨hstop', mode, done, rest, h⟩ ↦ ⟨hstop hstop', mode, done, rest, htracks _ _ _ h⟩
  | ended =>
    rw [hs] at h
    obtain ⟨mode, done, rest, h⟩ := h
    exact ⟨mode, done, rest, htracks _ _ _ h⟩
  | failed =>
    rw [hs] at h
    exact h
  | subscribing =>
    rw [hs] at h
    exact hbetween h
  | waitingBackfill =>
    rw [hs] at h
    exact hbetween h
  | fetching lane =>
    rw [hs] at h
    exact hwithin lane (hin hs rfl) h
  | finalizing =>
    rw [hs] at h
    exact hwithin .live (hin hs rfl) h
  | flushing =>
    rw [hs] at h
    exact hwithin .live (hin hs rfl) h
  | waitingLive =>
    rw [hs] at h
    exact hwithin .live (hin hs rfl) h

/-- A message is stored as it is recorded. -/
theorem Tracks.store {mode : Option Mode} {done rest : List Job} {lane : Lane} {msg : AudioMsg}
    (h : Tracks plan s mode done rest)
    (hmsg : (recorded plan lane)[(s.streams.lane lane).length]? = some msg) :
    Tracks plan { s with streams := s.streams.store msg lane } mode done rest := by
  refine ⟨h.jobs, h.log, ?_, fun lane' ↦ ?_, h.queue⟩
  · cases lane <;> exact h.acked
  · obtain ⟨later, hlater⟩ := h.stored lane
    rw [← hlater, List.getElem?_append_right (Nat.le_refl _), Nat.sub_self] at hmsg
    cases later with
    | nil => contradiction
    | cons msg' later =>
      obtain rfl := Option.some.inj hmsg
      have hgrown : s.streams.lane lane ++ [msg'] <+: recorded plan lane :=
        ⟨later, by rw [← hlater, List.append_assoc]; rfl⟩
      cases lane <;> cases lane'
      · exact hgrown
      · exact h.stored .backfill
      · exact h.stored .live
      · exact hgrown

/-- **One step.** -/
theorem position_step {a : Action} (h : Position plan s) (hG : flawless plan s a = true)
    (ht : step s a = some t) : Position plan t := by
  have hkept := h
  rw [Position] at h
  have hfirst : ∀ {seq : ℕ} {r : Reply} {lane : Lane}, a = .fetched seq r →
      s.pc.fetches = some lane → r = .ok ∧ ∀ i < seq, (lane, i) ∈ s.streams.acked := by
    rintro seq r lane rfl hlane
    obtain ⟨hr, hseq⟩ := Bool.and_eq_true_iff.1 hG
    rw [hlane, Option.all_some] at hseq
    exact ⟨of_decide_eq_true hr, fun i hi ↦ List.contains_iff_mem.1 (of_decide_eq_true hseq i hi)⟩
  have hok : ∀ {ok : Bool} {r : Reply}, a = .resume ok r → r = .ok := by
    rintro ok r rfl
    exact of_decide_eq_true hG
  cases stepped_of_step ht with
  | arrive lane msg =>
    exact hkept.congr rfl rfl rfl id (fun _ hopen ↦ hopen) fun _ _ _ htracks ↦
      htracks.store (of_decide_eq_true hG)
  | announced hpc hd r =>
    obtain ⟨-, hseq⟩ := hfirst rfl (by rw [hpc]; rfl)
    rw [hpc] at h
    exact position_announced h hseq hd
  | fetched hpc hd r =>
    obtain ⟨rfl, hseq⟩ := hfirst rfl (by rw [hpc]; rfl)
    rw [hpc] at h
    exact position_fetched h hseq hd
  | fetchedLive hpc hd r =>
    obtain ⟨rfl, hseq⟩ := hfirst rfl (by rw [hpc]; rfl)
    rw [hpc] at h
    split
    · exact position_closing h ‹_›
    · exact position_fetched h hseq hd
  | idle hpc =>
    rw [hpc] at h
    exact position_nextSession h
  | unfetched hpc =>
    rw [hpc] at h
    exact position_fetchPhase h
  | unfetchedLive hpc =>
    rw [hpc] at h
    split
    · exact position_closing h ‹_›
    · exact hkept
  | subscribed hpc ok r =>
    rw [hpc] at h
    split
    · exact position_nextSession h
    · obtain ⟨done, rest, htracks⟩ := h
      exact ⟨_, done, rest, htracks.congr rfl rfl rfl⟩
  | connected hpc r =>
    obtain rfl := hok rfl
    rw [hpc] at h
    exact position_beginSession h
  | unconnected hpc r =>
    rw [hpc] at h
    split
    · obtain ⟨done, rest, msg, htracks, -⟩ := h
      exact ⟨_, done, _, htracks.congr rfl rfl rfl⟩
    · exact hkept
  | forwarded hpc ok r =>
    obtain rfl := hok rfl
    exact position_sendStep hpc hkept
  | finalized hpc ok r =>
    rw [hpc] at h
    obtain ⟨hopen, done, rest, htracks⟩ := h
    exact ⟨hopen, done, rest, htracks.congr rfl rfl rfl⟩
  | flushed hpc ok r =>
    rw [hpc] at h
    split
    · exact position_closing h ‹_›
    · obtain ⟨hopen, done, rest, htracks⟩ := h
      exact ⟨hopen, done, rest, htracks.congr rfl rfl rfl⟩
  | closed hpc ok r =>
    rw [hpc] at h
    obtain ⟨hbetween | ⟨hstop, mode, done, rest, htracks⟩, -⟩ := h
    · exact position_nextSession hbetween
    · rw [nextSession, if_pos hstop]
      exact ⟨mode, done, rest, htracks.congr rfl rfl rfl⟩
  | raised hpc ok r =>
    rw [hpc] at h
    cases h.2
  | dgClosed =>
    refine hkept.congr rfl rfl rfl id (fun hin _ _ ↦ ?_) fun _ _ _ htracks ↦
      htracks.congr rfl rfl rfl
    have hstop : (!s.pc.inSession || s.stopEvent) = true := hG
    rwa [hin, Bool.not_true, Bool.false_or] at hstop
  | stop =>
    exact hkept.congr rfl rfl rfl (fun _ ↦ rfl) (fun _ _ _ ↦ rfl) fun _ _ _ htracks ↦
      htracks.congr rfl rfl rfl
  | restart => contradiction

/-- In every flawless run. -/
theorem position_inductive (plan : List Recording) :
    system.Inductive (fun s a ↦ flawless plan s a = true) (Position plan) where
  init s hs := by
    obtain rfl : s = {} := hs
    refine ⟨[], jobs 0 plan, rfl, rfl, fun lane i ↦ ?_, fun lane ↦ ?_, queue_jobs 0 plan⟩
    · simp [count]
    · cases lane <;> exact List.nil_prefix
  step h hG ht := position_step h hG ht

end Runs

/-! ### What the jobs leave in the log -/

/-- What `send_audio` is called with. -/
def Event.payload : Event → Option Bytes
  | .sent d _ => some d.msg.data
  | _ => none

def Event.opened : Event → Option ℕ
  | .connected connection => some connection
  | _ => none

def Event.ackedDelivery : Event → Option Delivery
  | .acked d _ => some d
  | _ => none

def Job.payload : Job → Option Bytes
  | .forward _ _ _ msg => if msg.isEos then none else some msg.data
  | _ => none

def Job.opens : Job → Option ℕ
  | .connect connection => some connection
  | _ => none

section Log

/-- The payloads of the events are those of the jobs that are done. -/
theorem payload_events (done js : List Job) :
    (events done js).filterMap Event.payload = js.filterMap Job.payload := by
  induction js generalizing done with
  | nil => rfl
  | cons job js ih =>
    rw [events, List.filterMap_append, ih, List.filterMap_cons]
    cases job with
    | connect k => rfl
    | forward c id lane msg =>
      rw [Job.payload, Job.events]
      split <;> rfl

/-- So are the connections that were opened. -/
theorem opened_events (done js : List Job) :
    (events done js).filterMap Event.opened = js.filterMap Job.opens := by
  induction js generalizing done with
  | nil => rfl
  | cons job js ih =>
    rw [events, List.filterMap_append, ih, List.filterMap_cons]
    cases job with
    | connect k => rfl
    | forward c id lane msg =>
      simp only [Job.opens, Job.events]
      split <;> rfl

/-- A send is followed by its ack. -/
theorem acked_of_sent {done js : List Job} {pre post : List Event} {d : Delivery} {c : ℕ}
    (h : events done js = pre ++ .sent d c :: post) : ∃ id post', post = .acked d id :: post' := by
  induction js generalizing done pre with
  | nil => simp [events] at h
  | cons job js ih =>
    rw [events] at h
    cases job with
    | connect k =>
      cases pre with
      | nil => cases (List.cons.inj h).1
      | cons e pre => exact ih (List.cons.inj h).2
    | forward c' id lane msg =>
      simp only [Job.events] at h
      split at h
      · cases pre with
        | nil => cases (List.cons.inj h).1
        | cons e pre => exact ih (List.cons.inj h).2
      · cases pre with
        | nil =>
          obtain ⟨hsent, hpost⟩ := List.cons.inj h
          cases hsent
          exact ⟨id, _, hpost.symm⟩
        | cons e pre =>
          cases pre with
          | nil => cases (List.cons.inj (List.cons.inj h).2).1
          | cons e' pre => exact ih (List.cons.inj (List.cons.inj h).2).2

/-- The deliveries acked after some jobs are later ones of their lanes. -/
theorem count_le_of_acked {done js : List Job} {d : Delivery}
    (h : d ∈ (events done js).filterMap Event.ackedDelivery) : count d.lane done ≤ d.seq := by
  induction js generalizing done with
  | nil => contradiction
  | cons job js ih =>
    rw [events, List.filterMap_append, List.mem_append] at h
    rcases h with hhere | hlater
    · cases job with
      | connect k => contradiction
      | forward c id lane msg =>
        have hd : d = ⟨lane, count lane done, msg⟩ := by
          simp only [Job.events] at hhere
          split at hhere <;> exact List.mem_singleton.1 hhere
        subst hd
        exact Nat.le_refl _
    · have hle := ih hlater
      rw [count_append] at hle
      exact Nat.le_of_add_right_le hle

/-- No delivery is acked twice. -/
theorem nodup_acked (done js : List Job) :
    ((events done js).filterMap Event.ackedDelivery).Nodup := by
  induction js generalizing done with
  | nil => exact List.nodup_nil
  | cons job js ih =>
    rw [events, List.filterMap_append]
    cases job with
    | connect k => exact ih _
    | forward c id lane msg =>
      have hhere : ((Job.forward c id lane msg).events done).filterMap Event.ackedDelivery =
          [⟨lane, count lane done, msg⟩] := by
        simp only [Job.events]
        split <;> rfl
      rw [hhere]
      refine List.nodup_cons.2 ⟨fun hmem ↦ ?_, ih _⟩
      have hle := count_le_of_acked hmem
      have hone : count lane [Job.forward c id lane msg] = 1 := by simp [count, Job.onLane]
      rw [count_append, hone] at hle
      exact absurd hle (Nat.not_succ_le_self _)

/-- An event of the log comes from a job. -/
theorem exists_job_of_mem {done js : List Job} {e : Event} (he : e ∈ events done js) :
    ∃ job ∈ js, ∃ done', e ∈ job.events done' := by
  induction js generalizing done with
  | nil => contradiction
  | cons job js ih =>
    rw [events, List.mem_append] at he
    rcases he with hhere | hlater
    · exact ⟨job, List.mem_cons_self, done, hhere⟩
    · obtain ⟨job', hjob', hmem⟩ := ih hlater
      exact ⟨job', List.mem_cons_of_mem _ hjob', hmem⟩

/-- What was sent is of a job. -/
theorem mem_of_sent {done js : List Job} {d : Delivery} {c : ℕ} (h : .sent d c ∈ events done js) :
    ∃ id, .forward c id d.lane d.msg ∈ js := by
  obtain ⟨job, hjob, done', hmem⟩ := exists_job_of_mem h
  cases job with
  | connect k => cases List.mem_singleton.1 hmem
  | forward c' id lane msg =>
    simp only [Job.events] at hmem
    split at hmem
    · cases List.mem_singleton.1 hmem
    · rcases List.mem_cons.1 hmem with hsent | hacked
      · cases hsent
        exact ⟨id, hjob⟩
      · cases List.mem_singleton.1 hacked

/-- And so is what was acked. -/
theorem mem_of_acked {done js : List Job} {d : Delivery} {id : Option String}
    (h : .acked d id ∈ events done js) : ∃ c, .forward c id d.lane d.msg ∈ js := by
  obtain ⟨job, hjob, done', hmem⟩ := exists_job_of_mem h
  cases job with
  | connect k => cases List.mem_singleton.1 hmem
  | forward c id' lane msg =>
    simp only [Job.events] at hmem
    split at hmem
    · cases List.mem_singleton.1 hmem
      exact ⟨c, hjob⟩
    · rcases List.mem_cons.1 hmem with hsent | hacked
      · cases hsent
      · cases List.mem_singleton.1 hacked
        exact ⟨c, hjob⟩

end Log

/-! ### What the recordings ask for -/

/-- The messages of a lane carry its chunks. -/
theorem payload_messages (rec : Recording) (c : ℕ) (lane : Lane) :
    ((rec.messages lane).map (.forward c rec.sessionId lane)).filterMap Job.payload =
      (rec.chunks lane).map Chunk.data := by
  have hchunks : ∀ cs : List Chunk, ((cs.map (rec.message lane)).map
      (.forward c rec.sessionId lane)).filterMap Job.payload = cs.map Chunk.data := by
    intro cs
    induction cs with
    | nil => rfl
    | cons chunk cs ih =>
      have hpayload : (Job.forward c rec.sessionId lane (rec.message lane chunk)).payload =
          some chunk.data := if_neg (by rw [isEos_message]; exact Bool.false_ne_true)
      rw [List.map_cons, List.map_cons, List.filterMap_cons_some hpayload, ih, List.map_cons]
  rw [Recording.messages, List.map_append, List.filterMap_append, hchunks]
  exact List.append_nil _

/-- The jobs carry the audio of the plan, in its order. -/
theorem payload_jobs (k : ℕ) (plan : List Recording) :
    (jobs k plan).filterMap Job.payload = plan.flatMap Recording.audio := by
  induction plan generalizing k with
  | nil => rfl
  | cons rec plan ih =>
    rw [jobs, List.filterMap_append, ih, List.flatMap_cons, Recording.jobs,
      List.filterMap_cons_none rfl, List.filterMap_append, payload_messages, payload_messages]
    rfl

/-- Each recording has a connection of its own, in turn. -/
theorem opens_jobs (k : ℕ) (plan : List Recording) :
    (jobs k plan).filterMap Job.opens = List.range' k plan.length := by
  induction plan generalizing k with
  | nil => rfl
  | cons rec plan ih =>
    have hone : (rec.jobs k).filterMap Job.opens = [k] := by
      have hconnect : (Job.connect k).opens = some k := rfl
      rw [Recording.jobs, List.filterMap_cons_some hconnect, List.filterMap_eq_nil_iff.2]
      intro job hjob
      rcases List.mem_append.1 hjob with hmem | hmem <;>
        · obtain ⟨msg, -, rfl⟩ := List.mem_map.1 hmem
          rfl
    rw [jobs, List.filterMap_append, ih, hone, List.length_cons, List.range'_succ]
    rfl

/-- A message is forwarded for the session it is of, on the connection of that session. -/
theorem mem_jobs {k c : ℕ} {id : Option String} {lane : Lane} {msg : AudioMsg}
    {plan : List Recording} (h : .forward c id lane msg ∈ jobs k plan) :
    ∃ i rec, plan[i]? = some rec ∧ c = k + i ∧ id = rec.sessionId ∧ msg ∈ rec.messages lane := by
  induction plan generalizing k with
  | nil => contradiction
  | cons rec plan ih =>
    rcases List.mem_append.1 h with hhere | hlater
    · refine ⟨0, rec, rfl, ?_⟩
      rcases List.mem_cons.1 hhere with hconnect | hforward
      · cases hconnect
      · rcases List.mem_append.1 hforward with hmem | hmem <;>
          · obtain ⟨msg', hmsg', hjob⟩ := List.mem_map.1 hmem
            cases hjob
            exact ⟨rfl, rfl, hmsg'⟩
    · obtain ⟨i, rec', hrec, hc, hrest⟩ := ih hlater
      exact ⟨i + 1, rec', hrec, by rw [hc]; omega, hrest⟩

/-! ### The result -/

/-- What `send_audio` has been called with, the call under way included. -/
def State.calls (s : State) : List Bytes :=
  s.log.filterMap Event.payload ++ match s.pc with
    | .forwarding _ (.sending d _ _) => [d.msg.data]
    | _ => []

/-- The sessions are sent in order, each on a connection of its own; every chunk is acked once,
right after it was sent; nothing is skipped; and nothing is left when the backfill is read to its
end and the loop waits for the next session. -/
structure CaughtUp (plan : List Recording) (s : State) : Prop where
  sends : s.calls <+: plan.flatMap Recording.audio
  acks : ∀ pre d c post, s.log = pre ++ .sent d c :: post →
    ∃ id post', post = .acked d id :: post' ∧ ∀ id', .acked d id' ∉ pre ∧ .acked d id' ∉ post'
  connections : ∃ m ≤ plan.length, s.log.filterMap Event.opened = List.range m
  session : ∀ d c, .sent d c ∈ s.log → ∃ rec, plan[c]? = some rec ∧ d.msg ∈ rec.messages d.lane
  fresh : ∀ d id, .acked d id ∈ s.log → isStale id d.msg = false
  complete : s.pc = .waitingBackfill →
    (∀ i < (recorded plan .backfill).length, (.backfill, i) ∈ s.streams.acked) →
      s.calls = plan.flatMap Recording.audio

section Result

variable {plan : List Recording} {s : State}

/-- The loop is in front of some job. -/
theorem Position.tracks (h : Position plan s) : ∃ mode done rest, Tracks plan s mode done rest := by
  have hbetween : Between plan s → ∃ mode done rest, Tracks plan s mode done rest :=
    fun ⟨done, rest, h⟩ ↦ ⟨_, done, rest, h⟩
  have hwithin : ∀ lane, Within plan s lane → ∃ mode done rest, Tracks plan s mode done rest :=
    fun _ ⟨_, done, rest, h⟩ ↦ ⟨_, done, rest, h⟩
  rw [Position] at h
  split at h
  · exact hbetween h
  · exact hbetween h
  · obtain ⟨done, rest, msg, h, -⟩ := h
    exact ⟨_, done, _, h⟩
  · obtain ⟨⟨-, done, rest, msg, h, -⟩, -⟩ := h
    exact ⟨_, done, _, h⟩
  · exact hwithin _ h.1
  · exact hwithin _ h.1
  · exact hbetween h.1
  · exact absurd h id
  · exact hwithin _ h
  · exact hwithin _ h
  · exact hwithin _ h
  · exact hwithin _ h
  · exact h.1.elim hbetween And.right
  · exact h
  · exact absurd h id

theorem Tracks.payload {mode : Option Mode} {done rest : List Job}
    (h : Tracks plan s mode done rest) :
    s.log.filterMap Event.payload = done.filterMap Job.payload ∧
      plan.flatMap Recording.audio = done.filterMap Job.payload ++ rest.filterMap Job.payload := by
  rw [h.log, payload_events, ← payload_jobs 0, h.jobs, List.filterMap_append]
  exact ⟨rfl, rfl⟩

/-- The call under way is that of the job at the head. -/
theorem prefix_calls (h : Position plan s) : s.calls <+: plan.flatMap Recording.audio := by
  rw [State.calls]
  split
  · rename_i lane d rest raised hpc
    rw [Position, hpc] at h
    obtain ⟨⟨-, done, rest', msg, htracks, rfl, heos⟩, -⟩ := h
    have hpayload : (Job.forward s.session.connection s.session.id lane msg).payload =
        some msg.data := if_neg (by rw [heos]; exact Bool.false_ne_true)
    rw [htracks.payload.1, htracks.payload.2, List.filterMap_cons_some hpayload]
    exact List.prefix_append_right_inj _ |>.2 ⟨_, rfl⟩
  · obtain ⟨mode, done, rest, htracks⟩ := h.tracks
    rw [List.append_nil, htracks.payload.1, htracks.payload.2]
    exact List.prefix_append _ _

/-- A queue between two sessions with no backfill left is empty. -/
theorem Queue.eq_nil {k : ℕ} {rest : List Job} (h : Queue none k rest)
    (hnone : count .backfill rest = 0) : rest = [] := by
  cases h with
  | empty => rfl
  | connect h =>
    cases h with
    | chunk _ _ _ => simp [count, Job.onLane] at hnone
    | backfillEos _ _ _ => simp [count, Job.onLane] at hnone

/-- When all of the plan's messages are acked all of its audio was sent. -/
theorem calls_complete (h : Position plan s) (hpc : s.pc = .waitingBackfill)
    (hacked : ∀ i < (recorded plan .backfill).length, (.backfill, i) ∈ s.streams.acked) :
    s.calls = plan.flatMap Recording.audio := by
  rw [Position, hpc] at h
  obtain ⟨done, rest, htracks⟩ := h
  have hlength :
    (recorded plan .backfill).length = count .backfill done + count .backfill rest := by
    rw [← onLane_jobs .backfill 0, htracks.jobs, ← count_append]
    rfl
  have hnone : count .backfill rest = 0 := by
    by_contra hsome
    have hlast := (htracks.acked .backfill _).1 (hacked (count .backfill done) (by omega))
    exact Nat.lt_irrefl _ hlast
  rw [State.calls, hpc, htracks.payload.1, htracks.payload.2, htracks.queue.eq_nil hnone]
  rfl

end Result

/-- **Catch-up is complete and in order**, in every run in which nothing fails. -/
theorem catches_up {plan : List Recording} {s : State}
    (h : system.Reachable (fun s a ↦ flawless plan s a = true) s) : CaughtUp plan s := by
  have hposition : Position plan s := (position_inductive plan).reachable h
  obtain ⟨mode, done, rest, htracks⟩ := hposition.tracks
  have hdone : ∀ job ∈ done, job ∈ jobs 0 plan := fun job hjob ↦ by
    rw [htracks.jobs]
    exact List.mem_append_left _ hjob
  refine ⟨prefix_calls hposition, fun pre d c post hlog ↦ ?_, ?_, fun d c hsent ↦ ?_,
    fun d id hacked ↦ ?_, calls_complete hposition⟩
  · obtain ⟨id, post', rfl⟩ := acked_of_sent (htracks.log.symm.trans hlog)
    have hnodup := nodup_acked [] done
    rw [← htracks.log, hlog, List.filterMap_append] at hnodup
    obtain ⟨-, hlater, hne⟩ := List.nodup_append.1 hnodup
    refine ⟨id, post', rfl, fun id' ↦ ⟨fun hmem ↦ ?_, fun hmem ↦ ?_⟩⟩
    · exact hne d (List.mem_filterMap.2 ⟨_, hmem, rfl⟩) d List.mem_cons_self rfl
    · exact (List.nodup_cons.1 hlater).1 (List.mem_filterMap.2 ⟨_, hmem, rfl⟩)
  · have hopened : done.filterMap Job.opens <+: List.range plan.length := by
      rw [List.range_eq_range', ← opens_jobs 0, htracks.jobs, List.filterMap_append]
      exact List.prefix_append _ _
    refine ⟨min (done.filterMap Job.opens).length plan.length, Nat.min_le_right _ _, ?_⟩
    rw [htracks.log, opened_events, ← List.take_range]
    exact List.prefix_iff_eq_take.1 hopened
  · rw [htracks.log] at hsent
    obtain ⟨id, hmem⟩ := mem_of_sent hsent
    obtain ⟨i, rec, hrec, rfl, -, hmsg⟩ := mem_jobs (hdone _ hmem)
    exact ⟨rec, by rwa [Nat.zero_add], hmsg⟩
  · rw [htracks.log] at hacked
    obtain ⟨c, hmem⟩ := mem_of_acked hacked
    obtain ⟨i, rec, hrec, -, rfl, hmsg⟩ := mem_jobs (hdone _ hmem)
    exact isStale_of_mem rec hmsg

/-- Two sessions with a chunk on each lane. -/
def twoRecordings : List Recording :=
  [⟨"20260301-100000", [⟨none, [1, 0], rfl⟩], [⟨none, [2, 0], rfl⟩]⟩,
    ⟨"20260301-110000", [⟨none, [3, 0], rfl⟩], [⟨none, [4, 0], rfl⟩]⟩]

/-- Everything is stored before the loop subscribes. -/
def storedBefore (plan : List Recording) : List Action :=
  ([.backfill, .live] : List Lane).flatMap fun lane ↦
    (recorded plan lane).map fun msg ↦ .arrive lane msg

/-- A session with a chunk on each lane, from its first backfill message on; the fetches of its live
chunk and of the backfill after it time out once. -/
def caughtUpSession (seq : ℕ) : List Action :=
  [.fetched seq .ok, .resume true .ok, .resume true .ok, .resume true .ok, .fetched (seq + 1) .ok,
    .resume true .ok, .resume true .ok, .resume true .ok, .unfetched, .fetched seq .ok,
    .resume true .ok, .resume true .ok, .fetched (seq + 1) .ok, .resume true .ok, .resume true .ok,
    .unfetched]

/-- Two sessions that were queued up, caught up on. -/
theorem catches_up_two :
    ∃ s, system.Reachable (fun s a ↦ flawless twoRecordings s a = true) s ∧
      s.calls = [[1, 0], [2, 0], [3, 0], [4, 0]] ∧ CaughtUp twoRecordings s := by
  obtain ⟨s, hs, htest⟩ := TransitionSystem.exists_reachable_of_exec
    (M := system) (G := fun s a ↦ flawless twoRecordings s a = true) {}
    (storedBefore twoRecordings ++ [.resume true .ok] ++ caughtUpSession 0 ++ caughtUpSession 2)
    (fun s ↦ decide (s.calls = [[1, 0], [2, 0], [3, 0], [4, 0]])) rfl (by decide +kernel)
  exact ⟨s, hs, of_decide_eq_true htest, catches_up hs⟩

end LiveSTT.SttProvider
