import LiveSTT.SttProvider.AckAfterSend
import LiveSTT.SttProvider.Transcript

/-!
# Which lane a transcript is of

The session loop and the drain task of its transcriber share three cells: `tag_holder`, which the
loop switches from backfill to live, `finalize_done`, on which it waits before it does, and
`dg_closed`. The drain task sets `finalize_done` at the first final event it gets, not at the answer
to `finalize()`. So the events of a session carry the lane of their audio in every run exactly if no
final event comes before that answer (`tagged_iff`): one that does lets the loop switch at once, and
the answer is tagged live.

The transcriber is the environment. A `Script` says what it makes of the audio of a session; when it
emits an event is in the labels, but not before it has heard what the event is made of.

Time is in the labels as well: the loop waits for `finalize_done` up to a limit, and a transcriber
that is late has its answer tagged by whatever the tag is then. The main result is about the runs in
which it is not (`inTime`), and its one condition is on the script.
-/

namespace LiveSTT.SttProvider.Drain

open TransitionSystem (Run)

/-! ### The transcriber -/

/-- `TranscriptionEvent`. -/
structure TranscriptionEvent where
  text : String
  isFinal : Bool
  confidence : ℚ
  deriving DecidableEq

/-- What a transcriber emits for a session, in audio order: events made of the backfill, the answer
to `finalize()`, events made of the live audio. -/
structure Script where
  backfill : List TranscriptionEvent
  answer : TranscriptionEvent
  live : List TranscriptionEvent
  isFinal : answer.isFinal = true

namespace Script

variable (script : Script)

def events : List TranscriptionEvent := script.backfill ++ script.answer :: script.live

/-- The lane the `i`-th event is of. -/
def lane (i : ℕ) : Lane := if i ≤ script.backfill.length then .backfill else .live

end Script

/-! ### The state -/

/-- A transcript as it is published: a final one on the stream, an interim one on core NATS. -/
structure Publication where
  subject : String
  payload : TranscriptPayload

/-- What `_drain_events` makes of an event. -/
def publication (e : TranscriptionEvent) (tag : Lane) (timestamp : String) : Publication where
  subject := (if e.isFinal then "transcript.raw" else "transcript.interim") ++ "." ++ tag.tag
  payload := ⟨e.text, e.isFinal, e.confidence, timestamp, tag⟩

/-- Where `_drain_events` is suspended. -/
inductive DrainPc
  /-- At the queue of the transcriber. -/
  | waiting
  | publishing
  /-- Returned or cancelled, or there is no session. -/
  | done
  deriving DecidableEq

/-- The session loop with the drain task and the transcriber of its session. -/
structure State where
  loop : SttProvider.State := {}
  tagHolder : Lane := .backfill
  finalizeDone : Bool := false
  drain : DrainPc := .done
  queue : List TranscriptionEvent := []
  /-- The connection was closed, which is noted at the end of the queue. -/
  closed : Bool := false
  published : List Publication := []
  /-- The number of events emitted so far. -/
  emitted : ℕ := 0
  /-- The lanes whose audio the transcriber has been sent. -/
  heard : List Lane := []
  /-- `finalize()` was called. -/
  finalized : Bool := false

/-! ### The loop -/

/-- The lane of the chunk that is being sent. -/
def sendsOn : Pc → List Lane
  | .forwarding lane (.sending _ _ _) => [lane]
  | _ => []

def isFinalizing : Pc → Bool
  | .finalizing => true
  | _ => false

/-- A session has its transcriber until it is closed. -/
def hasTranscriber : Pc → Bool
  | .closing _ => true
  | pc => pc.inSession

/-- The loop has gone on. With a connection of its own, a session has a drain task and an event of
its own too; past `_close_transcriber` there is no drain task left. -/
def follow (s : State) (loop : SttProvider.State) : State :=
  if loop.connections = s.loop.connections then
    { s with
      loop := loop
      drain := if hasTranscriber loop.pc then s.drain else .done
      heard := s.heard ++ sendsOn loop.pc
      finalized := s.finalized || isFinalizing loop.pc }
  else { loop := loop, drain := .waiting, heard := sendsOn loop.pc }

/-- `_flush_backfill` after its wait. -/
def switchTag (s : State) : State :=
  if s.loop.session.dgClosed ∨ s.loop.stopEvent then s else { s with tagHolder := .live }

/-- The loop goes on. Its wait for `finalize_done` ends when that is set; `dg_closed` is set by the
drain task. -/
def loopStep (s : State) (a : SttProvider.Action) : Option State :=
  match s.loop.pc, a with
  | _, .dgClosed => none
  | .flushing, .resume ok r =>
    if s.finalizeDone then (SttProvider.step s.loop (.resume ok r)).map (follow (switchTag s))
    else none
  | _, a => (SttProvider.step s.loop a).map (follow s)

/-- The wait for `finalize_done` takes longer than 5 s. -/
def timeoutStep (s : State) : Option State :=
  match s.loop.pc with
  | .flushing =>
    if s.finalizeDone then none
    else (SttProvider.step s.loop (.resume true .ok)).map (follow (switchTag s))
  | _ => none

/-! ### The drain task -/

/-- `dg_closed.set()`, and the task returns. -/
def drainEnd (s : State) : State :=
  { s with
    drain := .done
    loop := { s.loop with session := { s.loop.session with dgClosed := true } } }

/-- An event is published under the tag that is held when it comes out of the queue. -/
def publishEvent (s : State) (e : TranscriptionEvent) (timestamp : String) (r : Reply) : State :=
  { s with
    finalizeDone := s.finalizeDone || e.isFinal
    published := if r.applied then s.published ++ [publication e s.tagHolder timestamp]
      else s.published
    drain := .publishing }

/-- `_drain_events`, resumed. -/
def drainEvents (s : State) (timestamp : String) (r : Reply) : Option State :=
  match s.drain with
  | .waiting =>
    match s.queue with
    | e :: queue =>
      if s.loop.stopEvent then some (drainEnd { s with queue := queue })
      else some (publishEvent { s with queue := queue } e timestamp r)
    | [] => if s.closed then some (drainEnd s) else none
  | .publishing => some { s with drain := .waiting }
  | .done => none

/-! ### The system -/

inductive Action
  | loop (a : SttProvider.Action)
  | timeout
  /-- The drain task goes on. -/
  | drain (timestamp : String) (r : Reply)
  /-- The transcriber emits its next event. -/
  | emit
  /-- The connection closes. -/
  | close

/-- The transcriber has heard what its next event is made of. -/
def Script.ready (script : Script) (s : State) : Bool :=
  if s.emitted < script.backfill.length then .backfill ∈ s.heard
  else if s.emitted = script.backfill.length then s.finalized
  else .live ∈ s.heard

def step (script : Script) (s : State) : Action → Option State
  | .loop a => loopStep s a
  | .timeout => timeoutStep s
  | .drain timestamp r => drainEvents s timestamp r
  | .emit =>
    if hasTranscriber s.loop.pc ∧ s.closed = false ∧ script.ready s then
      script.events[s.emitted]?.map fun e ↦
        { s with queue := s.queue ++ [e], emitted := s.emitted + 1 }
    else none
  | .close => some { s with closed := true }

/-- stt-provider, started; the transcriber of each session follows the script. -/
def system (script : Script) : TransitionSystem State Action where
  init s := s = {}
  step := step script

/-- The answer to `finalize()` comes in time, and what is published arrives. -/
def inTime (_ : State) : Action → Bool
  | .timeout => false
  | .drain _ r => r = .ok
  | _ => true

/-- The events are published in order, each with the lane of its audio, in its subject and its
`source`. -/
def Tagged (script : Script) (s : State) : Prop :=
  ∀ i p, s.published[i]? = some p → ∃ e timestamp, script.events[i]? = some e ∧
    p = publication e (script.lane i) timestamp

/-! ### What a step of the loop can do -/

/-- The lane the loop reads in a session. -/
def laneOf : Pc → Option Lane
  | .forwarding lane _ => some lane
  | .fetching lane => some lane
  | .waitingLive => some .live
  | _ => none

/-- The loop is in `_flush_backfill`. -/
def flushes : Pc → Bool
  | .finalizing | .flushing => true
  | _ => false

/-- Where a phase leaves the loop: it goes on, the session is closed, or the backfill is flushed. -/
inductive Stops (lane : Lane) (t : SttProvider.State) : Prop
  | reads (h : laneOf t.pc = some lane) (hflush : flushes t.pc = false)
  | closes (h : laneOf t.pc = none) (hflush : flushes t.pc = false)
  | finalizes (h : laneOf t.pc = none) (hopen : t.session.dgClosed = false)

/-- A step in a phase. -/
structure Phase (lane : Lane) (s t : SttProvider.State) : Prop where
  connections : t.connections = s.connections
  stops : Stops lane t

/-- The live lane is read only after a flush, a flush begins with the connection open, and a
connection is made neither in a phase nor in a flush. -/
structure Moves (s t : SttProvider.State) : Prop where
  live : laneOf t.pc = some .live → laneOf s.pc = some .live ∨ s.pc = .flushing
  flush : flushes t.pc = true → t.session.dgClosed = true →
    flushes s.pc = true ∧ s.session.dgClosed = true
  connects : t.connections ≠ s.connections → laneOf s.pc = none ∧ flushes s.pc = false

section Loop

variable {s t : SttProvider.State} {lane : Lane} {r : Reply}

/-- The end of a phase leads to the next. -/
theorem phase_endPhase {eos : Bool} : Phase lane s (endPhase s lane eos) := by
  cases lane with
  | live => exact ⟨rfl, Stops.closes rfl rfl⟩
  | backfill =>
    rw [endPhase]
    split
    · rename_i hend
      exact ⟨rfl, Stops.finalizes rfl (Bool.not_eq_true _ ▸ hend.2.1)⟩
    · exact ⟨rfl, Stops.closes rfl rfl⟩

theorem phase_fetchPhase {eos : Bool} : Phase lane s (fetchPhase s lane eos) := by
  rw [fetchPhase]
  split
  · exact phase_endPhase
  · split
    · exact phase_endPhase
    · exact ⟨rfl, Stops.reads rfl rfl⟩

theorem phase_ack {d : Delivery} {pc : SendPc} :
    Phase lane s (s.ack d r (.forwarding lane pc)) := by
  rw [State.ack]
  split <;> exact ⟨rfl, Stops.reads rfl rfl⟩

/-- A batch is of the phase it was fetched in. -/
theorem phase_sendMsgs {msgs : List Delivery} : Phase lane s (sendMsgs s lane msgs r) := by
  cases msgs with
  | nil => exact phase_fetchPhase
  | cons d rest =>
    rw [sendMsgs]
    split
    · exact phase_ack
    · split
      · exact phase_ack
      · exact ⟨rfl, Stops.reads rfl rfl⟩

theorem phase_ackSent {d : Delivery} {rest : List Delivery} :
    Phase lane s (ackSent s lane d rest r) := by
  obtain ⟨hconnections, hstops⟩ :
    Phase lane { s with log := s.log ++ [.sent d s.session.connection] }
    (ackSent s lane d rest r) := phase_ack
  exact ⟨hconnections, hstops⟩

theorem phase_ended {eos closed : Bool} : Phase lane s (fetchPhase
    { s with session := { s.session with dgClosed := closed } } lane eos) := by
  obtain ⟨hconnections, hstops⟩ :
    Phase lane { s with session := { s.session with dgClosed := closed } }
    (fetchPhase { s with session := { s.session with dgClosed := closed } } lane eos) :=
    phase_fetchPhase
  exact ⟨hconnections, hstops⟩

/-- So is each of its sends. -/
theorem phase_sendStep {pc : SendPc} : Phase lane s (sendStep s lane pc r) := by
  rcases pc with ⟨rest, - | -⟩ | ⟨- | -⟩ | ⟨d, rest, - | -⟩ | ⟨rest, - | -⟩ | -
  · exact phase_sendMsgs
  · exact ⟨rfl, Stops.closes rfl rfl⟩
  · exact phase_ended
  · exact ⟨rfl, Stops.closes rfl rfl⟩
  · exact phase_ackSent
  · exact ⟨rfl, Stops.reads rfl rfl⟩
  · exact phase_sendMsgs
  · exact ⟨rfl, Stops.reads rfl rfl⟩
  · exact phase_ended

/-- A session begins with the backfill. -/
theorem stops_beginSession {id : Option String} {first : List Delivery} :
    Stops .backfill (beginSession s id first r) :=
  phase_sendMsgs.stops

/-- Where the lane of a phase comes from. -/
theorem Stops.moves (h : Stops lane t) (hlane : lane = .live → laneOf s.pc = some .live)
    (hconnects : t.connections ≠ s.connections → laneOf s.pc = none ∧ flushes s.pc = false) :
    Moves s t := by
  cases h with
  | reads h hflush =>
    refine ⟨fun hlive ↦ Or.inl (hlane ?_), fun hf ↦ ?_, hconnects⟩
    · exact Option.some.inj (h.symm.trans hlive)
    · cases hflush.symm.trans hf
  | closes h hflush =>
    refine ⟨fun hlive ↦ ?_, fun hf ↦ ?_, hconnects⟩
    · cases h.symm.trans hlive
    · cases hflush.symm.trans hf
  | finalizes h hopen =>
    refine ⟨fun hlive ↦ ?_, fun _ hclosed ↦ ?_, hconnects⟩
    · cases h.symm.trans hlive
    · cases hopen.symm.trans hclosed

theorem Phase.moves (h : Phase lane s t) (hpc : laneOf s.pc = some lane) : Moves s t :=
  h.stops.moves (fun hlane ↦ hlane ▸ hpc) fun hne ↦ absurd h.connections hne

/-- A step to an await at which nothing is read. -/
theorem Moves.of_pc (hlane : laneOf t.pc = none) (hflush : flushes t.pc = false)
    (hconnections : t.connections = s.connections) : Moves s t := by
  have hstops : Stops .backfill t := Stops.closes hlane hflush
  exact hstops.moves (fun h ↦ by contradiction) fun hne ↦ absurd hconnections hne

theorem Moves.of_eq (hpc : t.pc = s.pc) (hclosed : t.session.dgClosed = s.session.dgClosed)
    (hconnections : t.connections = s.connections) : Moves s t :=
  ⟨fun hlive ↦ Or.inl (hpc ▸ hlive), fun hf hc ↦ ⟨hpc ▸ hf, hclosed ▸ hc⟩,
    fun hne ↦ absurd hconnections hne⟩

theorem moves_nextSession : Moves s (nextSession s) := by
  rw [nextSession]
  split <;> exact Moves.of_pc rfl rfl rfl

/-- Every step of the loop stays in its phase, goes on to the next or ends the session. -/
theorem moves_step {a : SttProvider.Action} (ha : a ≠ .dgClosed)
    (ht : SttProvider.step s a = some t) : Moves s t := by
  cases stepped_of_step ht with
  | arrive => exact Moves.of_eq rfl rfl rfl
  | announced => split <;> exact Moves.of_pc rfl rfl rfl
  | fetched hpc => exact phase_sendMsgs.moves (by rw [hpc]; rfl)
  | fetchedLive hpc =>
    split
    · exact Moves.of_pc rfl rfl rfl
    · exact phase_sendMsgs.moves (by rw [hpc]; rfl)
  | idle => exact moves_nextSession
  | unfetched hpc => exact phase_fetchPhase.moves (by rw [hpc]; rfl)
  | unfetchedLive =>
    split
    · exact Moves.of_pc rfl rfl rfl
    · exact Moves.of_eq rfl rfl rfl
  | subscribed =>
    split
    · exact moves_nextSession
    · exact Moves.of_pc rfl rfl rfl
  | connected hpc =>
    exact stops_beginSession.moves (fun h ↦ by contradiction) fun _ ↦ by rw [hpc]; exact ⟨rfl, rfl⟩
  | unconnected =>
    split
    · exact Moves.of_pc rfl rfl rfl
    · exact Moves.of_eq rfl rfl rfl
  | forwarded hpc => exact phase_sendStep.moves (by rw [hpc]; rfl)
  | finalized hpc =>
    refine ⟨fun hlive ↦ ?_, fun _ hc ↦ ⟨?_, hc⟩, fun hne ↦ absurd rfl hne⟩
    · cases hlive
    · rw [hpc]
      rfl
  | flushed hpc =>
    refine ⟨fun _ ↦ Or.inr hpc, fun hf ↦ ?_, fun hne ↦ absurd rfl hne⟩
    revert hf
    split <;> exact fun hf ↦ by cases hf
  | closed => exact moves_nextSession
  | raised => exact Moves.of_pc rfl rfl rfl
  | dgClosed => exact absurd rfl ha
  | stop => exact Moves.of_eq rfl rfl rfl
  | restart => exact Moves.of_pc rfl rfl rfl

/-- The flush ends in a step of its own. -/
theorem laneOf_of_flushing {a : SttProvider.Action} (hpc : s.pc = .flushing)
    (ha : ∀ ok r, a ≠ .resume ok r) (ht : SttProvider.step s a = some t) : laneOf t.pc = none := by
  have hnone : laneOf s.pc = none := by
    rw [hpc]
    rfl
  cases a with
  | fetched seq r => simp [SttProvider.step, hpc, Pc.fetches] at ht
  | unfetched => simp [SttProvider.step, unfetchedStep, hpc] at ht
  | resume ok r => exact absurd rfl (ha ok r)
  | restart =>
    obtain rfl := Option.some.inj ht
    rfl
  | _ =>
    obtain rfl := Option.some.inj ht
    exact hnone

end Loop

/-! ### The invariant -/

/-- The events that are out of the queue were published, and the tag is live exactly after the
answer to `finalize()`. -/
structure Tagging (script : Script) (s : State) : Prop where
  tagged : Tagged script s
  queue : s.drain ≠ .done → s.queue <+: script.events.drop s.published.length
  emitted : s.drain ≠ .done → s.emitted = s.published.length + s.queue.length
  /-- Nothing is made of live audio before the switch. -/
  early : s.drain ≠ .done → s.tagHolder = .backfill → s.emitted ≤ script.backfill.length + 1
  heard : .live ∈ s.heard → s.tagHolder = .live ∨ s.drain = .done
  phase : laneOf s.loop.pc = some .live → s.tagHolder = .live ∨ s.drain = .done
  finalizeDone : s.finalizeDone = true → script.backfill.length < s.published.length
  switched : s.tagHolder = .live → script.backfill.length < s.published.length
  /-- In a flush it is the drain task that notes a closed connection. -/
  flushing : flushes s.loop.pc = true → s.loop.session.dgClosed = true → s.drain = .done

section Steps

variable {script : Script} {s t : State}

/-- The loop goes on. -/
theorem tagging_follow (h : Tagging script s) {loop : SttProvider.State}
    (hmoves : Moves s.loop loop)
    (hlive : s.loop.pc = .flushing → laneOf loop.pc = some .live →
      s.tagHolder = .live ∨ s.drain = .done) : Tagging script (follow s loop) := by
  have hsends : ∀ pc, .live ∈ sendsOn pc → laneOf pc = some .live := by
    intro pc hmem
    rw [sendsOn.eq_def] at hmem
    split at hmem
    · rw [List.mem_singleton.1 hmem]
      rfl
    · contradiction
  rw [follow]
  split
  · have hkept : ∀ pc : Pc, s.drain = .done → (if hasTranscriber pc then s.drain else .done) =
        DrainPc.done := fun pc hd ↦ by rw [hd, ite_self]
    have hrunning : (if hasTranscriber loop.pc then s.drain else .done) ≠ DrainPc.done →
        s.drain ≠ .done := fun hne hd ↦ hne (hkept _ hd)
    have hphase : laneOf loop.pc = some .live → s.tagHolder = .live ∨ s.drain = .done := by
      intro hlane
      rcases hmoves.live hlane with hin | hpc
      · exact h.phase hin
      · exact hlive hpc hlane
    refine ⟨h.tagged, fun hd ↦ h.queue (hrunning hd), fun hd ↦ h.emitted (hrunning hd),
      fun hd ↦ h.early (hrunning hd), fun hmem ↦ ?_, fun hlane ↦ ?_, h.finalizeDone, h.switched,
      fun hf hc ↦ ?_⟩
    · rcases List.mem_append.1 hmem with hold | hnew
      · exact (h.heard hold).imp_right (hkept _)
      · exact (hphase (hsends _ hnew)).imp_right (hkept _)
    · exact (hphase hlane).imp_right (hkept _)
    · obtain ⟨hf', hc'⟩ := hmoves.flush hf hc
      exact hkept _ (h.flushing hf' hc')
  · -- A new connection: nothing was emitted yet, and the loop is in the backfill.
    rename_i hnew
    obtain ⟨hlane, hflush⟩ := hmoves.connects hnew
    have hnolive : laneOf loop.pc ≠ some .live := by
      intro hin
      rcases hmoves.live hin with hold | hpc
      · cases hlane.symm.trans hold
      · rw [hpc] at hflush
        cases hflush
    refine ⟨fun i p hp ↦ ?_, fun _ ↦ List.nil_prefix, fun _ ↦ rfl, fun _ _ ↦ Nat.zero_le _,
      fun hmem ↦ absurd (hsends _ hmem) hnolive, fun hin ↦ absurd hin hnolive, fun hdone ↦ ?_,
      fun htag ↦ ?_, fun hf hc ↦ ?_⟩
    · cases hp
    · cases hdone
    · cases htag
    · cases hflush.symm.trans (hmoves.flush hf hc).1

/-- `_flush_backfill` after its wait: the answer to `finalize()` is published by then. -/
theorem tagging_switchTag (h : Tagging script s)
    (hanswer : script.backfill.length < s.published.length) : Tagging script (switchTag s) := by
  rw [switchTag]
  split
  · exact h
  · exact ⟨h.tagged, h.queue, h.emitted, fun _ htag ↦ (by cases htag), fun _ ↦ Or.inl rfl,
      fun _ ↦ Or.inl rfl, h.finalizeDone, fun _ ↦ hanswer, h.flushing⟩

/-- The loop turns the tag at its flush, and the drain task is idle then if it is in time. -/
theorem tagging_loopStep (h : Tagging script s) {a : SttProvider.Action}
    (ht : loopStep s a = some t) : Tagging script t := by
  rw [loopStep.eq_def] at ht
  split at ht
  · contradiction
  · rename_i ok r hpc
    obtain ⟨hdone, hstep⟩ := Option.ite_none_right_eq_some.1 ht
    obtain ⟨loop, hloop, rfl⟩ := Option.map_eq_some_iff.1 hstep
    have hsame : (switchTag s).loop = s.loop := by
      rw [switchTag]
      split <;> rfl
    refine tagging_follow (tagging_switchTag h (h.finalizeDone hdone)) ?_ fun _ hlane ↦ ?_
    · rw [hsame]
      exact moves_step (by simp) hloop
    · -- The loop goes on to the live audio unless it stops; a closed connection was noted.
      have hgone :
        loop = s.loop.goto (if s.loop.stopEvent then .closing false else .waitingLive) := by
        rw [SttProvider.step, resumeStep, hpc] at hloop
        exact (Option.some.inj hloop).symm
      have hrunning : ¬ s.loop.stopEvent = true := by
        intro hstop
        rw [hgone, if_pos hstop] at hlane
        cases hlane
      rw [switchTag]
      split
      · rename_i hleft
        refine Or.inr (h.flushing (by rw [hpc]; rfl) (hleft.resolve_right hrunning))
      · exact Or.inl rfl
  · rename_i hclosed hflush
    obtain ⟨loop, hloop, rfl⟩ := Option.map_eq_some_iff.1 ht
    refine tagging_follow h (moves_step (fun ha ↦ hclosed ha) hloop) fun hpc hlane ↦ ?_
    have hnone := laneOf_of_flushing hpc (fun ok r ha ↦ hflush ok r hpc ha) hloop
    cases hnone.symm.trans hlane

/-- The drain task publishes an event. -/
theorem tagging_publishEvent (hearly : ∀ e ∈ script.backfill, e.isFinal = false)
    (h : Tagging script s) (hdrain : s.drain = .waiting) {e : TranscriptionEvent}
    {queue : List TranscriptionEvent} (hqueue : s.queue = e :: queue) {timestamp : String} :
    Tagging script (publishEvent { s with queue := queue } e timestamp .ok) := by
  have hne : s.drain ≠ .done := by rw [hdrain]; simp
  obtain ⟨rest, hrest⟩ := h.queue hne
  have hdrop : script.events.drop s.published.length = e :: (queue ++ rest) := by
    rw [← hrest, hqueue, List.cons_append]
  have he : script.events[s.published.length]? = some e := by
    rw [← List.head?_drop, hdrop]
    rfl
  have hlength : (s.published ++ [publication e s.tagHolder timestamp]).length =
      s.published.length + 1 := by simp
  have hemitted : s.emitted = s.published.length + (queue.length + 1) := by
    rw [h.emitted hne, hqueue, List.length_cons]
  -- The tag that is held is the lane of the event.
  have htag : s.tagHolder = script.lane s.published.length := by
    rw [Script.lane]
    cases hheld : s.tagHolder with
    | backfill =>
      have hle := h.early hne hheld
      rw [if_pos (by omega)]
    | live =>
      have hlt := h.switched hheld
      rw [if_neg (by omega)]
  have hlater : ∀ {P : Prop}, (P → script.backfill.length < s.published.length) → P →
      script.backfill.length <
        (s.published ++ [publication e s.tagHolder timestamp]).length := by
    intro P hP hp
    rw [hlength]
    exact Nat.lt_succ_of_lt (hP hp)
  refine ⟨fun i p hp ↦ ?_, fun _ ↦ ?_, fun _ ↦ ?_, fun _ ↦ h.early hne,
    fun hmem ↦ Or.inl ((h.heard hmem).resolve_right hne),
    fun hlane ↦ Or.inl ((h.phase hlane).resolve_right hne), fun hdone ↦ ?_, hlater h.switched,
    fun hf hc ↦ absurd (h.flushing hf hc) hne⟩
  · rcases Nat.lt_trichotomy i s.published.length with hlt | rfl | hgt
    · exact h.tagged i p (List.getElem?_append_left hlt ▸ hp)
    · have hlast : (s.published ++ [publication e s.tagHolder timestamp])[s.published.length]? =
          some p := hp
      rw [List.getElem?_concat_length] at hlast
      exact ⟨e, timestamp, he, by rw [← Option.some.inj hlast, htag]⟩
    · have hnone : (s.published ++ [publication e s.tagHolder timestamp])[i]? = none :=
        List.getElem?_eq_none (by rw [hlength]; exact hgt)
      cases hnone.symm.trans hp
  · show queue <+: script.events.drop (s.published ++ [publication e s.tagHolder timestamp]).length
    rw [hlength, ← List.tail_drop, hdrop]
    exact ⟨rest, rfl⟩
  · show s.emitted = (s.published ++ [publication e s.tagHolder timestamp]).length + queue.length
    rw [hlength, hemitted]
    omega
  · -- The first final event is the answer, or comes after it.
    rcases Bool.or_eq_true_iff.1 hdone with hold | hfinal
    · exact hlater h.finalizeDone hold
    · show script.backfill.length <
        (s.published ++ [publication e s.tagHolder timestamp]).length
      rw [hlength]
      by_contra hlt
      rw [Script.events, List.getElem?_append_left (by omega)] at he
      cases (hearly e (List.mem_of_getElem? he)).symm.trans hfinal

theorem tagging_drainEnd (h : Tagging script s) {queue : List TranscriptionEvent} :
    Tagging script (drainEnd { s with queue := queue }) :=
  ⟨h.tagged, fun hd ↦ absurd rfl hd, fun hd ↦ absurd rfl hd, fun hd ↦ absurd rfl hd,
    fun _ ↦ Or.inr rfl, fun _ ↦ Or.inr rfl, h.finalizeDone, h.switched, fun _ _ ↦ rfl⟩

/-- An event is published under the tag as it stands. -/
theorem tagging_drainEvents (hearly : ∀ e ∈ script.backfill, e.isFinal = false)
    (h : Tagging script s) {timestamp : String} (ht : drainEvents s timestamp .ok = some t) :
    Tagging script t := by
  rw [drainEvents.eq_def] at ht
  split at ht
  · rename_i hdrain
    split at ht
    · rename_i e queue hqueue
      split at ht <;> obtain rfl := Option.some.inj ht
      · exact tagging_drainEnd h
      · exact tagging_publishEvent hearly h hdrain hqueue
    · obtain ⟨-, ht⟩ := Option.ite_none_right_eq_some.1 ht
      obtain rfl := Option.some.inj ht
      exact tagging_drainEnd h
  · rename_i hdrain
    obtain rfl := Option.some.inj ht
    have hne : s.drain ≠ .done := by rw [hdrain]; simp
    exact ⟨h.tagged, fun _ ↦ h.queue hne, fun _ ↦ h.emitted hne, fun _ ↦ h.early hne,
      fun hmem ↦ Or.inl ((h.heard hmem).resolve_right hne),
      fun hlane ↦ Or.inl ((h.phase hlane).resolve_right hne), h.finalizeDone, h.switched,
      fun hf hc ↦ absurd (h.flushing hf hc) hne⟩
  · contradiction

/-- The transcriber emits an event: one of live audio only after the switch. -/
theorem tagging_emit (h : Tagging script s) (hready : script.ready s = true)
    {e : TranscriptionEvent} (he : script.events[s.emitted]? = some e) :
    Tagging script { s with queue := s.queue ++ [e], emitted := s.emitted + 1 } := by
  refine ⟨h.tagged, fun hne ↦ ?_, fun hne ↦ ?_, fun hne htag ↦ ?_, h.heard, h.phase, h.finalizeDone,
    h.switched, h.flushing⟩
  · obtain ⟨rest, hrest⟩ := h.queue hne
    rw [h.emitted hne, ← List.getElem?_drop, ← hrest, List.getElem?_append_right (Nat.le_refl _),
      Nat.sub_self] at he
    cases rest with
    | nil => cases he
    | cons e' rest =>
      obtain rfl := Option.some.inj he
      exact ⟨rest, by rw [← hrest, List.append_assoc]; rfl⟩
  · show s.emitted + 1 = s.published.length + (s.queue ++ [e]).length
    rw [h.emitted hne, List.length_append]
    rfl
  · show s.emitted + 1 ≤ script.backfill.length + 1
    rw [Script.ready] at hready
    split at hready
    · omega
    · split at hready
      · omega
      · rcases h.heard (of_decide_eq_true hready) with hlive | hdone
        · cases htag.symm.trans hlive
        · exact absurd hdone hne

/-- **One step.** -/
theorem tagging_step (hearly : ∀ e ∈ script.backfill, e.isFinal = false) {a : Action}
    (h : Tagging script s) (hG : inTime s a = true) (ht : step script s a = some t) :
    Tagging script t := by
  cases a with
  | loop a => exact tagging_loopStep h ht
  | timeout => contradiction
  | drain timestamp r =>
    obtain rfl : r = .ok := of_decide_eq_true hG
    exact tagging_drainEvents hearly h ht
  | emit =>
    obtain ⟨hready, ht⟩ := Option.ite_none_right_eq_some.1 ht
    obtain ⟨e, he, rfl⟩ := Option.map_eq_some_iff.1 ht
    exact tagging_emit h hready.2.2 he
  | close =>
    obtain rfl := Option.some.inj ht
    exact ⟨h.tagged, h.queue, h.emitted, h.early, h.heard, h.phase, h.finalizeDone, h.switched,
      h.flushing⟩

end Steps

/-- In every run that is in time, when the backfill has no final event. -/
theorem tagging_inductive {script : Script} (hearly : ∀ e ∈ script.backfill, e.isFinal = false) :
    (system script).Inductive (fun s a ↦ inTime s a = true) (Tagging script) where
  init s hs := by
    obtain rfl : s = {} := hs
    refine ⟨fun i p hp ↦ ?_, fun hd ↦ absurd rfl hd, fun hd ↦ absurd rfl hd, fun hd ↦ absurd rfl hd,
      fun _ ↦ Or.inr rfl, fun _ ↦ Or.inr rfl, fun hdone ↦ ?_, fun htag ↦ ?_, fun _ _ ↦ rfl⟩
    · cases hp
    · cases hdone
    · cases htag
  step h hG ht := tagging_step hearly h hG ht

/-! ### A final event before the answer -/

/-- The drain task waits, and everything emitted is published. -/
structure Idle (loop : SttProvider.State) (tag : Lane) (n : ℕ) (s : State) : Prop where
  loop : s.loop = loop
  tag : s.tagHolder = tag
  drain : s.drain = .waiting
  queue : s.queue = []
  closed : s.closed = false
  emitted : s.emitted = n
  published : s.published.length = n
  heard : .backfill ∈ s.heard
  finalized : s.finalized = true

section Mistagged

variable {script : Script} {s : State} {loop : SttProvider.State} {tag : Lane} {n : ℕ}

/-- One more event is emitted and published. -/
theorem exists_idle_succ (h : Idle loop tag n s) (hpc : hasTranscriber loop.pc = true)
    (hstop : loop.stopEvent = false) (hn : n ≤ script.backfill.length) {e : TranscriptionEvent}
    (he : script.events[n]? = some e) :
    ∃ as t, (system script).Run (fun s a ↦ inTime s a = true) s as t ∧ Idle loop tag (n + 1) t ∧
      t.finalizeDone = (s.finalizeDone || e.isFinal) ∧
      t.published = s.published ++ [publication e tag ""] := by
  have hready : script.ready s = true := by
    rw [Script.ready, h.emitted]
    split
    · exact decide_eq_true h.heard
    · rw [if_pos (by omega)]
      exact h.finalized
  have hemit : step script s .emit =
      some { s with queue := s.queue ++ [e], emitted := s.emitted + 1 } := by
    rw [step, if_pos ⟨h.loop ▸ hpc, h.closed, hready⟩, h.emitted, he]
    rfl
  have hdrain : step script
    { s with queue := s.queue ++ [e], emitted := s.emitted + 1 } (.drain "" .ok) =
      some (publishEvent { s with queue := [], emitted := s.emitted + 1 } e "" .ok) := by
    have hrunning : ¬ s.loop.stopEvent = true := by
      rw [h.loop, hstop]
      exact Bool.false_ne_true
    simp only [step, drainEvents, h.drain, h.queue, List.nil_append, if_neg hrunning]
  have hrun : (system script).Run (fun s a ↦ inTime s a = true) s
      ([.emit] ++ [.drain "" .ok] ++ [.drain "" .ok]) { s with
        queue := []
        emitted := s.emitted + 1
        finalizeDone := s.finalizeDone || e.isFinal
        published := s.published ++ [publication e s.tagHolder ""]
        drain := .waiting } :=
    Run.snoc (Run.snoc (Run.single (M := system script) rfl hemit) rfl hdrain) rfl rfl
  refine ⟨_, _, hrun, ⟨h.loop, h.tag, rfl, rfl, h.closed, congrArg (· + 1) h.emitted, ?_, h.heard,
    h.finalized⟩, rfl, ?_⟩
  · show (s.published ++ [publication e s.tagHolder ""]).length = n + 1
    rw [List.length_append, h.published]
    rfl
  · show s.published ++ [publication e s.tagHolder ""] = _
    rw [h.tag]

/-- All events of the backfill are emitted and published before the loop goes on. -/
theorem exists_idle (h : Idle loop tag 0 s) (hpc : hasTranscriber loop.pc = true)
    (hstop : loop.stopEvent = false) (hn : n ≤ script.backfill.length) :
    ∃ as t, (system script).Run (fun s a ↦ inTime s a = true) s as t ∧ Idle loop tag n t ∧
      ((∃ e ∈ script.backfill.take n, e.isFinal = true) → t.finalizeDone = true) := by
  induction n with
  | zero => exact ⟨[], s, Run.nil, h, fun ⟨e, he, _⟩ ↦ by cases he⟩
  | succ n ih =>
    obtain ⟨as, t, hrun, hidle, hdone⟩ := ih (by omega)
    have he : script.events[n]? = some (script.backfill.get ⟨n, by omega⟩) := by
      rw [Script.events, List.getElem?_append_left (by omega)]
      exact List.getElem?_eq_getElem _
    obtain ⟨bs, u, hrun', hidle', hdone', -⟩ := exists_idle_succ hidle hpc hstop (by omega) he
    refine ⟨as ++ bs, u, hrun.trans hrun', hidle', fun ⟨e, hmem, hfinal⟩ ↦ ?_⟩
    rw [hdone', Bool.or_eq_true_iff]
    rw [List.take_succ_eq_append_getElem (by omega), List.mem_append, List.mem_singleton] at hmem
    rcases hmem with hold | rfl
    · exact Or.inl (hdone ⟨e, hold, hfinal⟩)
    · exact Or.inr hfinal

/-- What does not depend on the script can be taken from one script to another. -/
theorem run_of_not_emit {script' : Script} {s t : State} {as : List Action}
    (h : (system script).Run (fun s a ↦ inTime s a = true) s as t) (has : .emit ∉ as) :
    (system script').Run (fun s a ↦ inTime s a = true) s as t := by
  induction h with
  | nil => exact Run.nil
  | @snoc as a t u _ hG hstep ih =>
    refine Run.snoc (ih fun hmem ↦ has (List.mem_append_left _ hmem)) hG ?_
    cases a with
    | emit => exact absurd (List.mem_append_right _ (List.mem_singleton_self _)) has
    | _ => exact hstep

/-- A session with one chunk of pre-roll, up to the wait for `finalize_done`. -/
def toFlush : List Action :=
  ([.arrive .backfill ⟨"audio.backfill.20260301-100000", none, [1, 0]⟩,
    .arrive .backfill (backfillEos "20260301-100000"), .resume true .ok, .fetched 0 .ok,
    .resume true .ok, .resume true .ok, .resume true .ok, .fetched 1 .ok, .resume true .ok,
    .resume true .ok] : List SttProvider.Action).map .loop

/-- A script with one event of each kind. -/
def plain : Script :=
  ⟨[⟨"Good morn", false, 1 / 2⟩], ⟨"Good morning.", true, 1⟩, [⟨"Please rise.", true, 1⟩], rfl⟩

/-- The test such a run is to pass: the loop waits for `finalize_done`, and nothing was emitted. -/
def waitsUnheard (s : State) : Bool :=
  (match s.loop.pc with
    | .flushing => true
    | _ => false) &&
  decide (s.loop.stopEvent = false ∧ s.loop.session.dgClosed = false ∧ s.tagHolder = .backfill ∧
    s.drain = .waiting ∧ s.queue = [] ∧ s.closed = false ∧ s.emitted = 0 ∧ s.published.length = 0 ∧
    .backfill ∈ s.heard ∧ s.finalized = true)

/-- Every script comes to the flush. -/
theorem exists_flushing (script : Script) :
    ∃ loop s, (system script).Reachable (fun s a ↦ inTime s a = true) s ∧ loop.pc = .flushing ∧
      loop.stopEvent = false ∧ loop.session.dgClosed = false ∧ Idle loop .backfill 0 s := by
  have hexec : (((system plain).exec (fun s a ↦ inTime s a = true) {} toFlush).any waitsUnheard) =
      true := by decide +kernel
  obtain ⟨s, hrun, htest⟩ := Run.exists_of_exec hexec
  obtain ⟨hpc, hrest⟩ := Bool.and_eq_true_iff.1 htest
  obtain ⟨hstop, hopen, htag, hdrain, hqueue, hclosed, hemitted, hpublished, hheard, hfinalized⟩ :=
    of_decide_eq_true hrest
  have hflushing : s.loop.pc = .flushing := by
    split at hpc
    · assumption
    · contradiction
  refine ⟨s.loop, s, ⟨{}, toFlush, rfl, run_of_not_emit hrun ?_⟩, hflushing, hstop, hopen,
    ⟨rfl, htag, hdrain, hqueue, hclosed, hemitted, hpublished, hheard, hfinalized⟩⟩
  simp [toFlush]

/-- **An earlier final event**: the loop switches before the answer to `finalize()` is out, and the
answer is tagged live. -/
theorem exists_not_tagged {e : TranscriptionEvent} (he : e ∈ script.backfill)
    (hfinal : e.isFinal = true) :
    ∃ s, (system script).Reachable (fun s a ↦ inTime s a = true) s ∧ ¬ Tagged script s := by
  obtain ⟨loop, s, hs, hpc, hstop, hopen, hidle⟩ := exists_flushing script
  have hsession : hasTranscriber loop.pc = true := by
    rw [hpc]
    rfl
  obtain ⟨as, t, hrun, hidle, hdone⟩ := exists_idle hidle hsession hstop
    (Nat.le_refl script.backfill.length)
  have hset : t.finalizeDone = true := hdone ⟨e, by rwa [List.take_length], hfinal⟩
  -- The wait is over at once.
  have hswitch : ∃ u, step script t (.loop (.resume true .ok)) = some u ∧
      Idle (loop.goto .waitingLive) .live script.backfill.length u := by
    have hflush : t.loop.pc = .flushing := by rw [hidle.loop, hpc]
    have hgone : SttProvider.step t.loop (.resume true .ok) = some (loop.goto .waitingLive) := by
      rw [SttProvider.step, resumeStep, hflush, hidle.loop, hstop]
      rfl
    have hswitched : switchTag t = { t with tagHolder := .live } := by
      rw [switchTag, hidle.loop, hopen, hstop]
      exact if_neg (by simp)
    refine ⟨follow (switchTag t) (loop.goto .waitingLive), ?_, ?_⟩
    · simp only [step, loopStep, hflush, hset, hgone, if_true, Option.map_some]
    · rw [hswitched, follow, if_pos (by rw [hidle.loop]; rfl)]
      exact ⟨rfl, rfl, hidle.drain, hidle.queue, hidle.closed, hidle.emitted, hidle.published,
        List.mem_append_left _ hidle.heard, by rw [hidle.finalized]; rfl⟩
  obtain ⟨u, hstep, hidle⟩ := hswitch
  have hanswer : script.events[script.backfill.length]? = some script.answer := by
    rw [Script.events, List.getElem?_append_right (Nat.le_refl _), Nat.sub_self]
    rfl
  obtain ⟨bs, v, hrun', hidle', -, hpublished⟩ := exists_idle_succ hidle rfl hstop (Nat.le_refl _)
    hanswer
  have hstep' : (system script).Run (fun s a ↦ inTime s a = true) t [.loop (.resume true .ok)] u :=
    Run.single rfl hstep
  refine ⟨v, ((hs.run hrun).run hstep').run hrun', fun htagged ↦ ?_⟩
  have hlast :
    v.published[script.backfill.length]? = some (publication script.answer .live "") := by
    rw [hpublished, ← hidle.published, List.getElem?_concat_length]
  obtain ⟨e', timestamp, -, hp⟩ := htagged _ _ hlast
  have hsource : Lane.live = script.lane script.backfill.length :=
    congrArg (fun p ↦ p.payload.source) hp
  rw [Script.lane, if_pos (Nat.le_refl _)] at hsource
  contradiction

end Mistagged

/-- **Transcripts are tagged with the lane of their audio**, in every run in which the answer to
`finalize()` comes in time, exactly if no final event comes before that answer. -/
theorem tagged_iff (script : Script) :
    (∀ s, (system script).Reachable (fun s a ↦ inTime s a = true) s → Tagged script s) ↔
      ∀ e ∈ script.backfill, e.isFinal = false := by
  refine ⟨fun h e he ↦ ?_, fun hearly s hs ↦ ((tagging_inductive hearly).reachable hs).tagged⟩
  by_contra hfinal
  obtain ⟨s, hs, hnot⟩ := exists_not_tagged he (Bool.not_eq_false _ ▸ hfinal)
  exact hnot (h s hs)

/-- A final event is made of the pre-roll before the loop finalizes. -/
def greeting : Script :=
  ⟨[⟨"Good morning.", true, 1⟩], ⟨"Welcome, everyone.", true, 1⟩, [], rfl⟩

/-- The answer to `finalize()`, made of the pre-roll, is published as live. -/
theorem answer_tagged_live :
    ∃ s, (system greeting).Reachable (fun s a ↦ inTime s a = true) s ∧ ¬ Tagged greeting s :=
  exists_not_tagged (List.mem_singleton_self _) rfl

end LiveSTT.SttProvider.Drain
