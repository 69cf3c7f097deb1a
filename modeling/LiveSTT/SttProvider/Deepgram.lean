import LiveSTT.SttProvider.Drain

/-!
# What Deepgram says, and what becomes of it

`DeepgramTranscriber` is the transcriber of stt-provider: its callbacks put the events of the
connection into a queue, and a mark, `None`, when the connection closes and when it reports an
error. `get_events` takes them out again, up to the first mark, and `_drain_events` publishes them.

So what Deepgram says after an error, or after the close, stays in the queue: nobody takes it out
any more, although the audio it was made of was acked. What it has said before is published once, in
its order (`handed_of_said`), as far as the publishes succeed, and if the drain task is neither
stopped nor cancelled first. The audio that is sent on meanwhile is no part of this; the loop is
that of the session, with any sequence of sessions, each with a transcriber and a queue of its own.

`handed` is what `_drain_events` has taken out to publish, and `said` are the callbacks of the
connection; no code keeps them. The queue of `Drain.State` is left empty here, `mailbox` takes its
place.
-/

namespace LiveSTT.SttProvider.Deepgram

open Drain (DrainPc TranscriptionEvent hasTranscriber drainEnd publishEvent)
open TransitionSystem

/-! ### The callbacks -/

/-- An alternative of a result. -/
structure Alternative where
  transcript : String
  confidence : ℚ

/-- A message of the connection: `channel.alternatives`, if it has a channel, and `is_final`, if it
has. -/
structure Result where
  channel : Option (List Alternative)
  isFinal : Option Bool

inductive Callback
  | onOpen
  | onMessage (result : Result)
  | onClose
  | onError

/-- What `_on_message` puts into the queue. -/
def eventOf (result : Result) : Option TranscriptionEvent :=
  match result.channel with
  | none | some [] => none
  | some (a :: _) =>
    if a.transcript = "" ∧ result.isFinal.getD false = false then none
    else some ⟨a.transcript, result.isFinal.getD false, a.confidence⟩

/-- What a callback puts into the queue. -/
def Callback.puts : Callback → Option (Option TranscriptionEvent)
  | .onOpen => none
  | .onMessage result => (eventOf result).map some
  | .onClose | .onError => some none

/-- What is in front of the first mark. -/
def beforeMark {α : Type*} : List (Option α) → List α
  | some a :: rest => a :: beforeMark rest
  | none :: _ | [] => []

/-- What Deepgram has said up to the first close or error. -/
def spoken (said : List Callback) : List TranscriptionEvent :=
    beforeMark (said.filterMap Callback.puts)

/-- It has closed the connection, or reported an error. -/
def Callback.ends : Callback → Bool
  | .onClose | .onError => true
  | .onOpen | .onMessage _ => false

/-! ### The system -/

structure State where
  stt : Drain.State := {}
  /-- `_event_queue` -/
  mailbox : List (Option TranscriptionEvent) := []
  said : List Callback := []
  handed : List TranscriptionEvent := []

inductive Action
  /-- The session loop goes on. -/
  | loop (a : SttProvider.Action)
  /-- Its wait for `finalize_done` is over. -/
  | timeout
  /-- The drain task goes on. -/
  | drain (timestamp : String) (r : Reply)
  | callback (c : Callback)

/-- The loop has gone on; with a new connection there is a new transcriber. -/
def State.follow (s : State) (stt : Drain.State) : State :=
  if stt.loop.connections = s.stt.loop.connections then { s with stt := stt } else { stt := stt }

/-- `_drain_events` over `get_events`, resumed. -/
def drainEvents (s : State) (timestamp : String) (r : Reply) : Option State :=
  match s.stt.drain, s.mailbox with
  | .waiting, none :: rest => some { s with stt := drainEnd s.stt, mailbox := rest }
  | .waiting, some e :: rest =>
    if s.stt.loop.stopEvent then some { s with stt := drainEnd s.stt, mailbox := rest }
    else some { s with
      stt := publishEvent s.stt e timestamp r
      mailbox := rest
      handed := s.handed ++ [e] }
  | .waiting, [] => none
  | .publishing, _ => some { s with stt := { s.stt with drain := .waiting } }
  | .done, _ => none

def step (s : State) : Action → Option State
  | .loop a => (Drain.loopStep s.stt a).map s.follow
  | .timeout => (Drain.timeoutStep s.stt).map s.follow
  | .drain timestamp r => drainEvents s timestamp r
  | .callback c =>
    if hasTranscriber s.stt.loop.pc then some { s with
      mailbox := s.mailbox ++ c.puts.toList
      said := s.said ++ [c] }
    else none

/-- stt-provider with its transcribers. -/
def system : TransitionSystem State Action where
  init s := s = {}
  step := step

/-- The event of a publication. -/
def eventOfPublication (p : Drain.Publication) : TranscriptionEvent :=
  ⟨p.payload.text, p.payload.isFinal, p.payload.confidence⟩

/-! ### Marks -/

section Marks

variable {α : Type*}

theorem beforeMark_append (as : List α) (q : List (Option α)) :
    beforeMark (as.map some ++ q) = as ++ beforeMark q := by
  induction as with
  | nil => rfl
  | cons a as ih =>
    show a :: beforeMark (as.map some ++ q) = a :: (as ++ beforeMark q)
    rw [ih]

/-- A queue with a mark, up to it. -/
theorem exists_of_mark {q : List (Option α)} (h : none ∈ q) :
    ∃ (as : List α) (rest : List (Option α)), q = as.map some ++ none :: rest := by
  induction q with
  | nil => exact absurd h List.not_mem_nil
  | cons x q ih =>
    cases x with
    | none => exact ⟨[], q, rfl⟩
    | some a =>
      obtain ⟨as, rest, rfl⟩ := ih ((List.mem_cons.1 h).resolve_left (Option.some_ne_none a).symm)
      exact ⟨a :: as, rest, rfl⟩

/-- The mark is put exactly by a callback that ends the connection. -/
theorem mark_mem_iff {said : List Callback} :
    none ∈ said.filterMap Callback.puts ↔ ∃ c ∈ said, c.ends = true := by
  rw [List.mem_filterMap]
  refine exists_congr fun c ↦ and_congr_right fun _ ↦ ?_
  cases c with
  | onOpen => simp [Callback.puts, Callback.ends]
  | onMessage result => simp [Callback.puts, Callback.ends]
  | onClose | onError => simp [Callback.puts, Callback.ends]

end Marks

/-! ### The loop -/

section Loop

variable {s t : SttProvider.State} {lane : Lane} {r : Reply}

theorem stopEvent_endPhase {eos : Bool} : (endPhase s lane eos).stopEvent = s.stopEvent := by
  cases lane with
  | live => rfl
  | backfill =>
    rw [endPhase]
    split <;> rfl

theorem stopEvent_fetchPhase {eos : Bool} : (fetchPhase s lane eos).stopEvent = s.stopEvent := by
  rw [fetchPhase]
  split
  · exact stopEvent_endPhase
  · split
    · exact stopEvent_endPhase
    · rfl

theorem stopEvent_ack {d : Delivery} {pc : Pc} : (s.ack d r pc).stopEvent = s.stopEvent := by
  rw [SttProvider.State.ack]
  split <;> rfl

/-- A batch does not stop the loop. -/
theorem stopEvent_sendMsgs {msgs : List Delivery} :
    (sendMsgs s lane msgs r).stopEvent = s.stopEvent := by
  cases msgs with
  | nil => exact stopEvent_fetchPhase
  | cons d rest =>
    rw [sendMsgs]
    split
    · exact stopEvent_ack
    · split
      · exact stopEvent_ack
      · rfl

/-- Nor does a send, whatever comes of it. -/
theorem stopEvent_sendStep {pc : SendPc} : (sendStep s lane pc r).stopEvent = s.stopEvent := by
  rcases pc with ⟨rest, - | -⟩ | ⟨- | -⟩ | ⟨d, rest, - | -⟩ | ⟨rest, - | -⟩ | -
  · exact stopEvent_sendMsgs
  · rfl
  · exact stopEvent_fetchPhase
  · rfl
  · exact stopEvent_ack
  · rfl
  · exact stopEvent_sendMsgs
  · rfl
  · exact stopEvent_fetchPhase

theorem hasTranscriber_nextSession : hasTranscriber (nextSession s).pc = false := by
  rw [nextSession]
  split <;> rfl

/-- A transcriber that the loop has after a step, and that is not new, it has had before; and a stop
is not taken back. -/
theorem hasTranscriber_of_step {a : SttProvider.Action} (ht : SttProvider.step s a = some t)
    (hpc : hasTranscriber t.pc = true) (hconnections : t.connections = s.connections) :
    hasTranscriber s.pc = true ∧ (s.stopEvent = true → t.stopEvent = true) := by
  have hin {pc : Pc} (h : s.pc = pc) (hpc : hasTranscriber pc = true) :
    hasTranscriber s.pc = true := by
    rw [h]
    exact hpc
  have hout {pc : Pc} (h : hasTranscriber pc = false) (hpc : hasTranscriber pc = true) : False :=
    Bool.false_ne_true (h.symm.trans hpc)
  cases stepped_of_step ht with
  | arrive => exact ⟨hpc, id⟩
  | announced =>
    revert hpc
    split <;> exact fun h ↦ (hout rfl h).elim
  | fetched h => exact ⟨hin h rfl, fun hstop ↦ stopEvent_sendMsgs.trans hstop⟩
  | fetchedLive h =>
    refine ⟨hin h rfl, fun hstop ↦ ?_⟩
    rw [if_pos hstop]
    exact hstop
  | idle => exact (hout hasTranscriber_nextSession hpc).elim
  | unfetched h => exact ⟨hin h rfl, fun hstop ↦ stopEvent_fetchPhase.trans hstop⟩
  | unfetchedLive h =>
    refine ⟨hin h rfl, fun hstop ↦ ?_⟩
    rw [if_pos hstop]
    exact hstop
  | subscribed =>
    revert hpc
    split
    · exact fun h ↦ (hout hasTranscriber_nextSession h).elim
    · exact fun h ↦ (hout rfl h).elim
  | @connected id first _ r =>
    have hnew : (beginSession s id first r).connections = s.connections + 1 :=
      Drain.phase_sendMsgs.connections
    omega
  | unconnected h =>
    revert hpc
    split
    · exact fun h ↦ (hout rfl h).elim
    · rw [h]
      exact fun h ↦ (hout rfl h).elim
  | forwarded h => exact ⟨hin h rfl, fun hstop ↦ stopEvent_sendStep.trans hstop⟩
  | finalized h => exact ⟨hin h rfl, id⟩
  | flushed h => exact ⟨hin h rfl, id⟩
  | closed => exact (hout hasTranscriber_nextSession hpc).elim
  | raised h => exact ⟨hin h rfl, id⟩
  | dgClosed => exact ⟨hpc, id⟩
  | stop => exact ⟨hpc, fun _ ↦ rfl⟩
  | restart => exact (hout rfl hpc).elim

end Loop

/-! ### The drain task -/

/-- What the drain task has taken out of the queue. -/
inductive Taken (s : State) : List (Option TranscriptionEvent) → Prop
  | going (hdrain : s.stt.drain ≠ .done) : Taken s (s.handed.map some)
  | marked (hdrain : s.stt.drain = .done) : Taken s (s.handed.map some ++ [none])
  /-- It has met `stop_event`, and has dropped the event it had in hand. -/
  | stopped (hdrain : s.stt.drain = .done) (hstop : s.stt.loop.stopEvent = true)
      (e : TranscriptionEvent) :
    Taken s (s.handed.map some ++ [some e])

/-- What was put into the queue was taken out or is there, and what was published was taken out. -/
structure Handing (s : State) : Prop where
  taken : hasTranscriber s.stt.loop.pc = true →
    ∃ taken, Taken s taken ∧ s.said.filterMap Callback.puts = taken ++ s.mailbox
  published : (s.stt.published.map eventOfPublication).Sublist s.handed

section Steps

variable {s t : State}

/-- The loop goes on, in the connection or with a new one. -/
theorem Handing.follow (h : Handing s) {base : Drain.State} {loop : SttProvider.State}
    {a : SttProvider.Action} (hloop : base.loop = s.stt.loop) (hdrain : base.drain = s.stt.drain)
    (hpublished : base.published = s.stt.published)
    (ht : SttProvider.step base.loop a = some loop) :
    Handing (s.follow (Drain.follow base loop)) := by
  by_cases hconnections : loop.connections = base.loop.connections
  · have hfollow : Drain.follow base loop = { base with
        loop := loop
        drain := if hasTranscriber loop.pc then base.drain else .done
        heard := base.heard ++ Drain.sendsOn loop.pc
        finalized := base.finalized || Drain.isFinalizing loop.pc } := if_pos hconnections
    rw [hfollow, State.follow, if_pos (by rw [← hloop]; exact hconnections)]
    refine ⟨fun hpc ↦ ?_, ?_⟩
    · obtain ⟨hbefore, hstop⟩ := hasTranscriber_of_step ht hpc hconnections
      rw [hloop] at hbefore hstop
      obtain ⟨taken, htaken, hputs⟩ := h.taken hbefore
      refine ⟨taken, ?_, hputs⟩
      have hkept : (if hasTranscriber loop.pc then base.drain else .done) = s.stt.drain := by
        rw [if_pos hpc, hdrain]
      cases htaken with
      | going hd => exact .going fun heq ↦ hd (hkept.symm.trans heq)
      | marked hd => exact .marked (hkept.trans hd)
      | stopped hd hs e => exact .stopped (hkept.trans hd) (hstop hs) e
    · show (base.published.map eventOfPublication).Sublist s.handed
      rw [hpublished]
      exact h.published
  · have hfollow : Drain.follow base loop =
        { loop := loop, drain := .waiting, heard := Drain.sendsOn loop.pc } := if_neg hconnections
    rw [hfollow, State.follow, if_neg (by rw [← hloop]; exact hconnections)]
    exact ⟨fun _ ↦ ⟨[], .going (show DrainPc.waiting ≠ .done by decide), rfl⟩, List.nil_sublist _⟩

theorem loop_switchTag (stt : Drain.State) : (Drain.switchTag stt).loop = stt.loop ∧
    (Drain.switchTag stt).drain = stt.drain ∧ (Drain.switchTag stt).published = stt.published := by
  rw [Drain.switchTag]
  split
  · exact ⟨rfl, rfl, rfl⟩
  · exact ⟨rfl, rfl, rfl⟩

/-- The loop goes on beside the drain task. -/
theorem Handing.loop (h : Handing s) {a : SttProvider.Action}
    (ht : (Drain.loopStep s.stt a).map s.follow = some t) : Handing t := by
  obtain ⟨hloop, hdrain, hpublished⟩ := loop_switchTag s.stt
  obtain ⟨stt, hstt, rfl⟩ := Option.map_eq_some_iff.1 ht
  rw [Drain.loopStep.eq_def] at hstt
  split at hstt
  · contradiction
  · obtain ⟨-, hstt⟩ := Option.ite_none_right_eq_some.1 hstt
    obtain ⟨loop, hstep, rfl⟩ := Option.map_eq_some_iff.1 hstt
    exact h.follow hloop hdrain hpublished (hloop ▸ hstep)
  · obtain ⟨loop, hstep, rfl⟩ := Option.map_eq_some_iff.1 hstt
    exact h.follow rfl rfl rfl hstep

/-- The drain task looks again, as nothing has come. -/
theorem Handing.timeout (h : Handing s) (ht : (Drain.timeoutStep s.stt).map s.follow = some t) :
    Handing t := by
  obtain ⟨hloop, hdrain, hpublished⟩ := loop_switchTag s.stt
  obtain ⟨stt, hstt, rfl⟩ := Option.map_eq_some_iff.1 ht
  rw [Drain.timeoutStep] at hstt
  split at hstt
  · obtain ⟨-, hstt⟩ := Option.ite_none_left_eq_some.1 hstt
    obtain ⟨loop, hstep, rfl⟩ := Option.map_eq_some_iff.1 hstt
    exact h.follow hloop hdrain hpublished (hloop ▸ hstep)
  · contradiction

/-- **The drain task goes on.** -/
theorem Handing.drain (h : Handing s) {timestamp : String} {r : Reply}
    (ht : drainEvents s timestamp r = some t) : Handing t := by
  -- A task that waits has taken nothing else than it has handed on.
  have hwaiting (hdrain : s.stt.drain = .waiting) (hpc : hasTranscriber s.stt.loop.pc = true) :
      s.said.filterMap Callback.puts = s.handed.map some ++ s.mailbox := by
    obtain ⟨taken, htaken, hputs⟩ := h.taken hpc
    cases htaken with
    | going => exact hputs
    | marked hd => exact DrainPc.noConfusion (hdrain.symm.trans hd)
    | stopped hd => exact DrainPc.noConfusion (hdrain.symm.trans hd)
  rw [drainEvents.eq_def] at ht
  split at ht
  · rename_i rest hdrain hmailbox
    obtain rfl := Option.some.inj ht
    refine ⟨fun hpc ↦ ⟨_, .marked rfl, ?_⟩, h.published⟩
    show s.said.filterMap Callback.puts = (s.handed.map some ++ [none]) ++ rest
    rw [hwaiting hdrain hpc, hmailbox, List.append_assoc]
    rfl
  · rename_i e rest hdrain hmailbox
    split at ht
    · rename_i hstop
      obtain rfl := Option.some.inj ht
      refine ⟨fun hpc ↦ ⟨_, .stopped rfl (by exact hstop) e, ?_⟩, h.published⟩
      show s.said.filterMap Callback.puts = (s.handed.map some ++ [some e]) ++ rest
      rw [hwaiting hdrain hpc, hmailbox, List.append_assoc]
      rfl
    · obtain rfl := Option.some.inj ht
      refine ⟨fun hpc ↦ ⟨_, .going (show DrainPc.publishing ≠ .done by decide), ?_⟩, ?_⟩
      · show s.said.filterMap Callback.puts = (s.handed ++ [e]).map some ++ rest
        rw [hwaiting hdrain hpc, hmailbox, List.map_append, List.append_assoc]
        rfl
      · show ((publishEvent s.stt e timestamp r).published.map eventOfPublication).Sublist
          (s.handed ++ [e])
        rw [publishEvent]
        split
        · rw [List.map_append]
          exact h.published.append (List.Sublist.refl _)
        · exact h.published.trans (List.sublist_append_left _ _)
  · contradiction
  · rename_i hdrain
    obtain rfl := Option.some.inj ht
    refine ⟨fun hpc ↦ ?_, h.published⟩
    obtain ⟨taken, htaken, hputs⟩ := h.taken hpc
    cases htaken with
    | going => exact ⟨_, .going (show DrainPc.waiting ≠ .done by decide), hputs⟩
    | marked hd => exact DrainPc.noConfusion (hdrain.symm.trans hd)
    | stopped hd => exact DrainPc.noConfusion (hdrain.symm.trans hd)
  · contradiction

/-- A callback puts an event, the drain task takes one out, and the loop goes on beside them. -/
theorem Handing.step {a : Action} (h : Handing s) (ht : step s a = some t) : Handing t := by
  cases a with
  | loop a => exact h.loop ht
  | timeout => exact h.timeout ht
  | drain timestamp r => exact h.drain ht
  | callback c =>
    obtain ⟨-, ht⟩ := Option.ite_none_right_eq_some.1 ht
    obtain rfl := Option.some.inj ht
    refine ⟨fun hpc ↦ ?_, h.published⟩
    obtain ⟨taken, htaken, hputs⟩ := h.taken hpc
    have happend :
      (s.said ++ [c]).filterMap Callback.puts = taken ++ (s.mailbox ++ c.puts.toList) := by
      have hsingle : [c].filterMap Callback.puts = c.puts.toList := by
        rw [List.filterMap_cons]
        cases c.puts <;> rfl
      rw [List.filterMap_append, hputs, hsingle, List.append_assoc]
    refine ⟨taken, ?_, happend⟩
    cases htaken with
    | going hd => exact .going hd
    | marked hd => exact .marked hd
    | stopped hd hstop e => exact .stopped (by exact hd) (by exact hstop) e

theorem handing_inductive : system.Inductive always Handing where
  init := by
    rintro s rfl
    exact ⟨nofun, List.Sublist.refl _⟩
  step h _ ht := h.step ht

/-! ### It gets there -/

/-- The drain task goes on, and its publishes succeed. -/
def drainGoes (_ : State) (a : Action) : Prop := ∃ timestamp, a = .drain timestamp .ok

/-- **The drain task up to the mark**: by induction on the events in front of it. -/
theorem exists_drained (es : List TranscriptionEvent) {rest : List (Option TranscriptionEvent)}
    (hdrain : s.stt.drain = .waiting) (hstop : s.stt.loop.stopEvent = false)
    (hmailbox : s.mailbox = es.map some ++ none :: rest) :
    ∃ as t, system.Run drainGoes s as t ∧ t.stt.drain = .done ∧ t.handed = s.handed ++ es ∧
      t.stt.published.map eventOfPublication = s.stt.published.map eventOfPublication ++ es := by
  induction es generalizing s with
  | nil =>
    have hstep : system.step s (.drain "" .ok) = some
      { s with stt := drainEnd s.stt, mailbox := rest } := by
      show drainEvents s "" .ok = _
      rw [drainEvents.eq_def, hdrain, hmailbox]
      rfl
    exact ⟨_, _, .single ⟨"", rfl⟩ hstep, rfl, (List.append_nil _).symm, (List.append_nil _).symm⟩
  | cons e es ih =>
    have hpublish : system.step s (.drain "" .ok) = some { s with
        stt := publishEvent s.stt e "" .ok
        mailbox := es.map some ++ none :: rest
        handed := s.handed ++ [e] } := by
      show drainEvents s "" .ok = _
      rw [drainEvents.eq_def, hdrain, hmailbox]
      show (if s.stt.loop.stopEvent = true then _ else _) = _
      rw [hstop]
      rfl
    have hpublished : (publishEvent s.stt e "" .ok).published.map eventOfPublication =
        s.stt.published.map eventOfPublication ++ [e] := by
      show (s.stt.published ++ [_]).map eventOfPublication = _
      rw [List.map_append]
      rfl
    obtain ⟨as, t, hrun, hdone, hhanded, hall⟩ := ih (s := { s with
        stt := { publishEvent s.stt e "" .ok with drain := .waiting }
        mailbox := es.map some ++ none :: rest
        handed := s.handed ++ [e] }) rfl hstop rfl
    refine ⟨_, t, ((Run.single ⟨"", rfl⟩ hpublish).trans (Run.single ⟨"", rfl⟩ rfl)).trans hrun,
      hdone, ?_, ?_⟩
    · rw [hhanded]
      exact List.append_assoc _ _ _
    · rw [hall]
      show (publishEvent s.stt e "" .ok).published.map eventOfPublication ++ es = _
      rw [hpublished, List.append_assoc]
      rfl

/-- **What becomes of what Deepgram says**, in every run and in each connection. -/
theorem handed_of_said (hs : system.Reachable always s)
    (hsession : hasTranscriber s.stt.loop.pc = true) :
    s.handed <+: spoken s.said ∧ (s.stt.published.map eventOfPublication).Sublist s.handed ∧
    (s.stt.drain = .done → s.stt.loop.stopEvent = false →
      s.handed = spoken s.said ∧ ∃ c ∈ s.said, c.ends = true) ∧
    (s.stt.drain ≠ .done → s.stt.loop.stopEvent = false → (∃ c ∈ s.said, c.ends = true) →
      ∃ as t, system.Run drainGoes s as t ∧ t.stt.drain = .done ∧ t.handed = spoken s.said ∧
        t.stt.published.map eventOfPublication = s.stt.published.map eventOfPublication ++
          (spoken s.said).drop s.handed.length) := by
  have h := handing_inductive.reachable hs
  obtain ⟨taken, htaken, hputs⟩ := h.taken hsession
  have hspoken : spoken s.said = beforeMark (taken ++ s.mailbox) := congrArg beforeMark hputs
  have hmark : (∃ c ∈ s.said, c.ends = true) ↔ none ∈ taken ++ s.mailbox := by
    rw [← mark_mem_iff, hputs]
  refine ⟨?_, h.published, fun hdone hstop ↦ ?_, fun hgoing hstop hends ↦ ?_⟩
  · rw [hspoken]
    cases htaken with
    | going =>
      rw [beforeMark_append]
      exact List.prefix_append _ _
    | marked | stopped =>
      rw [List.append_assoc, beforeMark_append]
      exact List.prefix_append _ _
  · cases htaken with
    | going hd => exact absurd hdone hd
    | marked =>
      rw [hmark, hspoken, List.append_assoc, beforeMark_append]
      exact ⟨(List.append_nil _).symm, by simp⟩
    | stopped _ hstopped =>
      rw [hstop] at hstopped
      contradiction
  · have hwaiting : taken = s.handed.map some := by
      cases htaken with
      | going => rfl
      | marked hd | stopped hd => exact absurd hd hgoing
    rw [hwaiting] at hspoken hmark
    have hnone : none ∈ s.mailbox := by
      refine (List.mem_append.1 (hmark.1 hends)).resolve_left fun hmem ↦ ?_
      obtain ⟨e, -, he⟩ := List.mem_map.1 hmem
      contradiction
    obtain ⟨es, rest, hmailbox⟩ := exists_of_mark hnone
    have hrest : spoken s.said = s.handed ++ es := by
      rw [hspoken, beforeMark_append, hmailbox, beforeMark_append]
      exact congrArg _ (List.append_nil es)
    -- A publish that is under way ends first.
    obtain ⟨as, t, hrun, hdone, hhanded, hpublished⟩ : ∃ as t, system.Run drainGoes s as t ∧
        t.stt.drain = .done ∧ t.handed = s.handed ++ es ∧
        t.stt.published.map eventOfPublication = s.stt.published.map eventOfPublication ++ es := by
      cases hdrain : s.stt.drain with
      | waiting => exact exists_drained es hdrain hstop hmailbox
      | publishing =>
        have hstep : system.step s (.drain "" .ok) =
            some { s with stt := { s.stt with drain := .waiting } } := by
          show drainEvents s "" .ok = _
          rw [drainEvents.eq_def, hdrain]
        obtain ⟨as, t, hrun, hall⟩ := exists_drained
          (s := { s with stt := { s.stt with drain := .waiting } })
          es rfl hstop hmailbox
        exact ⟨_, t, (Run.single ⟨"", rfl⟩ hstep).trans hrun, hall⟩
      | done => exact absurd hdrain hgoing
    refine ⟨as, t, hrun, hdone, hhanded.trans hrest.symm, ?_⟩
    rw [hpublished, hrest, List.drop_left]

/-- Deepgram says a word, reports an error, and says another word. -/
def afterAnError : List Action :=
  ([.arrive .backfill ⟨"audio.backfill.20260301-100000", none, [1, 0]⟩, .resume true .ok,
    .fetched 0 .ok, .resume true .ok] : List SttProvider.Action).map .loop ++
  [.callback (.onMessage ⟨some [⟨"Amen.", 1⟩], some true⟩), .callback .onError,
    .callback (.onMessage ⟨some [⟨"Please rise.", 1⟩], some true⟩), .drain "" .ok, .drain "" .ok,
      .drain "" .ok]

/-- What comes behind an error stays in the mailbox, though the service goes on. -/
theorem handed_of_said_afterAnError : ∃ s : State, system.Reachable always s ∧
    s.handed = [⟨"Amen.", true, 1⟩] ∧ s.handed = spoken s.said ∧ s.mailbox.length = 1 ∧
    s.stt.loop.stopEvent = false := by
  obtain ⟨s, hs, htest⟩ := exists_reachable_of_exec (M := system) (G := always) {} afterAnError
    (fun s ↦ hasTranscriber s.stt.loop.pc && s.stt.drain = .done && !s.stt.loop.stopEvent &&
      s.handed = [⟨"Amen.", true, 1⟩] && s.mailbox.length = 1) rfl (by decide +kernel)
  simp only [Bool.and_eq_true, decide_eq_true_eq, Bool.not_eq_true'] at htest
  obtain ⟨⟨⟨⟨hsession, hdone⟩, hstop⟩, hhanded⟩, hmailbox⟩ := htest
  exact ⟨s, hs, hhanded, ((handed_of_said hs hsession).2.2.1 hdone hstop).1, hmailbox, hstop⟩

end Steps

end LiveSTT.SttProvider.Deepgram
