import LiveSTT.Lib.EventLog
import LiveSTT.SttProvider.SessionLoop

/-!
# Audio is acked after it was sent, or skipped as another session's

`_send_msgs` acks a message in three places: an EOS marker, a chunk whose `send_audio` returned, and
a message whose subject names another session than the one the loop is in — its docstring says so.
This module proves that there is no fourth, over all runs: restarts, redeliveries, failing sends and
acks, connections that close at any time, sessions queued on both lanes
(`ack_after_send_or_stale`).

The law is about the order of the log. What makes it inductive is one fact about the state: inside a
session its connection is in the log.

A message that is redelivered is another delivery, with its own send and its own ack. What is sent
on a connection that closes a moment later counts as sent here: the call has returned. What Deepgram
makes of it is not in the log.
-/

namespace LiveSTT.SttProvider

open EventLog

/-! ### The law -/

/-- `send_audio` of a connected transcriber has succeeded on the message. -/
def Sent (log : List Event) (d : Delivery) : Prop :=
  ∃ connection, .sent d connection ∈ log ∧ .connected connection ∈ log

/-- When an event may follow a log. -/
def MayFollow (log : List Event) : Event → Prop
  | .connected _ => True
  | .sent _ connection => .connected connection ∈ log
  | .acked d id => d.msg.isEos = true ∨ Sent log d ∨ isStale id d.msg = true

/-- The loop has a connection open. -/
def Pc.inSession : Pc → Bool
  | .forwarding _ _ | .fetching _ | .finalizing | .flushing | .waitingLive => true
  | _ => false

/-- The invariant: the law, and that the connection of the session is in the log. -/
structure Lawful (s : State) : Prop where
  lawful : Justified MayFollow s.log
  connected : s.pc.inSession = true → .connected s.session.connection ∈ s.log

/-! ### What each function preserves -/

section Functions

variable {s t : State}

/-- The law, inside a session. -/
structure InSession (s : State) : Prop where
  lawful : Justified MayFollow s.log
  connected : .connected s.session.connection ∈ s.log

theorem InSession.toLawful (h : InSession s) : Lawful s :=
  ⟨h.lawful, fun _ ↦ h.connected⟩

theorem Lawful.inSession (h : Lawful s) (hpc : s.pc.inSession = true) : InSession s :=
  ⟨h.lawful, h.connected hpc⟩

/-- Neither depends on more than the log and the connection. -/
theorem InSession.congr (h : InSession s) (hlog : t.log = s.log)
    (hconn : t.session.connection = s.session.connection) : InSession t := by
  refine ⟨?_, ?_⟩
  · rw [hlog]
    exact h.lawful
  · rw [hlog, hconn]
    exact h.connected

theorem InSession.goto (h : InSession s) (pc : Pc) : InSession (s.goto pc) :=
  h.congr rfl rfl

/-- Outside of a session only the log matters. -/
theorem Lawful.of_not_inSession (h : Lawful s) (hlog : t.log = s.log)
    (hpc : t.pc.inSession = false) : Lawful t := by
  refine ⟨?_, fun hin ↦ ?_⟩
  · rw [hlog]
    exact h.lawful
  · rw [hpc] at hin
    nomatch hin

/-- An ack that is justified. -/
theorem InSession.ack {d : Delivery} {r : Reply} {pc : Pc} (h : InSession s)
    (hd : MayFollow s.log (.acked d s.session.id)) : InSession (s.ack d r pc) := by
  rw [State.ack]
  split
  · exact ⟨h.lawful.append_singleton hd, List.mem_append_left _ h.connected⟩
  · exact h.goto pc

/-- At the end of a phase the loop begins the next one in its session, or ends. -/
theorem inSession_endPhase {lane : Lane} {eos : Bool} (h : InSession s) :
    InSession (endPhase s lane eos) := by
  cases lane with
  | live => exact h.goto _
  | backfill =>
    rw [endPhase]
    split
    · exact h.goto _
    · exact h.goto _

/-- A phase goes on to fetch. -/
theorem inSession_fetchPhase {lane : Lane} {eos : Bool} (h : InSession s) :
    InSession (fetchPhase s lane eos) := by
  rw [fetchPhase]
  split
  · exact inSession_endPhase h
  · split
    · exact inSession_endPhase h
    · exact h.goto _

/-- A message is acked as stale or as an EOS marker, or is sent next. -/
theorem inSession_sendMsgs {lane : Lane} {msgs : List Delivery} {r : Reply} (h : InSession s) :
    InSession (sendMsgs s lane msgs r) := by
  cases msgs with
  | nil => exact inSession_fetchPhase h
  | cons d rest =>
    rw [sendMsgs]
    split
    · rename_i hstale
      exact h.ack (Or.inr (Or.inr hstale))
    · split
      · rename_i heos
        exact h.ack (Or.inl heos)
      · exact h.goto _

/-- The ack after a send: the send is in the log. -/
theorem inSession_ackSent {lane : Lane} {d : Delivery} {rest : List Delivery} {r : Reply}
    (h : InSession s) : InSession (ackSent s lane d rest r) := by
  have hsent : InSession { s with log := s.log ++ [.sent d s.session.connection] } :=
    ⟨h.lawful.append_singleton h.connected, List.mem_append_left _ h.connected⟩
  refine hsent.ack (Or.inr (Or.inl ⟨s.session.connection, ?_, hsent.connected⟩))
  exact List.mem_append_right _ (List.mem_singleton_self _)

/-- A send goes on with the messages of its batch. -/
theorem inSession_sendStep {lane : Lane} {pc : SendPc} {r : Reply} (h : InSession s) :
    InSession (sendStep s lane pc r) := by
  rcases pc with ⟨rest, - | -⟩ | ⟨- | -⟩ | ⟨d, rest, - | -⟩ | ⟨rest, - | -⟩ | -
  · exact inSession_sendMsgs h
  · exact h.goto _
  · exact inSession_fetchPhase (h.congr rfl rfl)
  · exact h.goto _
  · exact inSession_ackSent h
  · exact h.goto _
  · exact inSession_sendMsgs h
  · exact h.goto _
  · exact inSession_fetchPhase (h.congr rfl rfl)

/-- A session begins: its connection is logged. -/
theorem inSession_beginSession {id : Option String} {first : List Delivery} {r : Reply}
    (h : Lawful s) : InSession (beginSession s id first r) := by
  refine inSession_sendMsgs ⟨h.lawful.append_singleton trivial, ?_⟩
  exact List.mem_append_right _ (List.mem_singleton_self _)

theorem lawful_nextSession (h : Lawful s) : Lawful (nextSession s) := by
  refine h.of_not_inSession rfl ?_
  rw [nextSession]
  split <;> rfl

/-- **One step.** -/
theorem lawful_step {a : Action} (h : Lawful s) (ht : step s a = some t) : Lawful t := by
  cases stepped_of_step ht with
  | arrive => exact ⟨h.lawful, h.connected⟩
  | announced =>
    refine h.of_not_inSession rfl ?_
    split <;> rfl
  | fetched hpc => exact (inSession_sendMsgs (h.inSession (by rw [hpc]; rfl))).toLawful
  | fetchedLive hpc =>
    have hin : InSession s := h.inSession (by rw [hpc]; rfl)
    split
    · exact (hin.goto _).toLawful
    · exact (inSession_sendMsgs hin).toLawful
  | idle => exact lawful_nextSession h
  | unfetched hpc => exact (inSession_fetchPhase (h.inSession (by rw [hpc]; rfl))).toLawful
  | unfetchedLive hpc =>
    split
    · exact ((h.inSession (by rw [hpc]; rfl)).goto _).toLawful
    · exact h
  | subscribed =>
    split
    · exact lawful_nextSession h
    · exact h.of_not_inSession rfl rfl
  -- The session exists from here on, and with it the connection its sends go to.
  | connected => exact (inSession_beginSession h).toLawful
  | unconnected =>
    split
    · exact h.of_not_inSession rfl rfl
    · exact h
  | forwarded hpc => exact (inSession_sendStep (h.inSession (by rw [hpc]; rfl))).toLawful
  | finalized hpc => exact ((h.inSession (by rw [hpc]; rfl)).goto _).toLawful
  | flushed hpc => exact ((h.inSession (by rw [hpc]; rfl)).goto _).toLawful
  | closed => exact lawful_nextSession h
  | raised => exact h.of_not_inSession rfl rfl
  | dgClosed => exact ⟨h.lawful, h.connected⟩
  | stop => exact ⟨h.lawful, h.connected⟩
  | restart => exact h.of_not_inSession rfl rfl

end Functions

/-! ### Runs -/

theorem lawful_inductive : system.Inductive TransitionSystem.always Lawful where
  init s hs := by
    obtain rfl : s = {} := hs
    exact ⟨justified_nil, nofun⟩
  step h _ ht := lawful_step h ht

/-- **Ack after send.** In every run, a message that is no EOS marker is acked only after
`send_audio` of a connected transcriber succeeded on it, or while the loop is in a session other
than the one the message's subject names. -/
theorem ack_after_send_or_stale {s : State} (h : system.Reachable TransitionSystem.always s)
    {d : Delivery} {id : Option String} {pre post : List Event}
    (hlog : s.log = pre ++ .acked d id :: post) (heos : d.msg.isEos = false) :
    Sent pre d ∨ isStale id d.msg = true := by
  rcases (lawful_inductive.reachable h).lawful hlog with heos' | hsent
  · rw [heos] at heos'
    nomatch heos'
  · exact hsent

/-! ### A connection that drops in the live phase -/

/-- A chunk of live audio. -/
def chunk (sessionId : String) (data : Bytes) : AudioMsg :=
  ⟨"audio.live." ++ sessionId, none, data⟩

/-- The EOS marker of a session's backfill. -/
def backfillEos (sessionId : String) : AudioMsg :=
  ⟨"audio.backfill." ++ sessionId, some [("LiveSTT-EOS", "true")], []⟩

/-- A session with no pre-roll, up to the fetch of its first live chunk. -/
def toLive (backfillSeq : ℕ) : List Action :=
  [.fetched backfillSeq .ok, .resume true .ok, .resume true .ok, .resume true .ok, .resume true .ok]

/-- The test a run is to pass: the chunk was acked, and was sent or not. -/
def ackedWhere (d : Delivery) (sent : Bool) (s : State) : Bool :=
  s.log.any (fun
    | .acked d' _ => d' = d
    | _ => false) &&
  (s.log.any (fun
    | .sent d' _ => d' = d
    | _ => false) == sent)

/-- The test on a state says what it is named after. -/
theorem exists_acked_of_ackedWhere {d : Delivery} {sent : Bool} {s : State}
    (h : ackedWhere d sent s = true) : ∃ id pre post, s.log = pre ++ .acked d id :: post := by
  rw [ackedWhere, Bool.and_eq_true] at h
  obtain ⟨e, he, htest⟩ := List.any_eq_true.1 h.1
  cases e with
  | acked d' id =>
    obtain rfl : d' = d := by simpa using htest
    obtain ⟨pre, post, hlog⟩ := List.append_of_mem he
    exact ⟨id, pre, post, hlog⟩
  | _ => nomatch htest

/-- A chunk sent and acked, in the live phase of its session. -/
theorem ack_after_send_of_first :
    ∃ s id pre post, system.Reachable TransitionSystem.always s ∧
      s.log = pre ++ .acked ⟨.live, 0, chunk "20260301-100000" [1, 0]⟩ id :: post ∧
      (chunk "20260301-100000" [1, 0]).isEos = false ∧
      (Sent pre ⟨.live, 0, chunk "20260301-100000" [1, 0]⟩ ∨
        isStale id (chunk "20260301-100000" [1, 0]) = true) := by
  obtain ⟨s, hs, htest⟩ := TransitionSystem.exists_reachable_of_exec
    (M := system) (G := TransitionSystem.always) {}
    ([.arrive .backfill (backfillEos "20260301-100000"),
      .arrive .live (chunk "20260301-100000" [1, 0]), .resume true .ok] ++ toLive 0 ++
      [.fetched 0 .ok, .resume true .ok])
    (ackedWhere ⟨.live, 0, chunk "20260301-100000" [1, 0]⟩ true) rfl (by decide +kernel)
  obtain ⟨id, pre, post, hlog⟩ := exists_acked_of_ackedWhere htest
  exact ⟨s, id, pre, post, hs, hlog, rfl, ack_after_send_or_stale hs hlog rfl⟩

/-- The connection drops on the first live chunk of a session. The chunk is delivered again in the
live phase of the next session, and acked there: it was never sent. -/
theorem acked_unsent_after_drop :
    ∃ s id pre post, system.Reachable TransitionSystem.always s ∧
      s.log = pre ++ .acked ⟨.live, 0, chunk "20260301-100000" [1, 0]⟩ id :: post ∧
      (chunk "20260301-100000" [1, 0]).isEos = false ∧
      ∀ connection, .sent ⟨.live, 0, chunk "20260301-100000" [1, 0]⟩ connection ∉ s.log := by
  obtain ⟨s, hs, htest⟩ := TransitionSystem.exists_reachable_of_exec
    (M := system) (G := TransitionSystem.always) {}
    ([.arrive .backfill (backfillEos "20260301-100000"),
      .arrive .live (chunk "20260301-100000" [1, 0]),
      .arrive .backfill (backfillEos "20260301-110000"), .resume true .ok] ++ toLive 0 ++
      -- The send raises, the connection is closed, and the next session begins.
      [.fetched 0 .error, .resume true .ok, .resume true .ok, .resume true .ok] ++ toLive 1 ++
      [.fetched 0 .ok])
    (ackedWhere ⟨.live, 0, chunk "20260301-100000" [1, 0]⟩ false) rfl (by decide +kernel)
  obtain ⟨id, pre, post, hlog⟩ := exists_acked_of_ackedWhere htest
  refine ⟨s, id, pre, post, hs, hlog, rfl, fun connection hsent ↦ ?_⟩
  rw [ackedWhere, Bool.and_eq_true, beq_iff_eq, List.any_eq_false] at htest
  exact htest.2 _ hsent (by simp)

end LiveSTT.SttProvider
