import Mathlib.Data.List.DropRight
import Mathlib.Logic.Function.Basic
import LiveSTT.Lib.Deque
import LiveSTT.Lib.Json
import LiveSTT.Lib.TransitionSystem
import LiveSTT.Messaging.Broker

/-!
# The log feed

`_on_global_log` keeps the last log messages in a ring buffer and hands each to the queue of every
`/admin/logs` connection. The handler of a connection sends the content of the ring first, one
message after another, and then what its queue holds. Messages arrive at any of its suspensions,
other connections come and go, and a queue that is full drops its oldest message.

Two facts make the feed whole. The queue is registered and the ring copied without a suspension in
between, so a message is either in the copy or, later, in the queue (`Feeding`): there is no gap at
the seam and nothing comes twice. And the queue is always the end of what was logged since, so a
message that is dropped from it has as many newer ones behind it as the queue holds (`Queued`).

Persisting a message is another transaction, whose failures are swallowed; it is left out.

Both facts are invariants of one connection, whatever the others do: its queue, its copy of the ring
and its place in what was logged are its own.
-/

namespace LiveSTT.LogFeed

/-- `_LOG_RING_SIZE`. -/
def logRingSize : ℕ := 500

/-- `_LOG_WS_QUEUE_SIZE`. -/
def logWsQueueSize : ℕ := 200

/-! ### The data -/

/-- A log message as it was received. The service keeps and reads only `data`; `number` is its place
among the messages logged, and no code below reads it. -/
structure Entry where
  number : ℕ
  data : Json

/-- Where the handler of a connection, `admin_logs_websocket`, is suspended. -/
inductive HandlerPc
  /-- Not called yet. -/
  | idle
  /-- At `websocket.accept()`. -/
  | accepting (raised : Bool)
  /-- At a send of the replay; `rest` is what it has still to send. -/
  | replaying (rest : List Entry) (raised : Bool)
  /-- At `queue.get()`. -/
  | waiting
  /-- At a send of the live stream. -/
  | sending (raised : Bool)
  /-- It returned, or an exception ended it. -/
  | closed

/-- Its queue is in `_log_subscribers`. -/
def HandlerPc.subscribed : HandlerPc → Bool
  | .replaying _ _ | .waiting | .sending _ => true
  | .idle | .accepting _ | .closed => false

/-- A connection. -/
structure Client where
  pc : HandlerPc := .idle
  queue : List Entry := []
  /-- What was sent to the client. -/
  sent : List Entry := []
  /-- The number of messages logged when the queue was registered. -/
  start : ℕ := 0
  /-- The messages dropped from the queue, with the number of messages logged by then. -/
  dropped : List (ℕ × ℕ) := []

structure State where
  /-- `_log_ring`. -/
  ring : List Entry := []
  /-- The connections. The subscribed ones are those of `_log_subscribers`. -/
  clients : ℕ → Client := fun _ ↦ {}
  /-- All messages so far. -/
  logged : List Entry := []

/-! ### `_on_global_log` -/

/-- One round of the fan-out: a full queue loses its oldest message. -/
def Client.offer (c : Client) (e : Entry) : Client :=
  if logWsQueueSize ≤ c.queue.length then
    { c with
      queue := c.queue.tail ++ [e]
      dropped := c.dropped ++ c.queue.head?.toList.map fun oldest ↦ (oldest.number, e.number + 1) }
  else { c with queue := c.queue ++ [e] }

/-- `_on_global_log`, up to its persistence. Data that does not decode is ignored. -/
def onGlobalLog (s : State) : Option Json → State
  | none => s
  | some data =>
    let e : Entry := ⟨s.logged.length, data⟩
    { ring := boundedAppend logRingSize s.ring e
      clients := fun i ↦ if (s.clients i).pc.subscribed then (s.clients i).offer e else s.clients i
      logged := s.logged ++ [e] }

/-! ### `admin_logs_websocket` -/

/-- `websocket.send_json({"type": "log", "payload": entry})`. -/
def Client.send (c : Client) (e : Entry) (r : Reply) (pc : HandlerPc) : Client :=
  { c with sent := c.sent ++ (if r.applied then [e] else []), pc := pc }

/-- The live stream: `queue.get()` suspends on an empty queue only. -/
def Client.live (c : Client) (r : Reply) : Client :=
  match c.queue with
  | [] => { c with pc := .waiting }
  | e :: queue => { c with queue := queue }.send e r (.sending r.raised)

/-- The replay of what is left of the copy of the ring. -/
def Client.replay (c : Client) (rest : List Entry) (r : Reply) : Client :=
  match rest with
  | [] => c.live r
  | e :: rest => c.send e r (.replaying rest r.raised)

/-- The handler from one await to the next; `r` is the answer to the send it issues. -/
def handlerStep (s : State) (c : Client) (r : Reply) : Option Client :=
  match c.pc with
  | .idle => none
  | .accepting true => some { c with pc := .closed }
  | .accepting false => some ({ c with queue := [], start := s.logged.length }.replay s.ring r)
  | .replaying rest false => some (c.replay rest r)
  | .replaying _ true => some { c with pc := .closed }
  | .waiting => if c.queue.isEmpty then none else some (c.live r)
  | .sending false => some (c.live r)
  | .sending true => some { c with pc := .closed }
  | .closed => none

/-! ### The system -/

inductive Action
  /-- A message on the log subject, decoded. -/
  | log (data : Option Json)
  /-- A client connects; `raised` is whether accepting the connection will raise. -/
  | connect (i : ℕ) (token : String) (raised : Bool)
  /-- The handler of a connection continues after an await. -/
  | handler (i : ℕ) (r : Reply)
  /-- The handler is cancelled at the await it is suspended at. -/
  | cancel (i : ℕ)

section

variable (decodeToken : String → Bool)

def step (s : State) : Action → Option State
  | .log data => some (onGlobalLog s data)
  | .connect i token raised =>
    match (s.clients i).pc with
    | .idle =>
      let pc := if token ≠ "" ∧ decodeToken token then .accepting raised else .closed
      some { s with clients := Function.update s.clients i { s.clients i with pc := pc } }
    | _ => none
  | .handler i r =>
    (handlerStep s (s.clients i) r).map fun c ↦
      { s with clients := Function.update s.clients i c }
  | .cancel i =>
    match (s.clients i).pc with
    | .idle | .closed => none
    | _ => some { s with clients := Function.update s.clients i { s.clients i with pc := .closed } }

/-- The feed, from the start of the process. `decodeToken` is whether `decode_token` returns. -/
def system : TransitionSystem State Action where
  init s := s = {}
  step := step decodeToken

end

/-! ### The law -/

/-- The content of the ring when `start` messages were logged: the last ones, in order. -/
def ringAt (logged : List Entry) (start : ℕ) : List Entry :=
  (logged.take start).rtake logRingSize

/-- What was sent to a client beyond the content of the ring at its subscription. -/
def Client.sentLive (c : Client) (logged : List Entry) : List Entry :=
  c.sent.drop (ringAt logged c.start).length

/-- The message left the queue unsent when at least as many newer ones were logged as the queue
holds. -/
def Client.Overflowed (c : Client) (e : Entry) : Prop :=
  ∃ n, (e.number, n) ∈ c.dropped ∧ logWsQueueSize ≤ n - (e.number + 1)

/-- **The law of the feed**: the content of the ring at subscription, and then a subsequence of what
was logged since, in which a message is skipped only when its queue overflowed. -/
structure Fed (logged : List Entry) (c : Client) : Prop where
  sent : c.sent <+: ringAt logged c.start ++ c.sentLive logged
  order : (c.sentLive logged).Sublist (logged.drop c.start)
  skipped : ∀ e ∈ logged.drop c.start, e ∉ c.sentLive logged →
    (∃ e' ∈ c.sentLive logged, e.number < e'.number) → c.Overflowed e

/-! ### Numbers -/

/-- The messages are numbered in the order they were logged. -/
def Numbered (logged : List Entry) : Prop :=
  logged.map Entry.number = List.range logged.length

section

variable {logged : List Entry} {c d : Client} {e : Entry}

theorem Numbered.append (h : Numbered logged) (data : Json) :
    Numbered (logged ++ [⟨logged.length, data⟩]) := by
  rw [Numbered, List.map_append, h, List.length_append, List.length_singleton, List.range_succ]
  rfl

theorem Numbered.number (h : Numbered logged) {pre post : List Entry}
    (hlogged : logged = pre ++ e :: post) : e.number = pre.length := by
  have hget : (logged.map Entry.number)[pre.length]? = some e.number := by simp [hlogged]
  rw [h, List.getElem?_range (by simp [hlogged])] at hget
  exact (Option.some.inj hget).symm

theorem Numbered.pairwise (h : Numbered logged) :
    logged.Pairwise fun e e' ↦ e.number < e'.number := by
  refine List.pairwise_map.1 ?_
  rw [h]
  exact List.pairwise_lt_range

theorem Numbered.lt (h : Numbered logged) (he : e ∈ logged) : e.number < logged.length := by
  have hmem : e.number ∈ logged.map Entry.number := List.mem_map_of_mem he
  rw [h] at hmem
  exact List.mem_range.1 hmem

/-- What is logged later does not change what the ring held. -/
theorem ringAt_append {start : ℕ} (h : start ≤ logged.length) (es : List Entry) :
    ringAt (logged ++ es) start = ringAt logged start := by
  rw [ringAt, List.take_append_of_le_length h, ringAt]

/-! ### What the queue is to the log -/

/-- The queue is the end of what was logged since the subscription; what came before it was sent or
dropped. -/
structure Queued (logged : List Entry) (c : Client) (live : List Entry) : Prop where
  split : ∃ past, logged.drop c.start = past ++ c.queue ∧ live.Sublist past ∧
    ∀ e ∈ past, e ∈ live ∨ c.Overflowed e

/-- The invariant of a connection, at the place its handler is at. -/
def Feeding (logged : List Entry) (c : Client) : Prop :=
  match c.pc with
  | .idle | .accepting _ => c.sent = []
  | .replaying rest false => c.sent ++ rest = ringAt logged c.start ∧ Queued logged c []
  | .waiting | .sending false =>
    ∃ live, c.sent = ringAt logged c.start ++ live ∧ Queued logged c live
  | .replaying _ true | .sending true | .closed => Fed logged c

/-- Nothing was sent beyond the replay. -/
theorem fed_of_replayed (h : c.sent <+: ringAt logged c.start) : Fed logged c := by
  have hnil : c.sentLive logged = [] := List.drop_eq_nil_of_le h.length_le
  refine ⟨?_, ?_, ?_⟩ <;> rw [hnil]
  · rwa [List.append_nil]
  · exact List.nil_sublist _
  · rintro e - - ⟨e', he', -⟩
    exact absurd he' List.not_mem_nil

/-- The law is about what was sent and what was dropped. -/
theorem Fed.of_eq (h : Fed logged c) (hsent : d.sent = c.sent) (hstart : d.start = c.start)
    (hdropped : d.dropped = c.dropped) : Fed logged d := by
  obtain ⟨hbegins, horder, hskipped⟩ := h
  simp only [Client.sentLive, Client.Overflowed] at hbegins horder hskipped
  refine ⟨?_, ?_, ?_⟩ <;> simp only [Client.sentLive, Client.Overflowed, hsent, hstart, hdropped]
  · exact hbegins
  · exact horder
  · exact hskipped

/-- The live stream obeys the law: what is still queued is newer than what was sent. -/
theorem fed_of_queued (hN : Numbered logged) {live : List Entry}
    (hsent : c.sent = ringAt logged c.start ++ live) (h : Queued logged c live) : Fed logged c := by
  have hlive : c.sentLive logged = live := by rw [Client.sentLive, hsent, List.drop_left]
  obtain ⟨past, hpast, hsub, hleft⟩ := h.split
  refine ⟨?_, ?_, ?_⟩ <;> rw [hlive]
  · exact ⟨[], by rw [hsent, List.append_nil]⟩
  · rw [hpast]
    exact hsub.trans (List.sublist_append_left _ _)
  · rintro e he hnot ⟨e', he', hlt⟩
    rw [hpast, List.mem_append] at he
    rcases he with he | he
    · exact (hleft e he).resolve_left hnot
    · have hsorted := hN.pairwise.sublist (List.drop_sublist c.start logged)
      rw [hpast] at hsorted
      have hgt := (List.pairwise_append.1 hsorted).2.2 e' (hsub.subset he') e he
      exact absurd hlt (Nat.lt_asymm hgt)

/-- At every place the law holds. -/
theorem Feeding.fed (hN : Numbered logged) (h : Feeding logged c) : Fed logged c := by
  unfold Feeding at h
  split at h
  · exact fed_of_replayed (h ▸ List.nil_prefix)
  · exact fed_of_replayed (h ▸ List.nil_prefix)
  · exact fed_of_replayed ⟨_, h.1⟩
  · obtain ⟨live, hsent, hQ⟩ := h
    exact fed_of_queued hN hsent hQ
  · obtain ⟨live, hsent, hQ⟩ := h
    exact fed_of_queued hN hsent hQ
  · exact h
  · exact h
  · exact h

/-! ### A message is logged -/

@[simp] theorem pc_offer : (c.offer e).pc = c.pc := by
  simp only [Client.offer]
  split <;> rfl

@[simp] theorem sent_offer : (c.offer e).sent = c.sent := by
  simp only [Client.offer]
  split <;> rfl

@[simp] theorem start_offer : (c.offer e).start = c.start := by
  simp only [Client.offer]
  split <;> rfl

theorem overflowed_offer {e' : Entry} (h : c.Overflowed e') : (c.offer e).Overflowed e' := by
  obtain ⟨n, hn, hle⟩ := h
  refine ⟨n, ?_, hle⟩
  simp only [Client.offer]
  split
  · exact List.mem_append_left _ hn
  · exact hn

/-- The law survives a message that is not sent. -/
theorem Fed.append (h : Fed logged c) (hN : Numbered logged) (hstart : c.start ≤ logged.length)
    (hsent : d.sent = c.sent) (hstart' : d.start = c.start)
    (hover : ∀ e', c.Overflowed e' → d.Overflowed e') (he : e.number = logged.length) :
    Fed (logged ++ [e]) d := by
  have hring : ringAt (logged ++ [e]) d.start = ringAt logged c.start := by
    rw [hstart', ringAt_append hstart]
  have hlive : d.sentLive (logged ++ [e]) = c.sentLive logged := by
    rw [Client.sentLive, hring, hsent, Client.sentLive]
  refine ⟨?_, ?_, ?_⟩ <;> rw [hlive]
  · rw [hring, hsent]
    exact h.sent
  · rw [hstart', List.drop_append_of_le_length hstart]
    exact h.order.trans (List.sublist_append_left _ _)
  · rw [hstart', List.drop_append_of_le_length hstart]
    rintro e' he' hnot hlater
    rcases List.mem_append.1 he' with he' | he'
    · exact hover e' (h.skipped e' he' hnot hlater)
    · obtain rfl := List.mem_singleton.1 he'
      obtain ⟨e'', hmem, hlt⟩ := hlater
      have hlogged : e'' ∈ logged := List.mem_of_mem_drop (h.order.subset hmem)
      exact absurd (hN.lt hlogged) (by omega)

/-- The queue takes the message, and loses its oldest if it is full. -/
theorem Queued.offer {live : List Entry} (h : Queued logged c live) (hN : Numbered logged)
    (hstart : c.start ≤ logged.length) (he : e.number = logged.length) :
    Queued (logged ++ [e]) (c.offer e) live := by
  obtain ⟨past, hpast, hsub, hleft⟩ := h.split
  have hdrop : (logged ++ [e]).drop (c.offer e).start = past ++ (c.queue ++ [e]) := by
    rw [start_offer, List.drop_append_of_le_length hstart, hpast, List.append_assoc]
  have hleft' : ∀ e' ∈ past, e' ∈ live ∨ (c.offer e).Overflowed e' := fun e' he' ↦
    (hleft e' he').imp_right overflowed_offer
  by_cases hfull : logWsQueueSize ≤ c.queue.length
  · obtain ⟨oldest, rest, hqueue⟩ : ∃ oldest rest, c.queue = oldest :: rest :=
      List.exists_cons_of_ne_nil (List.ne_nil_of_length_pos (lt_of_lt_of_le (by decide) hfull))
    have hoffer : (c.offer e).queue = rest ++ [e] := by
      rw [Client.offer, if_pos hfull, hqueue, List.tail_cons]
    have hdropped : (oldest.number, e.number + 1) ∈ (c.offer e).dropped := by
      rw [Client.offer, if_pos hfull, hqueue]
      exact List.mem_append_right _ (List.mem_singleton_self _)
    -- The oldest is followed by the rest of the queue, up to the end of the log.
    have hlogged : logged = (logged.take c.start ++ past) ++ oldest :: rest := by
      rw [List.append_assoc, ← hqueue, ← hpast, List.take_append_drop]
    have hnumber := hN.number hlogged
    have hlength := congrArg List.length hlogged
    rw [hqueue] at hfull
    simp only [List.length_append, List.length_cons] at hnumber hlength hfull
    refine ⟨past ++ [oldest], ?_, hsub.trans (List.sublist_append_left _ _), fun e' he' ↦ ?_⟩
    · rw [hdrop, hoffer, hqueue]
      simp
    · rcases List.mem_append.1 he' with he' | he'
      · exact hleft' e' he'
      · obtain rfl := List.mem_singleton.1 he'
        exact Or.inr ⟨_, hdropped, by omega⟩
  · have hoffer : (c.offer e).queue = c.queue ++ [e] := by simp [Client.offer, hfull]
    exact ⟨past, by rw [hdrop, hoffer], hsub, hleft'⟩

/-- **A message is logged**: every connection keeps its invariant. -/
theorem Feeding.offer (h : Feeding logged c) (hN : Numbered logged)
    (hstart : c.start ≤ logged.length) (he : e.number = logged.length) :
    Feeding (logged ++ [e]) (if c.pc.subscribed then c.offer e else c) := by
  have hlater : Fed logged c → Fed (logged ++ [e]) (c.offer e) := fun hF ↦
    hF.append hN hstart sent_offer start_offer (fun _ ↦ overflowed_offer) he
  unfold Feeding at h ⊢
  rcases hpc : c.pc with - | ⟨raised⟩ | ⟨rest, - | -⟩ | - | ⟨- | -⟩ | - <;>
    simp only [hpc, HandlerPc.subscribed, if_true, Bool.false_eq_true, if_false, pc_offer] at h ⊢
  · exact h
  · exact h
  · rw [sent_offer, start_offer, ringAt_append hstart]
    exact ⟨h.1, h.2.offer hN hstart he⟩
  · exact hlater h
  · obtain ⟨live, hsent, hQ⟩ := h
    rw [sent_offer, start_offer, ringAt_append hstart]
    exact ⟨live, hsent, hQ.offer hN hstart he⟩
  · obtain ⟨live, hsent, hQ⟩ := h
    rw [sent_offer, start_offer, ringAt_append hstart]
    exact ⟨live, hsent, hQ.offer hN hstart he⟩
  · exact hlater h
  · exact h.append hN hstart rfl rfl (fun _ ho ↦ ho) he

/-! ### The handler goes on -/

/-- A message is taken from the queue and sent. -/
theorem feeding_live {live : List Entry} (hN : Numbered logged)
    (hsent : c.sent = ringAt logged c.start ++ live) (h : Queued logged c live) (r : Reply) :
    Feeding logged (c.live r) := by
  obtain ⟨past, hpast, hsub, hleft⟩ := h.split
  rw [Client.live.eq_def]
  split
  · exact ⟨live, hsent, ⟨past, hpast, hsub, hleft⟩⟩
  · rename_i e queue hqueue
    rw [hqueue] at hpast
    have hall : ∀ e' ∈ past ++ [e], e' ∈ live ++ [e] ∨ c.Overflowed e' := by
      intro e' he'
      rcases List.mem_append.1 he' with he' | he'
      · exact (hleft e' he').imp_left (List.mem_append_left _)
      · exact Or.inl (List.mem_append_right _ he')
    have hQ :
      Queued logged ({ c with queue := queue }.send e r (.sending r.raised)) (live ++ [e]) :=
      ⟨past ++ [e], by rw [List.append_assoc]; exact hpast, hsub.append (List.Sublist.refl _), hall⟩
    cases r with
    | ok => exact ⟨live ++ [e], by simp [Client.send, Reply.applied, hsent], hQ⟩
    | lost => exact fed_of_queued hN (by simp [Client.send, Reply.applied, hsent]) hQ
    | error =>
      -- The message is gone, and the connection ends before another one is sent.
      exact (fed_of_queued hN hsent h).of_eq (List.append_nil _) rfl rfl

/-- The replay goes on, and from its end on the live stream. -/
theorem feeding_replay {rest : List Entry} (hN : Numbered logged)
    (hsent : c.sent ++ rest = ringAt logged c.start) (h : Queued logged c []) (r : Reply) :
    Feeding logged (c.replay rest r) := by
  rw [Client.replay.eq_def]
  split
  · exact feeding_live hN (by simpa using hsent) h r
  · rename_i e rest
    cases r with
    | ok => exact ⟨by simpa [Client.send, Reply.applied] using hsent, ⟨h.split⟩⟩
    | lost =>
      refine fed_of_replayed ⟨rest, ?_⟩
      simpa [Client.send, Reply.applied] using hsent
    | error =>
      refine (fed_of_replayed (c := c) ⟨e :: rest, hsent⟩).of_eq (List.append_nil _) rfl rfl

/-! ### Runs -/

/-- The invariant: the ring is the end of the log, and every connection is fed. -/
structure Inv (s : State) : Prop where
  numbered : Numbered s.logged
  ring : s.ring = s.logged.rtake logRingSize
  start_le : ∀ i, (s.clients i).start ≤ s.logged.length
  feeding : ∀ i, Feeding s.logged (s.clients i)

variable {decodeToken : String → Bool} {s t : State}

/-- One connection changes. -/
theorem Inv.update (h : Inv s) (i : ℕ) (hstart : c.start ≤ s.logged.length)
    (hc : Feeding s.logged c) : Inv { s with clients := Function.update s.clients i c } := by
  refine ⟨h.numbered, h.ring, fun j ↦ ?_, fun j ↦ ?_⟩ <;> by_cases hj : j = i
  · subst hj
    simpa using hstart
  · simpa [hj] using h.start_le j
  · subst hj
    simpa using hc
  · simpa [hj] using h.feeding j

/-- A message on the log subject. -/
theorem inv_onGlobalLog (h : Inv s) (data : Option Json) : Inv (onGlobalLog s data) := by
  cases data with
  | none => exact h
  | some data =>
    simp only [onGlobalLog]
    generalize he : (⟨s.logged.length, data⟩ : Entry) = e
    have hnumber : e.number = s.logged.length := by rw [← he]
    refine ⟨?_, ?_, fun i ↦ ?_, fun i ↦ (h.feeding i).offer h.numbered (h.start_le i) hnumber⟩
    · rw [← he]
      exact h.numbered.append data
    · rw [h.ring, boundedAppend_rtake]
    · have hle := (h.start_le i).trans (Nat.le_add_right _ 1)
      rw [List.length_append, List.length_singleton]
      show (if _ then (s.clients i).offer e else s.clients i).start ≤ _
      split
      · rwa [start_offer]
      · exact hle

@[simp] theorem start_live {r : Reply} : (c.live r).start = c.start := by
  rw [Client.live.eq_def]
  split <;> rfl

@[simp] theorem start_replay {rest : List Entry} {r : Reply} :
    (c.replay rest r).start = c.start := by
  rw [Client.replay.eq_def]
  split
  · exact start_live
  · rfl

/-- **The handler between two awaits.** -/
theorem inv_handlerStep {r : Reply} {i : ℕ} (h : Inv s)
    (ht : handlerStep s (s.clients i) r = some c) :
    c.start ≤ s.logged.length ∧ Feeding s.logged c := by
  have hF := h.feeding i
  have hfed := hF.fed h.numbered
  have hstart := h.start_le i
  unfold Feeding at hF
  rw [handlerStep.eq_def] at ht
  split at ht <;> rename_i hpc <;> simp only [hpc] at hF
  · contradiction
  · obtain rfl := Option.some.inj ht
    exact ⟨hstart, hfed.of_eq rfl rfl rfl⟩
  · -- The queue is registered and the ring copied: nothing is logged since.
    obtain rfl := Option.some.inj ht
    rw [start_replay]
    have hring : ringAt s.logged s.logged.length = s.ring := by
      rw [ringAt, List.take_length, h.ring]
    refine ⟨le_rfl, feeding_replay h.numbered ?_ ⟨[], ?_, List.nil_sublist _, nofun⟩ r⟩
    · rw [hring, hF, List.nil_append]
    · rw [List.drop_length, List.nil_append]
  · obtain rfl := Option.some.inj ht
    rw [start_replay]
    exact ⟨hstart, feeding_replay h.numbered hF.1 hF.2 r⟩
  · obtain rfl := Option.some.inj ht
    exact ⟨hstart, hfed.of_eq rfl rfl rfl⟩
  · obtain ⟨live, hsent, hQ⟩ := hF
    obtain ⟨-, ht⟩ := Option.ite_none_left_eq_some.1 ht
    obtain rfl := Option.some.inj ht
    rw [start_live]
    exact ⟨hstart, feeding_live h.numbered hsent hQ r⟩
  · obtain ⟨live, hsent, hQ⟩ := hF
    obtain rfl := Option.some.inj ht
    rw [start_live]
    exact ⟨hstart, feeding_live h.numbered hsent hQ r⟩
  · obtain rfl := Option.some.inj ht
    exact ⟨hstart, hfed.of_eq rfl rfl rfl⟩
  · contradiction

/-- **One step.** -/
theorem inv_step {a : Action} (h : Inv s) (ht : step decodeToken s a = some t) : Inv t := by
  cases a with
  | log data =>
    obtain rfl := Option.some.inj ht
    exact inv_onGlobalLog h data
  | connect i token raised =>
    simp only [step] at ht
    split at ht
    · rename_i hidle
      obtain rfl := Option.some.inj ht
      have hsent : (s.clients i).sent = [] := by
        have hF := h.feeding i
        unfold Feeding at hF
        simpa only [hidle] using hF
      refine h.update i (h.start_le i) ?_
      split
      · exact hsent
      · exact ((h.feeding i).fed h.numbered).of_eq rfl rfl rfl
    · contradiction
  | handler i r =>
    obtain ⟨c, hc, rfl⟩ := Option.map_eq_some_iff.1 ht
    obtain ⟨hstart, hF⟩ := inv_handlerStep h hc
    exact h.update i hstart hF
  | cancel i =>
    simp only [step] at ht
    split at ht
    · contradiction
    · contradiction
    · obtain rfl := Option.some.inj ht
      exact h.update i (h.start_le i) (((h.feeding i).fed h.numbered).of_eq rfl rfl rfl)

theorem inv_inductive (decodeToken : String → Bool) :
    (system decodeToken).Inductive TransitionSystem.always Inv where
  init s hs := by
    obtain rfl : s = {} := hs
    exact ⟨rfl, rfl, fun _ ↦ le_rfl, fun _ ↦ rfl⟩
  step h _ ht := inv_step h ht

/-- **The log feed is gap-free and duplicate-free up to overflow.** In every state of every run, for
every connection: what was sent is a prefix of the content of the ring at its subscription, the last
messages logged by then, followed by a subsequence of what was logged since; and a message is
skipped only if its queue dropped it when at least as many newer ones had been logged as the queue
holds. -/
theorem log_feed (h : (system decodeToken).Reachable TransitionSystem.always s) (i : ℕ) :
    Fed s.logged (s.clients i) ∧ s.logged.map Entry.number = List.range s.logged.length :=
  have hI := (inv_inductive decodeToken).reachable h
  ⟨(hI.feeding i).fed hI.numbered, hI.numbered⟩

end

/-- A message before the subscription, one during the replay and one after it, while another
connection comes and goes: the client gets the three of them. -/
theorem log_feed_three :
    ∃ s, (system fun _ ↦ true).Reachable TransitionSystem.always s ∧
      (s.clients 0).sent.map Entry.number = [0, 1, 2] ∧ (s.clients 0).start = 1 ∧
      Fed s.logged (s.clients 0) := by
  obtain ⟨s, hs, htest⟩ := TransitionSystem.exists_reachable_of_exec (M := system fun _ ↦ true)
    (G := TransitionSystem.always) {}
    [.log (some .null), .connect 0 "jwt" false, .connect 1 "jwt" false, .handler 0 .ok,
      .handler 1 .ok, .log (some .null), .log none, .handler 0 .ok, .cancel 1, .log (some .null),
      .handler 0 .ok]
    (fun s ↦ (s.clients 0).sent.map Entry.number = [0, 1, 2] ∧ (s.clients 0).start = 1) rfl
    (by decide +kernel)
  obtain ⟨hsent, hstart⟩ := of_decide_eq_true htest
  exact ⟨s, hs, hsent, hstart, (log_feed hs 0).1⟩

end LiveSTT.LogFeed
