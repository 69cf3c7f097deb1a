import Mathlib.Data.List.Nodup
import LiveSTT.Lib.Json
import LiveSTT.Lib.TransitionSystem

/-!
# api-gateway: broadcasts and failing clients

`ConnectionManager` keeps the list of connections. A broadcast goes over a copy of the list as it
was at the start and suspends in every send; meanwhile other tasks append connections and remove
them. A send that raises is noted, and the connections that raised are removed at the end, without
an await in between. `list.remove` raises on what is not there, which `disconnect` checks first.

So a broadcast returns, has offered its message once to each connection it began with, and leaves
the list as the other tasks have made it, without the connections that raised
(`broadcast_isolates`). The invariant carries what was offered and delivered so far, and that the
broadcast itself has not touched the list (`Halfway`).

The order in which the sends come back is the order of the copy, as each is awaited before the next
is issued. The other tasks may do anything at every one of these awaits. The list at the end is
compared with what they alone have made of the list at the start.
-/

namespace LiveSTT.Connections

variable {κ : Type*} [DecidableEq κ]

/-! ### The manager -/

/-- `xs.remove(x)`, which raises if there is no `x`. -/
def remove (xs : List κ) (x : κ) : Option (List κ) :=
  if x ∈ xs then some (xs.erase x) else none

/-- `disconnect`. -/
def disconnect (activeConnections : List κ) (websocket : κ) : Option (List κ) :=
  if websocket ∈ activeConnections then remove activeConnections websocket
  else some activeConnections

/-- The loop over `dead`. -/
def disconnectAll (activeConnections : List κ) : List κ → Option (List κ)
  | [] => some activeConnections
  | connection :: dead =>
    (disconnect activeConnections connection).bind fun active ↦ disconnectAll active dead

/-- Where a broadcast is. -/
inductive Pc (κ : Type*)
  | idle
  /-- At the send to `connection`; `rest` is the part of the copied list behind it. -/
  | sending (message : Json) (connection : κ) (rest dead : List κ)
  | returned
  | raised

structure State (κ : Type*) where
  activeConnections : List κ := []
  pc : Pc κ := .idle
  /-- The sends that were made. -/
  offered : List (κ × Json) := []
  /-- The sends that returned. -/
  delivered : List (κ × Json) := []

/-- The loop over the copied list, from one send to the next or to the end. -/
def sendNext (s : State κ) (message : Json) (rest dead : List κ) : State κ :=
  match rest with
  | connection :: rest => { s with
      offered := s.offered ++ [(connection, message)]
      pc := .sending message connection rest dead }
  | [] =>
    match disconnectAll s.activeConnections dead with
    | some active => { s with activeConnections := active, pc := .returned }
    | none => { s with pc := .raised }

/-- The common body of the two broadcasts. -/
def sendAll (s : State κ) (message : Json) : State κ :=
  sendNext s message s.activeConnections []

/-- `broadcast`. -/
def broadcast (s : State κ) (message : Json) : State κ :=
  sendAll s (.obj [("type", .str "transcript"), ("payload", message)])

/-- `broadcast_message`. -/
def broadcastMessage (s : State κ) (message : Json) : State κ :=
  sendAll s message

inductive Action (κ : Type*)
  | broadcast (message : Json)
  | broadcastMessage (message : Json)
  /-- The send under way returns or raises. -/
  | answered (raised : Bool)
  /-- `connect`, past the accept. -/
  | connect (websocket : κ)
  | disconnect (websocket : κ)

def step (s : State κ) : Action κ → Option (State κ)
  | .broadcast message =>
    match s.pc with
    | .sending _ _ _ _ => none
    | _ => some (broadcast s message)
  | .broadcastMessage message =>
    match s.pc with
    | .sending _ _ _ _ => none
    | _ => some (broadcastMessage s message)
  | .answered raised =>
    match s.pc with
    | .sending message connection rest dead =>
      if raised then some (sendNext s message rest (dead ++ [connection]))
      else some (sendNext
        { s with delivered := s.delivered ++ [(connection, message)] } message rest dead)
    | _ => none
  | .connect websocket => some { s with activeConnections := s.activeConnections ++ [websocket] }
  | .disconnect websocket => (disconnect s.activeConnections websocket).map fun active ↦
      { s with activeConnections := active }

/-- api-gateway's connections, from the start. -/
def system : TransitionSystem (State κ) (Action κ) where
  init s := s = {}
  step := step

/-! ### Removing connections -/

/-- `disconnect` does not raise. -/
theorem disconnect_eq (activeConnections : List κ) (websocket : κ) :
    disconnect activeConnections websocket = some (activeConnections.erase websocket) := by
  rw [disconnect]
  split
  · rename_i hmem
    rw [remove, if_pos hmem]
  · rename_i hmem
    rw [List.erase_of_not_mem hmem]

/-- Connections are removed wherever they are, and the others stay in order. -/
theorem disconnectAll_eq {activeConnections : List κ} (hnodup : activeConnections.Nodup)
    (dead : List κ) : disconnectAll activeConnections dead =
      some (activeConnections.filter fun c ↦ c ∉ dead) := by
  induction dead generalizing activeConnections with
  | nil => simp [disconnectAll]
  | cons connection dead ih =>
    rw [disconnectAll, disconnect_eq, Option.bind_some, ih (hnodup.erase connection),
      hnodup.erase_eq_filter, List.filter_filter]
    congr 2
    funext c
    by_cases hc : c = connection <;> simp [hc]

/-! ### One broadcast -/

/-- A broadcast begins, with what it sends. -/
inductive Begun (s : State κ) : Json → State κ → Prop
  | broadcast (message : Json) :
    Begun s (.obj [("type", .str "transcript"), ("payload", message)]) (broadcast s message)
  | broadcastMessage (message : Json) : Begun s message (broadcastMessage s message)

/-- While a broadcast is under way: the send to a connection raises as `raises` says, and other
tasks connect and disconnect. A connection is connected once. -/
def allowed (raises : κ → Bool) (s : State κ) (a : Action κ) : Bool :=
  match s.pc, a with
  | .sending _ connection _ _, .answered raised => raised = raises connection
  | .sending _ _ _ _, .connect websocket => websocket ∉ s.activeConnections
  | .sending _ _ _ _, .disconnect _ => true
  | _, _ => false

/-- What the other tasks make of the list. -/
def register (connections : List κ) : Action κ → List κ
  | .connect websocket => connections ++ [websocket]
  | .disconnect websocket => connections.erase websocket
  | _ => connections

/-- The sends that were answered. -/
def answers (as : List (Action κ)) : ℕ :=
  as.countP fun
    | .answered _ => true
    | _ => false

section

variable (raises : κ → Bool) (s : State κ) (message : Json)

/-- The broadcast that began in `s` has sent to `sent`, and `connections` are registered. -/
structure Sent (sent connections : List κ) (t : State κ) : Prop where
  offered : t.offered = s.offered ++ sent.map (·, message)
  registered : t.activeConnections = connections
  nodup : connections.Nodup

/-- The broadcast has been answered by `sent`. -/
def Halfway (sent connections : List κ) (t : State κ) : Prop :=
  t.delivered = s.delivered ++ (sent.filter fun c ↦ !raises c).map (·, message) ∧
    match t.pc with
    | .sending m connection rest dead =>
      m = message ∧ s.activeConnections = sent ++ connection :: rest ∧ dead = sent.filter raises ∧
        Sent s message (sent ++ [connection]) connections t
    | .returned => s.activeConnections = sent ∧
        t.offered = s.offered ++ sent.map (·, message) ∧
        t.activeConnections = connections.filter fun c ↦ c ∉ sent.filter raises
    | _ => False

variable {raises s message} {sent connections : List κ} {t : State κ}

/-- The loop goes on. -/
theorem halfway_sendNext {rest : List κ} (hrest : s.activeConnections = sent ++ rest)
    (hsent : Sent s message sent connections t)
    (hdelivered : t.delivered = s.delivered ++ (sent.filter fun c ↦ !raises c).map (·, message)) :
    Halfway raises s message sent connections (sendNext t message rest (sent.filter raises)) := by
  cases rest with
  | cons connection rest =>
    refine ⟨hdelivered, rfl, hrest, rfl, ?_, hsent.registered, hsent.nodup⟩
    simp [sendNext, hsent.offered]
  | nil =>
    have hpruned := disconnectAll_eq (hsent.registered ▸ hsent.nodup) (sent.filter raises)
    rw [List.append_nil] at hrest
    simp only [sendNext, hpruned]
    refine ⟨hdelivered, hrest, hsent.offered, ?_⟩
    rw [hsent.registered]

/-- The beginning. -/
theorem halfway_begun (hnodup : s.activeConnections.Nodup) (hbegun : Begun s message t) :
    Halfway raises s message [] s.activeConnections t := by
  have hsendAll : Halfway raises s message [] s.activeConnections (sendAll s message) :=
    halfway_sendNext rfl ⟨by simp, rfl, hnodup⟩ (by simp)
  cases hbegun with
  | broadcast => exact hsendAll
  | broadcastMessage => exact hsendAll

/-- **One step.** -/
theorem Halfway.step {a : Action κ} {u : State κ} (h : Halfway raises s message sent connections t)
    (hallowed : allowed raises t a = true)
    (hu : step t a = some u) :
    ∃ more, Halfway raises s message (sent ++ more) (register connections a) u ∧
      more.length = answers [a] := by
  obtain ⟨hdelivered, hpc⟩ := h
  rw [allowed.eq_def] at hallowed
  split at hallowed
  · -- The send is answered, and the connection may be dead.
    rename_i m connection rest dead raised ht
    rw [ht] at hpc
    obtain ⟨rfl, hsnapshot, rfl, hsent⟩ := hpc
    have hsnapshot' : s.activeConnections = (sent ++ [connection]) ++ rest := by
      rw [hsnapshot, List.append_assoc, List.singleton_append]
    have hraised := of_decide_eq_true hallowed
    refine ⟨[connection], ?_, rfl⟩
    simp only [Connections.step, ht] at hu
    cases hraises : raises connection with
    | true =>
      rw [hraised, hraises, if_pos rfl] at hu
      obtain rfl := Option.some.inj hu
      have hdead : sent.filter raises ++ [connection] = (sent ++ [connection]).filter raises := by
        simp [hraises]
      rw [hdead]
      refine halfway_sendNext hsnapshot' hsent ?_
      rw [hdelivered]
      simp [hraises]
    | false =>
      rw [hraised, hraises, if_neg Bool.false_ne_true] at hu
      obtain rfl := Option.some.inj hu
      have hdead : sent.filter raises = (sent ++ [connection]).filter raises := by
        simp [hraises]
      rw [hdead]
      refine halfway_sendNext hsnapshot' ⟨hsent.offered, hsent.registered, hsent.nodup⟩ ?_
      simp [hdelivered, hraises]
  · rename_i m connection rest dead websocket ht
    rw [ht] at hpc
    obtain ⟨hm, hsnapshot, hdead, hsent⟩ := hpc
    obtain rfl := Option.some.inj hu
    refine ⟨[], ⟨by rwa [List.append_nil], ?_⟩, rfl⟩
    simp only [ht, List.append_nil]
    refine ⟨hm, hsnapshot, hdead, hsent.offered, by rw [hsent.registered, register], ?_⟩
    have hnew := of_decide_eq_true hallowed
    rw [hsent.registered] at hnew
    rw [register, ← List.concat_eq_append]
    exact hsent.nodup.concat hnew
  · rename_i m connection rest dead websocket ht
    rw [ht] at hpc
    obtain ⟨hm, hsnapshot, hdead, hsent⟩ := hpc
    simp only [Connections.step, disconnect_eq, Option.map_some] at hu
    obtain rfl := Option.some.inj hu
    refine ⟨[], ⟨by rwa [List.append_nil], ?_⟩, rfl⟩
    simp only [ht, List.append_nil]
    exact ⟨hm, hsnapshot, hdead, hsent.offered, by rw [hsent.registered, register],
      hsent.nodup.erase websocket⟩
  · contradiction

/-- **A run.** -/
theorem halfway_run {b : State κ} {as : List (Action κ)} (hnodup : s.activeConnections.Nodup)
    (hbegun : Begun s message b) (hrun : system.Run (fun s a ↦ allowed raises s a = true) b as t) :
    ∃ sent, Halfway raises s message sent (as.foldl register s.activeConnections) t ∧
      sent.length = answers as := by
  induction hrun with
  | nil => exact ⟨[], halfway_begun hnodup hbegun, rfl⟩
  | @snoc as a t u _ hallowed hstep ih =>
    obtain ⟨sent, hhalfway, hlength⟩ := ih
    obtain ⟨more, hmore, hcount⟩ := hhalfway.step hallowed hstep
    refine ⟨sent ++ more, ?_, ?_⟩
    · rw [List.foldl_concat]
      exact hmore
    · rw [List.length_append, hlength, hcount, answers, answers, answers, List.countP_append]

/-- **Broadcasts isolate failing clients.** A broadcast, while other tasks connect and disconnect
clients and whatever sends raise, does not raise and goes on until it has been answered once for
each connection that was registered when it began. It has then offered its message once to each of
them and delivered it to those that did not raise, and the connections are the registered ones, in
their order, without those that raised. -/
theorem broadcast_isolates {raises : κ → Bool} {s b t : State κ} {message : Json}
    {as : List (Action κ)} (hnodup : s.activeConnections.Nodup) (hbegun : Begun s message b)
    (hrun : system.Run (fun s a ↦ allowed raises s a = true) b as t) :
    t.pc ≠ .raised ∧
    (answers as < s.activeConnections.length →
      ∃ connection u, allowed raises t (.answered (raises connection)) = true ∧
        step t (.answered (raises connection)) = some u) ∧
    (answers as < s.activeConnections.length ∨ t.pc = .returned) ∧
    (t.pc = .returned →
      answers as = s.activeConnections.length ∧
      t.offered = s.offered ++ s.activeConnections.map (·, message) ∧
      t.delivered =
        s.delivered ++ (s.activeConnections.filter fun c ↦ !raises c).map (·, message) ∧
      t.activeConnections = (as.foldl register s.activeConnections).filter
        fun c ↦ c ∉ s.activeConnections.filter raises) := by
  obtain ⟨sent, ⟨hdelivered, hpc⟩, hlength⟩ := halfway_run hnodup hbegun hrun
  rw [← hlength]
  cases ht : t.pc with
  | sending m connection rest dead =>
    rw [ht] at hpc
    obtain ⟨-, hsnapshot, -⟩ := hpc
    refine ⟨fun h ↦ by contradiction, fun _ ↦ ?_, Or.inl ?_, fun h ↦ by contradiction⟩
    · refine ⟨connection, ?_⟩
      cases hraises : raises connection <;> simp [allowed, step, ht, hraises]
    · rw [hsnapshot, List.length_append, List.length_cons]
      omega
  | returned =>
    rw [ht] at hpc
    obtain ⟨hsnapshot, hoffered, hactive⟩ := hpc
    refine ⟨fun h ↦ by
      contradiction, fun hlt ↦ ?_, Or.inr rfl, fun _ ↦ ⟨by rw [hsnapshot], ?_, ?_, ?_⟩⟩
    · rw [hsnapshot] at hlt
      exact absurd hlt (lt_irrefl _)
    · rw [hoffered, hsnapshot]
    · rw [hdelivered, hsnapshot]
    · rw [hactive, hsnapshot]
  | idle =>
    rw [ht] at hpc
    exact hpc.elim
  | raised =>
    rw [ht] at hpc
    exact hpc.elim

end

/-! ### Two clients, one of which fails -/

/-- Client 2 has gone away; while it is sent to, client 3 connects. -/
theorem broadcast_isolates_failing :
    ∃ b t : State ℕ, Begun { activeConnections := [1, 2] } .null b ∧
      system.Run (fun s a ↦ allowed (fun c ↦ c = 2) s a = true) b
        [.answered false, .connect 3, .answered true] t ∧ t.activeConnections = [1, 3] := by
  have hrun : system.Run (fun s a ↦ allowed (fun c ↦ c = 2) s a = true)
      (broadcastMessage { activeConnections := [1, 2] } .null)
      [.answered false, .connect 3, .answered true] _ := TransitionSystem.run_of_exec rfl
  obtain ⟨-, -, hgoes, hreturns⟩ := broadcast_isolates (by decide) (.broadcastMessage .null) hrun
  have ht := hgoes.resolve_left (by decide)
  exact ⟨_, _, .broadcastMessage .null, hrun, (hreturns ht).2.2.2⟩

end LiveSTT.Connections
