import LiveSTT.Gateway.Connections
import Mathlib.Data.List.Range
import Mathlib.Order.Bounds.Basic

/-!
# api-gateway: how many viewers there can be

`websocket_endpoint` compares the number of connections with `MAX_WS_CONNECTIONS` and then awaits
the accept, behind which the connection is registered. Other handlers make the comparison in
between, so the limit is **not** a bound. What is one is the limit less one plus the number of
handshakes that are under way at the same time, and it is reached (`greatest_registered`).

A handler takes its connection out of the list where its receive loop ends. The announcement of a
replay is sent in front of that loop: when it raises, the handler is over and the connection stays,
and counts, until a broadcast has failed to send to it (`registered_iff`).

A connection is the number of its handler. `dropped` are the connections that broadcasts have taken
out; it is no part of the program.

The order of the comparisons and the accepts is free, and so is the moment at which a broadcast
finds a connection gone. `greatest_registered` says of a number that it is the largest in a set of
reachable states, with the run that reaches it; `registered_iff` says which handlers a connection in
the list can belong to.
-/

namespace LiveSTT.ViewerLimit

open Connections (disconnect disconnectAll disconnect_eq disconnectAll_eq)
open TransitionSystem

/-- Where a handler is. -/
inductive Pc
  /-- At `websocket.accept()`. -/
  | accepting
  /-- At `websocket.close(code=1013)`. -/
  | rejecting
  /-- At the send of `replay_start`. -/
  | starting
  /-- In `_replay_session_transcript`, which does not raise. -/
  | replaying
  /-- At `websocket.receive_text()`. -/
  | receiving
  /-- An exception has left the handler. -/
  | failed
  | ended
  deriving DecidableEq

/-- The handler is past the accept, and has not called `disconnect`. -/
def Pc.registered : Pc → Bool
  | starting | replaying | receiving | failed => true
  | accepting | rejecting | ended => false

/-- The handler is past the accept. -/
def Pc.accepted : Pc → Bool
  | starting | replaying | receiving | failed | ended => true
  | accepting | rejecting => false

structure State where
  activeConnections : List ℕ := []
  handlers : List Pc := []
  dropped : List ℕ := []

/-! ### The endpoint -/

/-- A handler goes on to `pc`. -/
def State.goto (s : State) (n : ℕ) (pc : Pc) : State := { s with handlers := s.handlers.set n pc }

/-- The first part of `websocket_endpoint`, up to its first await. -/
def websocketEndpoint (limit : ℤ) (s : State) : State :=
  if limit ≤ s.activeConnections.length then { s with handlers := s.handlers ++ [.rejecting] }
  else { s with handlers := s.handlers ++ [.accepting] }

/-- The accept returns: `connect` registers the connection, and a running session is replayed. -/
def connect (s : State) (n : ℕ) (active : Option String) : State :=
  { s.goto n (if active.getD "" ≠ "" then .starting else .receiving) with
    activeConnections := s.activeConnections ++ [n] }

inductive Action
  /-- A client asks for a connection. -/
  | request
  /-- The accept of a handler returns, with what `_active_session_id` is then, or raises. -/
  | accepted (n : ℕ) (active : Option String)
  | unaccepted (n : ℕ)
  /-- The close of a rejected connection is over. -/
  | closed (n : ℕ)
  /-- The send of `replay_start` returns or raises. -/
  | started (n : ℕ) (raised : Bool)
  | replayed (n : ℕ)
  /-- The client sends a text, or the receive raises. -/
  | received (n : ℕ) (raised : Bool)
  /-- A broadcast ends, and drops those connections to which its sends have raised. -/
  | broadcast (dead : List ℕ)

def step (limit : ℤ) (s : State) : Action → Option State
  | .request => some (websocketEndpoint limit s)
  | .accepted n active =>
    if s.handlers[n]? = some .accepting then some (connect s n active) else none
  | .unaccepted n => if s.handlers[n]? = some .accepting then some (s.goto n .ended) else none
  | .closed n => if s.handlers[n]? = some .rejecting then some (s.goto n .ended) else none
  | .started n raised =>
    if s.handlers[n]? = some .starting then some (s.goto n (if raised then .failed else .replaying))
    else none
  | .replayed n => if s.handlers[n]? = some .replaying then some (s.goto n .receiving) else none
  | .received n raised =>
    if s.handlers[n]? = some .receiving then
      if raised then (disconnect s.activeConnections n).map fun active ↦
        { s.goto n .ended with activeConnections := active }
      else some s
    else none
  | .broadcast dead =>
    if dead.all fun n ↦ (s.handlers[n]?.any Pc.accepted) then
      (disconnectAll s.activeConnections dead).map fun active ↦
        { s with activeConnections := active, dropped := s.dropped ++ dead }
    else none

/-- The gateway, from its start. -/
def system (limit : ℤ) : TransitionSystem State Action where
  init s := s = {}
  step := step limit

/-- The handshakes under way. -/
def State.handshakes (s : State) : ℕ := s.handlers.count .accepting

/-- At most `k` handshakes are under way at the same time. -/
def atMost (k : ℕ) (s : State) : Action → Prop
  | .request => s.handshakes < k
  | _ => True

/-! ### What a step can do -/

/-- The inversion of `step`: a handler begins, goes on, is registered or taken out, or a broadcast
drops connections. -/
inductive Stepped (limit : ℤ) (s : State) : Action → State → Prop
  | admitted (hlimit : (s.activeConnections.length : ℤ) < limit) :
    Stepped limit s .request { s with handlers := s.handlers ++ [.accepting] }
  | rejected : Stepped limit s .request { s with handlers := s.handlers ++ [.rejecting] }
  | connected {n : ℕ} {pc : Pc} (hn : s.handlers[n]? = some .accepting) (hpc : pc.registered = true)
      (active : Option String) : Stepped limit s (.accepted n active)
        { s.goto n pc with activeConnections := s.activeConnections ++ [n] }
  | moved {a : Action} {n : ℕ} {pc pc' : Pc} (hn : s.handlers[n]? = some pc) (hlive : pc ≠ .failed)
      (hpc : pc'.registered = pc.registered) (hafter : pc.accepted = true → pc'.accepted = true)
      (hnew : pc' ≠ .accepting) : Stepped limit s a (s.goto n pc')
  | disconnected {n : ℕ} (hn : s.handlers[n]? = some .receiving) :
      Stepped limit s (.received n true)
      { s.goto n .ended with activeConnections := s.activeConnections.erase n }
  | same (n : ℕ) : Stepped limit s (.received n false) s
  | dropped {dead active : List ℕ} (hdead : ∀ n ∈ dead, s.handlers[n]?.any Pc.accepted = true)
      (hactive : disconnectAll s.activeConnections dead = some active) :
        Stepped limit s (.broadcast dead)
        { s with activeConnections := active, dropped := s.dropped ++ dead }

section

variable {limit : ℤ} {k : ℕ} {s t : State} {a : Action}

/-- Every step is one of the cases. -/
theorem stepped_of_step (ht : step limit s a = some t) : Stepped limit s a t := by
  cases a with
  | request =>
    obtain rfl := Option.some.inj ht
    rw [websocketEndpoint]
    split
    · exact .rejected
    · exact .admitted (by omega)
  | accepted n active =>
    obtain ⟨hn, ht⟩ := Option.ite_none_right_eq_some.1 ht
    obtain rfl := Option.some.inj ht
    refine .connected hn ?_ active
    split <;> rfl
  | unaccepted n =>
    obtain ⟨hn, ht⟩ := Option.ite_none_right_eq_some.1 ht
    obtain rfl := Option.some.inj ht
    exact .moved hn (by simp) rfl (by simp [Pc.accepted]) (by simp)
  | closed n =>
    obtain ⟨hn, ht⟩ := Option.ite_none_right_eq_some.1 ht
    obtain rfl := Option.some.inj ht
    exact .moved hn (by simp) rfl (by simp [Pc.accepted]) (by simp)
  | started n raised =>
    obtain ⟨hn, ht⟩ := Option.ite_none_right_eq_some.1 ht
    obtain rfl := Option.some.inj ht
    cases raised with
    | true => exact .moved hn (by simp) rfl (by simp [Pc.accepted]) (by simp)
    | false => exact .moved hn (by simp) rfl (by simp [Pc.accepted]) (by simp)
  | replayed n =>
    obtain ⟨hn, ht⟩ := Option.ite_none_right_eq_some.1 ht
    obtain rfl := Option.some.inj ht
    exact .moved hn (by simp) rfl (by simp [Pc.accepted]) (by simp)
  | received n raised =>
    obtain ⟨hn, ht⟩ := Option.ite_none_right_eq_some.1 ht
    cases raised with
    | true =>
      rw [if_pos rfl, disconnect_eq, Option.map_some] at ht
      obtain rfl := Option.some.inj ht
      exact .disconnected hn
    | false =>
      rw [if_neg Bool.false_ne_true] at ht
      obtain rfl := Option.some.inj ht
      exact .same n
  | broadcast dead =>
    obtain ⟨hdead, ht⟩ := Option.ite_none_right_eq_some.1 ht
    obtain ⟨active, hactive, rfl⟩ := Option.map_eq_some_iff.1 ht
    exact .dropped (List.all_eq_true.1 hdead) hactive

theorem getElem?_goto {n : ℕ} {pc : Pc} (hn : s.handlers[n]? = some pc) (pc' : Pc) (m : ℕ) :
    (s.goto n pc').handlers[m]? = if m = n then some pc' else s.handlers[m]? := by
  obtain ⟨hlt, -⟩ := List.getElem?_eq_some_iff.1 hn
  rw [State.goto, List.getElem?_set]
  by_cases hm : m = n
  · rw [if_pos hm.symm, if_pos hlt, if_pos hm]
  · rw [if_neg (Ne.symm hm), if_neg hm]

theorem handshakes_goto {n : ℕ} {pc pc' : Pc} (hn : s.handlers[n]? = some pc)
    (hnew : pc' ≠ .accepting) :
    (s.goto n pc').handshakes = s.handshakes - if pc = .accepting then 1 else 0 := by
  obtain ⟨hlt, hget⟩ := List.getElem?_eq_some_iff.1 hn
  rw [State.handshakes, State.goto, List.count_set hlt, hget, State.handshakes]
  simp [hnew]

theorem handshakes_pos {n : ℕ} (hn : s.handlers[n]? = some .accepting) : 0 < s.handshakes :=
  List.count_pos_iff.2 (List.mem_of_getElem? hn)

/-- Connections that are dropped are not counted. -/
theorem length_le_of_disconnectAll {xs ys dead : List ℕ} (h : disconnectAll xs dead = some ys) :
    ys.length ≤ xs.length := by
  induction dead generalizing xs with
  | nil =>
    obtain rfl := Option.some.inj h
    exact le_rfl
  | cons n dead ih =>
    rw [disconnectAll, disconnect_eq, Option.bind_some] at h
    exact (ih h).trans List.length_erase_le

/-! ### Which connections are registered -/

/-- A connection is registered if its handler is in charge of it, or has left it behind, and no
broadcast has dropped it. -/
structure Tracks (s : State) : Prop where
  nodup : s.activeConnections.Nodup
  mem_iff : ∀ n, n ∈ s.activeConnections ↔ n ∉ s.dropped ∧ s.handlers[n]?.any Pc.registered = true
  dropped : ∀ n ∈ s.dropped, s.handlers[n]?.any Pc.accepted = true

/-- A handler begins, whose number is new. -/
theorem Tracks.begin (h : Tracks s) {pc : Pc} (hpc : pc.registered = false) :
    Tracks { s with handlers := s.handlers ++ [pc] } := by
  have hother (n : ℕ) (p : Pc → Bool) (hp : p pc = false) :
      (s.handlers ++ [pc])[n]?.any p = s.handlers[n]?.any p := by
    rcases Nat.lt_trichotomy n s.handlers.length with hlt | rfl | hgt
    · rw [List.getElem?_append_left hlt]
    · simp [hp]
    · have hlength : (s.handlers ++ [pc]).length ≤ n := by
        rw [List.length_append, List.length_singleton]
        exact hgt
      rw [List.getElem?_eq_none hlength, List.getElem?_eq_none hgt.le]
  refine ⟨h.nodup, fun n ↦ ?_, fun n hn ↦ ?_⟩
  · rw [h.mem_iff, hother n _ hpc]
  · have hold := h.dropped n hn
    have hlt : n < s.handlers.length := by
      by_contra hle
      rw [List.getElem?_eq_none (Nat.not_lt.1 hle)] at hold
      contradiction
    show (s.handlers ++ [pc])[n]?.any Pc.accepted = true
    rw [List.getElem?_append_left hlt, hold]

/-- **One step.** -/
theorem Tracks.step (h : Tracks s) (ht : Stepped limit s a t) : Tracks t := by
  -- A handler that goes on is past the accept if it was.
  have haccepted {n : ℕ} {pc : Pc} (hn : s.handlers[n]? = some pc) (pc' : Pc)
      (hpc : pc.accepted = true → pc'.accepted = true) :
      ∀ m ∈ s.dropped, (s.goto n pc').handlers[m]?.any Pc.accepted = true := by
    intro m hm
    rw [getElem?_goto hn]
    split
    · rename_i heq
      have hold := h.dropped m hm
      rw [heq, hn] at hold
      exact hpc hold
    · exact h.dropped m hm
  cases ht with
  | admitted => exact h.begin rfl
  | rejected => exact h.begin rfl
  | @connected n pc hn hpc =>
    have hnew : n ∉ s.activeConnections := by
      rw [h.mem_iff, hn]
      rintro ⟨-, hregistered⟩
      contradiction
    have hnever : n ∉ s.dropped := by
      intro hmem
      have hold := h.dropped n hmem
      rw [hn] at hold
      contradiction
    refine ⟨?_, fun m ↦ ?_, haccepted hn pc fun hold ↦ ?_⟩
    · rw [← List.concat_eq_append]
      exact h.nodup.concat hnew
    · show m ∈ s.activeConnections ++ [n] ↔ m ∉ s.dropped ∧ (s.goto n pc).handlers[m]?.any _ = true
      rw [List.mem_append, List.mem_singleton, getElem?_goto hn]
      by_cases hm : m = n
      · subst hm
        rw [if_pos rfl]
        exact iff_of_true (Or.inr rfl) ⟨hnever, hpc⟩
      · rw [if_neg hm, h.mem_iff]
        exact or_iff_left hm
    · contradiction
  | @moved _ n pc pc' hn hlive hpc hafter hnew =>
    refine ⟨h.nodup, fun m ↦ ?_, haccepted hn pc' hafter⟩
    show m ∈ s.activeConnections ↔ m ∉ s.dropped ∧ (s.goto n pc').handlers[m]?.any _ = true
    rw [h.mem_iff, getElem?_goto hn]
    by_cases hm : m = n
    · rw [if_pos hm, hm, hn, Option.any_some, Option.any_some, hpc]
    · rw [if_neg hm]
  | @disconnected n hn =>
    refine ⟨h.nodup.erase n, fun m ↦ ?_, haccepted hn .ended fun _ ↦ rfl⟩
    show m ∈ s.activeConnections.erase n ↔ m ∉ s.dropped ∧
      (s.goto n .ended).handlers[m]?.any _ = true
    rw [h.nodup.mem_erase_iff, h.mem_iff, getElem?_goto hn]
    by_cases hm : m = n
    · rw [if_pos hm]
      exact iff_of_false (fun hne ↦ hne.1 hm) fun hend ↦ absurd hend.2 (by simp [Pc.registered])
    · rw [if_neg hm]
      exact and_iff_right hm
  | same => exact h
  | @dropped dead active hdead hactive =>
    rw [disconnectAll_eq h.nodup] at hactive
    obtain rfl := Option.some.inj hactive
    refine ⟨h.nodup.filter _, fun m ↦ ?_, fun m hm ↦ ?_⟩
    · show m ∈ s.activeConnections.filter _ ↔ m ∉ s.dropped ++ dead ∧ s.handlers[m]?.any _ = true
      rw [List.mem_filter, h.mem_iff, List.mem_append, decide_eq_true_eq]
      tauto
    · exact (List.mem_append.1 hm).elim (h.dropped m) (hdead m)

theorem tracks_inductive (limit : ℤ) : (system limit).Inductive always Tracks where
  init := by
    rintro s rfl
    exact ⟨List.nodup_nil, by simp, nofun⟩
  step h _ ht := h.step (stepped_of_step ht)

/-- A handler that an exception has left does not go on. -/
theorem failed_step {n : ℕ} (hn : s.handlers[n]? = some .failed) (ht : Stepped limit s a t) :
    t.handlers[n]? = some .failed := by
  have hother {m : ℕ} {pc : Pc} (hm : s.handlers[m]? = some pc) (hlive : pc ≠ .failed) (pc' : Pc) :
      (s.goto m pc').handlers[n]? = some .failed := by
    rw [getElem?_goto hm, if_neg, hn]
    rintro rfl
    rw [hn] at hm
    exact hlive (Option.some.inj hm).symm
  have hlt : n < s.handlers.length := (List.getElem?_eq_some_iff.1 hn).1
  cases ht with
  | admitted =>
    show (s.handlers ++ [Pc.accepting])[n]? = _
    rw [List.getElem?_append_left hlt, hn]
  | rejected =>
    show (s.handlers ++ [Pc.rejecting])[n]? = _
    rw [List.getElem?_append_left hlt, hn]
  | connected hm => exact hother hm (by simp) _
  | moved hm hlive => exact hother hm hlive _
  | disconnected hm => exact hother hm (by simp) _
  | same => exact hn
  | dropped => exact hn

/-- **Which connections are registered**, in every run: those past the accept whose handler has not
taken them out and which no broadcast has dropped. In particular one whose `replay_start` has raised
stays, whatever happens, until a broadcast drops it. -/
theorem registered_iff (hs : (system limit).Reachable always s) :
    s.activeConnections.Nodup ∧
    (∀ n, n ∈ s.activeConnections ↔
      n ∉ s.dropped ∧ s.handlers[n]?.any Pc.registered = true) ∧
    ∀ n, s.handlers[n]? = some .failed → ∀ as t, (system limit).Run always s as t →
      (n ∈ t.activeConnections ↔ n ∉ t.dropped) := by
  have h := (tracks_inductive limit).reachable hs
  refine ⟨h.nodup, h.mem_iff, fun n hn as t hrun ↦ ?_⟩
  have hfailed : t.handlers[n]? = some .failed :=
    hrun.invariant (I := fun t ↦ t.handlers[n]? = some .failed)
      (fun h _ hstep ↦ failed_step h (stepped_of_step hstep)) hn
  rw [((tracks_inductive limit).reachable (hs.run hrun)).mem_iff, hfailed]
  exact and_iff_left rfl

/-- A viewer goes away while a replay is announced to it. -/
theorem registered_iff_failed :
    ∃ s, (system 50).Reachable always s ∧ s.handlers[0]? = some .failed ∧
    0 ∈ s.activeConnections ∧ ∀ as t, (system 50).Run always s as t →
      (0 ∈ t.activeConnections ↔ 0 ∉ t.dropped) := by
  obtain ⟨s, hs, htest⟩ := exists_reachable_of_exec (M := system 50) (G := always) {}
    [.request, .accepted 0 (some "20260301-1000"), .started 0 true]
    (fun s ↦ s.handlers[0]? = some .failed ∧ 0 ∉ s.dropped) rfl (by decide +kernel)
  obtain ⟨hfailed, hdropped⟩ := of_decide_eq_true htest
  have hrun := (registered_iff hs).2.2 0 hfailed
  exact ⟨s, hs, hfailed, (hrun [] s Run.nil).2 hdropped, hrun⟩

/-! ### How many there can be -/

/-- The most connections that can be registered. -/
def most (limit : ℤ) (k : ℕ) : ℕ := if 1 ≤ limit ∧ 1 ≤ k then (limit - 1).toNat + k else 0

/-- The registered connections and those to come. -/
def Bounded (limit : ℤ) (k : ℕ) (s : State) : Prop :=
  s.activeConnections.length + s.handshakes ≤ most limit k

/-- **One step.** A handshake is begun below the limit, and turns into a connection. -/
theorem Bounded.step (h : Bounded limit k s) (hk : atMost k s a) (ht : Stepped limit s a t) :
    Bounded limit k t := by
  have hbound : s.activeConnections.length + s.handshakes ≤ most limit k := h
  show t.activeConnections.length + t.handshakes ≤ most limit k
  cases ht with
  | admitted hlimit =>
    have hbegun : (s.handlers ++ [Pc.accepting]).count .accepting = s.handshakes + 1 := by
      rw [List.count_append, List.count_singleton_self, State.handshakes]
    have hmost : most limit k = (limit - 1).toNat + k := by
      have hroom : s.handshakes < k := hk
      exact if_pos ⟨by omega, by omega⟩
    show s.activeConnections.length + (s.handlers ++ [Pc.accepting]).count .accepting ≤ _
    have hroom : s.handshakes < k := hk
    rw [hbegun, hmost]
    omega
  | rejected =>
    have hsame : (s.handlers ++ [Pc.rejecting]).count .accepting = s.handshakes := by
      rw [List.count_append, State.handshakes]
      rfl
    show s.activeConnections.length + (s.handlers ++ [Pc.rejecting]).count .accepting ≤ _
    rwa [hsame]
  | @connected n pc hn hpc active =>
    have hnew : pc ≠ .accepting := by
      rintro rfl
      contradiction
    have hpos := handshakes_pos hn
    show (s.activeConnections ++ [n]).length + (s.goto n pc).handshakes ≤ _
    rw [handshakes_goto hn hnew, if_pos rfl, List.length_append, List.length_singleton]
    omega
  | moved hn _ _ _ hnew =>
    rw [handshakes_goto hn hnew]
    show s.activeConnections.length + _ ≤ _
    omega
  | @disconnected n hn =>
    have hlength := List.length_erase_le (a := n) (l := s.activeConnections)
    show (s.activeConnections.erase n).length + (s.goto n .ended).handshakes ≤ _
    rw [handshakes_goto hn (by simp)]
    omega
  | same => exact hbound
  | @dropped dead active _ hactive =>
    have hlength := length_le_of_disconnectAll hactive
    show active.length + s.handshakes ≤ _
    omega

theorem bounded_inductive (limit : ℤ) (k : ℕ) :
    (system limit).Inductive (atMost k) (Bounded limit k) where
  init := by
    rintro s rfl
    exact Nat.zero_le _
  step h hk ht := h.step hk (stepped_of_step ht)

/-! ### The bound is reached -/

/-- `m` viewers and `w` handshakes. -/
def crowd (m w : ℕ) : State where
  activeConnections := List.range m
  handlers := List.replicate m .receiving ++ List.replicate w .accepting

theorem handshakes_crowd (m w : ℕ) : (crowd m w).handshakes = w := by
  rw [State.handshakes, crowd, List.count_append, List.count_replicate_self, List.count_replicate]
  simp

/-- One more comes below the limit. -/
theorem request_crowd {m w : ℕ} (hm : (m : ℤ) < limit) :
    step limit (crowd m w) .request = some (crowd m (w + 1)) := by
  have hlimit : ¬ limit ≤ ((crowd m w).activeConnections.length : ℤ) := by
    rw [crowd, List.length_range]
    omega
  rw [step, websocketEndpoint, if_neg hlimit]
  simp only [crowd, List.append_assoc, List.replicate_succ']

/-- The first of those that wait is accepted, while no session is active. -/
theorem accepted_crowd (limit : ℤ) (m w : ℕ) :
    step limit (crowd m (w + 1)) (.accepted m none) = some (crowd (m + 1) w) := by
  have hhandlers : (crowd m (w + 1)).handlers =
      List.replicate m Pc.receiving ++ .accepting :: List.replicate w .accepting := rfl
  have hm : (crowd m (w + 1)).handlers[m]? = some .accepting := by
    rw [hhandlers, List.getElem?_append_right (by simp), List.length_replicate, Nat.sub_self]
    rfl
  have hset : (crowd m (w + 1)).handlers.set m .receiving =
      List.replicate (m + 1) Pc.receiving ++ List.replicate w .accepting := by
    rw [hhandlers, List.set_append_right _ _ (by simp), List.length_replicate, Nat.sub_self,
      List.replicate_succ', List.append_assoc]
    rfl
  rw [step, if_pos hm, connect, State.goto, if_neg (by simp), hset]
  simp only [crowd, List.range_succ]

/-- One by one, as many as the limit. -/
theorem reachable_viewers (hk : 1 ≤ k) {m : ℕ} (hm : (m : ℤ) ≤ limit) :
    (system limit).Reachable (atMost k) (crowd m 0) := by
  induction m with
  | zero => exact Reachable.of_init rfl
  | succ m ih =>
    have hroom : atMost k (crowd m 0) .request := by
      show (crowd m 0).handshakes < k
      rw [handshakes_crowd]
      omega
    have hwaiting := (ih (by omega)).step hroom (request_crowd (w := 0) (by omega))
    exact hwaiting.step (a := .accepted m none) trivial (accepted_crowd limit m 0)

/-- Below the limit, as many at once as there may be handshakes. -/
theorem reachable_waiting {m w : ℕ} (hm : (m : ℤ) < limit) (hw : w ≤ k) (hk : 1 ≤ k) :
    (system limit).Reachable (atMost k) (crowd m w) := by
  induction w with
  | zero => exact reachable_viewers hk hm.le
  | succ w ih =>
    have hroom : atMost k (crowd m w) .request := by
      show (crowd m w).handshakes < k
      rw [handshakes_crowd]
      omega
    exact (ih (by omega)).step hroom (request_crowd hm)

/-- All of them are accepted. -/
theorem reachable_admitted {m w : ℕ} (h : (system limit).Reachable (atMost k) (crowd m w)) :
    (system limit).Reachable (atMost k) (crowd (m + w) 0) := by
  induction w generalizing m with
  | zero => exact h
  | succ w ih =>
    have hadmitted : (system limit).Reachable (atMost k) (crowd (m + 1 + w) 0) :=
      ih (h.step (a := .accepted m none) trivial (accepted_crowd limit m w))
    rwa [Nat.add_right_comm] at hadmitted

/-- **How many viewers there can be**: with at most `k` handshakes at the same time, the limit less
one, and `k`. None, where the limit is below one. -/
theorem greatest_registered (limit : ℤ) (k : ℕ) : IsGreatest
    {n : ℕ | ∃ s, (system limit).Reachable (atMost k) s ∧ s.activeConnections.length = n}
    (most limit k) := by
  constructor
  · show ∃ s, _ ∧ _
    rw [most]
    split
    · rename_i hpos
      have hlt : ((limit - 1).toNat : ℤ) < limit := by omega
      refine ⟨_, reachable_admitted (reachable_waiting hlt le_rfl hpos.2), ?_⟩
      rw [crowd, List.length_range]
    · exact ⟨{}, Reachable.of_init rfl, rfl⟩
  · rintro n ⟨s, hs, rfl⟩
    exact le_trans (Nat.le_add_right _ _) ((bounded_inductive limit k).reachable hs)

end

end LiveSTT.ViewerLimit
