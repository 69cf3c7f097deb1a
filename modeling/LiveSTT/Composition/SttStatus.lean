import LiveSTT.Lib.ExpiringStore
import LiveSTT.SttProvider.Drain

/-!
# What a page says of the transcription

stt-provider publishes a status message when it has connected to Deepgram and when a send has
failed; api-gateway passes it on to the pages, and a page keeps the last state of each lane. It says
"Reconnecting…" if the last states of **all** lanes it has heard of are `reconnecting`.

A connection is announced for the live lane only, whatever has failed. So the backfill lane never
recovers on a page, and it does not matter there: the page says "Reconnecting…" exactly if it has
heard anything at all, and about the live lane nothing but `reconnecting` last, whatever else it has
missed (`reconnecting_iff`). A page that has heard everything thus tells a failure in the live
phase, and one in the backfill phase only if it was loaded after the connection that failed.

A status goes over core NATS, which may lose it, and reaches the pages that are registered then.
`failing` and `said` are what stt-provider has met and published, `received` is what the page has
heard since it was loaded; no code keeps them.
-/

namespace LiveSTT.SttStatus

open SttProvider (Pc fetchPhase endPhase sendMsgs sendStep)
open TransitionSystem

/-! ### stt-provider -/

/-- The payload of `_publish_stt_status`. -/
structure Payload where
  state : String
  lane : String
  deriving DecidableEq

/-- After `_connect_with_retry`. -/
def connected : Payload := ⟨"connected", Lane.live.tag⟩

/-- In the `except` of `_send_msgs`. -/
def reconnecting (lane : Lane) : Payload := ⟨"reconnecting", lane.tag⟩

/-- The lane of the failed send that the loop is reporting. -/
def reports : Pc → Option Lane
  | .forwarding lane .reporting => some lane
  | _ => none

/-! ### The page -/

inductive WebSocket
  | connecting
  | opened
  | closed
  deriving DecidableEq

/-- A state of `dgLaneStates`; they do not expire. -/
abbrev LaneState := ExpiringStore.Record String Unit String

structure Page where
  ws : WebSocket := .connecting
  dgLaneStates : List LaneState := []
  statusText : String := "Connecting…"
  received : List Payload := []
  /-- How many were published when it was loaded. -/
  loaded : ℕ := 0

/-- `applyDgStatus`, for what it writes. -/
def dgStatus (states : List LaneState) : String :=
  if states.length > 0 ∧ states.all fun r ↦ r.value = "reconnecting" then "Reconnecting…"
  else "Live"

/-- `dgLaneStates[lane] = …` for a payload. -/
def laneState (p : Payload) : LaneState where
  key := if p.lane = "" then "default" else p.lane
  time := ()
  value := if p.state = "reconnecting" then "reconnecting" else "ok"

/-- `onmessage` with a message of the type `stt_status`. -/
def onmessage (page : Page) (p : Payload) : Page :=
  let states := ExpiringStore.put page.dgLaneStates (laneState p)
  { page with
    dgLaneStates := states, statusText := dgStatus states, received := page.received ++ [p] }

/-- `onopen` -/
def onopen (page : Page) : Page :=
  { page with ws := .opened, statusText := dgStatus page.dgLaneStates }

/-- `onclose` -/
def onclose (page : Page) : Page := { page with ws := .closed, statusText := "Disconnected" }

/-- `connect`, on the timer of `onclose`. -/
def connect (page : Page) : Page := { page with ws := .connecting, statusText := "Connecting…" }

/-! ### The system -/

/-- The connection of the page in the gateway. -/
structure Connection where
  registered : Bool := true
  inbox : List Payload := []

structure State where
  stt : SttProvider.State := {}
  /-- The lane of a send that has failed, until there is a connection again. -/
  failing : Option Lane := none
  said : List Payload := []
  /-- On the way to the gateway. -/
  wire : List Payload := []
  connection : Option Connection := none
  page : Page := {}

/-- `_publish_stt_status`, if the publish returns. -/
def State.publishSttStatus (s : State) (p : Payload) (returned : Bool) : State :=
  if returned then { s with said := s.said ++ [p], wire := s.wire ++ [p] } else s

/-- The session loop has gone on. -/
def State.follow (s : State) (stt : SttProvider.State) (returned : Bool) : State :=
  if stt.connections ≠ s.stt.connections then
    State.publishSttStatus { s with stt := stt, failing := none } connected returned
  else
    match reports s.stt.pc, reports stt.pc with
    | none, some lane =>
      State.publishSttStatus
        { s with stt := stt, failing := some lane } (reconnecting lane) returned
    | _, _ => { s with stt := stt }

/-- `broadcast_message` to the page; a connection to which a send raises is taken out. -/
def Connection.send (c : Connection) (p : Payload) (sent : Bool) : Connection :=
  if c.registered then
    if sent then { c with inbox := c.inbox ++ [p] } else { c with registered := false }
  else c

inductive Action
  | stt (a : SttProvider.Action) (returned : Bool)
  /-- `_on_stt_status` is called. -/
  | forward (sent : Bool)
  /-- A message is lost. -/
  | lost
  /-- The gateway registers the connection of the page. -/
  | accept
  | onopen
  | onmessage
  | onclose
  | connect
  /-- The page is loaded again. -/
  | load

def step (s : State) : Action → Option State
  | .stt a returned => (SttProvider.step s.stt a).map fun stt ↦ s.follow stt returned
  | .forward sent =>
    match s.wire with
    | [] => none
    | p :: wire => some { s with
        wire := wire
        connection := s.connection.map fun c ↦ c.send p sent }
  | .lost => if s.wire = [] then none else some { s with wire := s.wire.tail }
  | .accept =>
    if s.page.ws ≠ .closed ∧ s.connection.isNone then some
      { s with connection := some {} } else none
  | .onopen => if s.page.ws = .connecting then some { s with page := onopen s.page } else none
  | .onmessage =>
    match s.page.ws, s.connection with
    | .opened, some ⟨registered, p :: inbox⟩ => some { s with
        connection := some ⟨registered, inbox⟩
        page := onmessage s.page p }
    | _, _ => none
  | .onclose =>
    if s.page.ws = .closed then none else some { s with connection := none, page := onclose s.page }
  | .connect => if s.page.ws = .closed then some { s with page := connect s.page } else none
  | .load => some { s with connection := none, page := { loaded := s.said.length } }

/-- stt-provider, api-gateway and one page. -/
def system : TransitionSystem State Action where
  init s := s = {}
  step := step

/-- The publishes of stt-provider return. -/
def told (_ : State) : Action → Prop
  | .stt _ returned => returned = true
  | _ => True

instance (s : State) (a : Action) : Decidable (told s a) :=
  match a with
  | .stt _ returned => inferInstanceAs (Decidable (returned = true))
  | .forward _ | .lost | .accept | .onopen | .onmessage | .onclose | .connect | .load =>
    inferInstanceAs (Decidable True)

/-- The last status about a lane. -/
def lastOf (lane : String) (l : List Payload) : Option Payload :=
  (l.filter fun p ↦ p.lane = lane).getLast?

/-! ### What stt-provider says -/

/-- The loop has a connection on which no send has failed. -/
def serves : Pc → Bool
  | .forwarding _ .reporting => false
  | .forwarding _ _ | .fetching _ | .finalizing | .flushing | .waitingLive => true
  | .subscribing | .waitingBackfill | .connecting _ _ | .closing _ | .ended | .failed => false

/-- What a step of the loop has to do with its connection. -/
inductive Serving (s t : SttProvider.State) : Prop
  | connects (hconnections : t.connections = s.connections + 1)
  | fails (lane : Lane) (hconnections : t.connections = s.connections)
      (hserves : serves s.pc = true)
      (hbefore : reports s.pc = none) (hreports : reports t.pc = some lane)
  | goes (hconnections : t.connections = s.connections)
      (hserves : serves t.pc = true → serves s.pc = true)
      (hreports : reports t.pc = none ∨ reports t.pc = reports s.pc)

section Loop

variable {s t : SttProvider.State} {lane : Lane} {r : Reply}

/-- The end of a phase reports nothing. -/
theorem reports_endPhase {eos : Bool} : reports (endPhase s lane eos).pc = none := by
  cases lane with
  | live => rfl
  | backfill =>
    rw [endPhase]
    split
    · rfl
    · rfl

theorem reports_fetchPhase {eos : Bool} : reports (fetchPhase s lane eos).pc = none := by
  rw [fetchPhase]
  split
  · exact reports_endPhase
  · split
    · exact reports_endPhase
    · rfl

theorem pc_ack {d : SttProvider.Delivery} {pc : Pc} : (s.ack d r pc).pc = pc := by
  rw [SttProvider.State.ack]
  split
  · rfl
  · rfl

/-- Nothing is reported before a send has failed. -/
theorem reports_sendMsgs {msgs : List SttProvider.Delivery} :
    reports (sendMsgs s lane msgs r).pc = none := by
  cases msgs with
  | nil => exact reports_fetchPhase
  | cons d rest =>
    rw [sendMsgs]
    split
    · rw [pc_ack]
      rfl
    · split
      · rw [pc_ack]
        rfl
      · rfl

/-- A connection on which a send has failed is closed. -/
theorem serves_fetchPhase (h : s.session.dgClosed = true) :
    serves (fetchPhase s lane false).pc = false := by
  rw [fetchPhase, if_neg Bool.false_ne_true, if_pos (Or.inl h)]
  cases lane with
  | live => rfl
  | backfill =>
    rw [endPhase, if_neg fun hend ↦ Bool.false_ne_true hend.1]
    rfl

/-- A send succeeds, or fails and the failure is reported next; the connection is the same until the
loop has closed it. -/
theorem serving_sendStep {pc : SttProvider.SendPc} (hpc : s.pc = .forwarding lane pc) :
    Serving s (sendStep s lane pc r) := by
  have hconnections : (sendStep s lane pc r).connections = s.connections :=
    SttProvider.Drain.phase_sendStep.connections
  have hgoes (hserves : serves s.pc = true) (hreports : reports (sendStep s lane pc r).pc = none) :
      Serving s (sendStep s lane pc r) := .goes hconnections (fun _ ↦ hserves) (Or.inl hreports)
  have hin {q : Pc} {b : Bool} (hq : s.pc = q) (hb : serves q = b) : serves s.pc = b := by
    rw [hq]
    exact hb
  rcases pc with ⟨rest, - | -⟩ | ⟨- | -⟩ | ⟨d, rest, - | -⟩ | ⟨rest, - | -⟩ | -
  · exact hgoes (hin hpc rfl) reports_sendMsgs
  · exact hgoes (hin hpc rfl) rfl
  · exact hgoes (hin hpc rfl) reports_fetchPhase
  · exact hgoes (hin hpc rfl) rfl
  · refine hgoes (hin hpc rfl) ?_
    show reports (SttProvider.ackSent s lane d rest r).pc = none
    rw [SttProvider.ackSent, pc_ack]
    rfl
  · exact .fails lane hconnections (hin hpc rfl) (by rw [hpc]; rfl) rfl
  · exact hgoes (hin hpc rfl) reports_sendMsgs
  · exact .fails lane hconnections (hin hpc rfl) (by rw [hpc]; rfl) rfl
  · refine .goes hconnections (fun h ↦ ?_) (Or.inl reports_fetchPhase)
    exact absurd (h.symm.trans (serves_fetchPhase rfl)) Bool.noConfusion

/-- Every step of stt-provider is of one of the four forms: the loop goes on with its connection,
opens one, or reports. -/
theorem serving_of_step {a : SttProvider.Action} (ht : SttProvider.step s a = some t) :
    Serving s t := by
  have hkept {u : SttProvider.State} (hconnections : u.connections = s.connections)
    (hpc : u.pc = s.pc) :
      Serving s u := .goes hconnections (fun h ↦ hpc ▸ h) (Or.inr (congrArg reports hpc))
  have hgoes {u : SttProvider.State} {q : Pc} (hq : s.pc = q) (hserves : serves q = true)
      (hconnections : u.connections = s.connections) (hreports : reports u.pc = none) :
        Serving s u := by
    refine .goes hconnections (fun _ ↦ ?_) (Or.inl hreports)
    rw [hq]
    exact hserves
  have hleaves {u : SttProvider.State} (hserves : serves u.pc = false)
      (hconnections : u.connections = s.connections) (hreports : reports u.pc = none) :
        Serving s u :=
    .goes hconnections (fun h ↦ absurd (h.symm.trans hserves) Bool.noConfusion) (Or.inl hreports)
  cases SttProvider.stepped_of_step ht with
  | arrive => exact hkept rfl rfl
  | announced =>
    split
    · exact hleaves rfl rfl rfl
    · exact hleaves rfl rfl rfl
  | fetched h =>
    exact hgoes h rfl SttProvider.Drain.phase_sendMsgs.connections reports_sendMsgs
  | fetchedLive h =>
    split
    · exact hleaves rfl rfl rfl
    · exact hgoes h rfl SttProvider.Drain.phase_sendMsgs.connections reports_sendMsgs
  | idle =>
    rw [SttProvider.nextSession]
    split
    · exact hleaves rfl rfl rfl
    · exact hleaves rfl rfl rfl
  | unfetched h =>
    exact hgoes h rfl SttProvider.Drain.phase_fetchPhase.connections reports_fetchPhase
  | unfetchedLive h =>
    split
    · exact hleaves rfl rfl rfl
    · exact hkept rfl rfl
  | subscribed =>
    split
    · rw [SttProvider.nextSession]
      split
      · exact hleaves rfl rfl rfl
      · exact hleaves rfl rfl rfl
    · exact hleaves rfl rfl rfl
  | @connected id first _ r =>
    have hnew : (SttProvider.beginSession s id first r).connections = s.connections + 1 :=
      SttProvider.Drain.phase_sendMsgs.connections
    exact .connects hnew
  | unconnected h =>
    split
    · exact hleaves rfl rfl rfl
    · exact hkept rfl rfl
  | forwarded h => exact serving_sendStep h
  | finalized h => exact hgoes h rfl rfl rfl
  | flushed h =>
    refine hgoes h rfl rfl ?_
    split
    · rfl
    · rfl
  | closed =>
    rw [SttProvider.nextSession]
    split
    · exact hleaves rfl rfl rfl
    · exact hleaves rfl rfl rfl
  | raised => exact hleaves rfl rfl rfl
  | dgClosed => exact hkept rfl rfl
  | stop => exact hkept rfl rfl
  | restart => exact hleaves rfl rfl rfl

end Loop

theorem serves_of_reports {pc : Pc} {lane : Lane} (h : reports pc = some lane) :
    serves pc = false := by
  rw [reports.eq_def] at h
  split at h
  · rfl
  · exact absurd h.symm (Option.some_ne_none lane)

/-- The loop has said that it is connected, and since then at most that a send has failed. -/
structure Said (s : State) : Prop where
  serving : serves s.stt.pc = true → s.failing = none ∧ s.said ≠ []
  going : s.failing = none → s.said = [] ∨ ∃ before, s.said = before ++ [connected]
  failed : ∀ lane, s.failing = some lane → ∃ before,
    s.said = before ++ [connected, reconnecting lane]

/-! ### What a step can do -/

/-- The messages on their way to the page. -/
def State.held (s : State) : List Payload := s.wire ++ s.connection.elim [] Connection.inbox

/-- What the loop publishes in a step; `returned` is whether that publish returns. -/
inductive Publishes (s : State) (stt : SttProvider.State) (returned : Bool) : State → Prop
  | connects : Publishes s stt returned
      (State.publishSttStatus { s with stt := stt, failing := none } connected returned)
  | fails (lane : Lane) (hserves : serves s.stt.pc = true) (hreports : reports stt.pc = some lane) :
      Publishes s stt returned
        (State.publishSttStatus
          { s with stt := stt, failing := some lane } (reconnecting lane) returned)
  | goes (hserves : serves stt.pc = true → serves s.stt.pc = true) :
      Publishes s stt returned { s with stt := stt }

/-- The inversion of `step`: the loop goes on, messages are passed on or lost, the page hears one,
or it changes its connection. -/
inductive Stepped (s : State) : Action → State → Prop
  | stt {a : SttProvider.Action} {returned : Bool} {stt : SttProvider.State}
      (ht : SttProvider.step s.stt a = some stt) :
        Stepped s (.stt a returned) (s.follow stt returned)
  | passed {a : Action} {wire : List Payload} {connection : Option Connection}
      (hheld : wire ++ connection.elim [] Connection.inbox ⊆ s.held) :
      Stepped s a { s with wire := wire, connection := connection }
  | heard {p : Payload} {registered : Bool} {inbox : List Payload} (hws : s.page.ws = .opened)
      (hinbox : s.connection = some ⟨registered, p :: inbox⟩) : Stepped s .onmessage { s with
        connection := some ⟨registered, inbox⟩
        page := onmessage s.page p }
  | turned {a : Action} {page : Page} {connection : Option Connection}
      (hpage : page ∈ [onopen s.page, onclose s.page, connect s.page, { loaded := s.said.length }])
      (hconnection : connection = s.connection ∨ connection = none) :
      Stepped s a { s with connection := connection, page := page }

section Steps

variable {s t : State}

/-- What the loop publishes is what its step reports. -/
theorem publishes_follow {stt : SttProvider.State} {returned : Bool} (h : Serving s.stt stt) :
    Publishes s stt returned (s.follow stt returned) := by
  rw [State.follow]
  split
  · exact .connects
  · rename_i hconnections
    cases h with
    | connects hnew => omega
    | fails lane _ hserves hbefore hreports =>
      rw [hbefore, hreports]
      exact .fails lane hserves hreports
    | goes _ hserves hreports =>
      split
      · rename_i lane hbefore hafter
        rw [hbefore, or_self, hafter] at hreports
        exact absurd hreports (Option.some_ne_none lane)
      · exact .goes hserves

/-- A message that is sent comes into the inbox or is lost. -/
theorem held_send {c : Connection} {p : Payload} {wire : List Payload} {sent : Bool} :
    wire ++ (c.send p sent).inbox ⊆ p :: wire ++ c.inbox := by
  have hrest : wire ++ c.inbox ⊆ p :: wire ++ c.inbox := List.subset_cons_self p _
  rw [Connection.send]
  split
  · split
    · refine List.append_subset.2 ⟨fun q hq ↦ hrest (List.mem_append_left _ hq), ?_⟩
      refine List.append_subset.2 ⟨fun q hq ↦ hrest (List.mem_append_right _ hq), fun q hq ↦ ?_⟩
      obtain rfl := List.mem_singleton.1 hq
      exact List.mem_cons_self
    · exact hrest
  · exact hrest

/-- Every step is one of the cases. -/
theorem stepped_of_step {a : Action} (ht : step s a = some t) : Stepped s a t := by
  cases a with
  | stt a returned =>
    obtain ⟨stt, hstt, rfl⟩ := Option.map_eq_some_iff.1 ht
    exact .stt hstt
  | forward sent =>
    rw [step.eq_def] at ht
    simp only at ht
    split at ht
    · contradiction
    · rename_i p wire hwire
      obtain rfl := Option.some.inj ht
      refine .passed ?_
      rw [State.held, hwire]
      cases s.connection with
      | none => exact List.subset_cons_self p _
      | some c => exact held_send
  | lost =>
    obtain ⟨-, ht⟩ := Option.ite_none_left_eq_some.1 ht
    obtain rfl := Option.some.inj ht
    have htail : s.wire.tail ⊆ s.held :=
      List.Subset.trans s.wire.tail_sublist.subset (List.subset_append_left _ _)
    exact .passed (List.append_subset.2 ⟨htail, List.subset_append_right _ _⟩)
  | accept =>
    obtain ⟨⟨-, hnone⟩, ht⟩ := Option.ite_none_right_eq_some.1 ht
    obtain rfl := Option.some.inj ht
    exact .passed (List.append_subset.2 ⟨List.subset_append_left _ _, List.nil_subset _⟩)
  | onopen =>
    obtain ⟨-, ht⟩ := Option.ite_none_right_eq_some.1 ht
    obtain rfl := Option.some.inj ht
    exact .turned (by simp) (Or.inl rfl)
  | onmessage =>
    rw [step.eq_def] at ht
    simp only at ht
    split at ht
    · rename_i hws hinbox
      obtain rfl := Option.some.inj ht
      exact .heard hws hinbox
    · contradiction
  | onclose =>
    obtain ⟨-, ht⟩ := Option.ite_none_left_eq_some.1 ht
    obtain rfl := Option.some.inj ht
    exact .turned (by simp) (Or.inr rfl)
  | connect =>
    obtain ⟨-, ht⟩ := Option.ite_none_right_eq_some.1 ht
    obtain rfl := Option.some.inj ht
    exact .turned (by simp) (Or.inl rfl)
  | load =>
    obtain rfl := Option.some.inj ht
    exact .turned (by simp) (Or.inr rfl)

/-! ### What stt-provider has said -/

/-- What is said last agrees with the connection after the step. -/
theorem Said.publishes (h : Said s) {stt : SttProvider.State} (ht : Publishes s stt true t) :
    Said t := by
  cases ht with
  | connects =>
    refine ⟨fun _ ↦ ⟨rfl, ?_⟩, fun _ ↦ Or.inr ⟨s.said, rfl⟩, fun lane hlane ↦ ?_⟩
    · exact List.append_ne_nil_of_right_ne_nil _ (List.cons_ne_nil _ _)
    · exact absurd hlane.symm (Option.some_ne_none lane)
  | fails lane hserves hreports =>
    obtain ⟨hfailing, hsaid⟩ := h.serving hserves
    obtain ⟨before, hlast⟩ := (h.going hfailing).resolve_left hsaid
    refine ⟨fun hs ↦ ?_, fun hnone ↦ ?_, fun other hother ↦ ⟨before, ?_⟩⟩
    · exact absurd (hs.symm.trans (serves_of_reports hreports)) Bool.noConfusion
    · exact absurd hnone (Option.some_ne_none lane)
    · obtain rfl : lane = other := Option.some.inj hother
      show s.said ++ [reconnecting lane] = before ++ [connected, reconnecting lane]
      rw [hlast, List.append_assoc]
      rfl
  | goes hserves => exact ⟨fun hs ↦ h.serving (hserves hs), h.going, h.failed⟩

/-- In every run in which the publishes return. -/
theorem said_inductive : system.Inductive told Said where
  init := by
    rintro s rfl
    exact ⟨fun hs ↦ absurd hs Bool.false_ne_true, fun _ ↦ Or.inl rfl,
      fun lane hlane ↦ absurd hlane.symm (Option.some_ne_none lane)⟩
  step := by
    intro s a t h htold ht
    cases stepped_of_step ht with
    | @stt a returned stt hstt =>
      obtain rfl : returned = true := htold
      exact h.publishes (publishes_follow (serving_of_step hstt))
    | passed => exact ⟨h.serving, h.going, h.failed⟩
    | heard => exact ⟨h.serving, h.going, h.failed⟩
    | turned => exact ⟨h.serving, h.going, h.failed⟩

/-! ### What the page shows -/

/-- The text of a page. -/
def Page.text (page : Page) : String :=
  match page.ws with
  | .connecting => "Connecting…"
  | .opened => dgStatus page.dgLaneStates
  | .closed => "Disconnected"

/-- stt-provider publishes it. -/
def Genuine (p : Payload) : Prop := p = connected ∨ ∃ lane, p = reconnecting lane

/-- The page has the last states of what it has received, and shows them. -/
structure Showing (page : Page) : Prop where
  states : page.dgLaneStates = ExpiringStore.ofLog (page.received.map laneState)
  text : page.statusText = page.text

structure Heard (s : State) : Prop where
  held : ∀ p ∈ s.held, Genuine p
  received : ∀ p ∈ s.page.received, Genuine p
  showing : Showing s.page

/-- A message replaces the state of its lane, and the page shows the states it has. -/
theorem Showing.onmessage {page : Page} (h : Showing page) (hws : page.ws = .opened) (p : Payload) :
    Showing (onmessage page p) := by
  refine ⟨?_, ?_⟩
  · show ExpiringStore.put page.dgLaneStates (laneState p) =
      ExpiringStore.ofLog ((page.received ++ [p]).map laneState)
    rw [h.states, List.map_append, List.map_singleton, ExpiringStore.ofLog_append_singleton]
  · rw [Page.text, show (SttStatus.onmessage page p).ws = .opened from hws]
    rfl

/-- A page that turns has heard nothing new. -/
theorem Showing.turned {page page' : Page} {n : ℕ} (h : Showing page)
    (hpage : page' ∈ [onopen page, onclose page, connect page, { loaded := n }]) :
    Showing page' ∧ page'.received ⊆ page.received := by
  simp only [List.mem_cons, List.not_mem_nil, or_false] at hpage
  rcases hpage with rfl | rfl | rfl | rfl
  · exact ⟨⟨h.states, rfl⟩, List.Subset.refl _⟩
  · exact ⟨⟨h.states, rfl⟩, List.Subset.refl _⟩
  · exact ⟨⟨h.states, rfl⟩, List.Subset.refl _⟩
  · exact ⟨⟨rfl, rfl⟩, List.nil_subset _⟩

/-- A report that is published is held, besides what was. -/
theorem held_publishSttStatus {p q : Payload} {returned : Bool}
    (hq : q ∈ (s.publishSttStatus p returned).held) : q ∈ s.held ∨ q = p := by
  rw [State.publishSttStatus] at hq
  split at hq
  · rw [State.held, List.append_assoc, List.mem_append, List.mem_append] at hq
    rcases hq with hq | hq | hq
    · exact Or.inl (List.mem_append_left _ hq)
    · exact Or.inr (List.mem_singleton.1 hq)
    · exact Or.inl (List.mem_append_right _ hq)
  · exact Or.inl hq

theorem page_publishSttStatus {p : Payload} {returned : Bool} :
    (s.publishSttStatus p returned).page = s.page := by
  rw [State.publishSttStatus]
  split
  · rfl
  · rfl

/-- What stt-provider says is genuine. -/
theorem Heard.publish (h : Heard s) {p : Payload} {returned : Bool} (hp : Genuine p) :
    Heard (s.publishSttStatus p returned) := by
  refine ⟨fun q hq ↦ ?_, ?_, ?_⟩
  · rcases held_publishSttStatus hq with hq | rfl
    · exact h.held q hq
    · exact hp
  · rw [page_publishSttStatus]
    exact h.received
  · rw [page_publishSttStatus]
    exact h.showing

/-- In every run, whatever is lost. -/
theorem heard_inductive : system.Inductive always Heard where
  init := by
    rintro s rfl
    exact ⟨fun p hp ↦ absurd hp List.not_mem_nil, fun p hp ↦ absurd hp List.not_mem_nil, rfl, rfl⟩
  step := by
    intro s a t h _ ht
    cases stepped_of_step ht with
    | @stt a returned stt hstt =>
      generalize hu : s.follow stt returned = u
      have hpublishes : Publishes s stt returned u := hu ▸ publishes_follow (serving_of_step hstt)
      have hmoved (failing : Option Lane) : Heard { s with stt := stt, failing := failing } :=
        ⟨h.held, h.received, h.showing⟩
      cases hpublishes with
      | connects => exact (hmoved none).publish (Or.inl rfl)
      | fails lane => exact (hmoved (some lane)).publish (Or.inr ⟨lane, rfl⟩)
      | goes => exact hmoved s.failing
    | passed hheld => exact ⟨fun p hp ↦ h.held p (hheld hp), h.received, h.showing⟩
    | @heard p registered inbox hws hinbox =>
      have hin {q : Payload} (hq : q ∈ p :: inbox) : q ∈ s.held := by
        rw [State.held, hinbox]
        exact List.mem_append_right _ hq
      refine ⟨fun q hq ↦ ?_, fun q hq ↦ ?_, h.showing.onmessage hws p⟩
      · rcases List.mem_append.1 hq with hq | hq
        · exact h.held q (List.mem_append_left _ hq)
        · exact h.held q (hin (List.mem_cons_of_mem p hq))
      · rcases List.mem_append.1 hq with hq | hq
        · exact h.received q hq
        · obtain rfl := List.mem_singleton.1 hq
          exact h.held q (hin List.mem_cons_self)
    | turned hpage hconnection =>
      obtain ⟨hshowing, hreceived⟩ := h.showing.turned hpage
      refine ⟨fun q hq ↦ h.held q ?_, fun q hq ↦ h.received q (hreceived hq), hshowing⟩
      rcases hconnection with rfl | rfl
      · exact hq
      · exact List.mem_append_left _ ((List.mem_append.1 hq).resolve_right List.not_mem_nil)

/-- The record of a lane is that of the last status about it. -/
theorem mem_ofLog_laneState_iff {l : List Payload} {lane : Lane} {r : LaneState}
    (hkey : r.key = lane.tag) :
    r ∈ ExpiringStore.ofLog (l.map laneState) ↔ ∃ p, lastOf lane.tag l = some p ∧
      laneState p = r := by
  have hsame : (fun p ↦ decide ((laneState p).key = r.key)) =
      fun p : Payload ↦ decide (p.lane = lane.tag) := by
    funext p
    rw [hkey]
    by_cases hp : p.lane = ""
    · cases lane <;> simp [laneState, hp, Lane.tag]
    · simp [laneState, hp]
  rw [ExpiringStore.mem_ofLog_iff, List.filter_map, List.getLast?_map, Option.map_eq_some_iff]
  show (∃ p, (l.filter fun p ↦ decide ((laneState p).key = r.key)).getLast? = some p ∧
    laneState p = r) ↔ _
  rw [hsame]
  rfl

/-- **All the lanes are down exactly if the live lane is**, as far as the page has heard. -/
theorem dgStatus_iff {l : List Payload} (hgenuine : ∀ p ∈ l, Genuine p) :
    dgStatus (ExpiringStore.ofLog (l.map laneState)) = "Reconnecting…" ↔
      l ≠ [] ∧ ∀ p, lastOf Lane.live.tag l = some p → p.state = "reconnecting" := by
  have hdown : dgStatus (ExpiringStore.ofLog (l.map laneState)) = "Reconnecting…" ↔
      ExpiringStore.ofLog (l.map laneState) ≠ [] ∧
        ∀ r ∈ ExpiringStore.ofLog (l.map laneState), r.value = "reconnecting" := by
    simp only [dgStatus, gt_iff_lt, List.length_pos_iff, List.all_eq_true, decide_eq_true_eq]
    split
    · rename_i hall
      exact iff_of_true rfl hall
    · rename_i hall
      exact iff_of_false (by decide) hall
  rw [hdown, Ne, Ne, ExpiringStore.ofLog_eq_nil_iff, List.map_eq_nil_iff]
  refine and_congr_right fun _ ↦ ⟨fun hall p hp ↦ ?_, fun hlive r hr ↦ ?_⟩
  · have hlane : p.lane = Lane.live.tag := by
      simpa using (List.mem_filter.1 (List.mem_of_getLast? hp)).2
    have hkey : (laneState p).key = Lane.live.tag := by
      simp [laneState, hlane, Lane.tag]
    have hvalue := hall _ ((mem_ofLog_laneState_iff hkey).2 ⟨p, hp, rfl⟩)
    by_contra hstate
    exact absurd hvalue (by simp [laneState, hstate])
  · obtain ⟨p, hp, rfl⟩ := List.mem_map.1 (ExpiringStore.mem_of_mem_ofLog hr)
    rcases hgenuine p hp with rfl | ⟨lane, rfl⟩
    · have hkey : (laneState connected).key = Lane.live.tag := rfl
      obtain ⟨q, hq, hqr⟩ := (mem_ofLog_laneState_iff hkey).1 hr
      rw [← hqr, laneState, if_pos (hlive q hq)]
    · rfl

/-- The last word on a lane is the new payload, if it is of that lane. -/
theorem lastOf_concat {lane : String} {l : List Payload} {p : Payload} :
    lastOf lane (l ++ [p]) = if p.lane = lane then some p else lastOf lane l := by
  rw [lastOf, List.filter_append]
  split
  · rename_i hlane
    have hone : [p].filter (fun p ↦ p.lane = lane) = [p] := List.filter_eq_self.2 (by simpa)
    rw [hone, List.getLast?_concat]
  · rename_i hlane
    have hnone : [p].filter (fun p ↦ p.lane = lane) = [] := List.filter_eq_nil_iff.2 (by simpa)
    rw [hnone, List.append_nil]
    rfl

/-- **When a page says that the transcription is reconnecting**, in every run and with any
losses. -/
theorem reconnecting_iff (hs : system.Reachable always s) :
    (s.page.statusText = "Reconnecting…" ↔ s.page.ws = .opened ∧ s.page.received ≠ [] ∧
      ∀ p, lastOf "live" s.page.received = some p → p.state = "reconnecting") ∧
    (system.Reachable told s → s.page.ws = .opened → s.page.received ≠ [] →
      s.page.received = s.said.drop s.page.loaded →
      (s.page.statusText = "Reconnecting…" ↔ s.failing = some .live ∨
        s.failing = some .backfill ∧ lastOf "live" s.page.received = none)) := by
  have h := heard_inductive.reachable hs
  have hopened (hws : s.page.ws = .opened) : s.page.statusText = "Reconnecting…" ↔
      s.page.received ≠ [] ∧
        ∀ p, lastOf "live" s.page.received = some p → p.state = "reconnecting" := by
    rw [h.showing.text, Page.text, hws, h.showing.states]
    exact dgStatus_iff h.received
  refine ⟨?_, fun htold hws hreceived hall ↦ ?_⟩
  · cases hws : s.page.ws with
    | opened => simpa using hopened hws
    | connecting =>
      refine iff_of_false ?_ fun hand ↦ WebSocket.noConfusion hand.1
      rw [h.showing.text, Page.text, hws]
      exact show "Connecting…" ≠ "Reconnecting…" by decide
    | closed =>
      refine iff_of_false ?_ fun hand ↦ WebSocket.noConfusion hand.1
      rw [h.showing.text, Page.text, hws]
      exact show "Disconnected" ≠ "Reconnecting…" by decide
  · have hsaid := said_inductive.reachable htold
    have hsuffix : s.page.received <:+ s.said := hall ▸ List.drop_suffix _ _
    rw [hopened hws, and_iff_right hreceived]
    cases hfailing : s.failing with
    | none =>
      obtain ⟨before, hlast⟩ := (hsaid.going hfailing).resolve_left fun hnil ↦
        hreceived (List.suffix_nil.1 (hnil ▸ hsuffix))
      rw [hlast, List.suffix_concat_iff] at hsuffix
      obtain ⟨rest, hrest, -⟩ := hsuffix.resolve_left hreceived
      rw [hrest, lastOf_concat, if_pos (show connected.lane = "live" from rfl)]
      exact iff_of_false (fun hstate ↦ absurd (hstate connected rfl) (by decide)) (by simp)
    | some lane =>
      obtain ⟨before, hlast⟩ := hsaid.failed lane hfailing
      rw [hlast, List.append_cons, List.suffix_concat_iff] at hsuffix
      obtain ⟨rest, hrest, hbefore⟩ := hsuffix.resolve_left hreceived
      rw [hrest, lastOf_concat]
      cases lane with
      | live =>
        rw [if_pos (show (reconnecting .live).lane = "live" from rfl)]
        refine iff_of_true (fun p hp ↦ ?_) (Or.inl rfl)
        obtain rfl := Option.some.inj hp
        rfl
      | backfill =>
        rw [if_neg (show (reconnecting .backfill).lane ≠ "live" by decide)]
        rcases List.suffix_concat_iff.1 hbefore with rfl | ⟨rest, rfl, -⟩
        · exact iff_of_true (fun p hp ↦ absurd hp.symm (Option.some_ne_none p)) (Or.inr ⟨rfl, rfl⟩)
        · rw [lastOf_concat, if_pos (show connected.lane = "live" from rfl)]
          exact iff_of_false (fun hstate ↦ absurd (hstate connected rfl) (by decide)) (by simp)

/-- A page is open; a session begins, and its first send fails. -/
def failedBackfill : List Action :=
  [.accept, .onopen, .stt (.arrive .backfill ⟨"audio.backfill.20260301-100000", none, [1, 0]⟩) true,
    .stt (.resume true .ok) true, .stt (.fetched 0 .ok) true, .stt (.resume true .error) true,
    .forward true, .onmessage, .stt (.resume true .ok) true, .forward true, .onmessage]

/-- The page has heard of the failure, and does not say so. -/
theorem reconnecting_iff_backfill : ∃ s :
    State, system.Reachable told s ∧ s.failing = some .backfill ∧
    s.page.ws = .opened ∧ s.page.received = s.said ∧ s.page.statusText ≠ "Reconnecting…" := by
  obtain ⟨s, hs, htest⟩ := exists_reachable_of_exec (M := system) (G := told) {} failedBackfill
    (fun s ↦ s.failing = some .backfill && s.page.ws = .opened && s.page.loaded = 0 &&
      s.page.received = s.said && s.said = [connected, reconnecting .backfill]) rfl
        (by decide +kernel)
  simp only [Bool.and_eq_true, decide_eq_true_eq] at htest
  obtain ⟨⟨⟨⟨hfailing, hws⟩, hloaded⟩, hreceived⟩, hsaid⟩ := htest
  have hall : s.page.received = s.said.drop s.page.loaded := by
    rw [hloaded, hreceived]
    rfl
  have hne : s.page.received ≠ [] := by
    rw [hreceived, hsaid]
    exact List.cons_ne_nil _ _
  refine ⟨s, hs, hfailing, hws, hreceived, fun htext ↦ ?_⟩
  have hiff := (reconnecting_iff (hs.mono fun _ _ _ ↦ trivial)).2 hs hws hne hall
  rcases hiff.1 htext with hlive | ⟨-, hnone⟩
  · rw [hfailing] at hlive
    exact absurd hlive (by decide)
  · rw [hreceived, hsaid] at hnone
    exact absurd hnone (by decide)

end Steps

end LiveSTT.SttStatus
