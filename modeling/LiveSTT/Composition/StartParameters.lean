import LiveSTT.AudioProducer.Views
import LiveSTT.Gateway.SessionStore

/-!
# What becomes of the parameters of a start command

A start command carries a label, and from system-manager also `scheduled`. audio-producer executes
it and announces the session it starts; api-gateway adds a row for the session that is announced. So
a command is encoded twice more on its way to the archive.

The label arrives. `scheduled` does not: `_handle_control_message` does not read it, and no
lifecycle event has it, so that api-gateway takes it to be absent, and a scheduled session is filed
as one that was not (`scheduled_lost`). And a session id is a second of the clock. Of two sessions
announced under one id the second has no row of its own, if that of the first is still stored when
api-gateway looks for it.

So when no call of api-gateway's handler fails, the start command that is announced has its row,
with its parameters, exactly if it does not carry `scheduled` and no row is found stored under the
id of its session (`start_parameters_iff`).
-/

namespace LiveSTT.StartParameters

open AudioProducer (SessionId Lifecycle Stamp Stepped)
open SessionStore (SessionEvent SessionModel)
open TransitionSystem

/-! ### Commands and events -/

/-- The label of a start command. -/
def labelOf (data : Dict) : Json := Dict.getOr data "label" (.str "")

/-- The command carries `scheduled` true. -/
def Carries (data : Dict) : Prop := Dict.get data "scheduled" = some (.bool true)

/-- The payload of a lifecycle event. -/
def payload : Lifecycle → Dict
  | .started id startedAt label =>
    [("event", .str "started"), ("session_id", .str id.val), ("started_at", .str startedAt),
      ("label", label)]
  | .stopped id stoppedAt =>
    [("event", .str "stopped"), ("session_id", (id.map fun id ↦ Json.str id.val).getD .null),
      ("stopped_at", .str stoppedAt)]

/-- A text of a payload. -/
def text : Json → String
  | .str s => s
  | _ => ""

/-- What `_handle_session_db` reads of a payload, with its defaults. -/
def sessionEvent (data : Dict) : SessionEvent where
  event := text (Dict.getOr data "event" .null)
  sessionId := text (Dict.getOr data "session_id" .null)
  label := Dict.getOr data "label" (.str "")
  startedAt := text (Dict.getOr data "started_at" (.str ""))
  stoppedAt := text (Dict.getOr data "stopped_at" (.str ""))
  scheduled := (Dict.getOr data "scheduled" .null).truthy

/-- A started event as api-gateway reads it. -/
theorem sessionEvent_started (id : SessionId) (startedAt : String) (label : Json) :
    sessionEvent (payload (.started id startedAt label)) =
      { event := "started", sessionId := id.val, label := label, startedAt := startedAt } := rfl

theorem event_stopped (id : Option SessionId) (stoppedAt : String) :
    (sessionEvent (payload (.stopped id stoppedAt))).event = "stopped" := rfl

/-! ### The composed system -/

/-- audio-producer and api-gateway. The last four fields are no part of the programs. -/
structure State where
  producer : AudioProducer.State := {}
  gateway : SessionStore.State := {}
  /-- The number of lifecycle events that have been delivered. -/
  seen : ℕ := 0
  /-- The command that the control loop executes, or executed last. -/
  command : Dict := []
  /-- The command that was executed when each lifecycle event was published. -/
  origins : List Dict := []
  /-- The rows that were created, with the number of the event that was being handled. -/
  created : List (ℕ × SessionModel) := []
  /-- The numbers of the events that found a row stored under their id. -/
  stale : List ℕ := []

inductive Action
  | producer (a : AudioProducer.Action)
  /-- The next lifecycle event is delivered to `_handle_session_db`. -/
  | deliver
  | gateway (a : SessionStore.Action)

/-- The command the control loop executes after a step. -/
def executing (command : Dict) : AudioProducer.Action → Dict
  | .message (some (.obj data)) _ _ => data
  | _ => command

/-- audio-producer has gone on to `producer`. -/
def State.relay (s : State) (a : AudioProducer.Action) (producer : AudioProducer.State) :
    State where
  producer := producer
  gateway := s.gateway
  seen := s.seen
  command := executing s.command a
  origins := s.origins ++ (producer.broker.events.drop s.producer.broker.events.length).map
    fun _ ↦ executing s.command a
  created := s.created
  stale := s.stale

/-- The handler has looked for a row under the id of its event, and found one. -/
def finds (g g' : SessionStore.State) : Bool :=
  match g.handler, g'.handler with
  | .selecting e, .selected _ _ => e.sessionId ∈ g.sessionIds
  | _, _ => false

/-- api-gateway has gone on to `gateway`. -/
def State.file (s : State) (gateway : SessionStore.State) : State :=
  { s with
    gateway := gateway
    created := s.created ++ (gateway.sessions.drop s.gateway.sessions.length).map
      fun row ↦ (s.seen - 1, row)
    stale := s.stale ++ if finds s.gateway gateway then [s.seen - 1] else [] }

def step (below : Bytes → Bool) (count days : ℤ) (s : State) : Action → Option State
  | .producer a => (AudioProducer.step below s.producer a).map (s.relay a)
  | .deliver => s.producer.broker.events[s.seen]?.bind fun e ↦
      (SessionStore.step count days s.gateway (.event (sessionEvent (payload e)))).map fun gateway ↦
        { s with gateway := gateway, seen := s.seen + 1 }
  | .gateway (.event _) => none
  | .gateway a => (SessionStore.step count days s.gateway a).map s.file

/-- Both services, beginning with an empty broker and an empty database. -/
def system (below : Bytes → Bool) (count days : ℤ) : TransitionSystem State Action where
  init s := s = {}
  step := step below count days

/-- The `k`-th lifecycle event announces the session, which was started by the command. -/
def StartsAt (s : State) (k : ℕ) (id : SessionId) (data : Dict) : Prop :=
  s.origins[k]? = some data ∧
    ∃ startedAt label, s.producer.broker.events[k]? = some (.started id startedAt label)

/-- **What a step does**: audio-producer takes one, an event is delivered to a handler that is idle,
or api-gateway takes another one. -/
theorem step_cases {below : Bytes → Bool} {count days : ℤ} {s t : State} {a : Action}
    (ht : step below count days s a = some t) :
    (∃ a' p, a = .producer a' ∧ AudioProducer.step below s.producer a' = some p ∧
      t = s.relay a' p) ∨
    (∃ e, s.producer.broker.events[s.seen]? = some e ∧ s.gateway.handler = .idle ∧ t = { s with
      gateway := SessionStore.beginEvent s.gateway (sessionEvent (payload e)),
      seen := s.seen + 1 }) ∨
    ∃ a' g, a = .gateway a' ∧ (∀ e, a' ≠ .event e) ∧
      SessionStore.step count days s.gateway a' = some g ∧ t = s.file g := by
  cases a with
  | producer a' =>
    obtain ⟨p, hp, rfl⟩ := Option.map_eq_some_iff.1 ht
    exact Or.inl ⟨a', p, rfl, hp, rfl⟩
  | deliver =>
    obtain ⟨e, he, ht⟩ := Option.bind_eq_some_iff.1 ht
    obtain ⟨g, hg, rfl⟩ := Option.map_eq_some_iff.1 ht
    simp only [SessionStore.step] at hg
    split at hg
    · rename_i hidle
      obtain rfl := Option.some.inj hg
      exact Or.inr (Or.inl ⟨e, he, hidle, rfl⟩)
    · contradiction
  | gateway a' =>
    have hother : ∀ e, a' ≠ .event e := by
      rintro e rfl
      contradiction
    rw [step, Option.map_eq_some_iff] at ht
    · obtain ⟨g, hg, rfl⟩ := ht
      exact Or.inr (Or.inr ⟨a', g, rfl, hother, hg, rfl⟩)
    · exact hother

/-! ### What audio-producer announces -/

/-- A start in progress has the label of the command. -/
def Bears (command : Dict) : AudioProducer.CtrlPc → Prop
  | .starting (.kvPutting _ label) => label = labelOf command
  | .starting (.configReading _ label _ _) => label = labelOf command
  | _ => True

/-- A started event has the label of the command. -/
def Announces (command : Dict) : Lifecycle → Prop
  | .started _ _ label => label = labelOf command
  | .stopped _ _ => True

/-- What is announced between two states, and what is to be announced, has the label of the
command. -/
structure Relays (command : Dict) (s t : AudioProducer.State) : Prop where
  ctrl : Bears command t.ctrl
  events : ∃ E, t.broker.events = s.broker.events ++ E ∧ ∀ e ∈ E, Announces command e

section Relays

variable {command : Dict} {s t u : AudioProducer.State} {who : AudioProducer.Coroutine} {r : Reply}

theorem Relays.of_events (hctrl : Bears command t.ctrl)
    (hevents : t.broker.events = s.broker.events) : Relays command s t :=
  ⟨hctrl, [], by rw [hevents, List.append_nil], nofun⟩

theorem Relays.from (h : Relays command t u) (hevents : t.broker.events = s.broker.events) :
    Relays command s u := by
  obtain ⟨hctrl, E, hE, hannounces⟩ := h
  exact ⟨hctrl, E, hevents ▸ hE, hannounces⟩

/-- An event is published. -/
theorem Relays.of_announce {e : Lifecycle} (hctrl : Bears command t.ctrl) (he : Announces command e)
    (hevents : t.broker.events = (s.announce e r).broker.events) : Relays command s t := by
  refine ⟨hctrl, if r.applied then [e] else [], ?_, fun e' he' ↦ ?_⟩
  · rw [hevents, AudioProducer.broker_announce]
  · split at he'
    · obtain rfl := List.mem_singleton.1 he'
      exact he
    · contradiction

theorem bears_suspendStop (h : Bears command s.ctrl) (pc : AudioProducer.StopPc) :
    Bears command (s.suspendStop pc who).ctrl := by
  cases who with
  | audio => exact h
  | control => trivial

/-- What the end of a stop announces is no start. -/
theorem relays_announceStop (h : Bears command s.ctrl) (captured : Option SessionId)
    (stoppedAt : String) (cleared : Bool) :
    Relays command s (AudioProducer.announceStop s captured stoppedAt cleared r who) := by
  refine Relays.of_announce (e := .stopped captured stoppedAt) (r := r) ?_ trivial ?_
  · refine bears_suspendStop ?_ _
    rw [AudioProducer.ctrl_announce]
    exact h
  · rw [AudioProducer.announceStop, AudioProducer.broker_suspendStop]

/-- Nor is what a stop announces that goes idle, with the bucket or without it. -/
theorem relays_idleStop (h : Bears command s.ctrl) (captured : Option SessionId)
    (stoppedAt : String) :
    Relays command s (AudioProducer.idleStop s captured stoppedAt r who) := by
  rw [AudioProducer.idleStop]
  split
  · refine Relays.of_events (bears_suspendStop (s := s.goIdle captured r.applied) h _) ?_
    rw [AudioProducer.broker_suspendStop]
    rfl
  · exact (relays_announceStop (s := s.goIdle captured false) h captured stoppedAt false).from rfl

/-- Nor is anything at its beginning. -/
theorem relays_beginStop (h : Bears command s.ctrl) (now : Stamp) :
    Relays command s (AudioProducer.beginStop s now r who) := by
  rw [AudioProducer.beginStop]
  split
  · refine Relays.of_events (bears_suspendStop ?_ _) ?_
    · rw [AudioProducer.ctrl_publish]
      exact h
    · rw [AudioProducer.broker_suspendStop, AudioProducer.broker_publish]
      rfl
  · exact (relays_idleStop (s := s.record (.stopBegan none)) h none now.iso).from rfl

/-- Nor is anything at its calls. -/
theorem relays_stopStep (h : Bears command s.ctrl) (pc : AudioProducer.StopPc) :
    Relays command s (AudioProducer.stopStep s pc r who) := by
  cases pc with
  | eosPublishing id stoppedAt => exact relays_idleStop h (some id) stoppedAt
  | kvDeleting captured stoppedAt cleared => exact relays_announceStop h captured stoppedAt cleared
  | eventPublishing captured cleared =>
    refine Relays.of_events ?_ (by rw [AudioProducer.stopStep, AudioProducer.broker_finishStop])
    cases who with
    | audio => exact h
    | control => trivial

theorem relays_spawnFlush {label : Json} (hlabel : label = labelOf command) (stamp : Stamp)
    (since : ℕ) (value : Option ℤ) :
    Relays command s (AudioProducer.spawnFlush s stamp label since value r) :=
  Relays.of_announce (e := .started stamp.id stamp.iso label) (r := r) trivial hlabel rfl

theorem relays_activate {label : Json} (hlabel : label = labelOf command) (stamp : Stamp) :
    Relays command s (AudioProducer.activate s stamp label r) := by
  rw [AudioProducer.activate]
  split
  · exact Relays.of_events hlabel rfl
  · exact (relays_spawnFlush
      (s := s.makeActive stamp.id label) hlabel stamp s.captured none).from rfl

/-- A start goes on with the label of its command. -/
theorem relays_beginStart {label : Json} (hlabel : label = labelOf command) (stamp : Stamp) :
    Relays command s (AudioProducer.beginStart s stamp label r) := by
  simp only [AudioProducer.beginStart]
  split
  · refine Relays.of_events hlabel ?_
    dsimp only
    split <;> rfl
  · exact (relays_activate (s := s.record (.startBegan stamp.id)) hlabel stamp).from rfl

theorem relays_startStep {pc : AudioProducer.StartPc} (h : Bears command (.starting pc)) :
    Relays command s (AudioProducer.startStep s pc r) := by
  cases pc with
  | kvPutting stamp label => exact relays_activate h stamp
  | configReading stamp label since value => exact relays_spawnFlush h stamp since value
  | eventPublishing => exact Relays.of_events trivial rfl

/-- A command is executed. -/
theorem relays_handleControlMessage (payload : Option Json) (now : Stamp)
    (h : Bears (executing command (.message payload now r)) s.ctrl) :
    Relays (executing command (.message payload now r)) s
      (AudioProducer.handleControlMessage s payload now r) := by
  cases payload with
  | none => exact Relays.of_events trivial rfl
  | some payload =>
    cases payload with
    | obj data =>
      simp only [AudioProducer.handleControlMessage]
      split
      · split
        · exact Relays.of_events trivial rfl
        · exact relays_beginStart rfl now
      · split
        · exact relays_beginStop h now
        · exact Relays.of_events trivial rfl
    | _ => exact Relays.of_events trivial rfl

/-- **audio-producer announces the label of the command it executes.** -/
theorem relays_step {below : Bytes → Bool} {a : AudioProducer.Action} (h : Bears command s.ctrl)
    (ht : AudioProducer.step below s a = some t) : Relays (executing command a) s t := by
  cases AudioProducer.stepped_of_step ht with
  | boot hdown sessionKv configKv raised =>
    refine Relays.of_events ?_ (by rw [AudioProducer.broker_boot])
    rw [AudioProducer.ctrl_boot]
    trivial
  | crash hup => exact Relays.of_events trivial rfl
  | chunk hup haudio data r =>
    rw [AudioProducer.routeChunk]
    split
    · refine Relays.of_events ?_ ?_
      · show Bears command (AudioProducer.State.publish _ _ _).ctrl
        rw [AudioProducer.ctrl_publish]
        exact h
      · show (AudioProducer.State.publish _ _ _).broker.events = _
        rw [AudioProducer.broker_publish]
    · refine Relays.of_events h ?_
      dsimp only
      split <;> rfl
  | published hup haudio now r =>
    simp only [AudioProducer.checkSilence]
    split
    · exact Relays.of_events h rfl
    · split
      · exact (relays_beginStop (s := { s with mem := _, audio := .waiting }) h now).from rfl
      · exact Relays.of_events h rfl
  | audioStop hup haudio now r => exact relays_stopStep h _
  | subscribed hup hctrl ok =>
    refine Relays.of_events ?_ rfl
    cases ok <;> trivial
  | message hup hctrl payload now r =>
    refine relays_handleControlMessage payload now ?_
    rw [hctrl]
    trivial
  | ctrlStart hup hctrl r =>
    rw [hctrl] at h
    exact relays_startStep h
  | ctrlStop hup hctrl r => exact relays_stopStep h _
  | @ctrlAcked raised hup hctrl r =>
    refine Relays.of_events ?_ rfl
    cases raised <;> trivial
  | ctrlExit hup hctrl => exact Relays.of_events trivial rfl
  | @flush i f hup hi answer r =>
    have hflushed := AudioProducer.flushed_flushStep s i f answer r
    exact Relays.of_events (hflushed.ctrl ▸ h) hflushed.events
  | _ => exact Relays.of_events h rfl

end Relays

/-! ### What api-gateway makes of it -/

/-- The handler is at work on the event. -/
def Handles (e : Lifecycle) : SessionStore.HandlerPc → Prop
  | .idle => False
  | .selecting e' | .selected e' _ | .inserting e' | .inserted e' _ =>
    e' = sessionEvent (payload e) ∧ ∃ id startedAt label, e = .started id startedAt label
  | .updating _ | .updated _ => ∃ id stoppedAt, e = .stopped id stoppedAt

/-- A step that leaves the handler alone, and adds no row. -/
structure Aside (s t : SessionStore.State) : Prop where
  handler : t.handler = s.handler
  ids : t.sessionIds.Sublist s.sessionIds

/-- What api-gateway does apart from taking an event: the handler stays with its event, and the only
row that is added is that of the event. -/
structure Proceeds (s t : SessionStore.State) : Prop where
  handler : t.handler ≠ .idle → s.handler ≠ .idle ∧ ∀ e, Handles e s.handler → Handles e t.handler
  sessions : t.sessionIds.Sublist s.sessionIds ∨
    ∃ e, s.handler = .inserting e ∧ t.sessions = s.sessions ++ [e.row]

section Proceeds

variable {s t : SessionStore.State}

theorem Aside.of_quiet (h : SessionStore.Quiet s t) : Aside s t :=
  ⟨h.handler, h.ids ▸ List.Sublist.refl _⟩

theorem Aside.proceeds (h : Aside s t) : Proceeds s t :=
  ⟨fun hbusy ↦ ⟨h.handler ▸ hbusy, fun _ he ↦ h.handler ▸ he⟩, Or.inl h.ids⟩

/-- A step of the handler that adds no row. -/
theorem Proceeds.of_ids (hids : t.sessionIds = s.sessionIds) (hbusy : s.handler ≠ .idle)
    (hhandler : ∀ e, Handles e s.handler → t.handler = .idle ∨ Handles e t.handler) :
    Proceeds s t :=
  ⟨fun h ↦ ⟨hbusy, fun e he ↦ (hhandler e he).resolve_left h⟩, Or.inl (hids ▸ List.Sublist.refl _)⟩

/-- A database call of the handler: it adds the row of its event, closes a row or finds one. -/
theorem proceeds_handlerStep {r : Reply} (ht : SessionStore.handlerStep s r = some t) :
    Proceeds s t := by
  rw [SessionStore.handlerStep.eq_def] at ht
  split at ht <;> rename_i hs
  · contradiction
  all_goals
    obtain rfl := Option.some.inj ht
    have hbusy : s.handler ≠ .idle := by
      rw [hs]
      exact nofun
  · refine Proceeds.of_ids rfl hbusy fun e he ↦ Or.inr ?_
    rwa [hs] at he
  · exact Proceeds.of_ids rfl hbusy fun e he ↦ Or.inl rfl
  · exact Proceeds.of_ids rfl hbusy fun e he ↦ Or.inl rfl
  · refine Proceeds.of_ids rfl hbusy fun e he ↦ Or.inr ?_
    rwa [hs] at he
  · rename_i e
    have hinserted : ∀ e', Handles e' s.handler → ∀ raised, Handles e' (.inserted e raised) := by
      intro e' he' raised
      rwa [hs] at he'
    rw [SessionStore.insertRow]
    split
    · exact Proceeds.of_ids rfl hbusy fun e' he' ↦ Or.inr (hinserted e' he' true)
    · by_cases happlied : r.applied = true
      · rw [if_pos happlied]
        exact ⟨fun _ ↦ ⟨hbusy, fun e' he' ↦ hinserted e' he' _⟩, Or.inr ⟨e, hs, rfl⟩⟩
      · rw [if_neg happlied]
        exact Proceeds.of_ids rfl hbusy fun e' he' ↦ Or.inr (hinserted e' he' _)
  · refine Proceeds.of_ids ?_ hbusy fun e he ↦ Or.inr ?_
    · refine (SessionStore.quiet_update _ (fun _ ↦ ?_) r).ids
      rfl
    · rwa [hs] at he
  · exact Proceeds.of_ids rfl hbusy fun e he ↦ Or.inl rfl
  · exact Proceeds.of_ids rfl hbusy fun e he ↦ Or.inl rfl
  · exact Proceeds.of_ids rfl hbusy fun e he ↦ Or.inl rfl
  · exact Proceeds.of_ids rfl hbusy fun e he ↦ Or.inl rfl

/-- Retention deletes rows and adds none. -/
theorem aside_retentionStep {count days : ℤ} {a : SessionStore.RetentionAnswer}
    (ht : SessionStore.retentionStep count days s a = some t) : Aside s t := by
  rcases SessionStore.retentionStep_cases ht with hquiet | ⟨ids, r, -, -, rfl⟩
  · exact Aside.of_quiet hquiet
  · rw [SessionStore.deleteStep]
    split
    · exact ⟨rfl, List.filter_sublist.map _⟩
    · exact ⟨rfl, List.Sublist.refl _⟩

/-- A step that is neither the handler's nor a restart. -/
def beside : SessionStore.Action → Bool
  | .event _ | .handler _ | .restart _ => false
  | _ => true

/-- Requests, the pull loop and retention leave the handler alone. -/
theorem aside_step {count days : ℤ} {a : SessionStore.Action} (ha : beside a = true)
    (ht : SessionStore.step count days s a = some t) : Aside s t := by
  cases a with
  | event e => contradiction
  | handler r => contradiction
  | restart committed => contradiction
  | loop a =>
    obtain ⟨l, -, rfl⟩ := SessionStore.loop_step ht
    exact ⟨rfl, List.Sublist.refl _⟩
  | connect entry =>
    obtain ⟨-, hconnect⟩ := Option.ite_none_left_eq_some.1 ht
    obtain rfl := Option.some.inj hconnect
    rw [SessionStore.kvConnect.eq_def]
    split <;> exact ⟨rfl, List.Sublist.refl _⟩
  | retain a => exact aside_retentionStep ht
  | _ => exact Aside.of_quiet (SessionStore.quiet_step rfl ht)

/-- A restart ends the handler. -/
theorem restarted {count days : ℤ} {committed : Bool}
    (ht : SessionStore.step count days s (.restart committed) = some t) :
    t.handler = .idle ∧ t.sessions = s.sessions := by
  rw [SessionStore.step, Option.map_eq_some_iff] at ht
  obtain ⟨l, -, rfl⟩ := ht
  exact ⟨rfl, rfl⟩

/-- **Every step of api-gateway that takes no event.** -/
theorem proceeds_step {count days : ℤ} {a : SessionStore.Action} (ha : ∀ e, a ≠ .event e)
    (ht : SessionStore.step count days s a = some t) : Proceeds s t := by
  cases a with
  | event e => exact absurd rfl (ha e)
  | handler r => exact proceeds_handlerStep ht
  | restart committed =>
    obtain ⟨hidle, hsessions⟩ := restarted ht
    refine ⟨fun hbusy ↦ absurd hidle hbusy, Or.inl ?_⟩
    rw [SessionStore.State.sessionIds, hsessions]
    exact List.Sublist.refl _
  | _ => exact (aside_step rfl ht).proceeds

end Proceeds

/-! ### Both services -/

structure Relayed (s : State) : Prop where
  bears : Bears s.command s.producer.ctrl
  length : s.origins.length = s.producer.broker.events.length
  announces : ∀ (k : ℕ) (e : Lifecycle) (data : Dict), s.producer.broker.events[k]? = some e →
    s.origins[k]? = some data → Announces data e
  handles : s.gateway.handler ≠ .idle → ∃ k e, s.seen = k + 1 ∧
    s.producer.broker.events[k]? = some e ∧ Handles e s.gateway.handler
  created : ∀ p ∈ s.created, p.1 < s.seen ∧ ∃ id startedAt label,
    s.producer.broker.events[p.1]? = some (.started id startedAt label) ∧
      p.2 = (sessionEvent (payload (.started id startedAt label))).row
  rows : ∀ x ∈ s.gateway.sessionIds, ∃ p ∈ s.created, p.2.id = x

section Steps

variable {below : Bytes → Bool} {count days : ℤ} {s t : State}

theorem getElem?_append_of_some {α : Type*} {l l' : List α} {k : ℕ} {x : α} (h : l[k]? = some x) :
    (l ++ l')[k]? = some x := by
  obtain ⟨hk, -⟩ := List.getElem?_eq_some_iff.1 h
  rw [List.getElem?_append_left hk, h]

/-- A step of audio-producer. -/
theorem relayed_relay (h : Relayed s) {a : AudioProducer.Action} {p : AudioProducer.State}
    (hp : AudioProducer.step below s.producer a = some p) : Relayed (s.relay a p) := by
  obtain ⟨hctrl, E, hevents, hannounces⟩ := relays_step h.bears hp
  have horigins : (s.relay a p).origins = s.origins ++ E.map fun _ ↦ executing s.command a := by
    rw [State.relay, hevents, List.drop_left]
  have hgrown {k : ℕ} {e : Lifecycle} (he : s.producer.broker.events[k]? = some e) :
      p.broker.events[k]? = some e := by
    rw [hevents]
    exact getElem?_append_of_some he
  refine ⟨hctrl, ?_, fun k e data he hdata ↦ ?_, fun hbusy ↦ ?_, fun q hq ↦ ?_, h.rows⟩
  · show (s.relay a p).origins.length = p.broker.events.length
    rw [horigins, hevents, List.length_append, List.length_append, List.length_map, h.length]
  · rw [horigins] at hdata
    have he' : (s.producer.broker.events ++ E)[k]? = some e := hevents ▸ he
    -- An event was announced before the step, or it is one that the step announces.
    by_cases hk : k < s.producer.broker.events.length
    · rw [List.getElem?_append_left hk] at he'
      rw [List.getElem?_append_left (h.length ▸ hk)] at hdata
      exact h.announces k e data he' hdata
    · have hle := Nat.le_of_not_lt hk
      rw [List.getElem?_append_right hle] at he'
      rw [List.getElem?_append_right (h.length ▸ hle), List.getElem?_map] at hdata
      obtain ⟨-, -, rfl⟩ := Option.map_eq_some_iff.1 hdata
      exact hannounces e (List.mem_of_getElem? he')
  · obtain ⟨k, e, hseen, he, hhandles⟩ := h.handles hbusy
    exact ⟨k, e, hseen, hgrown he, hhandles⟩
  · obtain ⟨hlt, id, startedAt, label, he, hrow⟩ := h.created q hq
    exact ⟨hlt, id, startedAt, label, hgrown he, hrow⟩

/-- The handler takes a started event. -/
theorem beginEvent_started (g : SessionStore.State) (id : SessionId) (startedAt : String)
    (label : Json) :
    SessionStore.beginEvent g (sessionEvent (payload (.started id startedAt label))) =
      { g with handler := .selecting (sessionEvent (payload (.started id startedAt label))) } := by
  have hid : (sessionEvent (payload (.started id startedAt label))).sessionId ≠ "" := id.2
  have hevent : (sessionEvent (payload (.started id startedAt label))).event = "started" := rfl
  rw [SessionStore.beginEvent, if_neg hid, if_pos hevent]

/-- The handler takes a stopped event, if it names a session. -/
theorem beginEvent_stopped (g : SessionStore.State) (id : Option SessionId) (stoppedAt : String) :
    SessionStore.beginEvent g (sessionEvent (payload (.stopped id stoppedAt))) = g ∨
      SessionStore.beginEvent g (sessionEvent (payload (.stopped id stoppedAt))) =
        { g with handler := .updating (sessionEvent (payload (.stopped id stoppedAt))) } := by
  rw [SessionStore.beginEvent]
  split
  · exact Or.inl rfl
  · rw [event_stopped, if_neg (by decide), if_pos rfl]
    exact Or.inr rfl

/-- The handler takes an event. -/
theorem handler_beginEvent {g : SessionStore.State} (hidle : g.handler = .idle) (e : Lifecycle) :
    (SessionStore.beginEvent g (sessionEvent (payload e))).sessions = g.sessions ∧
      ((SessionStore.beginEvent g (sessionEvent (payload e))).handler ≠ .idle →
        Handles e (SessionStore.beginEvent g (sessionEvent (payload e))).handler) := by
  cases e with
  | started id startedAt label =>
    rw [beginEvent_started]
    exact ⟨rfl, fun _ ↦ ⟨rfl, id, startedAt, label, rfl⟩⟩
  | stopped id stoppedAt =>
    rcases beginEvent_stopped g id stoppedAt with hsame | hupdating
    · rw [hsame]
      exact ⟨rfl, fun hbusy ↦ absurd hidle hbusy⟩
    · rw [hupdating]
      exact ⟨rfl, fun _ ↦ ⟨id, stoppedAt, rfl⟩⟩

/-- An event is delivered once the one before it has been handled. -/
theorem relayed_deliver (h : Relayed s) {e : Lifecycle}
    (he : s.producer.broker.events[s.seen]? = some e) (hidle : s.gateway.handler = .idle) :
    Relayed { s with
      gateway := SessionStore.beginEvent s.gateway (sessionEvent (payload e)),
      seen := s.seen + 1 } := by
  obtain ⟨hsessions, hhandles⟩ := handler_beginEvent hidle e
  refine ⟨h.bears, h.length, h.announces, fun hbusy ↦ ⟨s.seen, e, rfl, he, hhandles hbusy⟩,
    fun p hp ↦ ?_, fun x hx ↦ h.rows x ?_⟩
  · obtain ⟨hlt, hrow⟩ := h.created p hp
    exact ⟨Nat.lt_succ_of_lt hlt, hrow⟩
  · rw [SessionStore.State.sessionIds, ← hsessions]
    exact hx

/-- A step of api-gateway that takes no event. -/
theorem relayed_file (h : Relayed s) {g : SessionStore.State} (hg : Proceeds s.gateway g) :
    Relayed (s.file g) := by
  have hhandles : g.handler ≠ .idle → ∃ k e, s.seen = k + 1 ∧
      s.producer.broker.events[k]? = some e ∧ Handles e g.handler := by
    intro hbusy
    obtain ⟨hbusy, hstays⟩ := hg.handler hbusy
    obtain ⟨k, e, hseen, he, hhandles⟩ := h.handles hbusy
    exact ⟨k, e, hseen, he, hstays e hhandles⟩
  rcases hg.sessions with hids | ⟨e, hinserting, hsessions⟩
  · have hdrop : g.sessions.drop s.gateway.sessions.length = [] := by
      refine List.drop_eq_nil_of_le ?_
      have hlength := hids.length_le
      rwa [SessionStore.State.sessionIds, SessionStore.State.sessionIds, List.length_map,
        List.length_map] at hlength
    have hcreated : (s.file g).created = s.created := by
      rw [State.file, hdrop, List.map_nil, List.append_nil]
    refine ⟨h.bears, h.length, h.announces, hhandles, ?_, fun x hx ↦ ?_⟩
    · rw [hcreated]
      exact h.created
    · rw [hcreated]
      exact h.rows x (hids.subset hx)
  · -- The row is that of the event the handler is at work on, the last that was delivered.
    have hcreated : (s.file g).created = s.created ++ [(s.seen - 1, e.row)] := by
      rw [State.file, hsessions, List.drop_left, List.map_singleton]
    obtain ⟨k, e', hseen, he', hhandling⟩ := h.handles (by simp [hinserting])
    rw [hinserting] at hhandling
    obtain ⟨rfl, id, startedAt, label, rfl⟩ := hhandling
    refine ⟨h.bears, h.length, h.announces, hhandles, fun p hp ↦ ?_, fun x hx ↦ ?_⟩
    · rw [hcreated] at hp
      rcases List.mem_append.1 hp with hold | hnew
      · exact h.created p hold
      · obtain rfl := List.mem_singleton.1 hnew
        have hlt : s.seen - 1 < s.seen := by omega
        have hk : s.seen - 1 = k := by omega
        refine ⟨hlt, id, startedAt, label, ?_, rfl⟩
        show s.producer.broker.events[s.seen - 1]? = _
        rw [hk]
        exact he'
    · rw [hcreated]
      have hx' : x ∈ g.sessions.map SessionModel.id := hx
      rw [hsessions, List.map_append, List.mem_append] at hx'
      rcases hx' with hold | hnew
      · obtain ⟨p, hp, hid⟩ := h.rows x hold
        exact ⟨p, List.mem_append_left _ hp, hid⟩
      · obtain rfl := List.mem_singleton.1 hnew
        exact ⟨_, List.mem_append_right _ (List.mem_singleton_self _), rfl⟩

theorem relayed_step (h : Relayed s) {a : Action} (ht : step below count days s a = some t) :
    Relayed t := by
  rcases step_cases ht with ⟨a', p, -, hp, rfl⟩ | ⟨e, he, hidle, rfl⟩ | ⟨a', g, -, hother, hg, rfl⟩
  · exact relayed_relay h hp
  · exact relayed_deliver h he hidle
  · exact relayed_file h (proceeds_step hother hg)

theorem relayed_inductive (below : Bytes → Bool) (count days : ℤ) {G : State → Action → Prop} :
    (system below count days).Inductive G Relayed where
  init s hs := by
    obtain rfl : s = {} := hs
    exact ⟨trivial, rfl, nofun, fun h ↦ absurd rfl h, nofun, nofun⟩
  step h _ ht := relayed_step h ht

end Steps

/-! ### The row of an announced session -/

/-- No call of the handler fails, and api-gateway does not die while it is at work. -/
def succeeds (s : State) : Action → Bool
  | .gateway (.handler r) => r = .ok
  | .gateway (.restart _) =>
    match s.gateway.handler with
    | .idle => true
    | _ => false
  | _ => true

/-- The number of lifecycle events that have been handled. -/
def State.handled (s : State) : ℕ :=
  match s.gateway.handler with
  | .idle => s.seen
  | _ => s.seen - 1

/-- A row has been created for the event. -/
def Made (s : State) (k : ℕ) : Prop := ∃ row, (k, row) ∈ s.created

/-- A session was announced before under the id that the event announces. -/
def Repeats (s : State) (k : ℕ) : Prop :=
  ∃ j < k, ∃ id startedAt label startedAt' label',
    s.producer.broker.events[j]? = some (.started id startedAt label) ∧
      s.producer.broker.events[k]? = some (.started id startedAt' label')

/-- What the handler has found or added for the event it is at work on, the last that was
delivered. -/
def Found (s : State) : SessionStore.HandlerPc → Prop
  | .selecting _ => s.seen - 1 ∉ s.stale ∧ ¬ Made s (s.seen - 1)
  | .selected e found => ¬ Made s (s.seen - 1) ∧
      (found = some true ∧ s.seen - 1 ∈ s.stale ∨
        found = some false ∧ s.seen - 1 ∉ s.stale ∧ e.sessionId ∉ s.gateway.sessionIds)
  | .inserting e => s.seen - 1 ∉ s.stale ∧ e.sessionId ∉ s.gateway.sessionIds
  | .inserted _ _ => s.seen - 1 ∉ s.stale ∧ Made s (s.seen - 1)
  | _ => True

/-- The events that have been handled have a row of their own, or found one stored. -/
structure Filed (s : State) : Prop where
  relayed : Relayed s
  seen : s.seen ≤ s.producer.broker.events.length
  found : Found s s.gateway.handler
  stale : ∀ k ∈ s.stale, k < s.seen ∧ Repeats s k
  made : ∀ k id startedAt label, s.producer.broker.events[k]? = some (.started id startedAt label) →
    k < s.handled → (Made s k ↔ k ∉ s.stale)

section Filed

variable {below : Bytes → Bool} {count days : ℤ} {s t : State} {g : SessionStore.State} {k : ℕ}

theorem State.handled_le (s : State) : s.handled ≤ s.seen := by
  rw [State.handled]
  split <;> omega

theorem handled_of_busy (h : s.gateway.handler ≠ .idle) : s.handled = s.seen - 1 := by
  rw [State.handled]
  split
  · contradiction
  · rfl

theorem handled_of_idle (h : s.gateway.handler = .idle) : s.handled = s.seen := by
  rw [State.handled, h]

/-- A step of api-gateway files for the last event only. -/
theorem made_file_of_ne (hk : k ≠ s.seen - 1) : Made (s.file g) k ↔ Made s k := by
  refine exists_congr fun row ↦ ?_
  rw [State.file, List.mem_append, or_iff_left]
  intro hmem
  obtain ⟨row', -, heq⟩ := List.mem_map.1 hmem
  exact hk (congrArg Prod.fst heq).symm

theorem mem_stale_file_of_ne (hk : k ≠ s.seen - 1) : k ∈ (s.file g).stale ↔ k ∈ s.stale := by
  rw [State.file, List.mem_append, or_iff_left]
  split <;> simp [hk]

/-- A step that adds no row creates none. -/
theorem created_file (hids : g.sessionIds.Sublist s.gateway.sessionIds) :
    (s.file g).created = s.created := by
  have hlength := hids.length_le
  rw [SessionStore.State.sessionIds, SessionStore.State.sessionIds, List.length_map,
    List.length_map] at hlength
  rw [State.file, List.drop_eq_nil_of_le hlength, List.map_nil, List.append_nil]

theorem stale_file (h : finds s.gateway g = false) : (s.file g).stale = s.stale := by
  rw [State.file, h, if_neg Bool.false_ne_true, List.append_nil]

/-- A step of audio-producer. -/
theorem filed_relay (h : Filed s) {a : AudioProducer.Action} {p : AudioProducer.State}
    (hp : AudioProducer.step below s.producer a = some p) : Filed (s.relay a p) := by
  obtain ⟨-, E, hevents, -⟩ := relays_step h.relayed.bears hp
  have hgrown {k : ℕ} {e : Lifecycle} (he : s.producer.broker.events[k]? = some e) :
      p.broker.events[k]? = some e := by
    rw [hevents]
    exact getElem?_append_of_some he
  refine ⟨relayed_relay h.relayed hp, ?_, h.found, fun k hk ↦ ?_,
    fun k id startedAt label he hk ↦ ?_⟩
  · show s.seen ≤ p.broker.events.length
    rw [hevents, List.length_append]
    exact h.seen.trans (Nat.le_add_right _ _)
  · obtain ⟨hlt, j, hj, id, startedAt, label, startedAt', label', he, he'⟩ := h.stale k hk
    exact ⟨hlt, j, hj, id, startedAt, label, startedAt', label', hgrown he, hgrown he'⟩
  · have he' : (s.producer.broker.events ++ E)[k]? = some (.started id startedAt label) :=
      hevents ▸ he
    have hhandled : s.handled ≤ s.seen := s.handled_le
    have hseen := h.seen
    have hlt : k < s.producer.broker.events.length := by
      have hk' : k < s.handled := hk
      omega
    rw [List.getElem?_append_left hlt] at he'
    exact h.made k id startedAt label he' hk

/-- An event is delivered. -/
theorem filed_deliver (h : Filed s) {e : Lifecycle}
    (he : s.producer.broker.events[s.seen]? = some e) (hidle : s.gateway.handler = .idle) :
    Filed { s with
      gateway := SessionStore.beginEvent s.gateway (sessionEvent (payload e)),
      seen := s.seen + 1 } := by
  obtain ⟨hlt, -⟩ := List.getElem?_eq_some_iff.1 he
  refine ⟨relayed_deliver h.relayed he hidle, hlt, ?_, fun k hk ↦ ?_,
    fun k id startedAt label hk hhandled ↦ ?_⟩
  · cases e with
    | started id startedAt label =>
      rw [beginEvent_started]
      refine ⟨fun hmem ↦ Nat.lt_irrefl _ (h.stale _ hmem).1, ?_⟩
      rintro ⟨row, hrow⟩
      exact Nat.lt_irrefl _ (h.relayed.created _ hrow).1
    | stopped id stoppedAt =>
      rcases beginEvent_stopped s.gateway id stoppedAt with hsame | hupdating
      · rw [hsame, hidle]
        trivial
      · rw [hupdating]
        trivial
  · obtain ⟨hseen, hrepeats⟩ := h.stale k hk
    exact ⟨Nat.lt_succ_of_lt hseen, hrepeats⟩
  · by_cases hseen : k < s.seen
    · exact h.made k id startedAt label hk (by rwa [handled_of_idle hidle])
    · -- The event that is delivered is a start, so that the handler is at work on it.
      exfalso
      obtain rfl : k = s.seen := by
        have hle := State.handled_le { s with
          gateway := SessionStore.beginEvent s.gateway (sessionEvent (payload e)),
          seen := s.seen + 1 }
        dsimp only at hle
        omega
      obtain rfl := Option.some.inj (hk.symm.trans he)
      rw [handled_of_busy (by rw [beginEvent_started]; exact nofun)] at hhandled
      exact Nat.lt_irrefl _ hhandled

/-- A step of api-gateway that leaves the handler alone. -/
theorem filed_aside (h : Filed s) (haside : Aside s.gateway g) : Filed (s.file g) := by
  have hhandler : g.handler = s.gateway.handler := haside.handler
  have hids : ∀ {x}, x ∉ s.gateway.sessionIds → x ∉ g.sessionIds := fun hx hmem ↦
    hx (haside.ids.subset hmem)
  have hhandled : (s.file g).handled = s.handled := by
    rw [State.handled, State.handled]
    show (match g.handler with | .idle => s.seen | _ => s.seen - 1) = _
    rw [hhandler]
  have hcreated := created_file haside.ids
  have hstale : (s.file g).stale = s.stale := by
    refine stale_file ?_
    rw [finds, hhandler]
    cases s.gateway.handler <;> rfl
  have hmade (k : ℕ) : Made (s.file g) k ↔ Made s k := by rw [Made, hcreated, Made]
  refine ⟨relayed_file h.relayed haside.proceeds, h.seen, ?_, ?_,
    fun k id startedAt label he hk ↦ ?_⟩
  · show Found (s.file g) g.handler
    have hfound := h.found
    rw [hhandler]
    cases hpc : s.gateway.handler with
    | selecting e =>
      rw [hpc] at hfound
      exact ⟨hstale ▸ hfound.1, fun hmem ↦ hfound.2 ((hmade _).1 hmem)⟩
    | selected e found =>
      rw [hpc] at hfound
      refine ⟨fun hmem ↦ hfound.1 ((hmade _).1 hmem), ?_⟩
      rw [hstale]
      exact hfound.2.imp_right fun hnone ↦ ⟨hnone.1, hnone.2.1, hids hnone.2.2⟩
    | inserting e =>
      rw [hpc] at hfound
      exact ⟨hstale ▸ hfound.1, hids hfound.2⟩
    | inserted e raised =>
      rw [hpc] at hfound
      exact ⟨hstale ▸ hfound.1, (hmade _).2 hfound.2⟩
    | _ => trivial
  · rw [hstale]
    exact h.stale
  · rw [hmade, hstale]
    exact h.made k id startedAt label he (hhandled ▸ hk)

/-- The handler goes on. -/
theorem filed_busy (h : Filed s) (hproceeds : Proceeds s.gateway g) (hbusy : g.handler ≠ .idle)
    (hfound : Found (s.file g) g.handler)
    (hstale : finds s.gateway g = true → s.seen - 1 < s.seen ∧ Repeats s (s.seen - 1)) :
    Filed (s.file g) := by
  have hhandled : (s.file g).handled = s.handled := by
    rw [handled_of_busy (hproceeds.handler hbusy).1]
    exact handled_of_busy (s := s.file g) hbusy
  refine ⟨relayed_file h.relayed hproceeds, h.seen, hfound, fun k hk ↦ ?_,
    fun k id startedAt label he hk ↦ ?_⟩
  · rcases List.mem_append.1 hk with hold | hnew
    · exact h.stale k hold
    · split at hnew
      · rename_i hfinds
        obtain rfl := List.mem_singleton.1 hnew
        exact hstale hfinds
      · contradiction
  · rw [hhandled] at hk
    have hne : k ≠ s.seen - 1 := by
      rw [handled_of_busy (hproceeds.handler hbusy).1] at hk
      omega
    rw [made_file_of_ne hne, mem_stale_file_of_ne hne]
    exact h.made k id startedAt label he hk

/-- The handler ends. -/
theorem filed_idle (h : Filed s) (hproceeds : Proceeds s.gateway g)
    (hbusy : s.gateway.handler ≠ .idle) (hidle : g.handler = .idle)
    (hids : g.sessionIds = s.gateway.sessionIds)
    (hcurrent : ∀ id startedAt label, Handles (.started id startedAt label) s.gateway.handler →
      (Made s (s.seen - 1) ↔ s.seen - 1 ∉ s.stale)) : Filed (s.file g) := by
  have hcreated : (s.file g).created = s.created := created_file (by rw [hids])
  have hstale : (s.file g).stale = s.stale := by
    refine stale_file ?_
    rw [finds, hidle]
    cases s.gateway.handler <;> rfl
  refine ⟨relayed_file h.relayed hproceeds, h.seen, ?_, ?_, fun k id startedAt label he hk ↦ ?_⟩
  · show Found (s.file g) g.handler
    rw [hidle]
    trivial
  · rw [hstale]
    exact h.stale
  · have hlt : k < s.seen := by
      rwa [handled_of_idle (s := s.file g) hidle] at hk
    rw [Made, hcreated, hstale]
    -- The handler was at work on the last event; those before had been handled.
    obtain ⟨k', e, hseen, he', hhandles⟩ := h.relayed.handles hbusy
    by_cases hk' : k = k'
    · obtain rfl : e = .started id startedAt label := by
        rw [← hk'] at he'
        exact Option.some.inj (he'.symm.trans he)
      obtain rfl : k = s.seen - 1 := by omega
      exact hcurrent id startedAt label hhandles
    · refine h.made k id startedAt label he ?_
      rw [handled_of_busy hbusy]
      omega

/-- A row that is stored under the id of the event is that of an earlier one. -/
theorem repeats_of_mem (h : Filed s) {e : SessionEvent} (hs : s.gateway.handler = .selecting e)
    (hmem : e.sessionId ∈ s.gateway.sessionIds) : s.seen - 1 < s.seen ∧ Repeats s (s.seen - 1) := by
  obtain ⟨k, e', hseen, he', hhandles⟩ := h.relayed.handles (by simp [hs])
  have hfound := h.found
  rw [hs] at hhandles hfound
  obtain ⟨rfl, id, startedAt, label, rfl⟩ := hhandles
  obtain rfl : k = s.seen - 1 := by omega
  obtain ⟨⟨j, row⟩, hp, hid⟩ := h.relayed.rows _ hmem
  obtain ⟨hj, id', startedAt', label', hej, hrow⟩ := h.relayed.created _ hp
  have hne : j ≠ s.seen - 1 := by
    rintro rfl
    exact hfound.2 ⟨row, hp⟩
  obtain rfl : id' = id := by
    refine Subtype.ext ?_
    rw [show row.id = id'.val from congrArg SessionModel.id hrow] at hid
    exact hid
  have hlt : j < s.seen := hj
  exact ⟨by omega, j, by omega, id', startedAt', label', startedAt, label, hej, he'⟩

/-- The handler selects the row of its event. If there is one, a session was announced before under
the id. -/
theorem filed_selecting (h : Filed s) {e : SessionStore.SessionEvent}
    (hs : s.gateway.handler = .selecting e) (hg : SessionStore.handlerStep s.gateway .ok = some g) :
    Filed (s.file g) := by
  have hproceeds := proceeds_handlerStep hg
  have hfound := h.found
  rw [hs] at hfound
  obtain ⟨hnew, hnone⟩ := hfound
  rw [SessionStore.handlerStep, hs] at hg
  have hg' := Option.some.inj hg
  have hfinds : finds s.gateway g = decide (e.sessionId ∈ s.gateway.sessionIds) := by
    rw [finds, hs, ← hg']
  have hcreated : (s.file g).created = s.created :=
    created_file (by rw [← hg']; exact List.Sublist.refl _)
  refine filed_busy h hproceeds (by rw [← hg']; exact nofun) ?_ fun hstored ↦
    repeats_of_mem h hs (of_decide_eq_true (hfinds ▸ hstored))
  have hstale : (s.file g).stale = s.stale ++
      if e.sessionId ∈ s.gateway.sessionIds then [s.seen - 1] else [] := by
    rw [State.file, hfinds]
    simp only [decide_eq_true_eq]
  have hhandler : g.handler =
      .selected e (some (decide (e.sessionId ∈ s.gateway.sessionIds))) := by
    rw [← hg']
    rfl
  have hids : (s.file g).gateway.sessionIds = s.gateway.sessionIds := by
    show g.sessionIds = _
    rw [← hg']
    rfl
  rw [hhandler]
  refine ⟨by rwa [Made, hcreated], ?_⟩
  rw [hstale, hids]
  by_cases hmem : e.sessionId ∈ s.gateway.sessionIds
  · left
    rw [if_pos hmem]
    exact ⟨by rw [decide_eq_true hmem], List.mem_append_right _ (List.mem_singleton_self _)⟩
  · right
    rw [if_neg hmem, List.append_nil]
    exact ⟨by rw [decide_eq_false hmem], hnew, hmem⟩

/-- It goes by what it has found: it is done, or inserts the row. -/
theorem filed_selected (h : Filed s) {e : SessionStore.SessionEvent} {found : Option Bool}
    (hs : s.gateway.handler = .selected e found)
    (hg : SessionStore.handlerStep s.gateway .ok = some g) : Filed (s.file g) := by
  have hproceeds := proceeds_handlerStep hg
  have hfound := h.found
  rw [hs] at hfound
  rw [SessionStore.handlerStep, hs] at hg
  obtain ⟨hnone, ⟨rfl, hstale⟩ | ⟨rfl, hnew, hmem⟩⟩ := hfound
  · have hg' := Option.some.inj hg
    exact filed_idle h hproceeds (by rw [hs]; exact nofun) (by rw [← hg']) (by rw [← hg']; rfl)
      fun _ _ _ _ ↦ iff_of_false hnone (not_not.2 hstale)
  · have hg' := Option.some.inj hg
    have hfinds : finds s.gateway g = false := by rw [finds, hs]
    refine filed_busy h hproceeds (by rw [← hg']; exact nofun) ?_ (by simp [hfinds])
    have hhandler : g.handler = .inserting e := by rw [← hg']
    have hids : (s.file g).gateway.sessionIds = s.gateway.sessionIds := by
      show g.sessionIds = _
      rw [← hg']
      rfl
    rw [hhandler]
    exact ⟨by rwa [stale_file hfinds], by rwa [hids]⟩

/-- It inserts the row. -/
theorem filed_inserting (h : Filed s) {e : SessionStore.SessionEvent}
    (hs : s.gateway.handler = .inserting e) (hg : SessionStore.handlerStep s.gateway .ok = some g) :
    Filed (s.file g) := by
  have hproceeds := proceeds_handlerStep hg
  have hfound := h.found
  rw [hs] at hfound
  obtain ⟨hnew, hmem⟩ := hfound
  rw [SessionStore.handlerStep, hs] at hg
  have hg' := Option.some.inj hg
  have hfinds : finds s.gateway g = false := by rw [finds, hs]
  rw [SessionStore.insertRow, if_neg hmem] at hg'
  refine filed_busy h hproceeds (by rw [← hg']; exact nofun) ?_ (by simp [hfinds])
  have hhandler : g.handler = .inserted e false := by rw [← hg']; rfl
  rw [hhandler]
  refine ⟨by rwa [stale_file hfinds], e.row, List.mem_append_right _ ?_⟩
  rw [← hg']
  show _ ∈ ((s.gateway.sessions ++ [e.row]).drop s.gateway.sessions.length).map _
  rw [List.drop_left]
  exact List.mem_singleton_self _

/-- It has inserted the row, or failed to, and is done. -/
theorem filed_inserted (h : Filed s) {e : SessionStore.SessionEvent} {raised : Bool}
    (hs : s.gateway.handler = .inserted e raised)
    (hg : SessionStore.handlerStep s.gateway .ok = some g) : Filed (s.file g) := by
  have hproceeds := proceeds_handlerStep hg
  have hfound := h.found
  rw [hs] at hfound
  have hends : g.handler = .idle ∧ g.sessionIds = s.gateway.sessionIds := by
    rw [SessionStore.handlerStep, hs] at hg
    cases raised <;> obtain rfl := Option.some.inj hg <;> exact ⟨rfl, rfl⟩
  exact filed_idle h hproceeds (by rw [hs]; exact nofun) hends.1 hends.2 fun _ _ _ _ ↦
    iff_of_true hfound.2 hfound.1

/-- The handler of a stop has updated the row, or failed to; no start is at stake. -/
theorem filed_updated (h : Filed s) {raised : Bool} (hs : s.gateway.handler = .updated raised)
    (hg : SessionStore.handlerStep s.gateway .ok = some g) : Filed (s.file g) := by
  have hproceeds := proceeds_handlerStep hg
  have hends : g.handler = .idle ∧ g.sessionIds = s.gateway.sessionIds := by
    rw [SessionStore.handlerStep, hs] at hg
    cases raised <;> obtain rfl := Option.some.inj hg <;> exact ⟨rfl, rfl⟩
  refine filed_idle h hproceeds (by rw [hs]; exact nofun) hends.1 hends.2
    fun id startedAt label hhandles ↦ ?_
  rw [hs] at hhandles
  obtain ⟨id', stoppedAt, hstopped⟩ := hhandles
  contradiction

/-- The handler takes a step, and its call succeeds. -/
theorem filed_handler (h : Filed s) (hg : SessionStore.handlerStep s.gateway .ok = some g) :
    Filed (s.file g) := by
  cases hs : s.gateway.handler with
  | idle =>
    rw [SessionStore.handlerStep, hs] at hg
    contradiction
  | selecting e => exact filed_selecting h hs hg
  | selected e found => exact filed_selected h hs hg
  | inserting e => exact filed_inserting h hs hg
  | inserted e raised => exact filed_inserted h hs hg
  | updating e =>
    have hproceeds := proceeds_handlerStep hg
    have hfinds : finds s.gateway g = false := by rw [finds, hs]
    rw [SessionStore.handlerStep, hs] at hg
    have hg' := Option.some.inj hg
    refine filed_busy h hproceeds (by rw [← hg']; exact nofun) ?_ (by simp [hfinds])
    rw [← hg']
    trivial
  | updated raised => exact filed_updated h hs hg

/-- audio-producer announces, an event is delivered, the handler goes on, or the rest of the gateway
does something aside. -/
theorem filed_step (h : Filed s) {a : Action} (hsucceeds : succeeds s a = true)
    (ht : step below count days s a = some t) : Filed t := by
  rcases step_cases ht with ⟨a', p, -, hp, rfl⟩ | ⟨e, he, hidle, rfl⟩ | ⟨a', g, rfl, hother, hg,
    rfl⟩
  · exact filed_relay h hp
  · exact filed_deliver h he hidle
  · cases a' with
    | event e => exact absurd rfl (hother e)
    | handler r =>
      obtain rfl : r = .ok := of_decide_eq_true hsucceeds
      exact filed_handler h hg
    | restart committed =>
      rw [succeeds] at hsucceeds
      split at hsucceeds
      · rename_i hidle
        obtain ⟨hhandler, hsessions⟩ := restarted hg
        refine filed_aside h ⟨hhandler.trans hidle.symm, ?_⟩
        rw [SessionStore.State.sessionIds, hsessions]
        exact List.Sublist.refl _
      · contradiction
    | _ => exact filed_aside h (aside_step rfl hg)

/-- In every run in which the database calls succeed. -/
theorem filed_of_reachable
    (hs : (system below count days).Reachable (fun s a ↦ succeeds s a = true) s) : Filed s := by
  have hinductive : (system below count days).Inductive (fun s a ↦ succeeds s a = true) Filed := by
    refine ⟨fun s hs ↦ ?_, fun h hsucceeds ht ↦ filed_step h hsucceeds ht⟩
    obtain rfl : s = {} := hs
    exact ⟨(relayed_inductive below count days (G := always)).init _ rfl, le_rfl, trivial, nofun,
      nofun⟩
  exact hinductive.reachable hs

end Filed

/-- The row that was created for the `k`-th event has the parameters of the command. -/
def HasParameters (s : State) (k : ℕ) (id : SessionId) (data : Dict) : Prop :=
  ∃ row, (k, row) ∈ s.created ∧ row.id = id.val ∧ row.label = labelOf data ∧
    (row.scheduled = 1 ↔ Carries data)

/-- A row that is created has the label of the command, and says that the session was not
scheduled. -/
theorem Relayed.row {s : State} (h : Relayed s) {k : ℕ} {id : SessionId} {data : Dict}
    (hstart : StartsAt s k id data) {row : SessionModel} (hrow : (k, row) ∈ s.created) :
    row.id = id.val ∧ row.label = labelOf data ∧ row.scheduled = 0 := by
  obtain ⟨hdata, startedAt, label, he⟩ := hstart
  obtain ⟨-, id', startedAt', label', he', hrow'⟩ := h.created _ hrow
  obtain ⟨rfl, rfl, rfl⟩ := Lifecycle.started.inj (Option.some.inj (he.symm.trans he'))
  obtain rfl : row = _ := hrow'
  exact ⟨rfl, h.announces _ _ _ he hdata, rfl⟩

/-- **What becomes of the parameters of a start command.** In every run in which no call of the
handler fails, the session that is announced has its row, with the label of its command and whether
it was scheduled, exactly if the command does not carry `scheduled` and no row is found stored under
the id of the session. If one is found, a session was announced before under that id. -/
theorem start_parameters_iff {below : Bytes → Bool} {count days : ℤ} {s : State}
    (hs : (system below count days).Reachable (fun s a ↦ succeeds s a = true) s) {k : ℕ}
    {id : SessionId} {data : Dict} (hstart : StartsAt s k id data) (hk : k < s.handled) :
    (HasParameters s k id data ↔ ¬ Carries data ∧ k ∉ s.stale) ∧
      (k ∈ s.stale → ∃ j < k, ∃ data', StartsAt s j id data') := by
  have h := filed_of_reachable hs
  obtain ⟨hdata, startedAt, label, he⟩ := hstart
  have hmade := h.made k id startedAt label he hk
  refine ⟨⟨?_, ?_⟩, fun hstale ↦ ?_⟩
  · rintro ⟨row, hrow, -, -, hscheduled⟩
    obtain ⟨-, -, hzero⟩ := h.relayed.row ⟨hdata, startedAt, label, he⟩ hrow
    refine ⟨fun hcarries ↦ ?_, hmade.1 ⟨row, hrow⟩⟩
    exact Nat.zero_ne_one (hzero.symm.trans (hscheduled.2 hcarries))
  · rintro ⟨hcarries, hnew⟩
    obtain ⟨row, hrow⟩ := hmade.2 hnew
    obtain ⟨hid, hlabel, hzero⟩ := h.relayed.row ⟨hdata, startedAt, label, he⟩ hrow
    refine ⟨row, hrow, hid, hlabel, fun hone ↦ ?_, fun h ↦ absurd h hcarries⟩
    exact absurd (hzero.symm.trans hone) Nat.zero_ne_one
  · obtain ⟨-, j, hj, id', startedAt', label', startedAt'', label'', hej, hek⟩ := h.stale k hstale
    obtain ⟨rfl, -, -⟩ := Lifecycle.started.inj (Option.some.inj (he.symm.trans hek))
    obtain ⟨hlt, -⟩ := List.getElem?_eq_some_iff.1 hej
    exact ⟨j, hj, _, List.getElem?_eq_getElem (h.relayed.length ▸ hlt), startedAt', label', hej⟩

/-! ### A scheduled start -/

/-- The command of a schedule whose label is Sunday. -/
def sunday : Dict :=
  [("command", .str "start"), ("label", .str "Sunday"), ("scheduled", .bool true)]

/-- The row of its session. -/
def sundayRow : SessionModel where
  id := AudioProducer.first.id
  label := .str "Sunday"
  startedAt := AudioProducer.first.iso

/-- audio-producer executes a command, and api-gateway adds the row. -/
def filing (data : Dict) : List Action :=
  [.producer (.boot true true false), .producer (.subscribed true),
    .producer (.message (some (.obj data)) AudioProducer.first .ok), .producer (.ctrl .ok),
    .producer (.ctrl .ok), .deliver, .gateway (.handler .ok), .gateway (.handler .ok),
    .gateway (.handler .ok), .gateway (.handler .ok)]

/-- The row of the session it starts says that the session was not scheduled. -/
theorem scheduled_lost :
    ∃ s, (system (fun _ ↦ false) 30 0).Reachable (fun s a ↦ succeeds s a = true) s ∧
      s.handled = 1 ∧ StartsAt s 0 AudioProducer.first.id sunday ∧ Carries sunday ∧
      ∃ row, s.created = [(0, row)] ∧ row.id = AudioProducer.first.id.val ∧
        ¬ (row.label = labelOf sunday ∧ (row.scheduled = 1 ↔ Carries sunday)) := by
  have hexec : ((system (fun _ ↦ false) 30 0).exec (fun s a ↦ succeeds s a = true) {}
      (filing sunday)).map (fun s ↦ (s.handled, s.origins, s.producer.broker.events, s.created)) =
      some (1, [sunday], [Lifecycle.started AudioProducer.first.id AudioProducer.first.iso
        (.str "Sunday")], [(0, sundayRow)]) := rfl
  obtain ⟨s, hs, heq⟩ := Option.map_eq_some_iff.1 hexec
  obtain ⟨hhandled, heq⟩ := Prod.mk.inj heq
  obtain ⟨horigins, heq⟩ := Prod.mk.inj heq
  obtain ⟨hevents, hcreated⟩ := Prod.mk.inj heq
  refine ⟨s, (Reachable.of_init rfl).run (run_of_exec hs), hhandled,
    ⟨by rw [horigins]; rfl, _, _, by rw [hevents]; rfl⟩, rfl, _, hcreated, rfl, ?_⟩
  rintro ⟨-, hscheduled⟩
  exact Nat.zero_ne_one (hscheduled.2 rfl)

/-- The command of an attendee. -/
def amen : Dict := [("command", .str "start"), ("label", .str "Amen")]

/-- Its row has its parameters. -/
theorem start_parameters_iff_amen :
    ∃ s, (system (fun _ ↦ false) 30 0).Reachable (fun s a ↦ succeeds s a = true) s ∧
      StartsAt s 0 AudioProducer.first.id amen ∧ HasParameters s 0 AudioProducer.first.id amen := by
  have hexec : ((system (fun _ ↦ false) 30 0).exec (fun s a ↦ succeeds s a = true) {}
      (filing amen)).map (fun s ↦ (s.handled, s.origins, s.producer.broker.events, s.stale)) =
      some (1, [amen], [Lifecycle.started AudioProducer.first.id AudioProducer.first.iso
        (.str "Amen")], []) := rfl
  obtain ⟨s, hs, heq⟩ := Option.map_eq_some_iff.1 hexec
  obtain ⟨hhandled, heq⟩ := Prod.mk.inj heq
  obtain ⟨horigins, heq⟩ := Prod.mk.inj heq
  obtain ⟨hevents, hstale⟩ := Prod.mk.inj heq
  have hreach := (Reachable.of_init (G := fun s a ↦ succeeds s a = true) rfl).run (run_of_exec hs)
  have hstart : StartsAt s 0 AudioProducer.first.id amen :=
    ⟨by rw [horigins]; rfl, _, _, by rw [hevents]; rfl⟩
  have hcarries : ¬ Carries amen := by
    intro h
    nomatch h
  refine ⟨s, hreach, hstart, (start_parameters_iff hreach hstart (by omega)).1.2 ⟨hcarries, ?_⟩⟩
  rw [hstale]
  exact List.not_mem_nil

/-- The command of another attendee, for the session after the first. -/
def grace : Dict := [("command", .str "start"), ("label", .str "Grace")]

/-- The session is stopped, api-gateway closes its row, and another one is started in the same
second: its id is that of the first, and api-gateway skips its row. -/
def refiling (data : Dict) : List Action :=
  [.producer (.ctrl .ok), .producer (.ctrl .ok),
    .producer (.message (some (.obj [("command", .str "stop")])) AudioProducer.first .ok),
    .producer (.ctrl .ok), .producer (.ctrl .ok), .producer (.ctrl .ok), .producer (.ctrl .ok),
    .deliver, .gateway (.handler .ok), .gateway (.handler .ok),
    .producer (.message (some (.obj data)) AudioProducer.first .ok), .producer (.ctrl .ok),
    .producer (.ctrl .ok), .deliver, .gateway (.handler .ok), .gateway (.handler .ok)]

/-- The label of the second command is lost, although the session was not scheduled. -/
theorem label_lost :
    ∃ s, (system (fun _ ↦ false) 30 0).Reachable (fun s a ↦ succeeds s a = true) s ∧
      s.handled = 3 ∧ StartsAt s 2 AudioProducer.first.id grace ∧ ¬ Carries grace ∧ 2 ∈ s.stale ∧
      ¬ HasParameters s 2 AudioProducer.first.id grace := by
  have hexec : ((system (fun _ ↦ false) 30 0).exec (fun s a ↦ succeeds s a = true) {}
      (filing amen ++ refiling grace)).map (fun s ↦
        (s.handled, s.origins[2]?, s.producer.broker.events[2]?, s.stale, s.created.map Prod.fst)) =
      some (3, some grace, some (Lifecycle.started AudioProducer.first.id AudioProducer.first.iso
        (.str "Grace")), [2], [0]) := rfl
  obtain ⟨s, hs, heq⟩ := Option.map_eq_some_iff.1 hexec
  obtain ⟨hhandled, heq⟩ := Prod.mk.inj heq
  obtain ⟨horigin, heq⟩ := Prod.mk.inj heq
  obtain ⟨hevent, heq⟩ := Prod.mk.inj heq
  obtain ⟨hstale, hcreated⟩ := Prod.mk.inj heq
  refine ⟨s, (Reachable.of_init rfl).run (run_of_exec hs), hhandled, ⟨horigin, _, _, hevent⟩, ?_,
    by rw [hstale]; exact List.mem_singleton_self 2, ?_⟩
  · intro h
    nomatch h
  · rintro ⟨row, hrow, -⟩
    have hmem : 2 ∈ s.created.map Prod.fst := List.mem_map_of_mem hrow
    rw [hcreated] at hmem
    exact absurd (List.mem_singleton.1 hmem) (by decide)

end LiveSTT.StartParameters
