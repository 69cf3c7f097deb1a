import LiveSTT.Composition.SessionCopies
import LiveSTT.Composition.Startup

/-!
# The recording indicator of the kiosk page

`display.html` asks for `/session/status` when its connection opens, and then follows the broadcasts
of the lifecycle events. So the indicator is one more copy of the session state, fed from two sides:
the answer is read from the KV entry, the broadcasts follow the events, and nothing orders the one
among the others.

When everything has arrived, the indicator is on exactly while a session is active, and names it
(`display_iff`), provided that no broadcast overtakes an answer. If a session begins between the
answer and its arrival, the page shows "idle" over a running session for as long as that lasts
(`stale_display`).

An answer is worth something only if the gateway can read the entry for it. `lifespan` sets
`app.state.session_kv` to `None` where it begins to serve, and `_kv_connect` assigns it, now before
and now after that (`Startup`). Where the reset is the later of the two, and until `_kv_connect` has
its buckets, the answer is "idle" whatever the entry holds; so a gateway that is started over a
running session may show it as idle.

The gateway and audio-producer are those of the three copies. A connection of the page is registered
when the accept returns; a broadcast is on its way when it is sent, and lost with the connection.
`caught` is that the page has heard something since it was registered, which no code keeps.
-/

namespace LiveSTT.Kiosk

open AudioProducer (Lifecycle KvEntry Synced afterEvent)
open SessionBar (truthy spread)
open TransitionSystem

/-! ### The page -/

/-- The text of `rec-elapsed`. -/
inductive Elapsed
  | blank
  | starting
  /-- The time since then, updated every second. -/
  | since (startedAt : Json)

structure Page where
  opened : Bool := false
  lastSessionPayload : Dict := []
  /-- `recIndicator.style.display` is `flex`. -/
  display : Bool := false
  elapsed : Elapsed := .blank
  firstTranscriptFired : Bool := false

/-- `applySessionStatus` of `display.html`. -/
def applySessionStatus (page : Page) (payload : Dict) : Page :=
  let state :=
    if truthy (Dict.get payload "state") then Dict.getOr payload "state" .null else .str "idle"
  let merged := spread page.lastSessionPayload payload
  if state.isStr "starting" then
    { page with lastSessionPayload := merged, display := true, elapsed := .starting }
  else if state.isStr "active" then
    { page with
      lastSessionPayload := merged
      display := true
      elapsed :=
        if truthy (Dict.get merged "started_at") then .since (Dict.getOr merged "started_at" .null)
        else page.elapsed }
  else { page with lastSessionPayload := [], display := false, elapsed := .blank }

/-- What `_on_session_event` broadcasts. -/
def notice : Lifecycle → Dict
  | .started id startedAt label =>
    SessionBar.startingPayload (StartParameters.payload (.started id startedAt label))
  | .stopped _ _ => [("state", .str "idle"), ("silence_timeout_s", .num 300)]

/-- A message to the page, as far as the indicator depends on it. -/
inductive Message
  | sessionStatus (e : Lifecycle)
  /-- A final transcript. -/
  | transcript

def Message.event : Message → Option Lifecycle
  | .sessionStatus e => some e
  | .transcript => none

/-- `onFirstTranscript` -/
def onFirstTranscript (page : Page) : Page :=
  match page.elapsed with
  | .starting => applySessionStatus page (spread page.lastSessionPayload [("state", .str "active")])
  | _ => page

/-- `onmessage`; both statuses that are broadcast reset `_firstTranscriptFired`. -/
def onmessage (page : Page) : Message → Page
  | .sessionStatus e => applySessionStatus { page with firstTranscriptFired := false } (notice e)
  | .transcript =>
    if page.firstTranscriptFired then page
    else onFirstTranscript { page with firstTranscriptFired := true }

/-! ### The system -/

structure State where
  copies : RenameRace.State := {}
  /-- `lifespan` is at its `yield`: requests are served. -/
  serving : Bool := false
  /-- `app.state.session_kv`. -/
  sessionKv : Startup.Handle := .unset
  page : Page := {}
  /-- The connection is among the active ones. -/
  registered : Bool := false
  inbox : List Message := []
  /-- The fetches of the page in flight, with their answers. -/
  fetches : List (Option Dict) := []
  caught : Bool := false

/-- `session_status`; `raised` is whether the read of the entry did. An attribute that is not set
raises, which is an answer 500. -/
def sessionStatus (s : State) (silenceTimeoutS : ℤ) (raised : Bool) : Option Dict :=
  match s.sessionKv with
  | .unset => none
  | .null => some [("state", .str "idle")]
  | .bucket =>
    some (SessionBar.buildStatusPayload
      (if raised then none else s.copies.current.map SessionBar.stateData) silenceTimeoutS)

inductive Action
  | copies (a : RenameRace.Action)
  /-- `lifespan` comes to its `yield`, and resets the handles before. -/
  | lifespan
  /-- A final transcript is broadcast. -/
  | transcript
  /-- The accept of the page's connection returns. -/
  | accept
  | onopen
  | receive
  | onclose
  /-- The gateway answers the `i`-th fetch. -/
  | answer (i : ℕ) (silenceTimeoutS : ℤ) (raised : Bool)
  /-- The answer arrives. -/
  | applied (i : ℕ)
  /-- The fetch fails. -/
  | unanswered (i : ℕ)

/-- What the gateway broadcasts in a step. -/
def broadcast (s : State) : RenameRace.Action → List Message
  | .sessionEvent true _ =>
    (s.copies.producer.broker.events[s.copies.gateway.seen]?.map Message.sessionStatus).toList
  | _ => []

def State.send (s : State) (ms : List Message) : State :=
  if s.registered then { s with inbox := s.inbox ++ ms } else s

/-- It is a request to the gateway. -/
def isRequest : RenameRace.Action → Bool
  | .rename _ _ | .start _ _ => true
  | _ => false

/-- `app.state.session_kv` after a step: `_kv_connect` assigns it with its buckets, and a gateway
that is started again has none. -/
def handleAfter (s : State) : RenameRace.Action → Startup.Handle
  | .connect _ =>
    match s.copies.gateway.connection with
    | .waiting => .bucket
    | .recovering _ | .connected => s.sessionKv
  | .restart => .unset
  | _ => s.sessionKv

/-- Requests are served after a step, until the gateway is started again. -/
def servingAfter (s : State) : RenameRace.Action → Bool
  | .restart => false
  | _ => s.serving

def step (below : Bytes → Bool) (s : State) : Action → Option State
  | .copies a =>
    if isRequest a ∧ s.serving = false then none
    else (RenameRace.step below s.copies a).map fun copies ↦
      { s.send (broadcast s a) with
        copies := copies
        sessionKv := handleAfter s a
        serving := servingAfter s a }
  | .lifespan =>
    if s.serving then none else some { s with serving := true, sessionKv := .null }
  | .transcript => some (s.send [.transcript])
  | .accept =>
    if s.registered ∨ s.serving = false then none
    else some { s with registered := true, inbox := [], caught := false }
  | .onopen =>
    if s.page.opened then none
    else some { s with page := { s.page with opened := true }, fetches := s.fetches ++ [none] }
  | .receive =>
    match s.inbox with
    | m :: inbox =>
      if s.page.opened then some { s with
        page := onmessage s.page m
        inbox := inbox
        caught := s.caught || m.event.isSome }
      else none
    | [] => none
  | .onclose => some { s with
      page := { s.page with opened := false }
      registered := false
      inbox := []
      caught := false }
  | .answer i silenceTimeoutS raised =>
    match s.fetches[i]? with
    | some none =>
      if s.serving then (sessionStatus s silenceTimeoutS raised).map fun payload ↦
        { s with fetches := s.fetches.set i (some payload) }
      else none
    | _ => none
  | .applied i => (s.fetches[i]?.join).map fun payload ↦ { s with
      page := applySessionStatus s.page payload
      fetches := s.fetches.eraseIdx i
      caught := true }
  | .unanswered i => some { s with fetches := s.fetches.eraseIdx i }

def system (below : Bytes → Bool) : TransitionSystem State Action where
  init s := s = {}
  step := step below

/-- The event is one of a session. -/
def names : Lifecycle → Bool
  | .stopped none _ => false
  | _ => true

/-- `_kv_connect` has its buckets. -/
def isSet : SessionAdmin.Connection → Bool
  | .waiting => false
  | .recovering _ | .connected => true

/-- No answer is on its way to the page. -/
def State.answered (s : State) : Bool := s.fetches.any Option.isSome

/-- The copies keep their conditions, and the events are those of sessions. `lifespan` resets the
handles before `_kv_connect` has its buckets. An answer is given to a registered page, once the
handle is there, from what its read returns; and it arrives before the next message, and before the
connection is lost. -/
def inTime (below : Bytes → Bool) (s : State) : Action → Bool
  | .copies a => SessionCopies.succeeds below s.copies a && SessionCopies.apart below s.copies a &&
    (broadcast s a).all fun m ↦ m.event.all names
  | .lifespan => !isSet s.copies.gateway.connection
  | .answer _ _ raised => s.registered && s.sessionKv = .bucket && !raised
  | .receive | .onclose => !s.answered
  | _ => true

/-! ### What the page shows -/

/-- The page shows the session with that id, or none. -/
structure Shows (page : Page) (x : Option String) : Prop where
  display : page.display = x.isSome
  id : ∀ id, x = some id → Dict.get page.lastSessionPayload "session_id" = some (.str id)
  /-- Where nothing is shown, nothing starts. -/
  elapsed : page.display = false → page.elapsed = .blank

/-- A status payload tells of the session with that id, or of none. -/
inductive Tells (payload : Dict) : Option String → Prop
  | idle (hstate : Dict.get payload "state" = some (.str "idle")) : Tells payload none
  | starting {id : String} (hstate : Dict.get payload "state" = some (.str "starting"))
      (hid : Dict.get payload "session_id" = some (.str id)) : Tells payload (some id)
  | active {id : String} (hstate : Dict.get payload "state" = some (.str "active"))
      (hid : Dict.get payload "session_id" = some (.str id)) : Tells payload (some id)

section Page

variable {page : Page} {payload : Dict} {x : Option String} {id : String}

theorem get_spread {a : Dict} {k : String} {v : Json} (h : Dict.get payload k = some v) :
    Dict.get (spread a payload) k = some v := by
  rw [Dict.get, Option.map_eq_some_iff] at h
  obtain ⟨b, hb, rfl⟩ := h
  rw [Dict.get, spread, List.find?_append, hb]
  rfl

/-- A page that applies a payload shows what the payload tells, whatever it has shown before. -/
theorem Tells.shows (h : Tells payload x) : Shows (applySessionStatus page payload) x := by
  cases h with
  | idle hstate =>
    have happly : applySessionStatus page payload =
        { page with lastSessionPayload := [], display := false, elapsed := .blank } := by
      simp [applySessionStatus, Dict.getOr, hstate, truthy, Json.isStr]
    rw [happly]
    exact ⟨rfl, fun id hid ↦ absurd hid.symm (Option.some_ne_none id), fun _ ↦ rfl⟩
  | @starting id hstate hid =>
    have happly : applySessionStatus page payload = { page with
        lastSessionPayload := spread page.lastSessionPayload payload
        display := true
        elapsed := .starting } := by
      simp [applySessionStatus, Dict.getOr, hstate, truthy, Json.isStr]
    rw [happly]
    refine ⟨rfl, fun id' hid' ↦ ?_, fun hoff ↦ absurd hoff.symm Bool.false_ne_true⟩
    obtain rfl := Option.some.inj hid'
    exact get_spread hid
  | @active id hstate hid =>
    have hdisplay : (applySessionStatus page payload).display = true := by
      simp [applySessionStatus, Dict.getOr, hstate, truthy, Json.isStr]
    have hlast : (applySessionStatus page payload).lastSessionPayload =
        spread page.lastSessionPayload payload := by
      simp [applySessionStatus, Dict.getOr, hstate, truthy, Json.isStr]
    refine ⟨hdisplay, fun id' hid' ↦ ?_, fun hoff ↦ ?_⟩
    · obtain rfl := Option.some.inj hid'
      rw [hlast]
      exact get_spread hid
    · exact absurd (hdisplay.symm.trans hoff).symm Bool.false_ne_true

/-- The first transcript leaves the session as it is. -/
theorem Shows.onFirstTranscript (h : Shows page x) : Shows (onFirstTranscript page) x := by
  rw [Kiosk.onFirstTranscript]
  split
  · rename_i hstarting
    have hon : page.display = true := by
      refine Bool.of_not_eq_false fun hoff ↦ ?_
      rw [h.elapsed hoff] at hstarting
      exact Elapsed.noConfusion hstarting
    cases x with
    | none => exact absurd (hon.symm.trans h.display).symm Bool.false_ne_true
    | some id =>
      refine Tells.shows (.active ?_ ?_)
      · simp [spread, Dict.get_cons]
      · show Dict.get (spread page.lastSessionPayload [("state", .str "active")]) "session_id" = _
        rw [spread, List.singleton_append, Dict.get_cons, if_neg (by decide)]
        exact h.id id rfl
  · exact h

/-- A lifecycle event that names its session is passed on as a payload that tells what comes of
it. -/
theorem tells_notice {e : Lifecycle} (he : names e = true) (y : Option String) :
    Tells (notice e) (afterEvent y e) := by
  cases e with
  | started id startedAt label =>
    refine .starting ?_ ?_
    · simp [notice, SessionBar.startingPayload, Dict.get_cons]
    · simp [notice, SessionBar.startingPayload, StartParameters.payload, Dict.get_cons, Dict.getOr]
  | stopped id stoppedAt =>
    cases id with
    | none => exact absurd he Bool.false_ne_true
    | some id => exact .idle (by simp [notice, Dict.get_cons])

/-- The answer of `/session/status` tells of the session of the entry, or of none. -/
theorem tells_buildStatusPayload {entry : Option KvEntry} {n : ℤ}
    (hactive : ∀ e, entry = some e → e.state = "active") :
    Tells (SessionBar.buildStatusPayload (entry.map SessionBar.stateData) n)
      (entry.map fun e ↦ e.sessionId.val) := by
  cases entry with
  | none => exact .idle (by simp [SessionBar.buildStatusPayload, Dict.get_cons, Dict.getOr])
  | some e =>
    have hstate := hactive e rfl
    refine .active ?_ ?_
    · simp [SessionBar.buildStatusPayload, SessionBar.stateData, Dict.get_cons, Dict.getOr, hstate]
    · simp [SessionBar.buildStatusPayload, SessionBar.stateData, Dict.get_cons, Dict.getOr, hstate,
        Json.isStr]

end Page

/-! ### The invariant -/

/-- What is still to come: the messages to the page, and the events that are not handled. -/
def State.pending (s : State) : List Lifecycle :=
  s.inbox.filterMap Message.event ++ s.copies.producer.broker.events.drop s.copies.gateway.seen

/-- A page that shows `x` agrees with audio-producer when all that is pending has come. -/
def State.Leads (s : State) (x : Option String) : Prop :=
  Synced (s.pending.foldl afterEvent x) s.copies.producer

structure Following (s : State) : Prop where
  coherent : RenameRace.Coherent s.copies
  copied : SessionCopies.Copied s.copies
  named : ∀ e ∈ s.inbox.filterMap Message.event, names e = true
  inbox : s.registered = false → s.inbox = []
  /-- If what is pending decides, it decides rightly. -/
  decided : s.registered = true →
    (∀ a b, s.pending.foldl afterEvent a = s.pending.foldl afterEvent b) → ∀ x, s.Leads x
  caught : s.caught = true → s.registered = true ∧ ∃ x, Shows s.page x ∧ s.Leads x
  answered : ∀ payload, some payload ∈ s.fetches →
    s.registered = true ∧ ∃ x, Tells payload x ∧ s.Leads x

section Steps

variable {below : Bytes → Bool} {s t : State} {copies : RenameRace.State}

/-- What a step of the gateway and audio-producer appends to the events, if it handles none. -/
structure Appends (s t : RenameRace.State) (E : List Lifecycle) : Prop where
  events : t.producer.broker.events = s.producer.broker.events ++ E
  seen : t.gateway.seen = s.gateway.seen
  synced : ∀ x, Synced x s.producer → Synced (E.foldl afterEvent x) t.producer

theorem appends_nil {gateway : SessionAdmin.State} {c : RenameRace.State}
    (hseen : gateway.seen = c.gateway.seen) : Appends c { c with gateway := gateway } [] :=
  ⟨(List.append_nil _).symm, hseen, fun _ h ↦ h⟩

/-- A step that handles no event appends to the events what audio-producer announces in it, and
leaves the gateway's count alone. -/
theorem exists_appends {a : RenameRace.Action} {c : RenameRace.State} (h : SessionCopies.Copied c)
    (hcoherent : RenameRace.Coherent c) (hsucceeds : SessionCopies.succeeds below c a = true)
    (hapart : SessionCopies.apart below c a = true)
    (ha : ∀ delivered raised, a ≠ .sessionEvent delivered raised)
    (ht : RenameRace.step below c a = some copies) : ∃ E, Appends c copies E := by
  cases a with
  | producer a =>
    obtain ⟨p, hp, rfl⟩ := Option.map_eq_some_iff.1 ht
    have hcalls := (Bool.and_eq_true_iff.1 hsucceeds).1
    have htimely := (Bool.and_eq_true_iff.1 hapart).2
    obtain ⟨E, hevents, -⟩ := AudioProducer.follows_step h.synced hcalls htimely hp
    refine ⟨E, hevents, rfl, fun x hx ↦ ?_⟩
    obtain ⟨E', hevents', hsynced⟩ := AudioProducer.follows_step hx hcalls htimely hp
    rw [hevents] at hevents'
    rwa [List.append_cancel_left hevents']
  | rename sessionId body =>
    obtain rfl := Option.some.inj ht
    exact ⟨[], appends_nil (SessionAdmin.serves_renameSession _ _ _).remembers.2⟩
  | start label r =>
    obtain rfl := Option.some.inj ht
    exact ⟨[], appends_nil (SessionAdmin.serves_sessionStart _ _ _ _).remembers.2⟩
  | resume i db r =>
    obtain ⟨q, hq, rfl⟩ := Option.map_eq_some_iff.1 ht
    refine ⟨[], (List.append_nil _).symm, ?_, fun x hx ↦ ?_⟩
    · exact (SessionAdmin.serves_resume _ _ _ _ _).remembers.2
    rcases SessionAdmin.entryAfter_eq hq r with hsame | ⟨e, he, label, hput⟩
    · rw [hsame]
      exact hx
    · rw [hput]
      obtain ⟨old, hold, hidentity⟩ := Option.map_eq_some_iff.1 (hcoherent.held e he)
      obtain ⟨hstate, hid⟩ := Prod.mk.inj hidentity
      refine hx.of_entry ?_ (hstate.symm.trans (hcoherent.active old hold))
      exact (congrArg (Option.map KvEntry.sessionId) hold).trans (congrArg some hid)
  | sessionEvent delivered raised => exact absurd rfl (ha delivered raised)
  | connect r =>
    obtain rfl := Option.some.inj ht
    refine ⟨[], appends_nil ?_⟩
    cases hconnection : c.gateway.connection with
    | waiting => simp [SessionAdmin.kvConnect, hconnection]
    | recovering entry => simp [SessionAdmin.kvConnect, hconnection]
    | connected => simp [SessionAdmin.kvConnect, hconnection]
  | restart => exact absurd hsucceeds Bool.false_ne_true

/-- The invariants of the two copies are kept beside the page. -/
theorem kept_copies {a : RenameRace.Action} (h : Following s)
    (hsucceeds : SessionCopies.succeeds below s.copies a = true)
    (hapart : SessionCopies.apart below s.copies a = true)
    (ht : RenameRace.step below s.copies a = some copies) :
    RenameRace.Coherent copies ∧ SessionCopies.Copied copies := by
  have hkept : RenameRace.kvSucceeds below s.copies a = true ∧
      RenameRace.noOverlap below s.copies a = true := by
    cases a with
    | producer a => exact ⟨(Bool.and_eq_true_iff.1 hsucceeds).2, (Bool.and_eq_true_iff.1 hapart).1⟩
    | _ => exact ⟨rfl, rfl⟩
  exact ⟨RenameRace.coherent_step h.coherent hkept.1 hkept.2 ht,
    SessionCopies.copied_step h.copied h.coherent hsucceeds hapart ht⟩

/-- Events are published. -/
theorem Following.appends (h : Following s) {E : List Lifecycle} (hE : Appends s.copies copies E)
    (hkept : RenameRace.Coherent copies ∧ SessionCopies.Copied copies) :
    Following { s with copies := copies } := by
  have hpending : State.pending { s with copies := copies } = s.pending ++ E := by
    rw [State.pending, hE.seen, hE.events, List.drop_append_of_le_length h.copied.seen,
      ← List.append_assoc]
    rfl
  have hleads {x : Option String} (hx : s.Leads x) : State.Leads { s with copies := copies } x := by
    rw [State.Leads, hpending, List.foldl_append]
    exact hE.synced _ hx
  refine ⟨hkept.1, hkept.2, h.named, h.inbox, fun hregistered hdecides x ↦ ?_, fun hcaught ↦ ?_,
    fun payload hpayload ↦ ?_⟩
  · rcases SessionCopies.foldl_afterEvent s.pending with hconst | hid
    · exact hleads (h.decided hregistered hconst x)
    · -- the new events decide alone, as they do for the gateway
      have hnew (a : Option String) :
        (s.pending ++ E).foldl afterEvent a = E.foldl afterEvent a := by
        rw [List.foldl_append, hid]
      rw [hpending] at hdecides
      rw [State.Leads, hpending, hdecides x (SessionCopies.expected s.copies), hnew]
      exact hE.synced _ h.copied.synced
  · obtain ⟨hregistered, x, hshows, hx⟩ := h.caught hcaught
    exact ⟨hregistered, x, hshows, hleads hx⟩
  · obtain ⟨hregistered, x, htells, hx⟩ := h.answered payload hpayload
    exact ⟨hregistered, x, htells, hleads hx⟩

/-- A step after which the same is pending. -/
theorem Following.same (h : Following s)
    (hkept : RenameRace.Coherent t.copies ∧ SessionCopies.Copied t.copies)
    (hproducer : t.copies.producer = s.copies.producer) (hpending : t.pending = s.pending)
    (hnamed : ∀ e ∈ t.inbox.filterMap Message.event, names e = true)
    (hregistered : t.registered = s.registered) (hinbox : t.registered = false → t.inbox = [])
    (hcaught : t.caught = true → s.caught = true) (hpage : ∀ x, Shows s.page x → Shows t.page x)
    (hfetches : ∀ payload, some payload ∈ t.fetches → some payload ∈ s.fetches ∨
      s.registered = true ∧ ∃ x, Tells payload x ∧ s.Leads x) : Following t := by
  have hleads (x : Option String) : t.Leads x = s.Leads x := by
    rw [State.Leads, State.Leads, hpending, hproducer]
  refine ⟨hkept.1, hkept.2, hnamed, hinbox, fun hreg hdecides x ↦ ?_, fun hc ↦ ?_,
    fun payload hpayload ↦ ?_⟩
  · rw [hleads]
    exact h.decided (hregistered ▸ hreg) (hpending ▸ hdecides) x
  · obtain ⟨hreg, x, hshows, hx⟩ := h.caught (hcaught hc)
    exact ⟨hregistered.trans hreg, x, hpage x hshows, (hleads x).symm ▸ hx⟩
  · rw [hregistered]
    simp only [hleads]
    exact (hfetches payload hpayload).elim (h.answered payload) id

theorem Following.kept (h : Following s) :
    RenameRace.Coherent s.copies ∧ SessionCopies.Copied s.copies :=
  ⟨h.coherent, h.copied⟩

theorem send_nil : s.send [] = s := by
  rw [State.send]
  split
  · rw [List.append_nil]
  · rfl

/-- The database task of an event counts no event. -/
theorem seen_handleSessionDb (g : SessionAdmin.State) (e : Lifecycle) (raised : Bool) :
    (SessionAdmin.handleSessionDb g e raised).seen = g.seen := by
  cases e with
  | started id startedAt label =>
    cases raised with
    | false => rfl
    | true => rfl
  | stopped id stoppedAt =>
    cases id with
    | none => rfl
    | some id =>
      cases raised with
      | false => rfl
      | true => rfl

/-- An event is handled: it goes from those that are not to the messages, if the page is
registered. -/
theorem Following.handles (h : Following s) {e : Lifecycle} {raised : Bool}
    (he : s.copies.producer.broker.events[s.copies.gateway.seen]? = some e)
    (hnames : names e = true)
    (hcopies : copies = ⟨s.copies.producer, SessionAdmin.handleSessionDb
      { s.copies.gateway with seen := s.copies.gateway.seen + 1 } e raised⟩)
    (hkept : RenameRace.Coherent copies ∧ SessionCopies.Copied copies) :
    Following { s.send [.sessionStatus e] with copies := copies } := by
  have hseen : copies.gateway.seen = s.copies.gateway.seen + 1 := by
    rw [hcopies]
    exact seen_handleSessionDb _ e raised
  have hproducer : copies.producer = s.copies.producer := by rw [hcopies]
  obtain ⟨hlt, hget⟩ := List.getElem?_eq_some_iff.1 he
  cases hregistered : s.registered with
  | false =>
    have hsend : s.send [.sessionStatus e] = s := by
      rw [State.send, hregistered]
      rfl
    rw [hsend]
    refine ⟨hkept.1, hkept.2, h.named, h.inbox, fun hreg ↦ ?_, fun hcaught ↦ ?_,
      fun payload hpayload ↦ ?_⟩
    · exact absurd (hregistered.symm.trans hreg) Bool.false_ne_true
    · exact absurd (hregistered.symm.trans (h.caught hcaught).1) Bool.false_ne_true
    · exact absurd (hregistered.symm.trans (h.answered payload hpayload).1) Bool.false_ne_true
  | true =>
    have hsend : s.send [.sessionStatus e] = { s with inbox := s.inbox ++ [.sessionStatus e] } := by
      rw [State.send, hregistered]
      rfl
    rw [hsend]
    have hpending : State.pending
      { s with inbox := s.inbox ++ [.sessionStatus e], copies := copies } =
        s.pending := by
      rw [State.pending, State.pending, hseen, hproducer, List.filterMap_append,
        List.drop_eq_getElem_cons hlt, hget, List.append_assoc]
      rfl
    refine h.same hkept hproducer hpending (fun e' he' ↦ ?_) rfl (fun hreg ↦ ?_) id (fun _ ↦
      id) fun _ ↦ Or.inl
    · rw [List.filterMap_append] at he'
      rcases List.mem_append.1 he' with he' | he'
      · exact h.named e' he'
      · obtain rfl := List.mem_singleton.1 he'
        exact hnames
    · exact absurd (hregistered.symm.trans hreg) Bool.noConfusion

/-- The handle, and whether requests are served, do not matter to it. -/
theorem Following.handle (h : Following s) (sessionKv : Startup.Handle) (serving : Bool) :
    Following { s with sessionKv := sessionKv, serving := serving } :=
  ⟨h.coherent, h.copied, h.named, h.inbox, h.decided, h.caught, h.answered⟩

/-- A step of the copies: the events it appends are pending for the page, the one it handles goes on
the wire. -/
theorem Following.copies_step {a : RenameRace.Action} (h : Following s)
    (htime : inTime below s (.copies a) = true) (ht : step below s (.copies a) = some t) :
    Following t := by
  obtain ⟨hboth, hnames⟩ := Bool.and_eq_true_iff.1 htime
  obtain ⟨hsucceeds, hapart⟩ := Bool.and_eq_true_iff.1 hboth
  obtain ⟨-, ht⟩ := Option.ite_none_left_eq_some.1 ht
  obtain ⟨copies, hcopies, rfl⟩ := Option.map_eq_some_iff.1 ht
  have hkept := kept_copies h hsucceeds hapart hcopies
  by_cases ha : ∃ delivered raised, a = .sessionEvent delivered raised
  · obtain ⟨delivered, raised, rfl⟩ := ha
    obtain rfl : delivered = true := (Bool.and_eq_true_iff.1 hsucceeds).1
    obtain ⟨e, he, hhandled⟩ := Option.map_eq_some_iff.1 hcopies
    have hbroadcast : broadcast s (.sessionEvent true raised) = [.sessionStatus e] := by
      rw [broadcast, he]
      rfl
    rw [hbroadcast] at hnames ⊢
    have hname : names e = true := by simpa [Message.event] using hnames
    exact (h.handles he hname hhandled.symm hkept).handle _ _
  · have hnot : ∀ delivered raised, a ≠ .sessionEvent delivered raised := fun delivered raised heq ↦
      ha ⟨delivered, raised, heq⟩
    have hbroadcast : broadcast s a = [] := by
      cases a with
      | sessionEvent delivered raised => exact absurd rfl (hnot delivered raised)
      | _ => rfl
    obtain ⟨E, hE⟩ := exists_appends h.copied h.coherent hsucceeds hapart hnot hcopies
    rw [hbroadcast, send_nil]
    exact (h.appends hE hkept).handle _ _

theorem not_mem_of_not_answered {payload : Dict} (h : (!s.answered) = true) :
    some payload ∉ s.fetches := by
  intro hmem
  have hany : s.answered = true := List.any_eq_true.2 ⟨_, hmem, rfl⟩
  rw [hany] at h
  exact Bool.false_ne_true h

/-- A message comes. -/
theorem Following.receive (h : Following s) {m : Message} {rest : List Message}
    (hinbox : s.inbox = m :: rest) (hanswered : (!s.answered) = true) : Following { s with
      page := onmessage s.page m
      inbox := rest
      caught := s.caught || m.event.isSome } := by
  have hregistered : s.registered = true := by
    refine Bool.of_not_eq_false fun hreg ↦ ?_
    rw [h.inbox hreg] at hinbox
    contradiction
  have hnot {P : Prop} {payload : Dict} (hpayload : some payload ∈ s.fetches) : P :=
    absurd hpayload (not_mem_of_not_answered hanswered)
  have hoff (hreg : s.registered = false) : rest = [] :=
    absurd (hregistered.symm.trans hreg) Bool.noConfusion
  cases m with
  | transcript =>
    have hevents : s.inbox.filterMap Message.event = rest.filterMap Message.event := by
      rw [hinbox]
      rfl
    refine h.same h.kept rfl ?_ (hevents ▸ h.named) rfl hoff (fun hc ↦ ?_) (fun x hx ↦ ?_) fun _ ↦
      hnot
    · rw [State.pending, State.pending, hevents]
    · exact (Bool.or_eq_true_iff.1 hc).resolve_right Bool.false_ne_true
    · rw [onmessage]
      split
      · exact hx
      · exact Shows.onFirstTranscript ⟨hx.display, hx.id, hx.elapsed⟩
  | sessionStatus e =>
    have hname : names e = true := h.named e (by rw [hinbox]; exact List.mem_cons_self)
    have hconst (a b : Option String) : afterEvent a e = afterEvent b e := by
      cases e with
      | started id startedAt label => rfl
      | stopped id stoppedAt =>
        cases id with
        | none => exact absurd hname Bool.false_ne_true
        | some id => rfl
    generalize hu : ({ s with
      page := onmessage s.page (.sessionStatus e)
      inbox := rest
      caught := s.caught || (Message.sessionStatus e).event.isSome } : State) = u
    have hpending : s.pending = e :: u.pending := by
      rw [← hu, State.pending, hinbox]
      rfl
    have hproducer : u.copies.producer = s.copies.producer := by rw [← hu]
    -- The message decides what it leads to.
    have hleads (x : Option String) : u.Leads (afterEvent x e) := by
      have hx : s.Leads x := by
        refine h.decided hregistered (fun a b ↦ ?_) x
        rw [hpending, List.foldl_cons, List.foldl_cons, hconst a b]
      rw [State.Leads, hpending, List.foldl_cons] at hx
      rw [State.Leads, hproducer]
      exact hx
    have hreg : u.registered = true := by rw [← hu]; exact hregistered
    refine ⟨?_, ?_, fun e' he' ↦ h.named e' ?_, fun hr ↦ ?_, fun _ hdecides x ↦ ?_,
      fun _ ↦ ⟨hreg, ?_⟩, ?_⟩
    · rw [← hu]
      exact h.coherent
    · rw [← hu]
      exact h.copied
    · rw [← hu] at he'
      rw [hinbox]
      exact List.mem_cons_of_mem e he'
    · exact absurd (hreg.symm.trans hr) Bool.noConfusion
    · rw [State.Leads, hdecides x (afterEvent x e)]
      exact hleads x
    · refine ⟨afterEvent none e, ?_, hleads none⟩
      rw [← hu]
      exact (tells_notice hname none).shows
    · rw [← hu]
      exact fun _ ↦ hnot

/-- A fetch is answered. -/
theorem Following.answer (h : Following s) {i : ℕ} {n : ℤ} (hregistered : s.registered = true)
    {payload : Dict} (hstatus : payload =
      SessionBar.buildStatusPayload (s.copies.current.map SessionBar.stateData) n) :
    Following { s with fetches := s.fetches.set i (some payload) } := by
  have hleads : s.Leads (s.copies.producer.entryId.map Subtype.val) := by
    rcases SessionCopies.foldl_afterEvent s.pending with hconst | hid
    · exact h.decided hregistered hconst _
    · rw [State.Leads, hid]
      exact h.copied.synced.of_resumed
  have hentry : s.copies.producer.entryId.map Subtype.val = s.copies.current.map fun e ↦
    e.sessionId.val :=
    Option.map_map _ _ _
  refine h.same h.kept rfl rfl h.named rfl h.inbox id (fun _ ↦ id) fun payload' hpayload ↦ ?_
  rcases List.mem_or_eq_of_mem_set hpayload with hmem | heq
  · exact Or.inl hmem
  · refine Or.inr ⟨hregistered, _, ?_, hleads⟩
    rw [Option.some.inj heq, hstatus, hentry]
    exact tells_buildStatusPayload h.copied.synced.current

/-- **One step.** -/
theorem Following.step {a : Action} (h : Following s) (htime : inTime below s a = true)
    (ht : step below s a = some t) : Following t := by
  cases a with
  | copies a => exact h.copies_step htime ht
  | lifespan =>
    obtain ⟨-, ht⟩ := Option.ite_none_left_eq_some.1 ht
    obtain rfl := Option.some.inj ht
    exact h.handle _ _
  | transcript =>
    obtain rfl := Option.some.inj ht
    rw [State.send]
    split
    · rename_i hregistered
      have hevents : (s.inbox ++ [Message.transcript]).filterMap Message.event =
          s.inbox.filterMap Message.event := by
        rw [List.filterMap_append]
        exact List.append_nil _
      refine h.same h.kept rfl ?_ (hevents ▸ h.named) rfl (fun hr ↦ ?_) id (fun _ ↦ id) fun _ ↦
        Or.inl
      · rw [State.pending, State.pending, hevents]
      · exact absurd (hregistered.symm.trans hr) Bool.noConfusion
    · exact h
  | accept =>
    obtain ⟨hregistered, ht⟩ := Option.ite_none_left_eq_some.1 ht
    obtain rfl := Option.some.inj ht
    refine ⟨h.coherent, h.copied, fun e he ↦ absurd he List.not_mem_nil, fun _ ↦ rfl,
      fun _ hdecides x ↦ ?_, fun hcaught ↦ absurd hcaught Bool.false_ne_true,
        fun payload hpayload ↦ ?_⟩
    · rw [State.Leads, hdecides x s.copies.gateway.activeSessionId]
      exact h.copied.synced
    · exact absurd (h.answered payload hpayload).1 fun hr ↦ hregistered (Or.inl hr)
  | onopen =>
    obtain ⟨-, ht⟩ := Option.ite_none_left_eq_some.1 ht
    obtain rfl := Option.some.inj ht
    refine h.same h.kept rfl rfl h.named rfl h.inbox id (fun x hx ↦
      ⟨hx.display, hx.id, hx.elapsed⟩) ?_
    intro payload hpayload
    refine Or.inl ((List.mem_append.1 hpayload).resolve_right fun hnone ↦ ?_)
    exact absurd (List.mem_singleton.1 hnone) (Option.some_ne_none payload)
  | receive =>
    rw [Kiosk.step.eq_def] at ht
    simp only at ht
    split at ht
    · rename_i m inbox hinbox
      obtain ⟨-, ht⟩ := Option.ite_none_right_eq_some.1 ht
      obtain rfl := Option.some.inj ht
      exact h.receive hinbox htime
    · contradiction
  | onclose =>
    obtain rfl := Option.some.inj ht
    refine ⟨h.coherent, h.copied, fun e he ↦ absurd he List.not_mem_nil, fun _ ↦ rfl,
      fun hr ↦ absurd hr Bool.false_ne_true, fun hc ↦ absurd hc Bool.false_ne_true, ?_⟩
    exact fun payload hpayload ↦ absurd hpayload (not_mem_of_not_answered htime)
  | answer i n raised =>
    obtain ⟨hboth, hraised⟩ := Bool.and_eq_true_iff.1 htime
    obtain ⟨hregistered, hset⟩ := Bool.and_eq_true_iff.1 hboth
    obtain rfl : raised = false := by simpa using hraised
    rw [Kiosk.step.eq_def] at ht
    simp only at ht
    split at ht
    · obtain ⟨-, ht⟩ := Option.ite_none_right_eq_some.1 ht
      obtain ⟨payload, hpayload, rfl⟩ := Option.map_eq_some_iff.1 ht
      rw [sessionStatus, of_decide_eq_true hset] at hpayload
      exact h.answer hregistered (Option.some.inj hpayload).symm
    · contradiction
  | applied i =>
    obtain ⟨payload, hpayload, rfl⟩ := Option.map_eq_some_iff.1 ht
    obtain ⟨hregistered, x, htells, hx⟩ :=
      h.answered payload (List.mem_of_getElem? (Option.join_eq_some_iff.1 hpayload))
    exact ⟨h.coherent, h.copied, h.named, h.inbox, h.decided,
      fun _ ↦ ⟨hregistered, x, htells.shows, hx⟩,
      fun payload' hmem ↦ h.answered payload' (List.mem_of_mem_eraseIdx hmem)⟩
  | unanswered i =>
    obtain rfl := Option.some.inj ht
    exact h.same h.kept rfl rfl h.named rfl h.inbox id (fun _ ↦ id) fun _ hmem ↦
      Or.inl (List.mem_of_mem_eraseIdx hmem)

/-- Every step keeps the page on its way, if the answers come in time. -/
theorem following_inductive (below : Bytes → Bool) :
    (system below).Inductive (fun s a ↦ inTime below s a = true) Following where
  init := by
    rintro s rfl
    refine ⟨(RenameRace.coherent_inductive below).init _ rfl,
      ⟨(AudioProducer.guarded_inductive below always).init _ rfl, le_refl _,
        AudioProducer.synced_init⟩,
      fun e he ↦ absurd he List.not_mem_nil, fun _ ↦ rfl, fun hr ↦ absurd hr Bool.false_ne_true,
      fun hc ↦ absurd hc Bool.false_ne_true,
        fun payload hpayload ↦ absurd hpayload List.not_mem_nil⟩
  step h hG ht := h.step hG ht

end Steps

/-- **The indicator is on while a session is active**, once everything has come, in every run in
time. -/
theorem display_iff {below : Bytes → Bool} {s : State}
    (hs : (system below).Reachable (fun s a ↦ inTime below s a = true) s)
    (hquiet : SessionCopies.Quiet s.copies) (hcaught : s.caught = true)
    (hinbox : s.inbox.filterMap Message.event = []) :
    (s.page.display = true ↔ s.copies.producer.mem.isActive = true) ∧
      ∀ id, s.copies.producer.mem.sessionId = some id →
        Dict.get s.page.lastSessionPayload "session_id" = some (.str id.val) := by
  have h := (following_inductive below).reachable hs
  obtain ⟨-, x, hshows, hx⟩ := h.caught hcaught
  have hpending : s.pending = [] := by
    rw [State.pending, hinbox, hquiet.handled, List.drop_length]
    rfl
  rw [State.Leads, hpending] at hx
  have hsession : x = s.copies.producer.mem.sessionId.map Subtype.val := by
    refine (hx.event hquiet.up (SessionCopies.starts_eq_nil hquiet.starts)).resolve_right ?_
    rintro ⟨-, pc, hpc, -⟩
    rw [hquiet.stops] at hpc
    exact List.not_mem_nil hpc
  refine ⟨?_, fun id hid ↦ hshows.id id.val ?_⟩
  · rw [hshows.display, hsession, h.copied.guarded.flag, Option.isSome_map]
  · rw [hsession, hid]
    rfl

/-! ### A session on the page -/

/-- The gateway serves requests, and has its buckets. -/
def connected : List Action := [.lifespan, .copies (.connect .ok), .copies (.connect .ok)]

/-- The page is connected, and has asked for the status. -/
def loaded : List Action := [.accept, .onopen]

/-- audio-producer boots and starts a session, and the gateway handles the event. -/
def sessionStarted : List Action :=
  (AudioProducer.running ++ AudioProducer.starting AudioProducer.first ++ AudioProducer.started).map
    (fun a ↦ .copies (.producer a)) ++ [.copies (.sessionEvent true false)]

/-- The page is answered before the session begins, and hears of it. -/
theorem display_iff_first : ∃ s,
    (system fun _ ↦ false).Reachable (fun s a ↦ inTime (fun _ ↦ false) s a = true) s ∧
    s.copies.producer.mem.sessionId = some AudioProducer.first.id ∧ s.page.display = true ∧
    Dict.get s.page.lastSessionPayload "session_id" = some (.str AudioProducer.first.id.val) := by
  obtain ⟨s, hs, htest⟩ := exists_reachable_of_exec (M := system fun _ ↦ false)
    (G := fun s a ↦ inTime (fun _ ↦ false) s a = true) {}
    (connected ++ loaded ++ [.answer 0 300 false, .applied 0] ++ sessionStarted ++ [.receive])
    (fun s ↦ decide (s.copies.producer.mem.sessionId = some AudioProducer.first.id ∧
      s.copies.producer.mem.isActive = true ∧ s.copies.producer.up = true ∧
      s.copies.producer.stops.isEmpty = true ∧ s.copies.producer.ctrl.isStarting = false ∧
      s.copies.gateway.seen = s.copies.producer.broker.events.length ∧ s.caught = true ∧
      s.inbox.isEmpty = true)) rfl (by decide +kernel)
  obtain ⟨hid, hactive, hup, hstops, hstarts, hseen, hcaught, hinbox⟩ := of_decide_eq_true htest
  have hquiet : SessionCopies.Quiet s.copies := ⟨hup, List.isEmpty_iff.1 hstops, hstarts, hseen⟩
  obtain ⟨hiff, hshown⟩ := display_iff hs hquiet hcaught (by rw [List.isEmpty_iff.1 hinbox]; rfl)
  exact ⟨s, hs, hid, hiff.2 hactive, hshown _ hid⟩

/-- The session begins between the answer and its arrival: with everything arrived, the indicator is
off over a running session. -/
theorem stale_display : ∃ s, (system fun _ ↦ false).Reachable always s ∧
    SessionCopies.Quiet s.copies ∧
    s.inbox = [] ∧ s.fetches = [] ∧ s.copies.producer.mem.isActive = true ∧
      s.page.display = false := by
  obtain ⟨s, hs, htest⟩ := exists_reachable_of_exec (M := system fun _ ↦ false) (G := always) {}
    (connected ++ loaded ++ [.answer 0 300 false] ++ sessionStarted ++ [.receive, .applied 0])
    (fun s ↦ decide (s.copies.producer.mem.isActive = true ∧ s.page.display = false ∧
      s.copies.producer.up = true ∧ s.copies.producer.stops.isEmpty = true ∧
      s.copies.producer.ctrl.isStarting = false ∧
      s.copies.gateway.seen = s.copies.producer.broker.events.length ∧ s.inbox.isEmpty = true ∧
      s.fetches.isEmpty = true)) rfl (by decide +kernel)
  obtain ⟨hactive, hdisplay, hup, hstops, hstarts, hseen, hinbox, hfetches⟩ :=
    of_decide_eq_true htest
  exact ⟨s, hs, ⟨hup, List.isEmpty_iff.1 hstops, hstarts, hseen⟩, List.isEmpty_iff.1 hinbox,
    List.isEmpty_iff.1 hfetches, hactive, hdisplay⟩

end LiveSTT.Kiosk
