import LiveSTT.AudioProducer.Announced
import LiveSTT.AudioProducer.OneSession
import LiveSTT.Composition.RenameRace

/-!
# The three copies of the session state

Which session is active is known three times: in the memory of audio-producer, in the KV entry
`current`, and in `_active_session_id` of api-gateway, which follows the lifecycle events. When no
call fails, the copies agree whenever nothing is in progress, as long as the audio loop's stop and a
start keep out of each other's way (`copies_agree`). A start that runs between the delete and the
event of an unfinished stop is undone in api-gateway by that event (`copies_disagree`).

Three invariants meet here, and none is proved again: memory and events agree (`Synced`), the entry
agrees with memory in spite of the renames (`Coherent`), and api-gateway has handled a prefix of the
events. "Nothing is in progress" is a condition on the state: no stop and no start is between two of
its calls, and all events have been handled (`Quiet`).
-/

namespace LiveSTT.SessionCopies

open AudioProducer (KvEntry SessionId Synced Guarded)
open RenameRace (State Action system step)

/-- What api-gateway will remember when it has handled the events that are there. -/
def expected (s : State) : Option String :=
  (s.producer.broker.events.drop s.gateway.seen).foldl AudioProducer.afterEvent
    s.gateway.activeSessionId

/-- audio-producer is running, no start or stop is in progress, and every event is handled. -/
structure Quiet (s : State) : Prop where
  up : s.producer.up = true
  stops : s.producer.stops = []
  starts : s.producer.ctrl.isStarting = false
  handled : s.gateway.seen = s.producer.broker.events.length

/-- The three copies name one session, or none. -/
structure Agree (s : State) : Prop where
  flag : s.producer.mem.isActive = s.producer.mem.sessionId.isSome
  entry : s.producer.entryId = s.producer.mem.sessionId
  gateway : s.gateway.activeSessionId = s.producer.mem.sessionId.map Subtype.val

/-! ### The runs -/

/-- Every operation succeeds: the calls of audio-producer, the delivery of the events, and what
api-gateway does with them. -/
def succeeds (below : Bytes → Bool) (s : State) : Action → Bool
  | .producer a => a.callsSucceed && RenameRace.kvSucceeds below s (.producer a)
  | .sessionEvent delivered raised => delivered && !raised
  | .connect r => r = .ok
  | .restart => false
  | _ => true

/-- The entry api-gateway resumes from is still the one in the KV. -/
def resumesCurrent (s : State) : Bool :=
  match s.gateway.connection with
  | .recovering entry =>
    SessionAdmin.refusedFor entry = none ∨ SessionAdmin.refusedFor entry = s.producer.entryId
  | _ => true

/-- Starts, stops, renames and the recovery of api-gateway keep out of each other's way. -/
def apart (below : Bytes → Bool) (s : State) : Action → Bool
  | .producer a =>
    RenameRace.noOverlap below s (.producer a) && AudioProducer.timely below s.producer a
  | .connect _ => resumesCurrent s
  | _ => true

/-! ### The events api-gateway has still to handle -/

/-- The last event of a session decides, if there is one. -/
theorem foldl_afterEvent (E : List AudioProducer.Lifecycle) :
    (∀ a b, E.foldl AudioProducer.afterEvent a = E.foldl AudioProducer.afterEvent b) ∨
      ∀ a, E.foldl AudioProducer.afterEvent a = a := by
  induction E with
  | nil => exact Or.inr fun _ ↦ rfl
  | cons e E ih =>
    cases e with
    | started id startedAt label => exact Or.inl fun _ _ ↦ rfl
    | stopped id stoppedAt =>
      cases id with
      | none => exact ih
      | some id => exact Or.inl fun _ _ ↦ rfl

/-- No start is in progress before its event. -/
theorem starts_eq_nil {pc : AudioProducer.CtrlPc} (h : pc.isStarting = false) : pc.starts = [] := by
  cases pc with
  | starting pc => contradiction
  | _ => rfl

/-! ### The invariant -/

structure Copied (s : State) : Prop where
  guarded : Guarded s.producer
  seen : s.gateway.seen ≤ s.producer.broker.events.length
  synced : Synced (expected s) s.producer

section Steps

variable {below : Bytes → Bool} {s t : State}

/-- A step of api-gateway that handles no event. -/
theorem Copied.of_gateway (h : Copied s) {gateway : SessionAdmin.State}
    (hremembers : SessionAdmin.Remembers s.gateway gateway) :
    Copied { s with gateway := gateway } := by
  obtain ⟨hactive, hseen⟩ := hremembers
  have hsame : expected { s with gateway := gateway } = expected s := by
    rw [expected, expected, hseen, hactive]
  refine ⟨h.guarded, hseen ▸ h.seen, ?_⟩
  rw [hsame]
  exact h.synced

/-- A step of audio-producer. -/
theorem copied_producer (h : Copied s) {a : AudioProducer.Action} {p : AudioProducer.State}
    (hcalls : a.callsSucceed = true) (htimely : AudioProducer.timely below s.producer a = true)
    (hp : AudioProducer.step below s.producer a = some p) : Copied { s with producer := p } := by
  obtain ⟨E, hevents, hsynced⟩ := AudioProducer.follows_step h.synced hcalls htimely hp
  have hexpected : expected { s with producer := p } =
      E.foldl AudioProducer.afterEvent (expected s) := by
    rw [expected, hevents, List.drop_append_of_le_length h.seen, List.foldl_append, expected]
  refine ⟨(AudioProducer.guarded_step h.guarded hp).2, ?_, ?_⟩
  · show s.gateway.seen ≤ p.broker.events.length
    rw [hevents, List.length_append]
    exact h.seen.trans (Nat.le_add_right _ _)
  · rw [hexpected]
    exact hsynced

/-- api-gateway handles the next event. -/
theorem copied_sessionEvent (h : Copied s) {e : AudioProducer.Lifecycle}
    (he : s.producer.broker.events[s.gateway.seen]? = some e) :
    Copied ⟨s.producer, SessionAdmin.handleSessionDb
      { s.gateway with seen := s.gateway.seen + 1 } e false⟩ := by
  have hhandled : ∀ g : SessionAdmin.State, (SessionAdmin.handleSessionDb g e false).seen = g.seen ∧
      (SessionAdmin.handleSessionDb g e false).activeSessionId =
        AudioProducer.afterEvent g.activeSessionId e := by
    intro g
    cases e with
    | started id startedAt label => exact ⟨rfl, rfl⟩
    | stopped id stoppedAt => cases id <;> exact ⟨rfl, rfl⟩
  obtain ⟨hseen, hactive⟩ := hhandled { s.gateway with seen := s.gateway.seen + 1 }
  obtain ⟨hlt, hget⟩ := List.getElem?_eq_some_iff.1 he
  have hexpected : expected ⟨s.producer, SessionAdmin.handleSessionDb
      { s.gateway with seen := s.gateway.seen + 1 } e false⟩ = expected s := by
    rw [expected, hseen, hactive, expected, List.drop_eq_getElem_cons hlt, hget, List.foldl_cons]
  refine ⟨h.guarded, ?_, ?_⟩
  · show (SessionAdmin.handleSessionDb _ e false).seen ≤ s.producer.broker.events.length
    rw [hseen]
    exact hlt
  · rw [hexpected]
    exact h.synced

/-- api-gateway resumes the session of the entry; events that are there overrule it. -/
theorem copied_connect (h : Copied s) (hcurrent : resumesCurrent s = true) {r : Reply} :
    Copied { s with gateway := SessionAdmin.kvConnect s.gateway s.current r } := by
  cases hconnection : s.gateway.connection with
  | waiting =>
    rw [SessionAdmin.kvConnect, hconnection]
    exact h.of_gateway ⟨rfl, rfl⟩
  | connected =>
    rw [SessionAdmin.kvConnect, hconnection]
    exact h
  | recovering entry =>
    rw [resumesCurrent, hconnection] at hcurrent
    simp only [SessionAdmin.kvConnect, hconnection]
    rcases of_decide_eq_true hcurrent with hnone | hentry
    · exact h.of_gateway ⟨by rw [hnone]; rfl, rfl⟩
    · rw [hentry]
      refine ⟨h.guarded, h.seen, ?_⟩
      rcases foldl_afterEvent (s.producer.broker.events.drop s.gateway.seen) with hsame | hkept
      · rw [expected, hsame _ s.gateway.activeSessionId]
        exact h.synced
      · rw [expected, hkept]
        cases hid : s.producer.entryId with
        | none =>
          have hexpected := hkept s.gateway.activeSessionId
          rw [Option.map_none, Option.none_or, ← hexpected]
          exact h.synced
        | some id =>
          have hresumed := h.synced.of_resumed
          rwa [hid] at hresumed

/-- A rename puts the entry it holds, which is of the session that is there. -/
theorem Copied.of_put (h : Copied s) (hcoherent : RenameRace.Coherent s) {e : KvEntry}
    {label : Json} (he : e ∈ s.gateway.held) :
    Copied { s with producer := s.setCurrent (some (SessionAdmin.relabel e label)) } := by
  obtain ⟨old, hold, hsame⟩ := Option.map_eq_some_iff.1 (hcoherent.held e he)
  obtain ⟨hstate, hid⟩ := Prod.mk.inj hsame
  refine ⟨⟨h.guarded.flag, h.guarded.putting, h.guarded.down⟩, h.seen,
    h.synced.of_entry ?_ (hstate.symm.trans (hcoherent.active old hold))⟩
  exact (congrArg (Option.map KvEntry.sessionId) hold).trans (congrArg some hid)

/-- A request goes on. -/
theorem copied_resume (h : Copied s) (hcoherent : RenameRace.Coherent s) {i : ℕ}
    {q : SessionAdmin.Request} (hq : s.gateway.requests[i]? = some q) {db : SessionAdmin.DbResult}
    {r : Reply} : Copied {
      producer := s.setCurrent (SessionAdmin.entryAfter s.current q r)
      gateway := SessionAdmin.resume
        { s.gateway with requests := s.gateway.requests.eraseIdx i } s.current q db r } := by
  have hremembers : SessionAdmin.Remembers s.gateway (SessionAdmin.resume
      { s.gateway with requests := s.gateway.requests.eraseIdx i } s.current q db r) :=
    (SessionAdmin.serves_resume _ _ _ _ _).remembers
  rcases SessionAdmin.entryAfter_eq hq r with hsame | ⟨e, he, label, hput⟩
  · rw [hsame]
    exact h.of_gateway hremembers
  · rw [hput]
    exact (h.of_put hcoherent he).of_gateway hremembers

/-- **One step.** -/
theorem copied_step {a : Action} (h : Copied s) (hcoherent : RenameRace.Coherent s)
    (hsucceeds : succeeds below s a = true) (hapart : apart below s a = true)
    (ht : step below s a = some t) : Copied t := by
  cases a with
  | producer a =>
    obtain ⟨p, hp, rfl⟩ := Option.map_eq_some_iff.1 ht
    exact copied_producer h (Bool.and_eq_true_iff.1 hsucceeds).1 (Bool.and_eq_true_iff.1 hapart).2
      hp
  | rename sessionId body =>
    obtain rfl := Option.some.inj ht
    exact h.of_gateway (SessionAdmin.serves_renameSession _ _ _).remembers
  | start label r =>
    obtain rfl := Option.some.inj ht
    exact h.of_gateway (SessionAdmin.serves_sessionStart _ _ _ _).remembers
  | resume i db r =>
    obtain ⟨q, hq, rfl⟩ := Option.map_eq_some_iff.1 ht
    exact copied_resume h hcoherent hq
  | sessionEvent delivered raised =>
    obtain ⟨e, he, rfl⟩ := Option.map_eq_some_iff.1 ht
    obtain ⟨rfl, hraised⟩ := Bool.and_eq_true_iff.1 hsucceeds
    obtain rfl : raised = false := by simpa using hraised
    exact copied_sessionEvent h he
  | connect r =>
    obtain rfl := Option.some.inj ht
    exact copied_connect h hapart
  | restart => contradiction

end Steps

/-- **The copies agree when quiet**, in every run whose operations succeed and in which starts,
stops, renames and the recovery of api-gateway keep apart. -/
theorem copies_agree {below : Bytes → Bool} {s : State}
    (h : (system below).Reachable (fun s a ↦ succeeds below s a = true ∧ apart below s a = true) s)
    (hquiet : Quiet s) : Agree s := by
  have hcoherent : ∀ {s}, (system below).Reachable
      (fun s a ↦ succeeds below s a = true ∧ apart below s a = true) s → RenameRace.Coherent s := by
    rintro s ⟨s₀, as, hs₀, hrun⟩
    refine (RenameRace.coherent_inductive below).reachable ⟨s₀, as, hs₀, hrun.mono ?_⟩
    rintro s a ⟨hsucceeds, hapart⟩
    cases a with
    | producer a => exact ⟨(Bool.and_eq_true_iff.1 hsucceeds).2, (Bool.and_eq_true_iff.1 hapart).1⟩
    | _ => exact ⟨rfl, rfl⟩
  have hcopied : Copied s := by
    refine h.induct (fun s hs ↦ ?_) fun hreach hcopied hG ht ↦
      copied_step hcopied (hcoherent hreach) hG.1 hG.2 ht
    obtain rfl : s = {} := hs
    exact ⟨(AudioProducer.guarded_inductive below TransitionSystem.always).init _ rfl, le_refl _,
      AudioProducer.synced_init⟩
  have hstarts : s.producer.ctrl.starts = [] := starts_eq_nil hquiet.starts
  refine ⟨hcopied.guarded.flag, ?_, ?_⟩
  · exact hcopied.synced.entry hquiet.up (AudioProducer.putting_eq_nil hstarts)
  · have hexpected : expected s = s.gateway.activeSessionId := by
      rw [expected, hquiet.handled, List.drop_length]
      rfl
    rw [← hexpected]
    refine (hcopied.synced.event hquiet.up hstarts).resolve_right fun ⟨_, pc, hpc, _⟩ ↦ ?_
    rw [hquiet.stops] at hpc
    contradiction

/-! ### A stop that overlaps a start -/

/-- api-gateway connects, and the silence timeout is a second. -/
def connected : List Action :=
  [.producer (.setConfig (some 1)), .connect .ok, .connect .ok]

/-- A session is started, and stopped by the audio loop up to the delete of its entry. -/
def silenced : List AudioProducer.Action :=
  AudioProducer.running ++ AudioProducer.starting AudioProducer.first ++ AudioProducer.started ++
    AudioProducer.silentChunks AudioProducer.first 10 ++
    [.audio AudioProducer.first .ok, .audio AudioProducer.first .ok]

/-- A start command, up to its ack. -/
def restarted : List AudioProducer.Action :=
  AudioProducer.starting AudioProducer.second ++ AudioProducer.started

/-- The audio loop's stop publishes its event, and returns. -/
def announced : List AudioProducer.Action :=
  [.audio AudioProducer.first .ok, .audio AudioProducer.first .ok]

/-- The events of two starts and a stop are handled. -/
def handled : List Action := List.replicate 3 (.sessionEvent true false)

/-- A session is stopped for its silence, and another one started. -/
theorem copies_agree_second :
    ∃ s, (system AudioProducer.silent).Reachable
        (fun s a ↦ succeeds AudioProducer.silent s a = true ∧
          apart AudioProducer.silent s a = true) s ∧
      s.producer.mem.sessionId = some AudioProducer.second.id ∧ Quiet s ∧ Agree s := by
  obtain ⟨s, hs, htest⟩ := TransitionSystem.exists_reachable_of_exec
    (M := system AudioProducer.silent) (G := fun s a ↦ succeeds AudioProducer.silent s a = true ∧
      apart AudioProducer.silent s a = true) {}
    (connected ++ (silenced ++ announced ++ restarted).map .producer ++ handled)
    (fun s ↦ decide (s.producer.mem.sessionId = some AudioProducer.second.id ∧
      s.producer.up = true ∧ s.producer.stops.isEmpty = true ∧ s.producer.ctrl.isStarting = false ∧
      s.gateway.seen = s.producer.broker.events.length)) rfl (by decide +kernel)
  obtain ⟨hid, hup, hstops, hstarts, hseen⟩ := of_decide_eq_true htest
  have hquiet : Quiet s := ⟨hup, List.isEmpty_iff.1 hstops, hstarts, hseen⟩
  exact ⟨s, hs, hid, hquiet, copies_agree hs hquiet⟩

/-- The start runs between the delete and the event of the stop. With nothing in progress and
nothing failed, audio-producer and the KV have the second session, and api-gateway has none. -/
theorem copies_disagree :
    ∃ s, (system AudioProducer.silent).Reachable
        (fun s a ↦ succeeds AudioProducer.silent s a = true) s ∧ Quiet s ∧
      s.producer.mem.sessionId = some AudioProducer.second.id ∧
      s.producer.entryId = some AudioProducer.second.id ∧ s.gateway.activeSessionId = none ∧
      ¬ Agree s := by
  obtain ⟨s, hs, htest⟩ := TransitionSystem.exists_reachable_of_exec
    (M := system AudioProducer.silent) (G := fun s a ↦ succeeds AudioProducer.silent s a = true) {}
    (connected ++ (silenced ++ restarted ++ announced).map .producer ++ handled)
    (fun s ↦ decide (s.producer.mem.sessionId = some AudioProducer.second.id ∧
      s.producer.entryId = some AudioProducer.second.id ∧ s.gateway.activeSessionId = none ∧
      s.producer.up = true ∧ s.producer.stops.isEmpty = true ∧ s.producer.ctrl.isStarting = false ∧
      s.gateway.seen = s.producer.broker.events.length)) rfl (by decide +kernel)
  obtain ⟨hid, hentry, hgateway, hup, hstops, hstarts, hseen⟩ := of_decide_eq_true htest
  refine ⟨s, hs, ⟨hup, List.isEmpty_iff.1 hstops, hstarts, hseen⟩, hid, hentry, hgateway,
    fun hagree ↦ ?_⟩
  have hnone := hagree.gateway
  rw [hid, hgateway] at hnone
  contradiction

end LiveSTT.SessionCopies
