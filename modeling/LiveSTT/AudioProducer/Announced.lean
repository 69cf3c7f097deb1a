import LiveSTT.AudioProducer.Views

/-!
# The session in memory, in the KV and in the lifecycle events

A start puts the KV entry, becomes active, and publishes its event; a stop goes idle, deletes the
entry, and publishes its event, an await apart each. Only the audio loop's stop can overlap a start.
If it goes idle while the start waits for its put, the delete takes the entry of the session about
to start; if it publishes its event after that of the start, or while the session of the start is
over already, a listener is left with the wrong session. Apart from that (`timely`), memory, entry
and events agree up to the calls that are still to come (`Synced`).

`Follows` is what a step owes: it takes the events on, and memory, entry and events still agree
behind it. Each function of the source gets one lemma of that form (`follows_stopStep`,
`follows_startStep`, `follows_checkSilence`), for the calls that return. The guard `timely` is
needed in two of them only, those for the calls of a stop and for the stop of the audio loop.
-/

namespace LiveSTT.AudioProducer

/-- What a listener remembers after an event. -/
def afterEvent (active : Option String) : Lifecycle → Option String
  | .started id _ _ => some id
  | .stopped (some _) _ => none
  | .stopped none _ => active

/-- The stop has still to publish the event of a session. -/
def StopPc.announces : StopPc → Bool
  | .eosPublishing _ _ => true
  | .kvDeleting captured _ _ => captured.isSome
  | .eventPublishing _ _ => false

def State.Announcing (s : State) : Prop := ∃ pc ∈ s.stops, pc.announces = true

/-- A stop does not go idle while a start waits for its put. Nor does it publish its event when a
session is active whose event is published, or when the session a start has just activated is
over. -/
def StopPc.timely (s : State) : StopPc → Bool
  | .eosPublishing _ _ => s.ctrl.putting.isEmpty
  | .kvDeleting (some _) _ _ => s.mem.sessionId.isSome = !s.ctrl.spawning.isEmpty
  | _ => true

/-- The stops of both loops are timely, and the process does not end in a start or a stop. -/
def timely (below : Bytes → Bool) (s : State) : Action → Bool
  | .crash => s.stops.isEmpty && s.ctrl.starts.isEmpty
  | .audio _ _ =>
    s.audio.stops.all (StopPc.timely s) &&
      (s.silenceReached below && s.mem.sessionId.isNone → s.ctrl.putting.isEmpty)
  | .ctrl _ => s.ctrl.stops.all (StopPc.timely s)
  | _ => true

/-- Memory, entry and events agree, up to the calls of a start or a stop in progress; `expected` is
what a listener remembers after all events. -/
structure Synced (expected : Option String) (s : State) : Prop where
  handles : s.up = true → s.mem.sessionKv = true
  current : ∀ entry, s.broker.current = some entry → entry.state = "active"
  down : s.up = false → s.stops = [] ∧ s.ctrl.starts = [] ∧ expected = s.entryId.map Subtype.val
  putting : ∀ id ∈ s.ctrl.putting, s.entryId = some id
  entry : s.up = true → s.ctrl.putting = [] → s.entryId = s.mem.sessionId
  spawning : ∀ id ∈ s.ctrl.spawning,
    s.mem.sessionId = some id ∨ s.mem.sessionId = none ∧ s.Announcing
  event : s.up = true → s.ctrl.starts = [] →
    expected = s.mem.sessionId.map Subtype.val ∨ s.mem.sessionId = none ∧ s.Announcing

section Steps

variable {below : Bytes → Bool} {s t : State} {w : Coroutine} {expected : Option String}

theorem putting_eq_nil (hstarts : s.ctrl.starts = []) : s.ctrl.putting = [] :=
  List.eq_nil_iff_forall_not_mem.2 fun id hid ↦ by
    have hmem := starts_of_putting hid
    rw [hstarts] at hmem
    contradiction

theorem spawning_eq_nil (hstarts : s.ctrl.starts = []) : s.ctrl.spawning = [] :=
  List.eq_nil_iff_forall_not_mem.2 fun id hid ↦ by
    have hmem := starts_of_spawning hid
    rw [hstarts] at hmem
    contradiction

/-- A stop in progress that announces goes on doing so. -/
theorem announcing_of_subset (h : s.Announcing)
    (hstops : ∀ pc ∈ s.stops, pc.announces = true → pc ∈ t.stops) : t.Announcing := by
  obtain ⟨pc, hpc, hannounces⟩ := h
  exact ⟨pc, hstops pc hpc hannounces, hannounces⟩

/-- A step that touches none of it. -/
theorem Synced.of_eq (h : Synced expected s) (hup : t.up = s.up)
    (hid : t.mem.sessionId = s.mem.sessionId) (hkv : t.mem.sessionKv = s.mem.sessionKv)
    (hcurrent : t.broker.current = s.broker.current) (hputting : t.ctrl.putting = s.ctrl.putting)
    (hspawning : t.ctrl.spawning = s.ctrl.spawning) (hstarts : t.ctrl.starts = s.ctrl.starts)
    (hannounce : ∀ pc ∈ s.stops, pc.announces = true → pc ∈ t.stops)
    (hstops : s.stops = [] → s.up = false → t.stops = []) : Synced expected t := by
  have hentry : t.entryId = s.entryId := by rw [State.entryId, hcurrent, State.entryId]
  refine ⟨?_, ?_, fun hdown ↦ ?_, ?_, ?_, fun id hspawn ↦ ?_, fun hup' hnone ↦ ?_⟩
  · rw [hup, hkv]
    exact h.handles
  · rw [hcurrent]
    exact h.current
  · obtain ⟨hs, hc, he⟩ := h.down (hup ▸ hdown)
    exact ⟨hstops hs (hup ▸ hdown), hstarts.trans hc, hentry ▸ he⟩
  · rw [hputting, hentry]
    exact h.putting
  · rw [hup, hputting, hentry, hid]
    exact h.entry
  · rw [hid]
    exact (h.spawning id (hspawning ▸ hspawn)).imp_right
      (And.imp_right fun ha ↦ announcing_of_subset ha hannounce)
  · rw [hid]
    exact (h.event (hup ▸ hup') (hstarts ▸ hnone)).imp_right
      (And.imp_right fun ha ↦ announcing_of_subset ha hannounce)

/-- A step of the audio loop outside of a stop. -/
theorem Synced.of_audio (h : Synced expected s) (hup : s.up = true) (haudio : s.audio.stops = [])
    {mem : Memory} (hid : mem.sessionId = s.mem.sessionId) (hkv : mem.sessionKv = s.mem.sessionKv)
    {broker : Broker} (hcurrent : broker.current = s.broker.current) {captured : ℕ} {pc : AudioPc} :
    Synced expected { s with mem := mem, broker := broker, captured := captured, audio := pc } := by
  refine h.of_eq rfl hid hkv hcurrent rfl rfl rfl (fun pc' hpc _ ↦ ?_) fun _ hdown ↦ ?_
  · rw [State.stops, haudio, List.nil_append] at hpc
    exact List.mem_append_right _ hpc
  · rw [hup] at hdown
    contradiction

/-- A step of the control loop outside of a stop. -/
theorem Synced.of_ctrl (h : Synced expected s) (hup : s.up = true) (hstops : s.ctrl.stops = [])
    {pc : CtrlPc} (hputting : pc.putting = s.ctrl.putting)
    (hspawning : pc.spawning = s.ctrl.spawning) (hstarts : pc.starts = s.ctrl.starts) :
    Synced expected { s with ctrl := pc } := by
  refine h.of_eq rfl rfl rfl rfl hputting hspawning hstarts (fun pc' hpc _ ↦ ?_) fun _ hdown ↦ ?_
  · rw [State.stops, hstops, List.append_nil] at hpc
    exact List.mem_append_left _ hpc
  · rw [hup] at hdown
    contradiction

/-- Another writer has put the entry of the same session. -/
theorem Synced.of_entry (h : Synced expected s) {entry : KvEntry}
    (hsame : s.entryId = some entry.sessionId) (hactive : entry.state = "active") :
    Synced expected { s with broker := { s.broker with current := some entry } } := by
  have hentry : State.entryId { s with broker := { s.broker with current := some entry } } =
      s.entryId := hsame.symm
  refine ⟨h.handles, fun entry' hentry' ↦ ?_, ?_, ?_, ?_, h.spawning, h.event⟩
  · obtain rfl := Option.some.inj hentry'
    exact hactive
  · rw [hentry]
    exact h.down
  · rw [hentry]
    exact h.putting
  · rw [hentry]
    exact h.entry

/-- A listener that remembers the session of the entry remembers the right one. -/
theorem Synced.of_resumed (h : Synced expected s) : Synced (s.entryId.map Subtype.val) s := by
  refine ⟨h.handles, h.current, fun hdown ↦ ?_, h.putting, h.entry, h.spawning,
    fun hup hstarts ↦ ?_⟩
  · obtain ⟨hstops, hstarts, -⟩ := h.down hdown
    exact ⟨hstops, hstarts, rfl⟩
  · rw [h.entry hup (putting_eq_nil hstarts)]
    exact Or.inl rfl

/-! ### Stops -/

/-- The stops in progress, with the one of a coroutine in a position of its own. -/
def State.Runs (s : State) (w : Coroutine) (own : List StopPc) : Prop :=
  s.stops.Perm (own ++ s.otherStops w)

theorem idleStop_of_kv (hkv : s.mem.sessionKv = true) (captured : Option SessionId)
    (stoppedAt : String) : idleStop s captured stoppedAt .ok w =
      (s.goIdle captured true).suspendStop (.kvDeleting captured stoppedAt true) w := by
  rw [idleStop, if_pos hkv]
  rfl

/-- A stop leaves the start of the other coroutine where it is. -/
theorem ctrl_of_moved (h : Moved s t w) (hctrl : w = .control → s.ctrl.starts = []) :
    t.ctrl.putting = s.ctrl.putting ∧ t.ctrl.spawning = s.ctrl.spawning ∧
      t.ctrl.starts = s.ctrl.starts := by
  cases h with
  | audio hctrl' _ => rw [hctrl']; exact ⟨rfl, rfl, rfl⟩
  | control _ hctrl' =>
    rw [putting_eq_nil (hctrl rfl), spawning_eq_nil (hctrl rfl), hctrl rfl]
    rcases hctrl' with ⟨raised, hctrl'⟩ | ⟨pc, hctrl'⟩ <;> rw [hctrl'] <;> exact ⟨rfl, rfl, rfl⟩

/-- The transition to idle: neither memory nor KV has a session, and the stop is at its delete. A
start in progress is past its put. -/
theorem synced_idleStop {own : List StopPc} (h : Synced expected s) (hup : s.up = true)
    (hruns : s.Runs w own) (hputting : s.ctrl.putting = []) {captured : Option SessionId}
    {stoppedAt : String} (hown : ∀ pc ∈ own, pc.announces = true → captured.isSome = true)
    (hcaptured : captured = none → s.mem.sessionId = none)
    (hctrl : w = .control → s.ctrl.starts = []) :
    Synced expected (idleStop s captured stoppedAt .ok w) := by
  have hS : Stopping w s (idleStop s captured stoppedAt .ok w) := stopping_idleStop
  have hmem : (idleStop s captured stoppedAt .ok w).mem = s.mem.idle := mem_idleStop _ _ _ _ _
  have hnone : (idleStop s captured stoppedAt .ok w).mem.sessionId = none := by rw [hmem]; rfl
  have hstops : (idleStop s captured stoppedAt .ok w).stops.Perm
      (.kvDeleting captured stoppedAt true :: s.otherStops w) := by
    rw [idleStop_of_kv (h.handles hup)]
    refine (perm_stops_suspendStop _ _ _).trans ?_
    cases w <;> exact List.Perm.refl _
  have hcurrent : (idleStop s captured stoppedAt .ok w).broker.current = none := by
    rw [idleStop_of_kv (h.handles hup), broker_suspendStop]
    rfl
  have hputting' : (idleStop s captured stoppedAt .ok w).ctrl.putting = [] :=
    List.eq_nil_iff_forall_not_mem.2 fun id hid ↦ by
      have hmem := hS.loops.putting id hid
      rw [hputting] at hmem
      contradiction
  -- If a session ends here, this stop announces it; else what was to be announced still is.
  have hannounce : s.Announcing ∨ s.mem.sessionId ≠ none →
      (idleStop s captured stoppedAt .ok w).Announcing := by
    rintro (⟨pc, hpc, hannounces⟩ | hsome)
    · rcases List.mem_append.1 (hruns.mem_iff.1 hpc) with howned | hother
      · exact ⟨_, hstops.mem_iff.2 List.mem_cons_self, hown pc howned hannounces⟩
      · exact ⟨pc, hstops.mem_iff.2 (List.mem_cons_of_mem _ hother), hannounces⟩
    · refine ⟨_, hstops.mem_iff.2 List.mem_cons_self, ?_⟩
      show captured.isSome = true
      exact Option.isSome_iff_ne_none.2 fun hnil ↦ hsome (hcaptured hnil)
  refine ⟨?_, ?_, fun hdown ↦ ?_, ?_, ?_, fun id hspawn ↦ ?_, fun hup' hstarts ↦ ?_⟩
  · rw [hmem]
    exact fun _ ↦ h.handles hup
  · rw [hcurrent]
    exact fun entry hentry ↦ by contradiction
  · rw [hS.up, hup] at hdown
    contradiction
  · rw [hputting']
    exact fun id hid ↦ by contradiction
  · rw [State.entryId, hcurrent, hnone]
    exact fun _ _ ↦ rfl
  · refine Or.inr ⟨hnone, hannounce ?_⟩
    rcases h.spawning id (hS.loops.spawning id hspawn) with hsome | ⟨-, ha⟩
    · exact Or.inr (by rw [hsome]; simp)
    · exact Or.inl ha
  · rw [(ctrl_of_moved hS.loops hctrl).2.2] at hstarts
    rcases h.event hup hstarts with hexpected | ⟨-, ha⟩
    · cases hid : s.mem.sessionId with
      | none =>
        rw [hexpected, hid, hnone]
        exact Or.inl rfl
      | some id => exact Or.inr ⟨hnone, hannounce (Or.inr (by rw [hid]; simp))⟩
    · exact Or.inr ⟨hnone, hannounce (Or.inl ha)⟩

/-- The stop of a coroutine, called. -/
theorem synced_beginStop (h : Synced expected s) (hup : s.up = true) (hruns : s.Runs w [])
    (hputting : s.mem.sessionId = none → s.ctrl.putting = [])
    (hctrl : w = .control → s.ctrl.starts = []) {now : Stamp} :
    Synced expected (beginStop s now .ok w) := by
  have hS : Stopping w s (beginStop s now .ok w) := stopping_beginStop
  cases hid : s.mem.sessionId with
  | none =>
    rw [beginStop, hid]
    have hcalled : Synced expected (s.record (.stopBegan none)) :=
      ⟨h.handles, h.current, h.down, h.putting, h.entry, h.spawning, h.event⟩
    have hruns' : (s.record (.stopBegan none)).Runs w [] := by cases w <;> exact hruns
    exact synced_idleStop hcalled hup hruns' (hputting hid) (by simp) (fun _ ↦ hid) hctrl
  | some id =>
    have hbegin : beginStop s now .ok w = ((s.record (.stopBegan (some id))).publish
        (.liveEos id) .ok).suspendStop (.eosPublishing id now.iso) w := by
      rw [beginStop, hid]
    have hstops :
      (beginStop s now .ok w).stops.Perm (.eosPublishing id now.iso :: s.otherStops w) := by
      rw [hbegin]
      refine (perm_stops_suspendStop _ _ _).trans ?_
      cases w <;> exact List.Perm.refl _
    have hmem : (beginStop s now .ok w).mem = s.mem := by
      rw [mem_beginStop, hid]
      rfl
    have hsame : ∀ pc ∈ s.stops, pc.announces = true → pc ∈ (beginStop s now .ok w).stops :=
      fun pc hpc _ ↦ hstops.mem_iff.2 (List.mem_cons_of_mem _ (hruns.mem_iff.1 hpc))
    have hcurrent : (beginStop s now .ok w).broker.current = s.broker.current := by
      rw [hbegin, broker_suspendStop, broker_publish]
      rfl
    obtain ⟨hput, hspawn, hstarts⟩ := ctrl_of_moved hS.loops hctrl
    refine h.of_eq hS.up (congrArg _ hmem) (congrArg _ hmem) hcurrent hput hspawn hstarts hsame
      fun _ hdown ↦ ?_
    rw [hup] at hdown
    contradiction

/-- With the bucket at hand, the beginning of `_stop_session` publishes no event: the put of the
idle entry is called first. -/
theorem events_beginStop (hkv : s.mem.sessionKv = true) {now : Stamp} :
    (beginStop s now .ok w).broker.events = s.broker.events := by
  rw [beginStop.eq_def]
  split
  · rw [broker_suspendStop, broker_publish]
    rfl
  · have hcalled : (s.record (.stopBegan none)).mem.sessionKv = true := hkv
    rw [idleStop_of_kv hcalled, broker_suspendStop]
    rfl

/-- A step takes the events on, and memory and KV with them. -/
def Follows (expected : Option String) (s t : State) : Prop :=
  ∃ E, t.broker.events = s.broker.events ++ E ∧ Synced (E.foldl afterEvent expected) t

theorem Synced.follows (h : Synced expected t) (hevents : t.broker.events = s.broker.events) :
    Follows expected s t :=
  ⟨[], hevents.trans (List.append_nil _).symm, h⟩

/-- The event of a stop: no session is active, or the start that activated one has its own event to
come. -/
theorem follows_announceStop (h : Synced expected s) (hup : s.up = true)
    {captured : Option SessionId} {stoppedAt : String} {cleared : Bool}
    (hruns : s.Runs w [.kvDeleting captured stoppedAt cleared])
    (htimely : (StopPc.kvDeleting captured stoppedAt cleared).timely s = true)
    (hctrl : w = .control → s.ctrl.starts = []) :
    Follows expected s (announceStop s captured stoppedAt cleared .ok w) := by
  have hS : Stopping w s (announceStop s captured stoppedAt cleared .ok w) := stopping_announceStop
  have hmem : (announceStop s captured stoppedAt cleared .ok w).mem = s.mem :=
    mem_announceStop _ _ _ _ _ _
  have hcurrent : (announceStop s captured stoppedAt cleared .ok w).broker.current =
      s.broker.current := by
    rw [announceStop, broker_suspendStop, broker_announce]
  have hevents : (announceStop s captured stoppedAt cleared .ok w).broker.events =
      s.broker.events ++ [.stopped captured stoppedAt] := by
    rw [announceStop, broker_suspendStop, broker_announce]
    rfl
  have hstops : (announceStop s captured stoppedAt cleared .ok w).stops.Perm
      (.eventPublishing captured cleared :: s.otherStops w) := by
    refine (perm_stops_suspendStop _ _ _).trans ?_
    cases w <;> exact List.Perm.refl _
  obtain ⟨hput, hspawn, hstarts⟩ := ctrl_of_moved hS.loops hctrl
  refine ⟨_, hevents, ?_⟩
  cases captured with
  | none =>
    refine h.of_eq hS.up (congrArg _ hmem) (congrArg _ hmem) hcurrent hput hspawn hstarts
      (fun pc hpc hannounces ↦ ?_) fun _ hdown ↦ ?_
    · rcases List.mem_cons.1 (hruns.mem_iff.1 hpc) with rfl | hother
      · contradiction
      · exact hstops.mem_iff.2 (List.mem_cons_of_mem _ hother)
    · rw [hup] at hdown
      contradiction
  | some id =>
    have hactive : s.mem.sessionId.isSome = !s.ctrl.spawning.isEmpty := of_decide_eq_true htimely
    have hentry : (announceStop s (some id) stoppedAt cleared .ok w).entryId = s.entryId := by
      rw [State.entryId, hcurrent, State.entryId]
    refine ⟨?_, ?_, fun hdown ↦ ?_, ?_, ?_, fun id' hid' ↦ Or.inl ?_, fun _ hnil ↦ Or.inl ?_⟩
    · rw [hmem]
      exact fun _ ↦ h.handles hup
    · rw [hcurrent]
      exact h.current
    · rw [hS.up, hup] at hdown
      contradiction
    · rw [hput, hentry]
      exact h.putting
    · rw [hput, hentry, hmem]
      exact fun _ ↦ h.entry hup
    · -- The session is active, since its start is at its config read.
      rw [hmem]
      rw [hspawn] at hid'
      refine (h.spawning id' hid').resolve_right ?_
      rintro ⟨hnone, -⟩
      rw [hnone] at hactive
      cases hempty : s.ctrl.spawning with
      | nil =>
        rw [hempty] at hid'
        contradiction
      | cons _ _ =>
        rw [hempty] at hactive
        contradiction
    · rw [spawning_eq_nil (hstarts ▸ hnil)] at hactive
      rw [hmem, Option.isNone_iff_eq_none.1 (Option.isSome_eq_false_iff.1 hactive)]
      rfl

/-- Every call of `_stop_session` that returns keeps memory, entry and events in step: the idle
event is the last of them to follow. -/
theorem follows_stopStep (h : Synced expected s) (hup : s.up = true) {pc : StopPc}
    (hruns : s.Runs w [pc]) (htimely : pc.timely s = true)
    (hctrl : w = .control → s.ctrl.starts = []) : Follows expected s (stopStep s pc .ok w) := by
  cases pc with
  | eosPublishing id stoppedAt =>
    refine Synced.follows (synced_idleStop h hup hruns (List.isEmpty_iff.1 htimely) (fun _ _ _ ↦
      rfl)
      (fun hnone ↦ by contradiction) hctrl) ?_
    rw [stopStep, idleStop_of_kv (h.handles hup), broker_suspendStop]
    rfl
  | kvDeleting captured stoppedAt cleared => exact follows_announceStop h hup hruns htimely hctrl
  | eventPublishing captured cleared =>
    have hS : Stopping w s (stopStep s (.eventPublishing captured cleared) .ok w) :=
      stopping_stopStep
    obtain ⟨hput, hspawn, hstarts⟩ := ctrl_of_moved hS.loops hctrl
    refine Synced.follows (h.of_eq hS.up ?_ ?_ ?_ hput hspawn hstarts (fun pc hpc hannounces ↦ ?_)
      fun _ hdown ↦ ?_) ?_
    · rw [stopStep, mem_finishStop]
    · rw [stopStep, mem_finishStop]
    · rw [stopStep, broker_finishStop]
    · rcases List.mem_cons.1 (hruns.mem_iff.1 hpc) with rfl | hother
      · contradiction
      · cases w with
        | audio => exact List.mem_append_right _ hother
        | control => exact List.mem_append_left _ hother
    · rw [hup] at hdown
      contradiction
    · rw [stopStep, broker_finishStop]

/-! ### Starts -/

/-- A start puts its entry, and waits. -/
theorem follows_beginStart (h : Synced expected s) (hup : s.up = true) {stamp : Stamp}
    {label : Json} : Follows expected s (beginStart s stamp label .ok) := by
  rw [beginStart_of_kv s stamp label .ok (h.handles hup)]
  refine Synced.follows ⟨h.handles, fun entry hentry ↦ ?_, fun hdown ↦ ?_, fun id hid ↦ ?_,
    fun _ hnil ↦ ?_, fun id hid ↦ ?_, fun _ hnil ↦ ?_⟩ rfl
  · obtain rfl := Option.some.inj hentry
    rfl
  · rw [hup] at hdown
    contradiction
  · obtain rfl := List.mem_singleton.1 hid
    rfl
  · contradiction
  · contradiction
  · contradiction

/-- The session is active, and its event is to come; the entry is there since the put. -/
theorem synced_makeActive (h : Synced expected s) (hup : s.up = true) {stamp : Stamp} {label : Json}
    (hctrl : s.ctrl = .starting (.kvPutting stamp label)) {since : ℕ} {value : Option ℤ} :
    Synced expected { s.makeActive stamp.id label with
      ctrl := .starting (.configReading stamp label since value) } := by
  have hentry : s.entryId = some stamp.id := h.putting stamp.id (by
    rw [hctrl]
    exact List.mem_singleton_self _)
  refine ⟨h.handles, h.current, fun hdown ↦ ?_, fun id hid ↦ ?_, fun _ _ ↦ hentry, fun id hid ↦ ?_,
    fun _ hnil ↦ ?_⟩
  · have hdown' : s.up = false := hdown
    rw [hup] at hdown'
    contradiction
  · contradiction
  · obtain rfl := List.mem_singleton.1 hid
    exact Or.inl rfl
  · contradiction

/-- The event of a start: its session is active, or a stop has its own event to come. -/
theorem follows_spawnFlush (h : Synced expected s) (hup : s.up = true) {stamp : Stamp}
    {label : Json} {since : ℕ} {value : Option ℤ}
    (hctrl : s.ctrl = .starting (.configReading stamp label since value)) :
    Follows expected s (spawnFlush s stamp label since value .ok) := by
  have hputting : s.ctrl.putting = [] := by
    rw [hctrl]
    rfl
  have hactive : s.mem.sessionId = some stamp.id ∨ s.mem.sessionId = none ∧ s.Announcing :=
    h.spawning stamp.id (by
      rw [hctrl]
      exact List.mem_singleton_self _)
  refine ⟨[.started stamp.id stamp.iso label], rfl, h.handles, h.current, fun hdown ↦ ?_, ?_,
    fun _ _ ↦ h.entry hup hputting, ?_, fun _ _ ↦ ?_⟩
  · have hdown' : s.up = false := hdown
    rw [hup] at hdown'
    contradiction
  · exact fun id hid ↦ by contradiction
  · exact fun id hid ↦ by contradiction
  · refine hactive.imp (fun hid ↦ ?_) (And.imp_right fun ha ↦ ?_)
    · show some stamp.id.val = s.mem.sessionId.map Subtype.val
      rw [hid]
      rfl
    · refine announcing_of_subset ha fun pc hpc _ ↦ ?_
      have hstops : s.ctrl.stops = [] := by
        rw [hctrl]
        rfl
      rw [State.stops, hstops, List.append_nil] at hpc
      exact List.mem_append_left _ hpc

/-- Every call of a start that returns does too. -/
theorem follows_startStep (h : Synced expected s) (hup : s.up = true) {pc : StartPc}
    (hctrl : s.ctrl = .starting pc) : Follows expected s (startStep s pc .ok) := by
  cases pc with
  | kvPutting stamp label =>
    show Follows expected s (activate s stamp label .ok)
    rw [activate]
    split
    · exact (synced_makeActive h hup hctrl).follows rfl
    · -- Without a config bucket the session is active and announced in one step.
      have hactive : Synced expected { s.makeActive stamp.id label with
          ctrl := .starting (.configReading stamp label s.captured none) } :=
        synced_makeActive h hup hctrl
      exact follows_spawnFlush hactive hup rfl
  | configReading stamp label since value => exact follows_spawnFlush h hup hctrl
  | eventPublishing =>
    refine (h.of_ctrl hup ?_ ?_ ?_ ?_).follows rfl <;>
      · rw [hctrl]
        rfl

/-! ### The loops -/

/-- A command is ignored, or begins a start or a stop, whose first call is that of the KV entry. -/
theorem follows_handleControlMessage (h : Synced expected s) (hup : s.up = true)
    (hctrl : s.ctrl = .fetching) {payload : Option Json} {now : Stamp} :
    Follows expected s (handleControlMessage s payload now .ok) := by
  have hstarts : s.ctrl.starts = [] := by
    rw [hctrl]
    rfl
  have hputting : s.ctrl.putting = [] := by
    rw [hctrl]
    rfl
  have hmove : ∀ pc : CtrlPc, pc.putting = [] → pc.spawning = [] → pc.starts = [] →
      Follows expected s { s with ctrl := pc } := fun pc hput hspawn hstart ↦ by
    refine (h.of_ctrl hup ?_ ?_ ?_ ?_).follows rfl <;> rw [hctrl]
    · rfl
    · exact hput
    · exact hspawn
    · exact hstart
  rw [handleControlMessage.eq_def]
  split
  · exact hmove _ rfl rfl rfl
  · split
    · split
      · exact hmove _ rfl rfl rfl
      · exact follows_beginStart h hup
    · split
      · refine (synced_beginStop h hup ?_ (fun _ ↦ hputting) fun _ ↦ hstarts).follows
          (events_beginStop (h.handles hup))
        rw [State.Runs, State.stops, hctrl]
        exact List.Perm.of_eq (List.append_nil _)
      · exact hmove _ rfl rfl rfl
  · exact hmove _ rfl rfl rfl

/-- The silence check counts, or begins a stop as a command would. -/
theorem follows_checkSilence (h : Synced expected s) (hup : s.up = true) {chunk : Captured}
    (haudio : s.audio = .livePublishing chunk false) {now : Stamp}
    (htimely : (s.silenceReached below && s.mem.sessionId.isNone → s.ctrl.putting.isEmpty)) :
    Follows expected s (checkSilence s chunk.data (belowThreshold below chunk.data) now .ok) := by
  have hstops : s.audio.stops = [] := by
    rw [haudio]
    rfl
  simp only [checkSilence]
  split
  · exact (h.of_audio hup hstops rfl rfl rfl).follows rfl
  · rename_i heven
    obtain ⟨counted, hcounted⟩ : ∃ mem,
      mem = s.mem.countSilence chunk.data (belowThreshold below chunk.data) :=
      ⟨_, rfl⟩
    rw [← hcounted]
    have hid : counted.sessionId = s.mem.sessionId := by rw [hcounted]; rfl
    have hkv : counted.sessionKv = s.mem.sessionKv := by rw [hcounted]; rfl
    have hcalled : Synced expected { s with mem := counted, audio := .waiting } :=
      h.of_audio hup hstops hid hkv rfl
    split
    · rename_i hsilent
      have hevents : (beginStop { s with mem := counted, audio := .waiting } now .ok
          .audio).broker.events = s.broker.events := events_beginStop (hcalled.handles hup)
      refine (synced_beginStop hcalled hup (by exact List.Perm.refl _)
        (fun hnone ↦ ?_) (fun hw ↦ by contradiction)).follows hevents
      refine List.isEmpty_iff.1 (htimely (Bool.and_eq_true_iff.2 ⟨?_, ?_⟩))
      · rw [State.silenceReached, haudio]
        simpa [heven, ← hcounted] using hsilent
      · rw [hid.symm.trans hnone]
        rfl
    · exact hcalled.follows rfl

/-! ### The process -/

theorem synced_init : Synced none {} :=
  ⟨fun hup ↦ by contradiction, fun _ hentry ↦ by contradiction, fun _ ↦ ⟨rfl, rfl, rfl⟩,
    fun _ hid ↦ by contradiction, fun hup ↦ by contradiction, fun _ hid ↦ by contradiction,
    fun hup ↦ by contradiction⟩

/-- The process ends outside of a start or a stop: nothing is left to announce. -/
theorem synced_crash (h : Synced expected s) (hup : s.up = true) (hstops : s.stops = [])
    (hstarts : s.ctrl.starts = []) : Synced expected (crash s) := by
  refine ⟨fun hup' ↦ ?_, h.current, fun _ ↦ ⟨rfl, rfl, ?_⟩, fun id hid ↦ ?_, fun hup' ↦ ?_,
    fun id hid ↦ ?_, fun hup' ↦ ?_⟩
  · contradiction
  · rcases h.event hup hstarts with hexpected | ⟨-, pc, hpc, -⟩
    · rw [hexpected, ← h.entry hup (putting_eq_nil hstarts)]
      rfl
    · rw [hstops] at hpc
      contradiction
  · contradiction
  · contradiction
  · contradiction
  · contradiction

/-- A boot resumes the session of the entry. -/
theorem synced_boot (h : Synced expected s) (hdown : s.up = false) :
    Synced expected (boot s true true false) := by
  obtain ⟨-, -, hexpected⟩ := h.down hdown
  have hsession : (boot s true true false).mem.sessionId = s.entryId ∧
      (boot s true true false).mem.sessionKv = true ∧ (boot s true true false).up = true := by
    rw [boot, recoverSession.eq_def]
    split
    · rename_i entry hentry
      have hcurrent : s.broker.current = some entry := hentry
      rw [if_pos ⟨rfl, Bool.false_ne_true, h.current entry hcurrent⟩, State.entryId, hcurrent]
      exact ⟨rfl, rfl, rfl⟩
    · rename_i hentry
      have hcurrent : s.broker.current = none := hentry
      rw [State.entryId, hcurrent]
      exact ⟨rfl, rfl, rfl⟩
  have hentry : (boot s true true false).entryId = s.entryId := by
    rw [State.entryId, broker_boot, State.entryId]
  obtain ⟨hid, hkv, hup⟩ := hsession
  refine ⟨fun _ ↦ hkv, ?_, fun hdown' ↦ ?_, ?_, fun _ _ ↦ ?_, ?_, fun _ _ ↦ Or.inl ?_⟩
  · rw [broker_boot]
    exact h.current
  · rw [hup] at hdown'
    contradiction
  · rw [ctrl_boot]
    exact fun id hid ↦ by contradiction
  · rw [hentry, hid]
  · rw [ctrl_boot]
    exact fun id hid ↦ by contradiction
  · rw [hexpected, hid]

/-- **One step.** -/
theorem follows_step {a : Action} (h : Synced expected s) (hcalls : a.callsSucceed = true)
    (htimely : timely below s a = true) (ht : step below s a = some t) : Follows expected s t := by
  cases stepped_of_step ht with
  | boot hdown sessionKv configKv raised =>
    obtain ⟨hkv, hraised⟩ := Bool.and_eq_true_iff.1 hcalls
    obtain ⟨rfl, rfl⟩ := Bool.and_eq_true_iff.1 hkv
    obtain rfl : raised = false := by simpa using hraised
    exact (synced_boot h hdown).follows (by rw [broker_boot])
  | crash hup =>
    obtain ⟨hstops, hstarts⟩ := Bool.and_eq_true_iff.1 htimely
    exact (synced_crash h hup (List.isEmpty_iff.1 hstops) (List.isEmpty_iff.1 hstarts)).follows rfl
  | chunk hup haudio data r =>
    have hstops : s.audio.stops = [] := by
      rw [haudio]
      rfl
    rw [routeChunk.eq_def]
    split
    · exact Synced.follows (h.of_eq (by simp) (by simp) (by simp) (by simp) (by simp) (by simp)
        (by simp) (by simp +contextual [State.stops, hstops]) (by simp [hup])) (by simp)
    · exact (h.of_audio hup hstops rfl rfl (by split <;> rfl)).follows
        (by dsimp only; split <;> rfl)
  | @published chunk hup haudio now r =>
    obtain rfl : r = .ok := of_decide_eq_true hcalls
    exact follows_checkSilence h hup haudio (of_decide_eq_true (Bool.and_eq_true_iff.1 htimely).2)
  | dropped hup haudio now r => exact (h.of_audio hup (by rw [haudio]; rfl) rfl rfl rfl).follows rfl
  | buffered hup haudio now r =>
    exact (h.of_audio hup (by rw [haudio]; rfl) rfl rfl rfl).follows rfl
  | @audioStop pc hup haudio now r =>
    obtain rfl : r = .ok := of_decide_eq_true hcalls
    refine follows_stopStep h hup ?_ ?_ fun hw ↦ by contradiction
    · rw [State.Runs, State.stops, haudio]
      exact List.Perm.refl _
    · have hall := (Bool.and_eq_true_iff.1 htimely).1
      rw [haudio] at hall
      exact List.all_eq_true.1 hall pc (List.mem_singleton_self _)
  | subscribed hup hctrl ok =>
    refine (h.of_ctrl hup ?_ ?_ ?_ ?_).follows rfl <;> rw [hctrl] <;> cases ok <;> rfl
  | message hup hctrl payload now r =>
    obtain rfl : r = .ok := of_decide_eq_true hcalls
    exact follows_handleControlMessage h hup hctrl
  | ctrlStart hup hctrl r =>
    obtain rfl : r = .ok := of_decide_eq_true hcalls
    exact follows_startStep h hup hctrl
  | @ctrlStop pc hup hctrl r =>
    obtain rfl : r = .ok := of_decide_eq_true hcalls
    refine follows_stopStep h hup ?_ ?_ fun _ ↦ by rw [hctrl]; rfl
    · rw [State.Runs, State.stops, hctrl]
      exact List.perm_append_comm
    · have hall : s.ctrl.stops.all (StopPc.timely s) = true := htimely
      rw [hctrl] at hall
      exact List.all_eq_true.1 hall pc (List.mem_singleton_self _)
  | @ctrlAcked raised hup hctrl r =>
    refine (h.of_ctrl hup ?_ ?_ ?_ ?_).follows rfl <;> rw [hctrl] <;> cases raised <;> rfl
  | ctrlExit hup hctrl =>
    refine (h.of_ctrl hup ?_ ?_ ?_ ?_).follows rfl <;> rw [hctrl] <;> rfl
  | @flush i f hup hi answer r =>
    have hF := flushed_flushStep s i f answer r
    have hstops : (flushStep s i f answer r).stops = s.stops := by
      rw [State.stops, hF.audio, hF.ctrl, State.stops]
    exact (h.of_eq hF.up (congrArg _ hF.mem) (congrArg _ hF.mem) hF.current (congrArg _ hF.ctrl)
      (congrArg _ hF.ctrl) (congrArg _ hF.ctrl) (fun pc hpc _ ↦ hstops ▸ hpc)
      fun hs _ ↦ hstops.trans hs).follows hF.events
  | expire n =>
    refine Synced.follows (h.of_eq ?_ ?_ ?_ ?_ ?_ ?_ ?_ (fun _ hpc _ ↦ hpc) fun hs _ ↦ hs) ?_ <;>
      rfl
  | setConfig value =>
    refine Synced.follows (h.of_eq ?_ ?_ ?_ ?_ ?_ ?_ ?_ (fun _ hpc _ ↦ hpc) fun hs _ ↦ hs) ?_ <;>
      rfl

end Steps

end LiveSTT.AudioProducer
