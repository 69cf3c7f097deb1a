import LiveSTT.AudioProducer.OneSession
import LiveSTT.AudioProducer.Orderly

/-!
# The EOS marker ends the live stream

`_stop_session` publishes the EOS marker and is suspended there before it goes idle, and the audio
loop goes by `is_active`: a chunk captured in between follows the marker (`chunk_after_eos`), and so
does the marker of a second stop. A start that takes the id of an ended session, and a boot that
recovers one, bring more messages. In a run without these the marker is the last message of its
session on the live stream, whatever calls fail (`live_ends`).

The invariant `Ending` says where a marker can be on the stream while its session is active: its
stop is suspended at the publish.

The condition of `live_ends` names the four steps that could bring a message behind the marker: a
chunk or a second stop while the stop is suspended, a start with the id, and a boot that resumes the
session. It is stated on the state before the step. The rest of the source cannot: a flush task
publishes on the backfill subject alone (`ending_flushStep`).
-/

namespace LiveSTT.AudioProducer

/-- The session of a message on a live subject. -/
def Stored.onLive : Stored → Option SessionId
  | .live id _ => some id
  | .liveEos id => some id
  | _ => none

/-- Nothing follows an EOS marker on its live subject. -/
def LiveEnds (audio : List Stored) : Prop :=
  audio.Pairwise fun msg msg' ↦ ∀ id, msg = .liveEos id → msg'.onLive ≠ some id

instance (audio : List Stored) : Decidable (LiveEnds audio) :=
  decidable_of_iff (audio.Pairwise fun msg msg' ↦ msg.liveEosOf = none ∨
    msg'.onLive ≠ msg.liveEosOf)
    (iff_of_eq (congrArg (List.Pairwise · audio) (by
      funext msg msg'
      cases msg <;> simp [Stored.liveEosOf])))

/-! ### Runs in which nothing is published between the marker and idle -/

/-- The EOS marker of the active session is on the stream, and its stop is suspended there. -/
def State.closing (s : State) : Bool :=
  (endings s.stops).any fun id ↦ s.mem.sessionId = some id ∧ .liveEos id ∈ s.broker.audio

/-- While a stop is suspended at the EOS marker of the active session, no chunk and no other marker
is published; and no start takes, and no boot recovers, a session with a marker on the stream. -/
def undisturbed (below : Bytes → Bool) (s : State) : Action → Bool
  | .boot sessionKv _ raised =>
    sessionKv = true ∧ raised = false → ∀ id ∈ s.entryId, .liveEos id ∉ s.broker.audio
  | .chunk _ r => !(r.applied && s.closing)
  | .audio _ r => !(s.silenceReached below && (r.applied && s.closing))
  | .message payload now r =>
    (wantsStart payload → s.mem.isActive = false → .liveEos now.id ∉ s.broker.audio) ∧
      !(wantsStop payload && (s.mem.isActive && (r.applied && s.closing)))
  | _ => true

/-! ### The invariant -/

/-- The marker of the active session is on the stream only while its stop is suspended there; that
of a session about to start is not. -/
structure Ending (s : State) : Prop where
  guarded : Guarded s
  ends : LiveEnds s.broker.audio
  closing : ∀ id, s.mem.sessionId = some id → .liveEos id ∈ s.broker.audio → id ∈ endings s.stops
  putting : ∀ id ∈ s.ctrl.putting, .liveEos id ∉ s.broker.audio

section Rules

variable {s t : State}

/-- Messages on other subjects follow a marker without harm. -/
theorem LiveEnds.append {audio E : List Stored} (h : LiveEnds audio)
    (hE : ∀ msg ∈ E, msg.onLive = none) : LiveEnds (audio ++ E) := by
  refine List.pairwise_append.2 ⟨h, ?_, fun msg _ msg' hmsg' id _ ↦ ?_⟩
  · refine List.pairwise_of_forall_mem_list fun msg _ msg' hmsg' id _ ↦ ?_
    rw [hE msg' hmsg']
    simp
  · rw [hE msg' hmsg']
    simp

/-- A message on a live subject needs that the marker is not there yet. -/
theorem LiveEnds.snoc {audio : List Stored} (h : LiveEnds audio) {id : SessionId} {msg : Stored}
    (hmsg : msg.onLive = some id) (hnot : .liveEos id ∉ audio) : LiveEnds (audio ++ [msg]) := by
  refine List.pairwise_append.2 ⟨h, List.pairwise_singleton _ _, fun m hm m' hm' id' hid' ↦ ?_⟩
  obtain rfl := List.mem_singleton.1 hm'
  rw [hmsg]
  rintro hsome
  obtain rfl := Option.some.inj hsome
  exact hnot (hid' ▸ hm)

/-- A step that publishes nothing on a live subject. A session it leaves active was active, with the
same stop at its marker, or has no marker. -/
theorem Ending.of_quiet (h : Ending s) (hguarded : Guarded t) {E : List Stored}
    (haudio : t.broker.audio = s.broker.audio ++ E) (hE : ∀ msg ∈ E, msg.onLive = none)
    (hactive : ∀ id, t.mem.sessionId = some id → .liveEos id ∉ s.broker.audio ∨
      s.mem.sessionId = some id ∧ (id ∈ endings s.stops → id ∈ endings t.stops))
    (hputting : ∀ id ∈ t.ctrl.putting, .liveEos id ∉ s.broker.audio) : Ending t := by
  have hmem : ∀ id, .liveEos id ∈ t.broker.audio → .liveEos id ∈ s.broker.audio := by
    intro id hid
    rw [haudio] at hid
    rcases List.mem_append.1 hid with hold | hnew
    · exact hold
    · cases hE _ hnew
  refine ⟨hguarded, ?_, fun id hid hmarker ↦ ?_, fun id hid hmarker ↦ ?_⟩
  · rw [haudio]
    exact h.ends.append hE
  · rcases hactive id hid with hnot | ⟨hid', hstops⟩
    · exact absurd (hmem id hmarker) hnot
    · exact hstops (h.closing id hid' (hmem id hmarker))
  · exact hputting id hid (hmem id hmarker)

/-- A message published on the live subject of the active session. -/
theorem Ending.of_live (h : Ending s) (hguarded : Guarded t) {id : SessionId} {msg : Stored}
    (hid : s.mem.sessionId = some id) (hid' : t.mem.sessionId = s.mem.sessionId)
    (hnot : .liveEos id ∉ s.broker.audio) (hmsg : msg.onLive = some id)
    (haudio : t.broker.audio = s.broker.audio ++ [msg])
    (hending : msg = .liveEos id → id ∈ endings t.stops) : Ending t := by
  refine ⟨hguarded, ?_, fun id' hid'' hmarker ↦ ?_, fun id' hput ↦ ?_⟩
  · rw [haudio]
    exact h.ends.snoc hmsg hnot
  · obtain rfl : id' = id := Option.some.inj (hid''.symm.trans (hid'.trans hid))
    rw [haudio] at hmarker
    rcases List.mem_append.1 hmarker with hold | hnew
    · exact absurd hold hnot
    · exact hending (List.mem_singleton.1 hnew).symm
  · cases (hguarded.putting id' hput).symm.trans (hid'.trans hid)

end Rules

section Steps

variable {below : Bytes → Bool} {s t : State} {w : Coroutine}

/-! ### Stops -/

/-- A stop is about to publish the marker of the session exactly when it is suspended there. -/
theorem mem_endings {stops : List StopPc} {id : SessionId} :
    id ∈ endings stops ↔ ∃ stoppedAt, .eosPublishing id stoppedAt ∈ stops := by
  refine List.mem_filterMap.trans ⟨?_, ?_⟩
  · rintro ⟨pc, hpc, hid⟩
    cases pc with
    | eosPublishing id' stoppedAt =>
      obtain rfl := Option.some.inj hid
      exact ⟨stoppedAt, hpc⟩
    | _ => contradiction
  · rintro ⟨stoppedAt, hpc⟩
    exact ⟨_, hpc, rfl⟩

/-- The other coroutine's stop goes on. -/
theorem mem_endings_suspendStop {pc : StopPc} {id : SessionId} (h : id ∈ endings (s.otherStops w)) :
    id ∈ endings (s.suspendStop pc w).stops := by
  obtain ⟨stoppedAt, hpc⟩ := mem_endings.1 h
  exact mem_endings.2
    ⟨stoppedAt, (perm_stops_suspendStop s pc w).mem_iff.2 (List.mem_cons_of_mem pc hpc)⟩

/-- A stop past its EOS marker ends no session any more. -/
theorem mem_endings_other {pc : StopPc} (hperm : s.stops.Perm (pc :: s.otherStops w))
    (hpc : pc.ending = none) {id : SessionId} (h : id ∈ endings s.stops) :
    id ∈ endings (s.otherStops w) := by
  have hcons : id ∈ endings (pc :: s.otherStops w) := (hperm.filterMap _).mem_iff.1 h
  rwa [endings_cons, hpc] at hcons

/-- A call of a stop that is not at the marker leaves the other stops where they were. -/
theorem mem_endings_stopStep {pc : StopPc} (hperm : s.stops.Perm (pc :: s.otherStops w))
    (hpc : pc.ending = none) {r : Reply} {id : SessionId} (h : id ∈ endings s.stops) :
    id ∈ endings (stopStep s pc r w).stops := by
  have hother := mem_endings_other hperm hpc h
  cases pc with
  | eosPublishing id stoppedAt => contradiction
  | kvDeleting captured stoppedAt cleared =>
    refine mem_endings_suspendStop ?_
    cases w <;> simpa only [State.otherStops, ctrl_announce, audio_announce] using hother
  | eventPublishing captured cleared =>
    cases w with
    | audio => exact hother
    | control =>
      show id ∈ endings (s.audio.stops ++ [])
      rwa [List.append_nil]

/-- Once the marker is published the stop goes idle, and the session is active no more. -/
theorem ending_stopStep (h : Ending s) (hup : s.up = true) {pc : StopPc} {r : Reply}
    (hperm : s.stops.Perm (pc :: s.otherStops w)) : Ending (stopStep s pc r w) := by
  refine h.of_quiet (guarded_stopStep h.guarded hup).2 (E := []) ?_ (by simp) ?_
    fun id hid ↦ h.putting id (stopping_stopStep.loops.putting id hid)
  · rw [stored_stopStep, List.append_nil]
  · intro id hid
    cases hpc : pc.ending with
    | none =>
      refine Or.inr ⟨?_, mem_endings_stopStep hperm hpc⟩
      rcases mem_stopStep s r w pc with hmem | hmem
      · exact hmem ▸ hid
      · rw [hmem] at hid
        contradiction
    | some id' =>
      -- The session is left.
      cases pc with
      | eosPublishing _ _ =>
        rw [stopStep, mem_idleStop] at hid
        contradiction
      | _ => contradiction

/-- `_stop_session`, called, publishes its marker if there is none yet. -/
theorem ending_beginStop (h : Ending s) (hup : s.up = true) {now : Stamp} {r : Reply}
    (hclosing : (!(r.applied && s.closing)) = true) : Ending (beginStop s now r w) := by
  have hguarded : Guarded (beginStop s now r w) := (guarded_beginStop h.guarded hup).2
  cases hid : s.mem.sessionId with
  | none =>
    refine h.of_quiet hguarded (E := []) ?_ (by simp) (fun id hid' ↦ ?_) fun id hput ↦ ?_
    · rw [stored_beginStop, hid]
      simp
    · rw [mem_beginStop, hid] at hid'
      contradiction
    · exact h.putting id (stopping_beginStop.loops.putting id hput)
  | some id =>
    have hbegin : beginStop s now r w = ((s.record (.stopBegan (some id))).publish
        (.liveEos id) r).suspendStop (.eosPublishing id now.iso) w := by
      rw [beginStop.eq_def, hid]
    have hending : id ∈ endings (beginStop s now r w).stops := by
      rw [hbegin]
      exact mem_endings.2 ⟨now.iso, (perm_stops_suspendStop _ _ w).mem_iff.2 List.mem_cons_self⟩
    have hmem : (beginStop s now r w).mem = s.mem := by
      rw [mem_beginStop, hid]
      rfl
    cases happlied : r.applied with
    | false =>
      refine h.of_quiet hguarded (E := []) ?_ (by simp) (fun id' hid' ↦ ?_) fun id' hput ↦ ?_
      · rw [stored_beginStop, happlied]
        simp
      · rw [hmem] at hid'
        obtain rfl : id' = id := Option.some.inj (hid'.symm.trans hid)
        exact Or.inr ⟨hid, fun _ ↦ hending⟩
      · cases (hguarded.putting id' hput).symm.trans ((congrArg _ hmem).trans hid)
    | true =>
      have hmsg : (Stored.liveEos id).onLive = some id := rfl
      refine h.of_live hguarded hid (congrArg _ hmem) ?_ hmsg ?_ fun _ ↦ hending
      · -- A marker on the stream would have its stop suspended there.
        intro hmarker
        rw [happlied, Bool.true_and, State.closing, Bool.not_eq_true',
          List.any_eq_false] at hclosing
        exact hclosing id (h.closing id hid hmarker) (decide_eq_true ⟨hid, hmarker⟩)
      · rw [stored_beginStop, happlied, hid]
        rfl

/-! ### Starts -/

/-- A session whose marker is not on the stream becomes active. -/
theorem ending_activate (h : Ending s) (hup : s.up = true) (hnone : s.mem.sessionId = none)
    {stamp : Stamp} {label : Json} {r : Reply} (hnot : .liveEos stamp.id ∉ s.broker.audio) :
    Ending (activate s stamp label r) := by
  refine h.of_quiet (guarded_activate h.guarded hup hnone).2 (E := []) ?_ (by simp)
    (fun id hid ↦ ?_) fun id hid ↦ ?_
  · rw [stored_activate, List.append_nil]
  · have hid' : (activate s stamp label r).mem.sessionId = some stamp.id := by
      rw [mem_activate]
      split <;> rfl
    obtain rfl := Option.some.inj (hid'.symm.trans hid)
    exact Or.inl hnot
  · rw [putting_activate] at hid
    contradiction

/-- A start of an id whose marker is not on the stream begins. -/
theorem ending_beginStart (h : Ending s) (hup : s.up = true) (hidle : s.mem.isActive = false)
    {stamp : Stamp} {label : Json} {r : Reply} (hnot : .liveEos stamp.id ∉ s.broker.audio) :
    Ending (beginStart s stamp label r) := by
  have hguarded : Guarded (beginStart s stamp label r) :=
    (guarded_beginStart h.guarded hup hidle).2
  have hnone : s.mem.sessionId = none := h.guarded.none_of_idle hidle
  rcases hkv : s.mem.sessionKv with - | -
  · rw [beginStart_of_no_kv s stamp label r hkv]
    have hbegan : Ending (s.record (.startBegan stamp.id)) :=
      ⟨⟨h.guarded.flag, h.guarded.putting, h.guarded.down⟩, h.ends, h.closing, h.putting⟩
    exact ending_activate hbegan hup hnone hnot
  · rw [beginStart_of_kv s stamp label r hkv] at hguarded ⊢
    refine h.of_quiet hguarded (E := []) (List.append_nil _).symm (by simp) (fun id hid ↦ ?_) ?_
    · cases hid.symm.trans hnone
    · intro id hid
      obtain rfl := List.mem_singleton.1 hid
      exact hnot

/-- A step of the control loop past the put of a start. -/
theorem Ending.of_ctrl (h : Ending s) (hguarded : Guarded t)
    (haudio : t.broker.audio = s.broker.audio) (hid : t.mem.sessionId = s.mem.sessionId)
    (hloop : t.audio = s.audio) (hstops : s.ctrl.stops = []) (hputting : t.ctrl.putting = []) :
    Ending t := by
  refine h.of_quiet hguarded (E := []) (haudio.trans (List.append_nil _).symm) (by simp)
    (fun id hid' ↦ Or.inr ⟨hid ▸ hid', fun hmem ↦ ?_⟩) fun id hput ↦ ?_
  · obtain ⟨stoppedAt, hpc⟩ := mem_endings.1 hmem
    rw [State.stops, hstops, List.append_nil, ← hloop] at hpc
    exact mem_endings.2 ⟨stoppedAt, List.mem_append_left _ hpc⟩
  · rw [hputting] at hput
    contradiction

/-- The calls of a start publish nothing on a live subject. -/
theorem ending_startStep (h : Ending s) (hup : s.up = true) {pc : StartPc} {r : Reply}
    (hctrl : s.ctrl = .starting pc) : Ending (startStep s pc r) := by
  have hguarded := (guarded_startStep h.guarded hup hctrl (r := r)).2
  have hstops : s.ctrl.stops = [] := by rw [hctrl]; rfl
  cases pc with
  | kvPutting stamp label =>
    have hput : stamp.id ∈ s.ctrl.putting := by
      rw [hctrl]
      exact List.mem_singleton_self _
    exact ending_activate h hup (h.guarded.putting _ hput) (h.putting _ hput)
  | configReading stamp label since value =>
    exact h.of_ctrl hguarded (by simp [startStep, spawnFlush]) rfl (by simp [startStep, spawnFlush])
      hstops rfl
  | eventPublishing => exact h.of_ctrl hguarded rfl rfl rfl hstops rfl

/-! ### The loops -/

/-- A step of the control loop that only moves it. -/
theorem ending_ctrl (h : Ending s) (hstops : s.ctrl.stops = []) {pc : CtrlPc}
    (hpc : pc.putting = []) : Ending { s with ctrl := pc } := by
  refine h.of_ctrl ⟨h.guarded.flag, ?_, h.guarded.down⟩ rfl rfl rfl hstops hpc
  intro id hid
  rw [show ({ s with ctrl := pc } : State).ctrl.putting = [] from hpc] at hid
  contradiction

/-- A command keeps the invariant if the id of a start is new to its live subject, and if no stop
finds its session closing already. -/
theorem ending_handleControlMessage (h : Ending s) (hup : s.up = true) (hctrl : s.ctrl = .fetching)
    {payload : Option Json} {now : Stamp} {r : Reply}
    (hstart : wantsStart payload = true → s.mem.isActive = false → .liveEos now.id ∉ s.broker.audio)
    (hstop : (!(wantsStop payload && (s.mem.isActive && (r.applied && s.closing)))) = true) :
    Ending (handleControlMessage s payload now r) := by
  have hmove : ∀ pc : CtrlPc, pc.putting = [] → Ending { s with ctrl := pc } := fun pc ↦
    ending_ctrl h (by rw [hctrl]; rfl)
  rw [handleControlMessage.eq_def]
  split
  · exact hmove _ rfl
  · rename_i data
    split
    · rename_i hcommand
      split
      · exact hmove _ rfl
      · rename_i hidle
        rw [Bool.not_eq_true] at hidle
        exact ending_beginStart h hup hidle (hstart hcommand hidle)
    · split
      · rename_i hwants
        have hwants' : wantsStop (some (.obj data)) = true := hwants.1
        rw [hwants', hwants.2, Bool.true_and, Bool.true_and] at hstop
        exact ending_beginStop h hup hstop
      · exact hmove _ rfl
  · exact hmove _ rfl

/-- A step of the audio loop, which is in no stop, that only moves it and counts silence. -/
theorem ending_audio (h : Ending s) (hstops : s.audio.stops = []) {mem : Memory} {pc : AudioPc}
    (hid : mem.sessionId = s.mem.sessionId) (hactive : mem.isActive = s.mem.isActive) :
    Ending { s with mem := mem, audio := pc } := by
  have hguarded :=
    (h.guarded.of_kept (t := { s with mem := mem, audio := pc }) hid hactive rfl rfl).2
  refine h.of_quiet hguarded (E := []) (List.append_nil _).symm (by simp)
    (fun id hid' ↦ Or.inr ⟨hid ▸ hid', fun hmem ↦ ?_⟩) h.putting
  obtain ⟨stoppedAt, hpc⟩ := mem_endings.1 hmem
  rw [State.stops, hstops] at hpc
  exact mem_endings.2 ⟨stoppedAt, List.mem_append_right _ hpc⟩

/-- So does a silence check whose stop does not find its session closing already. -/
theorem ending_checkSilence (h : Ending s) (hup : s.up = true) {chunk : Captured}
    (haudio : s.audio = .livePublishing chunk false) {now : Stamp} {r : Reply}
    (hstop : (!(s.silenceReached below && (r.applied && s.closing))) = true) :
    Ending (checkSilence s chunk.data (belowThreshold below chunk.data) now r) := by
  have hstops : s.audio.stops = [] := congrArg AudioPc.stops haudio
  have hcounted : Ending { s with
      mem := s.mem.countSilence chunk.data (belowThreshold below chunk.data), audio := .waiting } :=
    ending_audio h hstops rfl rfl
  simp only [checkSilence]
  split
  · exact ending_audio h hstops rfl rfl
  · rename_i hwhole
    split
    · rename_i hsilent
      refine ending_beginStop hcounted hup ?_
      have hreached : s.silenceReached below = true := by
        rw [State.silenceReached, haudio]
        simpa [hwhole] using hsilent
      rw [hreached, Bool.true_and, State.closing, State.stops, hstops] at hstop
      exact hstop
    · exact hcounted

/-- A chunk goes on the live subject of the active session, unless that is closing. -/
theorem ending_routeChunk (h : Ending s) (haudio : s.audio = .waiting) {data : Bytes} {r : Reply}
    (hquiet : (!(r.applied && s.closing)) = true) : Ending (routeChunk s data r) := by
  have hstops : s.audio.stops = [] := congrArg AudioPc.stops haudio
  rw [routeChunk.eq_def]
  split
  · rename_i id hactive hid
    have hguarded := (h.guarded.of_kept (t := { s.publish (.live id ⟨s.captured, data⟩) r with
      captured := s.captured + 1, audio := .livePublishing ⟨s.captured, data⟩ r.raised })
      (by simp) (by simp) (by simp) (by simp)).2
    cases happlied : r.applied with
    | false =>
      have hmoved : Ending { s with audio := .livePublishing ⟨s.captured, data⟩ r.raised } :=
        ending_audio h hstops rfl rfl
      rw [State.publish, happlied]
      exact ⟨⟨h.guarded.flag, h.guarded.putting, h.guarded.down⟩, hmoved.ends, hmoved.closing,
        hmoved.putting⟩
    | true =>
      have hmsg : (Stored.live id ⟨s.captured, data⟩).onLive = some id := rfl
      refine h.of_live hguarded hid (by simp) (fun hmarker ↦ ?_) hmsg ?_ (by simp)
      · rw [happlied, Bool.true_and, State.closing, Bool.not_eq_true', List.any_eq_false] at hquiet
        exact hquiet id (h.closing id hid hmarker) (decide_eq_true ⟨hid, hmarker⟩)
      · simp [happlied]
  · have hmoved : Ending { s with audio := .prerollPublishing } := ending_audio h hstops rfl rfl
    refine ⟨⟨h.guarded.flag, h.guarded.putting, h.guarded.down⟩, ?_, ?_, ?_⟩
    · split <;> exact hmoved.ends
    · split <;> exact hmoved.closing
    · split <;> exact hmoved.putting

theorem onLive_eq_none {msg : Stored} (h : msg.isBackfill = true) : msg.onLive = none := by
  cases msg <;> first | rfl | contradiction

/-- The flush tasks publish on the backfill subject alone. -/
theorem ending_flushStep (h : Ending s) {i : ℕ} {f : Flush} {answer : Fetched} {r : Reply} :
    Ending (flushStep s i f answer r) := by
  have hF := flushed_flushStep s i f answer r
  have hguarded := (h.guarded.of_kept (congrArg _ hF.mem) (congrArg _ hF.mem)
    (congrArg _ hF.ctrl) hF.up).2
  have hactive : ∀ id, (flushStep s i f answer r).mem.sessionId = some id →
      .liveEos id ∉ s.broker.audio ∨ s.mem.sessionId = some id ∧
        (id ∈ endings s.stops → id ∈ endings (flushStep s i f answer r).stops) := by
    intro id hid
    rw [hF.mem] at hid
    refine Or.inr ⟨hid, fun hmem ↦ ?_⟩
    rwa [State.stops, hF.audio, hF.ctrl]
  have hputting : ∀ id ∈ (flushStep s i f answer r).ctrl.putting, .liveEos id ∉ s.broker.audio := by
    rw [hF.ctrl]
    exact h.putting
  rcases hF.stored with hsame | ⟨msg, hmsg, hnew⟩
  · exact h.of_quiet hguarded (E := []) (hsame.trans (List.append_nil _).symm) (by simp) hactive
      hputting
  · refine h.of_quiet hguarded hnew (fun msg' hmsg' ↦ ?_) hactive hputting
    rw [List.mem_singleton.1 hmsg']
    exact onLive_eq_none hmsg

/-- A recovery takes up a session whose marker is not on the stream. -/
theorem ending_boot (h : Ending s) (hdown : s.up = false) {sessionKv configKv raised : Bool}
    (hquiet : sessionKv = true ∧ raised = false → ∀ id ∈ s.entryId, .liveEos id ∉ s.broker.audio) :
    Ending (boot s sessionKv configKv raised) := by
  have hguarded : Guarded (boot s sessionKv configKv raised) := (guarded_boot h.guarded hdown).2
  refine h.of_quiet hguarded (E := []) (by simp) (by simp) (fun id hid ↦ ?_)
    (by simp [CtrlPc.putting])
  obtain ⟨hread, hentry⟩ := entryId_of_boot hid
  exact Or.inl (hquiet hread id hentry)

/-- **One step.** -/
theorem ending_step {a : Action} (h : Ending s) (hquiet : undisturbed below s a = true)
    (ht : step below s a = some t) : Ending t := by
  cases stepped_of_step ht with
  | boot hdown sessionKv configKv raised => exact ending_boot h hdown (of_decide_eq_true hquiet)
  | crash hup =>
    refine h.of_quiet (guarded_step h.guarded ht).2 (E := []) (List.append_nil _).symm (by simp)
      (fun id hid ↦ ?_) (by simp [crash, CtrlPc.putting])
    contradiction
  | chunk hup haudio data r => exact ending_routeChunk h haudio hquiet
  | published hup haudio now r => exact ending_checkSilence h hup haudio hquiet
  | dropped hup haudio now r => exact ending_audio h (congrArg AudioPc.stops haudio) rfl rfl
  | buffered hup haudio now r => exact ending_audio h (congrArg AudioPc.stops haudio) rfl rfl
  | audioStop hup haudio now r =>
    refine ending_stopStep h hup ?_
    rw [State.stops, haudio]
    exact List.Perm.refl _
  | subscribed hup hctrl ok =>
    exact ending_ctrl h (congrArg CtrlPc.stops hctrl) (by cases ok <;> rfl)
  | message hup hctrl payload now r =>
    obtain ⟨hstart, hstop⟩ := of_decide_eq_true hquiet
    exact ending_handleControlMessage h hup hctrl hstart hstop
  | ctrlStart hup hctrl r => exact ending_startStep h hup hctrl
  | ctrlStop hup hctrl r =>
    refine ending_stopStep h hup ?_
    rw [State.stops, hctrl]
    exact List.perm_append_comm
  | @ctrlAcked raised hup hctrl r =>
    exact ending_ctrl h (congrArg CtrlPc.stops hctrl) (by cases raised <;> rfl)
  | ctrlExit hup hctrl => exact ending_ctrl h (congrArg CtrlPc.stops hctrl) rfl
  | flush hup hi answer r => exact ending_flushStep h
  | expire n =>
    exact ⟨⟨h.guarded.flag, h.guarded.putting, h.guarded.down⟩, h.ends, h.closing, h.putting⟩
  | setConfig value =>
    exact ⟨⟨h.guarded.flag, h.guarded.putting, h.guarded.down⟩, h.ends, h.closing, h.putting⟩

theorem ending_inductive (below : Bytes → Bool) :
    (system below).Inductive (fun s a ↦ undisturbed below s a = true) Ending where
  init s hs := by
    obtain rfl : s = {} := hs
    exact ⟨⟨rfl, by simp, fun _ ↦ rfl⟩, List.Pairwise.nil, by simp, by simp⟩
  step h hG ht := ending_step h hG ht

end Steps

/-! ### The marker is final -/

/-- **The EOS marker is the last message on its live subject**, in every run in which nothing is
published between the marker and idle, and no session with a marker is started or recovered. -/
theorem live_ends {below : Bytes → Bool} {s : State}
    (h : (system below).Reachable (fun s a ↦ undisturbed below s a = true) s) :
    LiveEnds s.broker.audio :=
  ((ending_inductive below).reachable h).ends

/-- Two sessions, each with a chunk and a marker. -/
theorem live_ends_two :
    ∃ s, (system silent).Reachable (fun s a ↦ undisturbed silent s a = true) s ∧
      s.eosIds = [first.id, second.id] ∧ LiveEnds s.broker.audio := by
  obtain ⟨s, hs, htest⟩ := TransitionSystem.exists_reachable_of_exec
    (M := system silent) (G := fun s a ↦ undisturbed silent s a = true) {}
    (running ++ starting first ++ started ++ silentChunks first 0 ++
      [.audio first .ok, .message (command "stop") first .ok, .ctrl .ok, .ctrl .ok, .ctrl .ok,
        .ctrl .ok] ++
      starting second ++ started ++ silentChunks second 0 ++
      [.audio second .ok, .message (command "stop") second .ok])
    (fun s ↦ s.eosIds = [first.id, second.id]) rfl (by decide +kernel)
  exact ⟨s, hs, of_decide_eq_true htest, live_ends hs⟩

/-- A chunk published while the stop of its session is suspended at the marker follows the
marker. -/
theorem not_liveEnds_of_closing {below : Bytes → Bool} {s t : State} {data : Bytes} {r : Reply}
    (hguarded : Guarded s) (hclosing : s.closing = true) (happlied : r.applied = true)
    (ht : step below s (.chunk data r) = some t) : ¬ LiveEnds t.broker.audio := by
  obtain ⟨id, -, hid⟩ := List.any_eq_true.1 hclosing
  obtain ⟨hsession, hmarker⟩ := of_decide_eq_true hid
  have hactive : s.mem.isActive = true := by rw [hguarded.flag, hsession]; rfl
  cases stepped_of_step ht with
  | chunk hup haudio _ _ =>
    rw [routeChunk, hactive, hsession]
    simp only [broker_publish, happlied, if_true]
    intro hends
    exact (List.pairwise_append.1 hends).2.2 _ hmarker _ (List.mem_singleton_self _) id rfl rfl

/-- A chunk is captured while a stop command waits for its marker: all calls succeed, and the chunk
is stored behind the marker. -/
theorem chunk_after_eos :
    ∃ s, (system silent).Reachable (fun _ a ↦ a.callsSucceed = true) s ∧
      s.broker.audio = [.live first.id ⟨0, silence⟩, .liveEos first.id,
        .live first.id ⟨1, silence⟩] ∧
      ¬ LiveEnds s.broker.audio := by
  obtain ⟨s, hs, htest⟩ := TransitionSystem.exists_reachable_of_exec
    (M := system silent) (G := fun _ a ↦ a.callsSucceed = true) {}
    (running ++ starting first ++ started ++ silentChunks first 0 ++
      [.audio first .ok, .message (command "stop") second .ok, .chunk silence .ok])
    (fun s ↦ s.broker.audio =
      [.live first.id ⟨0, silence⟩, .liveEos first.id, .live first.id ⟨1, silence⟩] ∧
      ¬ LiveEnds s.broker.audio) rfl (by decide +kernel)
  exact ⟨s, hs, of_decide_eq_true htest⟩

end LiveSTT.AudioProducer
