import LiveSTT.AudioProducer.OneSession

/-!
# Ids of sessions

A session id is the second its start took it in, so two starts can take the same one. Whatever bears
an id (the active session, a flush task, a message on the audio stream, the KV entry) bears that of
a start, and when a start is about to make its session active and something bears its id already,
the id was taken twice (`Claimed`). So the session of an id that one start took begins with nothing.

`State.Opened` collects what can bear an id. The rest of the module says of each function of the
source that it opens no session but one whose id a start has taken, and, for the announcements, that
it announces none but one that it has opened. Nothing is assumed of the steps, neither of the calls
nor of the clock.
-/

namespace LiveSTT.AudioProducer

/-- The session of a message on the audio stream. -/
def Stored.session : Stored → SessionId
  | .live id _ => id
  | .liveEos id => id
  | .backfill id _ _ => id
  | .backfillEos id => id

/-- The session is active, its flush task is about to be spawned or under way, or it has a message
on the audio stream. -/
inductive State.Opened (s : State) (id : SessionId) : Prop
  | active (h : s.mem.sessionId = some id)
  | spawning (h : id ∈ s.ctrl.spawning)
  | flushed (f : Flush) (hf : f ∈ s.flushes) (hid : f.id = id)
  | stored (msg : Stored) (hmsg : msg ∈ s.broker.audio) (hid : msg.session = id)

/-- Every id was taken by a start, and by two if a start is about to activate it anew. -/
structure Claimed (s : State) : Prop where
  opened : ∀ id, s.Opened id → id ∈ s.started
  entry : ∀ id, s.entryId = some id → id ∈ s.started
  putting : ∀ id ∈ s.ctrl.putting, id ∈ s.started ∧ (s.Opened id → 2 ≤ s.started.count id)

/-- A step of a flush task moves it on with messages of its session, or ends it. -/
inductive FlushMoved (s t : State) (i : ℕ) (f : Flush) : Prop
  | moved (pc : FlushPc) (E : List Stored)
      (hflushes : t.flushes = s.flushes.set i { f with pc := pc })
    (hstored : t.broker.audio = s.broker.audio ++ E) (hE : ∀ msg ∈ E, msg.session = f.id)
  | ended (hflushes : t.flushes = s.flushes.eraseIdx i) (hstored : t.broker.audio = s.broker.audio)

section FlushMoved

variable (s : State) (i : ℕ) (f : Flush) (r : Reply)

theorem flushMoved_setFlush (pc : FlushPc) : FlushMoved s (s.setFlush i f pc) i f :=
  FlushMoved.moved pc [] rfl (List.append_nil _).symm (by simp)

/-- A message of its session, and the task at its next call. -/
theorem flushMoved_publish {msg : Stored} (hmsg : msg.session = f.id) (pc : FlushPc) :
    FlushMoved s ((s.publish msg r).setFlush i f pc) i f := by
  refine FlushMoved.moved pc (if r.applied then [msg] else []) ?_ ?_ fun msg' hmsg' ↦ ?_
  · rw [State.setFlush, flushes_publish]
  · rw [State.setFlush, broker_publish]
  · split at hmsg'
    · rw [List.mem_singleton.1 hmsg', hmsg]
    · contradiction

theorem flushMoved_flushBatch (cursor : ℕ) (batch : List Captured) :
    FlushMoved s (flushBatch s i f cursor batch r) i f := by
  cases batch with
  | nil => exact flushMoved_setFlush s i f _
  | cons chunk rest => exact flushMoved_publish s i f r rfl _

/-- Every call of a flush task is of this form. -/
theorem flushMoved_flushStep (answer : Fetched) : FlushMoved s (flushStep s i f answer r) i f := by
  rw [flushStep.eq_def]
  split
  · split
    · exact FlushMoved.ended rfl rfl
    · exact flushMoved_setFlush s i f _
  · split
    · split
      · exact flushMoved_publish s i f r rfl _
      · exact flushMoved_flushBatch s i f r _ _
    · exact flushMoved_publish s i f r rfl _
  · exact flushMoved_setFlush s i f _
  · exact flushMoved_publish s i f r rfl _
  · exact flushMoved_flushBatch s i f r _ _
  · exact flushMoved_publish s i f r rfl _
  · exact FlushMoved.ended rfl rfl

end FlushMoved

section Steps

variable {below : Bytes → Bool} {s t : State} {w : Coroutine}

/-- A step after which nothing bears an id that was not borne before. -/
theorem Claimed.of_opened (h : Claimed s) (hstarted : t.started = s.started)
    (hopened : ∀ id, t.Opened id → s.Opened id)
    (hentry : ∀ id, t.entryId = some id → s.entryId = some id)
    (hputting : ∀ id ∈ t.ctrl.putting, id ∈ s.ctrl.putting) : Claimed t := by
  refine ⟨fun id hid ↦ ?_, fun id hid ↦ ?_, fun id hid ↦ ?_⟩
  · rw [hstarted]
    exact h.opened id (hopened id hid)
  · rw [hstarted]
    exact h.entry id (hentry id hid)
  · rw [hstarted]
    obtain ⟨hmem, htwice⟩ := h.putting id (hputting id hid)
    exact ⟨hmem, fun ho ↦ htwice (hopened id ho)⟩

/-- Messages of borne ids on the stream, and nothing else new. -/
theorem opened_of_stored {E : List Stored} (hid : ∀ id, t.mem.sessionId = some id → s.Opened id)
    (hspawning : ∀ id ∈ t.ctrl.spawning, s.Opened id) (hflushes : ∀ f ∈ t.flushes, s.Opened f.id)
    (hstored : t.broker.audio = s.broker.audio ++ E) (hE : ∀ msg ∈ E, s.Opened msg.session) :
    ∀ id, t.Opened id → s.Opened id := by
  intro id ho
  cases ho with
  | active h => exact hid id h
  | spawning h => exact hspawning id h
  | flushed f hf hfid => exact hfid ▸ hflushes f hf
  | stored msg hmsg hmid =>
    rw [hstored] at hmsg
    rcases List.mem_append.1 hmsg with hold | hnew
    · exact State.Opened.stored msg hold hmid
    · exact hmid ▸ hE msg hnew

/-- The stream and the flush tasks as before. -/
theorem opened_of_eq (hmem : ∀ id, t.mem.sessionId = some id → s.mem.sessionId = some id)
    (hspawning : ∀ id ∈ t.ctrl.spawning, id ∈ s.ctrl.spawning) (hflushes : t.flushes = s.flushes)
    (hstored : t.broker.audio = s.broker.audio) : ∀ id, t.Opened id → s.Opened id :=
  opened_of_stored (E := []) (fun id hid ↦ State.Opened.active (hmem id hid))
    (fun id hid ↦ State.Opened.spawning (hspawning id hid))
    (fun f hf ↦ State.Opened.flushed f (hflushes ▸ hf) rfl)
    (hstored.trans (List.append_nil _).symm) (by simp)

/-! ### Stops -/

theorem sessionId_of_mem {mem mem' : Memory} (h : mem' = mem ∨ mem' = mem.idle) :
    ∀ id, mem'.sessionId = some id → mem.sessionId = some id := by
  rintro id hid
  rcases h with rfl | rfl
  · exact hid
  · contradiction

theorem claimed_stopStep (h : Claimed s) {pc : StopPc} {r : Reply} :
    Claimed (stopStep s pc r w) := by
  have hS : Stopping w s (stopStep s pc r w) := stopping_stopStep
  exact h.of_opened hS.started (opened_of_eq (sessionId_of_mem (mem_stopStep s r w pc))
    hS.loops.spawning hS.flushes (stored_stopStep s r w pc)) (entryId_stopStep s r w pc)
    hS.loops.putting

/-- A stop takes no id and opens no session. -/
theorem claimed_beginStop (h : Claimed s) {now : Stamp} {r : Reply} :
    Claimed (beginStop s now r w) := by
  have hS : Stopping w s (beginStop s now r w) := stopping_beginStop
  refine h.of_opened hS.started (opened_of_stored (fun id hid ↦ ?_)
    (fun id hid ↦ State.Opened.spawning (hS.loops.spawning id hid))
    (fun f hf ↦ State.Opened.flushed f (hS.flushes ▸ hf) rfl) (stored_beginStop s r w now)
    fun msg hmsg ↦ ?_) (entryId_beginStop s r w now) hS.loops.putting
  · rw [mem_beginStop] at hid
    exact State.Opened.active (sessionId_of_mem (ite_eq_or_eq _ _ _) id hid)
  · split at hmsg
    · obtain ⟨id, hid, rfl⟩ := List.mem_map.1 hmsg
      exact State.Opened.active (Option.mem_toList.1 hid)
    · contradiction

/-! ### Starts -/

theorem started_activate (stamp : Stamp) (label : Json) (r : Reply) :
    (activate s stamp label r).started = s.started := by
  rw [activate]
  split
  · exact started_record rfl
  · exact (started_of_trace (trace_announce _ _ r)).trans (started_record rfl)

theorem entryId_activate (stamp : Stamp) (label : Json) (r : Reply) :
    (activate s stamp label r).entryId = s.entryId := by
  rw [activate]
  split
  · rfl
  · simp [spawnFlush, State.entryId, State.makeActive, State.record]

/-- After an activation, its session bears the id, and nothing else does that did not. -/
theorem opened_activate (stamp : Stamp) (label : Json) (r : Reply) (id : SessionId)
    (ho : (activate s stamp label r).Opened id) : id = stamp.id ∨ s.Opened id := by
  cases ho with
  | active h =>
    have hid : (activate s stamp label r).mem.sessionId = some stamp.id := by
      rw [mem_activate]
      split <;> rfl
    exact Or.inl (Option.some.inj (h.symm.trans hid))
  | spawning h =>
    rw [activate] at h
    split at h
    · exact Or.inl (List.mem_singleton.1 h)
    · contradiction
  | flushed f hf hid =>
    rw [activate] at hf
    split at hf
    · exact Or.inr (State.Opened.flushed f hf hid)
    · rcases List.mem_append.1 hf with hold | hnew
      · exact Or.inr (State.Opened.flushed f hold hid)
      · rw [List.mem_singleton.1 hnew] at hid
        exact Or.inl hid.symm
  | stored msg hmsg hid =>
    rw [stored_activate] at hmsg
    exact Or.inr (State.Opened.stored msg hmsg hid)

/-- The id of the session that becomes active was taken by its start. -/
theorem claimed_activate (h : Claimed s) {stamp : Stamp} {label : Json} {r : Reply}
    (hstarted : stamp.id ∈ s.started) : Claimed (activate s stamp label r) := by
  refine ⟨fun id ho ↦ ?_, fun id hid ↦ ?_, fun id hid ↦ ?_⟩
  · rw [started_activate]
    rcases opened_activate stamp label r id ho with rfl | hold
    · exact hstarted
    · exact h.opened id hold
  · rw [started_activate]
    rw [entryId_activate] at hid
    exact h.entry id hid
  · rw [putting_activate] at hid
    contradiction

theorem started_startBegan (id : SessionId) :
    (s.record (.startBegan id)).started = s.started ++ [id] := by
  rw [State.started, State.record, List.filterMap_append]
  rfl

/-- A start takes the id `id`, perhaps once more. -/
theorem claimed_startBegan (h : Claimed s) (id : SessionId) (hputting : s.ctrl.putting = []) :
    Claimed (s.record (.startBegan id)) := by
  refine ⟨fun id' ho ↦ ?_, fun id' hid ↦ ?_, fun id' hid ↦ ?_⟩
  · rw [started_startBegan]
    refine List.mem_append_left _ (h.opened id' ?_)
    cases ho with
    | active h => exact State.Opened.active h
    | spawning h => exact State.Opened.spawning h
    | flushed f hf hid => exact State.Opened.flushed f hf hid
    | stored msg hmsg hid => exact State.Opened.stored msg hmsg hid
  · rw [started_startBegan]
    exact List.mem_append_left _ (h.entry id' hid)
  · have hid' : id' ∈ s.ctrl.putting := hid
    rw [hputting] at hid'
    contradiction

/-- A start takes its id, and waits for its put or activates the session at once. -/
theorem claimed_beginStart (h : Claimed s) (hputting : s.ctrl.putting = [])
    {stamp : Stamp} {label : Json} {r : Reply} : Claimed (beginStart s stamp label r) := by
  have hbegan := claimed_startBegan h stamp.id hputting
  have hmem : stamp.id ∈ (s.record (.startBegan stamp.id)).started := by
    rw [started_startBegan]
    exact List.mem_append_right _ (List.mem_singleton_self _)
  rcases hkv : s.mem.sessionKv with - | -
  · rw [beginStart_of_no_kv s stamp label r hkv]
    exact claimed_activate hbegan hmem
  · have hstarted : (beginStart s stamp label r).started = s.started ++ [stamp.id] := by
      rw [beginStart_of_kv s stamp label r hkv, State.started, List.filterMap_append]
      cases r <;> rfl
    have hopened : ∀ id, (beginStart s stamp label r).Opened id → s.Opened id := by
      rw [beginStart_of_kv s stamp label r hkv]
      exact opened_of_eq (fun _ hid ↦ hid) (by simp [CtrlPc.spawning]) rfl rfl
    refine ⟨fun id ho ↦ ?_, fun id hid ↦ ?_, fun id hid ↦ ?_⟩
    · rw [hstarted]
      exact List.mem_append_left _ (h.opened id (hopened id ho))
    · rw [hstarted]
      rw [beginStart_of_kv s stamp label r hkv] at hid
      cases happlied : r.applied with
      | true =>
        rw [State.entryId, happlied] at hid
        obtain rfl := Option.some.inj hid
        exact List.mem_append_right _ (List.mem_singleton_self _)
      | false =>
        rw [State.entryId, happlied] at hid
        exact List.mem_append_left _ (h.entry id hid)
    · rw [beginStart_of_kv s stamp label r hkv] at hid
      obtain rfl := List.mem_singleton.1 hid
      rw [hstarted]
      refine ⟨List.mem_append_right _ (List.mem_singleton_self _), fun ho ↦ ?_⟩
      -- An earlier start took the id, and this one does.
      have hbefore := List.count_pos_iff.2 (h.opened _ (hopened _ ho))
      rw [List.count_append, List.count_singleton_self]
      omega

/-- The flush task is spawned for the session whose config was read. -/
theorem claimed_spawnFlush (h : Claimed s) {stamp : Stamp} {label : Json} {since : ℕ}
    {value : Option ℤ} {r : Reply}
    (hctrl : s.ctrl = .starting (.configReading stamp label since value)) :
    Claimed (spawnFlush s stamp label since value r) := by
  refine h.of_opened (started_of_trace (trace_announce _ _ r)) (opened_of_stored (E := [])
    (fun id hid ↦ State.Opened.active hid) (by simp [spawnFlush, CtrlPc.spawning]) (fun f hf ↦ ?_)
    (by simp [spawnFlush]) (by simp)) (by simp [spawnFlush, State.entryId])
    (by simp [spawnFlush, CtrlPc.putting])
  rcases List.mem_append.1 hf with hold | hnew
  · exact State.Opened.flushed f hold rfl
  · rw [List.mem_singleton.1 hnew]
    refine State.Opened.spawning ?_
    rw [hctrl]
    exact List.mem_singleton_self _

/-- The calls of a start go on with the id it has taken. -/
theorem claimed_startStep (h : Claimed s) {pc : StartPc} {r : Reply}
    (hctrl : s.ctrl = .starting pc) : Claimed (startStep s pc r) := by
  cases pc with
  | kvPutting stamp label =>
    refine claimed_activate h (h.putting stamp.id ?_).1
    rw [hctrl]
    exact List.mem_singleton_self _
  | configReading stamp label since value => exact claimed_spawnFlush h hctrl
  | eventPublishing =>
    exact h.of_opened rfl (opened_of_eq (fun _ hid ↦
      hid) (by simp [startStep, CtrlPc.spawning]) rfl rfl)
      (fun _ hid ↦ hid) (by simp [startStep, CtrlPc.putting])

/-! ### The loops -/

/-- A step that moves the loops, away from any start. -/
theorem claimed_moved (h : Claimed s) (hstarted : t.started = s.started)
    (hid : t.mem.sessionId = s.mem.sessionId)
    (hspawning : ∀ id ∈ t.ctrl.spawning, id ∈ s.ctrl.spawning)
    (hputting : ∀ id ∈ t.ctrl.putting, id ∈ s.ctrl.putting) (hflushes : t.flushes = s.flushes)
    (hstored : t.broker.audio = s.broker.audio) (hentry : t.entryId = s.entryId) : Claimed t :=
  h.of_opened hstarted (opened_of_eq (fun _ hid' ↦ hid ▸ hid') hspawning hflushes hstored)
    (fun _ hid' ↦ hentry ▸ hid') hputting

theorem claimed_ctrl (h : Claimed s) {pc : CtrlPc} (hspawning : pc.spawning = [])
    (hputting : pc.putting = []) : Claimed { s with ctrl := pc } :=
  claimed_moved h rfl rfl (by rw [hspawning]; simp) (by rw [hputting]; simp) rfl rfl rfl

/-- A command begins a start or a stop. -/
theorem claimed_handleControlMessage (h : Claimed s) (hctrl : s.ctrl = .fetching)
    {payload : Option Json} {now : Stamp} {r : Reply} :
    Claimed (handleControlMessage s payload now r) := by
  rw [handleControlMessage.eq_def]
  split
  · exact claimed_ctrl h rfl rfl
  · split
    · split
      · exact claimed_ctrl h rfl rfl
      · exact claimed_beginStart h (by rw [hctrl]; rfl)
    · split
      · exact claimed_beginStop h
      · exact claimed_ctrl h rfl rfl
  · exact claimed_ctrl h rfl rfl

theorem claimed_audio (h : Claimed s) {mem : Memory} {pc : AudioPc}
    (hid : mem.sessionId = s.mem.sessionId) : Claimed { s with mem := mem, audio := pc } :=
  claimed_moved h rfl hid (fun _ hid' ↦ hid') (fun _ hid' ↦ hid') rfl rfl rfl

/-- A chunk is published for the active session, which has its id. -/
theorem claimed_routeChunk (h : Claimed s) {data : Bytes} {r : Reply} :
    Claimed (routeChunk s data r) := by
  rw [routeChunk.eq_def]
  split
  · rename_i id hactive hid
    refine h.of_opened (started_of_trace (trace_publish _ _ r)) (opened_of_stored
      (E := if r.applied then [.live id ⟨s.captured, data⟩] else [])
      (fun id' hid' ↦ State.Opened.active (by simpa using hid'))
      (fun id' hid' ↦ State.Opened.spawning (by simpa using hid'))
      (fun f hf ↦ State.Opened.flushed f (by simpa using hf) rfl) (by simp) fun msg hmsg ↦ ?_)
      (by simp [State.entryId]) (by simp)
    split at hmsg
    · rw [List.mem_singleton.1 hmsg]
      exact State.Opened.active hid
    · contradiction
  · refine claimed_moved h rfl rfl (fun _ hid ↦ hid) (fun _ hid ↦ hid) rfl ?_ ?_
    · show Broker.audio (if r.applied = true then _ else _) = _
      split <;> rfl
    · show Option.map _ (Broker.current (if r.applied = true then _ else _)) = _
      split <;> rfl

/-- The silence check may begin a stop. -/
theorem claimed_checkSilence (h : Claimed s) {data : Bytes} {b : Bool} {now : Stamp} {r : Reply} :
    Claimed (checkSilence s data b now r) := by
  simp only [checkSilence]
  split
  · exact claimed_audio h rfl
  · split
    · have hcounted : Claimed { s with mem := s.mem.countSilence data b, audio := .waiting } :=
        claimed_audio h rfl
      exact claimed_beginStop hcounted
    · exact claimed_audio h rfl

theorem started_flushStep (s : State) (i : ℕ) (f : Flush) (answer : Fetched) (r : Reply) :
    (flushStep s i f answer r).started = s.started := by
  rcases (flushed_flushStep s i f answer r).trace with hsame | ⟨id, hnew⟩
  · exact started_of_trace hsame
  · rw [State.started, hnew, List.filterMap_append, State.started]
    exact List.append_nil _

/-- A flush task works for its own session. -/
theorem claimed_flushStep (h : Claimed s) {i : ℕ} {f : Flush} (hi : s.flushes[i]? = some f)
    {answer : Fetched} {r : Reply} : Claimed (flushStep s i f answer r) := by
  have hF := flushed_flushStep s i f answer r
  have hf : s.Opened f.id := State.Opened.flushed f (List.mem_of_getElem? hi) rfl
  have hstarted := started_flushStep s i f answer r
  have hentry : ∀ id, (flushStep s i f answer r).entryId = some id → s.entryId = some id := by
    rw [State.entryId, hF.current]
    exact fun _ hid ↦ hid
  have hactive : ∀ id, (flushStep s i f answer r).mem.sessionId = some id → s.Opened id := by
    rw [hF.mem]
    exact fun id hid ↦ State.Opened.active hid
  have hspawning : ∀ id ∈ (flushStep s i f answer r).ctrl.spawning, s.Opened id := by
    rw [hF.ctrl]
    exact fun id hid ↦ State.Opened.spawning hid
  have hputting : ∀ id ∈ (flushStep s i f answer r).ctrl.putting, id ∈ s.ctrl.putting := by
    rw [hF.ctrl]
    exact fun id hid ↦ hid
  cases flushMoved_flushStep s i f r answer with
  | moved pc E hflushes hstored hE =>
    refine h.of_opened hstarted (opened_of_stored hactive hspawning (fun g hg ↦ ?_) hstored
      fun msg hmsg ↦ (hE msg hmsg).symm ▸ hf) hentry hputting
    rw [hflushes] at hg
    rcases List.mem_or_eq_of_mem_set hg with hold | rfl
    · exact State.Opened.flushed g hold rfl
    · exact hf
  | ended hflushes hstored =>
    refine h.of_opened hstarted (opened_of_stored (E := []) hactive hspawning (fun g hg ↦ ?_)
      (hstored.trans (List.append_nil _).symm) (by simp)) hentry hputting
    rw [hflushes] at hg
    exact State.Opened.flushed g (List.mem_of_mem_eraseIdx hg) rfl

/-! ### The process -/

/-- The recovery takes the session of the KV entry, whose id was taken before. -/
theorem claimed_boot (h : Claimed s) {sessionKv configKv raised : Bool} :
    Claimed (boot s sessionKv configKv raised) := by
  have hstarted := started_boot s sessionKv configKv raised
  refine ⟨fun id ho ↦ ?_, fun id hid ↦ ?_, by simp [CtrlPc.putting]⟩
  · rw [hstarted]
    cases ho with
    | active hid => exact h.entry id (entryId_of_boot hid).2
    | spawning hid => simp [CtrlPc.spawning] at hid
    | flushed f hf _ =>
      rw [flushes_boot] at hf
      contradiction
    | stored msg hmsg hid =>
      rw [broker_boot] at hmsg
      exact h.opened id (State.Opened.stored msg hmsg hid)
  · rw [hstarted]
    rw [State.entryId, broker_boot] at hid
    exact h.entry id hid

/-- A crash takes no id back. -/
theorem started_crash (s : State) : (crash s).started = s.started := by
  have hcut :
      ((s.ctrl.starts ++ s.flushes.map Flush.id).map Event.cut).filterMap Event.startOf = [] := by
    refine List.filterMap_eq_nil_iff.2 fun e he ↦ ?_
    obtain ⟨id, -, rfl⟩ := List.mem_map.1 he
    rfl
  show (s.trace ++ _).filterMap Event.startOf = _
  rw [List.filterMap_append, hcut, List.append_nil, State.started]

theorem claimed_crash (h : Claimed s) : Claimed (crash s) :=
  h.of_opened (started_crash s) (opened_of_stored (E := []) (by simp [crash])
    (by simp [crash, CtrlPc.spawning]) (by simp [crash]) (List.append_nil _).symm (by simp))
    (fun _ hid ↦ hid) (by simp [crash, CtrlPc.putting])

/-- **One step.** -/
theorem claimed_step {a : Action} (h : Claimed s) (ht : step below s a = some t) : Claimed t := by
  cases stepped_of_step ht with
  | boot hdown sessionKv configKv raised => exact claimed_boot h
  | crash hup => exact claimed_crash h
  | chunk hup haudio data r => exact claimed_routeChunk h
  | published hup haudio now r => exact claimed_checkSilence h
  | dropped hup haudio now r => exact claimed_audio h rfl
  | buffered hup haudio now r => exact claimed_audio h rfl
  | audioStop hup haudio now r => exact claimed_stopStep h
  | subscribed hup hctrl ok => exact claimed_ctrl h (by cases ok <;> rfl) (by cases ok <;> rfl)
  | message hup hctrl payload now r => exact claimed_handleControlMessage h hctrl
  | ctrlStart hup hctrl r => exact claimed_startStep h hctrl
  | ctrlStop hup hctrl r => exact claimed_stopStep h
  | @ctrlAcked raised hup hctrl r =>
    exact claimed_ctrl h (by cases raised <;> rfl) (by cases raised <;> rfl)
  | ctrlExit hup hctrl => exact claimed_ctrl h rfl rfl
  | flush hup hi answer r => exact claimed_flushStep h hi
  | expire n => exact claimed_moved h rfl rfl (fun _ hid ↦ hid) (fun _ hid ↦ hid) rfl rfl rfl
  | setConfig value => exact claimed_moved h rfl rfl (fun _ hid ↦ hid) (fun _ hid ↦ hid) rfl rfl rfl

/-- It is an invariant under any assumption on the steps. -/
theorem claimed_inductive (below : Bytes → Bool) (G : State → Action → Prop) :
    (system below).Inductive G Claimed where
  init s hs := by
    obtain rfl : s = {} := hs
    refine ⟨fun id ho ↦ ?_, by simp [State.entryId], by simp [CtrlPc.putting]⟩
    cases ho with
    | active h => contradiction
    | spawning h => simp [CtrlPc.spawning] at h
    | flushed f hf _ => contradiction
    | stored msg hmsg _ => contradiction
  step h _ ht := claimed_step h ht

/-! ### Start events -/

/-- The session of a start event. -/
def Lifecycle.startOf : Lifecycle → Option SessionId
  | .started id _ _ => some id
  | .stopped _ _ => none

/-- The sessions whose start was announced. -/
def State.announced (s : State) : List SessionId := s.broker.events.filterMap Lifecycle.startOf

theorem announced_of_events (h : t.broker.events = s.broker.events) :
    t.announced = s.announced := by
  rw [State.announced, h, State.announced]

/-- A lifecycle event that the broker has taken is announced. -/
theorem announced_announce (s : State) (e : Lifecycle) (r : Reply) :
    (s.announce e r).announced = s.announced ++ if r.applied then e.startOf.toList else [] := by
  rw [State.announce]
  split
  · show (s.broker.events ++ [e]).filterMap Lifecycle.startOf = _
    rw [List.filterMap_append, State.announced]
    cases he : e.startOf <;> simp [he]
  · exact (List.append_nil _).symm

theorem announced_announceStop {captured : Option SessionId} {stoppedAt : String} {cleared : Bool}
    {r : Reply} : (announceStop s captured stoppedAt cleared r w).announced = s.announced := by
  rw [announceStop, announced_of_events (congrArg Broker.events (broker_suspendStop _ _ _)),
    announced_announce]
  cases r <;> exact List.append_nil _

/-- The end of a stop announces no start. -/
theorem announced_idleStop {captured : Option SessionId} {stoppedAt : String} {r : Reply} :
    (idleStop s captured stoppedAt r w).announced = s.announced := by
  rw [idleStop]
  split
  · refine announced_of_events ?_
    rw [broker_suspendStop]
    rfl
  · exact announced_announceStop

/-- Nor does its beginning. -/
theorem announced_beginStop {now : Stamp} {r : Reply} :
    (beginStop s now r w).announced = s.announced := by
  rw [beginStop.eq_def]
  split
  · refine announced_of_events ?_
    rw [broker_suspendStop, broker_publish]
    rfl
  · exact announced_idleStop

theorem announced_stopStep {pc : StopPc} {r : Reply} :
    (stopStep s pc r w).announced = s.announced := by
  cases pc with
  | eosPublishing id stoppedAt => exact announced_idleStop
  | kvDeleting captured stoppedAt cleared => exact announced_announceStop
  | eventPublishing captured cleared => exact announced_of_events (by simp [stopStep])

/-- A start is announced when its flush task is spawned. -/
theorem announced_spawnFlush {stamp : Stamp} {label : Json} {since : ℕ} {value : Option ℤ}
    {r : Reply} :
    ∀ id ∈ (spawnFlush s stamp label since value r).announced,
      id ∈ s.announced ∨ (spawnFlush s stamp label since value r).Opened id := by
  intro id hid
  have hannounced : (spawnFlush s stamp label since value r).announced = _ :=
    announced_announce s (.started stamp.id stamp.iso label) r
  rw [hannounced] at hid
  refine (List.mem_append.1 hid).imp_right fun hnew ↦ ?_
  split at hnew
  · obtain rfl := List.mem_singleton.1 hnew
    exact State.Opened.flushed _ (List.mem_append_right _ (List.mem_singleton_self _)) rfl
  · contradiction

theorem announced_activate {stamp : Stamp} {label : Json} {r : Reply} :
    ∀ id ∈ (activate s stamp label r).announced,
      id ∈ s.announced ∨ (activate s stamp label r).Opened id := by
  rw [activate]
  split
  · exact fun id hid ↦ Or.inl hid
  · exact announced_spawnFlush (s := s.makeActive stamp.id label)

/-- A start that is announced has opened its session. -/
theorem announced_beginStart {stamp : Stamp} {label : Json} {r : Reply} :
    ∀ id ∈ (beginStart s stamp label r).announced,
      id ∈ s.announced ∨ (beginStart s stamp label r).Opened id := by
  rcases hkv : s.mem.sessionKv with - | -
  · rw [beginStart_of_no_kv s stamp label r hkv]
    exact announced_activate (s := s.record (.startBegan stamp.id))
  · intro id hid
    refine Or.inl ?_
    rw [beginStart_of_kv s stamp label r hkv] at hid
    exact hid

/-- A command announces no start but that of a session it opens. -/
theorem announced_handleControlMessage {payload : Option Json} {now : Stamp} {r : Reply} :
    ∀ id ∈ (handleControlMessage s payload now r).announced,
      id ∈ s.announced ∨ (handleControlMessage s payload now r).Opened id := by
  rw [handleControlMessage.eq_def]
  split
  · exact fun id hid ↦ Or.inl hid
  · split
    · split
      · exact fun id hid ↦ Or.inl hid
      · exact announced_beginStart
    · split
      · intro id hid
        rw [announced_beginStop] at hid
        exact Or.inl hid
      · exact fun id hid ↦ Or.inl hid
  · exact fun id hid ↦ Or.inl hid

/-- **What a step announces bears its id.** -/
theorem announced_step {a : Action} (ht : step below s a = some t) :
    ∀ id ∈ t.announced, id ∈ s.announced ∨ t.Opened id := by
  have hsame : t.announced = s.announced → ∀ id ∈ t.announced, id ∈ s.announced ∨ t.Opened id :=
    fun heq id hid ↦ Or.inl (heq ▸ hid)
  cases stepped_of_step ht with
  | boot hdown sessionKv configKv raised => exact hsame (announced_of_events (by rw [broker_boot]))
  | chunk hup haudio data r =>
    refine hsame (announced_of_events ?_)
    rw [routeChunk.eq_def]
    split
    · simp
    · dsimp only
      split <;> rfl
  | published hup haudio now r =>
    refine hsame ?_
    simp only [checkSilence]
    split
    · rfl
    · split
      · exact announced_beginStop
      · rfl
  | audioStop hup haudio now r => exact hsame announced_stopStep
  | message hup hctrl payload now r => exact announced_handleControlMessage
  | @ctrlStart pc hup hctrl r =>
    cases pc with
    | kvPutting stamp label => exact announced_activate
    | configReading stamp label since value => exact announced_spawnFlush
    | eventPublishing => exact hsame rfl
  | ctrlStop hup hctrl r => exact hsame announced_stopStep
  | @flush i f hup hi answer r =>
    exact hsame (announced_of_events (flushed_flushStep s i f answer r).events)
  | _ => exact hsame rfl

end Steps

end LiveSTT.AudioProducer
