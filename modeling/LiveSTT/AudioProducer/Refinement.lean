import Mathlib.Data.List.InsertIdx
import LiveSTT.AudioProducer.Sessions
import LiveSTT.AudioProducer.Views

/-!
# audio-producer keeps sessions

audio-producer, seen through `State.sessions`, is a recorder of sessions: the record is the KV entry
`current`, the stops come from the two loops, the tasks are the flush tasks and the marks are the
EOS markers of the backfill subjects. Every step of audio-producer is a run of the recorder
(`refines_sessions`), mostly of one step or none. A start without KV begins and activates at once,
and a boot that recovers a session boots and resumes.

What the recorder does depends on how some calls of audio-producer ended. `Outcome` keeps what a
step says about them, and the recorder's steps fit it.

The lemmas follow the source function by function, each a run of the recorder (`Records`):
`records_beginStop` and `records_stopStep` for `_stop_session`, `records_activate` and
`records_spawnFlush` for a start, `records_flushStep` for the flush task. What the recorder cannot
see is a run of no step. So the results about sessions are proved of the recorder, which has no
chunks, no streams and no lifecycle events, and are read back through `State.sessions`.
-/

namespace LiveSTT.AudioProducer

open TransitionSystem

/-! ### The view -/

/-- What the log of sessions keeps of a trace event. -/
def Event.mark : Event → Option (Sessions.Mark SessionId KvEntry)
  | .startBegan id => some (.began id)
  | .kvPut entry => some (.put entry)
  | .resumed id => some (.resumed id)
  | .idled _ _ _ cleared => some (.idled cleared)
  | .stopReturned captured cleared => some (.returned captured cleared)
  | .subscribeFailed id => some (.lost id)
  | .cut id => some (.lost id)
  | _ => none

/-- A stop, as far as sessions go. -/
def StopPc.toStop : StopPc → Sessions.Stop SessionId
  | .eosPublishing id _ => ⟨some id, none⟩
  | .kvDeleting captured _ cleared => ⟨captured, some cleared⟩
  | .eventPublishing captured cleared => ⟨captured, some cleared⟩

def AudioPc.stop : AudioPc → Option (Sessions.Stop SessionId)
  | .stopping pc => some pc.toStop
  | _ => none

def CtrlPc.stop : CtrlPc → Option (Sessions.Stop SessionId)
  | .stopping pc => some pc.toStop
  | _ => none

def CtrlPc.start : CtrlPc → Sessions.Start SessionId
  | .starting (.kvPutting stamp _) => .putting stamp.id
  | .starting (.configReading stamp _ _ _) => .active stamp.id
  | _ => .none

/-- A `_start_session` is in progress. -/
def CtrlPc.isStarting : CtrlPc → Bool
  | .starting _ => true
  | _ => false

theorem start_eq_none {pc : CtrlPc} (h : pc.isStarting = false) : pc.start = .none := by
  cases pc with
  | starting pc => nomatch h
  | _ => rfl

/-- A flush task is done with its session once its EOS marker is under way. -/
def Flush.task (f : Flush) : Option SessionId :=
  match f.pc with
  | .eosPublishing => none
  | _ => some f.id

/-- The session a backfill EOS marker is for. -/
def Stored.backfillEosOf : Stored → Option SessionId
  | .backfillEos id => some id
  | _ => none

namespace State

variable (s : State)

/-- What the two loops are stopping. -/
def stopOf : Coroutine → Option (Sessions.Stop SessionId)
  | .audio => s.audio.stop
  | .control => s.ctrl.stop

/-- The sessions with an EOS marker on their backfill subject. -/
def backfillEosIds : List SessionId := s.broker.audio.filterMap Stored.backfillEosOf

/-- audio-producer as a recorder of sessions. -/
def sessions : Sessions.State SessionId KvEntry Coroutine where
  up := s.up
  active := s.mem.sessionId
  record := s.broker.current
  start := s.ctrl.start
  stops := s.stopOf
  tasks := s.flushes.map Flush.task
  marked := s.backfillEosIds
  log := s.trace.filterMap Event.mark

end State

/-- The recorder of audio-producer's sessions. -/
noncomputable abbrev recorder :
    TransitionSystem (Sessions.State SessionId KvEntry Coroutine)
      (Sessions.Act SessionId KvEntry Coroutine) :=
  Sessions.system KvEntry.sessionId Coroutine

/-- What a step of audio-producer says about the steps of the recorder. -/
structure Outcome where
  /-- The EOS marker of a flush task is published. -/
  published : Bool
  /-- The process starts. -/
  boots : Bool

/-- A step of the recorder fits what audio-producer did. -/
def Outcome.Fits (o : Outcome) : Sessions.Act SessionId KvEntry Coroutine → Prop
  | .mark _ _ published => published = o.published
  | .put entry => entry.state = "active"
  | .boot => o.boots = true
  | _ => True

/-- The recorder can do what audio-producer did between two states. -/
def Records (o : Outcome) (s t : State) : Prop :=
  ∃ bs, recorder.Run (fun _ b ↦ o.Fits b) s.sessions bs t.sessions

namespace Records

variable {o : Outcome} {s t u : State}

theorem of_eq (h : t.sessions = s.sessions) : Records o s t :=
  ⟨[], h ▸ Run.nil⟩

theorem trans (h₁ : Records o s t) (h₂ : Records o t u) : Records o s u := by
  obtain ⟨bs₁, h₁⟩ := h₁
  obtain ⟨bs₂, h₂⟩ := h₂
  exact ⟨bs₁ ++ bs₂, h₁.trans h₂⟩

/-- One step of the recorder. -/
theorem single (b : Sessions.Act SessionId KvEntry Coroutine) (ho : o.Fits b)
    (hE : Sessions.Enabled KvEntry.sessionId s.sessions b)
    (h : t.sessions = Sessions.next s.sessions b) : Records o s t :=
  ⟨[b], h ▸ Sessions.run_next ho hE⟩

end Records

/-! ### The view of an update -/

section Update

variable (s : State)

theorem sessions_record (e : Event) :
    (s.record e).sessions = { s.sessions with log := s.sessions.log ++ e.mark.toList } := by
  refine Sessions.State.ext rfl rfl rfl rfl rfl rfl rfl ?_
  show (s.trace ++ [e]).filterMap Event.mark = _
  rw [List.filterMap_append]
  cases h : e.mark <;> simp [h, State.sessions]

/-- The recorder sees of a publish only a marker of the backfill. -/
theorem sessions_publish (msg : Stored) (r : Reply) :
    (s.publish msg r).sessions = { s.sessions with
      marked := s.sessions.marked ++ if r.applied then msg.backfillEosOf.toList else [] } := by
  rw [State.publish]
  split
  · refine Sessions.State.ext rfl rfl rfl rfl rfl rfl ?_ rfl
    show (s.broker.audio ++ [msg]).filterMap Stored.backfillEosOf = _
    rw [List.filterMap_append]
    cases h : msg.backfillEosOf <;> simp [h, State.sessions, State.backfillEosIds]
  · rw [List.append_nil]

theorem sessions_announce (e : Lifecycle) (r : Reply) : (s.announce e r).sessions = s.sessions := by
  rw [State.announce]
  split <;> rfl

/-- A coroutine that is stopping, or about to, is not starting. -/
def State.Free (s : State) : Coroutine → Prop
  | .audio => True
  | .control => s.ctrl.start = .none

@[simp] theorem stopOf_announce (e : Lifecycle) (r : Reply) :
    (s.announce e r).stopOf = s.stopOf := by
  rw [State.announce]
  split <;> rfl

variable {s}

theorem State.Free.congr {t : State} {w : Coroutine} (h : s.Free w) (hctrl : t.ctrl = s.ctrl) :
    t.Free w := by
  cases w with
  | audio => trivial
  | control => exact (congrArg CtrlPc.start hctrl).trans h

/-- A stop that waits for its next call is a stop in progress of the recorder. -/
theorem sessions_suspendStop {w : Coroutine} (hfree : s.Free w) (pc : StopPc) :
    (s.suspendStop pc w).sessions =
      { s.sessions with stops := Function.update s.sessions.stops w (some pc.toStop) } := by
  have hstops : (s.suspendStop pc w).stopOf = Function.update s.stopOf w (some pc.toStop) := by
    funext k
    cases w <;> cases k <;> rfl
  cases w with
  | audio => exact Sessions.State.ext rfl rfl rfl rfl hstops rfl rfl rfl
  | control => exact Sessions.State.ext rfl rfl rfl hfree.symm hstops rfl rfl rfl

/-- Nothing the recorder sees happens when a stop of `w` goes on from one call to the next. -/
theorem sessions_suspendStop_of_eq {w : Coroutine} (hfree : s.Free w) (pc : StopPc)
    (hpc : s.stopOf w = some pc.toStop) : (s.suspendStop pc w).sessions = s.sessions := by
  rw [sessions_suspendStop hfree]
  refine Sessions.State.ext rfl rfl rfl rfl ?_ rfl rfl rfl
  rw [← hpc]
  exact Function.update_eq_self w s.sessions.stops

end Update

/-! ### Stops -/

section Stop

variable {o : Outcome} {s : State} {w : Coroutine}

theorem sessions_goIdle (captured : Option SessionId) (cleared : Bool) :
    (s.goIdle captured cleared).sessions = { s.sessions with
      active := none
      record := if cleared then none else s.sessions.record
      log := s.sessions.log ++ [.idled cleared] } :=
  Sessions.State.ext rfl rfl rfl rfl rfl rfl rfl List.filterMap_append

/-- `_stop_session` goes idle, called without a session or resumed with one. -/
theorem records_idleStop {captured : Option SessionId} {stoppedAt : String} {r : Reply}
    (hup : s.up = true) (hfree : s.Free w)
    (hw : s.stopOf w = some ⟨captured, none⟩ ∨ s.stopOf w = none ∧ captured = none) :
    Records o s (idleStop s captured stoppedAt r w) := by
  rw [idleStop]
  split
  · refine Records.single (.idle w captured r.applied) trivial ⟨hup, hw⟩ ?_
    have hfree' : (s.goIdle captured r.applied).Free w := hfree.congr rfl
    rw [sessions_suspendStop hfree', sessions_goIdle]
    rfl
  · refine Records.single (.idle w captured false) trivial ⟨hup, hw⟩ ?_
    have hfree' : ((s.goIdle captured false).announce (.stopped captured stoppedAt) r).Free w :=
      hfree.congr (ctrl_announce _ _ _)
    rw [announceStop, sessions_suspendStop hfree', sessions_announce, sessions_goIdle]
    rfl

/-- The recorder begins a stop, and leaves its session at once if there is one to end. -/
theorem records_beginStop {now : Stamp} {r : Reply} (hup : s.up = true) (hfree : s.Free w)
    (hw : s.stopOf w = none) : Records o s (beginStop s now r w) := by
  rw [beginStop]
  split
  · rename_i id hid
    refine Records.single (.call w id) trivial ⟨hup, hid, hw⟩ ?_
    have hfree' : ((s.record (.stopBegan (some id))).publish (.liveEos id) r).Free w :=
      hfree.congr (ctrl_publish _ _ _)
    rw [sessions_suspendStop hfree', sessions_publish, sessions_record]
    simp [Event.mark, Stored.backfillEosOf, Sessions.next, StopPc.toStop]
  · have hcalled : Records o s (s.record (.stopBegan none)) :=
      Records.of_eq (by simp [sessions_record, Event.mark])
    exact hcalled.trans (records_idleStop hup (hfree.congr rfl) (Or.inr ⟨hw, rfl⟩))

/-- Each call of `_stop_session` that the recorder sees is an act of its own; the put of the entry
is one, the event is none. -/
theorem records_stopStep {pc : StopPc} {r : Reply} (hup : s.up = true) (hfree : s.Free w)
    (hw : s.stopOf w = some pc.toStop) : Records o s (stopStep s pc r w) := by
  cases pc with
  | eosPublishing id stoppedAt => exact records_idleStop hup hfree (Or.inl hw)
  | kvDeleting captured stoppedAt cleared =>
    refine Records.of_eq ?_
    rw [stopStep, announceStop, sessions_suspendStop_of_eq (hfree.congr (ctrl_announce _ _ _))
      (.eventPublishing captured cleared) (by rw [stopOf_announce]; exact hw), sessions_announce]
  | eventPublishing captured cleared =>
    refine Records.single (.finish w captured cleared) trivial ⟨hup, hw⟩ ?_
    have hrecord := sessions_record s (.stopReturned captured cleared)
    have hstops : (finishStop s captured cleared r w).stopOf = Function.update s.stopOf w none := by
      funext k
      cases w <;> cases k <;> rfl
    refine Sessions.State.ext ?_ ?_ ?_ ?_ hstops ?_ ?_ ?_
    · cases w <;> rfl
    · cases w <;> rfl
    · cases w <;> rfl
    · cases w with
      | audio => rfl
      | control => exact hfree.symm
    · cases w <;> rfl
    · cases w <;> rfl
    · have hlog := congrArg Sessions.State.log hrecord
      cases w <;> exact hlog

end Stop

/-! ### Starts -/

section Start

variable {o : Outcome} {s : State}

/-- Moving the control loop between positions where it neither starts nor stops. -/
theorem records_ctrl {pc : CtrlPc} (hstart : s.ctrl.start = .none) (hstop : s.ctrl.stop = none)
    (hstart' : pc.start = .none) (hstop' : pc.stop = none) : Records o s { s with ctrl := pc } := by
  refine Records.of_eq (Sessions.State.ext rfl rfl rfl (hstart'.trans hstart.symm) ?_ rfl rfl rfl)
  funext k
  cases k with
  | audio => rfl
  | control => exact hstop'.trans hstop.symm

/-- A task for the active session is spawned. -/
theorem records_spawnFlush {stamp : Stamp} {label : Json} {since : ℕ} {value : Option ℤ} {r : Reply}
    (hup : s.up = true) (hstart : s.ctrl.start = .active stamp.id) (hstop : s.ctrl.stop = none) :
    Records o s (spawnFlush s stamp label since value r) := by
  refine Records.single (.spawn stamp.id) trivial ⟨hup, hstart⟩ ?_
  have hstops : (spawnFlush s stamp label since value r).stopOf = s.stopOf := by
    funext k
    cases k with
    | audio => exact congrFun (stopOf_announce s _ r) Coroutine.audio
    | control => exact hstop.symm
  have hannounce := sessions_announce s (.started stamp.id stamp.iso label) r
  have hmarked := congrArg Sessions.State.marked hannounce
  have hlog := congrArg Sessions.State.log hannounce
  have hrecord := congrArg Sessions.State.record hannounce
  have hup' := congrArg Sessions.State.up hannounce
  exact Sessions.State.ext hup' rfl hrecord rfl hstops List.map_append hmarked hlog

/-- The control loop's position is overwritten. -/
theorem spawnFlush_ctrl (pc : CtrlPc) (stamp : Stamp) (label : Json) (since : ℕ) (value : Option ℤ)
    (r : Reply) : spawnFlush { s with ctrl := pc } stamp label since value r =
      spawnFlush s stamp label since value r := by
  rw [spawnFlush, spawnFlush, State.announce, State.announce]
  split <;> rfl

theorem activate_ctrl (pc : CtrlPc) (stamp : Stamp) (label : Json) (r : Reply) :
    activate { s with ctrl := pc } stamp label r = activate s stamp label r := by
  rw [activate, activate]
  split
  · rfl
  · exact spawnFlush_ctrl (s := s.makeActive stamp.id label) pc stamp label s.captured none r

/-- The session becomes active, and its start is no longer putting. -/
theorem records_activate {stamp : Stamp} {label : Json} {r : Reply} (hup : s.up = true)
    (hstart : s.ctrl.start = .putting stamp.id) (hstop : s.ctrl.stop = none) :
    Records o s (activate s stamp label r) := by
  have hactive : ∀ since value, Records o s { s.makeActive stamp.id label with
      ctrl := .starting (.configReading stamp label since value) } := by
    intro since value
    refine Records.single (.activate stamp.id) trivial ⟨hup, hstart⟩ ?_
    have hlog := congrArg Sessions.State.log (sessions_record s (.activated stamp.id))
    refine Sessions.State.ext rfl rfl rfl rfl ?_ rfl rfl (hlog.trans (List.append_nil _))
    funext k
    cases k with
    | audio => rfl
    | control => exact hstop.symm
  rw [activate]
  split
  · exact hactive _ _
  · rw [← spawnFlush_ctrl (.starting (.configReading stamp label s.captured none))]
    exact (hactive s.captured none).trans (records_spawnFlush hup rfl rfl)

/-- `_start_session`, called: without a KV it activates at once. -/
theorem records_beginStart {stamp : Stamp} {label : Json} {r : Reply} (hup : s.up = true)
    (hstart : s.ctrl.start = .none) (hstop : s.ctrl.stop = none) :
    Records o s (beginStart s stamp label r) := by
  have hbegin : Records o s { s.record (.startBegan stamp.id) with
      ctrl := .starting (.kvPutting stamp label) } := by
    refine Records.single (.begin stamp.id) trivial ⟨hup, hstart⟩ ?_
    have hlog := congrArg Sessions.State.log (sessions_record s (.startBegan stamp.id))
    refine Sessions.State.ext rfl rfl rfl rfl ?_ rfl rfl hlog
    funext k
    cases k with
    | audio => rfl
    | control => exact hstop.symm
  simp only [beginStart]
  split
  · split
    · refine hbegin.trans (Records.single (.put (entryOf stamp label)) rfl ⟨hup, rfl⟩ ?_)
      have hlog := congrArg Sessions.State.log
        (sessions_record (s.record (.startBegan stamp.id)) (.kvPut (entryOf stamp label)))
      exact Sessions.State.ext rfl rfl rfl rfl rfl rfl rfl hlog
    · exact hbegin
  · rw [← activate_ctrl (.starting (.kvPutting stamp label))]
    exact hbegin.trans (records_activate hup rfl rfl)

/-- `_start_session`, resumed. -/
theorem records_startStep {pc : StartPc} {r : Reply} (hup : s.up = true)
    (hctrl : s.ctrl = .starting pc) : Records o s (startStep s pc r) := by
  cases pc with
  | kvPutting stamp label => exact records_activate hup (by rw [hctrl]; rfl) (by rw [hctrl]; rfl)
  | configReading stamp label since value =>
    exact records_spawnFlush hup (by rw [hctrl]; rfl) (by rw [hctrl]; rfl)
  | eventPublishing =>
    exact records_ctrl (by rw [hctrl]; rfl) (by rw [hctrl]; rfl) rfl rfl

end Start

/-! ### Flush tasks -/

/-- The step of a flush task publishes its EOS marker. -/
def Flush.leaves (s : State) (f : Flush) (answer : Fetched) : Bool :=
  match f.pc with
  | .fetching cursor =>
    match answer with
    | .msgs n => ((s.broker.preRoll cursor).take n).isEmpty
    | .raised => true
  | .publishing _ _ raised => raised
  | .acking _ _ raised => raised
  | _ => false

/-- The publish of an EOS marker by a flush task takes effect. -/
def markerPublished (s : State) : Action → Bool
  | .flush i answer r => s.flushes[i]?.all fun f ↦ !f.leaves s answer || r.applied
  | _ => true

/-- A boot of the process. -/
def Action.isBoot : Action → Bool
  | .boot _ _ _ => true
  | _ => false

def outcome (s : State) (a : Action) : Outcome where
  published := markerPublished s a
  boots := a.isBoot

section Flush

variable {o : Outcome} {s : State} {i : ℕ} {f : Flush}

/-- A flush task goes on copying. -/
theorem sessions_setFlush_of_task (hi : s.flushes[i]? = some f) {pc : FlushPc}
    (hpc : Flush.task { f with pc := pc } = f.task) :
      (s.setFlush i f pc).sessions = s.sessions := by
  refine Sessions.State.ext rfl rfl rfl rfl rfl ?_ rfl rfl
  show (s.flushes.set i { f with pc := pc }).map Flush.task = s.flushes.map Flush.task
  obtain ⟨hlt, hget⟩ := List.getElem?_eq_some_iff.1 hi
  have hlt' : i < (s.flushes.map Flush.task).length := by simpa using hlt
  have htask : (s.flushes.map Flush.task)[i] = f.task := by rw [List.getElem_map, hget]
  rw [List.map_set, hpc, ← htask, List.set_getElem_self]

theorem getElem?_tasks (hi : s.flushes[i]? = some f) : s.sessions.tasks[i]? = some f.task := by
  show (s.flushes.map Flush.task)[i]? = some f.task
  rw [List.getElem?_map, hi]
  rfl

/-- The task of the session ends with its marker, or without it if the publish failed. -/
theorem records_flushEos {r : Reply} (hup : s.up = true) (hi : s.flushes[i]? = some f)
    (hf : f.task = some f.id) (ho : r.applied = o.published) :
    Records o s (flushEos s i f r) := by
  have htask : s.sessions.tasks[i]? = some (some f.id) := (getElem?_tasks hi).trans (by rw [hf])
  refine Records.single (.mark i f.id r.applied) ho ⟨hup, htask⟩ ?_
  have hflushes : (s.publish (.backfillEos f.id) r).flushes = s.flushes := by
    rw [State.publish]
    split <;> rfl
  calc (flushEos s i f r).sessions
      = { (s.publish (.backfillEos f.id) r).sessions with
          tasks := s.sessions.tasks.set i none } := by
        refine Sessions.State.ext rfl rfl rfl rfl rfl ?_ rfl rfl
        show ((s.publish (.backfillEos f.id) r).flushes.set i _).map Flush.task = _
        rw [hflushes, List.map_set]
        rfl
    _ = Sessions.next s.sessions (.mark i f.id r.applied) := by
        rw [sessions_publish]
        rfl

/-- Copies are nothing to the recorder, which knows only whether the task is there. -/
theorem records_flushBatch {cursor : ℕ} {batch : List Captured} {r : Reply}
    (hi : s.flushes[i]? = some f) (hf : f.task = some f.id) :
    Records o s (flushBatch s i f cursor batch r) := by
  refine Records.of_eq ?_
  cases batch with
  | nil => exact sessions_setFlush_of_task hi hf.symm
  | cons chunk rest =>
    have hflushes : (s.publish (.backfill f.id chunk f.since) r).flushes = s.flushes := by
      rw [State.publish]
      split <;> rfl
    have htask : Flush.task { f with pc := .publishing cursor rest r.raised } = f.task := hf.symm
    rw [flushBatch, sessions_setFlush_of_task (hflushes ▸ hi) htask, sessions_publish]
    simp [Stored.backfillEosOf]

/-- A flush task goes on, ends, or is lost as the subscribe failed. -/
theorem records_flushStep {answer : Fetched} {r : Reply} (hup : s.up = true)
    (hi : s.flushes[i]? = some f) (ho : o.published = markerPublished s (.flush i answer r)) :
    Records o s (flushStep s i f answer r) := by
  have hr : f.leaves s answer = true → r.applied = o.published := by
    intro hleaves
    rw [ho, markerPublished, hi]
    simp [hleaves]
  have hleaves : ∀ pc, f.pc = pc → f.leaves s answer = Flush.leaves s
    { f with pc := pc } answer := by
    rintro _ rfl
    rfl
  have htask : ∀ pc, f.pc = pc → f.task = Flush.task { f with pc := pc } := by
    rintro _ rfl
    rfl
  rw [flushStep.eq_def]
  split
  · rename_i hpc
    split
    · -- The early return: the task is gone, and no marker follows.
      refine Records.single (.lose i f.id) trivial ⟨hup, (getElem?_tasks hi).trans ?_⟩ ?_
      · rw [htask _ hpc]
        rfl
      · have hlog := congrArg Sessions.State.log (sessions_record s (.subscribeFailed f.id))
        exact Sessions.State.ext rfl rfl rfl rfl rfl (List.eraseIdx_map ..).symm rfl hlog
    · exact Records.of_eq (sessions_setFlush_of_task hi (htask _ hpc).symm)
  · rename_i cursor hpc
    split
    · rename_i n
      split
      · rename_i hnil
        refine records_flushEos hup hi (htask _ hpc) (hr ?_)
        rw [hleaves _ hpc]
        simp [Flush.leaves, hnil]
      · exact records_flushBatch hi (htask _ hpc)
    · refine records_flushEos hup hi (htask _ hpc) (hr ?_)
      rw [hleaves _ hpc]
      rfl
  · rename_i hpc
    exact Records.of_eq (sessions_setFlush_of_task hi (htask _ hpc).symm)
  · rename_i hpc
    exact records_flushEos hup hi (htask _ hpc) (hr (hleaves _ hpc))
  · rename_i hpc
    exact records_flushBatch hi (htask _ hpc)
  · rename_i hpc
    exact records_flushEos hup hi (htask _ hpc) (hr (hleaves _ hpc))
  · rename_i hpc
    refine Records.single (.drop i) trivial ⟨hup, (getElem?_tasks hi).trans ?_⟩ ?_
    · rw [htask _ hpc]
      rfl
    · exact Sessions.State.ext rfl rfl rfl rfl rfl (List.eraseIdx_map ..).symm rfl rfl

end Flush

/-! ### The loops, and the process -/

section Step

variable {o : Outcome} {below : Bytes → Bool} {s t : State}

/-- The audio loop moves between positions where it does not stop. -/
theorem sessions_audio (hstop : s.audio.stop = none) (hstop' : t.audio.stop = none)
    (h : ({ t with audio := s.audio } : State).sessions = s.sessions) :
      t.sessions = s.sessions := by
  rw [← h]
  refine Sessions.State.ext rfl rfl rfl rfl ?_ rfl rfl rfl
  funext k
  cases k with
  | audio => exact hstop'.trans hstop.symm
  | control => rfl

/-- A chunk on its way is nothing to the recorder. -/
theorem records_routeChunk {data : Bytes} {r : Reply} (haudio : s.audio = .waiting) :
    Records o s (routeChunk s data r) := by
  have hstop : s.audio.stop = none := congrArg AudioPc.stop haudio
  refine Records.of_eq ?_
  rw [routeChunk.eq_def]
  split
  · rename_i id _ _
    have hstop' : (s.publish (.live id ⟨s.captured, data⟩) r).audio.stop = none := by
      rw [State.publish]
      split <;> exact hstop
    have hlive : (s.publish (.live id ⟨s.captured, data⟩) r).sessions = s.sessions := by
      simp [sessions_publish, Stored.backfillEosOf]
    refine (sessions_audio (s := s.publish (.live id ⟨s.captured, data⟩) r) hstop' ?_ ?_).trans
      hlive
    · rfl
    · rfl
  · split
    · exact sessions_audio hstop rfl rfl
    · exact sessions_audio hstop rfl rfl

/-- The silence check begins a stop, or does nothing the recorder sees. -/
theorem records_checkSilence {data : Bytes} {b : Bool} {now : Stamp} {r : Reply}
    (hup : s.up = true) (hstop : s.audio.stop = none) :
    Records o s (checkSilence s data b now r) := by
  have hcounted : Records o s { s with mem := s.mem.countSilence data b, audio := .waiting } :=
    Records.of_eq (sessions_audio hstop rfl rfl)
  simp only [checkSilence]
  split
  · exact Records.of_eq (sessions_audio hstop rfl rfl)
  · split
    · exact hcounted.trans (records_beginStop (w := .audio) hup trivial rfl)
    · exact hcounted

/-- A command begins a start or a stop, or is passed over. -/
theorem records_handleControlMessage {payload : Option Json} {now : Stamp} {r : Reply}
    (hup : s.up = true) (hctrl : s.ctrl = .fetching) :
    Records o s (handleControlMessage s payload now r) := by
  have hstart : s.ctrl.start = .none := congrArg CtrlPc.start hctrl
  have hstop : s.ctrl.stop = none := congrArg CtrlPc.stop hctrl
  rw [handleControlMessage.eq_def]
  split
  · exact records_ctrl hstart hstop rfl rfl
  · split
    · split
      · exact records_ctrl hstart hstop rfl rfl
      · exact records_beginStart hup hstart hstop
    · split
      · exact records_beginStop (w := .control) hup hstart hstop
      · exact records_ctrl hstart hstop rfl rfl
  · exact records_ctrl hstart hstop rfl rfl

theorem mark_cut (ids : List SessionId) :
    (ids.map Event.cut).filterMap Event.mark = ids.map .lost := by
  rw [List.filterMap_map]
  exact congrFun List.filterMap_eq_map' ids

theorem mem_starts {pc : CtrlPc} {id : SessionId}
    (h : pc.start = .putting id ∨ pc.start = .active id) : id ∈ pc.starts := by
  cases pc with
  | starting pc => cases pc <;> simp_all [CtrlPc.start, CtrlPc.starts]
  | _ => simp [CtrlPc.start] at h

/-- A crash takes down the start in progress and every flush task. -/
theorem records_crash (hup : s.up = true) : Records o s (crash s) := by
  refine Records.single (.crash (s.ctrl.starts ++ s.flushes.map Flush.id)) trivial ⟨hup, ?_⟩ ?_
  · rintro id (hputting | hactive | htask)
    · exact List.mem_append_left _ (mem_starts (Or.inl hputting))
    · exact List.mem_append_left _ (mem_starts (Or.inr hactive))
    · refine List.mem_append_right _ ?_
      obtain ⟨f, hf, hid⟩ := List.mem_map.1 htask
      refine List.mem_map.2 ⟨f, hf, ?_⟩
      rw [Flush.task.eq_def] at hid
      split at hid
      · nomatch hid
      · exact Option.some.inj hid
  · refine Sessions.State.ext rfl rfl rfl rfl ?_ rfl rfl ?_
    · funext k
      cases k <;> rfl
    · show (s.trace ++ (s.ctrl.starts ++ s.flushes.map Flush.id).map Event.cut).filterMap _ = _
      rw [List.filterMap_append, mark_cut]
      rfl

/-- A boot resumes the session of the record, or finds none. -/
theorem records_boot {sessionKv configKv raised : Bool} (hdown : s.up = false)
    (ho : o.boots = true) : Records o s (boot s sessionKv configKv raised) := by
  have hbooted : Records o s (State.mk true
      { sessionKv := sessionKv, configKv := sessionKv && configKv } .waiting .subscribing []
      s.broker s.captured s.trace) := by
    refine Records.single .boot ho hdown (Sessions.State.ext rfl rfl rfl rfl ?_ rfl rfl rfl)
    funext k
    cases k <;> rfl
  rw [boot, recoverSession.eq_def]
  split
  · rename_i entry hentry
    split
    · refine hbooted.trans (Records.single (.resume entry.sessionId) trivial ⟨rfl, ?_, rfl, rfl,
        ?_⟩ ?_)
      · exact congrArg (Option.map KvEntry.sessionId) hentry
      · intro k
        cases k <;> rfl
      · have hlog := congrArg Sessions.State.log (sessions_record s (.resumed entry.sessionId))
        exact Sessions.State.ext rfl rfl rfl rfl rfl rfl rfl hlog
    · exact hbooted
  · exact hbooted

/-- **One step** of audio-producer is a run of the recorder. -/
theorem records_step {a : Action} (ht : step below s a = some t) : Records (outcome s a) s t := by
  cases stepped_of_step ht with
  | boot hdown sessionKv configKv raised => exact records_boot hdown rfl
  | crash hup => exact records_crash hup
  | chunk hup haudio data r => exact records_routeChunk haudio
  | published hup haudio now r => exact records_checkSilence hup (congrArg AudioPc.stop haudio)
  | dropped hup haudio now r =>
    exact Records.of_eq (sessions_audio (congrArg AudioPc.stop haudio) rfl rfl)
  | buffered hup haudio now r =>
    exact Records.of_eq (sessions_audio (congrArg AudioPc.stop haudio) rfl rfl)
  | audioStop hup haudio now r =>
    exact records_stopStep (w := .audio) hup trivial (congrArg AudioPc.stop haudio)
  | subscribed hup hctrl ok =>
    refine records_ctrl (congrArg CtrlPc.start hctrl) (congrArg CtrlPc.stop hctrl) ?_ ?_
    · cases ok <;> rfl
    · cases ok <;> rfl
  | message hup hctrl payload now r => exact records_handleControlMessage hup hctrl
  | ctrlStart hup hctrl r => exact records_startStep hup hctrl
  | ctrlStop hup hctrl r =>
    refine records_stopStep (w := .control) hup ?_ (congrArg CtrlPc.stop hctrl)
    exact congrArg CtrlPc.start hctrl
  | @ctrlAcked raised hup hctrl r =>
    refine records_ctrl (congrArg CtrlPc.start hctrl) (congrArg CtrlPc.stop hctrl) ?_ ?_
    · cases raised <;> rfl
    · cases raised <;> rfl
  | ctrlExit hup hctrl =>
    exact records_ctrl (congrArg CtrlPc.start hctrl) (congrArg CtrlPc.stop hctrl) rfl rfl
  | flush hup hi answer r => exact records_flushStep hup hi rfl
  | expire n => exact Records.of_eq rfl
  | setConfig value => exact Records.of_eq rfl

/-- **audio-producer refines the recorder of sessions**, under what its guard says about the steps
of the recorder. -/
theorem refines_sessions {G : State → Action → Prop}
    {H : Sessions.Act SessionId KvEntry Coroutine → Prop}
    (hGH : ∀ s a b, G s a → (outcome s a).Fits b → H b) (below : Bytes → Bool) :
    (system below).Refines G recorder (fun _ b ↦ H b) State.sessions where
  init s hs := by
    obtain rfl : s = {} := hs
    refine Sessions.State.ext rfl rfl rfl rfl ?_ rfl rfl rfl
    funext k
    cases k <;> rfl
  step hG ht := by
    obtain ⟨bs, hbs⟩ := records_step ht
    exact ⟨bs, hbs.mono fun _ b ho ↦ hGH _ _ b hG ho⟩

end Step

end LiveSTT.AudioProducer
