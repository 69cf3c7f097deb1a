import LiveSTT.AudioProducer.Opened

/-!
# The switch from idle to active

While the producer is idle its chunks go to `PRE_BUFFER`; from the activation on they go to the live
subject, and the flush task copies what `PRE_BUFFER` holds to the backfill subject. A chunk is
routed by `is_active` and stored in one step, so the pre-roll ends where the live stream begins:
whatever the order of the loops and the flush task, the pre-roll and the live chunks together are
the chunks captured (`Switching.routed`). The flush task holds its place in `PRE_BUFFER`, which does
not grow any more, and copies it from there (`Copied`). When it has returned, backfill and live
chunks are the chunks captured since the producer was idle, in order (`switch_loses_nothing`).

This is about the subjects of one session, so it needs the id of the session: a second start in the
same second publishes on the subjects of the first session (`switch_same_second`).

The start of another session may come in between, by the control loop, and the flush task of a
session before it may still be at work; `Switching` names the session and lets both go by. That no
id is opened twice is taken from `Claimed`, and that no session is active while a start waits from
`Guarded`.
-/

namespace LiveSTT.AudioProducer

/-! ### What was captured, and what was copied -/

/-- The chunk of a message on `audio.backfill.<id>`. -/
def Stored.copyOn (id : SessionId) : Stored → Option Captured
  | .backfill id' chunk _ => if id' = id then some chunk else none
  | _ => none

/-- The chunks published on `audio.backfill.<id>`. -/
def State.backfillChunks (s : State) (id : SessionId) : List Captured :=
  s.broker.audio.filterMap (Stored.copyOn id)

/-- The flush tasks of a session. -/
def State.tasksOf (s : State) (id : SessionId) : List Flush := s.flushes.filter (·.id = id)

/-- What a flush task has still to copy. -/
def FlushPc.left (broker : Broker) : FlushPc → List Captured
  | .subscribing => broker.preRoll 0
  | .fetching cursor => broker.preRoll cursor
  | .publishing cursor rest _ => rest ++ broker.preRoll cursor
  | .acking cursor rest _ => rest ++ broker.preRoll cursor
  | .eosPublishing => []

/-- The call of the task raised. -/
def FlushPc.failed : FlushPc → Bool
  | .publishing _ _ raised => raised
  | .acking _ _ raised => raised
  | _ => false

/-- The data of the chunk the step captures. -/
def Action.captured : Action → Option Bytes
  | .chunk data _ => some data
  | _ => none

/-- The chunks captured by a run that begins after `n` chunks. -/
def captures (n : ℕ) (as : List Action) : List Captured :=
  (as.filterMap Action.captured).mapIdx fun i data ↦ ⟨n + i, data⟩

/-! ### The runs of the switch -/

/-- The fetch returns messages. -/
def Fetched.delivers : Fetched → Bool
  | .msgs n => 0 < n
  | .raised => false

/-- A fetch of a flush task times out only when there is nothing left to deliver. -/
def honestFetch (s : State) : Action → Bool
  | .flush i answer _ =>
    match s.flushes[i]? with
    | some ⟨_, _, .fetching cursor⟩ => answer.delivers || (s.broker.preRoll cursor).isEmpty
    | _ => true
  | _ => true

/-- The process goes on, and `PRE_BUFFER` keeps its messages. -/
def Action.goesOn : Action → Bool
  | .boot _ _ _ => false
  | .crash => false
  | .expire _ => false
  | _ => true

/-- Every call succeeds, and a session that is active stays active. -/
def switching (below : Bytes → Bool) (s : State) (a : Action) : Bool :=
  a.callsSucceed && a.goesOn && honestFetch s a &&
    (step below s a).all fun t ↦ s.mem.sessionId = none ∨ t.mem.sessionId = s.mem.sessionId

/-! ### The invariant -/

/-- How far the pre-roll has been copied for the active session. -/
inductive Copied (s : State) (id : SessionId) : Prop
  | unspawned (hspawning : id ∈ s.ctrl.spawning) (htasks : s.tasksOf id = [])
    (hcopies : s.backfillChunks id = [])
  | copying (f : Flush) (hspawning : id ∉ s.ctrl.spawning) (htasks : s.tasksOf id = [f])
    (hok : f.pc.failed = false)
    (hcopies : s.backfillChunks id ++ f.pc.left s.broker = s.broker.preRoll 0)
  | copied (hspawning : id ∉ s.ctrl.spawning) (htasks : s.tasksOf id = [])
    (hcopies : s.backfillChunks id = s.broker.preRoll 0)

/-- `chunks` are the chunks captured since the producer was idle: all of them in `PRE_BUFFER`, until
the session is active and the rest is on its live subject. -/
structure Switching (chunks : List Captured) (id : SessionId) (s : State) : Prop where
  idle : s.mem.sessionId = none → s.broker.preRoll 0 = chunks
  routed : s.mem.sessionId = some id → s.broker.preRoll 0 ++ s.liveChunks id = chunks
  copied : s.mem.sessionId = some id → Copied s id

section Rules

variable {s t : State} {id : SessionId} {chunks : List Captured}

theorem preRoll_of_eq (hpre : t.broker.preBuffer = s.broker.preBuffer)
    (hexpired : t.broker.expired = s.broker.expired) (cursor : ℕ) :
    t.broker.preRoll cursor = s.broker.preRoll cursor := by
  rw [Broker.preRoll, hpre, hexpired, Broker.preRoll]

theorem left_of_eq (hpre : t.broker.preBuffer = s.broker.preBuffer)
    (hexpired : t.broker.expired = s.broker.expired) (pc : FlushPc) :
    pc.left t.broker = pc.left s.broker := by
  cases pc <;> simp only [FlushPc.left, preRoll_of_eq hpre hexpired]

theorem tasksOf_of_eq (h : t.flushes = s.flushes) : t.tasksOf id = s.tasksOf id := by
  rw [State.tasksOf, h, State.tasksOf]

theorem tasksOf_of_append {f : Flush} (h : t.flushes = s.flushes ++ [f]) :
    t.tasksOf id = s.tasksOf id ++ if f.id = id then [f] else [] := by
  rw [State.tasksOf, h, List.filter_append, State.tasksOf]
  by_cases hid : f.id = id <;> simp [hid]

theorem backfillChunks_of_audio (h : t.broker.audio = s.broker.audio) :
    t.backfillChunks id = s.backfillChunks id := by
  rw [State.backfillChunks, h, State.backfillChunks]

theorem backfillChunks_of_append {E : List Stored} (h : t.broker.audio = s.broker.audio ++ E)
    (hE : ∀ msg ∈ E, msg.copyOn id = none) : t.backfillChunks id = s.backfillChunks id := by
  rw [State.backfillChunks, h, List.filterMap_append, List.filterMap_eq_nil_iff.2 hE,
    List.append_nil, State.backfillChunks]

/-- A step that leaves the pre-roll, the copies and the flush tasks alone. -/
theorem Copied.of_eq (h : Copied s id) (hpre : t.broker.preBuffer = s.broker.preBuffer)
    (hexpired : t.broker.expired = s.broker.expired)
    (hcopies : t.backfillChunks id = s.backfillChunks id) (htasks : t.tasksOf id = s.tasksOf id)
    (hspawning : t.ctrl.spawning = s.ctrl.spawning) : Copied t id := by
  have hpreRoll := preRoll_of_eq hpre hexpired
  cases h with
  | unspawned hs ht hc =>
    exact Copied.unspawned (hspawning ▸ hs) (htasks.trans ht) (hcopies.trans hc)
  | copying f hs ht hok hc =>
    refine Copied.copying f (hspawning ▸ hs) (htasks.trans ht) hok ?_
    rw [hcopies, left_of_eq hpre hexpired, hpreRoll]
    exact hc
  | copied hs ht hc =>
    refine Copied.copied (hspawning ▸ hs) (htasks.trans ht) ?_
    rw [hcopies, hpreRoll]
    exact hc

/-- And the chunks and the session as well. -/
theorem Switching.of_eq (h : Switching chunks id s) (hid : t.mem.sessionId = s.mem.sessionId)
    (hpre : t.broker.preBuffer = s.broker.preBuffer)
    (hexpired : t.broker.expired = s.broker.expired) (hlive : t.liveChunks id = s.liveChunks id)
    (hcopies : t.backfillChunks id = s.backfillChunks id) (htasks : t.tasksOf id = s.tasksOf id)
    (hspawning : t.ctrl.spawning = s.ctrl.spawning) : Switching chunks id t := by
  have hpreRoll := preRoll_of_eq hpre hexpired
  refine ⟨fun hnone ↦ ?_, fun hsome ↦ ?_, fun hsome ↦ ?_⟩
  · rw [hpreRoll]
    exact h.idle (hid ▸ hnone)
  · rw [hpreRoll, hlive]
    exact h.routed (hid ▸ hsome)
  · exact (h.copied (hid ▸ hsome)).of_eq hpre hexpired hcopies htasks hspawning

/-- A session that nothing bears the id of yet has no messages and no tasks. -/
theorem tasksOf_of_not_opened (h : ¬ s.Opened id) : s.tasksOf id = [] :=
  List.filter_eq_nil_iff.2 fun f hf hid ↦ h (State.Opened.flushed f hf (of_decide_eq_true hid))

theorem liveChunks_of_not_opened (h : ¬ s.Opened id) : s.liveChunks id = [] := by
  refine List.filterMap_eq_nil_iff.2 fun msg hmsg ↦ ?_
  cases msg with
  | live id' chunk => exact if_neg fun hid ↦ h (State.Opened.stored _ hmsg hid)
  | _ => rfl

theorem backfillChunks_of_not_opened (h : ¬ s.Opened id) : s.backfillChunks id = [] := by
  refine List.filterMap_eq_nil_iff.2 fun msg hmsg ↦ ?_
  cases msg with
  | backfill id' chunk since => exact if_neg fun hid ↦ h (State.Opened.stored _ hmsg hid)
  | _ => rfl

end Rules

section Steps

variable {below : Bytes → Bool} {s t : State} {w : Coroutine} {id : SessionId}
  {chunks : List Captured}

/-! ### Stops -/

theorem spawning_of_moved (h : Moved s t w) (hnone : w = .control → s.ctrl.spawning = []) :
    t.ctrl.spawning = s.ctrl.spawning := by
  cases h with
  | audio hctrl _ => rw [hctrl]
  | control _ hctrl =>
    rw [hnone rfl]
    rcases hctrl with ⟨raised, hctrl⟩ | ⟨pc, hctrl⟩ <;> rw [hctrl] <;> rfl

/-- A stop that leaves the session active. -/
theorem switching_stopping (h : Switching chunks id s) (hS : Stopping w s t)
    (hmem : t.mem = s.mem ∨ t.mem = s.mem.idle)
    (hstays : s.mem.sessionId = none ∨ t.mem.sessionId = s.mem.sessionId) {E : List Stored}
    (hstored : t.broker.audio = s.broker.audio ++ E) (hE : ∀ msg ∈ E, ∃ id', msg = .liveEos id')
    (hnone : w = .control → s.ctrl.spawning = []) : Switching chunks id t := by
  have hid : t.mem.sessionId = s.mem.sessionId := by
    rcases hstays with hidle | hsame
    · refine (Option.eq_none_iff_forall_ne_some.2 fun id' hid' ↦ ?_).trans hidle.symm
      cases hidle.symm.trans (sessionId_of_mem hmem id' hid')
    · exact hsame
  refine h.of_eq hid hS.preBuffer hS.expired (liveChunks_of_append hstored (fun _ msg hmsg ↦ ?_) id)
    (backfillChunks_of_append hstored fun msg hmsg ↦ ?_) (tasksOf_of_eq hS.flushes)
    (spawning_of_moved hS.loops hnone)
  · obtain ⟨id', rfl⟩ := hE msg hmsg
    rfl
  · obtain ⟨id', rfl⟩ := hE msg hmsg
    rfl

theorem switching_stopStep (h : Switching chunks id s) {pc : StopPc} {r : Reply}
    (hstays : s.mem.sessionId = none ∨ (stopStep s pc r w).mem.sessionId = s.mem.sessionId)
    (hnone : w = .control → s.ctrl.spawning = []) : Switching chunks id (stopStep s pc r w) :=
  switching_stopping h stopping_stopStep (mem_stopStep s r w pc) hstays
    ((stored_stopStep s r w pc).trans (List.append_nil _).symm) (by simp) hnone

/-- A stop that does not end the session at once leaves the chunks where they are. -/
theorem switching_beginStop (h : Switching chunks id s) {now : Stamp} {r : Reply}
    (hstays : s.mem.sessionId = none ∨ (beginStop s now r w).mem.sessionId = s.mem.sessionId)
    (hnone : w = .control → s.ctrl.spawning = []) : Switching chunks id (beginStop s now r w) := by
  refine switching_stopping h stopping_beginStop ?_ hstays (stored_beginStop s r w now)
    (fun msg hmsg ↦ ?_) hnone
  · rw [mem_beginStop]
    exact ite_eq_or_eq _ _ _
  · split at hmsg
    · obtain ⟨id', -, rfl⟩ := List.mem_map.1 hmsg
      exact ⟨id', rfl⟩
    · contradiction

/-! ### Starts -/

/-- The session of an id nothing bears becomes active: the whole pre-roll is still to be copied. -/
theorem switching_activate (h : Switching chunks id s) (hnone : s.mem.sessionId = none)
    {stamp : Stamp} {label : Json} {r : Reply} (hnot : stamp.id = id → ¬ s.Opened id) :
    Switching chunks id (activate s stamp label r) := by
  have hid : (activate s stamp label r).mem.sessionId = some stamp.id := by
    rw [mem_activate]
    split <;> rfl
  have hpre := preRoll_of_eq (preBuffer_activate s stamp label r) (expired_activate s stamp label r)
  have hstored := stored_activate s stamp label r
  refine ⟨fun hidle ↦ ?_, fun hsome ↦ ?_, fun hsome ↦ ?_⟩
  · cases hid.symm.trans hidle
  · obtain rfl : stamp.id = id := Option.some.inj (hid.symm.trans hsome)
    rw [hpre, liveChunks_of_audio hstored, liveChunks_of_not_opened (hnot rfl), List.append_nil]
    exact h.idle hnone
  · obtain rfl : stamp.id = id := Option.some.inj (hid.symm.trans hsome)
    have hcopies : (activate s stamp label r).backfillChunks stamp.id = [] :=
      (backfillChunks_of_audio hstored).trans (backfillChunks_of_not_opened (hnot rfl))
    have htasks := tasksOf_of_not_opened (hnot rfl)
    rcases hkv : s.mem.configKv with - | -
    · -- Without a config handle the flush task is spawned in the same step.
      refine Copied.copying ⟨stamp.id, s.captured, .subscribing⟩ ?_ ?_ rfl ?_
      · rw [activate, hkv]
        simp [spawnFlush, CtrlPc.spawning]
      · have hspawned : (activate s stamp label r).flushes =
            s.flushes ++ [⟨stamp.id, s.captured, .subscribing⟩] := by
          rw [activate, hkv]
          rfl
        rw [tasksOf_of_append hspawned, htasks, if_pos rfl]
        rfl
      · rw [hcopies]
        rfl
    · refine Copied.unspawned ?_ ?_ hcopies
      · rw [activate, hkv]
        exact List.mem_singleton_self _
      · rw [activate, hkv]
        exact htasks

/-- The start of the session itself, or of one before it; its id is taken once. -/
theorem switching_beginStart (h : Switching chunks id s) (hclaimed : Claimed s)
    (hnone : s.mem.sessionId = none) (hspawning : s.ctrl.spawning = []) {stamp : Stamp}
    {label : Json} {r : Reply} (honce : (beginStart s stamp label r).started.count id ≤ 1) :
    Switching chunks id (beginStart s stamp label r) := by
  rcases hkv : s.mem.sessionKv with - | -
  · rw [beginStart_of_no_kv s stamp label r hkv] at honce ⊢
    have hbegan : Switching chunks id (s.record (.startBegan stamp.id)) :=
      h.of_eq rfl rfl rfl (liveChunks_of_audio rfl id) (backfillChunks_of_audio rfl)
        (tasksOf_of_eq rfl) rfl
    refine switching_activate hbegan hnone ?_
    rintro rfl ho
    rw [started_activate, started_startBegan, List.count_append, List.count_singleton_self] at honce
    have hopened : s.Opened stamp.id :=
      opened_of_eq (s := s) (t := s.record (.startBegan stamp.id)) (fun _ hid ↦ hid)
        (fun _ hid ↦ hid) rfl rfl _ ho
    have hbefore := List.count_pos_iff.2 (hclaimed.opened stamp.id hopened)
    omega
  · rw [beginStart_of_kv s stamp label r hkv]
    exact h.of_eq rfl rfl rfl (liveChunks_of_audio rfl id) (backfillChunks_of_audio rfl)
      (tasksOf_of_eq rfl) hspawning.symm

/-- Here the two halves meet: what was captured before the activation is for the flush task, and
what comes after it goes to the live subject. -/
theorem switching_spawnFlush (h : Switching chunks id s) {stamp : Stamp} {label : Json} {since : ℕ}
    {value : Option ℤ} {r : Reply}
    (hctrl : s.ctrl = .starting (.configReading stamp label since value)) :
    Switching chunks id (spawnFlush s stamp label since value r) := by
  have hspawning : s.ctrl.spawning = [stamp.id] := by rw [hctrl]; rfl
  have hpre : (spawnFlush s stamp label since value r).broker.preBuffer = s.broker.preBuffer := by
    simp [spawnFlush]
  have hexpired : (spawnFlush s stamp label since value r).broker.expired = s.broker.expired := by
    simp [spawnFlush]
  have hstored : (spawnFlush s stamp label since value r).broker.audio = s.broker.audio := by
    simp [spawnFlush]
  have hpreRoll := preRoll_of_eq hpre hexpired
  have hcopies : (spawnFlush s stamp label since value r).backfillChunks id = s.backfillChunks id :=
    backfillChunks_of_audio hstored
  have htasks : (spawnFlush s stamp label since value r).tasksOf id =
      s.tasksOf id ++ if stamp.id = id then [⟨stamp.id, since, .subscribing⟩] else [] :=
    tasksOf_of_append (t := spawnFlush s stamp label since value r)
      (f := ⟨stamp.id, since, .subscribing⟩) rfl
  have hnone : id ∉ (spawnFlush s stamp label since value r).ctrl.spawning := by
    simp [spawnFlush, CtrlPc.spawning]
  refine ⟨fun hidle ↦ ?_, fun hsome ↦ ?_, fun hsome ↦ ?_⟩
  · rw [hpreRoll]
    exact h.idle hidle
  · rw [hpreRoll, liveChunks_of_audio hstored]
    exact h.routed hsome
  · cases h.copied hsome with
    | unspawned hs ht hc =>
      rw [hspawning] at hs
      obtain rfl := List.mem_singleton.1 hs
      rw [ht, if_pos rfl, List.nil_append] at htasks
      refine Copied.copying _ hnone htasks rfl ?_
      rw [hcopies, hc]
      rfl
    | copying f hs ht hok hc =>
      have hother : stamp.id ≠ id :=
        fun hid ↦ hs (by rw [hspawning, hid]; exact List.mem_singleton_self _)
      rw [ht, if_neg hother, List.append_nil] at htasks
      refine Copied.copying f hnone htasks hok ?_
      rw [hcopies, left_of_eq hpre hexpired, hpreRoll]
      exact hc
    | copied hs ht hc =>
      have hother : stamp.id ≠ id :=
        fun hid ↦ hs (by rw [hspawning, hid]; exact List.mem_singleton_self _)
      rw [ht, if_neg hother, List.append_nil] at htasks
      refine Copied.copied hnone htasks ?_
      rw [hcopies, hpreRoll]
      exact hc

/-- The calls of a start, up to the spawn of the flush task. -/
theorem switching_startStep (h : Switching chunks id s) (hclaimed : Claimed s)
    (hguarded : Guarded s) {pc : StartPc} {r : Reply} (hctrl : s.ctrl = .starting pc)
    (honce : (startStep s pc r).started.count id ≤ 1) : Switching chunks id (startStep s pc r) := by
  cases pc with
  | kvPutting stamp label =>
    have hput : stamp.id ∈ s.ctrl.putting := by
      rw [hctrl]
      exact List.mem_singleton_self _
    refine switching_activate h (hguarded.putting _ hput) ?_
    rintro rfl ho
    rw [startStep, started_activate] at honce
    have htwice := (hclaimed.putting _ hput).2 ho
    omega
  | configReading stamp label since value => exact switching_spawnFlush h hctrl
  | eventPublishing =>
    exact h.of_eq rfl rfl rfl (liveChunks_of_audio rfl id) (backfillChunks_of_audio rfl)
      (tasksOf_of_eq rfl) (by rw [hctrl]; rfl)

/-! ### The flush task -/

/-- Setting, or erasing, the flush task of another session. -/
theorem filter_of_other {tasks : List Flush} {i : ℕ} {f g : Flush} (hi : tasks[i]? = some f)
    (hf : f.id ≠ id) (hg : g.id ≠ id) :
    (tasks.set i g).filter (·.id = id) = tasks.filter (·.id = id) ∧
      (tasks.eraseIdx i).filter (·.id = id) = tasks.filter (·.id = id) := by
  induction tasks generalizing i with
  | nil => simp at hi
  | cons f' tasks ih =>
    cases i with
    | zero =>
      obtain rfl := Option.some.inj hi
      simp [hf, hg]
    | succ i =>
      obtain ⟨hset, herase⟩ := ih (i := i) hi
      simp [List.filter_cons, hset, herase]

/-- Setting, or erasing, the only flush task of the session. -/
theorem filter_of_only {tasks : List Flush} {i : ℕ} {f f' g : Flush} (hi : tasks[i]? = some f)
    (hf : f.id = id) (hg : g.id = id) (honly : tasks.filter (·.id = id) = [f']) :
    f' = f ∧ (tasks.set i g).filter (·.id = id) = [g] ∧
      (tasks.eraseIdx i).filter (·.id = id) = [] := by
  induction tasks generalizing i with
  | nil => simp at hi
  | cons h tasks ih =>
    cases i with
    | zero =>
      obtain rfl := Option.some.inj hi
      rw [List.filter_cons_of_pos (by simpa using hf)] at honly
      obtain ⟨rfl, hnil⟩ := List.cons.inj honly
      exact ⟨rfl, by simp [hg, hnil], hnil⟩
    | succ i =>
      by_cases hid : h.id = id
      · rw [List.filter_cons_of_pos (by simpa using hid)] at honly
        have hnil := (List.cons.inj honly).2
        have hmem : f ∈ tasks.filter (·.id = id) :=
          List.mem_filter.2 ⟨List.mem_of_getElem? (i := i) hi, decide_eq_true hf⟩
        rw [hnil] at hmem
        contradiction
      · rw [List.filter_cons_of_neg (by simpa using hid)] at honly
        obtain ⟨heq, hset, herase⟩ := ih (i := i) hi honly
        exact ⟨heq, by simp [hid, hset], by simp [hid, herase]⟩

/-- What is left from a position on is what a batch takes, and what is left after the batch. -/
theorem preRoll_eq_take {broker : Broker} {cursor n : ℕ} {chunk : Captured} {rest : List Captured}
    (h : (broker.preRoll cursor).take n = chunk :: rest) :
    broker.preRoll cursor = chunk :: rest ++
      broker.preRoll (max cursor broker.expired + rest.length + 1) := by
  have hlen : (chunk :: rest).length = min n (broker.preRoll cursor).length := by
    rw [← h, List.length_take]
  have htake : (broker.preRoll cursor).take (rest.length + 1) = chunk :: rest := by
    rw [← h, List.take_eq_take_iff, ← List.length_cons (a := chunk), hlen]
    omega
  have hdrop : broker.preRoll (max cursor broker.expired + rest.length + 1) =
      (broker.preRoll cursor).drop (rest.length + 1) := by
    rw [Broker.preRoll, Broker.preRoll, List.drop_drop]
    congr 1
    omega
  rw [hdrop, ← htake, List.take_append_drop]

/-- The flush task of the session moves on, with what it publishes. -/
theorem Copied.move {f : Flush} {i : ℕ} (pc : FlushPc) (E : List Stored)
    (hi : s.flushes[i]? = some f) (hf : f.id = id) (htasks : s.tasksOf id = [f])
    (hspawning : id ∉ s.ctrl.spawning) (hok : pc.failed = false)
    (hcopies : s.backfillChunks id ++ E.filterMap (Stored.copyOn id) ++ pc.left s.broker =
      s.broker.preRoll 0)
    (hflushes : t.flushes = s.flushes.set i { f with pc := pc }) (hctrl : t.ctrl = s.ctrl)
    (hstored : t.broker.audio = s.broker.audio ++ E)
    (hpre : t.broker.preBuffer = s.broker.preBuffer)
    (hexpired : t.broker.expired = s.broker.expired) : Copied t id := by
  obtain ⟨-, hset, -⟩ := filter_of_only (g := { f with pc := pc }) hi hf hf htasks
  refine Copied.copying { f with pc := pc } (hctrl ▸ hspawning) ?_ hok ?_
  · rw [State.tasksOf, hflushes]
    exact hset
  · rw [State.backfillChunks, hstored, List.filterMap_append, left_of_eq hpre hexpired,
      preRoll_of_eq hpre hexpired]
    exact hcopies

/-- A batch that is copied without a failure moves the cursor behind it. -/
theorem copied_flushBatch {f : Flush} {i : ℕ} (hi : s.flushes[i]? = some f) (hf : f.id = id)
    (htasks : s.tasksOf id = [f]) (hspawning : id ∉ s.ctrl.spawning) {cursor : ℕ}
    {batch : List Captured}
    (hcopies : s.backfillChunks id ++ (batch ++ s.broker.preRoll cursor) = s.broker.preRoll 0) :
    Copied (flushBatch s i f cursor batch .ok) id := by
  cases batch with
  | nil =>
    exact Copied.move (.fetching cursor) [] hi hf htasks hspawning rfl
      (by simpa [FlushPc.left] using hcopies) rfl rfl (List.append_nil _).symm rfl rfl
  | cons chunk rest =>
    refine Copied.move (.publishing cursor rest false) [.backfill f.id chunk f.since] hi hf
      htasks hspawning rfl ?_ rfl rfl rfl rfl rfl
    simpa [Stored.copyOn, hf, FlushPc.left] using hcopies

theorem copied_flushEos {f : Flush} {i : ℕ} (hi : s.flushes[i]? = some f) (hf : f.id = id)
    (htasks : s.tasksOf id = [f]) (hspawning : id ∉ s.ctrl.spawning)
    (hcopies : s.backfillChunks id = s.broker.preRoll 0) : Copied (flushEos s i f .ok) id :=
  Copied.move .eosPublishing [.backfillEos f.id] hi hf htasks hspawning rfl
    (by rw [hcopies]; exact (List.append_nil _).trans (List.append_nil _)) rfl rfl rfl rfl rfl

/-- The flush task of the session, whose calls succeed, loses its place in the pre-roll nowhere. -/
theorem copied_flushStep (h : Copied s id) {f : Flush} {i : ℕ} (hi : s.flushes[i]? = some f)
    (hf : f.id = id) {answer : Fetched} (hhonest : honestFetch s (.flush i answer .ok) = true) :
    Copied (flushStep s i f answer .ok) id := by
  have hmem : f ∈ s.tasksOf id :=
    List.mem_filter.2 ⟨List.mem_of_getElem? hi, decide_eq_true hf⟩
  cases h with
  | unspawned hs ht hc =>
    rw [ht] at hmem
    contradiction
  | copied hs ht hc =>
    rw [ht] at hmem
    contradiction
  | copying f' hs ht hok hc =>
    obtain ⟨rfl, -, herase⟩ := filter_of_only (g := f) hi hf hf ht
    obtain ⟨fid, since, pc⟩ := f'
    cases pc with
    | subscribing =>
      exact Copied.move (.fetching 0) [] hi hf ht hs rfl (by simpa [FlushPc.left] using hc)
        rfl rfl (List.append_nil _).symm rfl rfl
    | fetching cursor =>
      rw [honestFetch, hi] at hhonest
      have hnothing : s.broker.preRoll cursor = [] → s.backfillChunks id = s.broker.preRoll 0 := by
        intro hempty
        rw [← hc, FlushPc.left, hempty, List.append_nil]
      have hdelivers : answer.delivers = true ∨ s.broker.preRoll cursor = [] := by
        rcases Bool.or_eq_true_iff.1 hhonest with hdelivers | hempty
        · exact Or.inl hdelivers
        · exact Or.inr (List.isEmpty_iff.1 hempty)
      cases answer with
      | raised =>
        refine copied_flushEos hi hf ht hs (hnothing ?_)
        rcases hdelivers with hdelivers | hempty
        · contradiction
        · exact hempty
      | msgs n =>
        simp only [flushStep]
        split
        · rename_i htake
          refine copied_flushEos hi hf ht hs (hnothing ?_)
          rcases hdelivers with hdelivers | hempty
          · rcases List.take_eq_nil_iff.1 htake with hzero | hempty
            · have hpos : 0 < n := of_decide_eq_true hdelivers
              omega
            · exact hempty
          · exact hempty
        · rename_i chunk rest htake
          refine copied_flushBatch hi hf ht hs ?_
          rw [← preRoll_eq_take htake]
          exact hc
    | publishing cursor rest raised =>
      obtain rfl : raised = false := hok
      exact Copied.move (.acking cursor rest false) [] hi hf ht hs rfl
        (by simpa [FlushPc.left] using hc) rfl rfl (List.append_nil _).symm rfl rfl
    | acking cursor rest raised =>
      obtain rfl : raised = false := hok
      exact copied_flushBatch hi hf ht hs hc
    | eosPublishing =>
      refine Copied.copied hs herase ?_
      rw [FlushPc.left, List.append_nil] at hc
      exact hc

/-- A flush task touches neither the chunks on the live subjects nor the session. -/
theorem switching_flushStep (h : Switching chunks id s) {f : Flush} {i : ℕ}
    (hi : s.flushes[i]? = some f) {answer : Fetched}
    (hhonest : honestFetch s (.flush i answer .ok) = true) :
    Switching chunks id (flushStep s i f answer .ok) := by
  have hF := flushed_flushStep s i f answer .ok
  have hlive : (flushStep s i f answer .ok).liveChunks id = s.liveChunks id := by
    rcases hF.stored with hsame | ⟨msg, hmsg, hnew⟩
    · exact liveChunks_of_audio hsame id
    · refine liveChunks_of_append hnew (fun id msg' hmsg' ↦ ?_) id
      rw [List.mem_singleton.1 hmsg']
      cases msg <;> first | rfl | contradiction
  have hpreRoll := preRoll_of_eq hF.preBuffer hF.expired
  refine ⟨fun hidle ↦ ?_, fun hsome ↦ ?_, fun hsome ↦ ?_⟩
  · rw [hpreRoll]
    exact h.idle (hF.mem ▸ hidle)
  · rw [hpreRoll, hlive]
    exact h.routed (hF.mem ▸ hsome)
  · have hcopied := h.copied (hF.mem ▸ hsome)
    by_cases hf : f.id = id
    · exact copied_flushStep hcopied hi hf hhonest
    · have hspawning : (flushStep s i f answer .ok).ctrl.spawning = s.ctrl.spawning := by
        rw [hF.ctrl]
      cases flushMoved_flushStep s i f .ok answer with
      | moved pc E hflushes hstored hE =>
        refine hcopied.of_eq hF.preBuffer hF.expired
          (backfillChunks_of_append hstored fun msg hmsg ↦ ?_)
          ?_ hspawning
        · have hsession := hE msg hmsg
          cases msg with
          | backfill id' chunk since => exact if_neg fun hid ↦ hf (hsession.symm.trans hid)
          | _ => rfl
        · rw [State.tasksOf, hflushes]
          exact (filter_of_other (g := { f with pc := pc }) hi hf hf).1
      | ended hflushes hstored =>
        refine hcopied.of_eq hF.preBuffer hF.expired (backfillChunks_of_audio hstored) ?_ hspawning
        rw [State.tasksOf, hflushes]
        exact (filter_of_other hi hf hf).2

/-! ### The loops -/

/-- A step that moves the loops, away from the spawn of a flush task. -/
theorem switching_moved (h : Switching chunks id s) (hid : t.mem.sessionId = s.mem.sessionId)
    (hbroker : t.broker = s.broker) (hflushes : t.flushes = s.flushes)
    (hspawning : t.ctrl.spawning = s.ctrl.spawning) : Switching chunks id t :=
  h.of_eq hid (congrArg _ hbroker) (congrArg _ hbroker)
    (liveChunks_of_audio (congrArg _ hbroker) id)
    (backfillChunks_of_audio (congrArg _ hbroker)) (tasksOf_of_eq hflushes) hspawning

/-- A command that does not end the session, nor takes its id again. -/
theorem switching_handleControlMessage (h : Switching chunks id s) (hclaimed : Claimed s)
    (hguarded : Guarded s) (hctrl : s.ctrl = .fetching) {payload : Option Json} {now : Stamp}
    {r : Reply} (honce : (handleControlMessage s payload now r).started.count id ≤ 1)
    (hstays : s.mem.sessionId = none ∨
      (handleControlMessage s payload now r).mem.sessionId = s.mem.sessionId) :
    Switching chunks id (handleControlMessage s payload now r) := by
  have hspawning : s.ctrl.spawning = [] := by rw [hctrl]; rfl
  have hmove : ∀ pc : CtrlPc, pc.spawning = [] → Switching chunks id { s with ctrl := pc } :=
    fun pc hpc ↦
    switching_moved h rfl rfl rfl (hpc.trans hspawning.symm)
  rw [handleControlMessage.eq_def] at honce hstays ⊢
  split at honce
  · exact hmove _ rfl
  · split at honce
    · rename_i hcommand
      rw [if_pos hcommand]
      split at honce
      · rename_i hactive
        rw [if_pos hactive]
        exact hmove _ rfl
      · rename_i hidle
        rw [if_neg hidle]
        exact switching_beginStart h hclaimed (hguarded.none_of_idle (Bool.not_eq_true _ ▸ hidle))
          hspawning honce
    · rename_i hcommand
      simp only [if_neg hcommand] at hstays ⊢
      split at honce
      · rename_i hstop
        rw [if_pos hstop] at hstays ⊢
        exact switching_beginStop h hstays fun _ ↦ hspawning
      · rename_i hother
        rw [if_neg hother]
        exact hmove _ rfl
  · exact hmove _ rfl

/-- A silence check that does not end the session. -/
theorem switching_checkSilence (h : Switching chunks id s) {data : Bytes} {b : Bool} {now : Stamp}
    {r : Reply} (hstays : s.mem.sessionId = none ∨
      (checkSilence s data b now r).mem.sessionId = s.mem.sessionId) :
    Switching chunks id (checkSilence s data b now r) := by
  have hcounted : Switching chunks id
    { s with mem := s.mem.countSilence data b, audio := .waiting } :=
    switching_moved h rfl rfl rfl rfl
  simp only [checkSilence] at hstays ⊢
  split at hstays
  · rename_i hodd
    rw [if_pos hodd]
    exact switching_moved h rfl rfl rfl rfl
  · rename_i heven
    rw [if_neg heven]
    split at hstays
    · rename_i hsilent
      rw [if_pos hsilent]
      exact switching_beginStop hcounted hstays fun hw ↦ by contradiction
    · rename_i hsilent
      rw [if_neg hsilent]
      exact hcounted

/-- The chunk goes to the end of the pre-roll, or to the live subject. -/
theorem switching_routeChunk (h : Switching chunks id s) (hguarded : Guarded s)
    (hstocked : s.broker.expired ≤ s.broker.preBuffer.length) {data : Bytes} :
    Switching (chunks ++ [⟨s.captured, data⟩]) id (routeChunk s data .ok) := by
  rw [routeChunk.eq_def]
  split
  · rename_i id' hactive hid'
    refine ⟨fun hidle ↦ ?_, fun hsome ↦ ?_, fun hsome ↦ ?_⟩
    · cases hid'.symm.trans hidle
    · obtain rfl : id' = id := Option.some.inj (hid'.symm.trans hsome)
      have hrouted := h.routed hid'
      rw [← hrouted, List.append_assoc]
      congr 1
      show (s.broker.audio ++
        [Stored.live id' ⟨s.captured, data⟩]).filterMap (Stored.chunkOn id') = _
      rw [List.filterMap_append]
      simp [Stored.chunkOn, State.liveChunks]
    · obtain rfl : id' = id := Option.some.inj (hid'.symm.trans hsome)
      refine (h.copied hid').of_eq rfl rfl (backfillChunks_of_append
        (E := [.live id' ⟨s.captured, data⟩]) rfl fun msg hmsg ↦ ?_) (tasksOf_of_eq rfl) rfl
      rw [List.mem_singleton.1 hmsg]
      rfl
  · rename_i hinactive
    have hnone : s.mem.sessionId = none := by
      by_contra hsome
      obtain ⟨id', hid'⟩ := Option.ne_none_iff_exists'.1 hsome
      exact hinactive id' (by rw [hguarded.flag, hid']; rfl) hid'
    refine ⟨fun _ ↦ ?_, fun hsome ↦ ?_, fun hsome ↦ ?_⟩
    · show (s.broker.preBuffer ++
        [(⟨s.captured, data⟩ : Captured)]).drop (max 0 s.broker.expired) = _
      rw [List.drop_append_of_le_length (by omega)]
      exact congrArg (· ++ [⟨s.captured, data⟩]) (h.idle hnone)
    all_goals cases hnone.symm.trans hsome

/-! ### The pre-roll holds what has not expired -/

/-- A message expires after it is stored. -/
theorem stocked_step {a : Action} (h : s.broker.expired ≤ s.broker.preBuffer.length)
    (ht : step below s a = some t) : t.broker.expired ≤ t.broker.preBuffer.length := by
  have hstop : ∀ {u v : State} {w : Coroutine}, Stopping w u v →
      u.broker.expired ≤ u.broker.preBuffer.length →
        v.broker.expired ≤ v.broker.preBuffer.length := by
    intro u v w hS hu
    rwa [hS.expired, hS.preBuffer]
  have hactivate : ∀ (u : State) (stamp : Stamp) (label : Json) (r : Reply),
      u.broker.expired ≤ u.broker.preBuffer.length →
      (activate u stamp label r).broker.expired ≤
        (activate u stamp label r).broker.preBuffer.length := by
    intro u stamp label r hu
    rwa [expired_activate, preBuffer_activate]
  cases stepped_of_step ht with
  | boot hdown sessionKv configKv raised => rwa [broker_boot]
  | chunk hup haudio data r =>
    rw [routeChunk.eq_def]
    split
    · rw [broker_publish]
      exact h
    · show (Broker.expired (if r.applied = true then _ else _)) ≤
        (Broker.preBuffer (if r.applied = true then _ else _)).length
      split
      · exact h.trans (by simp)
      · exact h
  | published hup haudio now r =>
    simp only [checkSilence]
    split
    · exact h
    · split
      · exact hstop stopping_beginStop h
      · exact h
  | audioStop hup haudio now r => exact hstop stopping_stopStep h
  | message hup hctrl payload now r =>
    rw [handleControlMessage.eq_def]
    split
    · exact h
    · split
      · split
        · exact h
        · rename_i data _ _
          rcases hkv : s.mem.sessionKv with - | -
          · rw [beginStart_of_no_kv s now _ r hkv]
            exact hactivate _ now _ r h
          · rw [beginStart_of_kv s now _ r hkv]
            exact h
      · split
        · exact hstop stopping_beginStop h
        · exact h
    · exact h
  | @ctrlStart pc hup hctrl r =>
    cases pc with
    | kvPutting stamp label => exact hactivate s stamp label r h
    | configReading stamp label since value => simpa [startStep, spawnFlush] using h
    | eventPublishing => exact h
  | ctrlStop hup hctrl r => exact hstop stopping_stopStep h
  | @flush i f hup hi answer r =>
    have hF := flushed_flushStep s i f answer r
    rwa [hF.expired, hF.preBuffer]
  | expire n => exact Nat.min_le_right _ _
  | _ => exact h

theorem stocked_inductive (below : Bytes → Bool) (G : State → Action → Prop) :
    (system below).Inductive G fun s ↦ s.broker.expired ≤ s.broker.preBuffer.length where
  init s hs := by
    obtain rfl : s = {} := hs
    exact le_rfl
  step h _ ht := stocked_step h ht

/-! ### Runs -/

/-- A step takes at most one more id, and counts the chunk it captures. -/
structure Grown (s : State) (a : Action) (t : State) : Prop where
  started : s.started <+: t.started
  captured : t.captured = s.captured + a.captured.toList.length

theorem Grown.of_eq {a : Action} (hstarted : t.started = s.started)
    (hcaptured : t.captured = s.captured) (ha : a.captured = none) : Grown s a t :=
  ⟨hstarted ▸ List.prefix_refl _, by rw [hcaptured, ha]; rfl⟩

theorem Grown.of_stopping {a : Action} (hS : Stopping w s t) (ha : a.captured = none) :
    Grown s a t :=
  Grown.of_eq hS.started hS.captured ha

/-- A start takes its id and captures nothing. -/
theorem grown_beginStart (stamp : Stamp) (label : Json) (r : Reply) {a : Action}
    (ha : a.captured = none) : Grown s a (beginStart s stamp label r) := by
  rcases hkv : s.mem.sessionKv with - | -
  · rw [beginStart_of_no_kv s stamp label r hkv]
    refine ⟨?_, ?_⟩
    · rw [started_activate, started_startBegan]
      exact List.prefix_append _ _
    · rw [captured_activate, ha]
      rfl
  · refine ⟨?_, ?_⟩
    · rw [beginStart_of_kv s stamp label r hkv, State.started, State.started, List.filterMap_append]
      exact List.prefix_append _ _
    · rw [beginStart_of_kv s stamp label r hkv, ha]
      rfl

/-- By the cases of a step; only `capture` counts a chunk. -/
theorem grown_step {a : Action} (ht : step below s a = some t) : Grown s a t := by
  cases stepped_of_step ht with
  | boot hdown sessionKv configKv raised =>
    exact Grown.of_eq (started_boot s sessionKv configKv raised) (captured_boot s _ _ _) rfl
  | crash hup => exact Grown.of_eq (started_crash s) rfl rfl
  | chunk hup haudio data r =>
    rw [routeChunk.eq_def]
    split
    · exact ⟨(started_of_trace (trace_publish s _ r)) ▸ List.prefix_refl _, rfl⟩
    · exact ⟨List.prefix_refl _, rfl⟩
  | published hup haudio now r =>
    simp only [checkSilence]
    split
    · exact Grown.of_eq rfl rfl rfl
    · split
      · exact Grown.of_eq stopping_beginStop.started stopping_beginStop.captured rfl
      · exact Grown.of_eq rfl rfl rfl
  | audioStop hup haudio now r => exact Grown.of_stopping stopping_stopStep rfl
  | message hup hctrl payload now r =>
    rw [handleControlMessage.eq_def]
    split
    · exact Grown.of_eq rfl rfl rfl
    · split
      · split
        · exact Grown.of_eq rfl rfl rfl
        · exact grown_beginStart now _ r rfl
      · split
        · exact Grown.of_stopping stopping_beginStop rfl
        · exact Grown.of_eq rfl rfl rfl
    · exact Grown.of_eq rfl rfl rfl
  | @ctrlStart pc hup hctrl r =>
    cases pc with
    | kvPutting stamp label =>
      exact Grown.of_eq (started_activate stamp label r) (captured_activate s stamp label r) rfl
    | configReading stamp label since value =>
      exact Grown.of_eq (started_of_trace (trace_announce s _ r)) (captured_announce s _ r) rfl
    | eventPublishing => exact Grown.of_eq rfl rfl rfl
  | ctrlStop hup hctrl r => exact Grown.of_stopping stopping_stopStep rfl
  | @flush i f hup hi answer r =>
    have hF := flushed_flushStep s i f answer r
    exact Grown.of_eq (started_flushStep s i f answer r) hF.captured rfl
  | _ => exact Grown.of_eq rfl rfl rfl

/-- **One step** of the switch. -/
theorem switching_step {a : Action} (h : Switching chunks id s) (hclaimed : Claimed s)
    (hguarded : Guarded s) (hstocked : s.broker.expired ≤ s.broker.preBuffer.length)
    (hswitch : switching below s a = true) (ht : step below s a = some t)
    (honce : t.started.count id ≤ 1) :
    Switching (chunks ++ a.captured.toList.map fun data ↦ ⟨s.captured, data⟩) id t := by
  rw [switching, Bool.and_eq_true, Bool.and_eq_true, Bool.and_eq_true] at hswitch
  obtain ⟨⟨⟨hok, hgoes⟩, hhonest⟩, hstays⟩ := hswitch
  rw [ht] at hstays
  have hstays' : s.mem.sessionId = none ∨ t.mem.sessionId = s.mem.sessionId :=
    of_decide_eq_true hstays
  have hquiet : ∀ {u : State}, Switching chunks id u → Switching (chunks ++ []) id u := fun hu ↦
    (List.append_nil chunks).symm ▸ hu
  cases stepped_of_step ht with
  | boot hdown sessionKv configKv raised => contradiction
  | crash hup => contradiction
  | chunk hup haudio data r =>
    obtain rfl : r = .ok := of_decide_eq_true hok
    exact switching_routeChunk h hguarded hstocked
  | published hup haudio now r => exact hquiet (switching_checkSilence h hstays')
  | dropped hup haudio now r => exact hquiet (switching_moved h rfl rfl rfl rfl)
  | buffered hup haudio now r => exact hquiet (switching_moved h rfl rfl rfl rfl)
  | audioStop hup haudio now r =>
    exact hquiet (switching_stopStep h hstays' fun hw ↦ by contradiction)
  | subscribed hup hctrl ok =>
    exact hquiet (switching_moved h rfl rfl rfl (by rw [hctrl]; cases ok <;> rfl))
  | message hup hctrl payload now r =>
    exact hquiet (switching_handleControlMessage h hclaimed hguarded hctrl honce hstays')
  | ctrlStart hup hctrl r => exact hquiet (switching_startStep h hclaimed hguarded hctrl honce)
  | ctrlStop hup hctrl r =>
    exact hquiet (switching_stopStep h hstays' fun _ ↦ by rw [hctrl]; rfl)
  | @ctrlAcked raised hup hctrl r =>
    exact hquiet (switching_moved h rfl rfl rfl (by rw [hctrl]; cases raised <;> rfl))
  | ctrlExit hup hctrl => exact hquiet (switching_moved h rfl rfl rfl (by rw [hctrl]; rfl))
  | flush hup hi answer r =>
    obtain rfl : r = .ok := of_decide_eq_true hok
    exact hquiet (switching_flushStep h hi hhonest)
  | expire n => contradiction
  | setConfig value =>
    exact hquiet (h.of_eq rfl rfl rfl (liveChunks_of_audio rfl id) (backfillChunks_of_audio rfl)
      (tasksOf_of_eq rfl) rfl)

/-- The chunks of a run and of one more step. -/
theorem captures_snoc (n : ℕ) (as : List Action) (a : Action) : captures n (as ++ [a]) =
    captures n as ++ a.captured.toList.map fun data ↦
      ⟨n + (as.filterMap Action.captured).length, data⟩ := by
  rw [captures, List.filterMap_append, List.mapIdx_append, captures]
  congr 1
  cases h : a.captured <;> simp [h]

/-- **Along a run** from an idle state, all chunks captured since are in `PRE_BUFFER` or on the two
subjects of the session. -/
theorem switching_run {as : List Action}
    (hreach : (system below).Reachable TransitionSystem.always s) (hidle : s.mem.sessionId = none)
    (hrun : (system below).Run (fun s a ↦ switching below s a = true) s as t)
    (honce : t.started.count id ≤ 1) :
    Switching (s.broker.preRoll 0 ++ captures s.captured as) id t ∧
      t.captured = s.captured + (as.filterMap Action.captured).length := by
  induction hrun with
  | nil =>
    refine ⟨⟨fun _ ↦ ?_, fun hsome ↦ ?_, fun hsome ↦ ?_⟩, rfl⟩
    · exact (List.append_nil _).symm
    all_goals cases hidle.symm.trans hsome
  | @snoc as a t u hrun hswitch hstep ih =>
    have hgrown := grown_step hstep
    have hreach' := hreach.run (hrun.mono fun _ _ _ ↦ trivial)
    obtain ⟨h, hcaptured⟩ := ih ((hgrown.started.sublist.count_le id).trans honce)
    have hnext := switching_step h ((claimed_inductive below _).reachable hreach')
      ((guarded_inductive below _).reachable hreach')
        ((stocked_inductive below _).reachable hreach')
      hswitch hstep honce
    refine ⟨?_, ?_⟩
    · rw [captures_snoc, ← hcaptured, ← List.append_assoc]
      exact hnext
    · rw [hgrown.captured, hcaptured, List.filterMap_append, List.length_append, Nat.add_assoc]
      congr 2

end Steps

/-! ### Nothing is lost -/

/-- **The switch loses nothing.** From an idle state let a session become active and stay active, in
a run whose calls succeed and whose fetches time out only when nothing is left. If no other start
took the id of the session, then once its flush task has returned the chunks on its backfill subject
and those on its live subject are what `PRE_BUFFER` held and what was captured since, in order. -/
theorem switch_loses_nothing {below : Bytes → Bool} {s t : State} {as : List Action}
    {id : SessionId} (hreach : (system below).Reachable TransitionSystem.always s)
    (hidle : s.mem.sessionId = none)
    (hrun : (system below).Run (fun s a ↦ switching below s a = true) s as t)
    (hactive : t.mem.sessionId = some id) (hspawned : id ∉ t.ctrl.starts)
    (hreturned : ∀ f ∈ t.flushes, f.id ≠ id) (honce : t.started.count id ≤ 1) :
    t.backfillChunks id ++ t.liveChunks id = s.broker.preRoll 0 ++ captures s.captured as := by
  obtain ⟨h, -⟩ := switching_run hreach hidle hrun honce
  have htasks : t.tasksOf id = [] :=
    List.filter_eq_nil_iff.2 fun f hf hid ↦ hreturned f hf (of_decide_eq_true hid)
  rw [← h.routed hactive]
  cases h.copied hactive with
  | unspawned hspawning _ _ => exact absurd (starts_of_spawning hspawning) hspawned
  | copying f _ hf _ _ =>
    rw [htasks] at hf
    contradiction
  | copied _ _ hcopies => rw [hcopies]

/-- A flush task finds the pre-roll read to its end, and returns. -/
def drained : List Action := [.flush 0 .raised .ok, .flush 0 .raised .ok]

/-- A chunk is captured while the producer is idle, one while the start reads the config, and one
while the flush task copies. -/
theorem switch_loses_nothing_three :
    ∃ (s t : State) (as : List Action), (system silent).Reachable TransitionSystem.always s ∧
      s.mem.sessionId = none ∧ (system silent).Run (fun s a ↦ switching silent s a = true) s as t ∧
      t.broker.preRoll 0 = [⟨0, silence⟩] ∧ t.liveChunks first.id = [⟨1, silence⟩, ⟨2, silence⟩] ∧
      t.backfillChunks first.id ++ t.liveChunks first.id =
        s.broker.preRoll 0 ++ captures s.captured as := by
  obtain ⟨s, hs, htest⟩ := TransitionSystem.exists_reachable_of_exec
    (M := system silent) (G := TransitionSystem.always) {}
    (running ++ [.chunk silence .ok, .audio first .ok])
    (fun s ↦ decide (s.mem.sessionId = none) && ((system silent).exec
      (fun s a ↦ switching silent s a = true) s
      (starting first ++ [.chunk silence .ok] ++ started ++
        [.flush 0 .raised .ok, .flush 0 (.msgs 50) .ok, .audio first .ok, .chunk silence .ok,
          .flush 0 .raised .ok, .flush 0 .raised .ok] ++ drained)).any fun t ↦
      t.mem.sessionId = some first.id ∧ first.id ∉ t.ctrl.starts ∧
        (∀ f ∈ t.flushes, f.id ≠ first.id) ∧
        t.started.count first.id ≤ 1 ∧ t.broker.preRoll 0 = [⟨0, silence⟩] ∧
        t.liveChunks first.id = [⟨1, silence⟩, ⟨2, silence⟩]) rfl (by decide +kernel)
  obtain ⟨hidle, hexec⟩ := Bool.and_eq_true_iff.1 htest
  obtain ⟨t, hrun, ht⟩ := TransitionSystem.Run.exists_of_exec hexec
  obtain ⟨hactive, hspawned, hreturned, honce, hpre, hlive⟩ := of_decide_eq_true ht
  exact ⟨s, t, _, hs, of_decide_eq_true hidle, hrun, hpre, hlive,
    switch_loses_nothing hs (of_decide_eq_true hidle) hrun hactive hspawned hreturned honce⟩

/-- A session is started, publishes a chunk, and is stopped; within the second the next session is
started. It takes the same id, and its live subject holds a chunk from before the producer was
idle. -/
theorem switch_same_second :
    ∃ (s t : State) (as : List Action), (system silent).Reachable TransitionSystem.always s ∧
      s.mem.sessionId = none ∧ (system silent).Run (fun s a ↦ switching silent s a = true) s as t ∧
      t.mem.sessionId = some first.id ∧ first.id ∉ t.ctrl.starts ∧
        (∀ f ∈ t.flushes, f.id ≠ first.id) ∧
      s.broker.preRoll 0 = [] ∧ captures s.captured as = [] ∧
      t.backfillChunks first.id ++ t.liveChunks first.id = [⟨0, silence⟩] := by
  obtain ⟨s, hs, htest⟩ := TransitionSystem.exists_reachable_of_exec
    (M := system silent) (G := TransitionSystem.always) {}
    (running ++ starting first ++ started ++ [.flush 0 .raised .ok] ++ drained ++
      [.chunk silence .ok, .audio first .ok, .message (command "stop") first .ok, .ctrl .ok,
        .ctrl .ok, .ctrl .ok, .ctrl .ok])
    (fun s ↦ decide (s.mem.sessionId = none ∧ s.broker.preRoll 0 = []) && ((system silent).exec
      (fun s a ↦ switching silent s a = true) s
      (starting first ++ started ++ [.flush 0 .raised .ok] ++ drained)).any fun t ↦
      t.mem.sessionId = some first.id ∧ first.id ∉ t.ctrl.starts ∧
        (∀ f ∈ t.flushes, f.id ≠ first.id) ∧
        t.backfillChunks first.id ++ t.liveChunks first.id = [⟨0, silence⟩]) rfl (by decide +kernel)
  obtain ⟨hbefore, hexec⟩ := Bool.and_eq_true_iff.1 htest
  obtain ⟨hidle, hpre⟩ := of_decide_eq_true hbefore
  obtain ⟨t, hrun, ht⟩ := TransitionSystem.Run.exists_of_exec hexec
  obtain ⟨hactive, hspawned, hreturned, hchunks⟩ := of_decide_eq_true ht
  exact ⟨s, t, _, hs, hidle, hrun, hactive, hspawned, hreturned, hpre, rfl, hchunks⟩

end LiveSTT.AudioProducer
