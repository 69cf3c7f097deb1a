import LiveSTT.AudioProducer.Refinement

/-!
# What the backfill carries

A flush task copies `PRE_BUFFER` to the backfill subject of its session until a fetch finds nothing
new for a second. The stream holds the pre-roll of the session as long as nobody adds to it, and the
audio loop does not while the session is active. So what is copied was captured before the session
became active, provided that no chunk goes to `preroll.audio` while a flush task is copying or is
about to be spawned (`backfill_is_preroll`). A stop ends the session but not its flush task: the
chunks captured after it go to the stream the task is still reading (`backfill_after_stop`).

The invariant bounds, for each task, everything it can still copy: the stream and the rest of the
batch it holds. The audio and the control loop touch neither (`Aside`), up to the spawn.

The condition is on the state before a step: a chunk that would go to `preroll.audio` finds no flush
task that is copying, and no start past its activation. The task of a session that has ended is not
told of it, and works until its fetch times out.
-/

namespace LiveSTT.AudioProducer

/-! ### What a flush task can copy -/

/-- The chunks of a fetched batch that are still to be published. -/
def FlushPc.rest : FlushPc → List Captured
  | .publishing _ rest _ => rest
  | .acking _ rest _ => rest
  | _ => []

/-- The count of chunks at the activation of the session whose flush task is about to be spawned. -/
def CtrlPc.since : CtrlPc → List ℕ
  | .starting (.configReading _ _ since _) => [since]
  | _ => []

/-- A chunk on a backfill subject, with the count of chunks at the activation of the session. -/
def Stored.copied : Stored → Option (Captured × ℕ)
  | .backfill _ chunk since => some (chunk, since)
  | _ => none

/-- What the flush tasks have copied. -/
def State.copied (s : State) : List (Captured × ℕ) := s.broker.audio.filterMap Stored.copied

/-- Whatever a flush task can still copy was captured before its session became active. -/
def Flush.Bounded (f : Flush) (preBuffer : List Captured) : Prop :=
  f.task ≠ none → (∀ chunk ∈ preBuffer, chunk.seq < f.since) ∧ ∀ chunk ∈ f.pc.rest,
    chunk.seq < f.since

/-- The invariant. -/
structure Preroll (s : State) : Prop where
  captured : ∀ chunk ∈ s.broker.preBuffer, chunk.seq < s.captured
  since : ∀ n ∈ s.ctrl.since, ∀ chunk ∈ s.broker.preBuffer, chunk.seq < n
  tasks : ∀ f ∈ s.flushes, f.Bounded s.broker.preBuffer
  copied : ∀ p ∈ s.copied, p.1.seq < p.2

/-- The chunk of the step does not go to `preroll.audio`, or no flush task is copying and none is
about to be spawned. -/
def prerollQuiet (s : State) : Action → Bool
  | .chunk _ r => (s.mem.isActive && s.mem.sessionId.isSome) || !r.applied ||
      (s.flushes.all (fun f ↦ f.task.isNone) && s.ctrl.since.isEmpty)
  | _ => true

/-! ### Steps that leave the pre-roll alone -/

/-- What the flush tasks work on is as before, except that a spawn may have been called off. -/
structure Aside (s t : State) : Prop where
  preBuffer : t.broker.preBuffer = s.broker.preBuffer
  captured : s.captured ≤ t.captured
  flushes : t.flushes = s.flushes
  since : t.ctrl.since ⊆ s.ctrl.since
  copied : t.copied = s.copied

section Aside

variable {s t u : State} {w : Coroutine}

/-- Such a step keeps the invariant: the pre-roll and the flush tasks are the same. -/
theorem Preroll.aside (h : Preroll s) (ha : Aside s t) : Preroll t := by
  refine ⟨?_, ?_, ?_, ?_⟩
  · rw [ha.preBuffer]
    exact fun chunk hmem ↦ (h.captured chunk hmem).trans_le ha.captured
  · rw [ha.preBuffer]
    exact fun n hn ↦ h.since n (ha.since hn)
  · rw [ha.flushes, ha.preBuffer]
    exact h.tasks
  · rw [ha.copied]
    exact h.copied

theorem Aside.trans (h₁ : Aside s t) (h₂ : Aside t u) : Aside s u :=
  ⟨h₂.preBuffer.trans h₁.preBuffer, h₁.captured.trans h₂.captured, h₂.flushes.trans h₁.flushes,
    fun _ hn ↦ h₁.since (h₂.since hn), h₂.copied.trans h₁.copied⟩

/-- A publish on the audio stream leaves the pre-roll alone. -/
theorem aside_publish {msg : Stored} (hmsg : msg.copied = none) (r : Reply) :
    Aside s (s.publish msg r) := by
  rw [State.publish]
  split
  · refine ⟨rfl, le_rfl, rfl, fun _ hn ↦ hn, ?_⟩
    show (s.broker.audio ++ [msg]).filterMap Stored.copied = _
    rw [List.filterMap_append, List.filterMap_cons_none hmsg]
    exact List.append_nil _
  · exact ⟨rfl, le_rfl, rfl, fun _ hn ↦ hn, rfl⟩

theorem aside_announce (e : Lifecycle) (r : Reply) : Aside s (s.announce e r) := by
  rw [State.announce]
  split <;> exact ⟨rfl, le_rfl, rfl, fun _ hn ↦ hn, rfl⟩

theorem aside_suspendStop (pc : StopPc) : Aside s (s.suspendStop pc w) := by
  cases w with
  | audio => exact ⟨rfl, le_rfl, rfl, fun _ hn ↦ hn, rfl⟩
  | control => exact ⟨rfl, le_rfl, rfl, List.nil_subset _, rfl⟩

theorem aside_announceStop (captured : Option SessionId) (stoppedAt : String) (cleared : Bool)
    (r : Reply) : Aside s (announceStop s captured stoppedAt cleared r w) :=
  (aside_announce _ r).trans (aside_suspendStop _)

/-- The end of `_stop_session` leaves the pre-roll alone, which is why a stop needs no case
below. -/
theorem aside_idleStop (captured : Option SessionId) (stoppedAt : String) (r : Reply) :
    Aside s (idleStop s captured stoppedAt r w) := by
  have hidle : ∀ cleared, Aside s (s.goIdle captured cleared) :=
    fun _ ↦ ⟨rfl, le_rfl, rfl, fun _ hn ↦ hn, rfl⟩
  rw [idleStop]
  split
  · exact (hidle _).trans (aside_suspendStop _)
  · exact (hidle _).trans (aside_announceStop _ _ _ r)

theorem aside_beginStop (now : Stamp) (r : Reply) : Aside s (beginStop s now r w) := by
  have hcalled : ∀ captured, Aside s (s.record (.stopBegan captured)) :=
    fun _ ↦ ⟨rfl, le_rfl, rfl, fun _ hn ↦ hn, rfl⟩
  rw [beginStop]
  split
  · exact ((hcalled _).trans (aside_publish rfl r)).trans (aside_suspendStop _)
  · exact (hcalled _).trans (aside_idleStop _ _ r)

/-- So does every call of it. -/
theorem aside_stopStep (pc : StopPc) (r : Reply) : Aside s (stopStep s pc r w) := by
  cases pc with
  | eosPublishing id stoppedAt => exact aside_idleStop _ _ r
  | kvDeleting captured stoppedAt cleared => exact aside_announceStop _ _ _ r
  | eventPublishing captured cleared =>
    cases w with
    | audio => exact ⟨rfl, le_rfl, rfl, fun _ hn ↦ hn, rfl⟩
    | control => exact ⟨rfl, le_rfl, rfl, List.nil_subset _, rfl⟩

end Aside

/-! ### Starts -/

section Start

variable {s : State}

/-- The flush task is spawned with the bound of its session. -/
theorem preroll_spawnFlush (h : Preroll s) {stamp : Stamp} {label : Json} {since : ℕ}
    {value : Option ℤ} {r : Reply} (hsince : ∀ chunk ∈ s.broker.preBuffer, chunk.seq < since) :
    Preroll (spawnFlush s stamp label since value r) := by
  have ha : Aside s (s.announce (.started stamp.id stamp.iso label) r) := aside_announce _ r
  have h' : Preroll (s.announce (.started stamp.id stamp.iso label) r) := h.aside ha
  refine ⟨?_, by simp [spawnFlush, CtrlPc.since], fun f hf ↦ ?_, h'.copied⟩
  · have hcaptured : (s.announce (.started stamp.id stamp.iso label) r).captured = s.captured := by
      rw [State.announce]
      split <;> rfl
    exact h'.captured
  · show f.Bounded (s.announce (.started stamp.id stamp.iso label) r).broker.preBuffer
    rw [ha.preBuffer]
    rcases List.mem_append.1 hf with hf | hf
    · exact h.tasks f hf
    · obtain rfl := List.mem_singleton.1 hf
      exact fun _ ↦ ⟨hsince, by simp [FlushPc.rest]⟩

/-- The session becomes active: all of the stream was captured before. -/
theorem preroll_activate (h : Preroll s) {stamp : Stamp} {label : Json} {r : Reply} :
    Preroll (activate s stamp label r) := by
  have hactive : Preroll (s.makeActive stamp.id label) :=
    h.aside ⟨rfl, le_rfl, rfl, fun _ hn ↦ hn, rfl⟩
  rw [activate]
  split
  · refine ⟨h.captured, fun n hn ↦ ?_, h.tasks, h.copied⟩
    obtain rfl := List.mem_singleton.1 hn
    exact h.captured
  · exact preroll_spawnFlush hactive h.captured

/-- A start has spawned no flush task yet when it begins. -/
theorem preroll_beginStart (h : Preroll s) {stamp : Stamp} {label : Json} {r : Reply} :
    Preroll (beginStart s stamp label r) := by
  have hcalled : Preroll (s.record (.startBegan stamp.id)) :=
    h.aside ⟨rfl, le_rfl, rfl, fun _ hn ↦ hn, rfl⟩
  simp only [beginStart]
  split
  · split <;> exact h.aside ⟨rfl, le_rfl, rfl, List.nil_subset _, rfl⟩
  · exact preroll_activate hcalled

/-- The flush task is spawned at the last call of a start, for the chunks captured by then. -/
theorem preroll_startStep (h : Preroll s) {pc : StartPc} {r : Reply}
    (hctrl : s.ctrl = .starting pc) : Preroll (startStep s pc r) := by
  cases pc with
  | kvPutting stamp label => exact preroll_activate h
  | configReading stamp label since value =>
    exact preroll_spawnFlush h (h.since since (by rw [hctrl]; exact List.mem_singleton_self since))
  | eventPublishing => exact h.aside ⟨rfl, le_rfl, rfl, List.nil_subset _, rfl⟩

end Start

/-! ### Flush tasks -/

section Flush

variable {s : State} {i : ℕ} {f : Flush}

/-- A flush task moves on with chunks it could copy before. -/
theorem preroll_setFlush (h : Preroll s) (hi : s.flushes[i]? = some f) (hf : f.task ≠ none)
    {pc : FlushPc} (hrest : ∀ chunk ∈ pc.rest, chunk ∈ s.broker.preBuffer ∨ chunk ∈ f.pc.rest) :
    Preroll (s.setFlush i f pc) := by
  refine ⟨h.captured, h.since, fun g hg ↦ ?_, h.copied⟩
  rcases List.mem_or_eq_of_mem_set hg with hg | rfl
  · exact h.tasks g hg
  · obtain ⟨hbuffer, hold⟩ := h.tasks f (List.mem_of_getElem? hi) hf
    refine fun _ ↦ ⟨hbuffer, fun chunk hmem ↦ ?_⟩
    rcases hrest chunk hmem with hmem | hmem
    · exact hbuffer chunk hmem
    · exact hold chunk hmem

/-- A flush task publishes a chunk it could copy. -/
theorem preroll_publish (h : Preroll s) {chunk : Captured} {since : ℕ} (hseq : chunk.seq < since)
    (id : SessionId) (r : Reply) : Preroll (s.publish (.backfill id chunk since) r) := by
  rw [State.publish]
  split
  · refine ⟨h.captured, h.since, h.tasks, fun p hp ↦ ?_⟩
    have hcopied : p ∈ s.copied ++ [(chunk, since)] := by
      rw [State.copied, List.filterMap_append] at hp
      exact hp
    rcases List.mem_append.1 hcopied with hp | hp
    · exact h.copied p hp
    · rw [List.mem_singleton.1 hp]
      exact hseq
  · exact h

/-- A batch is copied chunk by chunk, each of them captured before the activation. -/
theorem preroll_flushBatch (h : Preroll s) (hi : s.flushes[i]? = some f) (hf : f.task ≠ none)
    {cursor : ℕ} {batch : List Captured} {r : Reply}
    (hbatch : ∀ chunk ∈ batch, chunk ∈ s.broker.preBuffer ∨ chunk ∈ f.pc.rest) :
    Preroll (flushBatch s i f cursor batch r) := by
  cases batch with
  | nil => exact preroll_setFlush h hi hf (by simp [FlushPc.rest])
  | cons chunk rest =>
    obtain ⟨hbuffer, hrest⟩ := h.tasks f (List.mem_of_getElem? hi) hf
    have hseq : chunk.seq < f.since := by
      rcases hbatch chunk List.mem_cons_self with hmem | hmem
      · exact hbuffer chunk hmem
      · exact hrest chunk hmem
    have hbroker : (s.publish (.backfill f.id chunk f.since) r).flushes = s.flushes ∧
        (s.publish (.backfill f.id chunk f.since) r).broker.preBuffer = s.broker.preBuffer := by
      rw [State.publish]
      split <;> exact ⟨rfl, rfl⟩
    refine preroll_setFlush (preroll_publish h hseq f.id r) (hbroker.1 ▸ hi) hf fun chunk hmem ↦ ?_
    rw [hbroker.2]
    exact hbatch chunk (List.mem_cons_of_mem _ hmem)

theorem preroll_flushEos (h : Preroll s) {r : Reply} : Preroll (flushEos s i f r) := by
  have h' : Preroll (s.publish (.backfillEos f.id) r) := h.aside (aside_publish rfl r)
  refine ⟨h'.captured, h'.since, fun g hg ↦ ?_, h'.copied⟩
  rcases List.mem_or_eq_of_mem_set hg with hg | rfl
  · exact h'.tasks g hg
  · exact fun hnone ↦ absurd rfl hnone

theorem preroll_erase (h : Preroll s) (i : ℕ) :
    Preroll { s with flushes := s.flushes.eraseIdx i } :=
  ⟨h.captured, h.since, fun f hf ↦ h.tasks f (List.mem_of_mem_eraseIdx hf), h.copied⟩

/-- The flush task fetches from `PRE_BUFFER` or copies what it has fetched. -/
theorem preroll_flushStep (h : Preroll s) (hi : s.flushes[i]? = some f) {answer : Fetched}
    {r : Reply} : Preroll (flushStep s i f answer r) := by
  have htask : ∀ pc, f.pc = pc → f.task = Flush.task { f with pc := pc } := by
    rintro _ rfl
    rfl
  rw [flushStep.eq_def]
  split
  · rename_i hpc
    split
    · exact preroll_erase (s := s.record (.subscribeFailed f.id))
        (h.aside ⟨rfl, le_rfl, rfl, fun _ hn ↦ hn, rfl⟩) i
    · exact preroll_setFlush h hi (by rw [htask _ hpc]; simp [Flush.task]) (by simp [FlushPc.rest])
  · rename_i cursor hpc
    have hf : f.task ≠ none := by
      rw [htask _ hpc]
      simp [Flush.task]
    split
    · rename_i n
      split
      · exact preroll_flushEos h
      · -- What was fetched is stored, so it was captured before the activation.
        rename_i chunk rest hbatch
        refine preroll_flushBatch h hi hf fun c hmem ↦ Or.inl ?_
        rw [← hbatch] at hmem
        exact List.mem_of_mem_drop (List.mem_of_mem_take hmem)
    · exact preroll_flushEos h
  · rename_i cursor rest hpc
    refine preroll_setFlush h hi (by rw [htask _ hpc]; simp [Flush.task]) fun c hmem ↦ Or.inr ?_
    rw [hpc]
    exact hmem
  · exact preroll_flushEos h
  · rename_i cursor rest hpc
    refine preroll_flushBatch h hi (by rw [htask _ hpc]; simp [Flush.task]) fun c hmem ↦ Or.inr ?_
    rw [hpc]
    exact hmem
  · exact preroll_flushEos h
  · exact preroll_erase h i

end Flush

/-! ### The loops, and the process -/

section Step

variable {below : Bytes → Bool} {s t : State}

/-- A chunk that goes to the stream finds no flush task that could copy it. -/
theorem preroll_routeChunk (h : Preroll s) {data : Bytes} {r : Reply}
    (hquiet : prerollQuiet s (.chunk data r) = true) : Preroll (routeChunk s data r) := by
  rw [routeChunk.eq_def]
  split
  · rename_i id _ _
    have ha : Aside s (s.publish (.live id ⟨s.captured, data⟩) r) := aside_publish rfl r
    exact h.aside ⟨ha.preBuffer, Nat.le_succ _, ha.flushes, ha.since, ha.copied⟩
  · rename_i hidle
    split
    · -- The chunk is stored in `PRE_BUFFER`, where a task still copying would find it.
      rename_i happlied
      have hlive : (s.mem.isActive && s.mem.sessionId.isSome) = false := by
        refine Bool.eq_false_iff.2 fun htrue ↦ ?_
        obtain ⟨hactive, hsome⟩ := Bool.and_eq_true_iff.1 htrue
        obtain ⟨id, hid⟩ := Option.isSome_iff_exists.1 hsome
        exact hidle id hactive hid
      have hnobody : s.flushes.all (fun f ↦ f.task.isNone) = true ∧
        s.ctrl.since.isEmpty = true := by
        simpa only [prerollQuiet, hlive, happlied, Bool.not_true, Bool.or_false, Bool.false_or,
          Bool.and_eq_true] using hquiet
      have hsince : s.ctrl.since = [] := List.isEmpty_iff.1 hnobody.2
      refine ⟨fun chunk hmem ↦ ?_, ?_, fun f hf htask ↦ ?_, h.copied⟩
      · rcases List.mem_append.1 hmem with hmem | hmem
        · exact (h.captured chunk hmem).trans (Nat.lt_succ_self _)
        · rw [List.mem_singleton.1 hmem]
          exact Nat.lt_succ_self s.captured
      · show ∀ n ∈ s.ctrl.since, _
        rw [hsince]
        simp
      · exact absurd (Option.isNone_iff_eq_none.1 (List.all_eq_true.1 hnobody.1 f hf)) htask
    · exact h.aside ⟨rfl, Nat.le_succ _, rfl, fun _ hn ↦ hn, rfl⟩

/-- The silence check may begin a stop, and no more. -/
theorem preroll_checkSilence (h : Preroll s) {data : Bytes} {b : Bool} {now : Stamp} {r : Reply} :
    Preroll (checkSilence s data b now r) := by
  have hcounted : Preroll { s with mem := s.mem.countSilence data b, audio := .waiting } :=
    h.aside ⟨rfl, le_rfl, rfl, fun _ hn ↦ hn, rfl⟩
  simp only [checkSilence]
  split
  · exact h.aside ⟨rfl, le_rfl, rfl, fun _ hn ↦ hn, rfl⟩
  · split
    · exact hcounted.aside (aside_beginStop now r)
    · exact hcounted

/-- The control loop moves to a position where no flush task is about to be spawned. -/
theorem preroll_ctrl (h : Preroll s) {pc : CtrlPc} (hpc : pc.since = []) :
    Preroll { s with ctrl := pc } := by
  refine h.aside ⟨rfl, le_rfl, rfl, ?_, rfl⟩
  show pc.since ⊆ s.ctrl.since
  rw [hpc]
  exact List.nil_subset _

/-- A command begins a start or a stop. -/
theorem preroll_handleControlMessage (h : Preroll s) {payload : Option Json} {now : Stamp}
    {r : Reply} : Preroll (handleControlMessage s payload now r) := by
  rw [handleControlMessage.eq_def]
  split
  · exact preroll_ctrl h rfl
  · split
    · split
      · exact preroll_ctrl h rfl
      · exact preroll_beginStart h
    · split
      · exact h.aside (aside_beginStop now r)
      · exact preroll_ctrl h rfl
  · exact preroll_ctrl h rfl

/-- A process that is not running has no flush tasks. -/
theorem preroll_of_broker (h : Preroll s) (hflushes : t.flushes = []) (hsince : t.ctrl.since = [])
    (hbroker : t.broker = s.broker) (hcaptured : t.captured = s.captured) : Preroll t := by
  refine ⟨?_, ?_, ?_, ?_⟩
  · rw [hbroker, hcaptured]
    exact h.captured
  · simp [hsince]
  · simp [hflushes]
  · rw [State.copied, hbroker]
    exact h.copied

/-- After a crash no flush task is left, and the recovery spawns none. -/
theorem preroll_boot (h : Preroll s) {sessionKv configKv raised : Bool} :
    Preroll (boot s sessionKv configKv raised) := by
  rw [boot, recoverSession.eq_def]
  split
  · split
    · exact preroll_of_broker h rfl rfl rfl rfl
    · exact preroll_of_broker h rfl rfl rfl rfl
  · exact preroll_of_broker h rfl rfl rfl rfl

/-- **One step.** -/
theorem preroll_step (h : Preroll s) {a : Action} (hquiet : prerollQuiet s a = true)
    (ht : step below s a = some t) : Preroll t := by
  have haudio : Preroll { s with audio := .waiting } :=
    h.aside ⟨rfl, le_rfl, rfl, fun _ hn ↦ hn, rfl⟩
  cases stepped_of_step ht with
  | boot hdown sessionKv configKv raised => exact preroll_boot h
  | crash hup => exact preroll_of_broker h rfl rfl rfl rfl
  | chunk hup hwaiting data r => exact preroll_routeChunk h hquiet
  | published hup hpublished now r => exact preroll_checkSilence h
  | dropped hup hdropped now r => exact haudio
  | buffered hup hbuffered now r => exact haudio
  | audioStop hup hstopping now r => exact h.aside (aside_stopStep _ r)
  | subscribed hup hctrl ok => exact preroll_ctrl h (by cases ok <;> rfl)
  | message hup hctrl payload now r => exact preroll_handleControlMessage h
  | ctrlStart hup hctrl r => exact preroll_startStep h hctrl
  | ctrlStop hup hctrl r => exact h.aside (aside_stopStep _ r)
  | @ctrlAcked raised hup hctrl r => exact preroll_ctrl h (by cases raised <;> rfl)
  | ctrlExit hup hctrl => exact preroll_ctrl h rfl
  | flush hup hi answer r => exact preroll_flushStep h hi
  | expire n => exact h.aside ⟨rfl, le_rfl, rfl, fun _ hn ↦ hn, rfl⟩
  | setConfig value => exact h.aside ⟨rfl, le_rfl, rfl, fun _ hn ↦ hn, rfl⟩

theorem preroll_inductive (below : Bytes → Bool) :
    (system below).Inductive (fun s a ↦ prerollQuiet s a = true) Preroll where
  init s hs := by
    obtain rfl : s = {} := hs
    refine ⟨?_, ?_, ?_, ?_⟩ <;> simp [State.copied, CtrlPc.since]
  step h hquiet ht := preroll_step h hquiet ht

end Step

/-- **Backfill carries only pre-roll**, in every run in which no chunk goes to `preroll.audio` while
a flush task is copying or about to be spawned. -/
theorem backfill_is_preroll {below : Bytes → Bool} {s : State}
    (h : (system below).Reachable (fun s a ↦ prerollQuiet s a = true) s) :
    ∀ id chunk since, .backfill id chunk since ∈ s.broker.audio → chunk.seq < since :=
  fun _ chunk since hmem ↦ ((preroll_inductive below).reachable h).copied (chunk, since)
    (List.mem_filterMap.2 ⟨_, hmem, rfl⟩)

/-- A chunk is captured, the session starts, and its flush task copies the chunk. -/
theorem backfill_is_preroll_one :
    ∃ s, (system fun _ ↦ false).Reachable (fun s a ↦ prerollQuiet s a = true) s ∧
      .backfill first.id ⟨0, silence⟩ 1 ∈ s.broker.audio ∧
      ∀ id chunk since, .backfill id chunk since ∈ s.broker.audio → chunk.seq < since := by
  obtain ⟨s, hs, htest⟩ := TransitionSystem.exists_reachable_of_exec
    (M := system fun _ ↦ false) (G := fun s a ↦ prerollQuiet s a = true) {}
    (running ++ [.chunk silence .ok] ++ starting first ++ started ++
      [.flush 0 .raised .ok, .flush 0 (.msgs 50) .ok])
    (fun s ↦ decide (.backfill first.id ⟨0, silence⟩ 1 ∈ s.broker.audio)) rfl (by decide +kernel)
  exact ⟨s, hs, of_decide_eq_true htest, backfill_is_preroll hs⟩

/-- The session is stopped while its flush task waits for messages. The chunk captured next goes to
`PRE_BUFFER`, the fetch returns it, and it is copied to the backfill of the session. -/
theorem backfill_after_stop :
    ∃ s, (system fun _ ↦ false).Reachable TransitionSystem.always s ∧
      ∃ chunk since, .backfill first.id chunk since ∈ s.broker.audio ∧ since ≤ chunk.seq := by
  obtain ⟨s, hs, htest⟩ := TransitionSystem.exists_reachable_of_exec
    (M := system fun _ ↦ false) (G := TransitionSystem.always) {}
    (running ++ starting first ++ started ++ [.flush 0 .raised .ok] ++
      [.message (command "stop") second .ok, .ctrl .ok, .ctrl .ok, .ctrl .ok, .ctrl .ok] ++
      [.chunk silence .ok, .flush 0 (.msgs 1) .ok])
    (fun s ↦ decide (.backfill first.id ⟨0, silence⟩ 0 ∈ s.broker.audio)) rfl (by decide +kernel)
  exact ⟨s, hs, ⟨0, silence⟩, 0, of_decide_eq_true htest, le_rfl⟩

end LiveSTT.AudioProducer
