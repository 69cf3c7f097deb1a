import LiveSTT.AudioProducer.Backfill
import LiveSTT.AudioProducer.Views

/-!
# One session for each chunk

A chunk is captured once and routed once: to the live subject of the active session, or to
`PRE_BUFFER`. What `PRE_BUFFER` holds is copied and not moved, for an ack removes nothing from a
stream with the retention `LIMITS`. Each flush task reads the stream from its start, so a session
that starts before the messages have expired is given those that the session before it was given
(`copied_twice`).

It is the only way for a chunk to come to two sessions: as long as no fetch returns a message that
was given to another session, each chunk is published on the subjects of one session (`one_owner`).
The invariant is about what was given to the flush tasks, published or still in their batches; only
a fetch adds to it (`Gives`).

The stream is read with the policy that delivers all, so what a flush task is given depends on what
is there and not on what was acked. The condition of `one_owner` is one on each fetch, by what the
state has given before; a session that starts after the old messages have expired meets it.
-/

namespace LiveSTT.AudioProducer

open TransitionSystem

/-! ### To whom a chunk belongs -/

/-- The session and the number of the chunk that a message carries. -/
def Stored.owner : Stored → Option (SessionId × ℕ)
  | .live id chunk => some (id, chunk.seq)
  | .backfill id chunk _ => some (id, chunk.seq)
  | _ => none

/-- The session and the number of a chunk copied from `PRE_BUFFER`. -/
def Stored.copiedBy : Stored → Option (SessionId × ℕ)
  | .backfill id chunk _ => some (id, chunk.seq)
  | _ => none

/-- Chunks, as those of a session. -/
def ownedBy (id : SessionId) (chunks : List Captured) : List (SessionId × ℕ) :=
  chunks.map fun chunk ↦ (id, chunk.seq)

/-- What a flush task holds of its batch. -/
def Flush.held (f : Flush) : List (SessionId × ℕ) := ownedBy f.id f.pc.rest

/-- The chunks of `PRE_BUFFER` that flush tasks were given. -/
def State.given (s : State) : List (SessionId × ℕ) :=
  s.broker.audio.filterMap Stored.copiedBy ++ s.flushes.flatMap Flush.held

/-- The batch that the fetch of a flush task returns. -/
def Flush.batch (f : Flush) (broker : Broker) : Fetched → List Captured
  | .msgs n =>
    match f.pc with
    | .fetching cursor => (broker.preRoll cursor).take n
    | _ => []
  | .raised => []

/-- No fetch returns a message that was given to another session. -/
def freshFetch (s : State) : Action → Bool
  | .flush i answer _ =>
    match s.flushes[i]? with
    | some f => (f.batch s.broker answer).all fun chunk ↦
        s.given.all fun p ↦ p.2 ≠ chunk.seq ∨ p.1 = f.id
    | none => true
  | _ => true

/-- The invariant. -/
structure OneOwner (s : State) : Prop where
  buffered : ∀ c ∈ s.broker.preBuffer, c.seq < s.captured
  streamed : ∀ id c, .live id c ∈ s.broker.audio →
    c.seq < s.captured ∧ ∀ c' ∈ s.broker.preBuffer, c'.seq ≠ c.seq
  routed : ∀ id id' c c', .live id c ∈ s.broker.audio → .live id' c' ∈ s.broker.audio →
    c.seq = c'.seq → id = id'
  given : ∀ p ∈ s.given, ∃ c ∈ s.broker.preBuffer, c.seq = p.2
  apart : ∀ p ∈ s.given, ∀ q ∈ s.given, p.2 = q.2 → p.1 = q.1

/-! ### What a step gives -/

/-- A step that routes no chunk, and gives the flush tasks at most `E`. -/
structure Gives (E : List (SessionId × ℕ)) (s t : State) : Prop where
  preBuffer : t.broker.preBuffer = s.broker.preBuffer
  captured : t.captured = s.captured
  live : ∀ id c, .live id c ∈ t.broker.audio → .live id c ∈ s.broker.audio
  given : t.given ⊆ s.given ++ E

section

variable {below : Bytes → Bool} {s t u : State} {E : List (SessionId × ℕ)} {w : Coroutine} {i : ℕ}
  {f : Flush}

/-- A step that gives the tasks `E` keeps the invariant when these chunks are in `PRE_BUFFER` and
were given to no other session. -/
theorem OneOwner.gives (h : OneOwner s) (hg : Gives E s t)
    (hstored : ∀ p ∈ E, ∃ c ∈ s.broker.preBuffer, c.seq = p.2)
    (hsame : ∀ p ∈ E, ∀ q ∈ s.given ++ E, q.2 = p.2 → q.1 = p.1) : OneOwner t := by
  refine ⟨?_, fun id c hc ↦ ?_, fun id id' c c' hc hc' ↦ ?_, fun p hp ↦ ?_, fun p hp q hq heq ↦ ?_⟩
  · rw [hg.preBuffer, hg.captured]
    exact h.buffered
  · rw [hg.preBuffer, hg.captured]
    exact h.streamed id c (hg.live id c hc)
  · exact h.routed id id' c c' (hg.live id c hc) (hg.live id' c' hc')
  · rw [hg.preBuffer]
    rcases List.mem_append.1 (hg.given hp) with hp | hp
    · exact h.given p hp
    · exact hstored p hp
  · rcases List.mem_append.1 (hg.given hp) with hp | hp
    · rcases List.mem_append.1 (hg.given hq) with hq | hq
      · exact h.apart p hp q hq heq
      · exact hsame q hq p (List.mem_append_left _ hp) heq
    · exact (hsame p hp q (hg.given hq) heq.symm).symm

/-- A step that gives nothing. -/
theorem OneOwner.keeps (h : OneOwner s) (hg : Gives [] s t) : OneOwner t :=
  h.gives hg (fun _ hp ↦ absurd hp List.not_mem_nil) fun _ hp ↦ absurd hp List.not_mem_nil

theorem Gives.trans (h : Gives [] s t) (h' : Gives E t u) : Gives E s u := by
  refine ⟨h'.preBuffer.trans h.preBuffer, h'.captured.trans h.captured,
    fun id c hc ↦ h.live id c (h'.live id c hc), fun p hp ↦ ?_⟩
  rcases List.mem_append.1 (h'.given hp) with hp | hp
  · refine List.mem_append_left _ ?_
    simpa using h.given hp
  · exact List.mem_append_right _ hp

/-- What the flush tasks hold and have copied is as before. -/
theorem gives_of_eq (hpre : t.broker.preBuffer = s.broker.preBuffer)
    (hcaptured : t.captured = s.captured) (haudio : t.broker.audio = s.broker.audio)
    (hflushes : t.flushes = s.flushes) : Gives [] s t := by
  refine ⟨hpre, hcaptured, fun id c hc ↦ haudio ▸ hc, ?_⟩
  rw [State.given, haudio, hflushes, List.append_nil]
  exact List.Subset.refl _

/-- A publish of what is neither a live chunk nor a copy. -/
theorem gives_append {msgs : List Stored} (hpre : t.broker.preBuffer = s.broker.preBuffer)
    (hcaptured : t.captured = s.captured) (haudio : t.broker.audio = s.broker.audio ++ msgs)
    (hmsgs : ∀ msg ∈ msgs, msg.owner = none) (hflushes : t.flushes = s.flushes) : Gives [] s t := by
  refine ⟨hpre, hcaptured, fun id c hc ↦ ?_, ?_⟩
  · rw [haudio] at hc
    rcases List.mem_append.1 hc with hc | hc
    · exact hc
    · exact absurd (hmsgs _ hc) (by simp [Stored.owner])
  · have hnone : msgs.filterMap Stored.copiedBy = [] := by
      refine List.filterMap_eq_nil_iff.2 fun msg hmsg ↦ ?_
      cases msg with
      | backfill id chunk since => exact absurd (hmsgs _ hmsg) (by simp [Stored.owner])
      | _ => rfl
    rw [State.given, haudio, hflushes, List.filterMap_append, hnone, List.append_nil,
      List.append_nil]
    exact List.Subset.refl _

/-! ### Stops and starts -/

theorem gives_stopStep (pc : StopPc) (r : Reply) : Gives [] s (stopStep s pc r w) :=
  have hS : Stopping w s (stopStep s pc r w) := stopping_stopStep
  gives_of_eq hS.preBuffer hS.captured (stored_stopStep s r w pc) hS.flushes

/-- A stop gives no task anything. -/
theorem gives_beginStop (now : Stamp) (r : Reply) : Gives [] s (beginStop s now r w) := by
  have hS : Stopping w s (beginStop s now r w) := stopping_beginStop
  refine gives_append hS.preBuffer hS.captured (stored_beginStop s r w now) (fun msg hmsg ↦ ?_)
    hS.flushes
  split at hmsg
  · obtain ⟨id, -, rfl⟩ := List.mem_map.1 hmsg
    rfl
  · exact absurd hmsg List.not_mem_nil

/-- A flush task is spawned with nothing in its hands. -/
theorem gives_spawnFlush (stamp : Stamp) (label : Json) (since : ℕ) (value : Option ℤ) (r : Reply) :
    Gives [] s (spawnFlush s stamp label since value r) := by
  refine ⟨by simp [spawnFlush], by simp [spawnFlush], fun id c hc ↦ ?_, ?_⟩
  · simpa [spawnFlush] using hc
  · have hgiven : (spawnFlush s stamp label since value r).given = s.given := by
      simp [State.given, spawnFlush, Flush.held, ownedBy, FlushPc.rest]
    rw [hgiven, List.append_nil]
    exact List.Subset.refl _

theorem gives_activate (stamp : Stamp) (label : Json) (r : Reply) :
    Gives [] s (activate s stamp label r) := by
  have hactive : Gives [] s (s.makeActive stamp.id label) := gives_of_eq rfl rfl rfl rfl
  rw [activate]
  split
  · exact gives_of_eq rfl rfl rfl rfl
  · exact hactive.trans (gives_spawnFlush _ _ _ _ _)

/-- Nor does the beginning of a start. -/
theorem gives_beginStart (stamp : Stamp) (label : Json) (r : Reply) :
    Gives [] s (beginStart s stamp label r) := by
  rcases hkv : s.mem.sessionKv with - | -
  · rw [beginStart_of_no_kv s stamp label r hkv]
    have hbegan : Gives [] s (s.record (.startBegan stamp.id)) := gives_of_eq rfl rfl rfl rfl
    exact hbegan.trans (gives_activate stamp label r)
  · rw [beginStart_of_kv s stamp label r hkv]
    exact gives_of_eq rfl rfl rfl rfl

theorem gives_startStep (pc : StartPc) (r : Reply) : Gives [] s (startStep s pc r) := by
  cases pc with
  | kvPutting stamp label => exact gives_activate stamp label r
  | configReading stamp label since value => exact gives_spawnFlush stamp label since value r
  | eventPublishing => exact gives_of_eq rfl rfl rfl rfl

/-- Nor does a command, whatever its payload. -/
theorem gives_handleControlMessage (payload : Option Json) (now : Stamp) (r : Reply) :
    Gives [] s (handleControlMessage s payload now r) := by
  rw [handleControlMessage.eq_def]
  split
  · exact gives_of_eq rfl rfl rfl rfl
  · split
    · split
      · exact gives_of_eq rfl rfl rfl rfl
      · exact gives_beginStart now _ r
    · split
      · exact gives_beginStop now r
      · exact gives_of_eq rfl rfl rfl rfl
  · exact gives_of_eq rfl rfl rfl rfl

/-- Nor does the silence check. -/
theorem gives_checkSilence (data : Bytes) (b : Bool) (now : Stamp) (r : Reply) :
    Gives [] s (checkSilence s data b now r) := by
  have hcounted : Gives [] s { s with mem := s.mem.countSilence data b, audio := .waiting } :=
    gives_of_eq rfl rfl rfl rfl
  simp only [checkSilence]
  split
  · exact gives_of_eq rfl rfl rfl rfl
  · split
    · exact hcounted.trans (gives_beginStop now r)
    · exact hcounted

/-- A process that is not running has no flush tasks. -/
theorem gives_of_broker (hbroker : t.broker = s.broker) (hcaptured : t.captured = s.captured)
    (hflushes : t.flushes = []) : Gives [] s t := by
  refine ⟨by rw [hbroker], hcaptured, fun id c hc ↦ hbroker ▸ hc, ?_⟩
  rw [State.given, hbroker, hflushes, List.flatMap_nil, List.append_nil]
  exact List.Subset.trans (List.subset_append_left _ _) (List.subset_append_left _ _)

/-! ### Flush tasks -/

theorem mem_given_of_held (hi : s.flushes[i]? = some f) : f.held ⊆ s.given := fun _ hp ↦
  List.mem_append_right _ (List.mem_flatMap_of_mem (List.mem_of_getElem? hi) hp)

/-- A flush task moves on. -/
theorem gives_setFlush {pc : FlushPc} {batch : List Captured} (hrest : pc.rest = batch) :
    Gives (ownedBy f.id batch) s (s.setFlush i f pc) := by
  subst hrest
  refine ⟨rfl, rfl, fun _ _ hc ↦ hc, fun p hp ↦ ?_⟩
  rcases List.mem_append.1 hp with hp | hp
  · exact List.mem_append_left _ (List.mem_append_left _ hp)
  · obtain ⟨g, hg, hheld⟩ := List.mem_flatMap.1 hp
    rcases List.mem_or_eq_of_mem_set hg with hg | rfl
    · exact List.mem_append_left _ (List.mem_append_right _ (List.mem_flatMap_of_mem hg hheld))
    · exact List.mem_append_right _ hheld

theorem gives_setFlush_of_nil {pc : FlushPc} (hrest : pc.rest = []) :
    Gives [] s (s.setFlush i f pc) := by
  have hg : Gives (ownedBy f.id []) s (s.setFlush i f pc) := gives_setFlush hrest
  exact hg

/-- A flush task publishes the first chunk of a batch, and holds the rest. -/
theorem gives_flushBatch (cursor : ℕ) (batch : List Captured) (r : Reply) :
    Gives (ownedBy f.id batch) s (flushBatch s i f cursor batch r) := by
  cases batch with
  | nil => exact gives_setFlush rfl
  | cons chunk rest =>
    have hset : Gives (ownedBy f.id rest) (s.publish (.backfill f.id chunk f.since) r)
        (flushBatch s i f cursor (chunk :: rest) r) := gives_setFlush rfl
    refine ⟨hset.preBuffer.trans ?_, hset.captured.trans ?_, fun id c hc ↦ ?_, fun p hp ↦ ?_⟩
    · simp
    · simp
    · have hstored := hset.live id c hc
      rw [State.publish] at hstored
      split at hstored
      · simpa using hstored
      · exact hstored
    · rcases List.mem_append.1 (hset.given hp) with hp | hp
      · rw [State.publish] at hp
        split at hp
        · simp only [State.given, List.filterMap_append, List.mem_append] at hp ⊢
          rcases hp with (hp | hp) | hp
          · exact Or.inl (Or.inl hp)
          · refine Or.inr ?_
            obtain rfl := List.mem_singleton.1 hp
            exact List.mem_cons_self
          · exact Or.inl (Or.inr hp)
        · exact List.mem_append_left _ hp
      · exact List.mem_append_right _ (List.mem_cons_of_mem _ hp)

/-- Nor does the end of a flush, which publishes a marker and no chunk. -/
theorem gives_flushEos (r : Reply) : Gives [] s (flushEos s i f r) := by
  have hpublish : Gives [] s (s.publish (.backfillEos f.id) r) := by
    rw [State.publish]
    split
    · have hmarker : ∀ msg ∈ [Stored.backfillEos f.id], msg.owner = none := by simp [Stored.owner]
      exact gives_append rfl rfl rfl hmarker rfl
    · exact gives_of_eq rfl rfl rfl rfl
  exact hpublish.trans (gives_setFlush_of_nil rfl)

theorem gives_erase (i : ℕ) : Gives [] s { s with flushes := s.flushes.eraseIdx i } := by
  refine ⟨rfl, rfl, fun _ _ hc ↦ hc, fun p hp ↦ List.mem_append_left _ ?_⟩
  rcases List.mem_append.1 hp with hp | hp
  · exact List.mem_append_left _ hp
  · obtain ⟨g, hg, hheld⟩ := List.mem_flatMap.1 hp
    exact List.mem_append_right _ (List.mem_flatMap_of_mem (List.mem_of_mem_eraseIdx hg) hheld)

/-- What is in hand is given already. -/
theorem Gives.of_held (hi : s.flushes[i]? = some f) (hg : Gives (ownedBy f.id f.pc.rest) s t) :
    Gives [] s t := by
  refine ⟨hg.preBuffer, hg.captured, hg.live, fun p hp ↦ List.mem_append_left _ ?_⟩
  rcases List.mem_append.1 (hg.given hp) with hp | hp
  · exact hp
  · exact mem_given_of_held hi hp

/-- A step of a flush task gives it the batch it fetches. -/
theorem gives_flushStep (hi : s.flushes[i]? = some f) (answer : Fetched) (r : Reply) :
    Gives (ownedBy f.id (f.batch s.broker answer)) s (flushStep s i f answer r) := by
  have hnothing {v : State} (hg : Gives [] s v) :
      Gives (ownedBy f.id (f.batch s.broker answer)) s v := by
    refine ⟨hg.preBuffer, hg.captured, hg.live, fun p hp ↦ List.mem_append_left _ ?_⟩
    simpa using hg.given hp
  rw [flushStep.eq_def]
  split
  · split
    · have hrecord : Gives [] s (s.record (.subscribeFailed f.id)) := gives_of_eq rfl rfl rfl rfl
      exact hnothing (hrecord.trans (gives_erase i))
    · exact hnothing (gives_setFlush_of_nil rfl)
  · rename_i cursor hpc
    split
    · rename_i n
      have hbatch : f.batch s.broker (.msgs n) = (s.broker.preRoll cursor).take n := by
        simp only [Flush.batch, hpc]
      split
      · exact hnothing (gives_flushEos r)
      · rename_i chunk rest heq
        rw [hbatch, heq]
        exact gives_flushBatch _ _ r
    · exact hnothing (gives_flushEos r)
  · rename_i cursor rest hpc
    refine hnothing (Gives.of_held hi ?_)
    rw [hpc]
    exact gives_setFlush rfl
  · exact hnothing (gives_flushEos r)
  · rename_i cursor rest hpc
    refine hnothing (Gives.of_held hi ?_)
    rw [hpc]
    exact gives_flushBatch _ _ r
  · exact hnothing (gives_flushEos r)
  · exact hnothing (gives_erase i)

/-- A fetch that returns nothing of another session. -/
theorem OneOwner.flushStep (h : OneOwner s) (hi : s.flushes[i]? = some f) {answer : Fetched}
    {r : Reply} (hfresh : freshFetch s (.flush i answer r) = true) :
    OneOwner (flushStep s i f answer r) := by
  have hbatch : ∀ chunk ∈ f.batch s.broker answer, chunk ∈ s.broker.preBuffer := by
    intro chunk hchunk
    unfold Flush.batch at hchunk
    split at hchunk
    · split at hchunk
      · exact List.mem_of_mem_drop (List.mem_of_mem_take hchunk)
      · exact absurd hchunk List.not_mem_nil
    · exact absurd hchunk List.not_mem_nil
  simp only [freshFetch, hi, List.all_eq_true, decide_eq_true_eq] at hfresh
  refine h.gives (gives_flushStep hi answer r) (fun p hp ↦ ?_) fun p hp q hq heq ↦ ?_
  · obtain ⟨chunk, hchunk, rfl⟩ := List.mem_map.1 hp
    exact ⟨chunk, hbatch chunk hchunk, rfl⟩
  · obtain ⟨chunk, hchunk, rfl⟩ := List.mem_map.1 hp
    rcases List.mem_append.1 hq with hq | hq
    · exact (hfresh chunk hchunk q hq).resolve_left (not_not.2 heq)
    · obtain ⟨chunk', -, rfl⟩ := List.mem_map.1 hq
      rfl

/-! ### Routing -/

/-- A chunk is captured. No message carries it, except possibly one on a live subject. -/
theorem OneOwner.live (h : OneOwner s) (owner : Option SessionId)
    (hpre : t.broker.preBuffer = s.broker.preBuffer) (hcaptured : t.captured = s.captured + 1)
    (hgiven : t.given = s.given)
    (hlive : ∀ id' c, .live id' c ∈ t.broker.audio →
      .live id' c ∈ s.broker.audio ∨ owner = some id' ∧ c.seq = s.captured) : OneOwner t := by
  refine ⟨?_, fun id' c hc ↦ ?_, fun id₁ id₂ c₁ c₂ hc₁ hc₂ hseq ↦ ?_, ?_, ?_⟩
  · rw [hpre, hcaptured]
    exact fun c hc ↦ Nat.lt_succ_of_lt (h.buffered c hc)
  · rw [hpre, hcaptured]
    rcases hlive id' c hc with hc | ⟨-, hseq⟩
    · obtain ⟨hlt, hne⟩ := h.streamed id' c hc
      exact ⟨Nat.lt_succ_of_lt hlt, hne⟩
    · rw [hseq]
      exact ⟨Nat.lt_succ_self _, fun c' hc' ↦ (h.buffered c' hc').ne⟩
  · rcases hlive id₁ c₁ hc₁ with hc₁ | ⟨howner, hseq₁⟩
    · rcases hlive id₂ c₂ hc₂ with hc₂ | ⟨-, hseq₂⟩
      · exact h.routed id₁ id₂ c₁ c₂ hc₁ hc₂ hseq
      · exact absurd (hseq.trans hseq₂) (h.streamed id₁ c₁ hc₁).1.ne
    · rcases hlive id₂ c₂ hc₂ with hc₂ | ⟨hid, -⟩
      · exact absurd (hseq.symm.trans hseq₁) (h.streamed id₂ c₂ hc₂).1.ne
      · exact Option.some.inj (howner.symm.trans hid)
  · rw [hgiven, hpre]
    exact h.given
  · rw [hgiven]
    exact h.apart

/-- A chunk is captured and stored in `PRE_BUFFER`, where no flush task has seen it. -/
theorem OneOwner.preroll (h : OneOwner s) (data : Bytes)
    (hpre : t.broker.preBuffer = s.broker.preBuffer ++ [⟨s.captured, data⟩])
    (hcaptured : t.captured = s.captured + 1) (haudio : t.broker.audio = s.broker.audio)
    (hgiven : t.given = s.given) : OneOwner t := by
  refine ⟨?_, ?_, ?_, ?_, ?_⟩
  · rw [hpre, hcaptured]
    intro c hc
    rcases List.mem_append.1 hc with hc | hc
    · exact Nat.lt_succ_of_lt (h.buffered c hc)
    · obtain rfl := List.mem_singleton.1 hc
      exact Nat.lt_succ_self s.captured
  · rw [hpre, hcaptured, haudio]
    intro id c hc
    obtain ⟨hlt, hne⟩ := h.streamed id c hc
    refine ⟨Nat.lt_succ_of_lt hlt, fun c' hc' ↦ ?_⟩
    rcases List.mem_append.1 hc' with hc' | hc'
    · exact hne c' hc'
    · obtain rfl := List.mem_singleton.1 hc'
      exact hlt.ne'
  · rw [haudio]
    exact h.routed
  · rw [hgiven, hpre]
    intro p hp
    obtain ⟨c, hc, hseq⟩ := h.given p hp
    exact ⟨c, List.mem_append_left _ hc, hseq⟩
  · rw [hgiven]
    exact h.apart

/-- A captured chunk is routed to one place. -/
theorem OneOwner.routeChunk (h : OneOwner s) (data : Bytes) (r : Reply) :
    OneOwner (routeChunk s data r) := by
  rw [AudioProducer.routeChunk.eq_def]
  split
  · rename_i id _ _
    refine h.live (some id) (by simp) rfl ?_ fun id' c hc ↦ ?_
    · rw [State.publish]
      split
      · simp [State.given, Stored.copiedBy]
      · rfl
    · rw [State.publish] at hc
      split at hc
      · rcases List.mem_append.1 hc with hc | hc
        · exact Or.inl hc
        · obtain ⟨rfl, rfl⟩ : id' = id ∧ c = ⟨s.captured, data⟩ := by simpa using hc
          exact Or.inr ⟨rfl, rfl⟩
      · exact Or.inl hc
  · split
    · exact h.preroll data rfl rfl rfl rfl
    · -- The chunk is lost.
      exact h.live none rfl rfl rfl fun _ _ hc ↦ Or.inl hc

/-! ### Runs -/

/-- Each step keeps it, if a fetch gives no chunk that another session was given. Only a captured
chunk and a fetch are more than a case of `Gives`. -/
theorem OneOwner.step {a : Action} (h : OneOwner s) (hfresh : freshFetch s a = true)
    (ht : step below s a = some t) : OneOwner t := by
  cases stepped_of_step ht with
  | boot hdown sessionKv configKv raised =>
    exact h.keeps (gives_of_broker (broker_boot s _ _ _) (captured_boot s _ _ _)
      (flushes_boot s _ _ _))
  | crash hup => exact h.keeps (gives_of_broker rfl rfl rfl)
  | chunk hup hwaiting data r => exact h.routeChunk data r
  | published hup hpublished now r => exact h.keeps (gives_checkSilence _ _ now r)
  | dropped hup hdropped now r => exact h.keeps (gives_of_eq rfl rfl rfl rfl)
  | buffered hup hbuffered now r => exact h.keeps (gives_of_eq rfl rfl rfl rfl)
  | audioStop hup hstopping now r => exact h.keeps (gives_stopStep _ r)
  | subscribed hup hctrl ok => exact h.keeps (gives_of_eq rfl rfl rfl rfl)
  | message hup hctrl payload now r => exact h.keeps (gives_handleControlMessage payload now r)
  | ctrlStart hup hctrl r => exact h.keeps (gives_startStep _ r)
  | ctrlStop hup hctrl r => exact h.keeps (gives_stopStep _ r)
  | ctrlAcked hup hctrl r => exact h.keeps (gives_of_eq rfl rfl rfl rfl)
  | ctrlExit hup hctrl => exact h.keeps (gives_of_eq rfl rfl rfl rfl)
  | flush hup hi answer r => exact h.flushStep hi hfresh
  | expire n => exact h.keeps (gives_of_eq rfl rfl rfl rfl)
  | setConfig value => exact h.keeps (gives_of_eq rfl rfl rfl rfl)

theorem oneOwner_inductive (below : Bytes → Bool) :
    (system below).Inductive (fun s a ↦ freshFetch s a = true) OneOwner where
  init s hs := by
    obtain rfl : s = {} := hs
    refine ⟨?_, ?_, ?_, ?_, ?_⟩ <;> simp [State.given]
  step h hfresh ht := h.step hfresh ht

end

/-- **A captured chunk belongs to one session**, in every run in which no fetch of a flush task
returns a message that was given to the flush task of another session. -/
theorem one_owner {below : Bytes → Bool} {s : State}
    (h : (system below).Reachable (fun s a ↦ freshFetch s a = true) s) :
    ∀ m ∈ s.broker.audio, ∀ m' ∈ s.broker.audio, ∀ id id' n,
      m.owner = some (id, n) → m'.owner = some (id', n) → id = id' := by
  have hinv := (oneOwner_inductive below).reachable h
  have hcopy {id : SessionId} {c : Captured} {since : ℕ}
      (hmem : .backfill id c since ∈ s.broker.audio) : (id, c.seq) ∈ s.given :=
    List.mem_append_left _ (List.mem_filterMap.2 ⟨_, hmem, rfl⟩)
  -- A chunk of a live subject is none of `PRE_BUFFER`, where the copies come from.
  have hmixed {id id' : SessionId} {c c' : Captured} {since : ℕ} (hc : .live id c ∈ s.broker.audio)
      (hc' : .backfill id' c' since ∈ s.broker.audio) : c'.seq ≠ c.seq := by
    obtain ⟨c₀, hc₀, hseq⟩ : ∃ c₀ ∈ s.broker.preBuffer, c₀.seq = c'.seq := hinv.given _ (hcopy hc')
    exact hseq ▸ (hinv.streamed id c hc).2 c₀ hc₀
  intro m hm m' hm' id id' n hown hown'
  cases m with
  | live i c =>
    obtain ⟨rfl, rfl⟩ : i = id ∧ c.seq = n := by simpa [Stored.owner] using hown
    cases m' with
    | live i' c' =>
      obtain ⟨rfl, hseq⟩ : i' = id' ∧ c'.seq = c.seq := by simpa [Stored.owner] using hown'
      exact hinv.routed i i' c c' hm hm' hseq.symm
    | backfill i' c' since =>
      obtain ⟨rfl, hseq⟩ : i' = id' ∧ c'.seq = c.seq := by simpa [Stored.owner] using hown'
      exact absurd hseq (hmixed hm hm')
    | liveEos i' => simp [Stored.owner] at hown'
    | backfillEos i' => simp [Stored.owner] at hown'
  | backfill i c since =>
    obtain ⟨rfl, rfl⟩ : i = id ∧ c.seq = n := by simpa [Stored.owner] using hown
    cases m' with
    | live i' c' =>
      obtain ⟨rfl, hseq⟩ : i' = id' ∧ c'.seq = c.seq := by simpa [Stored.owner] using hown'
      exact absurd hseq.symm (hmixed hm' hm)
    | backfill i' c' since' =>
      obtain ⟨rfl, hseq⟩ : i' = id' ∧ c'.seq = c.seq := by simpa [Stored.owner] using hown'
      exact hinv.apart _ (hcopy hm) _ (hcopy hm') hseq.symm
    | liveEos i' => simp [Stored.owner] at hown'
    | backfillEos i' => simp [Stored.owner] at hown'
  | liveEos i => simp [Stored.owner] at hown
  | backfillEos i => simp [Stored.owner] at hown

/-- The commands of a session, up to the end of its flush task, which finds one chunk. -/
def briefSession (now : Stamp) : List Action :=
  starting now ++ started ++ [.flush 0 .raised .ok, .flush 0 (.msgs 50) .ok, .flush 0 .raised .ok,
    .flush 0 .raised .ok, .flush 0 .raised .ok, .flush 0 .raised .ok]

/-- A stop command. -/
def stopping (now : Stamp) : List Action :=
  [.message (command "stop") now .ok, .ctrl .ok, .ctrl .ok, .ctrl .ok, .ctrl .ok]

/-- A chunk is captured, and two sessions follow one another within a minute. Every call succeeds,
and the chunk is on the backfill subjects of both. -/
theorem copied_twice :
    ∃ s, (system fun _ ↦ false).Reachable (fun _ a ↦ a.callsSucceed = true) s ∧
      first.id ≠ second.id ∧
      .backfill first.id ⟨0, silence⟩ 1 ∈ s.broker.audio ∧
      .backfill second.id ⟨0, silence⟩ 1 ∈ s.broker.audio := by
  obtain ⟨s, hs, htest⟩ := exists_reachable_of_exec
    (M := system fun _ ↦ false) (G := fun _ a ↦ a.callsSucceed = true) {}
    (running ++ [.chunk silence .ok] ++ briefSession first ++
      stopping second ++ briefSession second)
    (fun s ↦ decide (.backfill first.id ⟨0, silence⟩ 1 ∈ s.broker.audio ∧
      .backfill second.id ⟨0, silence⟩ 1 ∈ s.broker.audio)) rfl (by decide +kernel)
  exact ⟨s, hs, by decide, of_decide_eq_true htest⟩

/-- The same two sessions, when the chunk expires between them. -/
theorem one_owner_expired :
    ∃ s, (system fun _ ↦ false).Reachable (fun s a ↦ freshFetch s a = true) s ∧
      s.broker.audio = [.backfill first.id ⟨0, silence⟩ 1, .backfillEos first.id, .liveEos first.id,
        .backfillEos second.id] ∧
      ∀ m ∈ s.broker.audio, ∀ m' ∈ s.broker.audio, ∀ id id' n,
        m.owner = some (id, n) → m'.owner = some (id', n) → id = id' := by
  obtain ⟨s, hs, htest⟩ := exists_reachable_of_exec
    (M := system fun _ ↦ false) (G := fun s a ↦ freshFetch s a = true) {}
    (running ++ [.chunk silence .ok] ++ briefSession first ++ stopping second ++ [.expire 1] ++
      starting second ++ started ++ [.flush 0 .raised .ok, .flush 0 .raised .ok,
        .flush 0 .raised .ok])
    (fun s ↦ decide (s.broker.audio = [.backfill first.id ⟨0, silence⟩ 1, .backfillEos first.id,
      .liveEos first.id, .backfillEos second.id])) rfl (by decide +kernel)
  exact ⟨s, hs, of_decide_eq_true htest, one_owner hs⟩

end LiveSTT.AudioProducer
