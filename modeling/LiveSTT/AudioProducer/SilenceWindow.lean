import Mathlib.Algebra.GroupWithZero.Nat
import LiveSTT.AudioProducer.OneSession
import LiveSTT.AudioProducer.Orderly

/-!
# An auto-stop after a silent window

`_check_silence` counts the samples of the chunks below the threshold and stops the session when the
counter reaches the timeout. The counter is not the session's own: the audio loop counts a chunk
when its publish returns, whatever session is active by then, and a start makes its session active
before it reads the timeout and resets the counter. So silence captured before a session can count
for it (`stopped_by_older_silence`).

What applies to a session is recorded beside the run by a history variable (`Activation`): how many
chunks were captured when it became active, and the timeout its start reads. In a run in which no
older silence is counted, and no loud chunk is left uncounted, an auto-stop has a window: the last
chunks on the live subject are the session's own, below the threshold, and long enough
(`silent_window`).

The threshold is a parameter, as a predicate of the bytes of a chunk, with the two cases in which
`_compute_rms` does not get to its sum: without a whole sample the level is below any threshold, and
with an odd number of bytes above one it raises (`belowThreshold`, `rmsRaises`). The invariant
`Windowed` looks at two places only, the chunk that waits to be counted and the read of the config;
a stop touches neither (`State.Apart`).
-/

namespace LiveSTT.AudioProducer

/-! ### What applies to a session -/

/-- What a start at the read of the config reads. -/
def CtrlPc.reading : CtrlPc → Option (Option ℤ)
  | .starting (.configReading _ _ _ value) => some value
  | _ => none

/-- The chunks captured before the active session became active, and the timeout that applies to it:
the value its start reads, and the default if it reads none. -/
structure Activation where
  since : ℕ := 0
  silenceTimeoutS : ℤ := defaultSilenceTimeoutS

/-- A step that makes a session active begins its activation. -/
def Activation.next (x : Activation) (s t : State) : Activation :=
  if s.mem.sessionId = none ∧ t.mem.sessionId.isSome then
    ⟨t.captured, t.ctrl.reading.join.getD defaultSilenceTimeoutS⟩
  else x

/-- audio-producer, with what applies to the active session. -/
def observed (below : Bytes → Bool) : TransitionSystem (State × Activation) Action :=
  (system below).observe {} Activation.next

/-- Every run of audio-producer is observed. -/
theorem observed_of_reachable {below : Bytes → Bool} {G : State → Action → Prop} {s : State}
    (h : (system below).Reachable G s) :
    ∃ x, (observed below).Reachable (fun p a ↦ G p.1 a) (s, x) :=
  h.observe ({} : Activation) Activation.next

/-! ### The window -/

def samples (chunks : List Captured) : ℕ := (chunks.map fun chunk ↦ chunk.data.length / 2).sum

/-- The last chunks on the live subject are the session's own, below the threshold, and as long as
the timeout that applies to it. -/
def SilentWindow (below : Bytes → Bool) (s : State) (x : Activation) (id : SessionId) : Prop :=
  ∃ window, window <:+ s.liveChunks id ∧
    (∀ chunk ∈ window, belowThreshold below chunk.data = true ∧ x.since ≤ chunk.seq) ∧
    x.silenceTimeoutS * 16000 ≤ samples window

/-- The chunk whose publish has been answered, before `_check_silence`. -/
def State.published (s : State) : Option Captured :=
  match s.audio with
  | .livePublishing chunk false => some chunk
  | _ => none

/-- Only the silence of the active session counts, and all that is loud does: a loud chunk is not
stored by a publish that raises, nor with half a sample; no silence is counted that is older than
the active session, once its start is past the read of the config; and no session is stopped
before. -/
def ownSilence (below : Bytes → Bool) (p : State × Activation) : Action → Bool
  | .chunk data r => p.1.mem.isActive = true ∧ r = .lost → belowThreshold below data
  | .audio _ _ => ∀ chunk ∈ p.1.published, p.1.mem.isActive = true →
      (rmsRaises chunk.data → p.2.since ≤ chunk.seq → belowThreshold below chunk.data) ∧
      (rmsRaises chunk.data = false → p.1.ctrl.reading = none → belowThreshold below chunk.data →
        p.2.since ≤ chunk.seq) ∧
      (p.1.ctrl.reading ≠ none → p.1.silenceReached below = false)
  | _ => true

/-! ### The invariant -/

/-- The published chunk, if it is the active session's own. -/
def State.pending (s : State) (since : ℕ) : List Captured :=
  s.published.toList.filter (since ≤ ·.seq)

/-- The counter is covered by a silent window that ends before the published chunk, once the start
of the session is past the read of the config. -/
structure Windowed (below : Bytes → Bool) (x : Activation) (s : State) : Prop where
  captured : ∀ chunk ∈ s.published, chunk.seq < s.captured
  since : x.since ≤ s.captured
  reading : ∀ value, s.ctrl.reading = some value →
    s.mem.silenceTimeoutS = defaultSilenceTimeoutS ∧
      x.silenceTimeoutS = value.getD defaultSilenceTimeoutS
  pending : ∀ id, s.mem.sessionId = some id → s.pending x.since <:+ s.liveChunks id
  timeout : ∀ id, s.mem.sessionId = some id → s.ctrl.reading = none →
    s.mem.silenceTimeoutS = x.silenceTimeoutS
  window : ∀ id, s.mem.sessionId = some id → s.ctrl.reading = none →
    ∃ window, window ++ s.pending x.since <:+ s.liveChunks id ∧
      (∀ chunk ∈ window, belowThreshold below chunk.data = true ∧ x.since ≤ chunk.seq) ∧
      s.mem.silenceSamples ≤ samples window

section Rules

variable {below : Bytes → Bool} {x : Activation} {s t : State}

/-- As long as no session becomes active, what is observed of the activation stays. -/
theorem next_of_kept (h : t.mem.sessionId = s.mem.sessionId ∨ t.mem.sessionId = none) :
    x.next s t = x := by
  rw [Activation.next, if_neg]
  rintro ⟨hnone, hsome⟩
  rcases h with hkept | hleft
  · rw [hkept, hnone] at hsome
    contradiction
  · rw [hleft] at hsome
    contradiction

theorem next_of_began (hnone : s.mem.sessionId = none) {id : SessionId}
    (hid : t.mem.sessionId = some id) :
    x.next s t = ⟨t.captured, t.ctrl.reading.join.getD defaultSilenceTimeoutS⟩ := by
  rw [Activation.next, if_pos ⟨hnone, by rw [hid]; rfl⟩]

theorem samples_append (chunks chunks' : List Captured) :
    samples (chunks ++ chunks') = samples chunks + samples chunks' := by
  rw [samples, List.map_append, List.sum_append, samples, samples]

theorem pending_of_none {since : ℕ} (h : s.published = none) : s.pending since = [] := by
  rw [State.pending, h]
  rfl

/-- A step that touches neither the counter nor the live subjects, and begins no session. -/
theorem Windowed.of_quiet (h : Windowed below x s)
    (hid : t.mem.sessionId = s.mem.sessionId ∨ t.mem.sessionId = none)
    (hsamples : t.mem.silenceSamples = s.mem.silenceSamples)
    (htimeout : t.mem.silenceTimeoutS = s.mem.silenceTimeoutS)
    (hlive : ∀ id, t.liveChunks id = s.liveChunks id) (hpublished : t.published = s.published)
    (hreading : t.ctrl.reading = s.ctrl.reading) (hcaptured : s.captured ≤ t.captured) :
    Windowed below (x.next s t) t := by
  have hpending : t.pending x.since = s.pending x.since := by
    rw [State.pending, hpublished, State.pending]
  have hactive : ∀ id, t.mem.sessionId = some id → s.mem.sessionId = some id := by
    intro id hid'
    rcases hid with hkept | hleft
    · exact hkept ▸ hid'
    · cases hleft.symm.trans hid'
  rw [next_of_kept hid]
  refine ⟨?_, ?_, ?_, fun id hid' ↦ ?_, fun id hid' hread ↦ ?_, fun id hid' hread ↦ ?_⟩
  · rw [hpublished]
    exact fun chunk hchunk ↦ (h.captured chunk hchunk).trans_le hcaptured
  · exact h.since.trans hcaptured
  · rw [hreading, htimeout]
    exact h.reading
  · rw [hpending, hlive]
    exact h.pending id (hactive id hid')
  · rw [htimeout]
    exact h.timeout id (hactive id hid') (hreading ▸ hread)
  · rw [hpending, hlive, hsamples]
    exact h.window id (hactive id hid') (hreading ▸ hread)

theorem Windowed.keep (h : Windowed below x t) (hid : t.mem.sessionId = s.mem.sessionId) :
    Windowed below (x.next s t) t := by
  rw [next_of_kept (Or.inl hid)]
  exact h

/-- A state without a session, in which nothing is under way. -/
theorem Windowed.of_blank (hid : t.mem.sessionId = none) (hpublished : t.published = none)
    (hreading : t.ctrl.reading = none) (hsince : x.since ≤ t.captured) : Windowed below x t := by
  refine ⟨?_, hsince, ?_, ?_, ?_, ?_⟩
  · rw [hpublished]
    simp
  · rw [hreading]
    simp
  all_goals
    intro id hid'
    cases hid.symm.trans hid'

/-- A session becomes active. Its counter is reset already, or its start reads the config first. -/
theorem Windowed.of_began (id : SessionId)
    (hcaptured : ∀ chunk ∈ t.published, chunk.seq < t.captured) (hnone : s.mem.sessionId = none)
    (hid : t.mem.sessionId = some id) (htimeout : t.mem.silenceTimeoutS = defaultSilenceTimeoutS)
    (hsamples : t.ctrl.reading = none → t.mem.silenceSamples = 0) :
    Windowed below (x.next s t) t := by
  have hpending : t.pending t.captured = [] :=
    List.filter_eq_nil_iff.2 fun chunk hchunk ↦ by
      have hlt := hcaptured chunk (Option.mem_toList.1 hchunk)
      simpa using hlt
  rw [next_of_began hnone hid]
  refine ⟨hcaptured, le_refl _, fun value hvalue ↦ ⟨htimeout, ?_⟩, fun id' _ ↦ ?_,
    fun id' _ hread ↦ ?_, fun id' _ hread ↦ ⟨[], ?_, by simp, ?_⟩⟩
  · rw [hvalue]
    rfl
  · rw [hpending]
    exact List.nil_suffix
  · rw [htimeout, hread]
    rfl
  · rw [hpending]
    exact List.nil_suffix
  · rw [hsamples hread]
    exact Nat.zero_le _

end Rules

section Steps

variable {below : Bytes → Bool} {x : Activation} {s t : State} {w : Coroutine}

/-! ### Stops -/

theorem published_of_audio (h : t.audio = s.audio) : t.published = s.published := by
  rw [State.published, h, State.published]

/-- The coroutine is not where the invariant looks: the audio loop at a published chunk, the control
loop at the read of the config. -/
structure State.Apart (s : State) (w : Coroutine) : Prop where
  published : w = .audio → s.published = none
  reading : w = .control → s.ctrl.reading = none

/-- A step of a coroutine elsewhere moves neither the published chunk nor the read. -/
theorem State.Apart.moved (h : s.Apart w) (hmoved : Moved s t w) :
    t.published = s.published ∧ t.ctrl.reading = s.ctrl.reading := by
  cases hmoved with
  | audio hctrl haudio =>
    refine ⟨?_, by rw [hctrl]⟩
    rcases haudio with haudio | ⟨pc, haudio⟩ <;> rw [h.published rfl, State.published, haudio]
  | control haudio hctrl =>
    refine ⟨published_of_audio haudio, ?_⟩
    rcases hctrl with ⟨raised, hctrl⟩ | ⟨pc, hctrl⟩ <;> rw [h.reading rfl, hctrl] <;> rfl

/-- A step that may leave the session, and otherwise touches neither the counter nor the chunks. -/
theorem Windowed.of_mem (h : Windowed below x s) (hmem : t.mem = s.mem ∨ t.mem = s.mem.idle)
    (hlive : ∀ id, t.liveChunks id = s.liveChunks id)
    (hside : t.published = s.published ∧ t.ctrl.reading = s.ctrl.reading)
    (hcaptured : t.captured = s.captured) : Windowed below (x.next s t) t := by
  refine h.of_quiet ?_ ?_ ?_ hlive hside.1 hside.2 hcaptured.ge
  · rcases hmem with hmem | hmem
    · exact Or.inl (congrArg _ hmem)
    · exact Or.inr (congrArg _ hmem)
  · rcases hmem with hmem | hmem
    all_goals exact (congrArg Memory.silenceSamples hmem).trans rfl
  · rcases hmem with hmem | hmem
    all_goals exact (congrArg Memory.silenceTimeoutS hmem).trans rfl

theorem windowed_stopStep (h : Windowed below x s) (hapart : s.Apart w) {pc : StopPc} {r : Reply} :
    Windowed below (x.next s (stopStep s pc r w)) (stopStep s pc r w) :=
  h.of_mem (mem_stopStep s r w pc) (liveChunks_of_audio (stored_stopStep s r w pc))
    (hapart.moved stopping_stopStep.loops) stopping_stopStep.captured

/-- A stop clears the session before its first call, and with it what the window is about. -/
theorem windowed_beginStop (h : Windowed below x s) (hapart : s.Apart w) {now : Stamp} {r : Reply} :
    Windowed below (x.next s (beginStop s now r w)) (beginStop s now r w) := by
  refine h.of_mem ?_ (liveChunks_of_append (stored_beginStop s r w now) fun id msg hmsg ↦ ?_)
    (hapart.moved stopping_beginStop.loops) stopping_beginStop.captured
  · rw [mem_beginStop]
    exact ite_eq_or_eq _ _ _
  · split at hmsg
    · obtain ⟨id', -, rfl⟩ := List.mem_map.1 hmsg
      rfl
    · contradiction

/-! ### Starts -/

theorem published_activate (stamp : Stamp) (label : Json) (r : Reply) :
    (activate s stamp label r).published = s.published :=
  published_of_audio (audio_activate stamp label r).1

/-- At its activation a session has counted nothing. -/
theorem windowed_activate (h : Windowed below x s) (hnone : s.mem.sessionId = none) {stamp : Stamp}
    {label : Json} {r : Reply} :
    Windowed below (x.next s (activate s stamp label r)) (activate s stamp label r) := by
  have hmem := mem_activate s stamp label r
  refine Windowed.of_began stamp.id ?_ hnone ?_ ?_ fun hread ↦ ?_
  · rw [published_activate, captured_activate]
    exact h.captured
  · rw [hmem]
    split <;> rfl
  · rw [hmem]
    split <;> rfl
  · -- Without a config handle the counter is reset in the same step.
    rw [activate] at hread ⊢
    split at hread
    · contradiction
    · rw [if_neg ‹_›]
      rfl

/-- A start puts the entry first, or activates its session at once. -/
theorem windowed_beginStart (h : Windowed below x s) (hnone : s.mem.sessionId = none)
    (hread : s.ctrl.reading = none) {stamp : Stamp} {label : Json} {r : Reply} :
    Windowed below (x.next s (beginStart s stamp label r)) (beginStart s stamp label r) := by
  rcases hkv : s.mem.sessionKv with - | -
  · rw [beginStart_of_no_kv s stamp label r hkv]
    have hbegan : Windowed below x (s.record (.startBegan stamp.id)) :=
      ⟨h.captured, h.since, h.reading, h.pending, h.timeout, h.window⟩
    exact windowed_activate hbegan hnone
  · rw [beginStart_of_kv s stamp label r hkv]
    exact h.of_quiet (Or.inl rfl) rfl rfl (liveChunks_of_audio rfl) rfl hread.symm le_rfl

/-- The start is past the read of the config: the counter is reset, and the timeout applies. -/
theorem windowed_spawnFlush (h : Windowed below x s) {stamp : Stamp} {label : Json} {since : ℕ}
    {value : Option ℤ} {r : Reply}
    (hctrl : s.ctrl = .starting (.configReading stamp label since value)) :
    Windowed below (x.next s (spawnFlush s stamp label since value r))
      (spawnFlush s stamp label since value r) := by
  have hpublished : (spawnFlush s stamp label since value r).published = s.published :=
    published_of_audio (audio_announce s _ r)
  have hpending : (spawnFlush s stamp label since value r).pending x.since = s.pending x.since := by
    rw [State.pending, hpublished, State.pending]
  have hlive : ∀ id, (spawnFlush s stamp label since value r).liveChunks id = s.liveChunks id :=
    liveChunks_of_audio (by simp [spawnFlush])
  have hcaptured : (spawnFlush s stamp label since value r).captured = s.captured :=
    captured_announce s _ r
  obtain ⟨hdefault, htimeout⟩ := h.reading value (by rw [hctrl]; rfl)
  refine Windowed.keep (s := s) ?_ rfl
  refine ⟨?_, ?_, ?_, fun id hid ↦ ?_, fun id _ _ ↦ ?_, fun id hid _ ↦ ⟨[], ?_, by simp, ?_⟩⟩
  · rw [hpublished, hcaptured]
    exact h.captured
  · rw [hcaptured]
    exact h.since
  · intro value' hvalue'
    contradiction
  · rw [hpending, hlive]
    exact h.pending id hid
  · rw [htimeout, ← hdefault]
    rfl
  · rw [hpending, hlive]
    exact h.pending id hid
  · exact Nat.zero_le _

/-- The read of the config resets the counter, so that the window starts empty behind it. -/
theorem windowed_startStep (h : Windowed below x s) (hguarded : Guarded s) {pc : StartPc}
    {r : Reply} (hctrl : s.ctrl = .starting pc) :
    Windowed below (x.next s (startStep s pc r)) (startStep s pc r) := by
  cases pc with
  | kvPutting stamp label =>
    refine windowed_activate h (hguarded.putting stamp.id ?_)
    rw [hctrl]
    exact List.mem_singleton_self _
  | configReading stamp label since value => exact windowed_spawnFlush h hctrl
  | eventPublishing =>
    exact h.of_quiet (Or.inl rfl) rfl rfl (liveChunks_of_audio rfl) rfl (by rw [hctrl]; rfl) le_rfl

/-! ### The loops -/

/-- A step that only moves the control loop. -/
theorem windowed_ctrl (h : Windowed below x s) (hread : s.ctrl.reading = none) {pc : CtrlPc}
    (hpc : pc.reading = none) :
    Windowed below (x.next s { s with ctrl := pc }) { s with ctrl := pc } :=
  h.of_quiet (Or.inl rfl) rfl rfl (liveChunks_of_audio rfl) rfl (hpc.trans hread.symm) le_rfl

/-- A command begins a start or a stop. -/
theorem windowed_handleControlMessage (h : Windowed below x s) (hguarded : Guarded s)
    (hctrl : s.ctrl = .fetching) {payload : Option Json} {now : Stamp} {r : Reply} :
    Windowed below (x.next s (handleControlMessage s payload now r))
      (handleControlMessage s payload now r) := by
  have hread : s.ctrl.reading = none := by rw [hctrl]; rfl
  rw [handleControlMessage.eq_def]
  split
  · exact windowed_ctrl h hread rfl
  · split
    · split
      · exact windowed_ctrl h hread rfl
      · rename_i hidle
        exact windowed_beginStart h (hguarded.none_of_idle (Bool.not_eq_true _ ▸ hidle)) hread
    · split
      · refine windowed_beginStop h ⟨fun hw ↦ ?_, fun _ ↦ hread⟩
        contradiction
      · exact windowed_ctrl h hread rfl
  · exact windowed_ctrl h hread rfl

/-- A step of the audio loop from a place where no chunk is to be counted. -/
theorem windowed_audio (h : Windowed below x s) (hpublished : s.published = none) :
    Windowed below (x.next s { s with audio := .waiting }) { s with audio := .waiting } :=
  h.of_quiet (Or.inl rfl) rfl rfl (liveChunks_of_audio rfl) hpublished.symm rfl le_rfl

/-- A published chunk of the session below the threshold extends the window. -/
theorem Windowed.extend (h : Windowed below x s) {chunk : Captured} {id : SessionId}
    (hpublished : s.published = some chunk) (hid : s.mem.sessionId = some id)
    (hread : s.ctrl.reading = none) (hbelow : belowThreshold below chunk.data = true)
    (hsince : x.since ≤ chunk.seq) :
    ∃ window, window <:+ s.liveChunks id ∧
      (∀ c ∈ window, belowThreshold below c.data = true ∧ x.since ≤ c.seq) ∧
      s.mem.silenceSamples + chunk.data.length / 2 ≤ samples window := by
  obtain ⟨window, hsuffix, hall, hsamples⟩ := h.window id hid hread
  have hpending : s.pending x.since = [chunk] := by
    rw [State.pending, hpublished]
    simpa using hsince
  rw [hpending] at hsuffix
  refine ⟨window ++ [chunk], hsuffix, fun c hc ↦ ?_, ?_⟩
  · rcases List.mem_append.1 hc with hold | hnew
    · exact hall c hold
    · rw [List.mem_singleton.1 hnew]
      exact ⟨hbelow, hsince⟩
  · rw [samples_append]
    exact Nat.add_le_add_right hsamples _

/-- `_check_silence` counts a chunk of the session, or resets the counter. -/
theorem windowed_count (h : Windowed below x s) {chunk : Captured}
    (haudio : s.audio = .livePublishing chunk false)
    (hactive : s.mem.isActive = s.mem.sessionId.isSome)
    (hown : s.mem.isActive = true → s.ctrl.reading = none → belowThreshold below chunk.data = true →
      x.since ≤ chunk.seq) :
    Windowed below x { s with
      mem := s.mem.countSilence chunk.data (belowThreshold below chunk.data),
      audio := .waiting } := by
  have hpublished : s.published = some chunk := by rw [State.published, haudio]
  refine ⟨by simp [State.published], h.since, h.reading, fun id _ ↦ List.nil_suffix, h.timeout, ?_⟩
  intro id (hid : s.mem.sessionId = some id) hread
  rcases hbelow : belowThreshold below chunk.data with - | -
  · exact ⟨[], List.nil_suffix, by simp, Nat.zero_le _⟩
  · have hsince : x.since ≤ chunk.seq := hown (by rw [hactive, hid]; rfl) hread hbelow
    obtain ⟨window, hsuffix, hall, hsamples⟩ := h.extend hpublished hid hread hbelow hsince
    exact ⟨window, (List.append_nil window).symm ▸ hsuffix, hall, hsamples⟩

/-- `_check_silence` raises on half a sample: the chunk stays uncounted. -/
theorem windowed_odd (h : Windowed below x s) {chunk : Captured}
    (haudio : s.audio = .livePublishing chunk false)
    (hactive : s.mem.isActive = s.mem.sessionId.isSome)
    (hquiet : s.mem.isActive = true → x.since ≤ chunk.seq →
      belowThreshold below chunk.data = true) : Windowed below x { s with audio := .waiting } := by
  have hpublished : s.published = some chunk := by rw [State.published, haudio]
  refine ⟨by simp [State.published], h.since, h.reading, fun id _ ↦ List.nil_suffix, h.timeout, ?_⟩
  intro id (hid : s.mem.sessionId = some id) hread
  by_cases hsince : x.since ≤ chunk.seq
  · have hbelow := hquiet (by rw [hactive, hid]; rfl) hsince
    obtain ⟨window, hsuffix, hall, hsamples⟩ := h.extend hpublished hid hread hbelow hsince
    exact ⟨window, (List.append_nil window).symm ▸ hsuffix, hall,
      (Nat.le_add_right _ _).trans hsamples⟩
  · have hpending : s.pending x.since = [] := by
      rw [State.pending, hpublished]
      simpa using hsince
    obtain ⟨window, hsuffix, hall, hsamples⟩ := h.window id hid hread
    rw [hpending] at hsuffix
    exact ⟨window, hsuffix, hall, hsamples⟩

/-- The case that carries the invariant: a silent chunk extends the window by itself, any other
empties it. -/
theorem windowed_checkSilence (h : Windowed below x s) (hguarded : Guarded s) {chunk : Captured}
    (haudio : s.audio = .livePublishing chunk false) {now : Stamp} {r : Reply}
    (hown : ownSilence below (s, x) (.audio now r) = true) :
    Windowed below (x.next s (checkSilence s chunk.data (belowThreshold below chunk.data) now r))
      (checkSilence s chunk.data (belowThreshold below chunk.data) now r) := by
  have hpublished : s.published = some chunk := by rw [State.published, haudio]
  have hchunk := of_decide_eq_true hown chunk hpublished
  simp only [checkSilence]
  split
  · rename_i hodd
    exact (windowed_odd h haudio hguarded.flag fun hactive ↦ (hchunk hactive).1 hodd).keep rfl
  · rename_i heven
    have hcounted := windowed_count h haudio hguarded.flag fun hactive ↦
      (hchunk hactive).2.1 (Bool.not_eq_true _ ▸ heven)
    split
    · exact windowed_beginStop hcounted ⟨fun _ ↦ rfl, fun hw ↦ by contradiction⟩
    · exact hcounted.keep rfl

/-- A chunk is published on the live subject, and waits to be counted if its publish does not
raise. -/
theorem windowed_live (h : Windowed below x s) (hpublished : s.published = none) {id : SessionId}
    (hid : s.mem.sessionId = some id) {data : Bytes} {r : Reply}
    (hlost : r = .lost → belowThreshold below data = true)
    {u : State} (hmem : u.mem = s.mem) (hctrl : u.ctrl = s.ctrl)
    (hcaptured : u.captured = s.captured + 1)
    (haudio : u.audio = .livePublishing ⟨s.captured, data⟩ r.raised)
    (hstored : u.broker.audio =
      s.broker.audio ++ if r.applied then [.live id ⟨s.captured, data⟩] else []) :
    Windowed below (x.next s u) u := by
  refine Windowed.keep ?_ (congrArg _ hmem)
  have hlive : u.liveChunks id =
      s.liveChunks id ++ if r.applied then [⟨s.captured, data⟩] else [] := by
    rw [State.liveChunks, hstored, List.filterMap_append, State.liveChunks]
    split <;> simp [Stored.chunkOn]
  have hpending : u.pending x.since = if r.raised then [] else [⟨s.captured, data⟩] := by
    rw [State.pending, State.published, haudio]
    cases r <;> simp [Reply.raised, h.since]
  have hid' : ∀ id', u.mem.sessionId = some id' → id' = id := fun id' hid' ↦
    Option.some.inj (hid'.symm.trans ((congrArg _ hmem).trans hid))
  refine ⟨?_, ?_, ?_, fun id' hu ↦ ?_, fun id' hu ↦ ?_, fun id' hu hread ↦ ?_⟩
  · rw [State.published, haudio, hcaptured]
    cases r <;> simp [Reply.raised]
  · rw [hcaptured]
    exact h.since.trans (Nat.le_succ _)
  · rw [hctrl, hmem]
    exact h.reading
  · rw [hid' id' hu, hlive, hpending]
    cases r with
    | ok => exact List.suffix_append _ _
    | _ => exact List.nil_suffix
  · rw [hmem, hctrl]
    exact h.timeout id hid
  · obtain ⟨window, hsuffix, hall, hsamples⟩ := h.window id hid (hctrl ▸ hread)
    rw [pending_of_none hpublished, List.append_nil] at hsuffix
    have hsnoc : window ++ [⟨s.captured, data⟩] <:+ s.liveChunks id ++ [⟨s.captured, data⟩] := by
      obtain ⟨pre, hpre⟩ := hsuffix
      exact ⟨pre, by rw [← List.append_assoc, hpre]⟩
    rw [hid' id' hu, hlive, hpending, hmem]
    cases r with
    | ok => exact ⟨window, hsnoc, hall, hsamples⟩
    | error => exact ⟨window, by simpa [Reply.applied, Reply.raised] using hsuffix, hall, hsamples⟩
    | lost =>
      -- The chunk is stored but never counted.
      refine ⟨window ++ [⟨s.captured, data⟩], by simpa [Reply.applied, Reply.raised] using hsnoc,
        fun c hc ↦ ?_, ?_⟩
      · rcases List.mem_append.1 hc with hold | hnew
        · exact hall c hold
        · rw [List.mem_singleton.1 hnew]
          exact ⟨hlost rfl, h.since⟩
      · rw [samples_append]
        exact hsamples.trans (Nat.le_add_right _ _)

/-- The chunk on its way is the next of its live subject. -/
theorem windowed_routeChunk (h : Windowed below x s) (haudio : s.audio = .waiting) {data : Bytes}
    {r : Reply} (hown : ownSilence below (s, x) (.chunk data r) = true) :
    Windowed below (x.next s (routeChunk s data r)) (routeChunk s data r) := by
  have hpublished : s.published = none := by rw [State.published, haudio]
  rw [routeChunk.eq_def]
  split
  · rename_i id hactive hid
    exact windowed_live h hpublished hid (fun hlost ↦ of_decide_eq_true hown ⟨hactive, hlost⟩)
      (mem_publish s _ r) (ctrl_publish s _ r) rfl rfl (by simp)
  · refine h.of_quiet (Or.inl rfl) rfl rfl (liveChunks_of_audio ?_) hpublished.symm rfl
      (Nat.le_succ _)
    show Broker.audio (if r.applied = true then _ else _) = _
    split <;> rfl

/-- The flush tasks publish on the backfill subject, which the window is not about. -/
theorem windowed_flushStep (h : Windowed below x s) {i : ℕ} {f : Flush} {answer : Fetched}
    {r : Reply} :
    Windowed below (x.next s (flushStep s i f answer r)) (flushStep s i f answer r) := by
  have hF := flushed_flushStep s i f answer r
  refine h.of_mem (Or.inl hF.mem) ?_ ⟨published_of_audio hF.audio, by rw [hF.ctrl]⟩ hF.captured
  rcases hF.stored with hsame | ⟨msg, hmsg, hnew⟩
  · exact liveChunks_of_audio hsame
  · refine liveChunks_of_append hnew fun id msg' hmsg' ↦ ?_
    rw [List.mem_singleton.1 hmsg']
    cases msg <;> first | rfl | contradiction

/-- A recovered session has counted nothing. -/
theorem windowed_boot (hguarded : Guarded s) (hdown : s.up = false) (hsince : x.since ≤ s.captured)
    {sessionKv configKv raised : Bool} :
    Windowed below (x.next s (boot s sessionKv configKv raised))
      (boot s sessionKv configKv raised) := by
  have hpublished : (boot s sessionKv configKv raised).published = none := by
    rw [State.published, audio_boot]
  have hreading : (boot s sessionKv configKv raised).ctrl.reading = none := by
    rw [ctrl_boot]
    rfl
  have hcaptured := captured_boot s sessionKv configKv raised
  obtain ⟨hsamples, htimeout⟩ := counter_boot s sessionKv configKv raised
  rcases hid : (boot s sessionKv configKv raised).mem.sessionId with - | id
  · rw [next_of_kept (Or.inr hid)]
    exact Windowed.of_blank hid hpublished hreading (hcaptured ▸ hsince)
  · refine Windowed.of_began id ?_ (hguarded.down hdown) hid htimeout fun _ ↦ hsamples
    rw [hpublished]
    simp

/-- **One step.** -/
theorem windowed_step {a : Action} (h : Windowed below x s) (hguarded : Guarded s)
    (hown : ownSilence below (s, x) a = true) (ht : step below s a = some t) :
    Windowed below (x.next s t) t := by
  cases stepped_of_step ht with
  | boot hdown sessionKv configKv raised => exact windowed_boot hguarded hdown h.since
  | crash hup =>
    rw [next_of_kept (Or.inr rfl)]
    exact Windowed.of_blank rfl rfl rfl h.since
  | chunk hup haudio data r => exact windowed_routeChunk h haudio hown
  | published hup haudio now r => exact windowed_checkSilence h hguarded haudio hown
  | dropped hup haudio now r => exact windowed_audio h (by rw [State.published, haudio])
  | buffered hup haudio now r => exact windowed_audio h (by rw [State.published, haudio])
  | audioStop hup haudio now r =>
    refine windowed_stopStep h ⟨fun _ ↦ by rw [State.published, haudio], fun hw ↦ ?_⟩
    contradiction
  | subscribed hup hctrl ok =>
    exact windowed_ctrl h (by rw [hctrl]; rfl) (by cases ok <;> rfl)
  | message hup hctrl payload now r => exact windowed_handleControlMessage h hguarded hctrl
  | ctrlStart hup hctrl r => exact windowed_startStep h hguarded hctrl
  | ctrlStop hup hctrl r =>
    refine windowed_stopStep h ⟨fun hw ↦ ?_, fun _ ↦ by rw [hctrl]; rfl⟩
    contradiction
  | @ctrlAcked raised hup hctrl r =>
    exact windowed_ctrl h (by rw [hctrl]; rfl) (by cases raised <;> rfl)
  | ctrlExit hup hctrl => exact windowed_ctrl h (by rw [hctrl]; rfl) rfl
  | flush hup hi answer r => exact windowed_flushStep h
  | expire n => exact h.of_quiet (Or.inl rfl) rfl rfl (liveChunks_of_audio rfl) rfl rfl le_rfl
  | setConfig value =>
    exact h.of_quiet (Or.inl rfl) rfl rfl (liveChunks_of_audio rfl) rfl rfl le_rfl

end Steps

/-! ### An auto-stop has its window -/

theorem guarded_observed {below : Bytes → Bool} {K : State × Activation → Action → Prop}
    {p : State × Activation} (h : (observed below).Reachable K p) : Guarded p.1 :=
  (guarded_inductive below TransitionSystem.always).reachable
    (TransitionSystem.refines_observe.reachable h)

/-- Along a run: each step keeps it, with the guard of one session beside it. -/
theorem windowed_reachable {below : Bytes → Bool} {p : State × Activation}
    (h : (observed below).Reachable (fun p a ↦ ownSilence below p a = true) p) :
    Windowed below p.2 p.1 := by
  refine h.induct (I := fun p ↦ Windowed below p.2 p.1) (fun p hp ↦ ?_)
    fun {p a q} hreach hwindow hown hstep ↦ ?_
  · obtain ⟨hs, hx⟩ := hp
    obtain hs : p.1 = {} := hs
    rw [hs, hx]
    exact Windowed.of_blank rfl rfl rfl (le_refl _)
  · obtain ⟨ht, hnext⟩ := TransitionSystem.step_observe hstep
    rw [hnext]
    exact windowed_step hwindow (guarded_observed hreach) hown ht

/-- `_check_silence` stops the session: the audio loop, in no stop before, is in one that captured
it. -/
theorem silenceReached_of_stop {below : Bytes → Bool} {s t : State} {now : Stamp} {r : Reply}
    {id : SessionId} {stoppedAt : String} (ht : step below s (.audio now r) = some t)
    (hbefore : s.audio.stops = []) (hafter : t.audio.stops = [.eosPublishing id stoppedAt]) :
    s.silenceReached below = true ∧ s.mem.sessionId = some id ∧ ∃ chunk,
      s.audio = .livePublishing chunk false ∧ rmsRaises chunk.data = false := by
  cases stepped_of_step ht with
  | @published chunk hup haudio _ _ =>
    simp only [checkSilence] at hafter
    split at hafter
    · contradiction
    · rename_i heven
      have heven' : rmsRaises chunk.data = false := Bool.not_eq_true _ ▸ heven
      split at hafter
      · rename_i hsilent
        refine ⟨?_, ?_, chunk, haudio, heven'⟩
        · rw [State.silenceReached, haudio]
          simpa [heven'] using hsilent
        · rw [beginStop.eq_def] at hafter
          split at hafter
          · rename_i id' hid'
            obtain ⟨rfl, -⟩ := StopPc.eosPublishing.inj (List.cons.inj hafter).1
            exact hid'
          · rw [idleStop] at hafter
            split at hafter <;> cases (List.cons.inj hafter).1
      · contradiction
  | dropped => contradiction
  | buffered => contradiction
  | audioStop hup haudio _ _ =>
    rw [haudio] at hbefore
    contradiction

/-- **An auto-stop comes after a silent window of its session**, in every run in which only the
session's own silence counts and all that is loud does. -/
theorem silent_window {below : Bytes → Bool} {s t : State} {x : Activation} {now : Stamp}
    {r : Reply} {id : SessionId} {stoppedAt : String}
    (h : (observed below).Reachable (fun p a ↦ ownSilence below p a = true) (s, x))
    (hown : ownSilence below (s, x) (.audio now r) = true)
    (ht : step below s (.audio now r) = some t) (hbefore : s.audio.stops = [])
    (hafter : t.audio.stops = [.eosPublishing id stoppedAt]) : SilentWindow below s x id := by
  obtain ⟨hreached, hid, chunk, haudio, heven⟩ := silenceReached_of_stop ht hbefore hafter
  have hguarded := guarded_observed h
  have hwindow := windowed_reachable h
  have hactive : s.mem.isActive = true := by
    rw [show s.mem.isActive = _ from hguarded.flag, hid]
    rfl
  obtain ⟨-, hsince, hreading⟩ := of_decide_eq_true hown chunk
    (by rw [State.published, haudio]; rfl) hactive
  have hread : s.ctrl.reading = none := by
    by_contra hsome
    rw [hreading hsome] at hreached
    contradiction
  have hcounted := windowed_count hwindow haudio hguarded.flag fun _ ↦ hsince heven
  obtain ⟨window, hsuffix, hall, hsamples⟩ := hcounted.window id hid hread
  have hlong : s.mem.silenceTimeoutS * 16000 ≤
      ((s.mem.countSilence chunk.data (belowThreshold below chunk.data)).silenceSamples : ℤ) := by
    rw [State.silenceReached, haudio] at hreached
    exact of_decide_eq_true (Bool.and_eq_true_iff.1 hreached).2
  refine ⟨window, (List.append_nil window) ▸ hsuffix, hall, ?_⟩
  have htimeout : s.mem.silenceTimeoutS = x.silenceTimeoutS := hwindow.timeout id hid hread
  have hcount :
      (s.mem.countSilence chunk.data (belowThreshold below chunk.data)).silenceSamples ≤
        samples window :=
    hsamples
  rw [← htimeout]
  omega

/-- The next step of the audio loop stops the session. -/
def autoStops (below : Bytes → Bool) (now : Stamp) (id : SessionId) (s : State) : Bool :=
  s.audio.stops.isEmpty && (step below s (.audio now .ok)).any fun t ↦ endings t.audio.stops = [id]

/-- The test on a state says what it is named after. -/
theorem exists_of_autoStops {below : Bytes → Bool} {s : State} {now : Stamp} {id : SessionId}
    (h : autoStops below now id s = true) : s.audio.stops = [] ∧ ∃ t stoppedAt,
      step below s (.audio now .ok) = some t ∧ t.audio.stops = [.eosPublishing id stoppedAt] := by
  obtain ⟨hbefore, hafter⟩ := Bool.and_eq_true_iff.1 h
  obtain ⟨t, ht, hending⟩ := (Option.any_eq_true _ _).1 hafter
  refine ⟨List.isEmpty_iff.1 hbefore, t, ?_⟩
  have hids : endings t.audio.stops = [id] := of_decide_eq_true hending
  rw [AudioPc.stops.eq_def] at hids ⊢
  split at hids
  · rename_i pc _
    cases pc with
    | eosPublishing id' stoppedAt =>
      obtain rfl := (List.cons.inj hids).1
      exact ⟨stoppedAt, ht, rfl⟩
    | _ => contradiction
  · contradiction

/-- A timeout of a second, and eleven chunks of a tenth of a second each. -/
theorem silent_window_second :
    ∃ s x t stoppedAt, (observed silent).Reachable (fun p a ↦ ownSilence silent p a = true) (s, x) ∧
      step silent s (.audio second .ok) = some t ∧
      t.audio.stops = [.eosPublishing first.id stoppedAt] ∧ x.silenceTimeoutS = 1 ∧
      SilentWindow silent s x first.id := by
  obtain ⟨⟨s, x⟩, hs, htest⟩ := TransitionSystem.exists_reachable_of_exec
    (M := observed silent) (G := fun p a ↦ ownSilence silent p a = true) ({}, {})
    (.setConfig (some 1) :: running ++ starting first ++ started ++ silentChunks second 10)
    (fun p ↦ autoStops silent second first.id p.1 && decide (p.2.silenceTimeoutS = 1) &&
      ownSilence silent p (.audio second .ok)) ⟨rfl, rfl⟩ (by decide +kernel)
  obtain ⟨htest, hown⟩ := Bool.and_eq_true_iff.1 htest
  obtain ⟨hauto, htimeout⟩ := Bool.and_eq_true_iff.1 htest
  obtain ⟨hbefore, t, stoppedAt, ht, hafter⟩ := exists_of_autoStops hauto
  exact ⟨s, x, t, stoppedAt, hs, ht, hafter, of_decide_eq_true htimeout,
    silent_window hs hown ht hbefore hafter⟩

/-- A window is no longer than what was published. -/
theorem not_silentWindow {below : Bytes → Bool} {s : State} {x : Activation} {id : SessionId}
    (hshort : (samples (s.liveChunks id) : ℤ) < x.silenceTimeoutS * 16000) :
    ¬ SilentWindow below s x id := by
  rintro ⟨window, ⟨pre, hpre⟩, -, hlong⟩
  rw [← hpre, samples_append] at hshort
  push_cast at hshort
  omega

/-- A chunk of the first session is in flight while the session is stopped and the second one
started. It is counted for the second, which is stopped after less than a second of its own. -/
theorem stopped_by_older_silence :
    ∃ s x t stoppedAt, (observed silent).Reachable (fun _ a ↦ a.callsSucceed = true) (s, x) ∧
      step silent s (.audio second .ok) = some t ∧ s.audio.stops = [] ∧
      t.audio.stops = [.eosPublishing second.id stoppedAt] ∧ x.silenceTimeoutS = 1 ∧
      ¬ SilentWindow silent s x second.id := by
  obtain ⟨⟨s, x⟩, hs, htest⟩ := TransitionSystem.exists_reachable_of_exec
    (M := observed silent) (G := fun _ a ↦ a.callsSucceed = true) ({}, {})
    (.setConfig (some 1) :: running ++ starting first ++ started ++
      -- The chunk is published for the first session.
      [.chunk silence .ok, .message (command "stop") second .ok, .ctrl .ok, .ctrl .ok, .ctrl .ok,
        .ctrl .ok] ++
      starting second ++ started ++ [.audio second .ok] ++ silentChunks second 9)
    (fun p ↦ autoStops silent second second.id p.1 && decide (p.2.silenceTimeoutS = 1 ∧
      (samples (p.1.liveChunks second.id) : ℤ) < p.2.silenceTimeoutS * 16000)) ⟨rfl, rfl⟩
      (by decide +kernel)
  obtain ⟨hauto, hshort⟩ := Bool.and_eq_true_iff.1 htest
  obtain ⟨hbefore, t, stoppedAt, ht, hafter⟩ := exists_of_autoStops hauto
  obtain ⟨htimeout, hsamples⟩ := of_decide_eq_true hshort
  exact ⟨s, x, t, stoppedAt, hs, ht, hbefore, hafter, htimeout, not_silentWindow hsamples⟩

end LiveSTT.AudioProducer
