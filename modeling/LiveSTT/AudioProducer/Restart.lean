import Mathlib.Logic.Function.Basic
import LiveSTT.AudioProducer.Entry
import LiveSTT.AudioProducer.SilenceWindow

/-!
# The silence timeout after a restart

A start puts two things in force: the session, which it also writes to the KV, and the silence
timeout, which it reads from the config bucket. A boot reads the entry of the session and resumes
it. It does not read the config: the timeout is then the default.

The timeouts in force are recorded beside the run, for each session that a start of the running
process made active (`InForce`). So a restart keeps the session whenever the entry can be read, and
its timeout exactly if that was the default (`restored_iff`). What was in force is the default or a
value of the config bucket (`timeouts_of_config`); as long as the bucket holds nothing else than the
default, restarts change nothing (`restored_of_default`).

`Timed` says of each function of the source that it does not write the config, and where the timeout
it leaves can come from. With it the last two results need no more than a look at the steps of the
environment, which write the config, end the process and boot it.
-/

namespace LiveSTT.AudioProducer

open TransitionSystem

/-! ### What is in force -/

/-- Whether the active session was started by the running process, and the timeouts that were last
in force for the sessions so started. -/
structure InForce where
  startedHere : Bool := false
  timeouts : SessionId → Option ℤ := fun _ ↦ none

/-- A session becomes active by a start, or by the recovery of a boot. -/
def InForce.next (x : InForce) (s t : State) : InForce :=
  let here := if s.mem.sessionId = none then s.up else x.startedHere
  { startedHere := here
    timeouts :=
      match t.mem.sessionId with
      | some id => if here then Function.update x.timeouts id (some t.mem.silenceTimeoutS)
          else x.timeouts
      | none => x.timeouts }

/-- audio-producer, with the timeouts in force. -/
def timed (below : Bytes → Bool) : TransitionSystem (State × InForce) Action :=
  (system below).observe {} InForce.next

/-- The session is active, and its entry written. -/
structure ActiveEntry (s : State) (id : SessionId) : Prop where
  up : s.up = true
  isActive : s.mem.isActive = true
  sessionId : s.mem.sessionId = some id
  entry : s.broker.current.map KvEntry.identity = some ("active", id)

/-- The process is in the session again, with the timeout that a start had put in force for it. -/
def Restored (x : InForce) (id : SessionId) (u : State) : Prop :=
  u.mem.sessionId = some id ∧ u.mem.isActive = true ∧
    ∀ g, x.timeouts id = some g → u.mem.silenceTimeoutS = g

section

variable {below : Bytes → Bool} {G : State × InForce → Action → Prop} {s t u : State} {x : InForce}
  {id : SessionId}

/-- The history variable records what is in force. -/
theorem timeouts_of_startedHere {p : State × InForce} (h : (timed below).Reachable G p)
    (hid : p.1.mem.sessionId = some id) (hhere : p.2.startedHere = true) :
    p.2.timeouts id = some p.1.mem.silenceTimeoutS := by
  revert hid hhere
  refine h.induct (I := fun p ↦ p.1.mem.sessionId = some id → p.2.startedHere = true →
    p.2.timeouts id = some p.1.mem.silenceTimeoutS) ?_ ?_
  · rintro ⟨s, x⟩ ⟨hs, -⟩ hid -
    obtain rfl : s = {} := hs
    contradiction
  · -- what the step records is what is in force behind it, whatever was recorded before
    rintro ⟨s, x⟩ a ⟨t, y⟩ - - - hstep hid hhere
    obtain rfl : y = x.next s t := (step_observe hstep).2
    have hid : t.mem.sessionId = some id := hid
    simp only [InForce.next] at hhere ⊢
    rw [hid, hhere]
    simp

/-! ### A restart -/

/-- What a boot makes of the memory: the session of the entry, and the default timeout. -/
theorem mem_boot_crash (h : ActiveEntry s id) (sessionKv configKv raised : Bool) :
    (boot (crash s) sessionKv configKv raised).mem.silenceTimeoutS = defaultSilenceTimeoutS ∧
      ((boot (crash s) sessionKv configKv raised).mem.sessionId = some id ∧
        (boot (crash s) sessionKv configKv raised).mem.isActive = true ↔
          sessionKv = true ∧ raised = false) := by
  obtain ⟨entry, hentry, hidentity⟩ := Option.map_eq_some_iff.1 h.entry
  obtain ⟨hstate, hsession⟩ := Prod.mk.inj hidentity
  have hcurrent : (crash s).broker.current = some entry := hentry
  rw [boot, recoverSession.eq_def]
  simp only [hcurrent, hstate]
  cases sessionKv with
  | false => simp
  | true =>
    cases raised with
    | true => simp
    | false => simp [State.record, hsession]

/-- The run of a restart. -/
theorem run_restart (hup : s.up = true) (sessionKv configKv raised : Bool) :
    (system below).Run always s [.crash, .boot sessionKv configKv raised]
      (boot (crash s) sessionKv configKv raised) := by
  have hcrash : (system below).step s .crash = some (crash s) := by
    simp [system, step, runStep, hup]
  have hboot : (system below).step (crash s) (.boot sessionKv configKv raised) =
      some (boot (crash s) sessionKv configKv raised) := by
    simp [system, step, crash]
  exact (Run.single trivial hcrash).trans (Run.single trivial hboot)

theorem eq_of_restart {sessionKv configKv raised : Bool}
    (h : (system below).Run always s [.crash, .boot sessionKv configKv raised] u)
    (hup : s.up = true) : u = boot (crash s) sessionKv configKv raised :=
  h.deterministic (run_restart hup sessionKv configKv raised)

theorem restored_boot_crash_iff (h : ActiveEntry s id) (sessionKv configKv raised : Bool) :
    Restored x id (boot (crash s) sessionKv configKv raised) ↔ sessionKv = true ∧ raised = false ∧
      ∀ g, x.timeouts id = some g → g = defaultSilenceTimeoutS := by
  obtain ⟨htimeout, hsession⟩ := mem_boot_crash h sessionKv configKv raised
  rw [Restored, ← and_assoc, hsession, htimeout, and_assoc]
  refine and_congr_right fun _ ↦ and_congr_right fun _ ↦ forall₂_congr fun g _ ↦ eq_comm

end

/-- A crash in any reachable state, and the recovery behind it: the session comes back if its entry
is read, and with its timeout exactly if that was the default. -/
theorem restored_iff {below : Bytes → Bool} {p : State × InForce} {u : State} {id : SessionId}
    {sessionKv configKv raised : Bool} (hp : (timed below).Reachable (fun _ _ ↦ True) p)
    (hactive : ActiveEntry p.1 id)
    (hrun : (system below).Run always p.1 [.crash, .boot sessionKv configKv raised] u) :
    (p.2.startedHere = true → p.2.timeouts id = some p.1.mem.silenceTimeoutS) ∧
      (Restored p.2 id u ↔ sessionKv = true ∧ raised = false ∧
        ∀ g, p.2.timeouts id = some g → g = defaultSilenceTimeoutS) := by
  refine ⟨timeouts_of_startedHere hp hactive.sessionId, ?_⟩
  rw [eq_of_restart hrun hactive.up]
  exact restored_boot_crash_iff hactive sessionKv configKv raised

/-- A start that reads a timeout of 30 seconds, in a bucket that nobody touches afterwards. -/
def shortTimeout : List Action := .setConfig (some 30) :: running ++ starting first ++ started

def activeEntryTest (s : State) (id : SessionId) : Bool :=
  s.up && s.mem.isActive && decide (s.mem.sessionId = some id) &&
    decide (s.broker.current.map KvEntry.identity = some ("active", id))

theorem activeEntry_of_test {s : State} {id : SessionId} (h : activeEntryTest s id = true) :
    ActiveEntry s id := by
  simp only [activeEntryTest, Bool.and_eq_true, decide_eq_true_eq] at h
  exact ⟨h.1.1.1, h.1.1.2, h.1.2, h.2⟩

/-- It is active with 30 seconds; a crash and a recovery in which every call succeeds leave 300. -/
theorem not_restored : ∃ p u,
    (timed silent).Reachable (fun _ _ ↦ True) p ∧ ActiveEntry p.1 first.id ∧
    p.2.timeouts first.id = some 30 ∧ p.1.broker.silenceTimeoutS = some 30 ∧
    (system silent).Run always p.1 [.crash, .boot true true false] u ∧
    u.mem.silenceTimeoutS = 300 ∧ ¬ Restored p.2 first.id u := by
  obtain ⟨p, hp, htest⟩ := exists_reachable_of_exec (M := timed silent) (G := always) ({}, {})
    shortTimeout
    (fun p ↦ activeEntryTest p.1 first.id && decide (p.2.timeouts first.id = some 30) &&
      decide (p.1.broker.silenceTimeoutS = some 30)) ⟨rfl, rfl⟩ (by decide +kernel)
  simp only [Bool.and_eq_true, decide_eq_true_eq] at htest
  obtain ⟨⟨hactive, hthirty⟩, hconfig⟩ := htest
  have hentry := activeEntry_of_test hactive
  refine ⟨p, boot (crash p.1) true true false, hp, hentry, hthirty, hconfig, ?_, ?_, ?_⟩
  · exact run_restart hentry.up true true false
  · exact (mem_boot_crash hentry true true false).1
  · rw [restored_boot_crash_iff hentry]
    rintro ⟨-, -, hdefault⟩
    exact absurd (hdefault 30 hthirty) (by decide)

/-- A start that reads nothing, and a restart. -/
theorem restored_iff_default : ∃ p u, (timed silent).Reachable (fun _ _ ↦ True) p ∧
    (system silent).Run always p.1 [.crash, .boot true true false] u ∧ Restored p.2 first.id u := by
  obtain ⟨p, hp, htest⟩ := exists_reachable_of_exec (M := timed silent) (G := always) ({}, {})
    (running ++ starting first ++ started)
    (fun p ↦ activeEntryTest p.1 first.id && decide (p.2.timeouts first.id = some 300))
    ⟨rfl, rfl⟩ (by decide +kernel)
  simp only [Bool.and_eq_true, decide_eq_true_eq] at htest
  have hentry := activeEntry_of_test htest.1
  have hrun : (system silent).Run always p.1 [.crash, .boot true true false]
      (boot (crash p.1) true true false) := run_restart hentry.up true true false
  refine ⟨p, _, hp, hrun, (restored_iff hp hentry hrun).2.2 ⟨rfl, rfl, fun g hg ↦ ?_⟩⟩
  exact Option.some.inj (hg.symm.trans htest.2)

/-! ### Where timeouts come from -/

/-- A step that does not change the config. The timeout is the old one, the default or what a start
has read, and what a start reads is in the config. -/
structure Timed (s t : State) : Prop where
  timeout : t.mem.silenceTimeoutS = s.mem.silenceTimeoutS ∨
    t.mem.silenceTimeoutS = defaultSilenceTimeoutS ∨
    s.ctrl.reading = some (some t.mem.silenceTimeoutS)
  reading : ∀ value, t.ctrl.reading = some (some value) →
    s.ctrl.reading = some (some value) ∨ s.broker.silenceTimeoutS = some value
  config : t.broker.silenceTimeoutS = s.broker.silenceTimeoutS

section

variable {below : Bytes → Bool} {s t : State} {w : Coroutine} {r : Reply}

/-- A step that touches none of it, or leaves the read of the config. -/
theorem Timed.of_eq (hmem : t.mem.silenceTimeoutS = s.mem.silenceTimeoutS)
    (hctrl : t.ctrl.reading = s.ctrl.reading ∨ t.ctrl.reading = none)
    (hconfig : t.broker.silenceTimeoutS = s.broker.silenceTimeoutS) : Timed s t := by
  refine ⟨Or.inl hmem, fun value hvalue ↦ Or.inl ?_, hconfig⟩
  rcases hctrl with hkept | hleft
  · rwa [hkept] at hvalue
  · rw [hleft] at hvalue
    contradiction

/-- A step of a stop does not begin a read of the config. -/
theorem Moved.reading (h : Moved s t w) :
    t.ctrl.reading = s.ctrl.reading ∨ t.ctrl.reading = none := by
  cases h with
  | audio hctrl _ => exact Or.inl (congrArg _ hctrl)
  | control _ hctrl =>
    rcases hctrl with ⟨raised, hctrl⟩ | ⟨pc, hctrl⟩
    · exact Or.inr (by rw [hctrl]; rfl)
    · exact Or.inr (by rw [hctrl]; rfl)

theorem config_idleStop (captured : Option SessionId) (stoppedAt : String) :
    (idleStop s captured stoppedAt r w).broker.silenceTimeoutS = s.broker.silenceTimeoutS := by
  rw [idleStop]
  split
  · simp [State.goIdle, State.record]
  · simp [announceStop, State.goIdle, State.record]

theorem config_stopStep (pc : StopPc) :
    (stopStep s pc r w).broker.silenceTimeoutS = s.broker.silenceTimeoutS := by
  cases pc with
  | eosPublishing id stoppedAt => exact config_idleStop _ _
  | kvDeleting captured stoppedAt cleared => simp [stopStep, announceStop]
  | eventPublishing captured cleared => simp [stopStep]

theorem config_beginStop (now : Stamp) :
    (beginStop s now r w).broker.silenceTimeoutS = s.broker.silenceTimeoutS := by
  rw [beginStop.eq_def]
  split
  · simp [State.record]
  · exact config_idleStop _ _

theorem timed_stopStep (pc : StopPc) : Timed s (stopStep s pc r w) := by
  refine Timed.of_eq ?_ stopping_stopStep.loops.reading (config_stopStep pc)
  rcases mem_stopStep s r w pc with hmem | hmem
  · rw [hmem]
  · rw [hmem]
    rfl

theorem timed_beginStop (now : Stamp) : Timed s (beginStop s now r w) := by
  refine Timed.of_eq ?_ stopping_beginStop.loops.reading (config_beginStop now)
  rw [mem_beginStop]
  split
  · rfl
  · rfl

/-- The session that becomes active has the default until the config has been read. -/
theorem timed_activate (stamp : Stamp) (label : Json) : Timed s (activate s stamp label r) := by
  refine ⟨Or.inr (Or.inl ?_), fun value hvalue ↦ Or.inr ?_, ?_⟩
  · rw [mem_activate]
    split
    · rfl
    · rfl
  · rw [activate] at hvalue
    split at hvalue
    · have hread : (if r.raised then none else s.broker.silenceTimeoutS) = some value :=
        Option.some.inj hvalue
      split at hread
      · contradiction
      · exact hread
    · contradiction
  · rw [activate]
    split
    · rfl
    · simp [spawnFlush, State.makeActive, State.record]

theorem timed_beginStart (stamp : Stamp) (label : Json) : Timed s (beginStart s stamp label r) := by
  rcases hkv : s.mem.sessionKv with - | -
  · rw [beginStart_of_no_kv s stamp label r hkv]
    have hactivate := timed_activate (s := s.record (.startBegan stamp.id)) (r := r) stamp label
    exact ⟨hactivate.timeout, hactivate.reading, hactivate.config⟩
  · rw [beginStart_of_kv s stamp label r hkv]
    exact Timed.of_eq rfl (Or.inr rfl) rfl

/-- The calls of a start read the config, and put in force what they have read. -/
theorem timed_startStep {pc : StartPc} (hctrl : s.ctrl = .starting pc) :
    Timed s (startStep s pc r) := by
  cases pc with
  | kvPutting stamp label => exact timed_activate stamp label
  | configReading stamp label since value =>
    refine ⟨?_, fun value hvalue ↦ by contradiction, by simp [startStep, spawnFlush]⟩
    cases value with
    | none => exact Or.inl rfl
    | some value => exact Or.inr (Or.inr (by rw [hctrl]; rfl))
  | eventPublishing => exact Timed.of_eq rfl (Or.inr rfl) rfl

/-- A command leaves the timeout as it is, but for the start that resets it. -/
theorem timed_handleControlMessage (payload : Option Json) (now : Stamp) :
    Timed s (handleControlMessage s payload now r) := by
  rw [handleControlMessage.eq_def]
  split
  · exact Timed.of_eq rfl (Or.inr rfl) rfl
  · split
    · split
      · exact Timed.of_eq rfl (Or.inr rfl) rfl
      · exact timed_beginStart now _
    · split
      · exact timed_beginStop now
      · exact Timed.of_eq rfl (Or.inr rfl) rfl
  · exact Timed.of_eq rfl (Or.inr rfl) rfl

/-- The silence check reads the timeout and does not write it. -/
theorem timed_checkSilence (data : Bytes) (b : Bool) (now : Stamp) :
    Timed s (checkSilence s data b now r) := by
  simp only [checkSilence]
  split
  · exact Timed.of_eq rfl (Or.inl rfl) rfl
  · split
    · have hstop := timed_beginStop (r := r) (w := .audio)
        (s := { s with mem := s.mem.countSilence data b, audio := .waiting }) now
      exact ⟨hstop.timeout, hstop.reading, hstop.config⟩
    · exact Timed.of_eq rfl (Or.inl rfl) rfl

/-- The flush tasks do not write the config. -/
theorem config_flushStep (i : ℕ) (f : Flush) (answer : Fetched) :
    (flushStep s i f answer r).broker.silenceTimeoutS = s.broker.silenceTimeoutS := by
  have hset (pc : FlushPc) (s : State) :
      (s.setFlush i f pc).broker.silenceTimeoutS = s.broker.silenceTimeoutS := rfl
  have heos : (flushEos s i f r).broker.silenceTimeoutS = s.broker.silenceTimeoutS := by
    simp [flushEos, hset]
  have hbatch (cursor : ℕ) (batch : List Captured) :
      (flushBatch s i f cursor batch r).broker.silenceTimeoutS = s.broker.silenceTimeoutS := by
    cases batch with
    | nil => rfl
    | cons chunk rest => simp [flushBatch, hset]
  rw [flushStep.eq_def]
  split
  · split
    · rfl
    · rfl
  · split
    · split
      · exact heos
      · exact hbatch _ _
    · exact heos
  · rfl
  · exact heos
  · exact hbatch _ _
  · exact heos
  · rfl

/-- **One step.** -/
theorem timed_step {a : Action} (ht : step below s a = some t)
    (ha : ∀ value, a ≠ .setConfig value) : Timed s t := by
  cases stepped_of_step ht with
  | boot hdown sessionKv configKv raised =>
    refine ⟨Or.inr (Or.inl ?_), fun value hvalue ↦ ?_, by rw [broker_boot]⟩
    · rw [boot, recoverSession.eq_def]
      split
      · split
        · rfl
        · rfl
      · rfl
    · rw [ctrl_boot] at hvalue
      contradiction
  | crash hup => exact ⟨Or.inr (Or.inl rfl), fun value hvalue ↦ by contradiction, rfl⟩
  | chunk hup haudio data r =>
    rw [routeChunk.eq_def]
    split
    · exact Timed.of_eq (by simp) (Or.inl (by simp)) (by simp)
    · refine Timed.of_eq rfl (Or.inl rfl) ?_
      split
      · rfl
      · rfl
  | published hup haudio now r => exact timed_checkSilence _ _ now
  | dropped hup haudio now r => exact Timed.of_eq rfl (Or.inl rfl) rfl
  | buffered hup haudio now r => exact Timed.of_eq rfl (Or.inl rfl) rfl
  | audioStop hup haudio now r => exact timed_stopStep _
  | subscribed hup hctrl ok =>
    refine Timed.of_eq rfl (Or.inr ?_) rfl
    cases ok
    · rfl
    · rfl
  | message hup hctrl payload now r => exact timed_handleControlMessage payload now
  | ctrlStart hup hctrl r => exact timed_startStep hctrl
  | ctrlStop hup hctrl r => exact timed_stopStep _
  | @ctrlAcked raised hup hctrl r =>
    refine Timed.of_eq rfl (Or.inr ?_) rfl
    cases raised
    · rfl
    · rfl
  | ctrlExit hup hctrl => exact Timed.of_eq rfl (Or.inr rfl) rfl
  | @flush i f hup hi answer r =>
    have hF := flushed_flushStep s i f answer r
    refine Timed.of_eq (by rw [hF.mem]) (Or.inl (by rw [hF.ctrl])) (config_flushStep i f answer)
  | expire n => exact Timed.of_eq rfl (Or.inl rfl) rfl
  | setConfig value => exact absurd rfl (ha value)

end

/-! ### Runs in which the config holds only certain values -/

/-- The config bucket is given such values only. -/
def configured (P : ℤ → Prop) (_ : State × InForce) (a : Action) : Prop :=
  ∀ value, a = .setConfig (some value) → P value

/-- All timeouts anywhere are such values. -/
structure Configured (P : ℤ → Prop) (p : State × InForce) : Prop where
  config : ∀ value, p.1.broker.silenceTimeoutS = some value → P value
  reading : ∀ value, p.1.ctrl.reading = some (some value) → P value
  timeout : P p.1.mem.silenceTimeoutS
  timeouts : ∀ id g, p.2.timeouts id = some g → P g

section

variable {below : Bytes → Bool} {P : ℤ → Prop}

/-- The timeout in memory is all that the history variable records. -/
theorem timeouts_next {s t : State} {x : InForce} (hx : ∀ id g, x.timeouts id = some g → P g)
    (ht : P t.mem.silenceTimeoutS) {id : SessionId} {g : ℤ}
    (hg : (x.next s t).timeouts id = some g) : P g := by
  simp only [InForce.next] at hg
  rcases hactive : t.mem.sessionId with - | id'
  · rw [hactive] at hg
    exact hx id g hg
  · simp only [hactive] at hg
    generalize (if s.mem.sessionId = none then s.up else x.startedHere) = here at hg
    cases here with
    | false => exact hx id g hg
    | true =>
      by_cases hid : id = id'
      · rw [if_pos rfl, hid, Function.update_self] at hg
        rwa [← Option.some.inj hg]
      · rw [if_pos rfl, Function.update_of_ne hid] at hg
        exact hx id g hg

/-- By the cases of a step: a write of the config is bound by `configured`, a crash and a boot reset
the timeout to the default, and the rest is `Timed`. -/
theorem configured_inductive (hdefault : P defaultSilenceTimeoutS) :
    (timed below).Inductive (configured P) (Configured P) where
  init := by
    rintro ⟨s, x⟩ ⟨hs, rfl⟩
    obtain rfl : s = {} := hs
    exact ⟨by simp, by simp [CtrlPc.reading], hdefault, by simp⟩
  step := by
    rintro ⟨s, x⟩ a ⟨t, y⟩ h hG hstep
    have ht : step below s a = some t := (step_observe hstep).1
    obtain rfl : y = x.next s t := (step_observe hstep).2
    by_cases hset : ∃ value, a = .setConfig value
    · obtain ⟨value, rfl⟩ := hset
      obtain rfl := Option.some.inj ht
      refine ⟨fun value' hvalue ↦ ?_, h.reading, h.timeout,
        fun id g hg ↦ timeouts_next h.timeouts h.timeout hg⟩
      exact hG value' (congrArg Action.setConfig hvalue)
    · have hT := timed_step ht fun value ha ↦ hset ⟨value, ha⟩
      have htimeout : P t.mem.silenceTimeoutS := by
        rcases hT.timeout with hkept | hreset | hread
        · rw [hkept]
          exact h.timeout
        · rwa [hreset]
        · exact h.reading _ hread
      refine ⟨fun value hvalue ↦ h.config value (hT.config ▸ hvalue), fun value hvalue ↦ ?_,
        htimeout, fun id g hg ↦ timeouts_next h.timeouts htimeout hg⟩
      rcases hT.reading value hvalue with hread | hconfig
      · exact h.reading value hread
      · exact h.config value hconfig

/-- What is in force is the default, or was in the config bucket. -/
theorem timeouts_of_config {p : State × InForce} {id : SessionId} {g : ℤ}
    (hp : (timed below).Reachable
      (configured fun value ↦ value = defaultSilenceTimeoutS ∨ P value) p)
    (hg : p.2.timeouts id = some g) : g = defaultSilenceTimeoutS ∨ P g :=
  ((configured_inductive (Or.inl rfl)).reachable hp).timeouts id g hg

/-- As long as the config bucket holds no other timeout than the default, a restart that reads the
entry keeps the session and its timeout. -/
theorem restored_of_default {p : State × InForce} {u : State} {id : SessionId} {configKv : Bool}
    (hp : (timed below).Reachable (configured fun value ↦ value = defaultSilenceTimeoutS) p)
    (hactive : ActiveEntry p.1 id)
    (hrun : (system below).Run always p.1 [.crash, .boot true configKv false] u) :
    Restored p.2 id u := by
  rw [eq_of_restart hrun hactive.up, restored_boot_crash_iff hactive]
  have hconfigured := (configured_inductive (P := fun value ↦ value = defaultSilenceTimeoutS)
    rfl).reachable hp
  exact ⟨rfl, rfl, hconfigured.timeouts id⟩

end

end LiveSTT.AudioProducer
