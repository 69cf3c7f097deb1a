import LiveSTT.AudioProducer.Orderly

/-!
# A stop ends its session, once

`_stop_session` takes the session id, suspends at the publish of the EOS marker, and only then goes
idle, whatever has happened meanwhile. Both loops can call it. As long as no stop begins while the
other loop is suspended at that publish, each session that ends gets exactly one EOS marker and one
lifecycle event, and no stop touches another session (`stops_exact`). A second stop of the same
session in that window breaks both (`two_stops_of_one_session`).

The condition is one on the state before a step: the loop that begins a stop finds no stop of the
other one at its marker (`calm`). The invariant is `Orderly`, with a lemma for each function that
may begin or carry on a stop; what remains is that starts take fresh ids, which is part of the
condition as well. A boot resumes no session that has ended, as the deletes take effect.
-/

namespace LiveSTT.AudioProducer

/-! ### Runs in which no stop begins while another is at its EOS marker -/

/-- A stop is suspended at the publish of its EOS marker. -/
def State.stopEnding (s : State) : Bool := !(endings s.stops).isEmpty

/-- No stop begins while another is at its EOS marker, no start takes the id of an earlier one, and
the process does not end in the middle of a stop. -/
def calm (below : Bytes → Bool) (s : State) : Action → Bool
  | .crash => s.stops.isEmpty
  | .audio _ _ => !(s.silenceReached below && s.stopEnding)
  | .message payload now _ =>
    (wantsStart payload → s.mem.isActive = false → s.fresh now.id) ∧
      !(wantsStop payload && (s.mem.isActive && s.stopEnding))
  | _ => true

section Steps

variable {below : Bytes → Bool} {s t : State}

/-- A command keeps the invariant when a start takes a fresh id and no other stop of the session is
at its marker. -/
theorem orderly_handleControlMessage {payload : Option Json} {now : Stamp}
    (h : Orderly s s.stops) (hup : s.up = true) (hctrl : s.ctrl = .fetching)
    (hfresh : wantsStart payload = true → s.mem.isActive = false → s.fresh now.id = true)
    (hstop : (!(wantsStop payload && (s.mem.isActive && s.stopEnding))) = true) :
    Orderly (handleControlMessage s payload now .ok)
      (handleControlMessage s payload now .ok).stops := by
  have hstops : s.stops = s.audio.stops := by
    rw [State.stops, hctrl]
    exact List.append_nil _
  have hA : Orderly s s.audio.stops := hstops ▸ h
  rw [handleControlMessage.eq_def]
  split
  · exact orderly_ctrl hA _ rfl rfl
  · rename_i data
    split
    · rename_i hstart
      split
      · exact orderly_ctrl hA _ rfl rfl
      · rename_i hidle
        rw [Bool.not_eq_true] at hidle
        exact orderly_beginStart hA hup hidle (not_mem_of_fresh (hfresh hstart hidle))
    · split
      · rename_i hwants
        refine orderly_beginStop hA hup ?_
        have hwants' : wantsStop (some (.obj data)) = true := hwants.1
        rw [hwants', hwants.2, Bool.true_and, Bool.true_and, State.stopEnding, hstops,
          Bool.not_not] at hstop
        exact List.isEmpty_iff.1 hstop
      · exact orderly_ctrl hA _ rfl rfl
  · exact orderly_ctrl hA _ rfl rfl

/-- A step of the audio loop that only moves it on. -/
theorem orderly_audio (h : Orderly s (s.otherStops .audio)) (mem : Memory) (audio : AudioPc)
    (hid : mem.sessionId = s.mem.sessionId) (hactive : mem.isActive = s.mem.isActive)
    (hkv : mem.sessionKv = s.mem.sessionKv) :
    Orderly { s with mem := mem, audio := audio } (s.otherStops .audio) :=
  h.congr rfl hid hactive hkv rfl (fun _ hput ↦ hput) (Quietly.of_eq rfl rfl rfl)

/-- A stop is in progress in the control loop only. -/
theorem Orderly.to_audio (h : Orderly s s.stops) (haudio : s.audio.stops = []) :
    Orderly s (s.otherStops .audio) := by
  rwa [State.stops, haudio] at h

/-- So does a stop by silence, under the same condition on the stops in progress. -/
theorem orderly_checkSilence {data : Bytes} {now : Stamp} (h : Orderly s (s.otherStops .audio))
    (hup : s.up = true) (hnone : rmsRaises data = false →
      (s.mem.countSilence data (belowThreshold below data)).silentForLong = true →
      endings (s.otherStops .audio) = []) :
    Orderly (checkSilence s data (belowThreshold below data) now .ok)
      (checkSilence s data (belowThreshold below data) now .ok).stops := by
  have hcounted :=
    orderly_audio h (s.mem.countSilence data (belowThreshold below data)) .waiting rfl rfl rfl
  simp only [checkSilence]
  split
  · exact orderly_audio h s.mem .waiting rfl rfl rfl
  · rename_i hwhole
    split
    · rename_i hsilent
      exact orderly_beginStop (w := .audio) hcounted hup
        (hnone (Bool.not_eq_true _ ▸ hwhole) hsilent)
    · exact hcounted

/-- A chunk is neither a marker nor a report. -/
theorem orderly_routeChunk {data : Bytes} (h : Orderly s s.stops) (haudio : s.audio = .waiting) :
    Orderly (routeChunk s data .ok) (routeChunk s data .ok).stops := by
  have hA : Orderly s (s.otherStops .audio) := h.to_audio (congrArg AudioPc.stops haudio)
  rw [routeChunk.eq_def]
  split
  · refine hA.congr rfl rfl rfl rfl rfl (fun _ hput ↦ hput) (Quietly.of_eq ?_ rfl rfl)
    simp [State.eosIds, State.publish, Stored.liveEosOf]
  · exact hA.congr rfl rfl rfl rfl rfl (fun _ hput ↦ hput) (Quietly.of_eq rfl rfl rfl)

/-- A chunk was published, and the silence counted. -/
theorem orderly_published {chunk : Captured} {now : Stamp} (h : Orderly s s.stops)
    (hup : s.up = true) (haudio : s.audio = .livePublishing chunk false)
    (hstop : (!(s.silenceReached below && s.stopEnding)) = true) :
    Orderly (checkSilence s chunk.data (belowThreshold below chunk.data) now .ok)
      (checkSilence s chunk.data (belowThreshold below chunk.data) now .ok).stops := by
  have hstops : s.stops = s.otherStops .audio := by
    rw [State.stops, haudio]
    rfl
  refine orderly_checkSilence (h.to_audio (congrArg AudioPc.stops haudio)) hup
    fun hwhole hsilent ↦ ?_
  have hreached : s.silenceReached below = true := by
    rw [State.silenceReached, haudio]
    simpa [hwhole] using hsilent
  rw [hreached, Bool.true_and, State.stopEnding, hstops, Bool.not_not] at hstop
  exact List.isEmpty_iff.1 hstop

/-- The marker of a flush task is that of the backfill, which the count is not about. -/
theorem orderly_flushStep {i : ℕ} {f : Flush} {answer : Fetched} {r : Reply}
    (h : Orderly s s.stops) :
    Orderly (flushStep s i f answer r) (flushStep s i f answer r).stops := by
  have hF := flushed_flushStep s i f answer r
  have hstops : (flushStep s i f answer r).stops = s.stops := by
    rw [State.stops, hF.audio, hF.ctrl, State.stops]
  have heos : (flushStep s i f answer r).eosIds = s.eosIds := by
    rcases hF.stored with hsame | ⟨msg, hmsg, hnew⟩
    · rw [State.eosIds, hsame, State.eosIds]
    · rw [State.eosIds, hnew, List.filterMap_append, State.eosIds]
      cases msg <;> first | exact List.append_nil _ | contradiction
  have hputting : ∀ id ∈ (flushStep s i f answer r).ctrl.putting, id ∈ s.ctrl.putting := by
    rw [hF.ctrl]
    exact fun _ hput ↦ hput
  have hentry : (flushStep s i f answer r).entryId = s.entryId := by
    rw [State.entryId, hF.current, State.entryId]
  have hstopped : (flushStep s i f answer r).stoppedIds = s.stoppedIds := by
    rw [State.stoppedIds, hF.events, State.stoppedIds]
  have htrace : QuietTrace s (flushStep s i f answer r) := by
    rcases hF.trace with hsame | ⟨id, hnew⟩
    · exact QuietTrace.of_eq hsame
    · exact QuietTrace.of_event rfl hnew
  rw [hstops]
  refine h.congr hF.up ?_ ?_ ?_ hentry hputting ⟨heos, hstopped, htrace⟩
  · rw [hF.mem]
  · rw [hF.mem]
  · rw [hF.mem]

/-- After a crash no stop is in progress; the recovery takes up a session that has not ended. -/
theorem orderly_boot (h : Orderly s s.stops) (hdown : s.up = false) :
    Orderly (boot s true true false) (boot s true true false).stops := by
  rw [h.down hdown] at h
  have hblank : Orderly (State.mk true { sessionKv := true, configKv := true } .waiting .subscribing
      [] s.broker s.captured s.trace) [] :=
    h.of_blank rfl rfl (fun _ ↦ rfl) rfl rfl (Quietly.of_eq rfl rfl rfl)
  rw [boot, recoverSession.eq_def]
  split
  · rename_i entry hentry
    split
    · refine hblank.of_resume ?_ rfl rfl rfl rfl rfl rfl
        (Quietly.of_event (e := .resumed entry.sessionId) rfl rfl rfl rfl)
      exact congrArg (Option.map KvEntry.sessionId) hentry
    · exact hblank
  · exact hblank

theorem orderly_crash (h : Orderly s s.stops) (hstops : s.stops = []) :
    Orderly (crash s) (crash s).stops := by
  rw [hstops] at h
  refine h.of_blank rfl rfl nofun rfl rfl ⟨rfl, rfl, _, rfl, fun e he ↦ ?_⟩
  obtain ⟨id, -, rfl⟩ := List.mem_map.1 he
  rfl

/-- **One step.** -/
theorem orderly_step {a : Action} (h : Orderly s s.stops) (hok : a.callsSucceed = true)
    (hcalm : calm below s a = true) (ht : step below s a = some t) : Orderly t t.stops := by
  cases stepped_of_step ht with
  | boot hdown sessionKv configKv raised =>
    simp only [Action.callsSucceed, Bool.and_eq_true, Bool.not_eq_true'] at hok
    obtain ⟨⟨rfl, rfl⟩, rfl⟩ := hok
    exact orderly_boot h hdown
  | crash hup => exact orderly_crash h (List.isEmpty_iff.1 hcalm)
  | chunk hup haudio data r =>
    obtain rfl : r = .ok := of_decide_eq_true hok
    exact orderly_routeChunk h haudio
  | published hup haudio now r =>
    obtain rfl : r = .ok := of_decide_eq_true hok
    exact orderly_published h hup haudio hcalm
  | dropped hup haudio now r =>
    exact orderly_audio (h.to_audio (congrArg AudioPc.stops haudio)) s.mem .waiting rfl rfl rfl
  | buffered hup haudio now r =>
    exact orderly_audio (h.to_audio (congrArg AudioPc.stops haudio)) s.mem .waiting rfl rfl rfl
  | audioStop hup haudio now r =>
    obtain rfl : r = .ok := of_decide_eq_true hok
    rw [State.stops, haudio] at h
    exact orderly_stopStep (w := .audio) h hup
  | subscribed hup hctrl ok =>
    refine orderly_ctrl (h.to_ctrl (congrArg CtrlPc.stops hctrl)) _ ?_ ?_
    · cases ok <;> rfl
    · cases ok <;> rfl
  | message hup hctrl payload now r =>
    obtain rfl : r = .ok := of_decide_eq_true hok
    obtain ⟨hfresh, hstop⟩ := of_decide_eq_true hcalm
    exact orderly_handleControlMessage h hup hctrl hfresh hstop
  | ctrlStart hup hctrl r =>
    obtain rfl : r = .ok := of_decide_eq_true hok
    exact orderly_startStep (h.to_ctrl (congrArg CtrlPc.stops hctrl)) hctrl
  | @ctrlStop pc hup hctrl r =>
    obtain rfl : r = .ok := of_decide_eq_true hok
    refine orderly_stopStep (w := .control) (h.of_perm ?_) hup
    rw [State.stops, hctrl]
    exact (List.perm_append_comm : ([pc] ++ s.audio.stops).Perm _)
  | @ctrlAcked raised hup hctrl r =>
    refine orderly_ctrl (h.to_ctrl (congrArg CtrlPc.stops hctrl)) _ ?_ ?_
    · cases raised <;> rfl
    · cases raised <;> rfl
  | ctrlExit hup hctrl => exact orderly_ctrl (h.to_ctrl (congrArg CtrlPc.stops hctrl)) _ rfl rfl
  | flush hup hi answer r => exact orderly_flushStep h
  | expire n => exact h.congr rfl rfl rfl rfl rfl (fun _ hput ↦ hput) (Quietly.of_eq rfl rfl rfl)
  | setConfig value =>
    exact h.congr rfl rfl rfl rfl rfl (fun _ hput ↦ hput) (Quietly.of_eq rfl rfl rfl)

/-- The step lemmas together, over every action. -/
theorem orderly_inductive (below : Bytes → Bool) :
    (system below).Inductive (fun s a ↦ a.callsSucceed = true ∧ calm below s a = true) fun s ↦
      Orderly s s.stops where
  init s hs := by
    obtain rfl : s = {} := hs
    refine ⟨⟨?_, ?_, ?_, ?_, ?_⟩, rfl, ?_, ?_, ?_, ?_, ?_, ?_, fun _ ↦ rfl⟩ <;>
      simp [State.eosIds, State.ended, State.stoppedIds, State.stops, State.entryId, AudioPc.stops,
        CtrlPc.stops, CtrlPc.putting, endings, unreported]
  step h hG ht := orderly_step h hG.1 hG.2 ht

end Steps

/-! ### What a stop does -/

/-- Each session that has ended has one EOS marker and, once its stop is not between the two, one
lifecycle event; and a stop ended its own session and removed its own entry. -/
structure StopsExact (s : State) : Prop where
  once : ∀ id ∈ s.ended, s.eosIds.count id = 1 ∧
    (id ∉ unreported s.stops → s.stoppedIds.count id = 1)
  own : ∀ e ∈ s.trace, e.Own

/-- **A stop ends exactly its session**, in every run in which no stop begins while the other loop
is suspended at the EOS marker of another. -/
theorem stops_exact {below : Bytes → Bool} {s : State}
    (h : (system below).Reachable (fun s a ↦ a.callsSucceed = true ∧ calm below s a = true) s) :
    StopsExact s := by
  have hO := (orderly_inductive below).reachable h
  refine ⟨fun id hid ↦ ?_, hO.counted.own⟩
  have hone : s.ended.count id = 1 := List.count_eq_one_of_mem hO.counted.nodup hid
  have hending : id ∉ endings s.stops := fun hmem ↦
    (hO.alive id (Or.inl (hO.ending id hmem))).not_ended hid
  refine ⟨?_, fun hun ↦ ?_⟩
  · rw [hO.counted.eos id, hone, List.count_eq_zero_of_not_mem hending]
  · have hreported := hO.counted.reported id
    rw [hone, List.count_eq_zero_of_not_mem hun] at hreported
    omega

/-! ### Runs with one stop, and with two -/

/-- A session is started and stopped by commands. -/
theorem stops_exact_one :
    ∃ s, (system silent).Reachable (fun s a ↦ a.callsSucceed = true ∧ calm silent s a = true) s ∧
      s.ended = [first.id] ∧ StopsExact s := by
  obtain ⟨s, hs, htest⟩ := TransitionSystem.exists_reachable_of_exec
    (M := system silent) (G := fun s a ↦ a.callsSucceed = true ∧ calm silent s a = true) {}
    (running ++ starting first ++ started ++
      [.message (command "stop") second .ok, .ctrl .ok, .ctrl .ok, .ctrl .ok, .ctrl .ok])
    (fun s ↦ s.ended = [first.id]) rfl (by decide +kernel)
  exact ⟨s, hs, of_decide_eq_true htest, stops_exact hs⟩

/-- A second of silence is up while a stop command waits for its EOS marker. The audio loop's stop
publishes a second marker, and goes idle after the next session has started: it ends that session
and removes its entry. -/
theorem two_stops_of_one_session :
    ∃ s, (system silent).Reachable (fun _ a ↦ a.callsSucceed = true) s ∧ ¬ StopsExact s ∧
      first.id ∈ s.ended ∧ s.eosIds.count first.id = 2 ∧
      .idled (some first.id) (some second.id) (some second.id) true ∈ s.trace := by
  obtain ⟨s, hs, htest⟩ := TransitionSystem.exists_reachable_of_exec
    (M := system silent) (G := fun _ a ↦ a.callsSucceed = true) {}
    (.setConfig (some 1) :: running ++ starting first ++ started ++ silentChunks second 10 ++
      [.message (command "stop") second .ok, .audio second .ok] ++
      -- The command's stop runs to its end, and the next session starts.
      [.ctrl .ok, .ctrl .ok, .ctrl .ok, .ctrl .ok] ++ starting second ++ [.audio second .ok])
    (fun s ↦ decide (first.id ∈ s.ended ∧ s.eosIds.count first.id = 2) &&
      s.trace.any (Event.endsOther first.id second.id)) rfl (by decide +kernel)
  rw [Bool.and_eq_true, decide_eq_true_eq] at htest
  obtain ⟨⟨hended, hcount⟩, hany⟩ := htest
  obtain ⟨e, he, hother⟩ := List.any_eq_true.1 hany
  obtain rfl := Event.endsOther_iff.1 hother
  refine ⟨s, hs, fun hexact ↦ ?_, hended, hcount, he⟩
  rw [(hexact.once _ hended).1] at hcount
  exact absurd hcount (by decide)

end LiveSTT.AudioProducer
