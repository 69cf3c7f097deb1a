import LiveSTT.AudioProducer.Refinement

/-!
# The end of a session's backfill

stt-provider goes over to the live audio of a session when it sees the EOS marker on the session's
backfill subject. The flush task that publishes the marker is spawned by `_start_session` alone:
`_recover_session` resumes a session without one. So an active session has its marker, or a start or
a flush task that will publish it, unless the flush task could not subscribe or the process died
before the marker was out (`backfill_terminated`). The last case is possible: a session whose flush
was cut short is resumed with nobody left to end its backfill (`backfill_not_terminated`).

For the recorder of sessions: what is active or in the record is marked, or lost, or pending.

There the argument is one case per act (`Terminating.step`): only a spawn adds to the tasks, only a
marker or a loss takes from them, and a crash takes them all and notes which. `covered_iff` says in
the words of audio-producer what it is to be marked or lost.
-/

namespace LiveSTT.Sessions

variable {ι ε κ : Type*} {v : State ι ε κ} {id : ι}

/-- The session is marked, or was lost. -/
def State.Covered (v : State ι ε κ) (id : ι) : Prop := id ∈ v.marked ∨ .lost id ∈ v.log

/-- The session is marked, or was lost, or its start or its task is in progress. -/
def State.Accounted (v : State ι ε κ) (id : ι) : Prop := v.Covered id ∨ v.Pending id

/-- A task other than the `i`-th stays when the `i`-th goes. -/
theorem mem_eraseIdx_of_ne {tasks : List (Option ι)} {i : ℕ} {x : Option ι}
    (hi : tasks[i]? = some x) (hid : some id ∈ tasks) (hne : x ≠ some id) :
    some id ∈ tasks.eraseIdx i := by
  obtain ⟨j, hj⟩ := List.mem_iff_getElem?.1 hid
  refine List.mem_eraseIdx_iff_getElem?.2 ⟨j, fun hji ↦ hne ?_, hj⟩
  rw [hji, hi] at hj
  exact Option.some.inj hj

/-- An id among the tasks stays there when the task of another id is replaced. -/
theorem mem_set_of_ne {tasks : List (Option ι)} {i : ℕ} {x : Option ι} (y : Option ι)
    (hi : tasks[i]? = some x) (hid : some id ∈ tasks) (hne : x ≠ some id) :
    some id ∈ tasks.set i y := by
  obtain ⟨j, hj⟩ := List.mem_iff_getElem?.1 hid
  refine List.mem_iff_getElem?.2 ⟨j, ?_⟩
  rw [List.getElem?_set_ne, hj]
  rintro rfl
  rw [hi] at hj
  exact hne (Option.some.inj hj)

/-- A step that only moves tasks. -/
theorem State.Pending.of_tasks {w : State ι ε κ} (h : v.Pending id) (hstart : w.start = v.start)
    (htasks : some id ∈ v.tasks → some id ∈ w.tasks) : w.Pending id := by
  rw [State.Pending, hstart]
  exact h.imp_right (Or.imp_right htasks)

variable {idOf : ε → ι} [DecidableEq κ]

/-- A covered session stays covered. -/
theorem State.Covered.next (h : v.Covered id) (a : Act ι ε κ) : (next v a).Covered id := by
  rcases h with hmarked | hlost
  · refine Or.inl ?_
    cases a with
    | mark i id' published => exact List.mem_append_left _ hmarked
    | _ => exact hmarked
  · refine Or.inr ?_
    cases a <;> first | exact hlost | exact List.mem_append_left _ hlost

/-- A session whose start or task is in progress is accounted for after a step. -/
theorem State.Pending.next (h : v.Pending id) {a : Act ι ε κ} (hE : Enabled idOf v a)
    (hP : a.Published) (hdown : v.up = false → ¬ v.Pending id) : (next v a).Accounted id := by
  cases a with
  | boot => exact absurd h (hdown hE)
  | crash lost =>
    -- What is in progress when the process dies is lost.
    exact Or.inl (Or.inr (List.mem_append_right _ (List.mem_map.2 ⟨id, hE.2 id h, rfl⟩)))
  | begin id' =>
    have hnone : v.start = .none := hE.2
    rcases h with hstart | hstart | htask
    · nomatch hnone.symm.trans hstart
    · nomatch hnone.symm.trans hstart
    · exact Or.inr (Or.inr (Or.inr htask))
  | activate id' =>
    have hputting : v.start = .putting id' := hE.2
    rcases h with hstart | hstart | htask
    · have hid : id' = id := Start.putting.inj (hputting.symm.trans hstart)
      exact Or.inr (Or.inr (Or.inl (congrArg Start.active hid)))
    · nomatch hputting.symm.trans hstart
    · exact Or.inr (Or.inr (Or.inr htask))
  | spawn id' =>
    have hactive : v.start = .active id' := hE.2
    rcases h with hstart | hstart | htask
    · nomatch hactive.symm.trans hstart
    · obtain rfl : id' = id := Start.active.inj (hactive.symm.trans hstart)
      exact Or.inr (Or.inr (Or.inr (List.mem_append_right _ (List.mem_singleton_self _))))
    · exact Or.inr (Or.inr (Or.inr (List.mem_append_left _ htask)))
  | mark i id' published =>
    obtain rfl : published = true := hP
    by_cases hid : some id' = some id
    · refine Or.inl (Or.inl (List.mem_append_right _ ?_))
      rw [Option.some.inj hid]
      exact List.mem_singleton_self _
    · exact Or.inr (h.of_tasks rfl fun htask ↦ mem_set_of_ne none hE.2 htask hid)
  | lose i id' =>
    by_cases hid : some id' = some id
    · refine Or.inl (Or.inr (List.mem_append_right _ ?_))
      rw [Option.some.inj hid]
      exact List.mem_singleton_self _
    · exact Or.inr (h.of_tasks rfl fun htask ↦ mem_eraseIdx_of_ne hE.2 htask hid)
  | drop i => exact Or.inr (h.of_tasks rfl fun htask ↦ mem_eraseIdx_of_ne hE.2 htask nofun)
  | _ => exact Or.inr h

/-- The invariant: what is active or in the record is accounted for, and nothing is in progress in a
recorder that is down. -/
structure Terminating (idOf : ε → ι) (v : State ι ε κ) : Prop where
  active : ∀ id, v.active = some id → v.Accounted id
  record : ∀ id, v.record.map idOf = some id → v.Accounted id
  down : v.up = false → ∀ id, ¬ v.Pending id

/-- Each act keeps it, when no publish of a marker or a chunk fails: a task leaves the list only by
its marker, or by a loss the log notes. -/
theorem Terminating.step (h : Terminating idOf v) {a : Act ι ε κ} (hE : Enabled idOf v a)
    (hP : a.Published) : Terminating idOf (next v a) := by
  have hkeep : ∀ id, v.Accounted id → (next v a).Accounted id := by
    rintro id (hcovered | hpending)
    · exact Or.inl (hcovered.next a)
    · exact hpending.next hE hP fun hdown ↦ h.down hdown id
  -- Most steps neither activate a session nor put an entry.
  have hkept : (next v a).active = v.active ∨ (next v a).active = none →
      (next v a).record = v.record ∨ (next v a).record = none →
      (next v a).up = true → Terminating idOf (next v a) := by
    refine fun hactive hrecord hup ↦ ⟨fun id hid ↦ hkeep id (h.active id ?_),
      fun id hid ↦ hkeep id (h.record id ?_), fun hdown ↦ (nomatch hup.symm.trans hdown)⟩
    · rcases hactive with heq | hnone
      · exact heq.symm.trans hid
      · nomatch hnone.symm.trans hid
    · rcases hrecord with heq | hnone
      · rwa [heq] at hid
      · rw [hnone] at hid
        nomatch hid
  cases a with
  | boot => exact hkept (Or.inr rfl) (Or.inl rfl) rfl
  | resume id' =>
    -- The session resumed is the one in the record.
    refine ⟨fun id hid ↦ hkeep id (h.record id (hE.2.1.trans hid)),
      fun id hid ↦ hkeep id (h.record id hid), fun hdown ↦ (nomatch hE.1.symm.trans hdown)⟩
  | crash lost =>
    refine ⟨nofun, fun id hid ↦ hkeep id (h.record id hid), ?_⟩
    rintro - id (hstart | hstart | htask)
    · nomatch hstart
    · nomatch hstart
    · nomatch htask
  | put r =>
    refine ⟨fun id hid ↦ hkeep id (h.active id hid), fun id hid ↦ Or.inr (Or.inl ?_),
      fun hdown ↦ (nomatch hE.1.symm.trans hdown)⟩
    exact hE.2.trans (congrArg Start.putting (Option.some.inj hid))
  | activate id' =>
    refine ⟨fun id hid ↦ Or.inr (Or.inr (Or.inl ?_)), fun id hid ↦ hkeep id (h.record id hid),
      fun hdown ↦ (nomatch hE.1.symm.trans hdown)⟩
    exact congrArg Start.active (Option.some.inj hid)
  | idle k captured cleared =>
    refine hkept (Or.inr rfl) ?_ hE.1
    cases cleared
    · exact Or.inl rfl
    · exact Or.inr rfl
  | _ => exact hkept (Or.inl rfl) (Or.inl rfl) hE.1

/-- Every run of the recorder that publishes its marks accounts for the active session. -/
theorem terminating_inductive (idOf : ε → ι) :
    (system idOf κ).Inductive (fun _ b ↦ b.Published) (Terminating idOf) where
  init v hv := by
    obtain rfl : v = {} := hv
    refine ⟨by simp, by simp, ?_⟩
    rintro - id (hstart | hstart | htask)
    · nomatch hstart
    · nomatch hstart
    · nomatch htask
  step h hP ht := by
    obtain ⟨hE, rfl⟩ := step_eq_some_iff.1 ht
    exact h.step hE hP

end LiveSTT.Sessions

namespace LiveSTT.AudioProducer

/-- With no start in progress and no flush task of the session, nothing of it is pending. -/
theorem not_pending {s : State} {id : SessionId} (hstart : s.ctrl.isStarting = false)
    (hflush : ∀ f ∈ s.flushes, f.id ≠ id) : ¬ s.sessions.Pending id := by
  have hnone : s.sessions.start = .none := start_eq_none hstart
  rintro (hputting | hactive | htask)
  · cases hnone.symm.trans hputting
  · cases hnone.symm.trans hactive
  · obtain ⟨f, hf, htask⟩ := List.mem_map.1 htask
    refine hflush f hf ?_
    rw [Flush.task.eq_def] at htask
    split at htask
    · contradiction
    · exact Option.some.inj htask

/-- In the words of audio-producer: the marker is stored, the subscribe failed, or the task was cut
off by a crash. -/
theorem covered_iff {s : State} {id : SessionId} : s.sessions.Covered id ↔
    .backfillEos id ∈ s.broker.audio ∨ .subscribeFailed id ∈ s.trace ∨ .cut id ∈ s.trace := by
  have hmarked : id ∈ s.sessions.marked ↔ .backfillEos id ∈ s.broker.audio := by
    refine List.mem_filterMap.trans ⟨?_, fun hmsg ↦ ⟨_, hmsg, rfl⟩⟩
    rintro ⟨msg, hmsg, hid⟩
    cases msg with
    | backfillEos id' => exact Option.some.inj hid ▸ hmsg
    | _ => nomatch hid
  have hlost : .lost id ∈ s.sessions.log ↔
      .subscribeFailed id ∈ s.trace ∨ .cut id ∈ s.trace := by
    refine List.mem_filterMap.trans ⟨?_, ?_⟩
    · rintro ⟨e, he, hmark⟩
      cases e with
      | subscribeFailed id' =>
        obtain rfl := Sessions.Mark.lost.inj (Option.some.inj hmark)
        exact Or.inl he
      | cut id' =>
        obtain rfl := Sessions.Mark.lost.inj (Option.some.inj hmark)
        exact Or.inr he
      | _ => nomatch hmark
    · rintro (he | he)
      · exact ⟨_, he, rfl⟩
      · exact ⟨_, he, rfl⟩
  exact or_congr hmarked hlost

/-- **The backfill of an active session is terminated** once its start and its flush task are over,
unless the flush task could not subscribe or the process died before it was done. -/
theorem backfill_terminated {below : Bytes → Bool} {s : State}
    (h : (system below).Reachable (fun s a ↦ markerPublished s a = true) s) {id : SessionId}
    (hactive : s.mem.sessionId = some id) (hstart : s.ctrl.isStarting = false)
    (hflush : ∀ f ∈ s.flushes, f.id ≠ id) :
    .backfillEos id ∈ s.broker.audio ∨ .subscribeFailed id ∈ s.trace ∨ .cut id ∈ s.trace := by
  have hpublished : ∀ (s : State) a b, markerPublished s a = true → (outcome s a).Fits b →
      b.Published := by
    intro s a b hs hfits
    cases b with
    | mark i id published => exact hfits.trans hs
    | _ => trivial
  have hreach := (refines_sessions hpublished below).reachable h
  have hterm := (Sessions.terminating_inductive KvEntry.sessionId).reachable hreach
  exact covered_iff.1 ((hterm.active id hactive).resolve_right (not_pending hstart hflush))

/-- A session is started, and its flush task finds no pre-roll. -/
theorem backfill_terminated_empty :
    ∃ s, (system fun _ ↦ false).Reachable (fun s a ↦ markerPublished s a = true) s ∧
      s.mem.sessionId = some first.id ∧ s.ctrl.isStarting = false ∧
      (∀ f ∈ s.flushes, f.id ≠ first.id) ∧
      (.backfillEos first.id ∈ s.broker.audio ∨ .subscribeFailed first.id ∈ s.trace ∨
        .cut first.id ∈ s.trace) := by
  obtain ⟨s, hs, htest⟩ := TransitionSystem.exists_reachable_of_exec
    (M := system fun _ ↦ false) (G := fun s a ↦ markerPublished s a = true) {}
    (running ++ starting first ++ started ++
      [.flush 0 .raised .ok, .flush 0 .raised .ok, .flush 0 .raised .ok])
    (fun s ↦ decide (s.mem.sessionId = some first.id ∧ s.ctrl.isStarting = false ∧
      ∀ f ∈ s.flushes, f.id ≠ first.id)) rfl (by decide +kernel)
  obtain ⟨hactive, hstart, hflush⟩ := of_decide_eq_true htest
  exact ⟨s, hs, hactive, hstart, hflush, backfill_terminated hs hactive hstart hflush⟩

/-- The process dies right after a start. It resumes the session when it is back, with no flush task
and no EOS marker on the backfill subject. -/
theorem backfill_not_terminated :
    ∃ s, (system fun _ ↦ false).Reachable (fun s a ↦ markerPublished s a = true) s ∧
      s.mem.isActive = true ∧ s.mem.sessionId = some first.id ∧ s.ctrl.isStarting = false ∧
      (∀ f ∈ s.flushes, f.id ≠ first.id) ∧ .backfillEos first.id ∉ s.broker.audio := by
  obtain ⟨s, hs, htest⟩ := TransitionSystem.exists_reachable_of_exec
    (M := system fun _ ↦ false) (G := fun s a ↦ markerPublished s a = true) {}
    (running ++ starting first ++ started ++ [.crash, .boot true true false])
    (fun s ↦ decide (s.mem.isActive = true ∧ s.mem.sessionId = some first.id ∧
      s.ctrl.isStarting = false ∧ (∀ f ∈ s.flushes, f.id ≠ first.id) ∧
      .backfillEos first.id ∉ s.broker.audio)) rfl (by decide +kernel)
  exact ⟨s, hs, of_decide_eq_true htest⟩

end LiveSTT.AudioProducer
