import LiveSTT.AudioProducer.Views
import LiveSTT.Gateway.SessionStore

/-!
# Segments and their sessions

`TranscriptSegment.session_id` is declared as a foreign key, which SQLite does not enforce here. The
pull loop takes the id from `_active_session_id`, and the handler of lifecycle events sets it once
the row is there. Two places do not look: `_kv_connect` takes the session of the KV entry as active,
though the event that would have added its row may have been published while api-gateway was down
(`recovered_without_row`); and the retention deletes completed sessions, though one of them may be
in use, as the listing completes the rows of sessions it does not take to be active
(`deleted_in_use`).

Where neither happens, each segment belongs to a recorded session (`segments_recorded`). The
invariant is one inclusion: the ids of the segments, and those that segments can still get
(`State.inUse`), are ids of sessions. A step that deletes nothing keeps it if the ids it adds have
rows (`Recorded.grows`).

Both gaps are in the main result as conditions on the state before a step, and there are runs for
either. Nothing else can open one: a rename keeps the row it changes, the listing closes rows and
deletes none, and the handler of events adds the row before it makes the session active.
-/

namespace LiveSTT.SessionStore

open TransitionSystem
open AudioProducer (KvEntry)

/-! ### Ids that segments have, or can get -/

/-- The sessions of the segments. -/
def State.referenced (s : State) : List String :=
  s.loop.segments.map fun p ↦ p.2.sessionId

/-- The session that a handler is about to take as active; its row was found or has been added. -/
def HandlerPc.starting : HandlerPc → List String
  | .selected e (some true) => [e.sessionId]
  | .inserted e false => [e.sessionId]
  | _ => []

/-- The sessions that segments can get. -/
def State.inUse (s : State) : List String :=
  s.activeSessionId.toList ++ s.handler.starting ++ s.loop.pc.storing

/-- The invariant: all of these are recorded. -/
def Recorded (s : State) : Prop :=
  s.referenced ++ s.inUse ⊆ s.sessionIds

/-- A recovered session has a row, and no session is deleted that is in use. -/
def careful (s : State) : Action → Bool
  | .connect (some entry) => entry.state ≠ "active" ∨ entry.sessionId.val ∈ s.sessionIds
  | .retain (.deleted _) =>
    match s.retention with
    | .deleting ids => s.inUse.all fun id ↦ id ∉ ids
    | _ => true
  | _ => true

section

variable {count days : ℤ} {s t : State}

/-- Ids that a step adds have rows after it. -/
theorem Recorded.grows (h : Recorded s) (hids : s.sessionIds ⊆ t.sessionIds)
    (hnew : ∀ id ∈ t.referenced ++ t.inUse, id ∈ s.referenced ++ s.inUse ∨ id ∈ t.sessionIds) :
    Recorded t := fun id hid ↦ (hnew id hid).elim (fun hold ↦ hids (h hold)) fun hrow ↦ hrow

/-- The same for a step that does not touch the pull loop: a session becomes active, or a handler is
about to make it active, only if it has a row. -/
theorem Recorded.aside (h : Recorded s) (hloop : t.loop = s.loop)
    (hids : s.sessionIds ⊆ t.sessionIds)
    (hactive : ∀ id, t.activeSessionId = some id → s.activeSessionId = some id ∨
      id ∈ s.handler.starting ∨ id ∈ t.sessionIds)
    (hhandler : ∀ id ∈ t.handler.starting, id ∈ s.handler.starting ∨ id ∈ t.sessionIds) :
    Recorded t := by
  refine h.grows hids fun id hid ↦ ?_
  simp only [State.referenced, State.inUse, hloop, List.mem_append, Option.mem_toList] at hid ⊢
  rcases hid with hid | (hid | hid) | hid
  · exact Or.inl (Or.inl hid)
  · rcases hactive id hid with hold | hstarting | hrow
    · exact Or.inl (Or.inr (Or.inl (Or.inl hold)))
    · exact Or.inl (Or.inr (Or.inl (Or.inr hstarting)))
    · exact Or.inr hrow
  · exact (hhandler id hid).imp_left fun hold ↦ Or.inr (Or.inl (Or.inr hold))
  · exact Or.inl (Or.inr (Or.inr hid))

theorem Recorded.quiet (h : Recorded s) (hquiet : Quiet s t) : Recorded t :=
  h.aside hquiet.loop (hquiet.ids ▸ List.Subset.refl _) (fun _ hid ↦ Or.inl (hquiet.active ▸ hid))
    fun _ hid ↦ Or.inl (hquiet.handler ▸ hid)

/-! ### The handler, and recovery -/

/-- The handler moves to a position where it is not about to make a session active. -/
theorem Recorded.moves (h : Recorded s) {pc : HandlerPc} (hpc : pc.starting = []) :
    Recorded { s with handler := pc } :=
  h.aside rfl (List.Subset.refl _) (fun _ hid ↦ Or.inl hid) (by simp [hpc])

/-- The handler makes the session active, and is done. -/
theorem Recorded.activates (h : Recorded s) {id : String} (hid : id ∈ s.handler.starting) :
    Recorded { s with activeSessionId := some id, handler := .idle } := by
  refine h.aside rfl (List.Subset.refl _) (fun id' hid' ↦
    Or.inr (Or.inl ?_)) (by simp [HandlerPc.starting])
  exact Option.some.inj hid' ▸ hid

/-- An event makes its session active before its row is there. -/
theorem Recorded.beginEvent (h : Recorded s) (e : SessionEvent) : Recorded (beginEvent s e) := by
  rw [SessionStore.beginEvent]
  split
  · exact h
  · split
    · exact h.moves rfl
    · split
      · exact h.moves rfl
      · exact h

/-- A started session has a row when its commit has returned. -/
theorem Recorded.insertRow (h : Recorded s) (e : SessionEvent) (r : Reply) :
    Recorded (insertRow s e r) := by
  rw [SessionStore.insertRow]
  split
  · exact h.moves rfl
  · have hadded : ({ s with sessions := s.sessions ++ [e.row] } : State).sessionIds =
        s.sessionIds ++ [e.sessionId] := List.map_append
    have hgrown (pc : HandlerPc) (hpc : ∀ id ∈ pc.starting, id = e.sessionId) :
        Recorded { s with sessions := s.sessions ++ [e.row], handler := pc } := by
      refine h.aside rfl ?_ (fun _ hid ↦ Or.inl hid) fun id hid ↦ Or.inr ?_
      · exact hadded ▸ List.subset_append_left _ _
      · have hrow : id ∈ s.sessionIds ++ [e.sessionId] :=
          List.mem_append_right _ (List.mem_singleton.2 (hpc id hid))
        exact hadded ▸ hrow
    cases r with
    | ok => exact hgrown (.inserted e false) fun id hid ↦ List.mem_singleton.1 hid
    | lost => exact hgrown (.inserted e true) fun id hid ↦ absurd hid List.not_mem_nil
    | error => exact h.moves rfl

/-- The select of a session's row finds it, or not. -/
theorem Recorded.selects (h : Recorded s) (e : SessionEvent) (r : Reply) : Recorded { s with
    handler := .selected e (if r.raised then none else some (e.sessionId ∈ s.sessionIds)) } := by
  by_cases hraised : r.raised = true
  · simp only [hraised]
    exact h.moves rfl
  · by_cases hrow : e.sessionId ∈ s.sessionIds
    · refine h.aside rfl (List.Subset.refl _) (fun _ hid ↦ Or.inl hid) fun id hid ↦ Or.inr ?_
      simp only [hraised, hrow] at hid
      exact List.mem_singleton.1 hid ▸ hrow
    · simp only [hraised, hrow]
      exact h.moves rfl

/-- The handler adds the row, or finds it. -/
theorem Recorded.handlerStep {r : Reply} (h : Recorded s) (ht : handlerStep s r = some t) :
    Recorded t := by
  rw [SessionStore.handlerStep.eq_def] at ht
  split at ht
  · contradiction
  · obtain rfl := Option.some.inj ht
    exact h.selects _ r
  · obtain rfl := Option.some.inj ht
    exact h.moves rfl
  · rename_i e hselected
    obtain rfl := Option.some.inj ht
    exact h.activates (by rw [hselected]; exact List.mem_singleton_self _)
  · obtain rfl := Option.some.inj ht
    exact h.moves rfl
  · obtain rfl := Option.some.inj ht
    exact h.insertRow _ r
  · rename_i e _
    obtain rfl := Option.some.inj ht
    have hupdated : Quiet s (s.update e.sessionId
        (fun row ↦ { row with stoppedAt := some e.stoppedAt }) r) := by
      refine quiet_update _ (fun _ ↦ ?_) r
      rfl
    exact (h.quiet hupdated).moves rfl
  · obtain rfl := Option.some.inj ht
    exact h.moves rfl
  · rename_i e hinserted
    obtain rfl := Option.some.inj ht
    exact h.activates (by rw [hinserted]; exact List.mem_singleton_self _)
  · obtain rfl := Option.some.inj ht
    exact h.moves rfl
  · obtain rfl := Option.some.inj ht
    refine h.aside rfl (List.Subset.refl _) (fun id hid ↦ ?_) fun id hid ↦
      absurd hid List.not_mem_nil
    contradiction

/-- `_kv_connect` recovers a session that has a row. -/
theorem Recorded.kvConnect (h : Recorded s) {entry : Option KvEntry}
    (hcareful : careful s (.connect entry) = true) : Recorded (kvConnect s entry) := by
  cases entry with
  | none => exact h.quiet ⟨rfl, rfl, rfl, rfl⟩
  | some entry =>
    have hrow : entry.state ≠ "active" ∨ entry.sessionId.val ∈ s.sessionIds := by
      simpa [careful] using hcareful
    refine h.aside rfl (List.Subset.refl _) (fun id hid ↦ ?_) fun _ hid ↦ Or.inl hid
    simp only [SessionStore.kvConnect] at hid
    split at hid
    · rename_i hactive
      obtain rfl := Option.some.inj hid
      exact Or.inr (Or.inr (hrow.resolve_left (not_not.2 hactive)))
    · exact Or.inl hid

/-! ### The retention -/

/-- The sessions are deleted with their segments, and are not in use. -/
theorem Recorded.deleteStep (h : Recorded s) {ids : List String}
    (hunused : ∀ id ∈ s.inUse, id ∉ ids) (r : Reply) : Recorded (deleteStep s ids r) := by
  rw [SessionStore.deleteStep]
  split
  · have hkept {id : String} (hid : id ∈ s.sessionIds) (hnot : id ∉ ids) :
        id ∈ (s.sessions.filter fun row ↦ row.id ∉ ids).map SessionModel.id := by
      obtain ⟨row, hrow, rfl⟩ := List.mem_map.1 hid
      exact List.mem_map_of_mem (List.mem_filter.2 ⟨hrow, decide_eq_true hnot⟩)
    intro id hid
    rcases List.mem_append.1 hid with hid | hid
    · obtain ⟨p, hp, rfl⟩ := List.mem_map.1 hid
      obtain ⟨hsegment, hnot⟩ := List.mem_filter.1 hp
      exact hkept (h (List.mem_append_left _ (List.mem_map_of_mem hsegment)))
        (of_decide_eq_true hnot)
    · exact hkept (h (List.mem_append_right _ hid)) (hunused id hid)
  · exact h.quiet ⟨rfl, rfl, rfl, rfl⟩

theorem Recorded.retentionStep {a : RetentionAnswer} (h : Recorded s)
    (hcareful : careful s (.retain a) = true) (ht : retentionStep count days s a = some t) :
    Recorded t := by
  rcases retentionStep_cases ht with hquiet | ⟨ids, r, hdeleting, rfl, rfl⟩
  · exact h.quiet hquiet
  · simp only [careful, hdeleting, List.all_eq_true, decide_eq_true_eq] at hcareful
    exact h.deleteStep hcareful r

/-! ### The pull loop -/

/-- A segment is stored for the session it was taken in hand for. -/
theorem Recorded.loop (h : Recorded s) {a : PullLoop.Action} {l : PullLoop.State}
    (hl : PullLoop.step s.stream s.activeSessionId s.loop a = some l) :
    Recorded { s with loop := l } := by
  obtain ⟨hsegments, hstoring⟩ := PullLoop.segments_step hl
  refine h.grows (List.Subset.refl _) fun id hid ↦ Or.inl ?_
  simp only [State.referenced, State.inUse, List.mem_append, Option.mem_toList] at hid ⊢
  rcases hid with hid | (hid | hid) | hid
  · obtain ⟨p, hp, rfl⟩ := List.mem_map.1 hid
    rcases hsegments p hp with hold | hstored
    · exact Or.inl (List.mem_map_of_mem hold)
    · exact Or.inr (Or.inr hstored)
  · exact Or.inr (Or.inl (Or.inl hid))
  · exact Or.inr (Or.inl (Or.inr hid))
  · exact Or.inr (Or.inl (Or.inl (hstoring id hid)))

/-! ### Runs -/

/-- **One step.** -/
theorem Recorded.step {a : Action} (h : Recorded s) (hcareful : careful s a = true)
    (ht : step count days s a = some t) : Recorded t := by
  cases a with
  | loop a =>
    obtain ⟨l, hl, rfl⟩ := loop_step ht
    exact h.loop hl
  | event e =>
    simp only [SessionStore.step] at ht
    split at ht
    · obtain rfl := Option.some.inj ht
      exact h.beginEvent e
    · contradiction
  | handler r => exact h.handlerStep ht
  | connect entry =>
    obtain ⟨-, hconnect⟩ := Option.ite_none_left_eq_some.1 ht
    obtain rfl := Option.some.inj hconnect
    exact h.kvConnect hcareful
  | retain a => exact h.retentionStep hcareful ht
  | restart committed =>
    rw [SessionStore.step, Option.map_eq_some_iff] at ht
    obtain ⟨l, hl, rfl⟩ := ht
    refine (h.loop hl).aside rfl (List.Subset.refl _) (fun id hid ↦ ?_) fun id hid ↦
      absurd hid List.not_mem_nil
    contradiction
  | _ => exact h.quiet (quiet_step rfl ht)

theorem recorded_inductive (count days : ℤ) :
    (system count days).Inductive (fun s a ↦ careful s a = true) Recorded where
  init s hs := by
    obtain rfl : s = {} := hs
    exact List.nil_subset _
  step h hcareful ht := h.step hcareful ht

end

/-- **Segments belong to recorded sessions**, in every run in which each session that `_kv_connect`
recovers has a row and the retention deletes none that is in use. -/
theorem segments_recorded {count days : ℤ} {s : State}
    (h : (system count days).Reachable (fun s a ↦ careful s a = true) s) :
    ∀ p ∈ s.loop.segments, ∃ row ∈ s.sessions, row.id = p.2.sessionId := by
  have hinv := (recorded_inductive count days).reachable h
  intro p hp
  exact List.mem_map.1 (hinv (List.mem_append_left _ (List.mem_map_of_mem hp)))

/-! ### Two restarts -/

/-- A final transcript. -/
def amen : Json :=
  .obj [("is_final", .bool true), ("text", .str "amen"), ("source", .str "live")]

/-- The pull loop fetches the transcript, broadcasts it, stores its segment and acks it. -/
def filing (seq : ℕ) : List Action :=
  [.loop (.fetched [seq] .ok), .loop (.resume true .ok), .loop (.resume true .ok),
    .loop (.resume true .ok)]

/-- What audio-producer announces and stores as it starts the session of ten o'clock. -/
def tenStarted : SessionEvent where
  event := "started"
  sessionId := AudioProducer.first.id
  startedAt := AudioProducer.first.iso

def tenEntry : KvEntry := AudioProducer.entryOf AudioProducer.first (.str "")

/-- The event is delivered, and the row is added. -/
def tenRecorded : List Action :=
  [.connect none, .event tenStarted, .handler .ok, .handler .ok, .handler .ok, .handler .ok]

/-- The session starts while api-gateway is down. Its event is lost; the KV entry is recovered, and
the first transcript is stored under a session that is not recorded. -/
theorem recovered_without_row :
    ∃ s, (system 30 0).Reachable always s ∧ s.sessionIds = [] ∧
      s.referenced = ["20260301-100000"] := by
  obtain ⟨s, hs, htest⟩ := exists_reachable_of_exec (M := system 30 0) (G := always) {}
    ([.connect (some tenEntry), .transcript (some amen)] ++ filing 0)
    (fun s ↦ decide (s.sessionIds = [] ∧ s.referenced = ["20260301-100000"])) rfl
    (by decide +kernel)
  exact ⟨s, hs, of_decide_eq_true htest⟩

/-- api-gateway restarts, and the sessions are listed before the KV entry is recovered: the row of
the running session is completed. A day later the retention deletes it, and the next transcript is
stored all the same. -/
theorem deleted_in_use :
    ∃ s, (system 0 1).Reachable always s ∧ s.sessionIds = [] ∧
      s.referenced = ["20260301-100000"] := by
  obtain ⟨s, hs, htest⟩ := exists_reachable_of_exec (M := system 0 1) (G := always) {}
    (tenRecorded ++ [.restart false, .list, .request 0 .ok, .connect (some tenEntry), .retention,
      .retain (.cutoff "2026-03-01T10:05:00+00:00"), .retain (.deleted .ok),
      .transcript (some amen)] ++ filing 0)
    (fun s ↦ decide (s.sessionIds = [] ∧ s.referenced = ["20260301-100000"])) rfl
    (by decide +kernel)
  exact ⟨s, hs, of_decide_eq_true htest⟩

/-- The session starts before api-gateway does again. -/
theorem segments_recorded_restart :
    ∃ s, (system 30 0).Reachable (fun s a ↦ careful s a = true) s ∧
      s.referenced = ["20260301-100000"] ∧
      ∀ p ∈ s.loop.segments, ∃ row ∈ s.sessions, row.id = p.2.sessionId := by
  obtain ⟨s, hs, htest⟩ := exists_reachable_of_exec (M := system 30 0)
    (G := fun s a ↦ careful s a = true) {}
    (tenRecorded ++ [.restart false, .connect (some tenEntry), .transcript (some amen)] ++ filing 0)
    (fun s ↦ decide (s.referenced = ["20260301-100000"])) rfl (by decide +kernel)
  exact ⟨s, hs, of_decide_eq_true htest, segments_recorded hs⟩

end LiveSTT.SessionStore
