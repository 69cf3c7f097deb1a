import Mathlib.Data.List.Induction
import LiveSTT.Gateway.SessionStore

/-!
# Folding lifecycle events into the table of sessions

`_handle_session_db` is given the lifecycle events of audio-producer one after the other, in
whatever order and however often they come. `handleSessionDb` is what one event comes to when the
database calls succeed, and `folds_run` connects it with the handler's steps.

A started event adds a row if there is none with its id, and a stopped event sets `stopped_at` of
the row with its id; so rows stay unique, and labels and start times stay as they are
(`kept_handle`). But a stopped event clears `_active_session_id` whatever session it names. So a
late stop of one session leaves another one, that has started since, without its transcripts
(`late_stop`); the events fold safely exactly if each stop finds its own session active, or none
(`folds_safely_iff`).

The events are data, so a sequence of them may begin with a stop, repeat a start, or name sessions
in any order. Only their effect on the rows and on the active session is at stake here; that
audio-producer publishes them in a better order is shown elsewhere.
-/

namespace LiveSTT.SessionStore

open TransitionSystem

/-! ### One event -/

/-- `_handle_session_db`, when its database calls succeed. -/
def handleSessionDb (s : State) (e : SessionEvent) : State :=
  if e.sessionId = "" then s
  else if e.event = "started" then { s with
    sessions := if e.sessionId ∈ s.sessionIds then s.sessions else s.sessions ++ [e.row]
    activeSessionId := some e.sessionId }
  else if e.event = "stopped" then { s with
    sessions := s.sessions.map fun row ↦
      if row.id = e.sessionId then { row with stoppedAt := some e.stoppedAt } else row
    activeSessionId := none }
  else s

/-- Events are handled one after the other. -/
def handleAll (s : State) (es : List SessionEvent) : State := es.foldl handleSessionDb s

theorem handleAll_concat (s : State) (es : List SessionEvent) (e : SessionEvent) :
    handleAll s (es ++ [e]) = handleSessionDb (handleAll s es) e :=
  List.foldl_concat _ _ _ _

section

variable {s : State} {e : SessionEvent}

/-- A row after an event: only `stopped_at` can differ, and only if the event is a stop of its
session. -/
structure Kept (e : SessionEvent) (row row' : SessionModel) : Prop where
  id : row'.id = row.id
  label : row'.label = row.label
  startedAt : row'.startedAt = row.startedAt
  scheduled : row'.scheduled = row.scheduled
  stoppedAt : row'.stoppedAt = row.stoppedAt ∨ e.event = "stopped" ∧ e.sessionId = row.id

/-- What is asked of the handling of an event. -/
structure Safe (s : State) (e : SessionEvent) (t : State) : Prop where
  unique : t.sessionIds.Nodup
  rows : ∀ row ∈ s.sessions, ∃ row' ∈ t.sessions, Kept e row row'
  active : e.event = "stopped" → ∀ id, s.activeSessionId = some id → id ≠ e.sessionId →
    t.activeSessionId = some id

/-- The rows stay unique. -/
theorem nodup_handle (h : s.sessionIds.Nodup) (e : SessionEvent) :
    (handleSessionDb s e).sessionIds.Nodup := by
  rw [handleSessionDb]
  split
  · exact h
  · split
    · show ((if e.sessionId ∈ s.sessionIds then s.sessions else s.sessions ++ [e.row]).map
        SessionModel.id).Nodup
      split
      · exact h
      · rename_i hnew
        rw [List.map_append, List.map_singleton, ← List.concat_eq_append]
        exact List.Nodup.concat hnew h
    · split
      · have hids : (s.sessions.map fun row ↦
            if row.id = e.sessionId then { row with stoppedAt := some e.stoppedAt } else row).map
              SessionModel.id = s.sessionIds := by
          refine sessionIds_map fun row ↦ ?_
          split <;> rfl
        show List.Nodup (List.map _ (List.map _ _))
        rw [hids]
        exact h
      · exact h

/-- **Rows are kept.** -/
theorem kept_handle (s : State) (e : SessionEvent) :
    ∀ row ∈ s.sessions, ∃ row' ∈ (handleSessionDb s e).sessions, Kept e row row' := by
  intro row hrow
  have hsame : Kept e row row := ⟨rfl, rfl, rfl, rfl, Or.inl rfl⟩
  rw [handleSessionDb]
  split
  · exact ⟨row, hrow, hsame⟩
  · split
    · refine ⟨row, ?_, hsame⟩
      show row ∈ if e.sessionId ∈ s.sessionIds then s.sessions else s.sessions ++ [e.row]
      split
      · exact hrow
      · exact List.mem_append_left _ hrow
    · split
      · rename_i hstopped
        refine ⟨_, List.mem_map_of_mem hrow, ?_⟩
        split
        · rename_i hid
          exact ⟨rfl, rfl, rfl, rfl, Or.inr ⟨hstopped, hid.symm⟩⟩
        · exact hsame
      · exact ⟨row, hrow, hsame⟩

/-- A stopped event leaves no session active. -/
theorem active_stopped (hid : e.sessionId ≠ "") (hstopped : e.event = "stopped") :
    (handleSessionDb s e).activeSessionId = none := by
  rw [handleSessionDb, if_neg hid, if_neg (by rw [hstopped]; decide), if_pos hstopped]

/-- A stop finds its own session active, or none. -/
def StopsItsOwn (s : State) (e : SessionEvent) : Prop :=
  e.event = "stopped" → e.sessionId ≠ "" →
    s.activeSessionId = none ∨ s.activeSessionId = some e.sessionId

/-- **One event.** -/
theorem safe_handle_iff (h : s.sessionIds.Nodup) :
    Safe s e (handleSessionDb s e) ↔ StopsItsOwn s e := by
  constructor
  · intro hsafe hstopped hid
    cases hactive : s.activeSessionId with
    | none => exact Or.inl rfl
    | some id =>
      refine Or.inr (congrArg some ?_)
      by_contra hother
      have hkept := hsafe.active hstopped id hactive hother
      rw [active_stopped hid hstopped] at hkept
      contradiction
  · intro howns
    refine ⟨nodup_handle h e, kept_handle s e, fun hstopped id hactive hother ↦ ?_⟩
    by_cases hid : e.sessionId = ""
    · rw [handleSessionDb, if_pos hid]
      exact hactive
    · rcases howns hstopped hid with hnone | hown
      · rw [hnone] at hactive
        contradiction
      · rw [hown] at hactive
        exact absurd (Option.some.inj hactive).symm hother

end

/-! ### Sequences of events -/

theorem nodup_handleAll {s : State} (h : s.sessionIds.Nodup) (es : List SessionEvent) :
    (handleAll s es).sessionIds.Nodup := by
  induction es using List.reverseRecOn with
  | nil => exact h
  | append_singleton es e ih =>
    rw [handleAll_concat]
    exact nodup_handle ih e

/-- **The events fold safely exactly if each stop finds its own session active, or none.** -/
theorem folds_safely_iff {s : State} (h : s.sessionIds.Nodup) (es : List SessionEvent) :
    (∀ before e after, es = before ++ e :: after →
      Safe (handleAll s before) e (handleAll s (before ++ [e]))) ↔
    ∀ before e after, es = before ++ e :: after → StopsItsOwn (handleAll s before) e := by
  refine forall_congr' fun before ↦ forall_congr' fun e ↦ forall_congr' fun after ↦
    imp_congr_right fun _ ↦ ?_
  rw [handleAll_concat]
  exact safe_handle_iff (nodup_handleAll h before)

/-- The stopped event of the session of ten o'clock comes after the started event of the next. -/
def lateStop : List SessionEvent :=
  [{ event := "started", sessionId := "20260301-100000" },
    { event := "started", sessionId := "20260301-110000" },
    { event := "stopped", sessionId := "20260301-100000" }]

/-- The second session is active when the stop of the first is handled, and is not any more then. -/
theorem late_stop :
    (handleAll {} (lateStop.take 2)).activeSessionId = some "20260301-110000" ∧
    (handleAll {} lateStop).activeSessionId = none ∧
    ¬ ∀ before e after, lateStop = before ++ e :: after →
      Safe (handleAll {} before) e (handleAll {} (before ++ [e])) := by
  refine ⟨rfl, rfl, fun hsafe ↦ ?_⟩
  have hlast := hsafe (lateStop.take 2)
    { event := "stopped", sessionId := "20260301-100000" } [] rfl
  have hkept := hlast.active rfl "20260301-110000" rfl (by decide)
  contradiction

/-- The condition at these events, with the empty table. -/
theorem folds_safely_iff_lateStop :
    (∀ before e after, lateStop = before ++ e :: after →
      Safe (handleAll {} before) e (handleAll {} (before ++ [e]))) ↔
    ∀ before e after, lateStop = before ++ e :: after → StopsItsOwn (handleAll {} before) e :=
  folds_safely_iff (s := {}) List.nodup_nil lateStop

/-! ### The handler's steps -/

/-- Only the handler of lifecycle events runs, and its database calls succeed. -/
def handling : Action → Bool
  | .event _ => true
  | .handler r => r = .ok
  | _ => false

/-- The events that were delivered. -/
def eventsOf (as : List Action) : List SessionEvent :=
  as.filterMap fun
    | .event e => some e
    | _ => none

/-- The handler has been given `es`, and is on its way with the last of them. -/
def OnItsWay (s : State) (es : List SessionEvent) (t : State) : Prop :=
  match t.handler with
  | .idle => t = handleAll s es
  | .selecting e =>
    ∃ before, es = before ++ [e] ∧ { t with handler := .idle } = handleAll s before ∧
      e.sessionId ≠ "" ∧ e.event = "started"
  | .selected e found => ∃ before, es = before ++ [e] ∧
      { t with handler := .idle } = handleAll s before ∧ e.sessionId ≠ "" ∧ e.event = "started" ∧
      found = some (decide (e.sessionId ∈ t.sessionIds))
  | .inserting e =>
    ∃ before, es = before ++ [e] ∧ { t with handler := .idle } = handleAll s before ∧
      e.sessionId ≠ "" ∧ e.event = "started" ∧ e.sessionId ∉ t.sessionIds
  | .inserted e raised => raised = false ∧
      { t with handler := .idle, activeSessionId := some e.sessionId } = handleAll s es
  | .updating e => ∃ before, es = before ++ [e] ∧ { t with handler := .idle } = handleAll s before ∧
      e.sessionId ≠ "" ∧ e.event = "stopped"
  | .updated raised => raised = false ∧
      { t with handler := .idle, activeSessionId := none } = handleAll s es

section

variable {count days : ℤ} {s t u : State} {es : List SessionEvent}

/-- The handler takes the next event when it is idle. -/
theorem onItsWay_event {e : SessionEvent} (hidle : t.handler = .idle) (h : t = handleAll s es) :
    OnItsWay s (es ++ [e]) (beginEvent t e) := by
  have hsame : { t with handler := .idle } = handleAll s es := by
    rw [← h, ← hidle]
  rw [beginEvent]
  split
  · rename_i hid
    rw [OnItsWay, hidle]
    show t = handleAll s (es ++ [e])
    rw [handleAll_concat, ← h, handleSessionDb, if_pos hid]
  · rename_i hid
    split
    · rename_i hstarted
      exact ⟨es, rfl, hsame, hid, hstarted⟩
    · rename_i hstarted
      split
      · rename_i hstopped
        exact ⟨es, rfl, hsame, hid, hstopped⟩
      · rename_i hstopped
        rw [OnItsWay, hidle]
        show t = handleAll s (es ++ [e])
        rw [handleAll_concat, ← h, handleSessionDb, if_neg hid, if_neg hstarted, if_neg hstopped]

/-- A call of the handler brings it on its way, and at the last one the event is handled. -/
theorem onItsWay_handler (h : OnItsWay s es t) (hu : handlerStep t .ok = some u) :
    OnItsWay s es u := by
  rw [OnItsWay.eq_def] at h
  rw [handlerStep.eq_def] at hu
  split at hu <;> rename_i ht <;> rw [ht] at h
  · contradiction
  · obtain ⟨before, hes, hbefore, hid, hstarted⟩ := h
    obtain rfl := Option.some.inj hu
    exact ⟨before, hes, hbefore, hid, hstarted, rfl⟩
  · obtain ⟨before, hes, hbefore, hid, hstarted, hfound⟩ := h
    contradiction
  · rename_i e
    obtain ⟨before, rfl, hbefore, hid, hstarted, hfound⟩ := h
    obtain rfl := Option.some.inj hu
    have hrow : e.sessionId ∈ (handleAll s before).sessionIds := by
      rw [← hbefore]
      exact of_decide_eq_true (Option.some.inj hfound).symm
    show _ = handleAll s (before ++ [e])
    rw [handleAll_concat, handleSessionDb, if_neg hid, if_pos hstarted, if_pos hrow, ← hbefore]
  · rename_i e
    obtain ⟨before, hes, hbefore, hid, hstarted, hfound⟩ := h
    obtain rfl := Option.some.inj hu
    exact ⟨before, hes, hbefore, hid, hstarted, of_decide_eq_false (Option.some.inj hfound).symm⟩
  · rename_i e
    obtain ⟨before, rfl, hbefore, hid, hstarted, hnew⟩ := h
    obtain rfl := Option.some.inj hu
    rw [insertRow, if_neg hnew]
    refine ⟨rfl, ?_⟩
    have hnew' : e.sessionId ∉ (handleAll s before).sessionIds := by
      rw [← hbefore]
      exact hnew
    rw [handleAll_concat, handleSessionDb, if_neg hid, if_pos hstarted, if_neg hnew', ← hbefore]
    rfl
  · rename_i e
    obtain ⟨before, rfl, hbefore, hid, hstopped⟩ := h
    obtain rfl := Option.some.inj hu
    refine ⟨rfl, ?_⟩
    rw [handleAll_concat, handleSessionDb, if_neg hid, if_neg (by rw [hstopped]; decide),
      if_pos hstopped, ← hbefore]
    rfl
  · obtain ⟨hraised, -⟩ := h
    contradiction
  · obtain ⟨-, hall⟩ := h
    obtain rfl := Option.some.inj hu
    exact hall
  · obtain ⟨hraised, -⟩ := h
    contradiction
  · obtain ⟨-, hall⟩ := h
    obtain rfl := Option.some.inj hu
    exact hall

/-- **A run of the handler folds the events it was given.** -/
theorem folds_run {as : List Action} (hidle : s.handler = .idle)
    (hrun : (system count days).Run (fun _ a ↦ handling a = true) s as t) :
    OnItsWay s (eventsOf as) t := by
  induction hrun with
  | nil =>
    rw [OnItsWay, hidle]
    rfl
  | @snoc as a t u _ hhandling hstep ih =>
    rw [eventsOf, List.filterMap_append]
    cases a with
    | event e =>
      simp only [SessionStore.system, SessionStore.step] at hstep
      split at hstep
      · rename_i ht
        obtain rfl := Option.some.inj hstep
        rw [OnItsWay, ht] at ih
        exact onItsWay_event ht ih
      · contradiction
    | handler r =>
      obtain rfl : r = .ok := of_decide_eq_true hhandling
      rw [List.filterMap_cons_none rfl, List.filterMap_nil, List.append_nil]
      exact onItsWay_handler ih hstep
    | _ => contradiction

end

end LiveSTT.SessionStore
