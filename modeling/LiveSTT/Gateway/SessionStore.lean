import LiveSTT.Gateway.PullLoop
import LiveSTT.Gateway.SessionAdmin

/-!
# api-gateway: the tables of sessions and segments

What api-gateway does to `sessions` and `transcript_segments`. `_handle_session_db` adds and closes
rows of sessions; the pull loop adds segments under `_active_session_id` (`PullLoop`); the listing
closes the rows of sessions that are not active; a rename changes a label; the retention deletes
sessions with their segments. `_kv_connect` touches no table, but sets `_active_session_id`.

A database call takes effect at a step of its own, somewhere between the step that issues it and the
one that resumes its caller. A step where nothing but the next call would follow is that effect and
the resumption in one. The writes of a transaction take effect together: from its first write to its
commit no other writer comes in between. The broker calls lifecycle events one after the other, so
there is one handler; requests overlap. The foreign key of `transcript_segments` is not enforced.

At the end are the frame rules that the results about events, retention and the listing share: a
step of a request leaves the ids of the rows, the active session, the handler and the pull loop
alone (`Quiet`). Where the text of a time matters it is a string here; its order is in
`StoredTimes`.
-/

namespace LiveSTT.SessionStore

open AudioProducer (KvEntry)

/-! ### The data -/

/-- A row of `sessions`. -/
structure SessionModel where
  id : String
  label : Json
  startedAt : String
  stoppedAt : Option String := none
  scheduled : ℕ := 0

/-- A lifecycle event on `system.session`, decoded, with the defaults for what it lacks. -/
structure SessionEvent where
  event : String
  /-- Empty if it is absent or null. -/
  sessionId : String := ""
  label : Json := .str ""
  startedAt : String := ""
  stoppedAt : String := ""
  scheduled : Bool := false

/-- The row of a started session. -/
def SessionEvent.row (e : SessionEvent) : SessionModel where
  id := e.sessionId
  label := e.label
  startedAt := e.startedAt
  scheduled := if e.scheduled then 1 else 0

/-- Where `_handle_session_db` is suspended. -/
inductive HandlerPc
  | idle
  /-- At the select of the session's row. -/
  | selecting (e : SessionEvent)
  /-- The select has been answered: whether there is a row, or nothing if it raised. -/
  | selected (e : SessionEvent) (found : Option Bool)
  /-- At the commit of the new row. -/
  | inserting (e : SessionEvent)
  /-- At the update of the row, or its commit. -/
  | updating (e : SessionEvent)
  /-- The commit of the new row has been answered. -/
  | inserted (e : SessionEvent) (raised : Bool)
  /-- The commit of the update has been answered. -/
  | updated (raised : Bool)

/-- Where `_run_session_retention` is suspended; `ids` is `ids_to_delete`. -/
inductive RetentionPc
  | idle
  /-- At the select of the completed sessions. -/
  | counting
  /-- At the select of the old sessions. -/
  | aging (ids : List String)
  /-- At the deletes, or their commit. -/
  | deleting (ids : List String)

/-- A request, suspended at a database call. -/
inductive Request
  /-- `list_sessions` at the update of the orphans; `active` is `_active_session_id` as it built the
  statement. -/
  | closing (active : Option String)
  /-- `rename_session` at the select of the row. -/
  | finding (sessionId : String) (label : Json)
  /-- `rename_session` at the update of the row. -/
  | relabeling (sessionId : String) (label : Json)

structure State where
  sessions : List SessionModel := []
  /-- The pull loop, with the segments. -/
  loop : PullLoop.State := {}
  /-- What the pull loop reads. -/
  stream : List (Option Json) := []
  activeSessionId : Option String := none
  handler : HandlerPc := .idle
  /-- `_kv_connect` has returned. -/
  connected : Bool := false
  retention : RetentionPc := .idle
  requests : List Request := []

/-- The ids of the rows of `sessions`. -/
def State.sessionIds (s : State) : List String := s.sessions.map SessionModel.id

/-! ### Lifecycle events -/

/-- `_handle_session_db`, called. -/
def beginEvent (s : State) (e : SessionEvent) : State :=
  if e.sessionId = "" then s
  else if e.event = "started" then { s with handler := .selecting e }
  else if e.event = "stopped" then { s with handler := .updating e }
  else s

/-- The row is inserted, if its id is new. -/
def insertRow (s : State) (e : SessionEvent) (r : Reply) : State :=
  if e.sessionId ∈ s.sessionIds then { s with handler := .inserted e true }
  else { s with
    sessions := if r.applied then s.sessions ++ [e.row] else s.sessions
    handler := .inserted e r.raised }

/-- `update(SessionModel).where(SessionModel.id == session_id)`. -/
def State.update (s : State) (id : String) (f : SessionModel → SessionModel) (r : Reply) : State :=
  if r.applied then
    { s with sessions := s.sessions.map fun row ↦ if row.id = id then f row else row }
  else s

/-- `_handle_session_db`, from a call or its answer on. -/
def handlerStep (s : State) (r : Reply) : Option State :=
  match s.handler with
  | .idle => none
  | .selecting e => some { s with
      handler := .selected e (if r.raised then none else some (e.sessionId ∈ s.sessionIds)) }
  | .selected _ none => some { s with handler := .idle }
  | .selected e (some true) =>
    some { s with activeSessionId := some e.sessionId, handler := .idle }
  | .selected e (some false) => some { s with handler := .inserting e }
  | .inserting e => some (insertRow s e r)
  | .updating e =>
    some { s.update e.sessionId (fun row ↦ { row with stoppedAt := some e.stoppedAt }) r
      with handler := .updated r.raised }
  | .inserted _ true => some { s with handler := .idle }
  | .inserted e false => some { s with activeSessionId := some e.sessionId, handler := .idle }
  | .updated true => some { s with handler := .idle }
  | .updated false => some { s with activeSessionId := none, handler := .idle }

/-! ### Recovery -/

/-- `_kv_connect`, from the answer to its get on; `entry` is what the get returned, nothing if it
raised. -/
def kvConnect (s : State) (entry : Option KvEntry) : State :=
  match entry with
  | some entry => { s with
      activeSessionId := if entry.state = "active" then some entry.sessionId else s.activeSessionId
      connected := true }
  | none => { s with connected := true }

/-! ### Retention -/

/-- `_run_session_retention`, called, with `_SESSION_RETENTION_COUNT` and
`_SESSION_RETENTION_DAYS`. -/
def beginRetention (count days : ℤ) (s : State) : State :=
  if count ≤ 0 ∧ days ≤ 0 then s
  else if 0 < count then { s with retention := .counting }
  else { s with retention := .aging [] }

/-- The sessions with a `stopped_at`. -/
def State.completed (s : State) : List SessionModel :=
  s.sessions.filter fun row ↦ row.stoppedAt.isSome

/-- `started_at` of the row with the id. -/
def State.startedAt (s : State) (id : String) : String :=
  ((s.sessions.find? fun row ↦ row.id = id).map SessionModel.startedAt).getD ""

/-- An answer to the select of the completed sessions: their ids by `started_at`, the latest
first. -/
def State.Ordered (s : State) (ids : List String) : Prop :=
  ids.Perm (s.completed.map SessionModel.id) ∧
    ids.Pairwise fun id id' ↦ ¬ s.startedAt id < s.startedAt id'

instance (s : State) (ids : List String) : Decidable (s.Ordered ids) :=
  inferInstanceAs (Decidable (_ ∧ _))

/-- The ids are known: delete them, if there are any. -/
def beginDelete (s : State) (ids : List String) : State :=
  { s with retention := if ids = [] then .idle else .deleting ids }

/-- The select of the completed sessions is answered. -/
def countStep (count days : ℤ) (s : State) (order : List String) : State :=
  if 0 < days then { s with retention := .aging (order.drop count.toNat) }
  else beginDelete s (order.drop count.toNat)

/-- The select of the sessions started before `cutoff` is answered. -/
def ageStep (s : State) (ids : List String) (cutoff : String) : State :=
  beginDelete s (ids ++
    ((s.completed.filter fun row ↦ row.startedAt < cutoff).map SessionModel.id).filter (· ∉ ids))

/-- Delete the segments of the sessions, and the sessions. -/
def deleteStep (s : State) (ids : List String) (r : Reply) : State :=
  if r.applied then { s with
    sessions := s.sessions.filter fun row ↦ row.id ∉ ids
    loop := { s.loop with segments := s.loop.segments.filter fun p ↦ p.2.sessionId ∉ ids }
    retention := .idle }
  else { s with retention := .idle }

/-- How a call of the retention ends. -/
inductive RetentionAnswer
  | raised
  | ordered (ids : List String)
  | cutoff (cutoff : String)
  | deleted (r : Reply)

/-- `_run_session_retention`, from a call on. An exception is logged. -/
def retentionStep (count days : ℤ) (s : State) (a : RetentionAnswer) : Option State :=
  match s.retention, a with
  | .idle, _ => none
  | _, .raised => some { s with retention := .idle }
  | .counting, .ordered order =>
    if s.Ordered order then some (countStep count days s order) else none
  | .aging ids, .cutoff cutoff => some (ageStep s ids cutoff)
  | .deleting ids, .deleted r => some (deleteStep s ids r)
  | _, _ => none

/-! ### Requests -/

/-- `list_sessions` closes the rows of sessions that are not active. -/
def closeOrphans (s : State) (active : Option String) (r : Reply) : State :=
  if r.applied then { s with
    sessions := s.sessions.map fun row ↦
      if row.stoppedAt = none ∧ row.id ≠ active.getD "" then
        { row with stoppedAt := some "interrupted" } else row }
  else s

/-- A request, from a call on; it is taken off the list, and put back if it goes on. -/
def requestStep (s : State) (q : Request) (r : Reply) : State :=
  match q with
  | .closing active => closeOrphans s active r
  | .finding id label =>
    if r.raised ∨ id ∉ s.sessionIds then s
    else { s with requests := s.requests ++ [.relabeling id label] }
  | .relabeling id label => s.update id (fun row ↦ { row with label := label }) r

/-! ### The system -/

inductive Action
  /-- A message is stored on the stream of transcripts. -/
  | transcript (data : Option Json)
  /-- The pull loop continues. -/
  | loop (a : PullLoop.Action)
  /-- A lifecycle event is delivered. -/
  | event (e : SessionEvent)
  /-- Its handler continues. -/
  | handler (r : Reply)
  /-- The get of `_kv_connect` is answered. -/
  | connect (entry : Option KvEntry)
  /-- The retention begins: at startup, and then daily. -/
  | retention
  /-- It continues. -/
  | retain (a : RetentionAnswer)
  /-- `GET /admin/sessions`. -/
  | list
  /-- `PATCH /admin/sessions/{id}`. -/
  | rename (sessionId : String) (label : Json)
  /-- The `i`-th request continues. -/
  | request (i : ℕ) (r : Reply)
  /-- api-gateway dies and starts again; a commit of a segment may have taken effect. -/
  | restart (committed : Bool)

def step (count days : ℤ) (s : State) : Action → Option State
  | .transcript data => some { s with stream := s.stream ++ [data] }
  | .loop (.restart _) => none
  | .loop a => (PullLoop.step s.stream s.activeSessionId s.loop a).map fun l ↦ { s with loop := l }
  | .event e =>
    match s.handler with
    | .idle => some (beginEvent s e)
    | _ => none
  | .handler r => handlerStep s r
  | .connect entry => if s.connected then none else some (kvConnect s entry)
  | .retention =>
    match s.retention with
    | .idle => some (beginRetention count days s)
    | _ => none
  | .retain a => retentionStep count days s a
  | .list => some { s with requests := s.requests ++ [.closing s.activeSessionId] }
  | .rename id label => some { s with requests := s.requests ++ [.finding id label] }
  | .request i r => s.requests[i]?.map fun q ↦
      requestStep { s with requests := s.requests.eraseIdx i } q r
  | .restart committed => (PullLoop.step s.stream s.activeSessionId s.loop (.restart committed)).map
      fun l ↦ { sessions := s.sessions, loop := l, stream := s.stream }

/-- api-gateway over the life of its database, which begins empty. -/
def system (count days : ℤ) : TransitionSystem State Action where
  init s := s = {}
  step := step count days

/-! ### What a step leaves alone -/

/-- The pull loop, the ids of the rows, the active session and the handler are left alone. -/
structure Quiet (s t : State) : Prop where
  loop : t.loop = s.loop
  ids : t.sessionIds = s.sessionIds
  active : t.activeSessionId = s.activeSessionId
  handler : t.handler = s.handler

section Quiet

variable {count days : ℤ} {s t u : State}

theorem Quiet.refl (s : State) : Quiet s s := ⟨rfl, rfl, rfl, rfl⟩

theorem Quiet.trans (h : Quiet s t) (h' : Quiet t u) : Quiet s u where
  loop := h'.loop.trans h.loop
  ids := h'.ids.trans h.ids
  active := h'.active.trans h.active
  handler := h'.handler.trans h.handler

/-- Rows that are replaced one by one keep their ids. -/
theorem sessionIds_map {f : SessionModel → SessionModel} (hf : ∀ row, (f row).id = row.id) :
    (s.sessions.map f).map SessionModel.id = s.sessionIds := by
  rw [List.map_map, State.sessionIds]
  exact List.map_congr_left fun row _ ↦ hf row

/-- An update of rows that keeps their ids. -/
theorem quiet_update (id : String) {f : SessionModel → SessionModel}
    (hf : ∀ row, (f row).id = row.id) (r : Reply) : Quiet s (s.update id f r) := by
  rw [State.update]
  split
  · refine ⟨rfl, sessionIds_map fun row ↦ ?_, rfl, rfl⟩
    split
    · exact hf row
    · rfl
  · exact Quiet.refl s

/-- The calls of a request. -/
theorem quiet_requestStep (q : Request) (r : Reply) : Quiet s (requestStep s q r) := by
  cases q with
  | closing active =>
    rw [requestStep, closeOrphans]
    split
    · refine ⟨rfl, sessionIds_map fun row ↦ ?_, rfl, rfl⟩
      split <;> rfl
    · exact Quiet.refl s
  | finding id label =>
    rw [requestStep]
    split
    · exact Quiet.refl s
    · exact ⟨rfl, rfl, rfl, rfl⟩
  | relabeling id label =>
    refine quiet_update id (fun _ ↦ ?_) r
    rfl

/-- The retention touches nothing before it deletes. -/
theorem retentionStep_cases {a : RetentionAnswer} (ht : retentionStep count days s a = some t) :
    Quiet s t ∨ ∃ ids r, s.retention = .deleting ids ∧ a = .deleted r ∧ t = deleteStep s ids r := by
  have hmoved (pc : RetentionPc) : Quiet s { s with retention := pc } := ⟨rfl, rfl, rfl, rfl⟩
  rw [retentionStep.eq_def] at ht
  split at ht
  · contradiction
  · obtain rfl := Option.some.inj ht
    exact Or.inl (hmoved _)
  · obtain ⟨-, hcount⟩ := Option.ite_none_right_eq_some.1 ht
    obtain rfl := Option.some.inj hcount
    rw [countStep]
    split <;> exact Or.inl (hmoved _)
  · obtain rfl := Option.some.inj ht
    exact Or.inl (hmoved _)
  · rename_i ids r hdeleting
    obtain rfl := Option.some.inj ht
    exact Or.inr ⟨ids, r, hdeleting, rfl, rfl⟩
  · contradiction

/-- A step of the pull loop. -/
theorem loop_step {a : PullLoop.Action} (ht : step count days s (.loop a) = some t) :
    ∃ l, PullLoop.step s.stream s.activeSessionId s.loop a = some l ∧ t = { s with loop := l } := by
  cases a with
  | restart committed => contradiction
  | _ =>
    rw [step, Option.map_eq_some_iff] at ht
    · obtain ⟨l, hl, rfl⟩ := ht
      exact ⟨l, hl, rfl⟩
    · simp

/-- The labels that leave them alone. -/
def Action.quiet : Action → Bool
  | .transcript _ | .retention | .list | .rename _ _ | .request _ _ => true
  | _ => false

/-- Every action that is neither an event nor a call of its handler, nor retention. -/
theorem quiet_step {a : Action} (ha : a.quiet = true) (ht : step count days s a = some t) :
    Quiet s t := by
  cases a with
  | retention =>
    simp only [step] at ht
    split at ht
    · obtain rfl := Option.some.inj ht
      rw [beginRetention]
      split
      · exact Quiet.refl s
      · split <;> exact ⟨rfl, rfl, rfl, rfl⟩
    · contradiction
  | request i r =>
    obtain ⟨q, -, rfl⟩ := Option.map_eq_some_iff.1 ht
    have herased : Quiet s { s with requests := s.requests.eraseIdx i } := ⟨rfl, rfl, rfl, rfl⟩
    exact herased.trans (quiet_requestStep q r)
  | transcript data =>
    obtain rfl := Option.some.inj ht
    exact ⟨rfl, rfl, rfl, rfl⟩
  | list =>
    obtain rfl := Option.some.inj ht
    exact ⟨rfl, rfl, rfl, rfl⟩
  | rename id label =>
    obtain rfl := Option.some.inj ht
    exact ⟨rfl, rfl, rfl, rfl⟩
  | _ => contradiction

end Quiet

end LiveSTT.SessionStore
