import LiveSTT.AudioProducer.Model

/-!
# api-gateway: starting and renaming sessions

The requests `POST /session/start` and `PATCH /admin/sessions/{id}`, the latter past its check of
the admin token, and what api-gateway remembers of the session: `_active_session_id`, kept by the
lifecycle events of audio-producer and set by `_kv_connect` when the KV is there.

Both requests read the KV entry `current`, and the rename writes it back. The entry is not
api-gateway's: its functions take it as it is when they issue a call, and `entryAfter` is what a
request leaves of it. A request suspends at each call. How a database call ended is part of the
label that resumes it, and what a get of the KV returned is part of the request's position.

The results at the end are frame rules for the compositions: a request leaves what api-gateway
remembers alone (`Remembers`), and changes of its own state only the requests, their answers and the
commands (`Serves`). What the handling of an event does to the memory is `handleSessionDb`, in one
step; its calls one by one are in `SessionStore`.
-/

namespace LiveSTT.SessionAdmin

open AudioProducer (KvEntry SessionId Lifecycle)

/-- A request, suspended at a call. -/
inductive Request
  /-- `rename_session` at the select of the session's row. -/
  | selecting (sessionId : String) (label : Json)
  /-- `rename_session` at the update of the row, or its commit. -/
  | committing (sessionId : String) (label : Json)
  /-- `rename_session` at the get of the entry, which returns `entry` or raises. -/
  | getting (label : Json) (entry : Option KvEntry)
  /-- `rename_session` at the put of the entry. -/
  | putting (label : Json)
  /-- `session_start` at the get of the entry, which returns `entry` or raises. -/
  | checking (label : String) (entry : Option KvEntry)
  /-- `session_start` at the publish of the command. -/
  | commanding (raised : Bool)

/-- What the clients see. -/
inductive Answer
  /-- 400: missing 'label' field. -/
  | missingLabel
  /-- 404: session_not_found. -/
  | sessionNotFound
  /-- 500: an exception left the handler. -/
  | failed
  | renamed (label : Json)
  /-- 409: session_already_active. -/
  | alreadyActive (id : SessionId)
  /-- The start command is published. -/
  | commanded

/-- `_kv_connect`. -/
inductive Connection
  | waiting
  /-- At the get of the entry, which returns `entry` or raises; `session_kv` is set. -/
  | recovering (entry : Option KvEntry)
  | connected

/-- api-gateway, as far as sessions go. -/
structure State where
  /-- `_active_session_id`. -/
  activeSessionId : Option String := none
  connection : Connection := .waiting
  /-- The number of lifecycle events that have been handled or dropped. -/
  seen : ℕ := 0
  requests : List Request := []
  answers : List Answer := []
  /-- The commands published on `session.control`. -/
  commands : List Json := []

namespace State

variable (s : State)

/-- `app.state.session_kv is not None`. -/
def sessionKv : Bool :=
  match s.connection with
  | .waiting => false
  | _ => true

/-- A request suspends at its next call. -/
def suspend (q : Request) : State := { s with requests := s.requests ++ [q] }

def reply (a : Answer) : State := { s with answers := s.answers ++ [a] }

end State

/-! ### PATCH /admin/sessions/{id} -/

/-- `rename_session`, called. -/
def renameSession (s : State) (sessionId : String) (body : Option Json) : State :=
  match body with
  | some (.obj data) =>
    match Dict.getOr data "label" .null with
    | .null => s.reply .missingLabel
    | label => s.suspend (.selecting sessionId label)
  | _ => s.reply .failed

/-- How a database call ended. -/
inductive DbResult
  | row
  | noRow
  | raised

/-- `rename_session` after its commit. The entry is read only for the active session. -/
def readEntry (s : State) (current : Option KvEntry) (sessionId : String) (label : Json)
    (r : Reply) : State :=
  if s.activeSessionId = some sessionId ∧ s.sessionKv then
    s.suspend (.getting label (if r.raised then none else current))
  else s.reply (.renamed label)

/-- `kv_data["label"] = new_label`. -/
def relabel (entry : KvEntry) (label : Json) : KvEntry := { entry with label := label }

/-! ### POST /session/start -/

/-- The session `session_start` is refused for. -/
def refusedFor (entry : Option KvEntry) : Option SessionId :=
  match entry with
  | some entry => if entry.state = "active" then some entry.sessionId else none
  | none => none

/-- The publish of the start command. -/
def publishCommand (s : State) (label : String) (r : Reply) : State :=
  State.suspend { s with
    commands :=
      if r.applied then s.commands ++ [.obj [("command", .str "start"), ("label", .str label)]]
      else s.commands } (.commanding r.raised)

/-- `session_start`, called; `label` is that of the body, or `""`. -/
def sessionStart (s : State) (current : Option KvEntry) (label : String) (r : Reply) : State :=
  if s.sessionKv then s.suspend (.checking label (if r.raised then none else current))
  else publishCommand s label r

/-! ### A request goes on -/

/-- A request, resumed. `db` is how its database call ended, `r` ends the call the step issues. -/
def resume (s : State) (current : Option KvEntry) (q : Request) (db : DbResult) (r : Reply) :
    State :=
  match q with
  | .selecting sessionId label =>
    match db with
    | .row => s.suspend (.committing sessionId label)
    | .noRow => s.reply .sessionNotFound
    | .raised => s.reply .failed
  | .committing sessionId label =>
    match db with
    | .raised => s.reply .failed
    | _ => readEntry s current sessionId label r
  | .getting label (some _) => s.suspend (.putting label)
  | .getting label none => s.reply (.renamed label)
  | .putting label => s.reply (.renamed label)
  | .checking label entry =>
    match refusedFor entry with
    | some id => s.reply (.alreadyActive id)
    | none => publishCommand s label r
  | .commanding raised => s.reply (if raised then .failed else .commanded)

/-- What a resumed request leaves of the entry: a rename that has read it puts it back. -/
def entryAfter (current : Option KvEntry) (q : Request) (r : Reply) : Option KvEntry :=
  match q with
  | .getting label (some entry) => if r.applied then some (relabel entry label) else current
  | _ => current

/-! ### What api-gateway remembers -/

/-- `_handle_session_db`; an exception of the database leaves the memory as it is. -/
def handleSessionDb (s : State) (e : Lifecycle) (raised : Bool) : State :=
  match e with
  | .started id _ _ => if raised then s else { s with activeSessionId := some id }
  | .stopped (some _) _ => if raised then s else { s with activeSessionId := none }
  | .stopped none _ => s

/-- `_kv_connect`, up to its get and then to its end. -/
def kvConnect (s : State) (current : Option KvEntry) (r : Reply) : State :=
  match s.connection with
  | .waiting => { s with connection := .recovering (if r.raised then none else current) }
  | .recovering entry => { s with
      connection := .connected
      activeSessionId := ((refusedFor entry).map Subtype.val).or s.activeSessionId }
  | .connected => s

/-! ### A request does not touch what api-gateway remembers -/

/-- `_active_session_id` is the same, and the same events are handled. -/
def Remembers (s t : State) : Prop :=
  t.activeSessionId = s.activeSessionId ∧ t.seen = s.seen

/-- Only the requests, their answers and the commands differ. -/
structure Serves (s t : State) : Prop where
  remembers : Remembers s t
  connection : t.connection = s.connection

section Serves

variable (s : State) (current : Option KvEntry)

theorem serves_suspend (q : Request) : Serves s (s.suspend q) := ⟨⟨rfl, rfl⟩, rfl⟩

theorem serves_reply (a : Answer) : Serves s (s.reply a) := ⟨⟨rfl, rfl⟩, rfl⟩

theorem serves_publishCommand (label : String) (r : Reply) : Serves s (publishCommand s label r) :=
  ⟨⟨rfl, rfl⟩, rfl⟩

/-- A rename does not touch what the gateway remembers. -/
theorem serves_renameSession (sessionId : String) (body : Option Json) :
    Serves s (renameSession s sessionId body) := by
  rw [renameSession.eq_def]
  split
  · split
    · exact serves_reply s _
    · exact serves_suspend s _
  · exact serves_reply s _

theorem serves_sessionStart (label : String) (r : Reply) :
    Serves s (sessionStart s current label r) := by
  rw [sessionStart]
  split
  · exact serves_suspend s _
  · exact serves_publishCommand s label r

theorem serves_readEntry (sessionId : String) (label : Json) (r : Reply) :
    Serves s (readEntry s current sessionId label r) := by
  rw [readEntry]
  split
  · exact serves_suspend s _
  · exact serves_reply s _

/-- Nor does the rest of a request. -/
theorem serves_resume (q : Request) (db : DbResult) (r : Reply) :
    Serves s (resume s current q db r) := by
  rw [resume.eq_def]
  split
  · split
    · exact serves_suspend s _
    · exact serves_reply s _
    · exact serves_reply s _
  · split
    · exact serves_reply s _
    · exact serves_readEntry s current _ _ r
  · exact serves_suspend s _
  · exact serves_reply s _
  · exact serves_reply s _
  · split
    · exact serves_reply s _
    · exact serves_publishCommand s _ r
  · exact serves_reply s _

end Serves

/-! ### Which renames hold an entry -/

/-- A rename has read an entry and not put it back. -/
def Request.holds : Request → Option KvEntry
  | .getting _ entry => entry
  | _ => none

/-- The entries held by the renames in flight. -/
def State.held (s : State) : List KvEntry := s.requests.filterMap Request.holds

section Held

variable {s : State} {entry : KvEntry} {current : Option KvEntry}

theorem held_suspend (q : Request) : (s.suspend q).held = s.held ++ q.holds.toList := by
  show (s.requests ++ [q]).filterMap Request.holds = _
  rw [List.filterMap_append]
  cases h : q.holds <;> simp [h, State.held]

theorem held_suspend_of_none {q : Request} (hq : q.holds = none) : (s.suspend q).held = s.held := by
  rw [held_suspend, hq]
  exact List.append_nil _

theorem held_publishCommand (label : String) (r : Reply) :
    (publishCommand s label r).held = s.held :=
  held_suspend_of_none rfl

/-- A rename holds no event. -/
theorem held_renameSession (sessionId : String) (body : Option Json) :
    (renameSession s sessionId body).held = s.held := by
  rw [renameSession.eq_def]
  split
  · split
    · rfl
    · exact held_suspend_of_none rfl
  · rfl

theorem held_sessionStart (label : String) (r : Reply) :
    (sessionStart s current label r).held = s.held := by
  rw [sessionStart]
  split
  · exact held_suspend_of_none rfl
  · exact held_publishCommand label r

theorem held_handleSessionDb (e : AudioProducer.Lifecycle) (raised : Bool) :
    (handleSessionDb s e raised).held = s.held := by
  cases e with
  | started id startedAt label => cases raised <;> rfl
  | stopped id stoppedAt => cases id <;> cases raised <;> rfl

theorem held_kvConnect (r : Reply) : (kvConnect s current r).held = s.held := by
  rw [kvConnect.eq_def]
  split <;> rfl

/-- A resumed request comes to hold an entry only by reading the current one. -/
theorem held_resume {q : Request} {db : DbResult} {r : Reply}
    (h : entry ∈ (resume s current q db r).held) : entry ∈ s.held ∨ current = some entry := by
  have hquiet : ∀ q' : Request, q'.holds = none → entry ∈ (s.suspend q').held → entry ∈ s.held :=
    fun q' hq' hmem ↦ held_suspend_of_none hq' ▸ hmem
  rw [resume.eq_def] at h
  split at h
  · split at h
    · exact Or.inl (hquiet _ rfl h)
    · exact Or.inl h
    · exact Or.inl h
  · split at h
    · exact Or.inl h
    · rw [readEntry] at h
      split at h
      · rw [held_suspend, List.mem_append] at h
        refine h.imp_right fun hmem ↦ ?_
        rw [Option.mem_toList, Request.holds] at hmem
        split at hmem
        · nomatch hmem
        · exact hmem
      · exact Or.inl h
  · exact Or.inl (hquiet _ rfl h)
  · exact Or.inl h
  · exact Or.inl h
  · split at h
    · exact Or.inl h
    · rw [held_publishCommand] at h
      exact Or.inl h
  · exact Or.inl h

/-- The requests that are left when one goes on hold no more. -/
theorem held_eraseIdx (i : ℕ) :
    ∀ e ∈ State.held { s with requests := s.requests.eraseIdx i }, e ∈ s.held :=
  (List.Sublist.filterMap _ (List.eraseIdx_sublist ..)).subset

/-- A request in flight leaves the entry alone, or puts the one it holds with another label. -/
theorem entryAfter_eq {i : ℕ} {q : Request} (hq : s.requests[i]? = some q) (r : Reply) :
    entryAfter current q r = current ∨
      ∃ e ∈ s.held, ∃ label, entryAfter current q r = some (relabel e label) := by
  rw [entryAfter.eq_def]
  split
  · rename_i label e
    split
    · exact Or.inr ⟨e, List.mem_filterMap.2 ⟨_, List.mem_of_getElem? hq, rfl⟩, label, rfl⟩
    · exact Or.inl rfl
  · exact Or.inl rfl

end Held

end LiveSTT.SessionAdmin
