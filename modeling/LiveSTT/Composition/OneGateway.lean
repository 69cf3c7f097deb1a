import LiveSTT.Composition.Kiosk
import LiveSTT.Gateway.ViewerLimit
import LiveSTT.Gateway.Viewers

/-!
# One gateway in several models

What api-gateway does is followed from several sides, each with the part of its state that the side
depends on. So some of its functions are there more than once: `_kv_connect` with its handles
(`Startup`), with its requests (`SessionAdmin`) and with its tables (`SessionStore`);
`_handle_session_db` as one step and call by call; `websocket_endpoint` for the page and its replay
(`Viewers`) and for all clients (`ViewerLimit`); `session_start` and `session_status` with the
handles and without.

Here they are put side by side. Where one model takes a function in one step and the other in
several, the several come to the one; where one leaves out a step, the other does not move (`pcOf`).
A read is answered in one model when it is issued and in the other when its caller goes on, so the
two are compared for the same answer: what was read, or nothing if the read has raised.

The models of requests alone take `app.state.session_kv` as set once `_kv_connect` has its buckets.
`handle_iff` says where they are right to: in the runs in which `lifespan` resets the handle before.
-/

namespace LiveSTT.OneGateway

open AudioProducer (KvEntry Lifecycle)
open SessionBar (stateData)

/-! ### The entry that is read -/

/-- The entry as JSON. -/
def json (entry : Option KvEntry) : Option Json := entry.map fun e ↦ .obj (stateData e)

/-- `_active_session_id` as JSON. -/
def idJson (id : Option String) : Json := (id.map Json.str).getD .null

/-- The session that an entry is active for, in JSON and decoded. -/
theorem activeSession_json (entry : Option KvEntry) :
    Startup.activeSession (json entry) =
      (SessionAdmin.refusedFor entry).map fun id ↦ .str id.val := by
  cases entry with
  | none => rfl
  | some e =>
    by_cases hstate : e.state = "active" <;>
      simp [json, Startup.activeSession, SessionAdmin.refusedFor, stateData, Dict.getOr,
        Dict.get_cons, Json.isStr, hstate]

/-- A read that raises is one of no entry. -/
theorem json_read (entry : Option KvEntry) (raised : Bool) :
    (if raised then none else json entry) = json (if raised then none else entry) := by
  cases raised with
  | false => rfl
  | true => rfl

/-! ### `_kv_connect` -/

section Connect

variable {u u' : Startup.State} {a : SessionAdmin.State} {d : SessionStore.State}
  {current entry : Option KvEntry} {r r' : Reply}

/-- With its buckets, `_kv_connect` sets the handle, and reads the entry. -/
theorem kvConnect_opens (hu : u.kv = .openingConfig) (ha : a.connection = .waiting)
    (hcurrent : u.current = json current) (ht : Startup.kvConnect u .ok = some u') :
    u'.sessionKv = .bucket ∧ u'.kv = .recovering (json current) ∧
      (SessionAdmin.kvConnect a current r).sessionKv = true ∧
      (SessionAdmin.kvConnect a current r).connection =
        .recovering (if r.raised then none else current) := by
  rw [Startup.kvConnect, hu] at ht
  obtain rfl := Option.some.inj ht
  rw [SessionAdmin.kvConnect, ha]
  exact ⟨rfl, congrArg Startup.Task.recovering hcurrent, rfl, rfl⟩

/-- It recovers the session of the entry, with its handles and with its requests. -/
theorem kvConnect_recovers (hu : u.kv = .recovering (json entry))
    (ha : a.connection = .recovering (if r.raised then none else entry))
    (hactive : u.activeSessionId = idJson a.activeSessionId)
    (ht : Startup.kvConnect u r = some u') :
    u'.kv = .connected ∧ (SessionAdmin.kvConnect a current r').connection = .connected ∧
      u'.activeSessionId = idJson (SessionAdmin.kvConnect a current r').activeSessionId := by
  rw [Startup.kvConnect, hu] at ht
  obtain rfl := Option.some.inj ht
  rw [SessionAdmin.kvConnect, ha]
  refine ⟨rfl, rfl, ?_⟩
  show (Startup.activeSession _).getD u.activeSessionId =
    idJson (((SessionAdmin.refusedFor _).map Subtype.val).or a.activeSessionId)
  rw [json_read, activeSession_json, hactive]
  cases SessionAdmin.refusedFor (if r.raised then none else entry) with
  | none => rfl
  | some id => rfl

/-- And with its tables. -/
theorem kvConnect_stores (ha : a.connection = .recovering entry)
    (hactive : d.activeSessionId = a.activeSessionId) :
    (SessionStore.kvConnect d entry).connected = true ∧
      (SessionStore.kvConnect d entry).activeSessionId =
        (SessionAdmin.kvConnect a current r).activeSessionId := by
  rw [SessionAdmin.kvConnect, ha]
  cases entry with
  | none => exact ⟨rfl, hactive⟩
  | some e =>
    refine ⟨rfl, ?_⟩
    show (if e.state = "active" then some e.sessionId.val else d.activeSessionId) = _
    by_cases hstate : e.state = "active" <;> simp [SessionAdmin.refusedFor, hstate, hactive]

end Connect

/-! ### `_handle_session_db` -/

section Handler

variable {d t : SessionStore.State} {a : SessionAdmin.State} {e : Lifecycle} {r : Reply}

/-- The handler ends at once on an event of no session, and leaves the memory; otherwise it is at
work on the event. -/
theorem handleSessionDb_begins (hidle : d.handler = .idle)
    (hactive : d.activeSessionId = a.activeSessionId) :
    (SessionStore.beginEvent d (StartParameters.sessionEvent
      (StartParameters.payload e))).activeSessionId =
        d.activeSessionId ∧
      (StartParameters.Handles e
          (SessionStore.beginEvent d
            (StartParameters.sessionEvent (StartParameters.payload e))).handler ∨
        (SessionStore.beginEvent d
            (StartParameters.sessionEvent (StartParameters.payload e))).handler = .idle ∧
          ∀ raised, (SessionAdmin.handleSessionDb a e raised).activeSessionId =
            d.activeSessionId) := by
  cases e with
  | started id startedAt label =>
    rw [StartParameters.sessionEvent_started, SessionStore.beginEvent, if_neg id.property,
      if_pos rfl]
    exact ⟨rfl, Or.inl ⟨rfl, id, startedAt, label, rfl⟩⟩
  | stopped id stoppedAt =>
    cases id with
    | none => exact ⟨rfl, Or.inr ⟨hidle, fun _ ↦ hactive.symm⟩⟩
    | some id =>
      have hid : (StartParameters.sessionEvent (StartParameters.payload
          (.stopped (some id) stoppedAt))).sessionId = id.val := rfl
      rw [SessionStore.beginEvent, hid, StartParameters.event_stopped, if_neg id.property,
        if_neg (by decide), if_pos rfl]
      exact ⟨rfl, Or.inl ⟨some id, stoppedAt, rfl⟩⟩

/-- **Call by call the handler does what it does in one step**: it leaves the memory until its end,
and there it has done what the event asks for, or has raised. -/
theorem handleSessionDb_steps (hhandles : StartParameters.Handles e d.handler)
    (hnamed : ∀ stoppedAt, e ≠ .stopped none stoppedAt)
    (hactive : d.activeSessionId = a.activeSessionId) (ht : SessionStore.handlerStep d r = some t) :
    (StartParameters.Handles e t.handler ∧ t.activeSessionId = d.activeSessionId) ∨
      (t.handler = .idle ∧ ∃ raised,
        t.activeSessionId = (SessionAdmin.handleSessionDb a e raised).activeSessionId) := by
  have hraised (h : t.activeSessionId = d.activeSessionId) :
      t.activeSessionId = (SessionAdmin.handleSessionDb a e true).activeSessionId := by
    rw [h, hactive]
    cases e with
    | started id startedAt label => rfl
    | stopped id stoppedAt => cases id <;> rfl
  -- The end of a handler that has not raised.
  have hstarted {e' : SessionStore.SessionEvent}
      (h : e' = StartParameters.sessionEvent (StartParameters.payload e) ∧
        ∃ id startedAt label, e = .started id startedAt label) :
      some e'.sessionId = (SessionAdmin.handleSessionDb a e false).activeSessionId := by
    obtain ⟨rfl, id, startedAt, label, rfl⟩ := h
    rfl
  have hstopped (h : ∃ id stoppedAt, e = .stopped id stoppedAt) :
      none = (SessionAdmin.handleSessionDb a e false).activeSessionId := by
    obtain ⟨id, stoppedAt, rfl⟩ := h
    cases id with
    | none => exact absurd rfl (hnamed stoppedAt)
    | some id => rfl
  rw [SessionStore.handlerStep.eq_def] at ht
  split at ht <;> rename_i hs
  · contradiction
  all_goals
    rw [hs] at hhandles
    obtain rfl := Option.some.inj ht
  · exact Or.inl ⟨hhandles, rfl⟩
  · exact Or.inr ⟨rfl, true, hraised rfl⟩
  · exact Or.inr ⟨rfl, false, hstarted hhandles⟩
  · exact Or.inl ⟨hhandles, rfl⟩
  · rw [SessionStore.insertRow]
    split
    · exact Or.inl ⟨hhandles, rfl⟩
    · exact Or.inl ⟨hhandles, rfl⟩
  · refine Or.inl ⟨hhandles, ?_⟩
    rw [SessionStore.State.update]
    split <;> rfl
  · exact Or.inr ⟨rfl, true, hraised rfl⟩
  · exact Or.inr ⟨rfl, false, hstarted hhandles⟩
  · exact Or.inr ⟨rfl, true, hraised rfl⟩
  · exact Or.inr ⟨rfl, false, hstopped hhandles⟩

end Handler

/-! ### `session_start` -/

section Start

variable {u : Startup.State} {a : SessionAdmin.State} {entry current : Option KvEntry}
  {label : String}
  {db : SessionAdmin.DbResult} {r r' : Reply}

/-- Without its handle, `session_start` publishes at once; with it, it reads the entry. -/
theorem sessionStart_called (hcommands : u.commands = a.commands)
    (hcurrent : u.current = json current) :
    (u.sessionKv = .null → a.sessionKv = false →
      (Startup.sessionStart u label r.applied).commands =
        (SessionAdmin.sessionStart a current label r).commands) ∧
    (u.sessionKv = .bucket → a.sessionKv = true →
      Startup.sessionStart u label r.applied = u.suspend (.checking label (json current)) ∧
        SessionAdmin.sessionStart a current label r =
          a.suspend (.checking label (if r.raised then none else current))) := by
  refine ⟨fun hnull hnone ↦ ?_, fun hbucket hset ↦ ?_⟩
  · rw [Startup.sessionStart, hnull, SessionAdmin.sessionStart, hnone]
    show (if _ then _ else _) = (if _ then _ else _)
    rw [hcommands]
    rfl
  · rw [Startup.sessionStart, hbucket, SessionAdmin.sessionStart, hset, hcurrent]
    exact ⟨rfl, rfl⟩

/-- For what it has read it is refused, or publishes its command. -/
theorem sessionStart_resumed (hcommands : u.commands = a.commands) :
    (∃ id, SessionAdmin.refusedFor (if r.raised then none else entry) = some id ∧
      Startup.resume u (.checking label (json entry)) r r'.applied =
        u.reply (.alreadyActive (.str id.val)) ∧
      SessionAdmin.resume a current (.checking label (if r.raised then none else entry)) db r' =
        a.reply (.alreadyActive id)) ∨
    (Startup.resume u (.checking label (json entry)) r r'.applied).commands =
      (SessionAdmin.resume a current (.checking label (if r.raised then none else entry)) db
        r').commands := by
  rw [Startup.resume, SessionAdmin.resume, json_read, activeSession_json]
  cases hrefused : SessionAdmin.refusedFor (if r.raised then none else entry) with
  | some id => exact Or.inl ⟨id, rfl, rfl, rfl⟩
  | none =>
    refine Or.inr ?_
    show (if _ then _ else _) = (if _ then _ else _)
    rw [hcommands]
    rfl

end Start

/-! ### `session_status` -/

/-- The status in one step is what it comes to call by call, for the entry and the timeout that it
has read. -/
theorem sessionStatus_agrees {s : Kiosk.State} {u : Startup.State} {silenceTimeoutS : ℤ}
    {raised : Bool}
    (hkv : u.sessionKv = s.sessionKv) (hcurrent : u.current = json s.copies.current) :
    match Kiosk.sessionStatus s silenceTimeoutS raised with
    | none => Startup.sessionStatus u = u.reply .failed
    | some payload => Startup.sessionStatus u = u.reply (.status payload) ∨
        Startup.sessionStatus u = u.suspend (.reading u.current) ∧
          Startup.statusAnswer (if raised then none else u.current) silenceTimeoutS =
            .status payload := by
  rw [Kiosk.sessionStatus, Startup.sessionStatus, hkv]
  cases s.sessionKv with
  | unset => rfl
  | null => exact Or.inl rfl
  | bucket =>
    refine Or.inr ⟨rfl, ?_⟩
    rw [hcurrent, json_read]
    cases raised with
    | true => rfl
    | false => cases s.copies.current <;> rfl

/-! ### The handle and the connection -/

section Handle

variable {below : Bytes → Bool} {s t : Kiosk.State}

/-- Where requests are served, the handle is there once `_kv_connect` has its buckets. -/
def HandleAgrees (s : Kiosk.State) : Prop :=
  s.serving = true → (s.sessionKv = .bucket ↔ s.copies.gateway.sessionKv = true)

/-- A step that leaves all three. -/
theorem HandleAgrees.same (h : HandleAgrees s) (hserving : t.serving = s.serving)
    (hkv : t.sessionKv = s.sessionKv)
    (hconnection : t.copies.gateway.connection = s.copies.gateway.connection) : HandleAgrees t := by
  intro ht
  rw [hkv, SessionAdmin.State.sessionKv, hconnection]
  exact h (hserving ▸ ht)

/-- A step of the copies: `_kv_connect` assigns the handle with its buckets, and no other step
changes where it is. -/
theorem HandleAgrees.copies (h : HandleAgrees s) {a : RenameRace.Action}
    (hrestart : a ≠ .restart) {copies : RenameRace.State}
    (hcopies : RenameRace.step below s.copies a = some copies) :
    HandleAgrees { s.send (Kiosk.broadcast s a) with
      copies := copies
      sessionKv := Kiosk.handleAfter s a
      serving := Kiosk.servingAfter s a } := by
  cases a with
  | restart => exact absurd rfl hrestart
  | connect r =>
    obtain rfl := Option.some.inj hcopies
    intro hserving
    have hbefore := h hserving
    cases hconnection : s.copies.gateway.connection with
    | waiting =>
      simp [Kiosk.handleAfter, SessionAdmin.kvConnect, SessionAdmin.State.sessionKv, hconnection]
    | recovering entry =>
      simpa [Kiosk.handleAfter, SessionAdmin.kvConnect, SessionAdmin.State.sessionKv, hconnection]
        using hbefore
    | connected =>
      simpa [Kiosk.handleAfter, SessionAdmin.kvConnect, SessionAdmin.State.sessionKv, hconnection]
        using hbefore
  | producer a =>
    obtain ⟨p, -, rfl⟩ := Option.map_eq_some_iff.1 hcopies
    exact h.same rfl rfl rfl
  | rename sessionId body =>
    obtain rfl := Option.some.inj hcopies
    exact h.same rfl rfl (SessionAdmin.serves_renameSession _ _ _).connection
  | start label r =>
    obtain rfl := Option.some.inj hcopies
    exact h.same rfl rfl (SessionAdmin.serves_sessionStart _ _ _ _).connection
  | resume i db r =>
    obtain ⟨q, -, rfl⟩ := Option.map_eq_some_iff.1 hcopies
    exact h.same rfl rfl (SessionAdmin.serves_resume _ _ _ _ _).connection
  | sessionEvent delivered raised =>
    obtain ⟨e, -, rfl⟩ := Option.map_eq_some_iff.1 hcopies
    refine h.same rfl rfl ?_
    cases delivered with
    | false => rfl
    | true =>
      show (SessionAdmin.handleSessionDb _ e raised).connection = _
      rw [SessionAdmin.handleSessionDb.eq_def]
      split <;> first | rfl | (split <;> rfl)

/-- One step, in time. -/
theorem HandleAgrees.step (h : HandleAgrees s) {a : Kiosk.Action}
    (htime : Kiosk.inTime below s a = true) (ht : Kiosk.step below s a = some t) :
    HandleAgrees t := by
  cases a with
  | copies a =>
    obtain ⟨-, ht⟩ := Option.ite_none_left_eq_some.1 ht
    obtain ⟨copies, hcopies, rfl⟩ := Option.map_eq_some_iff.1 ht
    refine h.copies ?_ hcopies
    rintro rfl
    exact absurd htime Bool.false_ne_true
  | lifespan =>
    obtain ⟨-, ht⟩ := Option.ite_none_left_eq_some.1 ht
    obtain rfl := Option.some.inj ht
    intro _
    replace htime : (!Kiosk.isSet s.copies.gateway.connection) = true := htime
    cases hconnection : s.copies.gateway.connection with
    | waiting => simp [SessionAdmin.State.sessionKv, hconnection]
    | recovering entry => simp [Kiosk.isSet, hconnection] at htime
    | connected => simp [Kiosk.isSet, hconnection] at htime
  | transcript =>
    obtain rfl := Option.some.inj ht
    rw [Kiosk.State.send]
    split
    · exact h.same rfl rfl rfl
    · exact h
  | accept | onopen =>
    obtain ⟨-, ht⟩ := Option.ite_none_left_eq_some.1 ht
    obtain rfl := Option.some.inj ht
    exact h.same rfl rfl rfl
  | receive =>
    rw [Kiosk.step.eq_def] at ht
    simp only at ht
    split at ht
    · obtain ⟨-, ht⟩ := Option.ite_none_right_eq_some.1 ht
      obtain rfl := Option.some.inj ht
      exact h.same rfl rfl rfl
    · contradiction
  | answer i silenceTimeoutS raised =>
    rw [Kiosk.step.eq_def] at ht
    simp only at ht
    split at ht
    · obtain ⟨-, ht⟩ := Option.ite_none_right_eq_some.1 ht
      obtain ⟨payload, -, rfl⟩ := Option.map_eq_some_iff.1 ht
      exact h.same rfl rfl rfl
    · contradiction
  | applied i =>
    obtain ⟨payload, -, rfl⟩ := Option.map_eq_some_iff.1 ht
    exact h.same rfl rfl rfl
  | onclose | unanswered i =>
    obtain rfl := Option.some.inj ht
    exact h.same rfl rfl rfl

/-- **The handle is what the models without it take it for**, in every run in which `lifespan`
resets it before `_kv_connect` has its buckets. -/
theorem handle_iff (hs : (Kiosk.system below).Reachable
    (fun s a ↦ Kiosk.inTime below s a = true) s) : HandleAgrees s := by
  have hinductive : (Kiosk.system below).Inductive (fun s a ↦ Kiosk.inTime below s a = true)
      HandleAgrees := by
    refine ⟨fun s hs ↦ ?_, fun h htime ht ↦ h.step htime ht⟩
    obtain rfl : s = {} := hs
    exact fun hserving ↦ absurd hserving Bool.false_ne_true
  exact hinductive.reachable hs

end Handle

/-! ### `websocket_endpoint` -/

/-- Where the handler of the page is, as one of all handlers. -/
def pcOf : Viewers.HandlerPc → ViewerLimit.Pc
  | .accepting => .accepting
  | .greeting => .starting
  | .selecting | .replaying _ => .replaying
  | .receiving _ => .receiving

section Endpoint

variable {session : AudioProducer.SessionId} {s t : Viewers.State} {v : ViewerLimit.State}
  {k : Viewers.Socket} {limit : ℕ} {raised : Bool} {n : ℕ}

/-- Both compare the number of connections with the limit, and let the page in or not. -/
theorem websocketEndpoint_begins (hlength : v.activeConnections.length = s.connections.length)
    (hsocket : s.socket = none) (ht : Viewers.step limit session s .connect = some t) :
    ∃ v', ViewerLimit.step limit v .request = some v' ∧
      v'.activeConnections.length = t.connections.length ∧
      v'.handlers[v.handlers.length]? = some (t.socket.elim .rejecting fun k ↦ pcOf k.pc) := by
  rw [Viewers.step, hsocket] at ht
  refine ⟨_, rfl, ?_⟩
  rw [ViewerLimit.websocketEndpoint]
  by_cases hlimit : limit ≤ s.connections.length
  · replace ht : (if limit ≤ s.connections.length then _ else _) = some t := ht
    rw [if_pos hlimit] at ht
    obtain rfl := Option.some.inj ht
    rw [if_pos (by rw [hlength]; exact_mod_cast hlimit), hsocket]
    exact ⟨hlength, List.getElem?_concat_length⟩
  · replace ht : (if limit ≤ s.connections.length then _ else _) = some t := ht
    rw [if_neg hlimit] at ht
    obtain rfl := Option.some.inj ht
    rw [if_neg (by rw [hlength]; exact_mod_cast hlimit)]
    exact ⟨hlength, List.getElem?_concat_length⟩

/-- **The handler of the page is one of all handlers**: what it does with the rows of the replay is
left out there, and every other step is one of them. -/
theorem websocketEndpoint_steps (hk : v.handlers[n]? = some (pcOf k.pc))
    (hlength : v.activeConnections.length = s.connections.length)
    (ht : Viewers.websocketEndpoint session s k raised = some t) :
    ∃ k', t.socket = some k' ∧
      ((pcOf k'.pc = pcOf k.pc ∧ t.connections = s.connections) ∨
        ∃ a v', ViewerLimit.step limit v a = some v' ∧ v'.handlers[n]? = some (pcOf k'.pc) ∧
          v'.activeConnections.length = t.connections.length) := by
  obtain ⟨hn, -⟩ := List.getElem?_eq_some_iff.1 hk
  have hgoto (pc : ViewerLimit.Pc) : (v.goto n pc).handlers[n]? = some pc :=
    List.getElem?_set_self hn
  rw [Viewers.websocketEndpoint.eq_def] at ht
  split at ht <;> rename_i hpc
  · obtain rfl := Option.some.inj ht
    refine ⟨_, rfl, Or.inr ⟨.accepted n (some session.val),
      ViewerLimit.connect v n (some session.val),
      ?_, ?_, ?_⟩⟩
    · rw [ViewerLimit.step, if_pos (by rw [hk, hpc]; rfl)]
    · have hactive : ((some session.val).getD "" ≠ "") = True := eq_true session.property
      rw [ViewerLimit.connect]
      simp only [hactive, if_true]
      exact hgoto .starting
    · show (v.activeConnections ++ [n]).length = (s.connections ++ [k.conn]).length
      rw [List.length_append, List.length_append, hlength]
      rfl
  · obtain rfl := Option.some.inj ht
    refine ⟨_, rfl, Or.inr ⟨.started n false, v.goto n .replaying, ?_, hgoto _, hlength⟩⟩
    rw [ViewerLimit.step, if_pos (by rw [hk, hpc]; rfl)]
    rfl
  · split at ht
    · obtain rfl := Option.some.inj ht
      refine ⟨_, rfl, Or.inr ⟨.replayed n, v.goto n .receiving, ?_, hgoto _, hlength⟩⟩
      rw [ViewerLimit.step, if_pos (by rw [hk, hpc]; rfl)]
    · obtain rfl := Option.some.inj ht
      exact ⟨_, rfl, Or.inl ⟨by rw [hpc]; rfl, rfl⟩⟩
  · obtain rfl := Option.some.inj ht
    refine ⟨_, rfl, Or.inr ⟨.replayed n, v.goto n .receiving, ?_, hgoto _, hlength⟩⟩
    rw [ViewerLimit.step, if_pos (by rw [hk, hpc]; rfl)]
  · obtain rfl := Option.some.inj ht
    exact ⟨_, rfl, Or.inl ⟨by rw [hpc]; rfl, rfl⟩⟩
  · contradiction

end Endpoint

end LiveSTT.OneGateway
