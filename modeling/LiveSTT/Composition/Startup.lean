import LiveSTT.Composition.SessionBar

/-!
# The start of api-gateway and its KV handles

`lifespan` creates the task of `_kv_connect`, subscribes, runs the retention once, and sets
`app.state.session_kv` and `config_kv` to `None` at the end: `_kv_connect` updates them. But the two
run at the same time. Each call `lifespan` awaits lets `_kv_connect` go on, and if it has assigned
its buckets by then, they are overwritten, and the task does not come back.

`handles_of_started` decides it by one bit, whether the buckets are assigned when the reset comes.
If they are, the handles are `None` for the rest of the process: every `GET /session/status` is
answered with "idle" and no `POST /session/start` is refused, whatever the entry `current` holds
(`blind_of_early`). If they are not, the handles are there from the moment `_kv_connect` has its
buckets, and a start is not published while the entry it reads is that of an active session.

The handlers of `system.session` change `_active_session_id` too. They do not touch the handles and
are not part of this system.
-/

namespace LiveSTT.Startup

open TransitionSystem
open SessionBar (buildStatusPayload startCommand)

/-! ### The two coroutines -/

/-- An attribute of `app.state`. -/
inductive Handle
  /-- It has not been set. -/
  | unset
  /-- It is `None`. -/
  | null
  | bucket
  deriving DecidableEq

/-- The subjects `lifespan` subscribes to. -/
inductive Subject
  | session
  | sttStatus
  | logs
  deriving DecidableEq

/-- Where `lifespan` is suspended. -/
inductive Lifespan
  /-- At `create_engine_and_tables`. -/
  | initializing
  /-- At `nats_client.connect`. -/
  | connecting
  /-- At the `pull_subscribe` of the transcripts. -/
  | pulling
  | subscribing (subject : Subject)
  /-- In `_run_session_retention`. -/
  | retaining
  /-- At its `yield`: requests are served. -/
  | serving
  /-- In its `finally`. -/
  | closing
  /-- An exception left it before the `try`. -/
  | failed
  deriving DecidableEq

/-- Where `_kv_connect` is suspended. -/
inductive Task
  /-- It has not been created. -/
  | absent
  /-- It has been created and has not begun. -/
  | scheduled
  /-- At the `key_value` of the session bucket. -/
  | opening
  /-- At the `key_value` of the config bucket. -/
  | openingConfig
  /-- At the get of `current`, which returns `entry` or raises. -/
  | recovering (entry : Option Json)
  | sleeping
  /-- It has returned with its buckets. -/
  | connected
  /-- It has returned on the stop event, or is cancelled. -/
  | ended

/-- It has assigned its buckets. -/
def Task.assigned : Task → Bool
  | .recovering _ | .connected => true
  | _ => false

/-! ### The requests -/

/-- A request, suspended at a call. -/
inductive Request
  /-- `_build_status_payload` at the get of `current`, which returns `entry` or raises. -/
  | reading (entry : Option Json)
  /-- `_build_status_payload` at the get of `silence_timeout_s`. -/
  | configuring (entry : Option Json) (silenceTimeoutS : Option ℤ)
  /-- `session_start` at the get of `current`, which returns `entry` or raises. -/
  | checking (label : String) (entry : Option Json)
  /-- `session_start` at the publish of its command. -/
  | commanding

inductive Answer
  | status (payload : Dict)
  /-- 409: session_already_active. -/
  | alreadyActive (id : Json)
  /-- The start command is published. -/
  | commanded
  /-- 500: an exception left the handler. -/
  | failed

structure State where
  lifespan : Lifespan := .initializing
  kv : Task := .absent
  stopEvent : Bool := false
  /-- `app.state.session_kv`. -/
  sessionKv : Handle := .unset
  /-- `app.state.config_kv`. -/
  configKv : Handle := .unset
  /-- `_active_session_id`. -/
  activeSessionId : Json := .null
  /-- The entry `current`, parsed. Nothing if it is not there or is not JSON. -/
  current : Option Json := none
  /-- The entry `silence_timeout_s`, as an integer. Nothing if it is not there or is not one. -/
  silenceTimeoutS : Option ℤ := none
  requests : List Request := []
  answers : List Answer := []
  /-- The commands published on `session.control`. -/
  commands : List Json := []

namespace State

def suspend (s : State) (q : Request) : State := { s with requests := s.requests ++ [q] }

def reply (s : State) (a : Answer) : State := { s with answers := s.answers ++ [a] }

end State

/-! ### Steps -/

/-- The session id of an entry whose state is active. -/
def activeSession (entry : Option Json) : Option Json :=
  match entry with
  | some (.obj data) =>
    if (Dict.getOr data "state" .null).isStr "active" then some (Dict.getOr data "session_id" .null)
    else none
  | _ => none

/-- `lifespan`, when the call it awaits ends. -/
def lifespanStep (s : State) (r : Reply) : Option State :=
  -- An exception in the `try` leads to the `finally`, which sets the stop event.
  let go (t : State) : State :=
    if r.raised then { s with lifespan := .closing, stopEvent := true } else t
  match s.lifespan with
  | .initializing => some { s with lifespan := if r.raised then .failed else .connecting }
  | .connecting => some (go { s with lifespan := .pulling })
  | .pulling => some (go { s with lifespan := .subscribing .session, kv := .scheduled })
  | .subscribing .session => some (go { s with lifespan := .subscribing .sttStatus })
  | .subscribing .sttStatus => some (go { s with lifespan := .subscribing .logs })
  | .subscribing .logs => some (go { s with lifespan := .retaining })
  -- `_run_session_retention` catches what its calls raise.
  | .retaining => some { s with lifespan := .serving, sessionKv := .null, configKv := .null }
  | .serving | .closing | .failed => none

/-- `_kv_connect`, when the call it awaits ends. -/
def kvConnect (s : State) (r : Reply) : Option State :=
  match s.kv with
  | .absent | .connected | .ended => none
  | .scheduled | .sleeping => some { s with kv := if s.stopEvent then .ended else .opening }
  | .opening => some { s with kv := if r.raised then .sleeping else .openingConfig }
  | .openingConfig =>
    some (if r.raised then { s with kv := .sleeping }
      else { s with kv := .recovering s.current, sessionKv := .bucket, configKv := .bucket })
  | .recovering entry =>
    some { s with
      kv := .connected
      activeSessionId := (activeSession (if r.raised then none else entry)).getD s.activeSessionId }

/-- `GET /session/status`. -/
def sessionStatus (s : State) : State :=
  match s.sessionKv with
  | .bucket => s.suspend (.reading s.current)
  | .null => s.reply (.status [("state", .str "idle")])
  | .unset => s.reply .failed

/-- `session_start` at its end; `r` ends the publish when it is answered. -/
def publishCommand (s : State) (label : String) (applied : Bool) : State :=
  State.suspend { s with
    commands :=
      if applied then s.commands ++ [.obj (startCommand label)] else s.commands } .commanding

/-- `POST /session/start`; `label` is that of the body, or `""`. -/
def sessionStart (s : State) (label : String) (applied : Bool) : State :=
  match s.sessionKv with
  | .bucket => s.suspend (.checking label s.current)
  | .null => publishCommand s label applied
  | .unset => s.reply .failed

/-- `_build_status_payload` at its end. -/
def statusAnswer (entry : Option Json) (silenceTimeoutS : ℤ) : Answer :=
  match entry with
  | none => .status (buildStatusPayload none silenceTimeoutS)
  | some (.obj data) => .status (buildStatusPayload (some data) silenceTimeoutS)
  | some _ => .failed

/-- A request goes on. `r` ends the call it is suspended at, `applied` says whether a command that
is published now gets through. -/
def resume (s : State) (q : Request) (r : Reply) (applied : Bool) : State :=
  match q with
  | .reading entry => s.suspend (.configuring (if r.raised then none else entry) s.silenceTimeoutS)
  | .configuring entry silenceTimeoutS =>
    s.reply (statusAnswer entry ((if r.raised then none else silenceTimeoutS).getD 300))
  | .checking label entry =>
    match activeSession (if r.raised then none else entry) with
    | some id => s.reply (.alreadyActive id)
    | none => publishCommand s label applied
  | .commanding => s.reply (if r.raised then .failed else .commanded)

inductive Action
  /-- The call that `lifespan` awaits ends. -/
  | lifespan (r : Reply)
  /-- The process is told to stop. -/
  | shutdown
  /-- The call that `_kv_connect` awaits ends. -/
  | kvConnect (r : Reply)
  /-- `lifespan` cancels `_kv_connect`. -/
  | cancel
  /-- Somebody writes the entry `current`, or deletes it. -/
  | put (entry : Option Json)
  /-- Somebody writes the entry `silence_timeout_s`. -/
  | configure (silenceTimeoutS : Option ℤ)
  | status
  | start (label : String) (applied : Bool)
  /-- The call of the `i`-th request in flight ends. -/
  | resume (i : ℕ) (r : Reply) (applied : Bool)

def step (s : State) : Action → Option State
  | .lifespan r => lifespanStep s r
  | .shutdown =>
    if s.lifespan = .serving then some { s with lifespan := .closing, stopEvent := true } else none
  | .kvConnect r => kvConnect s r
  | .cancel => if s.lifespan = .closing then some { s with kv := .ended } else none
  | .put entry => some { s with current := entry }
  | .configure silenceTimeoutS => some { s with silenceTimeoutS := silenceTimeoutS }
  | .status => if s.lifespan = .serving then some (sessionStatus s) else none
  | .start label applied =>
    if s.lifespan = .serving then some (sessionStart s label applied) else none
  | .resume i r applied =>
    if s.lifespan = .serving then
      s.requests[i]?.map fun q ↦ resume { s with requests := s.requests.eraseIdx i } q r applied
    else none

def system : TransitionSystem State Action where
  init s := s = { current := s.current, silenceTimeoutS := s.silenceTimeoutS }
  step := step

/-! ### What the steps do to the handles -/

section

variable {s t u v : State} {a : Action} {as : List Action} {r : Reply}

/-- A step of `_kv_connect` assigns the handles, or leaves them and whether it has done so. -/
theorem kvConnect_cases (ht : kvConnect s r = some t) :
    (s.kv.assigned = false ∧ t.kv.assigned = true ∧
      t = { s with kv := t.kv, sessionKv := .bucket, configKv := .bucket }) ∨
    (t.kv.assigned = s.kv.assigned ∧
      t = { s with kv := t.kv, activeSessionId := t.activeSessionId }) := by
  cases hkv : s.kv with
  | absent | connected | ended => simp [kvConnect, hkv] at ht
  | scheduled | sleeping =>
    rw [kvConnect, hkv] at ht
    obtain rfl := Option.some.inj ht
    refine Or.inr ⟨?_, rfl⟩
    cases hstop : s.stopEvent <;> simp [Task.assigned]
  | opening =>
    rw [kvConnect, hkv] at ht
    obtain rfl := Option.some.inj ht
    refine Or.inr ⟨?_, rfl⟩
    cases hr : r.raised <;> simp [Task.assigned]
  | openingConfig =>
    rw [kvConnect, hkv] at ht
    obtain rfl := Option.some.inj ht
    cases hr : r.raised with
    | false => exact Or.inl ⟨rfl, rfl, rfl⟩
    | true => exact Or.inr ⟨rfl, rfl⟩
  | recovering entry =>
    rw [kvConnect, hkv] at ht
    obtain rfl := Option.some.inj ht
    exact Or.inr ⟨rfl, rfl⟩

/-- What neither `_kv_connect` nor `lifespan` does leaves both coroutines and the handles. -/
structure Aside (s t : State) : Prop where
  lifespan : t.lifespan = s.lifespan
  kv : t.kv = s.kv
  sessionKv : t.sessionKv = s.sessionKv
  configKv : t.configKv = s.configKv

theorem aside_sessionStatus : Aside s (sessionStatus s) := by
  rw [sessionStatus]
  split <;> exact ⟨rfl, rfl, rfl, rfl⟩

theorem aside_sessionStart (label : String) (applied : Bool) :
    Aside s (sessionStart s label applied) := by
  rw [sessionStart]
  split <;> exact ⟨rfl, rfl, rfl, rfl⟩

/-- A handler that goes on reads the handles and assigns none. -/
theorem aside_resume (q : Request) (applied : Bool) : Aside s (resume s q r applied) := by
  cases q with
  | checking label entry =>
    rw [resume]
    split <;> exact ⟨rfl, rfl, rfl, rfl⟩
  | reading entry => exact ⟨rfl, rfl, rfl, rfl⟩
  | configuring entry silenceTimeoutS => exact ⟨rfl, rfl, rfl, rfl⟩
  | commanding => exact ⟨rfl, rfl, rfl, rfl⟩

/-- **One step while requests are served**: it is one of `_kv_connect`, or it leaves the handles, or
it ends the serving. -/
theorem step_cases (hs : s.lifespan = .serving) (ht : step s a = some t) :
    t.lifespan = .closing ∨ (∃ r, kvConnect s r = some t) ∨ Aside s t := by
  cases a with
  | lifespan r => simp [step, lifespanStep, hs] at ht
  | shutdown =>
    rw [step, if_pos hs] at ht
    obtain rfl := Option.some.inj ht
    exact Or.inl rfl
  | kvConnect r => exact Or.inr (Or.inl ⟨r, ht⟩)
  | cancel => simp [step, hs] at ht
  | put entry =>
    obtain rfl := Option.some.inj ht
    exact Or.inr (Or.inr ⟨rfl, rfl, rfl, rfl⟩)
  | configure silenceTimeoutS =>
    obtain rfl := Option.some.inj ht
    exact Or.inr (Or.inr ⟨rfl, rfl, rfl, rfl⟩)
  | status =>
    rw [step, if_pos hs] at ht
    obtain rfl := Option.some.inj ht
    exact Or.inr (Or.inr aside_sessionStatus)
  | start label applied =>
    rw [step, if_pos hs] at ht
    obtain rfl := Option.some.inj ht
    exact Or.inr (Or.inr (aside_sessionStart label applied))
  | resume i r applied =>
    rw [step, if_pos hs] at ht
    obtain ⟨q, -, rfl⟩ := Option.map_eq_some_iff.1 ht
    obtain ⟨h₁, h₂, h₃, h₄⟩ := aside_resume
      (s := { s with requests := s.requests.eraseIdx i }) (r := r) q applied
    exact Or.inr (Or.inr ⟨h₁, h₂, h₃, h₄⟩)

/-- The process that is closing does not serve again. -/
theorem closing_of_step (hs : s.lifespan = .closing) (ht : step s a = some t) :
    t.lifespan = .closing := by
  cases a with
  | lifespan r => simp [step, lifespanStep, hs] at ht
  | kvConnect r =>
    rcases kvConnect_cases ht with ⟨-, -, ht⟩ | ⟨-, ht⟩
    · rw [ht]; exact hs
    · rw [ht]; exact hs
  | cancel =>
    rw [step, if_pos hs] at ht
    obtain rfl := Option.some.inj ht
    exact hs
  | put entry =>
    obtain rfl := Option.some.inj ht
    exact hs
  | configure silenceTimeoutS =>
    obtain rfl := Option.some.inj ht
    exact hs
  | shutdown | status | start label applied | resume i r applied => simp [step, hs] at ht

/-- A step goes on serving, or ends it. -/
theorem serving_or_closing (hs : s.lifespan = .serving) (ht : step s a = some t) :
    t.lifespan = .serving ∨ t.lifespan = .closing := by
  rcases step_cases hs ht with hclosing | ⟨r, hkv⟩ | haside
  · exact Or.inr hclosing
  · rcases kvConnect_cases hkv with ⟨-, -, ht⟩ | ⟨-, ht⟩
    · exact Or.inl (by rw [ht]; exact hs)
    · exact Or.inl (by rw [ht]; exact hs)
  · exact Or.inl (haside.lifespan.trans hs)

/-- **The rule for the time in which requests are served**: what the steps preserve that do not end
it. -/
theorem serving_invariant {I : State → Prop} {G : State → Action → Prop}
    (hstep : ∀ {s a t}, s.lifespan = .serving → I s → step s a = some t →
      t.lifespan = .serving → I t)
    (hrun : system.Run G v as t) (hv : v.lifespan = .serving) (hI : I v)
    (ht : t.lifespan = .serving) : I t := by
  have hor : t.lifespan = .closing ∨ (t.lifespan = .serving ∧ I t) := by
    refine hrun.invariant (I := fun s ↦ s.lifespan = .closing ∨ (s.lifespan = .serving ∧ I s)) ?_
      (Or.inr ⟨hv, hI⟩)
    intro s a t h _ hst
    rcases h with hs | ⟨hs, hIs⟩
    · exact Or.inl (closing_of_step hs hst)
    · rcases serving_or_closing hs hst with hserving | hclosing
      · exact Or.inr ⟨hserving, hstep hs hIs hst hserving⟩
      · exact Or.inl hclosing
  rcases hor with hclosing | ⟨-, hI⟩
  · rw [ht] at hclosing
    contradiction
  · exact hI

/-! ### Until the reset -/

/-- `lifespan` has come to its `yield`, or has failed. -/
def Lifespan.past : Lifespan → Bool
  | .serving | .closing | .failed => true
  | _ => false

/-- `lifespan` has created the task of `_kv_connect`. -/
def Lifespan.created : Lifespan → Bool
  | .initializing | .connecting | .pulling => false
  | _ => true

/-- Until `lifespan` resets the handles they are as `_kv_connect` left them, and nothing is
served. -/
structure Fresh (s : State) : Prop where
  absent : s.lifespan.created = false → s.kv = .absent
  sessionKv : s.sessionKv = if s.kv.assigned then .bucket else .unset
  configKv : s.configKv = if s.kv.assigned then .bucket else .unset
  requests : s.requests = []
  answers : s.answers = []
  commands : s.commands = []

/-- `_kv_connect` assigns both handles once it has opened both buckets. -/
theorem Fresh.kvConnect (h : Fresh s) (ht : kvConnect s r = some t) : Fresh t := by
  have hcreated : s.lifespan.created = true := by
    by_contra hnot
    simp [Startup.kvConnect, h.absent (by simpa using hnot)] at ht
  rcases kvConnect_cases ht with ⟨-, hassigned, ht⟩ | ⟨hassigned, ht⟩
  · rw [ht]
    refine ⟨fun hnot ↦ ?_, by simp [hassigned],
      by simp [hassigned], h.requests, h.answers, h.commands⟩
    rw [show s.lifespan.created = false from hnot] at hcreated
    contradiction
  · rw [ht]
    refine ⟨fun hnot ↦ ?_, ?_, ?_, h.requests, h.answers, h.commands⟩
    · rw [show s.lifespan.created = false from hnot] at hcreated
      contradiction
    · show s.sessionKv = _
      rw [h.sessionKv, ← hassigned]
    · show s.configKv = _
      rw [h.configKv, ← hassigned]

/-- Before its `yield`, `lifespan` only moves on, or creates the task as well. -/
theorem lifespanStep_cases (ht : lifespanStep s r = some t) (hpast : t.lifespan.past = false) :
    (t.lifespan.created = s.lifespan.created ∧ t = { s with lifespan := t.lifespan }) ∨
      (s.lifespan = .pulling ∧
        t = { s with lifespan := .subscribing .session, kv := .scheduled }) := by
  cases hr : r.raised with
  | true =>
    rw [lifespanStep.eq_def] at ht
    simp only [hr, if_true] at ht
    split at ht
    all_goals try contradiction
    all_goals
      obtain rfl := Option.some.inj ht
      simp [Lifespan.past] at hpast
  | false =>
    rw [lifespanStep.eq_def] at ht
    simp only [hr, Bool.false_eq_true, if_false] at ht
    split at ht
    all_goals try contradiction
    all_goals obtain rfl := Option.some.inj ht
    case h_3 hl => exact Or.inr ⟨hl, rfl⟩
    case h_7 => simp [Lifespan.past] at hpast
    all_goals
      rename_i hl
      exact Or.inl ⟨by rw [hl]; rfl, rfl⟩

/-- `lifespan` has not come to the reset. -/
theorem Fresh.lifespanStep (h : Fresh s) (ht : lifespanStep s r = some t)
    (hpast : t.lifespan.past = false) : Fresh t := by
  rcases lifespanStep_cases ht hpast with ⟨hcreated, ht⟩ | ⟨hl, ht⟩
  · rw [ht]
    refine ⟨fun hnot ↦ h.absent ?_, h.sessionKv, h.configKv, h.requests, h.answers, h.commands⟩
    rwa [← hcreated]
  · have hkv : s.kv = .absent := h.absent (by rw [hl]; rfl)
    have hsession : s.sessionKv = .unset := by simpa [hkv, Task.assigned] using h.sessionKv
    have hconfig : s.configKv = .unset := by simpa [hkv, Task.assigned] using h.configKv
    rw [ht]
    exact ⟨fun hnot ↦ by simp [Lifespan.created] at hnot, hsession, hconfig, h.requests, h.answers,
      h.commands⟩

/-- Once it has come to its `yield`, `lifespan` does not go back. -/
theorem past_of_step (hs : s.lifespan.past = true) (ht : step s a = some t) :
    t.lifespan.past = true := by
  by_cases hserving : s.lifespan = .serving
  · rcases step_cases hserving ht with hclosing | ⟨r, hkv⟩ | haside
    · rw [hclosing]
      rfl
    · rcases kvConnect_cases hkv with ⟨-, -, ht⟩ | ⟨-, ht⟩
      · rw [ht]; exact hs
      · rw [ht]; exact hs
    · rw [haside.lifespan]
      exact hs
  · cases a with
    | lifespan r =>
      cases hl : s.lifespan <;> simp [step, lifespanStep, hl, Lifespan.past] at ht hs
    | kvConnect r =>
      rcases kvConnect_cases ht with ⟨-, -, ht⟩ | ⟨-, ht⟩
      · rw [ht]; exact hs
      · rw [ht]; exact hs
    | cancel =>
      obtain ⟨-, rfl⟩ : s.lifespan = .closing ∧ { s with kv := .ended } = t := by
        simpa [step] using ht
      exact hs
    | put entry =>
      obtain rfl := Option.some.inj ht
      exact hs
    | configure silenceTimeoutS =>
      obtain rfl := Option.some.inj ht
      exact hs
    | shutdown | status | start label applied | resume i r applied => simp [step, hserving] at ht

/-- **Until the reset**, in every run. -/
theorem fresh_of_reachable (hs : system.Reachable always s) (hpast : s.lifespan.past = false) :
    Fresh s := by
  refine (Inductive.reachable (I := fun s ↦ s.lifespan.past = false → Fresh s) ⟨?_, ?_⟩ hs) hpast
  · intro s hs _
    rw [show s = { current := s.current, silenceTimeoutS := s.silenceTimeoutS } from hs]
    exact ⟨fun _ ↦ rfl, rfl, rfl, rfl, rfl, rfl⟩
  · intro s a t h _ (ht : step s a = some t) hpast
    have hbefore : s.lifespan.past = false := by
      by_contra hnot
      rw [past_of_step (by simpa using hnot) ht] at hpast
      contradiction
    have hfresh := h hbefore
    cases a with
    | lifespan r => exact hfresh.lifespanStep ht hpast
    | kvConnect r => exact hfresh.kvConnect ht
    | put entry =>
      obtain rfl := Option.some.inj ht
      obtain ⟨h₁, h₂, h₃, h₄, h₅, h₆⟩ := hfresh
      exact ⟨h₁, h₂, h₃, h₄, h₅, h₆⟩
    | configure silenceTimeoutS =>
      obtain rfl := Option.some.inj ht
      obtain ⟨h₁, h₂, h₃, h₄, h₅, h₆⟩ := hfresh
      exact ⟨h₁, h₂, h₃, h₄, h₅, h₆⟩
    | cancel =>
      have hclosing : s.lifespan = .closing := by
        by_contra hnot
        simp [step, hnot] at ht
      rw [hclosing] at hbefore
      contradiction
    | shutdown | status | start label applied | resume i r applied =>
      have hserving : s.lifespan ≠ .serving := by
        intro hserving
        rw [hserving] at hbefore
        contradiction
      simp [step, hserving] at ht

/-! ### After the reset -/

/-- The handles, once `lifespan` has reset them and `_kv_connect` has not assigned them before. -/
structure Late (s : State) : Prop where
  sessionKv : s.sessionKv = if s.kv.assigned then .bucket else .null
  configKv : s.configKv = if s.kv.assigned then .bucket else .null

/-- Once `lifespan` serves, only `_kv_connect` can change the handles. -/
theorem Late.step (h : Late s) (hs : s.lifespan = .serving) (ht : step s a = some t)
    (hserving : t.lifespan = .serving) : Late t := by
  rcases step_cases hs ht with hclosing | ⟨r, hkv⟩ | haside
  · rw [hserving] at hclosing
    contradiction
  · rcases kvConnect_cases hkv with ⟨-, hassigned, ht⟩ | ⟨hassigned, ht⟩
    · rw [ht]
      exact ⟨by simp [hassigned], by simp [hassigned]⟩
    · rw [ht]
      exact ⟨by simpa [hassigned] using h.sessionKv, by simpa [hassigned] using h.configKv⟩
  · exact ⟨by rw [haside.sessionKv, haside.kv, h.sessionKv],
      by rw [haside.configKv, haside.kv, h.configKv]⟩

/-- The answer of a gateway that sees no entry. -/
def Answer.blind : Answer → Prop
  | .status payload => payload = [("state", .str "idle")]
  | .alreadyActive _ => False
  | .commanded | .failed => True

/-- The handles, once `lifespan` has reset them and `_kv_connect` has assigned them before. -/
structure Early (s : State) : Prop where
  assigned : s.kv.assigned = true
  sessionKv : s.sessionKv = .null
  configKv : s.configKv = .null
  requests : ∀ q ∈ s.requests, q = .commanding
  answers : ∀ a ∈ s.answers, a.blind

theorem Early.suspend (h : Early s) : Early (s.suspend .commanding) := by
  obtain ⟨h₁, h₂, h₃, hrequests, h₅⟩ := h
  refine ⟨h₁, h₂, h₃, fun q hq ↦ ?_, h₅⟩
  rcases List.mem_append.1 hq with hq | hq
  · exact hrequests q hq
  · exact List.mem_singleton.1 hq

/-- An answer without the entry may be added. -/
theorem Early.reply (h : Early s) {answer : Answer} (hblind : answer.blind) :
    Early (s.reply answer) := by
  obtain ⟨h₁, h₂, h₃, h₄, hanswers⟩ := h
  refine ⟨h₁, h₂, h₃, h₄, fun x hx ↦ ?_⟩
  rcases List.mem_append.1 hx with hx | hx
  · exact hanswers x hx
  · rw [List.mem_singleton.1 hx]
    exact hblind

theorem Early.publishCommand (h : Early s) (label : String) (applied : Bool) :
    Early (publishCommand s label applied) := by
  obtain ⟨h₁, h₂, h₃, h₄, h₅⟩ := h
  exact Early.suspend ⟨h₁, h₂, h₃, h₄, h₅⟩

/-- The command that a step publishes if the gateway sees no entry. -/
def Action.started : Action → Option Json
  | .start label true => some (.obj (startCommand label))
  | _ => none

/-- `_kv_connect` is over, so that the handles stay null; a start is published all the same, as
nothing tells the gateway of a session. -/
theorem Early.serves (h : Early s) (hs : s.lifespan = .serving) (ht : step s a = some t)
    (hserving : t.lifespan = .serving) : Early t ∧ t.commands = s.commands ++ a.started.toList := by
  cases a with
  | lifespan r => simp [step, lifespanStep, hs] at ht
  | shutdown =>
    rw [step, if_pos hs] at ht
    obtain rfl := Option.some.inj ht
    contradiction
  | kvConnect r =>
    rcases kvConnect_cases ht with ⟨hnot, -⟩ | ⟨hassigned, ht⟩
    · rw [h.assigned] at hnot
      contradiction
    · rw [ht]
      exact ⟨⟨hassigned.trans h.assigned, h.sessionKv, h.configKv, h.requests, h.answers⟩,
        (List.append_nil _).symm⟩
  | cancel => simp [step, hs] at ht
  | put entry =>
    obtain rfl := Option.some.inj ht
    obtain ⟨h₁, h₂, h₃, h₄, h₅⟩ := h
    exact ⟨⟨h₁, h₂, h₃, h₄, h₅⟩, (List.append_nil _).symm⟩
  | configure silenceTimeoutS =>
    obtain rfl := Option.some.inj ht
    obtain ⟨h₁, h₂, h₃, h₄, h₅⟩ := h
    exact ⟨⟨h₁, h₂, h₃, h₄, h₅⟩, (List.append_nil _).symm⟩
  | status =>
    rw [step, if_pos hs, sessionStatus, h.sessionKv] at ht
    obtain rfl := Option.some.inj ht
    exact ⟨h.reply rfl, (List.append_nil _).symm⟩
  | start label applied =>
    rw [step, if_pos hs, sessionStart, h.sessionKv] at ht
    obtain rfl := Option.some.inj ht
    refine ⟨h.publishCommand label applied, ?_⟩
    cases applied with
    | true => rfl
    | false => exact (List.append_nil _).symm
  | resume i r applied =>
    rw [step, if_pos hs] at ht
    obtain ⟨q, hq, rfl⟩ := Option.map_eq_some_iff.1 ht
    obtain rfl := h.requests q (List.mem_of_getElem? hq)
    obtain ⟨h₁, h₂, h₃, hrequests, h₅⟩ := h
    have hearly : Early { s with requests := s.requests.eraseIdx i } :=
      ⟨h₁, h₂, h₃, fun q hq ↦ hrequests q (List.mem_of_mem_eraseIdx hq), h₅⟩
    refine ⟨hearly.reply ?_, (List.append_nil _).symm⟩
    split <;> trivial

/-- The state that `lifespan` starts to serve in, early. -/
theorem early_of_started (hu : system.Reachable always u) (hlast : u.lifespan = .retaining)
    (hassigned : u.kv.assigned = true) :
    Early { u with lifespan := .serving, sessionKv := .null, configKv := .null } := by
  have hfresh : Fresh u := fresh_of_reachable hu (by rw [hlast]; rfl)
  exact ⟨hassigned, rfl, rfl, by simp [hfresh.requests], by simp [hfresh.answers]⟩

theorem late_of_started (hassigned : u.kv.assigned = false) :
    Late { u with lifespan := .serving, sessionKv := .null, configKv := .null } :=
  ⟨by simp [hassigned], by simp [hassigned]⟩

/-- **The startup race.** Take any run up to the last await of `lifespan`, and go on while requests
are served. If `_kv_connect` had its buckets by then, the handles are `None` for good. If not, they
are there exactly as soon as it has them. -/
theorem handles_of_started (hu : system.Reachable always u) (hlast : u.lifespan = .retaining)
    (hv : step u (.lifespan r) = some v) (hrun : system.Run always v as t)
    (ht : t.lifespan = .serving) :
    (u.kv.assigned = true → t.sessionKv = .null ∧ t.configKv = .null) ∧
      (u.kv.assigned = false → (t.sessionKv = .bucket ↔ t.kv.assigned = true) ∧
        (t.configKv = .bucket ↔ t.kv.assigned = true)) := by
  rw [step, lifespanStep, hlast] at hv
  obtain rfl := Option.some.inj hv
  constructor
  · intro hassigned
    have hearly : Early t :=
      serving_invariant (fun hs h hst hserving ↦ (h.serves hs hst hserving).1)
      hrun rfl (early_of_started hu hlast hassigned) ht
    exact ⟨hearly.sessionKv, hearly.configKv⟩
  · intro hassigned
    have hlate : Late t := serving_invariant (fun hs h hst hserving ↦ Late.step h hs hst hserving)
      hrun rfl (late_of_started hassigned) ht
    rw [hlate.sessionKv, hlate.configKv]
    cases t.kv.assigned <;> simp

/-- A run in which `_kv_connect` has its buckets while `lifespan` still subscribes. -/
def earlyRun : List Action :=
  [.put (some (.obj [("state", .str "active"), ("session_id", .str "s")])), .lifespan .ok,
    .lifespan .ok,
    .lifespan .ok, .kvConnect .ok, .kvConnect .ok, .kvConnect .ok, .lifespan .ok, .lifespan .ok,
    .lifespan .ok, .kvConnect .ok]

/-- The state after the labels. -/
def after (as : List Action) : State := (system.exec always {} as).getD {}

/-- It finds the entry of an active session, and the handles are `None` for all that. -/
theorem handles_of_started_early : ∃ t, system.Reachable always t ∧ t.kv.assigned = true ∧
    (activeSession t.current).isSome ∧ t.sessionKv = .null ∧ t.configKv = .null := by
  have hrun : system.Run always {} earlyRun (after earlyRun) := run_of_exec rfl
  have hreach := (Reachable.of_init (M := system) (G := always) (s := {}) rfl).run hrun
  obtain ⟨hsession, hconfig⟩ := (handles_of_started (r := .ok) hreach rfl rfl Run.nil rfl).1 rfl
  exact ⟨_, hreach.step (a := .lifespan .ok) trivial rfl, rfl, rfl, hsession, hconfig⟩

end

end LiveSTT.Startup
