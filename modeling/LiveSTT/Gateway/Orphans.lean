import LiveSTT.Gateway.ForeignKey

/-!
# The listing of sessions and the session that is running

`GET /admin/sessions` closes the rows without `stopped_at` as "interrupted", all but the one of
`_active_session_id`. That is not the session that the KV entry `current` reports as active, but a
copy in memory: it is empty from a restart until the entry is recovered, it follows lifecycle events
that come after the entry was put, and the statement that was built with it is executed later. So a
listing can close the row of the running session (`not_keeps`).

`keeps_iff` says when: a run keeps the row exactly if, at each update of a listing, the session that
the entry reports is the one the statement was built with, or has no open row. This is so in
particular where each listing begins while the two agree, and the entry does not come to report
another session before the listing has made its update (`run_current_of_timely`).

The row of a session is closed by a stop of it too, and that is no matter here: `keeps` is about the
steps of requests. The two copies may differ for as long as an event is under way, and a listing
that begins and ends in that time may close the row or not, by the order of its two calls and the
event.
-/

namespace LiveSTT.Orphans

open TransitionSystem
open AudioProducer (KvEntry)
open SessionStore (SessionModel)

/-! ### The tables and the KV entry -/

structure State where
  store : SessionStore.State := {}
  /-- The KV entry `current`. -/
  current : Option KvEntry := none
  /-- What the get of `_kv_connect` has read, until it is answered. -/
  got : Option (Option KvEntry) := none

inductive Action
  /-- A step of api-gateway, but for the recovery. -/
  | gateway (a : SessionStore.Action)
  /-- The KV entry is put or deleted. -/
  | kv (entry : Option KvEntry)
  /-- The get of `_kv_connect`. -/
  | get (raised : Bool)
  /-- It is answered. -/
  | recover

def step (count days : ℤ) (s : State) : Action → Option State
  | .gateway (.connect _) => none
  | .gateway (.restart committed) => (SessionStore.step count days s.store (.restart committed)).map
      fun store ↦ { s with store := store, got := none }
  | .gateway a => (SessionStore.step count days s.store a).map fun store ↦ { s with store := store }
  | .kv entry => some { s with current := entry }
  | .get raised =>
    if s.store.connected ∨ s.got.isSome then none
    else some { s with got := some (if raised then none else s.current) }
  | .recover =>
    match s.got with
    | none => none
    | some entry => (SessionStore.step count days s.store (.connect entry)).map
        fun store ↦ { s with store := store, got := none }

def system (count days : ℤ) : TransitionSystem State Action where
  init s := s = {}
  step := step count days

/-- The session that the entry reports as active. -/
def reportedBy (entry : Option KvEntry) : Option String :=
  (SessionAdmin.refusedFor entry).map Subtype.val

/-! ### The property -/

/-- The row is closed in between: it has a `stopped_at` that it had not. -/
def Closes (s t : SessionStore.State) (id : String) : Prop :=
  ∃ (i : ℕ) (row row' : SessionModel), s.sessions[i]? = some row ∧ t.sessions[i]? = some row' ∧
    row.id = id ∧ row.stoppedAt = none ∧ row'.stoppedAt ≠ none

/-- If the step is one of a request, it does not close the row of the session that is reported. -/
def keeps (count days : ℤ) (s : State) (a : Action) : Prop :=
  ∀ i r t id, a = .gateway (.request i r) → step count days s a = some t →
    reportedBy s.current = some id → ¬ Closes s.store t.store id

/-- The session has a row without `stopped_at`. -/
def Running (s : SessionStore.State) (id : String) : Prop :=
  ∃ row ∈ s.sessions, row.id = id ∧ row.stoppedAt = none

/-- If the step is the update of a listing, the session that is reported is the one the statement
was built with, or has no open row. -/
def current (s : State) (a : Action) : Prop :=
  ∀ i r active id, a = .gateway (.request i r) → r.applied = true →
    s.store.requests[i]? = some (.closing active) → reportedBy s.current = some id →
    active.getD "" = id ∨ ¬ Running s.store id

/-- A listing that is under way was built with the session. -/
def names (id : String) : SessionStore.Request → Bool
  | .closing active => active.getD "" = id
  | _ => true

/-- A listing begins while `_active_session_id` is the session that is reported, and the entry does
not come to report another one while a listing has still to make its update. -/
def timely (s : State) : Action → Bool
  | .gateway .list => (reportedBy s.current).all fun id ↦ s.store.activeSessionId.getD "" = id
  | .kv entry => (reportedBy entry).all fun id ↦ s.store.requests.all (names id)
  | _ => true

section

variable {count days : ℤ} {s t : State} {a : Action}

/-! ### One step of a request -/

theorem not_closes_of_same {s t : SessionStore.State} {id : String} (ht : t.sessions = s.sessions) :
    ¬ Closes s t id := by
  rintro ⟨i, row, row', hrow, hrow', -, hopen, hclosed⟩
  rw [ht] at hrow'
  obtain rfl := Option.some.inj (hrow.symm.trans hrow')
  exact hclosed hopen

/-- The requests of a rename close no row. -/
theorem not_closes_relabeling {s u : SessionStore.State} {id sessionId : String} {label : Json}
    {r : Reply} (hu : u.sessions = s.sessions) :
    ¬ Closes s (SessionStore.requestStep u (.relabeling sessionId label) r) id := by
  rw [SessionStore.requestStep, SessionStore.State.update]
  split
  · rintro ⟨i, row, row', hrow, hrow', -, hopen, hclosed⟩
    rw [hu, List.getElem?_map, hrow, Option.map_some, Option.some.injEq] at hrow'
    refine hclosed ?_
    rw [← hrow']
    split
    · exact hopen
    · exact hopen
  · exact not_closes_of_same hu

theorem not_closes_finding {s u : SessionStore.State} {id sessionId : String} {label : Json}
    {r : Reply} (hu : u.sessions = s.sessions) :
    ¬ Closes s (SessionStore.requestStep u (.finding sessionId label) r) id := by
  rw [SessionStore.requestStep]
  split
  · exact not_closes_of_same hu
  · exact not_closes_of_same hu

/-- The update of a listing closes every open row but that of the session it was built with. -/
theorem closes_closing_iff {s u : SessionStore.State} {active : Option String} {r : Reply}
    {id : String} (hu : u.sessions = s.sessions) :
    Closes s (SessionStore.requestStep u (.closing active) r) id ↔
      r.applied = true ∧ active.getD "" ≠ id ∧ Running s id := by
  rw [SessionStore.requestStep, SessionStore.closeOrphans]
  split
  · rename_i hr
    rw [hu]
    constructor
    · rintro ⟨i, row, row', hrow, hrow', rfl, hopen, hclosed⟩
      refine ⟨hr, fun hactive ↦ hclosed ?_, row, List.mem_of_getElem? hrow, rfl, hopen⟩
      rw [List.getElem?_map, hrow, Option.map_some, Option.some.injEq] at hrow'
      rw [← hrow', if_neg fun h ↦ h.2 hactive.symm]
      exact hopen
    · rintro ⟨-, hactive, row, hrow, rfl, hopen⟩
      obtain ⟨i, hi⟩ := List.getElem?_of_mem hrow
      refine ⟨i, row, { row with stoppedAt := some "interrupted" }, hi, ?_, rfl, hopen, by simp⟩
      rw [List.getElem?_map, hi, Option.map_some, if_pos ⟨hopen, Ne.symm hactive⟩]
  · rename_i hr
    exact iff_of_false (not_closes_of_same hu) fun h ↦ hr h.1

/-- A request of a rename has no part in either. -/
theorem keeps_iff_current_of_rename {i : ℕ} {r : Reply} {q : SessionStore.Request}
    (hq : s.store.requests[i]? = some q) (hrename : ∀ active, q ≠ .closing active)
    (ht : step count days s (.gateway (.request i r)) = some t)
    (hcloses : ∀ id, ¬ Closes s.store t.store id) :
    keeps count days s (.gateway (.request i r)) ↔ current s (.gateway (.request i r)) := by
  refine iff_of_true (fun i' r' t' id _ ht' _ ↦ ?_) fun i' r' active id hsame _ hq' _ ↦ ?_
  · obtain rfl := Option.some.inj (ht.symm.trans ht')
    exact hcloses id
  · obtain ⟨rfl, rfl⟩ : i = i' ∧ r = r' := by simpa using hsame
    exact absurd (Option.some.inj (hq.symm.trans hq')) (hrename active)

/-- A request keeps the row of the session that is reported exactly if it is one of a rename, or of
a listing whose statement names the session. -/
theorem keeps_iff_current (s : State) (a : Action) (h : (step count days s a).isSome = true) :
    keeps count days s a ↔ current s a := by
  obtain ⟨t, ht⟩ := Option.isSome_iff_exists.1 h
  by_cases hrequest : ∃ i r, a = .gateway (.request i r)
  · obtain ⟨i, r, rfl⟩ := hrequest
    have hstep : (SessionStore.step count days s.store (.request i r)).map
        (fun store ↦ { s with store := store }) = some t := ht
    obtain ⟨store, hstore, rfl⟩ := Option.map_eq_some_iff.1 hstep
    obtain ⟨q, hq, rfl⟩ := Option.map_eq_some_iff.1 hstore
    have herased : { s.store with requests := s.store.requests.eraseIdx i }.sessions =
        s.store.sessions := rfl
    cases q with
    | closing active =>
      constructor
      · intro hkeeps i' r' active' id hsame happlied hq' hid
        obtain ⟨rfl, rfl⟩ : i = i' ∧ r = r' := by simpa using hsame
        obtain rfl : active = active' := by simpa using hq.symm.trans hq'
        by_contra hnot
        rw [not_or, not_not] at hnot
        exact hkeeps i r _ id rfl ht hid ((closes_closing_iff herased).2 ⟨happlied, hnot⟩)
      · intro hcurrent i' r' t' id hsame ht' hid hcloses
        obtain rfl := Option.some.inj (ht.symm.trans ht')
        obtain ⟨happlied, hne, hrunning⟩ := (closes_closing_iff herased).1 hcloses
        rcases hcurrent i r active id rfl happlied hq hid with heq | hnot
        · exact hne heq
        · exact hnot hrunning
    | finding sessionId label =>
      exact keeps_iff_current_of_rename hq (by simp) ht fun _ ↦ not_closes_finding herased
    | relabeling sessionId label =>
      exact keeps_iff_current_of_rename hq (by simp) ht fun _ ↦ not_closes_relabeling herased
  · exact iff_of_true (fun i r _ _ hsame ↦ absurd ⟨i, r, hsame⟩ hrequest)
      fun i r _ _ hsame ↦ absurd ⟨i, r, hsame⟩ hrequest

/-! ### Listings that begin in time -/

/-- The handler of events leaves the requests alone. -/
theorem requests_handlerStep {s t : SessionStore.State} {r : Reply}
    (ht : SessionStore.handlerStep s r = some t) : t.requests = s.requests := by
  have hupdate (id : String) (f : SessionModel → SessionModel) :
      (s.update id f r).requests = s.requests := by
    rw [SessionStore.State.update]
    split
    · rfl
    · rfl
  rw [SessionStore.handlerStep.eq_def] at ht
  split at ht
  · contradiction
  all_goals obtain rfl := Option.some.inj ht
  case h_6 e _ =>
    rw [SessionStore.insertRow]
    split
    · rfl
    · rfl
  case h_7 e _ => exact hupdate _ _
  all_goals rfl

/-- So does retention. -/
theorem requests_retentionStep {s t : SessionStore.State} {answer : SessionStore.RetentionAnswer}
    (ht : SessionStore.retentionStep count days s answer = some t) : t.requests = s.requests := by
  rw [SessionStore.retentionStep.eq_def] at ht
  split at ht
  · contradiction
  · obtain rfl := Option.some.inj ht
    rfl
  · obtain ⟨-, hcount⟩ := Option.ite_none_right_eq_some.1 ht
    obtain rfl := Option.some.inj hcount
    rw [SessionStore.countStep]
    split
    · rfl
    · rfl
  · obtain rfl := Option.some.inj ht
    rfl
  · obtain rfl := Option.some.inj ht
    rw [SessionStore.deleteStep]
    split
    · rfl
    · rfl
  · contradiction

/-- A request that goes on is one of a rename. -/
theorem mem_requests_requestStep {s : SessionStore.State} {q : SessionStore.Request} {r : Reply}
    {active : Option String} (h : .closing active ∈ (SessionStore.requestStep s q r).requests) :
    .closing active ∈ s.requests := by
  cases q with
  | closing held =>
    rw [SessionStore.requestStep, SessionStore.closeOrphans] at h
    split at h
    · exact h
    · exact h
  | finding sessionId label =>
    rw [SessionStore.requestStep] at h
    split at h
    · exact h
    · rcases List.mem_append.1 h with h | h
      · exact h
      · simp at h
  | relabeling sessionId label =>
    rw [SessionStore.requestStep, SessionStore.State.update] at h
    split at h
    · exact h
    · exact h

/-- A listing whose update is still to come was there before the step, or begins with it. -/
theorem mem_requests_of_step {s t : SessionStore.State} {a : SessionStore.Action}
    {active : Option String} (ht : SessionStore.step count days s a = some t)
    (h : .closing active ∈ t.requests) :
    .closing active ∈ s.requests ∨ a = .list ∧ active = s.activeSessionId := by
  cases a with
  | transcript data =>
    obtain rfl := Option.some.inj ht
    exact Or.inl h
  | loop a =>
    obtain ⟨l, -, rfl⟩ := SessionStore.loop_step ht
    exact Or.inl h
  | event e =>
    simp only [SessionStore.step] at ht
    split at ht
    · obtain rfl := Option.some.inj ht
      refine Or.inl ?_
      rw [SessionStore.beginEvent] at h
      split at h
      · exact h
      · split at h
        · exact h
        · split at h
          · exact h
          · exact h
    · contradiction
  | handler r =>
    rw [requests_handlerStep ht] at h
    exact Or.inl h
  | connect entry =>
    obtain ⟨-, hconnect⟩ := Option.ite_none_left_eq_some.1 ht
    obtain rfl := Option.some.inj hconnect
    cases entry with
    | none => exact Or.inl h
    | some entry => exact Or.inl h
  | retention =>
    simp only [SessionStore.step] at ht
    split at ht
    · obtain rfl := Option.some.inj ht
      refine Or.inl ?_
      rw [SessionStore.beginRetention] at h
      split at h
      · exact h
      · split at h
        · exact h
        · exact h
    · contradiction
  | retain answer =>
    rw [requests_retentionStep ht] at h
    exact Or.inl h
  | list =>
    obtain rfl := Option.some.inj ht
    rcases List.mem_append.1 h with h | h
    · exact Or.inl h
    · exact Or.inr ⟨rfl, by simpa using h⟩
  | rename sessionId label =>
    obtain rfl := Option.some.inj ht
    rcases List.mem_append.1 h with h | h
    · exact Or.inl h
    · simp at h
  | request i r =>
    obtain ⟨q, -, rfl⟩ := Option.map_eq_some_iff.1 ht
    exact Or.inl (List.mem_of_mem_eraseIdx (mem_requests_requestStep h))
  | restart committed =>
    rw [SessionStore.step, Option.map_eq_some_iff] at ht
    obtain ⟨l, -, rfl⟩ := ht
    contradiction

/-- The invariant: every listing that is under way was built with the session that is reported. -/
def Fresh (s : State) : Prop :=
  ∀ active, .closing active ∈ s.store.requests → ∀ id, reportedBy s.current = some id →
    active.getD "" = id

/-- A step of the gateway leaves the entry alone. -/
theorem step_gateway {b : SessionStore.Action} (ht : step count days s (.gateway b) = some t) :
    SessionStore.step count days s.store b = some t.store ∧ t.current = s.current := by
  cases b with
  | connect entry => contradiction
  | _ =>
    simp only [step, Option.map_eq_some_iff] at ht
    obtain ⟨store, hstore, rfl⟩ := ht
    exact ⟨hstore, rfl⟩

/-- A step leaves the entry alone, or touches nothing else. -/
theorem step_cases (ht : step count days s a = some t) :
    (∃ entry, a = .kv entry ∧ t = { s with current := entry }) ∨
      t.current = s.current ∧ (t.store = s.store ∨ ∃ b, SessionStore.step count days s.store b =
        some t.store ∧ (b = .list → a = .gateway .list)) := by
  cases a with
  | gateway b =>
    obtain ⟨hstore, hcurrent⟩ := step_gateway ht
    exact Or.inr ⟨hcurrent, Or.inr ⟨b, hstore, congrArg Action.gateway⟩⟩
  | kv entry =>
    obtain rfl := Option.some.inj ht
    exact Or.inl ⟨entry, rfl, rfl⟩
  | get raised =>
    obtain ⟨-, hget⟩ := Option.ite_none_left_eq_some.1 ht
    obtain rfl := Option.some.inj hget
    exact Or.inr ⟨rfl, Or.inl rfl⟩
  | recover =>
    simp only [step] at ht
    split at ht
    · contradiction
    · rename_i entry _
      obtain ⟨store, hstore, rfl⟩ := Option.map_eq_some_iff.1 ht
      refine Or.inr ⟨rfl, Or.inr ⟨_, hstore, ?_⟩⟩
      simp

/-- **One step.** -/
theorem fresh_step (h : Fresh s) (htimely : timely s a = true) (ht : step count days s a = some t) :
    Fresh t := by
  intro active hmem id hid
  rcases step_cases ht with ⟨entry, rfl, rfl⟩ | ⟨hcurrent, hsame | ⟨b, hb, hlist⟩⟩
  · -- the entry is put: no listing under way names another session
    have hreported : reportedBy entry = some id := hid
    rw [timely, hreported, Option.all_some, List.all_eq_true] at htimely
    simpa [names] using htimely _ hmem
  · rw [hsame] at hmem
    rw [hcurrent] at hid
    exact h active hmem id hid
  · rw [hcurrent] at hid
    rcases mem_requests_of_step hb hmem with hmem | ⟨rfl, rfl⟩
    · exact h active hmem id hid
    · -- a listing begins, with the session that is reported
      rw [hlist rfl, timely, hid] at htimely
      simpa using htimely

/-- In a run whose listings begin in time, their updates name the session that is reported. -/
theorem run_current_of_timely {as : List Action}
    (hrun : (system count days).Run (fun s a ↦ timely s a = true) {} as t) :
    (system count days).Run current {} as t := by
  have hboth : Fresh t ∧ (system count days).Run current {} as t := by
    induction hrun with
    | nil => exact ⟨fun active hmem ↦ absurd hmem List.not_mem_nil, Run.nil⟩
    | snoc _ htimely hstep ih =>
      obtain ⟨hfresh, hrun⟩ := ih
      refine ⟨fresh_step hfresh htimely hstep, Run.snoc hrun ?_ hstep⟩
      intro i r active id _ _ hq hid
      exact Or.inl (hfresh active (List.mem_of_getElem? hq) id hid)
  exact hboth.2

end

/-- **The listing keeps the running session** in a run, if and only if at each update of a listing
the session that the KV entry reports is the one the statement was built with, or has no open row.
That is so in a run whose listings begin while `_active_session_id` is the session that is reported,
and in which the entry does not come to report another while one of them is under way. -/
theorem keeps_iff (count days : ℤ) :
    (∀ as t, (system count days).Run always {} as t →
      ((system count days).Run (keeps count days) {} as t ↔
        (system count days).Run current {} as t)) ∧
    ∀ as t, (system count days).Run (fun s a ↦ timely s a = true) {} as t →
      (system count days).Run (keeps count days) {} as t := by
  refine ⟨fun as t _ ↦ ⟨fun h ↦ ?_, fun h ↦ ?_⟩, fun as t h ↦ ?_⟩
  · exact h.weaken fun s a hstep hkeeps ↦ (keeps_iff_current s a hstep).1 hkeeps
  · exact h.weaken fun s a hstep hcurrent ↦ (keeps_iff_current s a hstep).2 hcurrent
  · exact (run_current_of_timely h).weaken fun s a hstep hcurrent ↦
      (keeps_iff_current s a hstep).2 hcurrent

/-! ### Listings that come too early -/

open SessionStore (tenEntry tenStarted)

/-- The session of ten o'clock is put in the KV, and its event is handled up to the n-th answer of
the database. -/
def tenPut (n : ℕ) : List Action :=
  [.get true, .recover, .kv (some tenEntry), .gateway (.event tenStarted)] ++
    List.replicate n (.gateway (.handler .ok))

/-- The session of ten o'clock is reported and has an open row, and a listing that knows no active
session is to make its update. -/
def ready (s : State) : Bool :=
  decide (reportedBy s.current = some "20260301-100000") &&
    (s.store.sessions.any fun row ↦ row.id = "20260301-100000" ∧ row.stoppedAt = none) &&
    match s.store.requests with
    | [.closing none] => true
    | _ => false

/-- In such a state the update closes the row of the session that is reported. -/
theorem not_keeps_of_ready {count days : ℤ} {s : State} (h : ready s = true) :
    ¬ keeps count days s (.gateway (.request 0 .ok)) := by
  simp only [ready, Bool.and_eq_true, decide_eq_true_eq, List.any_eq_true] at h
  obtain ⟨⟨hreported, hrunning⟩, hrequests⟩ := h
  split at hrequests
  · rename_i hclosing
    have hstep : (step count days s (.gateway (.request 0 .ok))).isSome = true := by
      simp [step, SessionStore.step, hclosing]
    intro hkeeps
    have hcurrent := (keeps_iff_current s _ hstep).1 hkeeps
    rcases hcurrent 0 .ok none _ rfl rfl (by simp [hclosing]) hreported with hempty | hnot
    · simp at hempty
    · exact hnot hrunning
  · contradiction

/-- After a restart the sessions are listed before the KV entry is recovered. And without a restart,
the listing comes between the commit of the new row and its answer. Both close the row of the
session that is reported. -/
theorem not_keeps :
    (∃ s, (system 30 0).Run always {} (tenPut 4 ++ [.gateway (.restart false), .gateway .list]) s ∧
      ¬ keeps 30 0 s (.gateway (.request 0 .ok))) ∧
    ∃ s, (system 30 0).Run always {} (tenPut 3 ++ [.gateway .list]) s ∧
      ¬ keeps 30 0 s (.gateway (.request 0 .ok)) := by
  constructor
  · obtain ⟨s, hrun, htest⟩ : ∃ s, (system 30 0).Run always {}
        (tenPut 4 ++ [.gateway (.restart false), .gateway .list]) s ∧ ready s = true :=
      Run.exists_of_exec (by decide +kernel)
    exact ⟨s, hrun, not_keeps_of_ready htest⟩
  · obtain ⟨s, hrun, htest⟩ : ∃ s, (system 30 0).Run always {}
        (tenPut 3 ++ [.gateway .list]) s ∧ ready s = true :=
      Run.exists_of_exec (by decide +kernel)
    exact ⟨s, hrun, not_keeps_of_ready htest⟩

/-- api-gateway restarts, recovers the session, and lists it. -/
theorem keeps_iff_recovered :
    ∃ as s, as = tenPut 4 ++ [.gateway (.restart false), .get false, .recover, .gateway .list,
        .gateway (.request 0 .ok)] ∧
      (system 30 0).Run (keeps 30 0) {} as s ∧ (system 30 0).Run current {} as s ∧
      s.store.sessions.map (fun row ↦ (row.id, row.stoppedAt)) = [("20260301-100000", none)] := by
  obtain ⟨s, hrun, htest⟩ : ∃ s, (system 30 0).Run (fun s a ↦ timely s a = true) {}
      (tenPut 4 ++ [.gateway (.restart false), .get false, .recover, .gateway .list,
        .gateway (.request 0 .ok)]) s ∧
      decide (s.store.sessions.map (fun row ↦ (row.id, row.stoppedAt)) =
        [("20260301-100000", none)]) = true :=
    Run.exists_of_exec (by decide +kernel)
  have hkeeps := (keeps_iff 30 0).2 _ s hrun
  have hcurrent := ((keeps_iff 30 0).1 _ s (hrun.mono fun _ _ _ ↦ trivial)).1 hkeeps
  exact ⟨_, s, rfl, hkeeps, hcurrent, of_decide_eq_true htest⟩

end LiveSTT.Orphans
