import LiveSTT.Gateway.LoginAfterSetup

/-!
# First-run setup happens once

`POST /setup` checks that no password is stored and then, in another transaction, stores one. The
check is no lock: requests overlap, and a read that raises is taken for a missing row. What makes a
second setup fail is the commit alone. Every setup adds a row under `admin_password_hash`, so on a
table that has one the whole transaction fails on the primary key, with its optional rows.

The law is about the life of the database, which goes through restarts, and `ADMIN_PASSWORD_HASH`
may be another one after each. So the environment is part of the label here (`database`).

`SetupStep` is what one step can do to the table: it commits the setup of a request in flight, or it
leaves the table alone and answers no request with success. From that the count of the successful
setups follows by the history of the table, whatever the interleaving and however many checks have
passed before the first commit.
-/

namespace LiveSTT.Gateway

open TransitionSystem

variable {checkpw : String → String → Bool} {hashpw : String → String → String} {env : String}
  {s t : State}

variable (checkpw hashpw) in
/-- api-gateway's login and setup over the life of a database: each step is taken under the value of
`ADMIN_PASSWORD_HASH` the process then has. -/
def database : TransitionSystem State (String × Action) where
  init := (system checkpw hashpw "").init
  step s p := step checkpw hashpw p.1 s p.2

/-! ### Winners -/

/-- The request that is answered with a token for a completed setup. -/
def Event.winner : Event → Option SetupBody
  | .configured body => some body
  | _ => none

/-- The setups that returned success, in order. -/
def winners (log : List Event) : List SetupBody :=
  log.filterMap Event.winner

@[simp] theorem winners_append (log es : List Event) :
    winners (log ++ es) = winners log ++ winners es :=
  List.filterMap_append

/-- The rows a setup stores name the hash of its password. -/
theorem get_setupRows {config : AppConfig} {hashed : String} {body : SetupBody}
    (h : config.rows = setupRows hashed body) :
    config.get "admin_password_hash" = some hashed := by
  rw [AppConfig.get, h]
  simp [setupRows]

/-! ### What a step can do -/

/-- The rows a request is about to commit are those of its setup, under a hash of its password. -/
def Request.Sound (hashpw : String → String → String) : Request → Prop
  | .setupCommitting body rows => ∃ salt, rows = setupRows (hashpw body.password salt) body
  | _ => True

/-- Every request in flight is sound. -/
def Sound (hashpw : String → String → String) (s : State) : Prop :=
  ∀ q ∈ s.requests, q.Sound hashpw

/-- The call whose answer is lost: it went through, and raised all the same. -/
def Action.Lost : Action → Prop
  | .answer _ r _ => r = .lost
  | _ => False

/-- **What a step can do.** It commits the setup of a request in flight, or it leaves the table
alone and answers no request with success. -/
inductive SetupStep (hashpw : String → String → String) (s : State) (a : Action) (t : State) : Prop
  | commit (body : SetupBody) (rows : List (String × String)) (config : AppConfig)
      (hmem : .setupCommitting body rows ∈ s.requests)
        (hinsert : s.config.insert rows = some config)
      (hconfig : t.config = config) (hwon : t.log = s.log ++ [.configured body] ∨
        a.Lost ∧ t.log = s.log ++ [.setupFailed body])
      (hrequests : ∀ q ∈ t.requests, q ∈ s.requests)
  | other (hconfig : t.config = s.config) (hwinners : winners t.log = winners s.log)
      (hrequests : ∀ q ∈ t.requests, q ∈ s.requests ∨ q.Sound hashpw)

/-- The answer to a request in flight. -/
theorem setupStep_answer {request : Request} {r : Reply} {salt : String} {i : ℕ}
    (hget : s.requests[i]? = some request) :
    SetupStep hashpw s (.answer i r salt)
      (answer checkpw hashpw env { s with requests := s.requests.eraseIdx i } request r salt) := by
  have herase : ∀ q ∈ s.requests.eraseIdx i, q ∈ s.requests := fun q hq ↦
    List.mem_of_mem_eraseIdx hq
  have hread {q : Request} (hsound : q.Sound hashpw) :
      ∀ q' ∈ s.requests.eraseIdx i ++ [q], q' ∈ s.requests ∨ q'.Sound hashpw := by
    intro q' hq'
    rcases List.mem_append.1 hq' with hq' | hq'
    · exact Or.inl (herase q' hq')
    · obtain rfl := List.mem_singleton.1 hq'
      exact Or.inr hsound
  cases request with
  | authReading login password => exact .other rfl rfl (hread trivial)
  | authClosing login password read =>
    refine .other rfl ?_ fun q hq ↦ Or.inl (herase q hq)
    simp only [answer, finishAuth, State.logs, winners_append]
    cases r.raised || read.isNone <;> cases verifyPassword checkpw env password
      (getDbPasswordHash read r.raised) <;> simp [winners, Event.winner]
  | setupReading body => exact .other rfl rfl (hread trivial)
  | setupClosing body read =>
    simp only [answer, continueSetup]
    split
    · split
      · exact .other rfl (by simp [State.logs, winners, Event.winner])
          fun q hq ↦ Or.inl (herase q hq)
      · exact .other rfl rfl (hread ⟨salt, rfl⟩)
    · exact .other rfl (by simp [State.logs, winners, Event.winner])
        fun q hq ↦ Or.inl (herase q hq)
  | setupCommitting body rows =>
    simp only [answer, finishSetup]
    split
    · exact .other rfl (by simp [State.logs, winners, Event.winner])
        fun q hq ↦ Or.inl (herase q hq)
    · rename_i config hinsert
      cases r with
      | ok =>
        exact .commit body rows config (List.mem_of_getElem? hget) hinsert rfl (Or.inl rfl) herase
      | lost =>
        exact .commit body rows config (List.mem_of_getElem? hget) hinsert rfl
          (Or.inr ⟨rfl, rfl⟩) herase
      | error =>
        exact .other rfl (by simp [State.logs, winners, Event.winner, Reply.raised])
          fun q hq ↦ Or.inl (herase q hq)

/-- By the cases of the handlers: only the commit of a setup writes to the table. -/
theorem setupStep_of_step {a : Action} (ht : step checkpw hashpw env s a = some t) :
    SetupStep hashpw s a t := by
  cases a with
  | auth clientIp now password =>
    simp only [step] at ht
    split at ht
    · obtain rfl := Option.some.inj ht
      refine .other rfl rfl fun q hq ↦ ?_
      rcases List.mem_append.1 hq with hq | hq
      · exact Or.inl hq
      · obtain rfl := List.mem_singleton.1 hq
        exact Or.inr trivial
    · obtain rfl := Option.some.inj ht
      exact .other rfl (by simp [State.logs, winners, Event.winner]) fun q hq ↦ Or.inl hq
  | setup body =>
    simp only [step] at ht
    split at ht
    · obtain rfl := Option.some.inj ht
      exact .other rfl (by simp [State.logs, winners, Event.winner]) fun q hq ↦ Or.inl hq
    · obtain rfl := Option.some.inj ht
      refine .other rfl rfl fun q hq ↦ ?_
      rcases List.mem_append.1 hq with hq | hq
      · exact Or.inl hq
      · obtain rfl := List.mem_singleton.1 hq
        exact Or.inr trivial
  | answer i r salt =>
    simp only [step] at ht
    split at ht
    · contradiction
    · rename_i request hget
      obtain rfl := Option.some.inj ht
      exact setupStep_answer hget
  | restart =>
    obtain rfl := Option.some.inj ht
    exact .other rfl rfl (by simp)

/-! ### Runs -/

/-- The invariant: the table is empty and nobody won, or it holds exactly the rows of one setup, and
nobody else won. -/
structure SetupOnce (hashpw : String → String → String) (s : State) : Prop where
  sound : Sound hashpw s
  once : (s.config.rows = [] ∧ winners s.log = []) ∨
    ∃ body salt, s.config.rows = setupRows (hashpw body.password salt) body ∧
      (winners s.log = [] ∨ winners s.log = [body])

/-- A setup commits on an empty table only. -/
theorem SetupOnce.rows_eq_nil (h : SetupOnce hashpw s) {body : SetupBody}
    {rows : List (String × String)} {config : AppConfig}
    (hmem : .setupCommitting body rows ∈ s.requests)
    (hinsert : s.config.insert rows = some config) : s.config.rows = [] ∧ winners s.log = [] := by
  refine h.once.resolve_right fun hset ↦ ?_
  obtain ⟨body', salt', hrows, -⟩ := hset
  obtain ⟨salt, rfl⟩ := h.sound _ hmem
  rw [AppConfig.insert_eq_none (get_setupRows hrows) (mem_setupRows _ _)] at hinsert
  nomatch hinsert

/-- **One step**, under any environment. -/
theorem SetupOnce.step {a : Action} (h : SetupOnce hashpw s)
    (ht : step checkpw hashpw env s a = some t) : SetupOnce hashpw t := by
  cases setupStep_of_step ht with
  | commit body rows config hmem hinsert hconfig hwon hrequests =>
    refine ⟨fun q hq ↦ h.sound q (hrequests q hq), Or.inr ?_⟩
    obtain ⟨hempty, hnone⟩ := h.rows_eq_nil hmem hinsert
    obtain ⟨salt, rfl⟩ := h.sound _ hmem
    refine ⟨body, salt, ?_, ?_⟩
    · rw [hconfig, AppConfig.rows_insert hinsert, hempty, List.nil_append]
    · rcases hwon with hlog | ⟨-, hlog⟩ <;> rw [hlog, winners_append, hnone]
      · exact Or.inr rfl
      · exact Or.inl rfl
  | other hconfig hwinners hrequests =>
    refine ⟨fun q hq ↦ (hrequests q hq).elim (h.sound q) id, ?_⟩
    rw [hconfig, hwinners]
    exact h.once

theorem setupOnce_inductive :
    (database checkpw hashpw).Inductive always (SetupOnce hashpw) where
  init s hs := by
    obtain rfl : s = {} := hs
    exact ⟨nofun, Or.inl ⟨rfl, rfl⟩⟩
  step h _ ht := h.step ht

/-- **Setup happens once.** Over the life of a database, whatever requests overlap and whichever
database calls raise: at most one request returns success, and then the table holds exactly the rows
of that request, the hash of its password among them; and a step that changes the table does so on
an empty one, and answers a request with success — so once a hash is stored no request changes it,
and a request that does not win leaves the table as it was. Only a commit that goes through and
raises all the same is no success. -/
theorem setup_once (h : (database checkpw hashpw).Reachable always s) :
    (winners s.log).length ≤ 1 ∧
    (∀ body ∈ winners s.log, ∃ salt,
      s.config.get "admin_password_hash" = some (hashpw body.password salt) ∧
      s.config.rows = setupRows (hashpw body.password salt) body) ∧
    ∀ env a t, step checkpw hashpw env s a = some t → t.config ≠ s.config →
      s.config.rows = [] ∧
      ∃ body salt, t.config.rows = setupRows (hashpw body.password salt) body ∧
        (¬ a.Lost → t.log = s.log ++ [.configured body]) := by
  have hs : SetupOnce hashpw s := setupOnce_inductive.reachable h
  refine ⟨?_, fun body hbody ↦ ?_, fun env a t ht hchanged ↦ ?_⟩
  · rcases hs.once with ⟨-, hnone⟩ | ⟨body, salt, -, hnone | hone⟩
    · simp [hnone]
    · simp [hnone]
    · simp [hone]
  · rcases hs.once with ⟨-, hnone⟩ | ⟨body', salt, hrows, hnone | hone⟩
    · simp [hnone] at hbody
    · simp [hnone] at hbody
    · obtain rfl : body = body' := by simpa [hone] using hbody
      exact ⟨salt, get_setupRows hrows, hrows⟩
  · cases setupStep_of_step ht with
    | commit body rows config hmem hinsert hconfig hwon =>
      obtain ⟨hempty, -⟩ := hs.rows_eq_nil hmem hinsert
      obtain ⟨salt, rfl⟩ := hs.sound _ hmem
      refine ⟨hempty, body, salt, ?_, fun hlost ↦ hwon.resolve_right fun hw ↦ hlost hw.1⟩
      rw [hconfig, AppConfig.rows_insert hinsert, hempty, List.nil_append]
    | other hconfig => exact absurd hconfig hchanged

/-- Two requests pass the check before the first commits, the second with a Deepgram key: it loses,
and its key is not stored. -/
theorem setup_once_two :
    ∃ s, (database plainCheck plainHash).Reachable always s ∧
      (winners s.log).map SetupBody.password = ["correct horse"] ∧
      s.config.get "deepgram_api_key" = none ∧ ∃ salt,
        s.config.get "admin_password_hash" = some (plainHash "correct horse" salt) := by
  obtain ⟨s, hs, htest⟩ := exists_reachable_of_exec (M := database plainCheck plainHash)
    (G := always) {}
    ([.setup ⟨"correct horse", "", ""⟩, .setup ⟨"battery staple", "dg-key", ""⟩,
      .answer 0 .ok "", .answer 0 .error "", .answer 0 .ok "$2b$12$a", .answer 0 .ok "$2b$12$b",
      .answer 0 .ok "", .answer 0 .ok ""].map fun a ↦ ("", a))
    (fun s ↦ (winners s.log).map SetupBody.password = ["correct horse"] ∧
      s.requests.isEmpty ∧ s.config.get "deepgram_api_key" = none) rfl (by decide +kernel)
  obtain ⟨hwinners, -, hkey⟩ := of_decide_eq_true htest
  obtain ⟨body, hbody, hpassword⟩ : ∃ body ∈ winners s.log, body.password = "correct horse" := by
    refine List.mem_map.1 ?_
    rw [hwinners]
    exact List.mem_singleton_self _
  obtain ⟨salt, hhash, -⟩ := (setup_once hs).2.1 body hbody
  rw [hpassword] at hhash
  exact ⟨s, hs, hwinners, hkey, salt, hhash⟩

end LiveSTT.Gateway
