import LiveSTT.Gateway.Auth

/-!
# Logins after first-run setup

Once a bcrypt hash `h` is stored under `admin_password_hash` and `ADMIN_PASSWORD_HASH` is unset, a
login should succeed only with a password that matches `h`. The stored hash is safe: no later setup
replaces it, whatever reads and commits fail (`setUp_run`). The decision is not: a read that raises
is taken for a missing row, and then for a development machine, which accepts any password.

`token_after_setup_iff` says exactly what that costs: the logins submitted since the hash was stored
keep to `h` if and only if the passwords of those whose read raised match `h`. A login that was in
flight then may have run its `SELECT` before the setup committed. It has read that no password is
configured and still answers by that, so it is left out; `Judged.token` names it.

`SetUp` is the state of the database as seen from a later state: the hash is stored, and every read
that was made since has found it, or has raised. `Judged` says of each token that its password
matches, or what its login had met: a read that raised, or one that found nothing before the hash
was stored. A setup that is in flight when another one commits loses at its own commit, so that `h`
is the hash for good.
-/

namespace LiveSTT.Gateway

variable {checkpw : String → String → Bool} {hashpw : String → String → String} {env h : String}
  {s t : State}

/-! ### The requests in flight -/

/-- What is known of a request in flight: a login has one of the numbers given out, what was read
was nothing or is still stored, and a setup about to commit adds a row for the password hash. -/
def Request.Backed (s : State) : Request → Prop
  | .authReading login _ => login < s.logins
  | .authClosing login _ read => login < s.logins ∧
      ∀ v, read = some v → v = "" ∨ s.config.get "admin_password_hash" = some v
  | .setupReading _ => True
  | .setupClosing _ _ => True
  | .setupCommitting _ rows => "admin_password_hash" ∈ rows.map Prod.fst

/-- It stays so while the logins are counted on and nothing stored is lost. -/
theorem Request.Backed.mono {q : Request} (hq : q.Backed s) (hlogins : s.logins ≤ t.logins)
    (hget : ∀ v, s.config.get "admin_password_hash" = some v →
      t.config.get "admin_password_hash" = some v) : q.Backed t := by
  cases q with
  | authReading login password => exact lt_of_lt_of_le hq hlogins
  | authClosing login password read =>
    exact ⟨hq.1.trans_le hlogins, fun v hv ↦ (hq.2 v hv).imp_right (hget v)⟩
  | setupReading body => trivial
  | setupClosing body read => trivial
  | setupCommitting body rows => exact hq

/-- Every request in flight is backed by the state. -/
def Backed (s : State) : Prop :=
  ∀ q ∈ s.requests, q.Backed s

/-- A step that at most adds one request that is backed. -/
theorem Backed.append {q : Request} (hs : Backed s) (hlogins : s.logins ≤ t.logins)
    (hget : ∀ v, s.config.get "admin_password_hash" = some v →
      t.config.get "admin_password_hash" = some v)
    (hreq : ∀ q' ∈ t.requests, q' ∈ s.requests ∨ q' = q) (hq : q.Backed t) : Backed t := by
  intro q' hmem
  rcases hreq q' hmem with hold | rfl
  · exact (hs q' hold).mono hlogins hget
  · exact hq

/-- A step that adds none. -/
theorem Backed.of_subset (hs : Backed s) (hlogins : s.logins ≤ t.logins)
    (hget : ∀ v, s.config.get "admin_password_hash" = some v →
      t.config.get "admin_password_hash" = some v)
    (hsub : ∀ q ∈ t.requests, q ∈ s.requests) : Backed t :=
  fun q hmem ↦ (hs q (hsub q hmem)).mono hlogins hget

/-- The rows of a setup include the hash. -/
theorem mem_setupRows (hashed : String) (body : SetupBody) :
    "admin_password_hash" ∈ (setupRows hashed body).map Prod.fst := by
  simp [setupRows]

/-- A value that was read is the empty string or stored. -/
theorem of_selectPasswordHash {config : AppConfig} {raised : Bool} {v : String}
    (h : selectPasswordHash config raised = some v) :
    v = "" ∨ config.get "admin_password_hash" = some v := by
  rw [selectPasswordHash, Option.ite_none_left_eq_some] at h
  obtain ⟨-, hv⟩ := h
  rcases hget : config.get "admin_password_hash" with - | w
  · left
    simpa [hget] using hv.symm
  · right
    simpa [hget] using hv

/-- A request gets the answer to its database call. -/
theorem backed_answer {request : Request} {r : Reply} {salt : String} (hs : Backed s)
    (hq : request.Backed s) : Backed (answer checkpw hashpw env s request r salt) := by
  have hmem {q' q : Request} (h : q' ∈ s.requests ++ [q]) : q' ∈ s.requests ∨ q' = q :=
    (List.mem_append.1 h).imp_right List.mem_singleton.1
  cases request with
  | authReading login password =>
    exact hs.append le_rfl (fun _ ↦ id) (fun _ ↦ hmem) ⟨hq, fun _ ↦ of_selectPasswordHash⟩
  | authClosing login password read => exact hs
  | setupReading body => exact hs.append le_rfl (fun _ ↦ id) (fun _ ↦ hmem) trivial
  | setupClosing body read =>
    simp only [answer, continueSetup]
    split
    · split
      · exact hs
      · exact hs.append le_rfl (fun _ ↦ id) (fun _ ↦ hmem) (mem_setupRows _ _)
    · exact hs
  | setupCommitting body rows =>
    simp only [answer, finishSetup]
    split
    · exact hs
    · rename_i config hinsert
      refine hs.of_subset (t := _) le_rfl (fun v hv ↦ ?_) fun _ ↦ id
      show (if r.applied then config else s.config).get "admin_password_hash" = some v
      split
      · exact AppConfig.get_insert hinsert hv
      · exact hv

/-- A request that is answered leaves the requests in flight. -/
theorem backed_erase {i : ℕ} (hs : Backed s) :
    Backed { s with requests := s.requests.eraseIdx i } :=
  hs.of_subset le_rfl (fun _ ↦ id) fun _ ↦ List.mem_of_mem_eraseIdx

/-- A login is submitted before its read, and its read made before its answer. -/
theorem Backed.step {a : Action} (hs : Backed s) (ht : step checkpw hashpw env s a = some t) :
    Backed t := by
  have hmem {q' q : Request} (h : q' ∈ s.requests ++ [q]) : q' ∈ s.requests ∨ q' = q :=
    (List.mem_append.1 h).imp_right List.mem_singleton.1
  cases a with
  | auth clientIp now password =>
    simp only [Gateway.step] at ht
    split at ht
    · obtain rfl := Option.some.inj ht
      exact hs.append (Nat.le_succ _) (fun _ ↦ id) (fun _ ↦ hmem) (Nat.lt_succ_self s.logins)
    · obtain rfl := Option.some.inj ht
      exact hs
  | setup body =>
    simp only [Gateway.step] at ht
    split at ht
    · obtain rfl := Option.some.inj ht
      exact hs
    · obtain rfl := Option.some.inj ht
      exact hs.append le_rfl (fun _ ↦ id) (fun _ ↦ hmem) trivial
  | answer i r salt =>
    cases hget : s.requests[i]? with
    | none =>
      simp only [Gateway.step, hget] at ht
      contradiction
    | some request =>
      simp only [Gateway.step, hget] at ht
      obtain rfl := Option.some.inj ht
      exact backed_answer (backed_erase hs) (hs _ (List.mem_of_getElem? hget))
  | restart =>
    obtain rfl := Option.some.inj ht
    simp [Backed]

/-- Every login in flight has read what it says it has. -/
theorem backed_inductive :
    (system checkpw hashpw env).Inductive TransitionSystem.always Backed where
  init s hs := by
    obtain rfl : s = {} := hs
    simp [Backed]
  step hs _ ht := hs.step ht

/-! ### Who gets a token -/

/-- The part of a log since the hash `h` was stored, in `s`: a token went to a matching password, or
to one whose read raised, or to a login that had read in `s` that no password is configured; and all
logins whose read raised got one. -/
structure Judged (checkpw : String → String → Bool) (h : String) (s : State) (es : List Event) :
    Prop where
  token : ∀ login p, .token login p ∈ es → checkpw p h = true ∨ .readRaised login p ∈ es ∨
    .authClosing login p (some "") ∈ s.requests
  raised : ∀ login p, .readRaised login p ∈ es → .token login p ∈ es

namespace Judged

variable {es : List Event} {login : ℕ} {p : String}

theorem nil : Judged checkpw h s [] :=
  ⟨by simp, by simp⟩

/-- Events about something else. -/
theorem append_free {e : Event} (hes : Judged checkpw h s es)
    (htoken : ∀ login p, e ≠ .token login p) (hraised : ∀ login p, e ≠ .readRaised login p) :
    Judged checkpw h s (es ++ [e]) := by
  refine ⟨fun login p hp ↦ ?_, fun login p hp ↦ ?_⟩
  · have hold : .token login p ∈ es := by
      simpa [(htoken login p).symm] using hp
    exact (hes.token login p hold).imp_right (Or.imp_left (List.mem_append_left _))
  · have hold : .readRaised login p ∈ es := by
      simpa [(hraised login p).symm] using hp
    exact List.mem_append_left _ (hes.raised login p hold)

/-- A token for a matching password, or for a login that had found none. -/
theorem append_token (hes : Judged checkpw h s es)
    (hp : checkpw p h = true ∨ .authClosing login p (some "") ∈ s.requests) :
    Judged checkpw h s (es ++ [.token login p]) := by
  refine ⟨fun login' p' hp' ↦ ?_, fun login' p' hp' ↦ ?_⟩
  · rcases List.mem_append.1 hp' with hold | hnew
    · exact (hes.token login' p' hold).imp_right (Or.imp_left (List.mem_append_left _))
    · obtain ⟨rfl, rfl⟩ : login' = login ∧ p' = p := by simpa using hnew
      exact hp.imp_right Or.inr
  · have hold : .readRaised login' p' ∈ es := by simpa using hp'
    exact List.mem_append_left _ (hes.raised login' p' hold)

/-- A read that raises, and the token it leads to. -/
theorem append_raised (hes : Judged checkpw h s es) :
    Judged checkpw h s (es ++ [.readRaised login p, .token login p]) := by
  refine ⟨fun login' p' hp' ↦ ?_, fun login' p' hp' ↦ ?_⟩
  · rcases List.mem_append.1 hp' with hold | hnew
    · exact (hes.token login' p' hold).imp_right (Or.imp_left (List.mem_append_left _))
    · obtain ⟨rfl, rfl⟩ : login' = login ∧ p' = p := by simpa using hnew
      exact Or.inr (Or.inl (by simp))
  · rcases List.mem_append.1 hp' with hold | hnew
    · exact List.mem_append_left _ (hes.raised login' p' hold)
    · obtain ⟨rfl, rfl⟩ : login' = login ∧ p' = p := by simpa using hnew
      simp

/-- So the tokens for the logins submitted since keep to the hash exactly when the passwords whose
read raised do. -/
theorem iff (hes : Judged checkpw h s es) (hs : Backed s) :
    (∀ login p, s.logins ≤ login → .token login p ∈ es → checkpw p h = true) ↔
      ∀ login p, s.logins ≤ login → .readRaised login p ∈ es → checkpw p h = true := by
  constructor
  · exact fun htoken login p hlogin hp ↦ htoken login p hlogin (hes.raised login p hp)
  · intro hraised login p hlogin hp
    rcases hes.token login p hp with hmatch | hread | hflight
    · exact hmatch
    · exact hraised login p hlogin hread
    · exact absurd (hs _ hflight).1 hlogin.not_gt

end Judged

/-- The decision on one login. With the hash read it is bcrypt's; with a read that raised, or that
found none, there is no decision. -/
theorem judged_finishAuth {es log : List Event} {login : ℕ} {password : String}
    {read : Option String} {raised : Bool} {u : State} (hne : h ≠ "")
    (hread : ∀ v, read = some v → v = h ∨
      v = "" ∧ .authClosing login password (some "") ∈ s.requests)
    (hlog : u.log = log ++ es) (hes : Judged checkpw h s es) :
    ∃ es', (finishAuth checkpw "" u login password read raised).log = log ++ es' ∧
      Judged checkpw h s es' := by
  by_cases hraised : raised || read.isNone
  · refine ⟨es ++ [.readRaised login password, .token login password], ?_, hes.append_raised⟩
    have hempty : getDbPasswordHash read raised = "" := by
      cases read <;> simp_all [getDbPasswordHash]
    simp [finishAuth, State.logs, hraised, hempty, verifyPassword, hlog]
  · obtain ⟨rfl, v, rfl⟩ : raised = false ∧ ∃ v, read = some v := by
      cases read <;> simp_all
    rcases hread v rfl with rfl | ⟨rfl, hflight⟩
    · have hverify : verifyPassword checkpw "" password v = checkpw password v := by
        rw [verifyPassword, if_pos hne]
      rcases hcheck : checkpw password v with - | -
      · refine ⟨es ++ [.refused login password], ?_, hes.append_free (by simp) (by simp)⟩
        simp [finishAuth, State.logs, getDbPasswordHash, hverify, hcheck, hlog]
      · refine ⟨es ++ [.token login password], ?_, hes.append_token (Or.inl hcheck)⟩
        simp [finishAuth, State.logs, getDbPasswordHash, hverify, hcheck, hlog]
    · refine ⟨es ++ [.token login password], ?_, hes.append_token (Or.inr hflight)⟩
      simp [finishAuth, State.logs, getDbPasswordHash, verifyPassword, hlog]

/-- What holds throughout a run from a state `s` in which `h` was stored. -/
structure SetUp (checkpw : String → String → Bool) (h : String) (s t : State) : Prop where
  stored : t.config.get "admin_password_hash" = some h
  backed : Backed t
  /-- What a login in flight has read is the hash, or it had found none in `s`. -/
  reads : ∀ login p v, .authClosing login p (some v) ∈ t.requests → v = h ∨
    v = "" ∧ .authClosing login p (some "") ∈ s.requests
  judged : ∃ es, t.log = s.log ++ es ∧ Judged checkpw h s es

namespace SetUp

variable {u : State}

/-- In `s` itself. -/
theorem refl (hs : Backed s) (hstored : s.config.get "admin_password_hash" = some h) :
    SetUp checkpw h s s := by
  refine ⟨hstored, hs, fun login p v hmem ↦ ?_, [], (List.append_nil _).symm, Judged.nil⟩
  rcases (hs _ hmem).2 v rfl with rfl | hv
  · exact Or.inr ⟨rfl, hmem⟩
  · exact Or.inl (Option.some.inj (hv.symm.trans hstored))

/-- One more event that is no token and no failed read. -/
theorem logs_free {e : Event} (hs : SetUp checkpw h s t)
    (htoken : ∀ login p, e ≠ .token login p) (hraised : ∀ login p, e ≠ .readRaised login p) :
    SetUp checkpw h s (t.logs [e]) := by
  obtain ⟨es, hlog, hes⟩ := hs.judged
  refine ⟨hs.stored, hs.backed, hs.reads, es ++ [e], ?_, hes.append_free htoken hraised⟩
  rw [State.logs, hlog, List.append_assoc]

/-- One more request in flight, which is no login that has read something else than the hash. -/
theorem request {q : Request} (hs : SetUp checkpw h s t) (hbacked : Backed u)
    (hconfig : u.config = t.config) (hrequests : u.requests = t.requests ++ [q])
    (hlog : u.log = t.log) (hq : ∀ login p v, q = .authClosing login p (some v) → v = h) :
    SetUp checkpw h s u := by
  refine ⟨hconfig ▸ hs.stored, hbacked, fun login p v hmem ↦ ?_, hlog ▸ hs.judged⟩
  rw [hrequests, List.mem_append, List.mem_singleton] at hmem
  rcases hmem with hmem | hmem
  · exact hs.reads login p v hmem
  · exact Or.inl (hq login p v hmem.symm)

/-- A request is taken out, to be answered. -/
theorem erase (hs : SetUp checkpw h s t) (i : ℕ) :
    SetUp checkpw h s { t with requests := t.requests.eraseIdx i } :=
  ⟨hs.stored, backed_erase hs.backed,
    fun login p v hmem ↦ hs.reads login p v (List.mem_of_mem_eraseIdx hmem), hs.judged⟩

/-- It gets the answer to its database call. -/
theorem answer {request : Request} {r : Reply} {salt : String} (hne : h ≠ "")
    (hs : SetUp checkpw h s t) (hq : request.Backed t)
    (hread : ∀ login p v, request = .authClosing login p (some v) → v = h ∨
      v = "" ∧ .authClosing login p (some "") ∈ s.requests) :
    SetUp checkpw h s (answer checkpw hashpw "" t request r salt) := by
  have hbacked : Backed (Gateway.answer checkpw hashpw "" t request r salt) :=
    backed_answer hs.backed hq
  cases request with
  | authReading login password =>
    refine hs.request hbacked rfl rfl rfl fun login' p v heq ↦ ?_
    -- The table holds the hash, so that is what is read.
    have hselect : selectPasswordHash t.config r.raised = some v :=
      (Request.authClosing.inj heq).2.2
    rw [selectPasswordHash, hs.stored, Option.ite_none_left_eq_some] at hselect
    exact (Option.some.inj hselect.2).symm
  | authClosing login password read =>
    obtain ⟨es, hlog, hes⟩ := hs.judged
    exact ⟨hs.stored, hbacked, hs.reads, judged_finishAuth hne
      (fun v hv ↦ hread login password v (hv ▸ rfl)) hlog hes⟩
  | setupReading body => exact hs.request hbacked rfl rfl rfl nofun
  | setupClosing body read =>
    simp only [Gateway.answer, continueSetup] at hbacked ⊢
    split
    · split
      · exact hs.logs_free (by simp) (by simp)
      · rename_i hneeds hshort
        rw [if_pos hneeds, if_neg hshort] at hbacked
        exact hs.request hbacked rfl rfl rfl nofun
    · exact hs.logs_free (by simp) (by simp)
  | setupCommitting body rows =>
    have hnone := AppConfig.insert_eq_none hs.stored hq
    simp only [Gateway.answer, finishSetup, hnone]
    exact hs.logs_free (by simp) (by simp)

/-- **One step** keeps the hash, and the judgement on the logins since. -/
theorem step {a : Action} (hne : h ≠ "") (hs : SetUp checkpw h s t)
    (hu : step checkpw hashpw "" t a = some u) : SetUp checkpw h s u := by
  have hbacked : Backed u := backed_inductive.step hs.backed trivial hu
  cases a with
  | auth clientIp now password =>
    simp only [Gateway.step] at hu
    split at hu
    · obtain rfl := Option.some.inj hu
      exact hs.request hbacked rfl rfl rfl nofun
    · obtain rfl := Option.some.inj hu
      obtain ⟨hstored, -, hreads, hjudged⟩ :=
        hs.logs_free (e := .limited clientIp) (by simp) (by simp)
      exact ⟨hstored, hbacked, hreads, hjudged⟩
  | setup body =>
    simp only [Gateway.step] at hu
    split at hu
    · obtain rfl := Option.some.inj hu
      exact hs.logs_free (by simp) (by simp)
    · obtain rfl := Option.some.inj hu
      exact hs.request hbacked rfl rfl rfl nofun
  | answer i r salt =>
    simp only [Gateway.step] at hu
    split at hu
    · nomatch hu
    · rename_i request hget
      obtain rfl := Option.some.inj hu
      have hmem := List.mem_of_getElem? hget
      exact (hs.erase i).answer hne (hs.backed _ hmem) fun login p v hq ↦
        hs.reads login p v (hq ▸ hmem)
  | restart =>
    obtain rfl := Option.some.inj hu
    exact ⟨hs.stored, hbacked, nofun, hs.judged⟩

end SetUp

/-- From a state where the hash is stored, it stays stored. -/
theorem setUp_run {as : List Action}
    (hs : (system checkpw hashpw "").Reachable TransitionSystem.always s)
    (hstored : s.config.get "admin_password_hash" = some h) (hne : h ≠ "")
    (hrun : (system checkpw hashpw "").Run TransitionSystem.always s as t) :
    SetUp checkpw h s t :=
  hrun.invariant (fun hI _ ht ↦ hI.step hne ht) (SetUp.refl (backed_inductive.reachable hs) hstored)

/-- **Exactly when logins keep to the stored hash.** In every run after setup, with any database
calls raising: a token goes to matching passwords only, for the logins submitted since the hash was
stored, if and only if every password of theirs whose read of `app_config` raised matches. -/
theorem token_after_setup_iff {as : List Action}
    (hs : (system checkpw hashpw "").Reachable TransitionSystem.always s)
    (hstored : s.config.get "admin_password_hash" = some h) (hne : h ≠ "")
    (hrun : (system checkpw hashpw "").Run TransitionSystem.always s as t) :
    ∃ es, t.log = s.log ++ es ∧
      ((∀ login p, s.logins ≤ login → .token login p ∈ es → checkpw p h = true) ↔
        ∀ login p, s.logins ≤ login → .readRaised login p ∈ es → checkpw p h = true) := by
  obtain ⟨es, hlog, hes⟩ := (setUp_run hs hstored hne hrun).judged
  exact ⟨es, hlog, hes.iff (backed_inductive.reachable hs)⟩

/-! ### Runs after the same setup -/

/-- A hash that shows its salt and its password. -/
def plainHash (plain salt : String) : String :=
  salt ++ plain

/-- The password is the one in the hash. -/
def plainCheck (plain hash : String) : Bool :=
  hash = plainHash plain "$2b$12$"

/-- First-run setup, to its end. -/
def setUp : List Action :=
  [.setup ⟨"correct horse", "", ""⟩, .answer 0 .ok "", .answer 0 .ok "$2b$12$", .answer 0 .ok ""]

/-- A login, whose read ends as given. -/
def login (password : String) (r : Reply) : List Action :=
  [.auth "192.168.1.20" 100 password, .answer 0 r "", .answer 0 .ok ""]

/-- The test a run after setup is to pass: the hash was stored, and a login submitted since got a
token with this password. -/
def tokenSince (password : String) (s t : State) : Bool :=
  s.config.get "admin_password_hash" = some (plainHash "correct horse" "$2b$12$") &&
    (t.log.drop s.log.length).any fun
      | .token login p => s.logins ≤ login && p = password
      | _ => false

/-- The test on two states says what it is named after. -/
theorem of_tokenSince {password : String} (h : tokenSince password s t = true) :
    s.config.get "admin_password_hash" = some (plainHash "correct horse" "$2b$12$") ∧
      ∀ es, t.log = s.log ++ es → ∃ login, s.logins ≤ login ∧ .token login password ∈ es := by
  rw [tokenSince, Bool.and_eq_true, decide_eq_true_eq] at h
  refine ⟨h.1, fun es hlog ↦ ?_⟩
  rw [hlog, List.drop_left] at h
  obtain ⟨e, he, htest⟩ := List.any_eq_true.1 h.2
  cases e with
  | token login p =>
    obtain ⟨hlogin, rfl⟩ : s.logins ≤ login ∧ p = password := by simpa using htest
    exact ⟨login, hlogin, he⟩
  | _ => nomatch htest

/-- A login with the right password, whose read succeeded. -/
theorem token_after_setup_matching :
    ∃ s t as es, (system plainCheck plainHash "").Reachable TransitionSystem.always s ∧
      s.config.get "admin_password_hash" = some (plainHash "correct horse" "$2b$12$") ∧
      (system plainCheck plainHash "").Run TransitionSystem.always s as t ∧
      t.log = s.log ++ es ∧
      (∃ login, s.logins ≤ login ∧ .token login "correct horse" ∈ es) ∧
      ((∀ login p, s.logins ≤ login → .token login p ∈ es →
          plainCheck p (plainHash "correct horse" "$2b$12$") = true) ↔
        ∀ login p, s.logins ≤ login → .readRaised login p ∈ es →
          plainCheck p (plainHash "correct horse" "$2b$12$") = true) := by
  obtain ⟨s, t, hs, hrun, htest⟩ := TransitionSystem.exists_run_of_exec
    (M := system plainCheck plainHash "") (G := TransitionSystem.always) {} setUp
    (login "correct horse" .ok) (tokenSince "correct horse") rfl (by decide +kernel)
  obtain ⟨hstored, htoken⟩ := of_tokenSince htest
  obtain ⟨es, hlog, hiff⟩ := token_after_setup_iff hs hstored (by decide) hrun
  exact ⟨s, t, _, es, hs, hstored, hrun, hlog, htoken es hlog, hiff⟩

/-- A login with a wrong password, whose read raised: it gets a token. -/
theorem token_after_setup_wrong :
    ∃ s t as es, (system plainCheck plainHash "").Reachable TransitionSystem.always s ∧
      s.config.get "admin_password_hash" = some (plainHash "correct horse" "$2b$12$") ∧
      (system plainCheck plainHash "").Run TransitionSystem.always s as t ∧
      t.log = s.log ++ es ∧ (∃ login, s.logins ≤ login ∧ .token login "guess" ∈ es) ∧
      plainCheck "guess" (plainHash "correct horse" "$2b$12$") = false := by
  obtain ⟨s, t, hs, hrun, htest⟩ := TransitionSystem.exists_run_of_exec
    (M := system plainCheck plainHash "") (G := TransitionSystem.always) {} setUp
    (login "guess" .error) (tokenSince "guess") rfl (by decide +kernel)
  obtain ⟨hstored, htoken⟩ := of_tokenSince htest
  obtain ⟨es, hlog, -⟩ := (setUp_run hs hstored (by decide) hrun).judged
  exact ⟨s, t, _, es, hs, hstored, hrun, hlog, htoken es hlog, by decide +kernel⟩

/-- A login in flight across the setup: its `SELECT` ran first, so it gets a token without any read
raising. That is why the law is about the logins submitted since. -/
theorem token_across_setup :
    ∃ s t as, (system plainCheck plainHash "").Reachable TransitionSystem.always s ∧
      s.config.get "admin_password_hash" = some (plainHash "correct horse" "$2b$12$") ∧
      (system plainCheck plainHash "").Run TransitionSystem.always s as t ∧
      t.log = s.log ++ [.token 0 "guess"] := by
  obtain ⟨s, t, hs, hrun, htest⟩ := TransitionSystem.exists_run_of_exec
    (M := system plainCheck plainHash "") (G := TransitionSystem.always) {}
    [.auth "192.168.1.20" 100 "guess", .answer 0 .ok "", .setup ⟨"correct horse", "", ""⟩,
      .answer 1 .ok "", .answer 1 .ok "$2b$12$", .answer 1 .ok ""]
    [.answer 0 .ok ""]
    (fun s t ↦ s.config.get "admin_password_hash" = some (plainHash "correct horse" "$2b$12$") ∧
      t.log = s.log ++ [.token 0 "guess"]) rfl (by decide +kernel)
  obtain ⟨hstored, hlog⟩ := of_decide_eq_true htest
  exact ⟨s, t, _, hs, hstored, hrun, hlog⟩

end LiveSTT.Gateway
