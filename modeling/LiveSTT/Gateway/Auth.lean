import Mathlib.Data.Rat.Defs
import Mathlib.Algebra.Order.Ring.Rat
import Mathlib.Data.List.Nodup
import Mathlib.Logic.Function.Basic
import LiveSTT.Lib.TransitionSystem
import LiveSTT.Messaging.Broker

/-!
# api-gateway: login and first-run setup

The requests `POST /admin/auth` and `POST /setup`, over the table `app_config` and the memory of the
rate limiter. A request suspends at each database call; other requests run meanwhile, and the answer
to a call decides how the request goes on. A restart drops the requests in flight and the rate
limiter's memory, and keeps the table.

`_get_db_password_hash` suspends twice: at its `SELECT`, and again at the end of its database
session. What it returns is fixed by the first, when the `SELECT` runs, and the request goes on
after the second. A setup may commit in between. So the two are steps of their own, and a request
between them carries what it has read.

Three parameters stand for what is outside: `checkpw` and `hashpw` for bcrypt, the latter with its
salt, and `env` for the value of `ADMIN_PASSWORD_HASH`, empty when it is unset.

What a step does is in `step`, and what comes of a request in the log, by the number of the login or
the body of the setup. A commit that raises may have been carried out all the same, its answer lost;
both are replies here.
-/

namespace LiveSTT.Gateway

/-! ### The rate limiter -/

/-- `_AUTH_MAX_ATTEMPTS`. -/
def authMaxAttempts : ℕ := 5

/-- `_AUTH_WINDOW_S`. -/
def authWindowS : ℚ := 60

/-- `_auth_attempts`: the times of the accepted attempts by client IP. -/
abbrev Attempts := String → List ℚ

/-- `check_auth_rate_limit`: the new memory, and whether the attempt is let through. -/
def checkAuthRateLimit (attempts : Attempts) (clientIp : String) (now : ℚ) : Attempts × Bool :=
  let recent := (attempts clientIp).dropWhile (· < now - authWindowS)
  if authMaxAttempts ≤ recent.length then (Function.update attempts clientIp recent, false)
  else (Function.update attempts clientIp (recent ++ [now]), true)

/-! ### The table `app_config` -/

/-- The rows of `app_config`. The key is the primary key. -/
structure AppConfig where
  rows : List (String × String) := []
  keys_nodup : (rows.map Prod.fst).Nodup := by simp

/-- The value stored under a key. -/
def AppConfig.get (config : AppConfig) (key : String) : Option String :=
  config.rows.lookup key

/-- A transaction that adds rows: nothing is stored when a key is taken. -/
def AppConfig.insert (config : AppConfig) (rows : List (String × String)) : Option AppConfig :=
  if h : ((config.rows ++ rows).map Prod.fst).Nodup then some ⟨config.rows ++ rows, h⟩ else none

/-- A transaction that goes through adds its rows. -/
theorem AppConfig.rows_insert {config config' : AppConfig} {rows : List (String × String)}
    (h : config.insert rows = some config') : config'.rows = config.rows ++ rows := by
  simp only [AppConfig.insert] at h
  split at h
  · obtain rfl := Option.some.inj h
    rfl
  · contradiction

/-- And what was stored stays. -/
theorem AppConfig.get_insert {config config' : AppConfig} {rows : List (String × String)}
    {key value : String} (h : config.insert rows = some config')
    (hget : config.get key = some value) : config'.get key = some value := by
  rw [AppConfig.get] at hget ⊢
  rw [rows_insert h, List.lookup_append, hget, Option.some_or]

theorem AppConfig.mem_keys_of_get {config : AppConfig} {key value : String}
    (h : config.get key = some value) : key ∈ config.rows.map Prod.fst := by
  rw [AppConfig.get, List.lookup_eq_some_iff] at h
  obtain ⟨l₁, l₂, hrows, -⟩ := h
  simp [hrows]

/-- The primary key: a transaction that adds a stored key fails. -/
theorem AppConfig.insert_eq_none {config : AppConfig} {key value : String}
    {rows : List (String × String)} (h : config.get key = some value)
    (hkey : key ∈ rows.map Prod.fst) : config.insert rows = none := by
  refine dif_neg fun hnodup ↦ ?_
  rw [List.map_append] at hnodup
  exact (List.nodup_append.1 hnodup).2.2 _ (mem_keys_of_get h) _ hkey rfl

/-! ### Verifying a password -/

/-- The `SELECT` of `_get_db_password_hash`, `none` when it raises: the empty string for a missing
row. -/
def selectPasswordHash (config : AppConfig) (raised : Bool) : Option String :=
  if raised then none else some ((config.get "admin_password_hash").getD "")

/-- `_get_db_password_hash`, given what its `SELECT` read, after the end of its database session:
the empty string when either of the two raised. -/
def getDbPasswordHash (read : Option String) (raised : Bool) : String :=
  if raised then "" else read.getD ""

/-- `verify_password`, given what `_get_db_password_hash` returned. -/
def verifyPassword (checkpw : String → String → Bool) (env plain dbHash : String) : Bool :=
  if dbHash ≠ "" then checkpw plain dbHash
  else if env ≠ "" then checkpw plain env
  else true -- No password configured: dev mode.

/-- `needs_setup`, given what `_get_db_password_hash` returned. -/
def needsSetup (env dbHash : String) : Bool :=
  env = "" ∧ dbHash = ""

/-! ### Setup -/

/-- `MIN_PASSWORD_LENGTH`. -/
def minPasswordLength : ℕ := 8

structure SetupBody where
  password : String
  deepgramApiKey : String := ""
  siteTimezone : String := ""
  deriving DecidableEq

/-- The rows `first_run_setup` adds. -/
def setupRows (hashed : String) (body : SetupBody) : List (String × String) :=
  [("admin_password_hash", hashed), ("setup_complete", "true")] ++
    ((if body.deepgramApiKey ≠ "" then [("deepgram_api_key", body.deepgramApiKey)] else []) ++
      (if body.siteTimezone ≠ "" then [("site_timezone", body.siteTimezone)] else []))

/-! ### The system -/

/-- A request, suspended at a database call. -/
inductive Request
  /-- `POST /admin/auth` at the `SELECT` of `verify_password`. The logins are numbered. -/
  | authReading (login : ℕ) (password : String)
  /-- `POST /admin/auth` at the end of that database session, with what was read. -/
  | authClosing (login : ℕ) (password : String) (read : Option String)
  /-- `POST /setup` at the `SELECT` of `needs_setup`. -/
  | setupReading (body : SetupBody)
  /-- `POST /setup` at the end of that database session, with what was read. -/
  | setupClosing (body : SetupBody) (read : Option String)
  /-- `POST /setup` at its commit. -/
  | setupCommitting (body : SetupBody) (rows : List (String × String))

/-- What the clients see, and the reads that fail behind it. -/
inductive Event
  /-- 429: too many attempts. -/
  | limited (clientIp : String)
  /-- The read of `app_config` raised in this login, with this password. -/
  | readRaised (login : ℕ) (password : String)
  /-- A token for this login, with this password. -/
  | token (login : ℕ) (password : String)
  /-- 401: the password of this login is refused. -/
  | refused (login : ℕ) (password : String)
  /-- A token for a completed setup. -/
  | configured (body : SetupBody)
  /-- 409: setup is complete already. -/
  | alreadyConfigured (body : SetupBody)
  /-- 422: the password is too short. -/
  | tooShort (body : SetupBody)
  /-- 500: the commit raised. -/
  | setupFailed (body : SetupBody)
  deriving DecidableEq

structure State where
  config : AppConfig := {}
  attempts : Attempts := fun _ ↦ []
  requests : List Request := []
  /-- The logins submitted so far and let through the rate limit. It numbers them and decides
  nothing. -/
  logins : ℕ := 0
  log : List Event := []

def State.logs (s : State) (es : List Event) : State := { s with log := s.log ++ es }

inductive Action
  /-- `POST /admin/auth` arrives. -/
  | auth (clientIp : String) (now : ℚ) (password : String)
  /-- `POST /setup` arrives. -/
  | setup (body : SetupBody)
  /-- The database call of the `i`-th request in flight ends. -/
  | answer (i : ℕ) (r : Reply) (salt : String)
  /-- The process dies and starts again. -/
  | restart

section

variable (checkpw : String → String → Bool) (hashpw : String → String → String) (env : String)

/-- `admin_auth` after its database session, in which it has read `read`. -/
def finishAuth (s : State) (login : ℕ) (password : String) (read : Option String) (raised : Bool) :
    State :=
  let dbHash := getDbPasswordHash read raised
  (s.logs (if raised || read.isNone then [.readRaised login password] else [])).logs
    [if verifyPassword checkpw env password dbHash then .token login password
      else .refused login password]

/-- `first_run_setup` after its database session, in which it has read `read`: the next request in
flight, or the answer. -/
def continueSetup (s : State) (body : SetupBody) (read : Option String) (raised : Bool)
    (salt : String) : State :=
  if needsSetup env (getDbPasswordHash read raised) then
    if body.password.length < minPasswordLength then s.logs [.tooShort body]
    else { s with requests := s.requests ++
      [.setupCommitting body (setupRows (hashpw body.password salt) body)] }
  else s.logs [.alreadyConfigured body]

/-- `first_run_setup` after its commit. -/
def finishSetup (s : State) (body : SetupBody) (rows : List (String × String)) (r : Reply) :
    State :=
  match s.config.insert rows with
  | none => s.logs [.setupFailed body]
  | some config =>
    { s with config := if r.applied then config else s.config }.logs
      [if r.raised then .setupFailed body else .configured body]

/-- A request in flight gets the answer to its database call. -/
def answer (s : State) (request : Request) (r : Reply) (salt : String) : State :=
  match request with
  | .authReading login password =>
    { s with requests := s.requests ++
      [.authClosing login password (selectPasswordHash s.config r.raised)] }
  | .authClosing login password read => finishAuth checkpw env s login password read r.raised
  | .setupReading body =>
    { s with requests := s.requests ++ [.setupClosing body (selectPasswordHash s.config r.raised)] }
  | .setupClosing body read => continueSetup hashpw env s body read r.raised salt
  | .setupCommitting body rows => finishSetup s body rows r

def step (s : State) : Action → Option State
  | .auth clientIp now password =>
    match checkAuthRateLimit s.attempts clientIp now with
    | (attempts, true) =>
      some { s with
        attempts := attempts
        requests := s.requests ++ [.authReading s.logins password]
        logins := s.logins + 1 }
    | (attempts, false) => some ({ s with attempts := attempts }.logs [.limited clientIp])
  | .setup body =>
    -- With `ADMIN_PASSWORD_HASH` set, `needs_setup` returns before it reads.
    if env ≠ "" then some (s.logs [.alreadyConfigured body])
    else some { s with requests := s.requests ++ [.setupReading body] }
  | .answer i r salt =>
    match s.requests[i]? with
    | none => none
    | some request =>
      some (answer checkpw hashpw env { s with requests := s.requests.eraseIdx i } request r salt)
  | .restart => some { s with attempts := fun _ ↦ [], requests := [] }

/-- api-gateway's login and setup, started on an empty database. -/
def system : TransitionSystem State Action where
  init s := s = {}
  step := step checkpw hashpw env

end

end LiveSTT.Gateway
