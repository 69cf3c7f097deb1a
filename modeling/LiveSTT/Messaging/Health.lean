import LiveSTT.Lib.ExpiringStore
import LiveSTT.Lib.Json
import LiveSTT.Lib.TransitionSystem
import LiveSTT.Messaging.Broker
import Mathlib.Algebra.Order.Ring.Rat
import Mathlib.Data.String.Basic
import Mathlib.Tactic.Linarith

/-!
# Service health

Every service that is built on `BaseService` puts a heartbeat under its name into the bucket
`service_health`, whose entries expire. Two parties read the bucket: health-watchdog lists its keys
again and again and warns of each monitored service that is not among them, and api-gateway answers
`GET /admin/status` with a row for each key.

The time to live of the entries is a parameter. The source creates the bucket with
`ttl=5 * 1000000000` and the remark "5s TTL"; what that number means is up to the client library.

`down_iff` says what a check tells: a service is reported down exactly if it is monitored and its
last put before the listing has expired. Nobody puts a heartbeat of api-gateway, which is in the
default list of monitored services, so that each check by the default list warns
(`down_apiGateway`).

`_get_service_heartbeats` replaces the status of a row by "stale" if the heartbeat is older than
thirty seconds. But it reads entries that are alive, so a row is stale only if its heartbeat was
under way for longer than what is left of thirty seconds after the time to live
(`delayed_of_stale`).
-/

namespace LiveSTT.Health

open TransitionSystem
open ExpiringStore (Record ofLog Ascending)

/-! ### Heartbeats -/

/-- The names that the subclasses of `BaseService` pass to it. -/
def serviceNames : List String :=
  ["audio-classifier", "audio-producer", "identity-manager", "stt-provider", "health-watchdog",
    "identifier", "system-manager"]

/-- The payload of a heartbeat, written at `timestamp`. -/
def payload (service : String) (timestamp : ℚ) : Dict :=
  [("status", .str "running"), ("service", .str service), ("timestamp", .num timestamp)]

/-- An entry of `service_health`, with the time of its put. -/
abbrev Beat := Record String ℚ Dict

/-! ### health-watchdog -/

/-- `_DEFAULT_MONITORED`. -/
def defaultMonitored : List String :=
  ["audio-producer", "stt-provider", "identity-manager", "audio-classifier", "api-gateway",
    "system-manager"]

/-- `CHECK_INTERVAL_S`. -/
def checkIntervalS : ℚ := 10

/-- What `_check_services` logs. -/
inductive Report
  /-- The bucket is not there. -/
  | unavailable
  /-- The keys could not be listed. -/
  | failed
  /-- The services that are down, and those that are not in the monitored list. -/
  | checked (down unexpected : List String)

/-- `_check_services`, with the keys that are alive. -/
def checkServices (monitored alive : List String) : Report :=
  .checked (monitored.filter fun service ↦ service ∉ alive)
    ((alive.filter fun service ↦ service ∉ monitored ∧ service ≠ "health-watchdog").mergeSort
      fun a b ↦ a ≤ b)

/-- Where health-watchdog is suspended. -/
inductive Watch
  /-- Between two checks, until the time. -/
  | waiting (deadline : ℚ)
  /-- At `key_value`. -/
  | opening
  /-- At the listing of the keys, which returns `keys` or raises; `seen` counts the puts before
  it. -/
  | listing (seen : ℕ) (time : ℚ) (keys : List String)

/-- A check that has come to its end. -/
structure Check where
  /-- The number of puts before the listing. -/
  seen : ℕ
  /-- The time of the listing. -/
  time : ℚ
  report : Report

/-! ### GET /admin/status -/

/-- `_HEARTBEAT_STALE_S`. -/
def heartbeatStaleS : ℚ := 30

/-- A row of the services. -/
inductive Row
  | beat (name status : Json) (timestamp : ℚ)
  /-- The entry could not be read. -/
  | error (name : String)

/-- The row of an entry, at the time `now`. A timestamp that is no number does not compare. -/
def rowOf (now : ℚ) (key : String) (data : Dict) : Row :=
  match Dict.getOr data "timestamp" (.num 0) with
  | .num ts =>
    .beat (Dict.getOr data "service" (.str key))
      (if now - ts > heartbeatStaleS then .str "stale"
      else Dict.getOr data "status" (.str "unknown")) ts
  | _ => .error key

/-- `_get_service_heartbeats`, suspended at a call. -/
inductive Request
  /-- At `key_value`; it has begun at `now`. -/
  | opening (now : ℚ)
  /-- At the listing of the keys, which returns `keys` or raises. -/
  | listing (now : ℚ) (keys : List String)
  /-- At the get of a key, which returns `entry` or raises; `rest` is still to come. -/
  | getting (now : ℚ) (services : List Row) (key : String) (entry : Option Beat)
      (rest : List String)

/-- What `_get_service_heartbeats` returns. -/
structure Answer where
  /-- The time it has begun. -/
  now : ℚ
  services : List Row

/-! ### The system -/

structure State where
  now : ℚ := 0
  /-- The bucket is there. -/
  created : Bool := false
  bucket : List Beat := []
  /-- The puts so far. -/
  puts : List Beat := []
  watch : Watch := .waiting 0
  checks : List Check := []
  requests : List Request := []
  answers : List Answer := []

inductive Action
  /-- Time passes. -/
  | tick (d : ℚ)
  /-- A service creates the bucket. -/
  | create
  /-- The heartbeat of a service that was written at `timestamp` is put. -/
  | beat (service : String) (timestamp : ℚ)
  /-- health-watchdog starts anew. -/
  | boot
  /-- health-watchdog goes on. -/
  | watch (raised : Bool)
  /-- `GET /admin/status` arrives. -/
  | status
  /-- The call of the `i`-th request in flight ends. -/
  | resume (i : ℕ) (raised : Bool)

section

variable (ttl : ℚ) (monitored : List String)

/-- An entry put at `time` is alive. -/
def Alive (now time : ℚ) : Prop := now - time < ttl

instance (now time : ℚ) : Decidable (Alive ttl now time) :=
  inferInstanceAs (Decidable (now - time < ttl))

namespace State

variable (s : State)

/-- `kv.keys()`. -/
def keys : List String := ExpiringStore.keys (Alive ttl s.now) s.bucket

/-- `kv.get(key)`. -/
def get (key : String) : Option Beat := ExpiringStore.get (Alive ttl s.now) s.bucket key

def suspend (q : Request) : State := { s with requests := s.requests ++ [q] }

def reply (now : ℚ) (services : List Row) : State :=
  { s with answers := s.answers ++ [⟨now, services⟩] }

end State

/-- `_check_services`, when the call it awaits ends, and the wait for the next check. -/
def watchStep (s : State) (raised : Bool) : Option State :=
  match s.watch with
  | .waiting deadline => if deadline ≤ s.now then some { s with watch := .opening } else none
  | .opening =>
    some (if raised || !s.created then
      { s with
        watch := .waiting (s.now + checkIntervalS)
        checks := s.checks ++ [⟨s.puts.length, s.now, .unavailable⟩] }
    else { s with watch := .listing s.puts.length s.now (s.keys ttl) })
  | .listing seen time keys =>
    some { s with
      watch := .waiting (s.now + checkIntervalS)
      checks :=
        s.checks ++ [⟨seen, time, if raised then .failed else checkServices monitored keys⟩] }

/-- The loop of `_get_service_heartbeats`, at its next key. -/
def nextKey (s : State) (now : ℚ) (services : List Row) : List String → State
  | [] => s.reply now services
  | key :: rest => s.suspend (.getting now services key (s.get ttl key) rest)

/-- `_get_service_heartbeats` goes on. -/
def resume (s : State) (q : Request) (raised : Bool) : State :=
  match q with
  | .opening now =>
    if raised || !s.created then s.reply now [] else s.suspend (.listing now (s.keys ttl))
  | .listing now keys => if raised then s.reply now [] else nextKey ttl s now [] keys
  | .getting now services key entry rest =>
    nextKey ttl s now
      (services ++ [match if raised then none else entry with
        | some e => rowOf now key e.value
        | none => .error key]) rest

def step (s : State) : Action → Option State
  | .tick d => if 0 ≤ d then some { s with now := s.now + d } else none
  | .create => some { s with created := true }
  | .beat service timestamp =>
    if s.created = true ∧ service ∈ serviceNames ∧ timestamp ≤ s.now then
      some { s with
        bucket := ExpiringStore.put s.bucket ⟨service, s.now, payload service timestamp⟩
        puts := s.puts ++ [⟨service, s.now, payload service timestamp⟩] }
    else none
  | .boot => some { s with watch := .waiting s.now }
  | .watch raised => watchStep ttl monitored s raised
  | .status => some (s.suspend (.opening s.now))
  | .resume i raised =>
    s.requests[i]?.map fun q ↦ resume ttl { s with requests := s.requests.eraseIdx i } q raised

def system : TransitionSystem State Action where
  init s := s = {}
  step := step ttl monitored

variable {ttl : ℚ} {monitored : List String} {s t : State} {a : Action}

/-! ### The bucket -/

/-- The bucket is what the puts have left of it, and each of them was written before it was put. -/
structure Stored (s : State) : Prop where
  bucket : s.bucket = ofLog s.puts
  ascending : Ascending s.puts
  past : ∀ x ∈ s.puts, x.time ≤ s.now
  written : ∀ x ∈ s.puts, x.key ∈ serviceNames ∧ ∃ ts ≤ x.time, x.value = payload x.key ts

/-- Time goes on, and puts are only added. -/
structure Grows (s t : State) : Prop where
  now : s.now ≤ t.now
  puts : s.puts <+: t.puts

theorem Grows.refl (s : State) : Grows s s := ⟨le_rfl, List.prefix_rfl⟩

/-- The clock, the bucket and the puts are as they were. -/
structure Aside (s t : State) : Prop where
  now : t.now = s.now
  bucket : t.bucket = s.bucket
  puts : t.puts = s.puts

theorem Aside.grows (h : Aside s t) : Grows s t :=
  ⟨h.now.ge, h.puts ▸ List.prefix_rfl⟩

theorem Stored.aside (h : Stored s) (hst : Aside s t) : Stored t := by
  obtain ⟨hbucket, hascending, hpast, hwritten⟩ := h
  obtain ⟨hnow, hbucket', hputs⟩ := hst
  refine ⟨by rw [hbucket', hputs, hbucket], by rwa [hputs], fun x hx ↦ ?_, by rwa [hputs]⟩
  rw [hputs] at hx
  rw [hnow]
  exact hpast x hx

theorem aside_nextKey (now : ℚ) (services : List Row) (rest : List String) :
    Aside s (nextKey ttl s now services rest) := by
  cases rest with
  | nil => exact ⟨rfl, rfl, rfl⟩
  | cons key rest => exact ⟨rfl, rfl, rfl⟩

/-- A request for the health page that goes on stores nothing and leaves the clock alone. -/
theorem aside_resume (q : Request) (raised : Bool) : Aside s (resume ttl s q raised) := by
  cases q with
  | opening now =>
    rw [resume]
    split <;> exact ⟨rfl, rfl, rfl⟩
  | listing now keys =>
    rw [resume]
    split
    · exact ⟨rfl, rfl, rfl⟩
    · exact aside_nextKey now [] keys
  | getting now services key entry rest => exact aside_nextKey now _ rest

/-- Nor does the watchdog store anything. -/
theorem aside_watchStep {raised : Bool} (ht : watchStep ttl monitored s raised = some t) :
    Aside s t := by
  cases hw : s.watch with
  | waiting deadline =>
    simp only [watchStep, hw, Option.ite_none_right_eq_some, Option.some.injEq] at ht
    obtain ⟨-, rfl⟩ := ht
    exact ⟨rfl, rfl, rfl⟩
  | opening =>
    rw [watchStep, hw] at ht
    obtain rfl := Option.some.inj ht
    split <;> exact ⟨rfl, rfl, rfl⟩
  | listing seen time keys =>
    rw [watchStep, hw] at ht
    obtain rfl := Option.some.inj ht
    exact ⟨rfl, rfl, rfl⟩

/-- **One step**: time passes, a heartbeat is put, or neither. -/
theorem step_cases (ht : step ttl monitored s a = some t) :
    (∃ d, 0 ≤ d ∧ t = { s with now := s.now + d }) ∨
    (∃ service timestamp, service ∈ serviceNames ∧ timestamp ≤ s.now ∧
      t = { s with
        bucket := ExpiringStore.put s.bucket ⟨service, s.now, payload service timestamp⟩
        puts := s.puts ++ [⟨service, s.now, payload service timestamp⟩] }) ∨
    Aside s t := by
  cases a with
  | tick d =>
    simp only [step, Option.ite_none_right_eq_some, Option.some.injEq] at ht
    exact Or.inl ⟨d, ht.1, ht.2.symm⟩
  | create =>
    obtain rfl := Option.some.inj ht
    exact Or.inr (Or.inr ⟨rfl, rfl, rfl⟩)
  | beat service timestamp =>
    simp only [step, Option.ite_none_right_eq_some, Option.some.injEq] at ht
    obtain ⟨⟨-, hservice, htimestamp⟩, rfl⟩ := ht
    exact Or.inr (Or.inl ⟨service, timestamp, hservice, htimestamp, rfl⟩)
  | boot =>
    obtain rfl := Option.some.inj ht
    exact Or.inr (Or.inr ⟨rfl, rfl, rfl⟩)
  | watch raised => exact Or.inr (Or.inr (aside_watchStep ht))
  | status =>
    obtain rfl := Option.some.inj ht
    exact Or.inr (Or.inr ⟨rfl, rfl, rfl⟩)
  | resume i raised =>
    obtain ⟨q, -, rfl⟩ := Option.map_eq_some_iff.1 ht
    have haside : Aside { s with requests := s.requests.eraseIdx i }
        (resume ttl { s with requests := s.requests.eraseIdx i } q raised) := aside_resume q raised
    exact Or.inr (Or.inr ⟨haside.now, haside.bucket, haside.puts⟩)

theorem grows_of_step (ht : step ttl monitored s a = some t) : Grows s t := by
  rcases step_cases ht with ⟨d, hd, rfl⟩ | ⟨service, timestamp, -, -, rfl⟩ | haside
  · exact ⟨by simpa using hd, List.prefix_rfl⟩
  · exact ⟨le_rfl, List.prefix_append _ _⟩
  · exact haside.grows

/-- Only a heartbeat puts an entry, with the time of its put. -/
theorem Stored.step (h : Stored s) (ht : step ttl monitored s a = some t) : Stored t := by
  rcases step_cases ht with ⟨d, hd, rfl⟩ | ⟨service, timestamp, hservice, htimestamp, rfl⟩ | haside
  · exact ⟨h.bucket, h.ascending, fun x hx ↦ (h.past x hx).trans (by simpa using hd), h.written⟩
  · refine ⟨?_, ExpiringStore.ascending_append_singleton h.ascending h.past, fun x hx ↦ ?_,
      fun x hx ↦ ?_⟩
    · simp only [ExpiringStore.ofLog_append_singleton, h.bucket]
    · rcases List.mem_append.1 hx with hx | hx
      · exact h.past x hx
      · rw [List.mem_singleton.1 hx]
    · rcases List.mem_append.1 hx with hx | hx
      · exact h.written x hx
      · rw [List.mem_singleton.1 hx]
        exact ⟨hservice, timestamp, htimestamp, rfl⟩
  · exact h.aside haside

theorem stored_of_reachable (hs : (system ttl monitored).Reachable always s) : Stored s := by
  refine Inductive.reachable ⟨?_, fun h _ ht ↦ h.step ht⟩ hs
  rintro s rfl
  exact ⟨rfl, List.Pairwise.nil, by simp, by simp⟩

/-! ### Listings -/

/-- The keys are those of the entries that were alive after the first `seen` puts. -/
structure Listed (ttl : ℚ) (s : State) (seen : ℕ) (time : ℚ) (keys : List String) : Prop where
  le : seen ≤ s.puts.length
  nodup : keys.Nodup
  mem_iff : ∀ key, key ∈ keys ↔ ∃ x ∈ s.puts.take seen, x.key = key ∧ Alive ttl time x.time

theorem Listed.grows {seen : ℕ} {time : ℚ} {keys : List String} (h : Listed ttl s seen time keys)
    (hst : Grows s t) : Listed ttl t seen time keys := by
  obtain ⟨hseen, hnodup, hmem⟩ := h
  obtain ⟨more, hmore⟩ := hst.puts
  refine ⟨hseen.trans hst.puts.length_le, hnodup, fun key ↦ ?_⟩
  rw [hmem, ← hmore, List.take_append_of_le_length hseen]

theorem alive_mono {now : ℚ} : ∀ ⦃t u : ℚ⦄, t ≤ u → Alive ttl now t → Alive ttl now u := by
  intro t u htu ht
  unfold Alive at ht ⊢
  linarith

/-- A listing tells which services were put in time. -/
theorem Stored.listed (ttl : ℚ) (h : Stored s) : Listed ttl s s.puts.length s.now (s.keys ttl) := by
  refine ⟨le_rfl, ?_, fun key ↦ ?_⟩
  · rw [State.keys, h.bucket]
    exact ExpiringStore.nodup_keys
  · rw [State.keys, h.bucket, List.take_length]
    exact ExpiringStore.mem_keys_ofLog_iff h.ascending alive_mono

/-- The checks have been made with listings. -/
structure Watched (ttl : ℚ) (monitored : List String) (s : State) : Prop where
  listing : ∀ seen time keys, s.watch = .listing seen time keys → Listed ttl s seen time keys
  checks : ∀ c ∈ s.checks, ∀ down unexpected, c.report = .checked down unexpected →
    ∃ keys, Listed ttl s c.seen c.time keys ∧ c.report = checkServices monitored keys

/-- What the watchdog has seen stays so as the time goes on. -/
theorem Watched.grows (h : Watched ttl monitored s) (hst : Grows s t) (hwatch : t.watch = s.watch)
    (hchecks : t.checks = s.checks) : Watched ttl monitored t := by
  constructor
  · intro seen time keys hw
    rw [hwatch] at hw
    exact (h.listing seen time keys hw).grows hst
  · intro c hc down unexpected hreport
    rw [hchecks] at hc
    obtain ⟨keys, hkeys, hreport⟩ := h.checks c hc down unexpected hreport
    exact ⟨keys, hkeys.grows hst, hreport⟩

/-- A new check, and a watch that is at no listing. -/
theorem Watched.check (h : Watched ttl monitored s) {deadline : ℚ} {c : Check}
    (hc : ∀ down unexpected, c.report = .checked down unexpected →
      ∃ keys, Listed ttl s c.seen c.time keys ∧ c.report = checkServices monitored keys) :
    Watched ttl monitored { s with watch := .waiting deadline, checks := s.checks ++ [c] } := by
  constructor
  · intro seen time keys hw
    contradiction
  · intro c' hc' down unexpected hreport
    rcases List.mem_append.1 hc' with hc' | hc'
    · obtain ⟨keys, ⟨h₁, h₂, h₃⟩, hkeys⟩ := h.checks c' hc' down unexpected hreport
      exact ⟨keys, ⟨h₁, h₂, h₃⟩, hkeys⟩
    · rw [List.mem_singleton.1 hc'] at hreport ⊢
      obtain ⟨keys, ⟨h₁, h₂, h₃⟩, hkeys⟩ := hc down unexpected hreport
      exact ⟨keys, ⟨h₁, h₂, h₃⟩, hkeys⟩

/-- A check reads the keys one after the other, each as it is at that moment. -/
theorem Watched.watchStep (h : Watched ttl monitored s) (hstored : Stored s) {raised : Bool}
    (ht : watchStep ttl monitored s raised = some t) : Watched ttl monitored t := by
  cases hw : s.watch with
  | waiting deadline =>
    simp only [Health.watchStep, hw, Option.ite_none_right_eq_some, Option.some.injEq] at ht
    obtain ⟨-, rfl⟩ := ht
    refine ⟨fun seen time keys hw ↦ by contradiction, fun c hc down unexpected hreport ↦ ?_⟩
    obtain ⟨keys, ⟨h₁, h₂, h₃⟩, hkeys⟩ := h.checks c hc down unexpected hreport
    exact ⟨keys, ⟨h₁, h₂, h₃⟩, hkeys⟩
  | opening =>
    rw [Health.watchStep, hw] at ht
    obtain rfl := Option.some.inj ht
    split
    · exact h.check fun down unexpected hreport ↦ by contradiction
    · obtain ⟨h₁, h₂, h₃⟩ := hstored.listed ttl
      refine ⟨fun seen time keys hw ↦ ?_, fun c hc down unexpected hreport ↦ ?_⟩
      · obtain ⟨rfl, rfl, rfl⟩ : s.puts.length = seen ∧ s.now = time ∧ s.keys ttl = keys := by
          simpa using hw
        exact ⟨h₁, h₂, h₃⟩
      · obtain ⟨keys, ⟨h₁, h₂, h₃⟩, hkeys⟩ := h.checks c hc down unexpected hreport
        exact ⟨keys, ⟨h₁, h₂, h₃⟩, hkeys⟩
  | listing seen time keys =>
    rw [Health.watchStep, hw] at ht
    obtain rfl := Option.some.inj ht
    refine h.check fun down unexpected hreport ↦ ?_
    cases raised with
    | true => contradiction
    | false => exact ⟨keys, h.listing seen time keys hw, rfl⟩

/-- A request does not move the watchdog. -/
theorem watch_resume (q : Request) (raised : Bool) :
    (resume ttl s q raised).watch = s.watch ∧ (resume ttl s q raised).checks = s.checks := by
  have hnext (now : ℚ) (services : List Row) (rest : List String) :
      (nextKey ttl s now services rest).watch = s.watch ∧
        (nextKey ttl s now services rest).checks = s.checks := by
    cases rest with
    | nil => exact ⟨rfl, rfl⟩
    | cons key rest => exact ⟨rfl, rfl⟩
  cases q with
  | opening now =>
    rw [resume]
    split <;> exact ⟨rfl, rfl⟩
  | listing now keys =>
    rw [resume]
    split
    · exact ⟨rfl, rfl⟩
    · exact hnext now [] keys
  | getting now services key entry rest => exact hnext now _ rest

/-- A step of the services, of the watchdog or of a request. -/
theorem Watched.step (h : Watched ttl monitored s) (hstored : Stored s)
    (ht : step ttl monitored s a = some t) : Watched ttl monitored t := by
  have hgrows := grows_of_step ht
  cases a with
  | watch raised => exact h.watchStep hstored ht
  | boot =>
    obtain rfl := Option.some.inj ht
    refine ⟨fun seen time keys hw ↦ by contradiction, fun c hc down unexpected hreport ↦ ?_⟩
    obtain ⟨keys, hkeys, hreport⟩ := h.checks c hc down unexpected hreport
    exact ⟨keys, hkeys.grows hgrows, hreport⟩
  | tick d =>
    simp only [Health.step, Option.ite_none_right_eq_some, Option.some.injEq] at ht
    obtain ⟨-, rfl⟩ := ht
    exact h.grows hgrows rfl rfl
  | create =>
    obtain rfl := Option.some.inj ht
    exact h.grows hgrows rfl rfl
  | beat service timestamp =>
    simp only [Health.step, Option.ite_none_right_eq_some, Option.some.injEq] at ht
    obtain ⟨-, rfl⟩ := ht
    exact h.grows hgrows rfl rfl
  | status =>
    obtain rfl := Option.some.inj ht
    exact h.grows hgrows rfl rfl
  | resume i raised =>
    obtain ⟨q, -, rfl⟩ := Option.map_eq_some_iff.1 ht
    have hwatch :
        (resume ttl { s with requests := s.requests.eraseIdx i } q raised).watch = s.watch ∧
        (resume ttl { s with requests := s.requests.eraseIdx i } q raised).checks = s.checks :=
      watch_resume q raised
    exact h.grows hgrows hwatch.1 hwatch.2

theorem watched_of_reachable (hs : (system ttl monitored).Reachable always s) :
    Watched ttl monitored s := by
  refine hs.induct ?_ fun {s a t} hreach h _ ht ↦ h.step (stored_of_reachable hreach) ht
  rintro s rfl
  exact ⟨fun seen time keys hw ↦ by contradiction, by simp⟩

/-- **What a check tells**, in every run: down are exactly the monitored services whose puts before
the listing have all expired, and unexpected are, in order, the services off the list that are
alive. -/
theorem down_iff (hs : (system ttl monitored).Reachable always s) {c : Check} (hc : c ∈ s.checks)
    {down unexpected : List String} (hreport : c.report = .checked down unexpected)
    (service : String) :
    (service ∈ down ↔ service ∈ monitored ∧
      ∀ x ∈ s.puts.take c.seen, x.key = service → ttl ≤ c.time - x.time) ∧
    (service ∈ unexpected ↔ service ∉ monitored ∧ service ≠ "health-watchdog" ∧
      ∃ x ∈ s.puts.take c.seen, x.key = service ∧ c.time - x.time < ttl) ∧
    unexpected.Pairwise (· ≤ ·) := by
  obtain ⟨keys, hkeys, hchecked⟩ := (watched_of_reachable hs).checks c hc down unexpected hreport
  rw [hreport] at hchecked
  obtain ⟨rfl, rfl⟩ := Report.checked.inj hchecked
  refine ⟨?_, ?_, ?_⟩
  · rw [List.mem_filter, decide_eq_true_eq, hkeys.mem_iff]
    refine and_congr_right fun _ ↦ ?_
    constructor
    · intro hnot x hx hkey
      by_contra hlt
      exact hnot ⟨x, hx, hkey, not_le.1 hlt⟩
    · rintro hall ⟨x, hx, hkey, halive⟩
      exact absurd (hall x hx hkey) (not_le.2 halive)
  · rw [List.mem_mergeSort, List.mem_filter, decide_eq_true_eq, hkeys.mem_iff]
    constructor
    · rintro ⟨⟨x, hx, hkey, halive⟩, hmonitored, hwatchdog⟩
      exact ⟨hmonitored, hwatchdog, x, hx, hkey, halive⟩
    · rintro ⟨hmonitored, hwatchdog, x, hx, hkey, halive⟩
      exact ⟨⟨x, hx, hkey, halive⟩, hmonitored, hwatchdog⟩
  · refine List.Pairwise.imp (fun {a b} h ↦ by simpa using h) (List.pairwise_mergeSort ?_ ?_ _)
    · intro a b c hab hbc
      simp only [decide_eq_true_eq] at hab hbc ⊢
      exact le_trans hab hbc
    · intro a b
      simpa using le_total a b

/-- **No check by the default list is silent**: nobody puts a heartbeat of api-gateway, and it is
reported down each time, whoever is alive. -/
theorem down_apiGateway (hs : (system ttl defaultMonitored).Reachable always s) {c : Check}
    (hc : c ∈ s.checks) {down unexpected : List String}
    (hreport : c.report = .checked down unexpected) : "api-gateway" ∈ down := by
  obtain ⟨keys, hkeys, hchecked⟩ := (watched_of_reachable hs).checks c hc down unexpected hreport
  rw [hreport] at hchecked
  obtain ⟨rfl, rfl⟩ := Report.checked.inj hchecked
  rw [List.mem_filter, decide_eq_true_eq, hkeys.mem_iff]
  refine ⟨by decide, ?_⟩
  rintro ⟨x, hx, hkey, -⟩
  obtain ⟨hservice, -⟩ := (stored_of_reachable hs).written x (List.mem_of_mem_take hx)
  rw [hkey] at hservice
  exact absurd hservice (by decide)

/-- audio-producer alone has put a heartbeat when the keys are listed. -/
def firstCheck : List Action :=
  [.create, .beat "audio-producer" 0, .watch false, .watch false, .watch false]

/-- It is not reported down, and stt-provider is. -/
theorem down_iff_firstCheck : ∃ s, (system 5 defaultMonitored).Reachable always s ∧
    ∃ c ∈ s.checks, ∃ down unexpected, c.report = .checked down unexpected ∧
      "audio-producer" ∉ down ∧ "stt-provider" ∈ down := by
  have hrun : (system 5 defaultMonitored).Run always {} firstCheck _ := run_of_exec rfl
  have hreach :=
    (Reachable.of_init (M := system 5 defaultMonitored) (G := always) (s := {}) rfl).run hrun
  refine ⟨_, hreach, _, List.mem_singleton_self _, _, _, rfl, ?_, ?_⟩
  · rw [(down_iff hreach (List.mem_singleton_self _) rfl "audio-producer").1]
    rintro ⟨-, hall⟩
    have hexpired : (5 : ℚ) ≤ 0 - 0 := hall _ (List.mem_singleton_self _) rfl
    norm_num at hexpired
  · rw [(down_iff hreach (List.mem_singleton_self _) rfl "stt-provider").1]
    refine ⟨by decide, fun x hx hkey ↦ ?_⟩
    rw [List.mem_singleton.1 hx] at hkey
    exact absurd hkey (by decide)

/-- At the first check the gateway itself is reported down, as it has not beaten yet. -/
theorem down_apiGateway_firstCheck : ∃ s, (system 5 defaultMonitored).Reachable always s ∧
    ∃ c ∈ s.checks, ∃ down unexpected, c.report = .checked down unexpected ∧
      "api-gateway" ∈ down := by
  have hrun : (system 5 defaultMonitored).Run always {} firstCheck _ := run_of_exec rfl
  have hreach :=
    (Reachable.of_init (M := system 5 defaultMonitored) (G := always) (s := {}) rfl).run hrun
  exact ⟨_, hreach, _, List.mem_singleton_self _, _, _, rfl,
    down_apiGateway hreach (List.mem_singleton_self _) rfl⟩

/-! ### Rows -/

/-- The time the request has begun. -/
def Request.now : Request → ℚ
  | .opening now => now
  | .listing now _ => now
  | .getting now _ _ _ _ => now

/-- The row is an error, or that of a heartbeat that was alive when the request began. -/
def Told (ttl : ℚ) (s : State) (now : ℚ) (row : Row) : Prop :=
  (∃ key, row = .error key) ∨
    ∃ x ∈ s.puts, now - x.time < ttl ∧ row = rowOf now x.key x.value

theorem Told.grows {now : ℚ} {row : Row} (h : Told ttl s now row) (hst : Grows s t) :
    Told ttl t now row := by
  rcases h with h | ⟨x, hx, halive, hrow⟩
  · exact Or.inl h
  · exact Or.inr ⟨x, hst.puts.subset hx, halive, hrow⟩

/-- What a request has read so far was alive when it began. -/
def Request.Sound (ttl : ℚ) (s : State) : Request → Prop
  | .getting now services key entry _ => (∀ row ∈ services, Told ttl s now row) ∧
      ∀ x, entry = some x → x ∈ s.puts ∧ x.key = key ∧ now - x.time < ttl
  | _ => True

/-- A request that waits keeps what it has read. -/
theorem Request.Sound.grows {q : Request} (h : q.Sound ttl s) (hst : Grows s t) :
    q.Sound ttl t := by
  cases q with
  | opening now => trivial
  | listing now keys => trivial
  | getting now services key entry rest =>
    obtain ⟨hservices, hentry⟩ := h
    refine ⟨fun row hrow ↦ (hservices row hrow).grows hst, fun x hx ↦ ?_⟩
    obtain ⟨hput, hkey, halive⟩ := hentry x hx
    exact ⟨hst.puts.subset hput, hkey, halive⟩

/-- The requests and the answers tell of heartbeats that were alive. -/
structure Served (ttl : ℚ) (s : State) : Prop where
  began : ∀ q ∈ s.requests, q.now ≤ s.now
  sound : ∀ q ∈ s.requests, q.Sound ttl s
  answers : ∀ answer ∈ s.answers, ∀ row ∈ answer.services, Told ttl s answer.now row

/-- So do all of them. -/
theorem Served.grows (h : Served ttl s) (hst : Grows s t) (hrequests : t.requests = s.requests)
    (hanswers : t.answers = s.answers) : Served ttl t := by
  obtain ⟨hbegan, hsound, hrows⟩ := h
  refine ⟨fun q hq ↦ ?_, fun q hq ↦ ?_, fun answer hanswer row hrow ↦ ?_⟩
  · rw [hrequests] at hq
    exact (hbegan q hq).trans hst.now
  · rw [hrequests] at hq
    exact (hsound q hq).grows hst
  · rw [hanswers] at hanswer
    exact (hrows answer hanswer row hrow).grows hst

/-- A request that has read a row waits for its next. -/
theorem Served.suspend (h : Served ttl s) {q : Request} (hnow : q.now ≤ s.now)
    (hsound : q.Sound ttl s) : Served ttl (s.suspend q) := by
  have hgrows : Grows s (s.suspend q) := ⟨le_rfl, List.prefix_rfl⟩
  refine ⟨fun q' hq' ↦ ?_, fun q' hq' ↦ ?_,
    fun answer hanswer row hrow ↦ (h.answers answer hanswer row hrow).grows hgrows⟩
  · rcases List.mem_append.1 hq' with hq' | hq'
    · exact h.began q' hq'
    · rw [List.mem_singleton.1 hq']
      exact hnow
  · rcases List.mem_append.1 hq' with hq' | hq'
    · exact (h.sound q' hq').grows hgrows
    · rw [List.mem_singleton.1 hq']
      exact hsound.grows hgrows

/-- A request that has read all its rows is answered with them. -/
theorem Served.reply (h : Served ttl s) {now : ℚ} {services : List Row}
    (hservices : ∀ row ∈ services, Told ttl s now row) : Served ttl (s.reply now services) := by
  have hgrows : Grows s (s.reply now services) := ⟨le_rfl, List.prefix_rfl⟩
  refine ⟨h.began, fun q hq ↦ (h.sound q hq).grows hgrows, fun answer hanswer row hrow ↦ ?_⟩
  rcases List.mem_append.1 hanswer with hanswer | hanswer
  · exact (h.answers answer hanswer row hrow).grows hgrows
  · rw [List.mem_singleton.1 hanswer] at hrow ⊢
    exact (hservices row hrow).grows hgrows

/-- The entry that is read is alive, the more so when the request began. -/
theorem Served.nextKey (h : Served ttl s) (hstored : Stored s) {now : ℚ} (hnow : now ≤ s.now)
    {services : List Row} (hservices : ∀ row ∈ services, Told ttl s now row) (rest : List String) :
    Served ttl (nextKey ttl s now services rest) := by
  cases rest with
  | nil => exact h.reply hservices
  | cons key rest =>
    refine h.suspend hnow ⟨hservices, fun x hx ↦ ?_⟩
    obtain ⟨hmem, hkey, halive⟩ := ExpiringStore.of_get_eq_some hx
    rw [hstored.bucket] at hmem
    refine ⟨ExpiringStore.mem_of_mem_ofLog hmem, hkey, ?_⟩
    unfold Alive at halive
    linarith

/-- Each row is of the entry that the read has found, or of none. -/
theorem Served.resume (h : Served ttl s) (hstored : Stored s) {q : Request} (hnow : q.now ≤ s.now)
    (hsound : q.Sound ttl s) (raised : Bool) : Served ttl (resume ttl s q raised) := by
  cases q with
  | opening now =>
    rw [Health.resume]
    split
    · exact h.reply (by simp)
    · exact h.suspend hnow trivial
  | listing now keys =>
    rw [Health.resume]
    split
    · exact h.reply (by simp)
    · exact h.nextKey hstored hnow (by simp) keys
  | getting now services key entry rest =>
    refine h.nextKey hstored hnow (fun row hrow ↦ ?_) rest
    rcases List.mem_append.1 hrow with hrow | hrow
    · exact hsound.1 row hrow
    · rw [List.mem_singleton.1 hrow]
      split
      · rename_i x hx
        have hentry : entry = some x := by
          cases raised with
          | true => simp at hx
          | false => simpa using hx
        obtain ⟨hput, rfl, halive⟩ := hsound.2 x hentry
        exact Or.inr ⟨x, hput, halive, rfl⟩
      · exact Or.inl ⟨key, rfl⟩

/-- The watchdog answers no request. -/
theorem requests_watchStep {raised : Bool} (ht : watchStep ttl monitored s raised = some t) :
    t.requests = s.requests ∧ t.answers = s.answers := by
  cases hw : s.watch with
  | waiting deadline =>
    simp only [watchStep, hw, Option.ite_none_right_eq_some, Option.some.injEq] at ht
    obtain ⟨-, rfl⟩ := ht
    exact ⟨rfl, rfl⟩
  | opening =>
    rw [watchStep, hw] at ht
    obtain rfl := Option.some.inj ht
    split <;> exact ⟨rfl, rfl⟩
  | listing seen time keys =>
    rw [watchStep, hw] at ht
    obtain rfl := Option.some.inj ht
    exact ⟨rfl, rfl⟩

/-- A step of the services, of the watchdog or of a request. -/
theorem Served.step (h : Served ttl s) (hstored : Stored s) (ht : step ttl monitored s a = some t) :
    Served ttl t := by
  have hgrows := grows_of_step ht
  cases a with
  | status =>
    obtain rfl := Option.some.inj ht
    exact h.suspend le_rfl trivial
  | resume i raised =>
    obtain ⟨q, hq, rfl⟩ := Option.map_eq_some_iff.1 ht
    have hmem := List.mem_of_getElem? hq
    have haside : Aside s { s with requests := s.requests.eraseIdx i } := ⟨rfl, rfl, rfl⟩
    refine Served.resume ⟨fun q' hq' ↦ ?_, fun q' hq' ↦ ?_, fun answer hanswer row hrow ↦ ?_⟩
      (hstored.aside haside) (h.began q hmem) ((h.sound q hmem).grows haside.grows) raised
    · exact h.began q' (List.mem_of_mem_eraseIdx hq')
    · exact (h.sound q' (List.mem_of_mem_eraseIdx hq')).grows haside.grows
    · exact (h.answers answer hanswer row hrow).grows haside.grows
  | watch raised =>
    obtain ⟨hrequests, hanswers⟩ := requests_watchStep ht
    exact h.grows hgrows hrequests hanswers
  | boot =>
    obtain rfl := Option.some.inj ht
    exact h.grows hgrows rfl rfl
  | tick d =>
    simp only [Health.step, Option.ite_none_right_eq_some, Option.some.injEq] at ht
    obtain ⟨-, rfl⟩ := ht
    exact h.grows hgrows rfl rfl
  | create =>
    obtain rfl := Option.some.inj ht
    exact h.grows hgrows rfl rfl
  | beat service timestamp =>
    simp only [Health.step, Option.ite_none_right_eq_some, Option.some.injEq] at ht
    obtain ⟨-, rfl⟩ := ht
    exact h.grows hgrows rfl rfl

theorem served_of_reachable (hs : (system ttl monitored).Reachable always s) : Served ttl s := by
  refine hs.induct ?_ fun {s a t} hreach h _ ht ↦ h.step (stored_of_reachable hreach) ht
  rintro s rfl
  exact ⟨by simp, by simp, by simp⟩

theorem rowOf_payload (now : ℚ) (key service : String) (ts : ℚ) :
    rowOf now key (payload service ts) =
      .beat (.str service)
        (if now - ts > heartbeatStaleS then .str "stale" else .str "running") ts := by
  simp [rowOf, payload, Dict.getOr, Dict.get_cons]

/-- **What a row tells**, in every run: it is an error, or it tells of a heartbeat that was alive
when the request began, written at the time in the row, under the service's name. -/
theorem beat_of_row (hs : (system ttl monitored).Reachable always s) {answer : Answer}
    (hanswer : answer ∈ s.answers) {row : Row} (hrow : row ∈ answer.services) :
    (∃ key, row = .error key) ∨ ∃ x ∈ s.puts, ∃ ts ≤ x.time, x.value = payload x.key ts ∧
      answer.now - x.time < ttl ∧ row = .beat (.str x.key)
        (if answer.now - ts > heartbeatStaleS then .str "stale" else .str "running") ts := by
  rcases (served_of_reachable hs).answers answer hanswer row hrow with h | ⟨x, hx, halive, hrow⟩
  · exact Or.inl h
  · obtain ⟨-, ts, hts, hvalue⟩ := (stored_of_reachable hs).written x hx
    refine Or.inr ⟨x, hx, ts, hts, hvalue, halive, ?_⟩
    rw [hrow, hvalue, rowOf_payload]

/-- The heartbeat that a stale row shows was alive, and reached the bucket later than it was
written, by more than what is left of thirty seconds after the time to live. -/
theorem exists_late (hs : (system ttl monitored).Reachable always s) {answer : Answer}
    (hanswer : answer ∈ s.answers) {name : Json} {ts : ℚ}
    (hrow : Row.beat name (.str "stale") ts ∈ answer.services) :
    ∃ x ∈ s.puts, name = .str x.key ∧ x.value = payload x.key ts ∧ answer.now - x.time < ttl ∧
      heartbeatStaleS - ttl < x.time - ts := by
  rcases beat_of_row hs hanswer hrow with ⟨key, h⟩ | ⟨x, hx, ts', -, hvalue, halive, h⟩
  · contradiction
  · obtain ⟨rfl, hstatus, rfl⟩ := Row.beat.inj h
    refine ⟨x, hx, rfl, hvalue, halive, ?_⟩
    split at hstatus
    · rename_i hold
      linarith
    · simp at hstatus

/-- The heartbeats of the service reach the bucket soon after they are written, within what is left
of thirty seconds after the time to live. -/
def Prompt (ttl : ℚ) (s : State) (service : String) : Prop :=
  ∀ x ∈ s.puts, x.key = service → ∀ ts, x.value = payload service ts →
    x.time - ts ≤ heartbeatStaleS - ttl

/-- **"stale" is a late put**, in every run: the heartbeat in a stale row was put, and was alive,
and reached the bucket too late. So a service whose heartbeats are put in time is never shown as
stale, also when it has stopped: its entry expires before. -/
theorem delayed_of_stale (hs : (system ttl monitored).Reachable always s) :
    (∀ answer ∈ s.answers, ∀ name ts, Row.beat name (.str "stale") ts ∈ answer.services →
      ∃ x ∈ s.puts, name = .str x.key ∧ x.value = payload x.key ts ∧ answer.now - x.time < ttl ∧
        heartbeatStaleS - ttl < x.time - ts) ∧
      ∀ service, Prompt ttl s service → ∀ answer ∈ s.answers, ∀ ts,
        Row.beat (.str service) (.str "stale") ts ∉ answer.services := by
  refine ⟨fun answer hanswer name ts hrow ↦ exists_late hs hanswer hrow,
    fun service hprompt answer hanswer ts hrow ↦ ?_⟩
  obtain ⟨x, hx, hname, hvalue, -, hlate⟩ := exists_late hs hanswer hrow
  obtain rfl : service = x.key := Json.str.inj hname
  exact absurd (hprompt x hx rfl ts hvalue) (not_le.2 hlate)

/-- A heartbeat that takes forty seconds to the bucket. -/
def lateBeat : List Action :=
  [.create, .tick 40, .beat "identifier" 0, .status, .resume 0 false, .resume 0 false,
    .resume 0 false]

/-- The row is that of the service, stale, with the timestamp. -/
def Row.isStale (service : String) (timestamp : ℚ) : Row → Bool
  | .beat (.str name) (.str status) ts => name = service && status = "stale" && ts = timestamp
  | _ => false

/-- The test on a row says what it is named after. -/
theorem Row.eq_of_isStale {service : String} {timestamp : ℚ} {row : Row}
    (h : row.isStale service timestamp = true) :
    row = .beat (.str service) (.str "stale") timestamp := by
  unfold Row.isStale at h
  split at h
  · simp only [Bool.and_eq_true, decide_eq_true_eq] at h
    obtain ⟨⟨rfl, rfl⟩, rfl⟩ := h
    rfl
  · contradiction

/-- It is shown as stale, and is not prompt. -/
theorem delayed_of_stale_lateBeat : ∃ s, (system 5 []).Reachable always s ∧
    ∃ answer ∈ s.answers, Row.beat (.str "identifier") (.str "stale") 0 ∈ answer.services ∧
      ∃ x ∈ s.puts, Json.str "identifier" = .str x.key ∧ x.value = payload x.key 0 ∧
        answer.now - x.time < 5 ∧ heartbeatStaleS - 5 < x.time - 0 := by
  obtain ⟨s, hreach, hstale⟩ := exists_reachable_of_exec (M := system 5 [])
    (G := always) {} lateBeat
    (fun s ↦ s.answers.any fun answer ↦ answer.services.any (Row.isStale "identifier" 0)) rfl
    (by decide +kernel)
  obtain ⟨answer, hanswer, hrows⟩ := List.any_eq_true.1 hstale
  obtain ⟨row, hrow, hrowStale⟩ := List.any_eq_true.1 hrows
  rw [Row.eq_of_isStale hrowStale] at hrow
  exact ⟨s, hreach, answer, hanswer, hrow, (delayed_of_stale hreach).1 answer hanswer _ _ hrow⟩

end

end LiveSTT.Health
