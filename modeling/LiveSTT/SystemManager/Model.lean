import LiveSTT.Lib.Calendar
import LiveSTT.Lib.Json
import LiveSTT.Lib.TransitionSystem
import LiveSTT.Messaging.Broker

/-!
# system-manager: the schedule checker

Every half minute `_check_schedules` reads the clock, fetches the schedules from api-gateway and
evaluates them one after another: a schedule whose start or stop time was reached within the last
two minutes publishes its command on `session.control`. `_last_fired` remembers what was fired,
under a key made of the command, the schedule and the date; after each poll the keys of other dates
are pruned.

One poll is one step: nothing else touches `_last_fired`. What the environment decides is in the
poll: the reading of the clock, the answer to the fetch, and for each schedule how the publishes
made for it end. A time that is no number raises, and the exception ends the process.

`Evaluated` has a case for each outcome of half an evaluation, that of the start or that of the
stop. The lemmas about `evalHalf` are the only ones that look into the source's conditions; those
about a poll and about runs go by them.
-/

namespace LiveSTT.SystemManager

open Calendar

/-! ### The data -/

/-- A schedule, as `GET /admin/schedules` lists it. -/
structure Schedule where
  id : String
  enabled : Option Bool := none
  dayOfWeek : Option (List ℤ) := none
  startTime : String
  stopTime : String
  labelTemplate : Option String := none
  stopPolicy : Option String := none

/-- `sched.get("stop_policy", "soft")`. -/
def Schedule.policy (sched : Schedule) : String :=
  sched.stopPolicy.getD "soft"

/-- A fetched schedule, with the answers to the publishes made for it. -/
structure Fetched where
  sched : Schedule
  start : Reply := .ok
  stop : Reply := .ok

/-- A command on `session.control`. -/
inductive Command
  | start
  | stop
  deriving DecidableEq

/-- What the service does to the outside world, and the stops it leaves out. -/
inductive Event
  /-- The command of a schedule was stored on `session.control`; `date` is the local date. -/
  | published (command : Command) (id : String) (date : Date) (payload : Dict)
  /-- Its publish raised. -/
  | publishFailed (command : Command) (id : String) (date : Date)
  /-- A stop was left to the silence timeout. -/
  | stopSkipped (id : String) (date : Date)

structure State where
  /-- `_last_fired`, in insertion order. -/
  lastFired : List (String × String) := []
  /-- An exception ended the process. -/
  failed : Bool := false
  log : List Event := []

/-- The keys of `_last_fired`. -/
def State.keys (s : State) : List String := s.lastFired.map Prod.fst

def State.logs (s : State) (es : List Event) : State := { s with log := s.log ++ es }

/-- `self._last_fired[key] = value`, for a key that is not there yet. -/
def State.record (s : State) (key value : String) : State :=
  { s with lastFired := s.lastFired ++ [(key, value)] }

/-! ### The functions -/

/-- `_within_window`: whether the current time is within `[target, target + window)`. Raises on a
target that is no time. -/
def withinWindow (windowMinutes : ℤ) (currentHhmm targetHhmm : String) : Option Bool := do
  let ch ← Text.int (currentHhmm.toList.take 2)
  let cm ← Text.int (currentHhmm.toList.drop 3)
  let th ← Text.int (targetHhmm.toList.take 2)
  let tm ← Text.int (targetHhmm.toList.drop 3)
  let diff := (ch * 60 + cm) - (th * 60 + tm)
  return 0 ≤ diff ∧ diff < windowMinutes

/-- The `window_minutes` the evaluation uses. -/
def windowMinutes : ℤ := 2

/-- The outcome of a publish on `session.control`. -/
def publish (s : State) (command : Command) (sched : Schedule) (now : Reading) (payload : Dict)
    (r : Reply) : State :=
  (s.logs (if r.applied then [.published command sched.id now.date payload] else [])).logs
    (if r.raised then [.publishFailed command sched.id now.date] else [])

/-- `_fire_start`. -/
def fireStart (s : State) (sched : Schedule) (now : Reading) (r : Reply) : State :=
  let label := Text.replace (sched.labelTemplate.getD "") "\x7bdate\x7d"
    (now.date.monthName ++ " " ++ Text.padded now.date.day)
  publish s .start sched now
    [("command", .str "start"), ("label", .str label), ("scheduled", .bool true)] r

/-- `_fire_stop`. -/
def fireStop (s : State) (sched : Schedule) (now : Reading) (r : Reply) : State :=
  if sched.policy = "soft" then s.logs [.stopSkipped sched.id now.date]
  else publish s .stop sched now [("command", .str "stop")] r

/-- What `start_key` and `stop_key` begin with. -/
def Command.tag : Command → String
  | .start => "start:"
  | .stop => "stop:"

/-- `start_key` and `stop_key`: the tag, and `fire_key`. -/
def fireKey (command : Command) (id : String) (date : Date) : String :=
  command.tag ++ (id ++ ":" ++ date.compact)

/-- `current_dow`: Sunday is 0. -/
def currentDow (now : Reading) : ℤ :=
  ((now.date.weekday + 1) % 7 : ℕ)

/-- One of the two halves of `_eval_schedule`: fire in the window, once. -/
def evalWindow (s : State) (now : Reading) (target key : String) (fire : State → State) : State :=
  match withinWindow windowMinutes now.hhmm target with
  | none => { s with failed := true }
  | some inside => if inside = true ∧ key ∉ s.keys then (fire s).record key now.hhmm else s

/-- The schedule is enabled, and the day is one of its days. -/
def Schedule.runsOn (sched : Schedule) (now : Reading) : Bool :=
  sched.enabled.getD true && (sched.dayOfWeek.getD []).contains (currentDow now)

/-- `_eval_schedule`. -/
def evalSchedule (s : State) (x : Fetched) (now : Reading) : State :=
  if x.sched.runsOn now then
    let s := evalWindow s now x.sched.startTime (fireKey .start x.sched.id now.date)
      fun s ↦ fireStart s x.sched now x.start
    if s.failed then s
    else evalWindow s now x.sched.stopTime (fireKey .stop x.sched.id now.date)
      fun s ↦ fireStop s x.sched now x.stop
  else s

/-- The loop of `_check_schedules`. -/
def evalAll (now : Reading) : State → List Fetched → State
  | s, [] => s
  | s, x :: xs =>
    if (evalSchedule s x now).failed then evalSchedule s x now
    else evalAll now (evalSchedule s x now) xs

/-- Keep only the keys of today. -/
def prune (s : State) (now : Reading) : State :=
  { s with lastFired := s.lastFired.filter fun kv ↦ Text.contains kv.1 now.date.compact }

/-! ### The system -/

/-- A poll: the reading of the clock, and the schedules, if the time zone is valid and the fetch
succeeds. -/
structure Poll where
  now : Reading
  schedules : Option (List Fetched)

/-- `_check_schedules`. -/
def checkSchedules (s : State) (p : Poll) : State :=
  match p.schedules with
  | none => s
  | some xs =>
    if (evalAll p.now s xs).failed then evalAll p.now s xs else prune (evalAll p.now s xs) p.now

/-- system-manager, from its start to its end. -/
def system : TransitionSystem State Poll where
  init s := s = {}
  step s p := if s.failed then none else some (checkSchedules s p)

/-! ### What an evaluation does -/

/-- The time a command is fired at. -/
def Schedule.target (sched : Schedule) : Command → String
  | .start => sched.startTime
  | .stop => sched.stopTime

/-- Firing the command of a fetched schedule. -/
def fire (s : State) (command : Command) (x : Fetched) (now : Reading) : State :=
  match command with
  | .start => fireStart s x.sched now x.start
  | .stop => fireStop s x.sched now x.stop

/-- One half of the evaluation of a schedule. -/
def evalHalf (s : State) (command : Command) (x : Fetched) (now : Reading) : State :=
  evalWindow s now (x.sched.target command) (fireKey command x.sched.id now.date)
    fun s ↦ fire s command x now

theorem evalSchedule_eq (s : State) (x : Fetched) (now : Reading) :
    evalSchedule s x now =
      if x.sched.runsOn now then
        if (evalHalf s .start x now).failed then evalHalf s .start x now
        else evalHalf (evalHalf s .start x now) .stop x now
      else s :=
  rfl

/-- The command of a schedule is due: the schedule runs on this day, its time is in the window and
the key is not recorded. -/
def Due (s : State) (command : Command) (sched : Schedule) (now : Reading) : Prop :=
  sched.runsOn now = true ∧
    withinWindow windowMinutes now.hhmm (sched.target command) = some true ∧
    fireKey command sched.id now.date ∉ s.keys

/-- **What an evaluation can do**: nothing, fail on a time that is none, or fire what is due and
record it. -/
inductive Evaluated (now : Reading) (s : State) : State → Prop
  | idle : Evaluated now s s
  | failed : Evaluated now s { s with failed := true }
  | fired (command : Command) (x : Fetched) (hdue : Due s command x.sched now) :
    Evaluated now s ((fire s command x now).record (fireKey command x.sched.id now.date) now.hhmm)

/-- One half of an evaluation fires what is due. -/
theorem evalHalf_cases (s : State) (c : Command) {x : Fetched} (now : Reading)
    (hruns : x.sched.runsOn now = true) :
    (Due s c x.sched now ∧ evalHalf s c x now =
      (fire s c x now).record (fireKey c x.sched.id now.date) now.hhmm) ∨
    (¬ Due s c x.sched now ∧
      (evalHalf s c x now = s ∨ evalHalf s c x now = { s with failed := true })) := by
  rw [evalHalf, evalWindow]
  split
  · rename_i hnone
    refine Or.inr ⟨fun hdue ↦ ?_, Or.inr rfl⟩
    rw [hdue.2.1] at hnone
    contradiction
  · rename_i inside hinside
    split
    · rename_i hfires
      exact Or.inl ⟨⟨hruns, by rw [hinside, hfires.1], hfires.2⟩, rfl⟩
    · rename_i hidle
      refine Or.inr ⟨fun hdue ↦ hidle ⟨?_, hdue.2.2⟩, Or.inl rfl⟩
      rw [hdue.2.1] at hinside
      exact (Option.some.inj hinside).symm

/-- A half of an evaluation publishes at most the command of its own schedule, under the key of the
date. -/
theorem evaluated_evalHalf (s : State) (command : Command) {x : Fetched} {now : Reading}
    (hruns : x.sched.runsOn now = true) : Evaluated now s (evalHalf s command x now) := by
  rcases evalHalf_cases s command now hruns with ⟨hdue, heq⟩ | ⟨-, heq | heq⟩
  · rw [heq]
    exact .fired command x hdue
  · rw [heq]
    exact .idle
  · rw [heq]
    exact .failed

/-- What every evaluation preserves, the loop over the schedules preserves. -/
theorem evalAll_invariant {I : State → Prop} {now : Reading}
    (hI : ∀ {s t}, I s → Evaluated now s t → I t) :
    ∀ {xs : List Fetched} {s : State}, I s → I (evalAll now s xs)
  | [], _, hs => hs
  | x :: xs, s, hs => by
    have hone : I (evalSchedule s x now) := by
      rw [evalSchedule_eq]
      split
      · rename_i hruns
        have hstart := hI hs (evaluated_evalHalf s .start hruns)
        split
        · exact hstart
        · exact hI hstart (evaluated_evalHalf _ .stop hruns)
      · exact hs
    rw [evalAll]
    split
    · exact hone
    · exact evalAll_invariant hI hone

/-! ### Keys -/

@[simp] theorem keys_fire (s : State) (command : Command) (x : Fetched) (now : Reading) :
    (fire s command x now).keys = s.keys := by
  cases command with
  | start => rfl
  | stop =>
    simp only [fire, fireStop]
    split <;> rfl

@[simp] theorem keys_record (s : State) (key value : String) :
    (s.record key value).keys = s.keys ++ [key] := by
  simp [State.keys, State.record]

/-- The key shows the date. -/
theorem contains_fireKey (command : Command) (id : String) (date : Date) :
    Text.contains (fireKey command id date) date.compact = true := by
  refine decide_eq_true ?_
  rw [fireKey, String.toList_append, String.toList_append, ← List.append_assoc]
  exact (List.suffix_append _ _).isInfix

/-- The key shows the command, the schedule and the date. -/
theorem fireKey_injective {c c' : Command} {id id' : String} {d d' : Date}
    (h : fireKey c id d = fireKey c' id' d') : c = c' ∧ id = id' ∧ d = d' := by
  have hcolon (d : Date) : ':' ∉ d.compact.toList := fun hmem ↦
    absurd (Date.isDigit_of_mem_compact hmem) (by decide)
  have hlist := congrArg String.toList h
  have hkey (c : Command) (id : String) (d : Date) : (fireKey c id d).toList =
      (c.tag.toList ++ id.toList) ++ ':' :: d.compact.toList := by
    simp [fireKey]
  rw [hkey, hkey] at hlist
  obtain ⟨hid, hdate⟩ := Text.split_last (hcolon d) (hcolon d') hlist
  have htag : c = c' := by
    cases c <;> cases c' <;> simp [Command.tag] at hid ⊢
  subst htag
  exact ⟨rfl, String.toList_injective (List.append_cancel_left hid), Date.compact_injective hdate⟩

end LiveSTT.SystemManager
