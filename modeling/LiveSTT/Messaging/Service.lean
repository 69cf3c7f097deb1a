import LiveSTT.Lib.TransitionSystem

/-!
# The lifecycle of a service

`BaseService.start` connects to the broker and runs two tasks in a task group, the heartbeat and
`run_business_logic` of the service, until `stop_event` is set. What the service does is left open:
`run_business_logic` may suspend, may set `stop_event`, and may end in any way at any of its steps.

The event loop runs one handle after the other in the order in which they became ready: the next
step of a task, or the callback with which the task group takes note of a task that has ended. A
task that waits gets a handle when what it waits for has happened, or when it is cancelled. A child
that fails makes the group cancel its other child and its parent; a child that returns or is
cancelled does not.

The order in which the group cancels its children is that of a set, so the label of a step decides
it. What `start` does after its children have ended is left out.
-/

namespace LiveSTT.Service

/-! ### The state -/

/-- The children of the task group. -/
inductive Child
  | heartbeat
  | logic
  deriving DecidableEq

/-- How `run_business_logic` ends. -/
inductive Outcome
  | returned
  /-- With an exception. -/
  | raised
  /-- With a `CancelledError`. -/
  | cancelled
  /-- With a `KeyboardInterrupt` or a `SystemExit`, which ends the event loop. -/
  | exited
  deriving DecidableEq

/-- What the event loop runs. -/
inductive Handle
  /-- A step of the heartbeat; `ok` is how the call it waited for ended. -/
  | heartbeat (ok : Bool)
  /-- A step of `run_business_logic`. -/
  | logic
  /-- A step of `start`. -/
  | parent
  /-- `_on_task_done` of the task group. -/
  | done (child : Child)
  deriving DecidableEq

/-- Where `_heartbeat_task` is suspended. -/
inductive HeartbeatPc
  /-- It has not begun. -/
  | created
  /-- At `create_key_value`. -/
  | connecting
  /-- At the put of an iteration. -/
  | putting
  /-- At the sleep of an iteration. -/
  | sleeping
  /-- At the sleep after an iteration that failed. -/
  | retrying
  | ended
  deriving DecidableEq

/-- Where `start` is suspended. -/
inductive ParentPc
  | connecting
  /-- At `stop_event.wait`. -/
  | waiting
  /-- At the end of the task group. -/
  | exiting
  | ended
  deriving DecidableEq

/-- What the results about runs speak of. -/
inductive Event
  /-- An iteration of the heartbeat begins. -/
  | beat
  /-- `run_business_logic` has ended. -/
  | ended (outcome : Outcome)
  deriving DecidableEq

structure State where
  /-- `stop_event` is set. -/
  stopSet : Bool := false
  /-- The handles that are ready, in their order. -/
  ready : List Handle := []
  heartbeat : HeartbeatPc := .created
  /-- The heartbeat has been cancelled, and has not seen it. -/
  cancelled : Bool := false
  /-- How `run_business_logic` ended. -/
  logic : Option Outcome := none
  parent : ParentPc := .connecting
  /-- `start` has been cancelled, and has not seen it. -/
  parentCancelled : Bool := false
  /-- The children that the task group has not taken note of. -/
  tasks : List Child := []
  aborting : Bool := false
  trace : List Event := []
  deriving DecidableEq

namespace State

variable (s : State)

def schedule (h : Handle) : State := { s with ready := s.ready ++ [h] }

def record (e : Event) : State := { s with trace := s.trace ++ [e] }

end State

/-! ### Cancelling -/

def Handle.isHeartbeat : Handle → Bool
  | .heartbeat _ => true
  | _ => false

/-- It waits for a call to end. -/
def HeartbeatPc.suspended : HeartbeatPc → Bool
  | .connecting | .putting | .sleeping | .retrying => true
  | _ => false

/-- The heartbeat waits, and what it waits for has not happened. -/
def State.heartbeatWaits (s : State) : Bool :=
  s.heartbeat.suspended && !s.ready.any Handle.isHeartbeat

/-- `run_business_logic` waits, and what it waits for has not happened. -/
def State.logicWaits (s : State) : Bool :=
  Child.logic ∈ s.tasks && s.logic.isNone && !s.ready.contains .logic

/-- Cancel the heartbeat. -/
def cancelHeartbeat (s : State) : State :=
  if s.heartbeat = .ended then s
  else { (if s.heartbeatWaits then s.schedule (.heartbeat false) else s) with cancelled := true }

/-- Cancel `run_business_logic`. What it makes of it is its own business. -/
def cancelLogic (s : State) : State := if s.logicWaits then s.schedule .logic else s

/-- Wake `start`, unless it is ready. -/
def wakeParent (s : State) : State := if s.ready.contains .parent then s else s.schedule .parent

/-- Cancel `start`. -/
def cancelParent (s : State) : State := { wakeParent s with parentCancelled := true }

/-- `_abort` of the task group, unless it is aborting. -/
def abort (s : State) (heartbeatFirst : Bool) : State :=
  if s.aborting then s
  else if heartbeatFirst then { cancelLogic (cancelHeartbeat s) with aborting := true }
  else { cancelHeartbeat (cancelLogic s) with aborting := true }

/-- `stop_event.set()`. -/
def setStop (s : State) : State :=
  if s.stopSet then s
  else if s.parent = .waiting then { wakeParent s with stopSet := true }
  else { s with stopSet := true }

/-! ### The heartbeat -/

/-- `_heartbeat_task` ends. -/
def endHeartbeat (s : State) : State :=
    State.schedule { s with heartbeat := .ended } (.done .heartbeat)

/-- The head of the loop of `_heartbeat_task`. -/
def beginIteration (s : State) : State :=
  if s.stopSet then endHeartbeat s else { s.record .beat with heartbeat := .putting }

/-- `_heartbeat_task`, resumed. `ok` is how the call it waited for ended, `touched` is whether the
touch of the health file succeeds. -/
def heartbeatStep (s : State) (ok touched : Bool) : State :=
  match s.heartbeat, s.cancelled with
  | .ended, _ => s
  | _, true => endHeartbeat s
  | .created, false => { s with heartbeat := .connecting }
  | .connecting, false => if ok then beginIteration s else endHeartbeat s
  | .putting, false => { s with heartbeat := if ok && touched then .sleeping else .retrying }
  | .sleeping, false => beginIteration s
  | .retrying, false => beginIteration s

/-! ### The other handles -/

/-- How a step goes that is not determined. -/
structure Choice where
  /-- `run_business_logic` sets `stop_event`. -/
  setsStop : Bool := false
  /-- How it ends, if it does. -/
  outcome : Option Outcome := none
  /-- The touch of the health file succeeds. -/
  touched : Bool := true
  /-- The group cancels the heartbeat before `run_business_logic`. -/
  heartbeatFirst : Bool := true

/-- `run_business_logic` ends. The end of the event loop cancels all tasks. -/
def endLogic (s : State) (outcome : Outcome) : State :=
  let s := State.schedule { s.record (.ended outcome) with logic := some outcome } (.done .logic)
  if outcome = .exited then cancelParent (cancelHeartbeat s) else s

/-- `run_business_logic`, resumed. -/
def logicStep (s : State) (c : Choice) : State :=
  if s.logic.isSome then s
  else
    let s := if c.setsStop then setStop s else s
    match c.outcome with
    | some outcome => endLogic s outcome
    | none => s

/-- The end of the task group: wait for the children that are left. -/
def leave (s : State) : State := { s with parent := if s.tasks = [] then .ended else .exiting }

/-- `start`, resumed at `stop_event.wait` or at the end of the group. If it was cancelled, the group
aborts. -/
def parentStep (s : State) (c : Choice) : State :=
  if s.parentCancelled then leave (abort { s with parentCancelled := false } c.heartbeatFirst)
  else leave s

/-- A task ends with an exception that the group takes note of. -/
def Outcome.fails : Outcome → Bool
  | .raised | .exited => true
  | _ => false

/-- `_on_task_done`. -/
def doneStep (s : State) (child : Child) (c : Choice) : State :=
  let s := { s with tasks := s.tasks.erase child }
  let s := if s.parent = .exiting ∧ s.tasks = [] then wakeParent s else s
  if child = .logic ∧ s.logic.any Outcome.fails ∧ ¬ s.aborting then
    cancelParent (abort s c.heartbeatFirst)
  else s

/-! ### The system -/

inductive Action
  /-- The connection to the broker succeeds or fails. -/
  | connected (ok : Bool)
  /-- A signal sets `stop_event`, or another coroutine of the service does. -/
  | stop
  /-- `start` is cancelled from outside. -/
  | cancel
  /-- What the heartbeat waits for has happened. -/
  | answered (ok : Bool)
  /-- What `run_business_logic` waits for has happened. -/
  | wake
  /-- The event loop runs the first of the handles that are ready. -/
  | run (c : Choice)

/-- The connection is there: the tasks are created, and `start` waits for `stop_event`, which is all
that can have happened before. -/
def createTasks (s : State) : State where
  stopSet := s.stopSet
  ready := [.heartbeat true, .logic]
  tasks := [.heartbeat, .logic]
  parent := if s.stopSet then .exiting else .waiting

/-- The event loop runs a handle. -/
def runHandle (s : State) (h : Handle) (c : Choice) : State :=
  match h with
  | .heartbeat ok => heartbeatStep s ok c.touched
  | .logic => logicStep s c
  | .parent => parentStep s c
  | .done child => doneStep s child c

def step (s : State) : Action → Option State
  | .connected ok =>
    if s.parent = .connecting then
      some (if ok then createTasks s else { s with parent := .ended })
    else none
  | .stop => some (setStop s)
  | .cancel =>
    match s.parent with
    | .connecting => some { s with parent := .ended }
    | .ended => none
    | _ => some (cancelParent s)
  | .answered ok => if s.heartbeatWaits then some (s.schedule (.heartbeat ok)) else none
  | .wake => if s.logicWaits then some (s.schedule .logic) else none
  | .run c =>
    match s.ready with
    | [] => none
    | h :: rest => some (runHandle { s with ready := rest } h c)

/-- A service, started. -/
def system : TransitionSystem State Action where
  init s := s = {}
  step := step

end LiveSTT.Service
