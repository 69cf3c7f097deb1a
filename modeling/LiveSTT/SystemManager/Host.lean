import LiveSTT.Lib.TransitionSystem
import LiveSTT.SystemManager.ServiceControl
import Mathlib.Logic.Function.Basic

/-!
# What service requests make of the containers

system-manager disables a service by giving its container the restart policy `no` and stopping it,
and enables it by the policy `always` and a start. In between, containers exit, and Docker starts
them again; it does so of itself only where the policy is not `no`. Any call of a request may fail,
and one that fails may have done anything to the container it is for.

Whatever requests there are, a container is as the last request has left it that has given it an
order and was answered with success (`orders_last`): after a disable it is down, and stays down. A
container that may not be managed keeps the policy it was deployed with. Nobody else gives Docker
orders here.

`history` are the requests that have given a container an order; it is no part of the program.

A request is handled to its end before the next one is taken up, so the order of the requests is the
order of their orders. One that times out at the gateway is handled all the same, and its order
counts (`ServiceOrders`).
-/

namespace LiveSTT.ServiceControl

open Calls TransitionSystem

namespace Host

/-! ### Docker and its containers -/

/-- A container, as far as it is managed. -/
structure Box where
  policy : String
  running : Bool

/-- A call fails, with what it has made of the container. -/
structure Failure where
  error : DockerError
  after : Box

/-- What fails while a request is handled. -/
structure Faults where
  fromEnv : Except DockerError Unit := .ok ()
  get : String → Option DockerError := fun _ ↦ none
  run : String → Command → Option Failure := fun _ _ ↦ none
  close : Except DockerError Unit := .ok ()

/-- A request that has given a container an order. -/
structure Order where
  name : String
  action : Json
  /-- It was answered with `"ok": true`. -/
  ok : Bool

structure State where
  host : String → Option Box
  /-- The containers at the start. -/
  deployed : String → Option Box
  history : List Order := []

/-- What a call does to a container, if it returns. -/
def carriedOut (c : Command) (box : Box) : Box :=
  match c with
  | .update policy => { box with policy := policy }
  | .stop _ => { box with running := false }
  | .start | .restart _ => { box with running := true }

/-- The client that a request is handled with. -/
def docker (host : String → Option Box) (faults : Faults) : Docker where
  fromEnv := faults.fromEnv
  get name :=
    match faults.get name, host name with
    | some e, _ => .error e
    | none, none => .error .notFound
    | none, some box => .ok
        { status := .ok (.str (if box.running then "running" else "exited"))
          restartPolicy := .ok (.str box.policy)
          run := fun c ↦ match faults.run name c with
            | some failure => .error failure.error
            | none => .ok () }
  close := faults.close

/-- What a call makes of the containers. -/
def after (faults : Faults) (host : String → Option Box) : Call → String → Option Box
  | .command name c => Function.update host name ((host name).map fun box ↦
      match faults.run name c with
      | some failure => failure.after
      | none => carriedOut c box)
  | .fromEnv | .get _ | .close | .respond _ => host

/-- The container a call gives an order to. -/
def ordered : Call → Option String
  | .command name _ => some name
  | .fromEnv | .get _ | .close | .respond _ => none

/-- `data.get("action", "")` -/
def actionOf : Option Json → Json
  | some (.obj data) => Dict.getOr data "action" (.str "")
  | _ => .null

/-- A reply reports success. -/
def succeeds (reply : Dict) : Bool :=
  match Dict.get reply "ok" with
  | some (.bool b) => b
  | _ => false

inductive Action
  /-- A request on `system.service_control`. -/
  | request (payload : Option Json) (faults : Faults)
  /-- A container exits. -/
  | exit (name : String)
  /-- Docker starts a container of itself. -/
  | boot (name : String)

section

variable (repr : Json → String)

/-- A request is handled. -/
def request (s : State) (payload : Option Json) (faults : Faults) : State :=
  let calls := (handleServiceControl repr (docker s.host faults) payload).issued
  { s with
    host := calls.foldl (after faults) s.host
    history := s.history ++ (calls.findSome? ordered).toList.map fun name ↦
      ⟨name, actionOf payload, (replies calls).any succeeds⟩ }

def step (s : State) : Action → Option State
  | .request payload faults => some (request repr s payload faults)
  | .exit name => some { s with
      host := Function.update s.host name ((s.host name).map fun box ↦
        { box with running := false }) }
  | .boot name =>
    if (s.host name).any fun box ↦ box.policy ≠ "no" then some { s with
      host := Function.update s.host name ((s.host name).map fun box ↦
        { box with running := true }) }
    else none

/-- The containers are deployed, and no request has been made. -/
def system : TransitionSystem State Action where
  init s := s.host = s.deployed ∧ s.history = []
  step := step repr

end

/-! ### What is known of a container -/

/-- What an order makes of what is known of the policy: nothing is, after one that has failed. -/
def Order.policy (known : Option String) (o : Order) : Option String :=
  if !o.ok then none
  else if o.action.isStr "disable" then some "no"
  else if o.action.isStr "enable" then some "always"
  else known

/-- The orders to a container. -/
def ordersOf (name : String) (history : List Order) : List Order :=
  history.filter fun o ↦ o.name = name

/-- The policy of a container, by its orders. -/
def knownPolicy (deployed : Option String) (name : String) (history : List Order) : Option String :=
  (ordersOf name history).foldl Order.policy deployed

/-- Its last order was to disable it. -/
def disabled (name : String) (history : List Order) : Bool :=
  (ordersOf name history).getLast?.any fun o ↦ o.ok && o.action.isStr "disable"

/-! ### The orders of a request -/

/-- The commands of an action on one service. -/
def commandsOf (action : String) : List Command :=
  if action = "disable" then [.update "no", .stop 10]
  else if action = "enable" then [.update "always", .start]
  else [.restart 10]

section

variable {repr : Json → String} {d : Docker} {data : Dict} {payload : Option Json} {action : String}
  {commands : List Command} {service : Json}

/-- An action of the list is performed by `control`. -/
theorem perform_of_action (repr : Json → String) (d : Docker) (hmem : action ∈ serviceActions)
    (haction : Dict.getOr data "action" (.str "") = .str action) :
    ServiceControl.perform repr d data =
      control repr action (commandsOf action) d (Dict.getOr data "service" (.str "")) := by
  simp only [serviceActions, List.mem_cons, List.not_mem_nil, or_false] at hmem
  rcases hmem with rfl | rfl | rfl
  · simp [ServiceControl.perform, haction, Json.isStr, commandsOf, enableService]
  · simp [ServiceControl.perform, haction, Json.isStr, commandsOf, disableService]
  · simp [ServiceControl.perform, haction, Json.isStr, commandsOf, restartService]

/-- An action that reports success has been carried out. -/
theorem issued_of_control_ok {reply : Dict}
    (h : (control repr action commands d service).result = .ok reply)
    (hok : succeeds reply = true) : ∃ name c, requireManaged repr service = .ok name ∧
      d.get name = .ok c ∧
      (control repr action commands d service).issued =
        .fromEnv :: .get name :: (commands.map (.command name) ++ [.close]) ∧
      ∀ command ∈ commands, c.run command = .ok () := by
  rw [control] at h ⊢
  obtain ⟨name, hname, hrest, hissued⟩ := exists_of_bind_ok h
  obtain ⟨⟨⟩, -, htry, hissued'⟩ := exists_of_bind_ok hrest
  obtain ⟨hbody, -⟩ := result_of_tryFinally_ok htry
  rw [hissued, hissued']
  rw [tryExcept] at hbody
  split at hbody
  · rename_i reply' hreply
    obtain ⟨c, hget, hloop, hissued⟩ := exists_of_bind_ok hreply
    obtain ⟨us, heach, -, hissued'⟩ := exists_of_bind_ok hloop
    obtain ⟨hcommands, hall⟩ := issued_of_each_ok heach
    refine ⟨name, c, hname, hget, ?_, fun command hcommand ↦ ?_⟩
    · simp only [Calls.tryFinally, Calls.tryExcept, hissued, hissued', hcommands]
      simp [compute, client, close, call, pure, Calls.pure, ← List.map_eq_flatMap]
    · obtain ⟨⟨⟩, hrun⟩ := hall command hcommand
      exact hrun
  · -- The handlers of the exceptions report a failure.
    rename_i e herror
    obtain rfl := Except.ok.inj hbody
    cases e with
    | notFound => contradiction
    | other text => contradiction

/-! ### What a request can do -/

/-- Only the service that is asked for is given orders. -/
theorem only_ordered_control : Only
    (fun call ↦ ∀ name, ordered call = some name → requireManaged repr service = .ok name)
    (control repr action commands d service) := by
  have hclient {call : Call} (h : ordered call = none) (name : String)
    (hordered : ordered call = some name) :
      requireManaged repr service = .ok name :=
    absurd (h.symm.trans hordered) (Option.some_ne_none _).symm
  rw [control]
  refine only_bind (only_compute _) fun name hname ↦ ?_
  have hname : requireManaged repr service = .ok name := hname
  refine only_bind (only_call _ (hclient rfl)) fun _ _ ↦ ?_
  refine only_tryFinally (only_tryExcept ?_) (only_call _ (hclient rfl))
  refine only_bind (only_call _ (hclient rfl)) fun c _ ↦ ?_
  refine only_bind (only_each fun command ↦ only_call _ fun name' hordered ↦ ?_) fun _ _ ↦
    only_pure _
  rw [← Option.some.inj hordered]
  exact hname

/-- Listing gives no order. -/
theorem only_unordered_listServices : Only (fun call ↦ ordered call = none) (listServices d) := by
  have hentry (name : String) : Only (fun call ↦ ordered call = none) (entry d name) := by
    refine only_tryExcept ?_
    refine only_bind (only_call _ rfl) fun c _ ↦ ?_
    refine only_bind (only_compute _) fun _ _ ↦ ?_
    exact only_bind (only_compute _) fun _ _ ↦ only_pure _
  refine only_bind (only_call _ rfl) fun _ _ ↦ ?_
  refine only_bind (only_each hentry) fun _ _ ↦ ?_
  exact only_bind (only_call _ rfl) fun _ _ ↦ only_pure _

/-- The handler adds its reply. -/
theorem issued_handleServiceControl (repr : Json → String) (d : Docker) (data : Dict) :
    (handleServiceControl repr d (some (.obj data))).issued =
    (ServiceControl.perform repr d data).issued ++
      match (ServiceControl.perform repr d data).result with
      | .ok reply => [.respond reply]
      | .error _ => [] := by
  rw [handleServiceControl]
  rcases hresult : (ServiceControl.perform repr d data).result with e | reply
  · rw [bind_of_error hresult]
    exact (List.append_nil _).symm
  · rw [bind_of_ok hresult]
    rfl

/-- An order to a service, and what comes of it. -/
structure Ordered (d : Docker) (payload : Option Json) (calls : List Call) (name : String) :
    Prop where
  managed : name ∈ managedServices
  first : calls.findSome? ordered = some name
  only : ∀ call ∈ calls, ∀ n, ordered call = some n → n = name
  /-- Success is reported of an action that has been carried out. -/
  succeeded : (replies calls).any succeeds = true → ∃ action ∈ serviceActions,
    actionOf payload = .str action ∧ ∃ c reply, d.get name = .ok c ∧
      calls = .fromEnv :: .get name ::
        ((commandsOf action).map (.command name) ++ [.close, .respond reply]) ∧
      ∀ command ∈ commandsOf action, c.run command = .ok ()

/-- **A request** gives no order, or orders to one service that may be managed. -/
theorem request_cases (repr : Json → String) (d : Docker) (payload : Option Json) :
    (∀ call ∈ (handleServiceControl repr d payload).issued, ordered call = none) ∨
      ∃ name, Ordered d payload (handleServiceControl repr d payload).issued name := by
  rcases payload with - | value
  · refine Or.inl fun call hcall ↦ ?_
    obtain rfl := List.mem_singleton.1 hcall
    rfl
  cases value with
  | obj data =>
    have hissued := issued_handleServiceControl repr d data
    have hunordered (h : ∀ call ∈ (ServiceControl.perform repr d data).issued,
      ordered call = none) :
        ∀ call ∈ (handleServiceControl repr d (some (.obj data))).issued, ordered call = none := by
      intro call hcall
      rw [hissued] at hcall
      rcases List.mem_append.1 hcall with hcall | hcall
      · exact h call hcall
      · split at hcall
        · rw [List.mem_singleton.1 hcall]
          rfl
        · contradiction
    rcases perform_cases repr d data with ⟨-, hlist⟩ | ⟨action, hmem, haction, -⟩ | ⟨-, text,
      hunknown⟩
    · refine Or.inl (hunordered ?_)
      rw [hlist]
      exact only_bind only_unordered_listServices fun _ _ ↦ only_pure _
    · have hcontrol := perform_of_action repr d hmem haction
      cases hfirst : (handleServiceControl repr d (some (.obj data))).issued.findSome? ordered with
      | none => exact Or.inl (List.findSome?_eq_none_iff.1 hfirst)
      | some name =>
        -- Every order is for the name that `_require_managed` has returned.
        have honly : ∀ call ∈ (handleServiceControl repr d (some (.obj data))).issued, ∀ n,
            ordered call = some n →
              requireManaged repr (Dict.getOr data "service" (.str "")) = .ok n := by
          intro call hcall n hn
          rw [hissued] at hcall
          rcases List.mem_append.1 hcall with hcall | hcall
          · rw [hcontrol] at hcall
            exact only_ordered_control call hcall n hn
          · split at hcall
            · rw [List.mem_singleton.1 hcall] at hn
              contradiction
            · contradiction
        obtain ⟨call, hcall, hname⟩ := List.exists_of_findSome?_eq_some hfirst
        have hrequired := honly call hcall name hname
        refine Or.inr ⟨name, (requireManaged_eq_ok_iff.1 hrequired).1, hfirst,
          fun call hcall n hn ↦ ?_, fun hsucceeds ↦ ⟨action, hmem, haction, ?_⟩⟩
        · exact Except.ok.inj ((honly call hcall n hn).symm.trans hrequired)
        · rw [replies_handleServiceControl] at hsucceeds
          rcases hresult : (ServiceControl.perform repr d data).result with e | reply
          · rw [hresult] at hsucceeds
            contradiction
          · rw [hresult] at hsucceeds hissued
            have hok : succeeds reply = true := by simpa using hsucceeds
            rw [hcontrol] at hresult hissued
            obtain ⟨name', c, hname', hget, hcalls, hall⟩ := issued_of_control_ok hresult hok
            obtain rfl : name = name' := Except.ok.inj (hrequired.symm.trans hname')
            refine ⟨c, reply, hget, ?_, hall⟩
            rw [hissued, hcalls, List.cons_append, List.cons_append, List.append_assoc]
            rfl
    · refine Or.inl (hunordered ?_)
      rw [hunknown]
      exact only_pure _
  | null | bool | num | str | arr => exact Or.inl nofun

end

/-! ### What becomes of the containers -/

section

variable {faults : Faults} {host : String → Option Box} {calls : List Call} {name : String}
  {box : Box}

/-- Calls that are no orders leave the container as it is. -/
theorem foldl_after_of_unordered (h : ∀ call ∈ calls, ordered call ≠ some name) :
    calls.foldl (after faults) host name = host name := by
  induction calls generalizing host with
  | nil => rfl
  | cons call calls ih =>
    obtain ⟨hcall, hcalls⟩ := List.forall_mem_cons.1 h
    rw [List.foldl_cons, ih hcalls]
    cases call with
    | command n c =>
      have hne : name ≠ n := by
        rintro rfl
        exact hcall rfl
      exact Function.update_of_ne hne _ _
    | fromEnv | get | close | respond => rfl

/-- No container comes or goes. -/
theorem isSome_foldl_after (faults : Faults) (host : String → Option Box) (calls : List Call)
    (name : String) : (calls.foldl (after faults) host name).isSome = (host name).isSome := by
  induction calls generalizing host with
  | nil => rfl
  | cons call calls ih =>
    rw [List.foldl_cons, ih]
    cases call with
    | command n c =>
      by_cases hname : name = n
      · subst hname
        rw [after, Function.update_self, Option.isSome_map]
      · rw [after, Function.update_of_ne hname]
    | fromEnv | get | close | respond => rfl

/-- Commands that return are carried out. -/
theorem foldl_after_commands {commands : List Command} (hbox : host name = some box)
    (hrun : ∀ command ∈ commands, faults.run name command = none) :
    (commands.map (.command name)).foldl (after faults) host name =
      some (commands.foldl (fun box command ↦ carriedOut command box) box) := by
  induction commands generalizing host box with
  | nil => exact hbox
  | cons command commands ih =>
    obtain ⟨hcommand, hcommands⟩ := List.forall_mem_cons.1 hrun
    refine ih ?_ hcommands
    rw [after, Function.update_self, hbox, Option.map_some, hcommand]

/-- The container a successful request was for. -/
theorem Ordered.host_eq {payload : Option Json}
    (h : Ordered (docker host faults) payload calls name)
    (hok : (replies calls).any succeeds = true) : ∃ action ∈ serviceActions,
      actionOf payload = .str action ∧ ∃ box, host name = some box ∧
        calls.foldl (after faults) host name =
          some ((commandsOf action).foldl (fun box command ↦ carriedOut command box) box) := by
  obtain ⟨action, hmem, haction, c, reply, hget, hcalls, hall⟩ := h.succeeded hok
  refine ⟨action, hmem, haction, ?_⟩
  simp only [docker] at hget
  split at hget
  · contradiction
  · contradiction
  · rename_i box _ hbox
    obtain rfl := Except.ok.inj hget
    have hrun : ∀ command ∈ commandsOf action, faults.run name command = none := by
      intro command hcommand
      have hreturned := hall command hcommand
      cases hfault : faults.run name command with
      | none => rfl
      | some failure => simp [hfault] at hreturned
    refine ⟨box, hbox, ?_⟩
    rw [hcalls, List.foldl_cons, List.foldl_cons, List.foldl_append]
    exact foldl_after_commands hbox hrun

end

/-! ### Every run -/

/-- A container is as the last successful order has left it, and runs only if it was not
disabled. -/
structure Settled (s : State) : Prop where
  present : ∀ name, (s.host name).isSome = (s.deployed name).isSome
  managed : ∀ o ∈ s.history, o.name ∈ managedServices
  policy : ∀ name box, s.host name = some box → ∀ policy,
    knownPolicy ((s.deployed name).map Box.policy) name s.history = some policy →
      box.policy = policy
  down : ∀ name box, s.host name = some box → disabled name s.history = true →
    box.policy = "no" ∧ box.running = false

section

variable {repr : Json → String} {s t : State}

/-- The history after an order. -/
theorem ordersOf_append (name : String) (history : List Order) (o : Order) :
    ordersOf name (history ++ [o]) =
      ordersOf name history ++ if o.name = name then [o] else [] := by
  rw [ordersOf, List.filter_append, ordersOf, List.filter_singleton]
  by_cases hname : o.name = name <;> simp [hname]

theorem knownPolicy_append (deployed : Option String) (name : String) (history : List Order)
    (o : Order) :
    knownPolicy deployed name (history ++ [o]) =
      if o.name = name then o.policy (knownPolicy deployed name history)
      else knownPolicy deployed name history := by
  rw [knownPolicy, ordersOf_append, List.foldl_append, knownPolicy]
  split <;> rfl

/-- Whether a container is disabled is a matter of its last order. -/
theorem disabled_append (name : String) (history : List Order) (o : Order) :
    disabled name (history ++ [o]) =
      if o.name = name then o.ok && o.action.isStr "disable" else disabled name history := by
  rw [disabled, ordersOf_append]
  split
  · rw [List.getLast?_append, List.getLast?_singleton]
    rfl
  · rw [List.append_nil, disabled]

/-- A container that is left as it was, but for what Docker does. -/
theorem Settled.of_box (h : Settled s) {name : String} {host : String → Option Box}
    (hother : ∀ n, n ≠ name → host n = s.host n)
    (hbox : ∀ box, host name = some box → ∃ box₀, s.host name = some box₀ ∧
      box.policy = box₀.policy ∧ (box₀.policy = "no" → box₀.running = false → box.running = false))
    (hsome : (host name).isSome = (s.host name).isSome) : Settled { s with host := host } := by
  refine ⟨fun n ↦ ?_, h.managed, fun n box hn policy hpolicy ↦ ?_, fun n box hn hdown ↦ ?_⟩
  · by_cases hname : n = name
    · rw [hname, ← h.present name]
      exact hsome
    · rw [← h.present n]
      exact congrArg _ (hother n hname)
  · have hn : host n = some box := hn
    by_cases hname : n = name
    · subst hname
      obtain ⟨box₀, hbox₀, hsame, -⟩ := hbox box hn
      rw [hsame]
      exact h.policy n box₀ hbox₀ policy hpolicy
    · rw [hother n hname] at hn
      exact h.policy n box hn policy hpolicy
  · have hn : host n = some box := hn
    by_cases hname : n = name
    · subst hname
      obtain ⟨box₀, hbox₀, hsame, hrunning⟩ := hbox box hn
      obtain ⟨hno, hoff⟩ := h.down n box₀ hbox₀ hdown
      exact ⟨hsame.trans hno, hrunning hno hoff⟩
    · rw [hother n hname] at hn
      exact h.down n box hn hdown

/-- **One order**: the other containers are as they were, and its own is as its commands have left
it, if it was answered with success. -/
theorem Settled.ordered (h : Settled s) {payload : Option Json} {faults : Faults}
    {calls : List Call} {name : String}
    (hordered : Ordered (docker s.host faults) payload calls name) :
    Settled { s with
      host := calls.foldl (after faults) s.host
      history := s.history ++ (calls.findSome? Host.ordered).toList.map fun name ↦
        ⟨name, actionOf payload, (replies calls).any succeeds⟩ } := by
  have hother (n : String) (hn : n ≠ name) : calls.foldl (after faults) s.host n = s.host n :=
    foldl_after_of_unordered fun call hcall heq ↦ hn (hordered.only call hcall n heq)
  rw [hordered.first, Option.toList_some, List.map_singleton]
  refine ⟨fun n ↦ ?_, fun o ho ↦ ?_, fun n box hn policy hpolicy ↦ ?_, fun n box hn hdown ↦ ?_⟩
  · rw [isSome_foldl_after]
    exact h.present n
  · rcases List.mem_append.1 ho with hold | hnew
    · exact h.managed o hold
    · rw [List.mem_singleton.1 hnew]
      exact hordered.managed
  · have hn : calls.foldl (after faults) s.host n = some box := hn
    rw [knownPolicy_append] at hpolicy
    split at hpolicy
    · rename_i hname
      obtain rfl : name = n := hname
      rw [Order.policy] at hpolicy
      split at hpolicy
      · contradiction
      · rename_i hok
        obtain ⟨action, hmem, haction, box₀, hbox₀, hhost⟩ := hordered.host_eq (by simpa using hok)
        rw [hn] at hhost
        obtain rfl := Option.some.inj hhost
        simp only [haction] at hpolicy
        simp only [serviceActions, List.mem_cons, List.not_mem_nil, or_false] at hmem
        rcases hmem with rfl | rfl | rfl
        · exact Option.some.inj hpolicy
        · exact Option.some.inj hpolicy
        · exact h.policy name box₀ hbox₀ policy hpolicy
    · rename_i hname
      rw [hother n (Ne.symm hname)] at hn
      exact h.policy n box hn policy hpolicy
  · have hn : calls.foldl (after faults) s.host n = some box := hn
    rw [disabled_append] at hdown
    split at hdown
    · rename_i hname
      obtain rfl : name = n := hname
      obtain ⟨hok, hdisable⟩ := Bool.and_eq_true_iff.1 hdown
      obtain ⟨action, hmem, haction, box₀, hbox₀, hhost⟩ := hordered.host_eq hok
      rw [haction, Json.isStr_iff] at hdisable
      obtain rfl : action = "disable" := Json.str.inj hdisable
      rw [hn] at hhost
      obtain rfl := Option.some.inj hhost
      exact ⟨rfl, rfl⟩
    · rename_i hname
      rw [hother n (Ne.symm hname)] at hn
      exact h.down n box hn hdown

/-- **One request.** -/
theorem Settled.request (h : Settled s) (payload : Option Json) (faults : Faults) :
    Settled (request repr s payload faults) := by
  rcases request_cases repr (docker s.host faults) payload with hnone | ⟨name, hordered⟩
  · have hhost :
      (handleServiceControl repr (docker s.host faults) payload).issued.foldl (after faults)
        s.host = s.host := by
      funext n
      refine foldl_after_of_unordered fun call hcall ↦ ?_
      rw [hnone call hcall]
      exact Option.some_ne_none _ |>.symm
    have hfirst : (handleServiceControl repr (docker s.host faults) payload).issued.findSome?
        Host.ordered = none := List.findSome?_eq_none_iff.2 hnone
    simp only [Host.request, hhost, hfirst, Option.toList_none, List.map_nil, List.append_nil]
    exact h
  · exact h.ordered hordered

/-- A request is handled to its end before the next one is taken up. -/
theorem Settled.step {a : Action} (h : Settled s) (ht : Host.step repr s a = some t) :
    Settled t := by
  cases a with
  | request payload faults =>
    obtain rfl := Option.some.inj ht
    exact h.request payload faults
  | exit name =>
    obtain rfl := Option.some.inj ht
    refine h.of_box (fun n hn ↦ Function.update_of_ne hn _ _) (fun box hbox ↦ ?_) ?_
    · rw [Function.update_self] at hbox
      obtain ⟨box₀, hbox₀, rfl⟩ := Option.map_eq_some_iff.1 hbox
      exact ⟨box₀, hbox₀, rfl, fun _ _ ↦ rfl⟩
    · rw [Function.update_self, Option.isSome_map]
  | boot name =>
    obtain ⟨hpolicy, ht⟩ := Option.ite_none_right_eq_some.1 ht
    obtain rfl := Option.some.inj ht
    refine h.of_box (fun n hn ↦ Function.update_of_ne hn _ _) (fun box hbox ↦ ?_) ?_
    · rw [Function.update_self] at hbox
      obtain ⟨box₀, hbox₀, rfl⟩ := Option.map_eq_some_iff.1 hbox
      refine ⟨box₀, hbox₀, rfl, fun hno _ ↦ ?_⟩
      rw [hbox₀, Option.any_some, decide_eq_true_eq] at hpolicy
      exact absurd hno hpolicy
    · rw [Function.update_self, Option.isSome_map]

/-- In every run, with any failures of Docker. -/
theorem settled_inductive (repr : Json → String) : (system repr).Inductive always Settled where
  init := by
    rintro s ⟨hhost, hhistory⟩
    refine ⟨fun name ↦ by
      rw [hhost], ?_, fun name box hbox policy hpolicy ↦ ?_, fun name box _ hdown ↦ ?_⟩
    · rw [hhistory]
      exact nofun
    · rw [hhistory, ← hhost, hbox] at hpolicy
      exact Option.some.inj hpolicy
    · rw [hhistory] at hdown
      contradiction
  step h _ ht := h.step ht

/-- **Orders last.** In every run a container has the policy that its last successful orders have
given it, if no order has failed since; after a disable it is down, whatever exits and boots come
then; and one that may not be managed has had no orders and has the policy it was deployed with. -/
theorem orders_last (hs : (system repr).Reachable always s) {name : String} {box : Box}
    (hbox : s.host name = some box) :
    (∀ policy, knownPolicy ((s.deployed name).map Box.policy) name s.history = some policy →
      box.policy = policy) ∧
    (disabled name s.history = true → box.policy = "no" ∧ box.running = false) ∧
    (name ∉ managedServices → ordersOf name s.history = [] ∧
      (s.deployed name).map Box.policy = some box.policy) := by
  have h := (settled_inductive repr).reachable hs
  refine ⟨h.policy name box hbox, h.down name box hbox, fun hname ↦ ?_⟩
  have hnone : ordersOf name s.history = [] := by
    refine List.filter_eq_nil_iff.2 fun o ho heq ↦ hname ?_
    rw [← of_decide_eq_true heq]
    exact h.managed o ho
  have hsome := h.present name
  rw [hbox, Option.isSome_some] at hsome
  obtain ⟨box₀, hbox₀⟩ := Option.isSome_iff_exists.1 hsome.symm
  refine ⟨hnone, ?_⟩
  have hpolicy := h.policy name box hbox box₀.policy (by rw [knownPolicy, hnone, hbox₀]; rfl)
  rw [hbox₀, Option.map_some, hpolicy]

end

/-- All services, as they are deployed. -/
def started : String → Option Box :=
  fun name ↦ if name ∈ allServices then some ⟨"always", true⟩ else none

/-- stt-provider is disabled, after it has exited and Docker has started it again. -/
theorem orders_last_disabled : ∃ s : State, ∃ box, (system fun _ ↦ "").Reachable always s ∧
    s.host "stt-provider" = some box ∧ disabled "stt-provider" s.history = true ∧
    box.policy = "no" ∧ box.running = false := by
  obtain ⟨s, hs, htest⟩ := exists_reachable_of_exec (M := system fun _ ↦ "") (G := always)
    ⟨started, started, []⟩
    [.exit "stt-provider", .boot "stt-provider",
      .request (some (.obj (AdminRequest.disable "stt-provider").payload)) {}]
    (fun s ↦ disabled "stt-provider" s.history && (s.host "stt-provider").isSome) ⟨rfl, rfl⟩
    (by decide +kernel)
  obtain ⟨hdisabled, hsome⟩ := Bool.and_eq_true_iff.1 htest
  obtain ⟨box, hbox⟩ := Option.isSome_iff_exists.1 hsome
  exact ⟨s, box, hs, hbox, hdisabled, (orders_last hs hbox).2.1 hdisabled⟩

end Host

end LiveSTT.ServiceControl
