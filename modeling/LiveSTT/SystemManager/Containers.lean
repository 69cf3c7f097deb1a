import LiveSTT.Lib.Calls
import LiveSTT.Lib.Json
import Mathlib.Data.List.Sort

/-!
# Containers: what system-manager does to services

The functions of `containers.py`: the list of all known services, and the three that disable, enable
and restart one. Each opens a Docker client and closes it. The three check first that the service
may be managed; `nats`, `api-gateway` and `system-manager` itself may not.

What Docker does is the environment's: the client may not come up, the container may be missing,
every call and every attribute may raise, the closing too. An error between the two ends is reported
in the result. The others leave the function: `returns_control_iff` says when one does.

The functions are programs in the sense of `Calls`, so the two questions asked of them, whether they
return and what calls they have issued, are answered by its rules. Names are compared as JSON
values: a service that is no string may not be managed.
-/

namespace LiveSTT.ServiceControl

open Calls

/-! ### Docker -/

/-- An exception of the Docker client. -/
inductive DockerError
  | notFound
  /-- Any other, with its text. -/
  | other (text : String)

/-- What is done to a container. -/
inductive Command
  /-- `c.update(restart_policy={"Name": policy})` -/
  | update (policy : String)
  | stop (timeout : ℕ)
  | start
  | restart (timeout : ℕ)
  deriving DecidableEq

/-- A container, by what its attributes hold and how its calls end. -/
structure Container where
  status : Except DockerError Json
  /-- `c.attrs["HostConfig"]["RestartPolicy"]["Name"]` -/
  restartPolicy : Except DockerError Json
  run : Command → Except DockerError Unit

/-- A Docker client, by how its calls end. -/
structure Docker where
  /-- `docker.from_env()` -/
  fromEnv : Except DockerError Unit
  /-- `client.containers.get(name)` -/
  get : String → Except DockerError Container
  /-- `client.close()` -/
  close : Except DockerError Unit

/-- The client comes up, and closes. -/
def Docker.opens (docker : Docker) : Prop :=
  docker.fromEnv = .ok () ∧ docker.close = .ok ()

/-- The calls of a service request. -/
inductive Call
  | fromEnv
  | get (name : String)
  | command (name : String) (c : Command)
  | close
  /-- `msg.respond(json.dumps(reply).encode())` -/
  | respond (reply : Dict)

/-- What leaves a function. -/
inductive Exc
  | attributeError
  | typeError
  | valueError (text : String)
  | docker (e : DockerError)

/-! ### The functions -/

/-- `MANAGED_SERVICES` -/
def managedServices : List String :=
  ["audio-producer", "stt-provider", "identity-manager", "health-watchdog"]

/-- `ALL_SERVICES` -/
def allServices : List String :=
  managedServices ++ ["nats", "api-gateway", "system-manager"]

/-- `sorted`, of names. -/
def sorted (names : List String) : List String :=
  names.insertionSort (· ≤ ·)

/-- `_client` -/
def client (docker : Docker) : Calls Exc Call Unit :=
  call .fromEnv (docker.fromEnv.mapError .docker)

/-- `client.close()` -/
def close (docker : Docker) : Calls Exc Call Unit :=
  call .close (docker.close.mapError .docker)

/-- One round of the loop of `list_services`. -/
def entry (docker : Docker) (name : String) : Calls Exc Call Dict :=
  tryExcept (do
      let c ← call (.get name) (docker.get name)
      let status ← compute c.status
      let policy ← compute c.restartPolicy
      return [("name", .str name), ("status", status), ("restart_policy", policy),
        ("managed", .bool (decide (name ∈ managedServices)))])
    fun
      | .notFound =>
        [("name", .str name), ("status", .str "not_deployed"), ("restart_policy", .str ""),
          ("managed", .bool false)]
      | .other text =>
        [("name", .str name), ("status", .str "error"), ("restart_policy", .str ""),
          ("managed", .bool (decide (name ∈ managedServices))), ("error", .str text)]

/-- `list_services` -/
def listServices (docker : Docker) : Calls Exc Call (List Dict) := do
  client docker
  let result ← each (entry docker) (sorted allServices)
  close docker
  return result

/-- An f-string renders a string as it is; `repr` renders the other values. -/
def rendered (repr : Json → String) : Json → String
  | .str s => s
  | v => repr v

/-- The text of the exception of `_require_managed`. -/
def notManageable (service : String) : String :=
  "Service '" ++ service ++ "' is not manageable (allowed: [" ++
    ", ".intercalate ((sorted managedServices).map fun name ↦ "'" ++ name ++ "'") ++ "])"

/-- `_require_managed`: only a string is in the set, and the value has to be hashable to be looked
up. Returns the name. -/
def requireManaged (repr : Json → String) (service : Json) : Except Exc String :=
  match service with
  | .str name =>
    if name ∈ managedServices then .ok name else .error (.valueError (notManageable name))
  | .arr _ | .obj _ => .error .typeError
  | v => .error (.valueError (notManageable (rendered repr v)))

/-- What `disable_service`, `enable_service` and `restart_service` have in common. -/
def control (repr : Json → String) (action : String) (commands : List Command) (docker : Docker)
    (service : Json) : Calls Exc Call Dict := do
  let name ← compute (requireManaged repr service)
  client docker
  tryFinally
    (tryExcept (do
        let c ← call (.get name) (docker.get name)
        let _ ← each (fun command ↦ call (.command name command) (c.run command)) commands
        return [("ok", .bool true), ("name", .str name), ("action", .str action)])
      fun
        | .notFound =>
          [("ok", .bool false), ("error", .str ("Container '" ++ name ++ "' not found"))]
        | .other text => [("ok", .bool false), ("error", .str text)])
    (close docker)

/-- `disable_service` -/
def disableService (repr : Json → String) : Docker → Json → Calls Exc Call Dict :=
  control repr "disable" [.update "no", .stop 10]

/-- `enable_service` -/
def enableService (repr : Json → String) : Docker → Json → Calls Exc Call Dict :=
  control repr "enable" [.update "always", .start]

/-- `restart_service` -/
def restartService (repr : Json → String) : Docker → Json → Calls Exc Call Dict :=
  control repr "restart" [.restart 10]

/-! ### Which of them return -/

/-- The service may be managed. -/
def isManaged (service : Json) : Prop := ∃ name ∈ managedServices, service = .str name

/-- A reply: an object with a boolean `ok`. -/
def IsReply (d : Dict) : Prop := ∃ b, Dict.get d "ok" = some (.bool b)

/-- A call that answers nobody, and touches no container but a managed one. -/
def Call.Confined : Call → Prop
  | .command name _ => name ∈ managedServices
  | .respond _ => False
  | _ => True

section

variable {repr : Json → String} {action : String} {commands : List Command} {docker : Docker}
  {service : Json} {name : String}

/-- The guard lets through the managed names, as strings. -/
theorem requireManaged_eq_ok_iff :
    requireManaged repr service = .ok name ↔ name ∈ managedServices ∧ service = .str name := by
  cases service with
  | str s =>
    rw [requireManaged, Json.str.injEq]
    split
    · rename_i hs
      rw [Except.ok.injEq]
      constructor
      · rintro rfl
        exact ⟨hs, rfl⟩
      · rintro ⟨-, rfl⟩
        rfl
    · rename_i hs
      refine iff_of_false (by simp) ?_
      rintro ⟨hname, rfl⟩
      exact hs hname
  | _ => simp [requireManaged]

theorem client_eq_ok_iff : (client docker).result = .ok () ↔ docker.fromEnv = .ok () := by
  rw [client, call]
  cases docker.fromEnv <;> simp [Except.mapError]

theorem close_eq_ok_iff : (close docker).result = .ok () ↔ docker.close = .ok () := by
  rw [close, call]
  cases docker.close <;> simp [Except.mapError]

theorem returns_close_iff : (close docker).Returns ↔ docker.close = .ok () := by
  rw [← close_eq_ok_iff]
  exact ⟨fun ⟨(), h⟩ ↦ h, fun h ↦ ⟨(), h⟩⟩

/-- A service is disabled, enabled or restarted, or the failure to do so is reported, if it may be
managed and the client comes up and closes. Otherwise an exception leaves the function. -/
theorem returns_control_iff :
    (control repr action commands docker service).Returns ↔ isManaged service ∧ docker.opens := by
  rw [control, returns_bind_iff]
  constructor
  · rintro ⟨name, hname, hrest⟩
    obtain ⟨⟨⟩, hclient, hrest⟩ := returns_bind_iff.1 hrest
    obtain ⟨-, hclose⟩ := returns_tryFinally_iff.1 hrest
    have hname : requireManaged repr service = .ok name := hname
    exact ⟨⟨name, requireManaged_eq_ok_iff.1 hname⟩, client_eq_ok_iff.1 hclient,
      returns_close_iff.1 hclose⟩
  · rintro ⟨⟨name, hname⟩, hclient, hclose⟩
    refine ⟨name, requireManaged_eq_ok_iff.2 hname, ?_⟩
    refine returns_bind_iff.2 ⟨(), client_eq_ok_iff.2 hclient, ?_⟩
    exact returns_tryFinally_iff.2 ⟨returns_tryExcept, returns_close_iff.2 hclose⟩

/-- The services are listed if the client comes up and closes, whatever else fails. -/
theorem returns_listServices_iff : (listServices docker).Returns ↔ docker.opens := by
  rw [listServices, returns_bind_iff]
  constructor
  · rintro ⟨⟨⟩, hclient, hrest⟩
    obtain ⟨entries, -, hrest⟩ := returns_bind_iff.1 hrest
    obtain ⟨⟨⟩, hclose, -⟩ := returns_bind_iff.1 hrest
    exact ⟨client_eq_ok_iff.1 hclient, close_eq_ok_iff.1 hclose⟩
  · rintro ⟨hclient, hclose⟩
    refine ⟨(), client_eq_ok_iff.2 hclient, ?_⟩
    obtain ⟨entries, hentries⟩ : (each (entry docker) (sorted allServices)).Returns :=
      returns_each fun _ ↦ returns_tryExcept
    refine returns_bind_iff.2 ⟨entries, hentries, ?_⟩
    exact returns_bind_iff.2 ⟨(), close_eq_ok_iff.2 hclose, returns_pure _⟩

/-! ### What they do and return -/

/-- Only the service that was asked for is touched, and only if it may be managed. -/
theorem only_control : Only Call.Confined (control repr action commands docker service) := by
  rw [control]
  refine only_bind (only_compute _) fun name hname ↦ ?_
  have hname : requireManaged repr service = .ok name := hname
  have hmanaged := (requireManaged_eq_ok_iff.1 hname).1
  refine only_bind (only_call _ trivial) fun _ _ ↦ ?_
  refine only_tryFinally (only_tryExcept ?_) (only_call _ trivial)
  refine only_bind (only_call _ trivial) fun c _ ↦ ?_
  exact only_bind (only_each fun _ ↦ only_call _ hmanaged) fun _ _ ↦ only_pure _

/-- Listing is confined as well. -/
theorem only_listServices : Only Call.Confined (listServices docker) := by
  have hentry (name : String) : Only Call.Confined (entry docker name) := by
    refine only_tryExcept ?_
    refine only_bind (only_call _ trivial) fun c _ ↦ ?_
    refine only_bind (only_compute _) fun _ _ ↦ ?_
    exact only_bind (only_compute _) fun _ _ ↦ only_pure _
  refine only_bind (only_call _ trivial) fun _ _ ↦ ?_
  refine only_bind (only_each hentry) fun _ _ ↦ ?_
  exact only_bind (only_call _ trivial) fun _ _ ↦ only_pure _

/-- Every outcome of an action is a reply. -/
theorem ensures_control : Ensures IsReply (control repr action commands docker service) := by
  refine ensures_bind fun name _ ↦ ensures_bind fun _ _ ↦ ?_
  refine ensures_tryFinally (ensures_tryExcept ?_ ?_)
  · refine ensures_bind fun c _ ↦ ensures_bind fun _ _ ↦ ensures_pure ?_
    exact ⟨true, by simp [Dict.get_cons]⟩
  · rintro (- | text)
    · exact ⟨false, by simp [Dict.get_cons]⟩
    · exact ⟨false, by simp [Dict.get_cons]⟩

end

end LiveSTT.ServiceControl
