import LiveSTT.SystemManager.Containers

/-!
# Which service requests are answered

The admin endpoints of api-gateway send a request on `system.service_control` and wait ten seconds
for the reply; without one they answer 504, "system-manager did not respond".
`_handle_service_control` replies to what is no JSON, to unknown actions and to failures of Docker
between the opening and the closing of its client. But what raises in front of that, or at the
closing, leaves the handler, and no reply is sent: a payload that is no object, a service that may
not be managed, a client that does not come up. `answered_iff` says exactly which requests are
answered.

The condition is on the payload and on what Docker does, and on nothing else: the handler keeps no
state. For an object it comes down to whether the program of its action returns
(`answered_obj_iff`), and that to the opening and the closing of the client (`returns_control_iff`).
-/

namespace LiveSTT.ServiceControl

open Calls

/-! ### The handler -/

/-- The branches on the action. -/
def perform (repr : Json → String) (docker : Docker) (data : Dict) : Calls Exc Call Dict :=
  let action := Dict.getOr data "action" (.str "")
  let service := Dict.getOr data "service" (.str "")
  if action.isStr "list" then do
    let services ← listServices docker
    return [("ok", .bool true), ("services", .arr (services.map .obj))]
  else if action.isStr "enable" then enableService repr docker service
  else if action.isStr "disable" then disableService repr docker service
  else if action.isStr "restart" then restartService repr docker service
  else return [("ok", .bool false), ("error", .str ("Unknown action: " ++ rendered repr action))]

/-- `await msg.respond(…)`, which succeeds. -/
def respond (reply : Dict) : Calls Exc Call Unit :=
  call (.respond reply) (.ok ())

/-- `_handle_service_control`. A payload that is no JSON is `none`; only an object has a `get`. -/
def handleServiceControl (repr : Json → String) (docker : Docker) (payload : Option Json) :
    Calls Exc Call Unit :=
  match payload with
  | none => respond [("ok", .bool false), ("error", .str "invalid JSON")]
  | some (.obj data) => do
    let result ← perform repr docker data
    respond result
  | some _ => compute (.error .attributeError)

/-! ### The endpoints -/

/-- The requests of the admin endpoints. -/
inductive AdminRequest
  | list
  | enable (name : String)
  | disable (name : String)
  | restart (name : String)

/-- What they send. -/
def AdminRequest.payload : AdminRequest → Dict
  | list => [("action", .str "list")]
  | enable name => [("action", .str "enable"), ("service", .str name)]
  | disable name => [("action", .str "disable"), ("service", .str name)]
  | restart name => [("action", .str "restart"), ("service", .str name)]

/-- A `JSONResponse`. -/
structure Response where
  status : ℕ
  content : Dict

/-- `except TimeoutError`. -/
def didNotRespond : Response := ⟨504, [("error", .str "system-manager did not respond")]⟩

/-- `list_services`, `enable_service`, `disable_service` and `restart_service` of api-gateway, by
the reply that has come within the timeout. -/
def AdminRequest.response (request : AdminRequest) (reply : Option Dict) : Response :=
  match request, reply with
  | _, none => didNotRespond
  | list, some data =>
    if (Dict.getOr data "ok" .null).truthy then ⟨200, data⟩
    else ⟨502, [("error", Dict.getOr data "error" (.str "unknown"))]⟩
  | _, some data => ⟨200, data⟩

/-- The replies among the calls. -/
def replies (calls : List Call) : List Dict :=
  calls.filterMap fun
    | .respond reply => some reply
    | _ => none

/-- A request of an endpoint, handled by system-manager. -/
def serve (repr : Json → String) (docker : Docker) (request : AdminRequest) : Response :=
  request.response
    (replies (handleServiceControl repr docker (some (.obj request.payload))).issued).head?

/-! ### Which requests are answered -/

/-- One reply is sent, and it is an object with a boolean `ok`. -/
def Answered (repr : Json → String) (docker : Docker) (payload : Option Json) : Prop :=
  ∃ reply, replies (handleServiceControl repr docker payload).issued = [reply] ∧ IsReply reply

/-- The actions on one service. -/
def serviceActions : List String := ["enable", "disable", "restart"]

/-- The payload is no JSON or an object; the service may be managed, if the action is on one; and
the client comes up and closes, if the action needs one. -/
def Answerable (docker : Docker) : Option Json → Prop
  | none => True
  | some (.obj data) =>
    (Dict.getOr data "action" (.str "") = .str "list" → docker.opens) ∧
      ∀ action ∈ serviceActions, Dict.getOr data "action" (.str "") = .str action →
        isManaged (Dict.getOr data "service" (.str "")) ∧ docker.opens
  | some _ => False

section

variable {repr : Json → String} {docker : Docker} {data : Dict}

theorem replies_of_confined {calls : List Call} (h : ∀ c ∈ calls, c.Confined) :
    replies calls = [] := by
  refine List.filterMap_eq_nil_iff.2 fun c hc ↦ ?_
  cases c with
  | respond reply => exact absurd (h _ hc) id
  | _ => rfl

/-- The branches: the list, an action on one service, and an unknown action. -/
theorem perform_cases (repr : Json → String) (docker : Docker) (data : Dict) :
    (Dict.getOr data "action" (.str "") = .str "list" ∧ perform repr docker data = do
      let services ← listServices docker
      return [("ok", .bool true), ("services", .arr (services.map .obj))]) ∨
    (∃ action ∈ serviceActions, Dict.getOr data "action" (.str "") = .str action ∧ ∃ commands,
      perform repr docker data =
        control repr action commands docker (Dict.getOr data "service" (.str ""))) ∨
    (∀ action ∈ "list" :: serviceActions, Dict.getOr data "action" (.str "") ≠ .str action) ∧
      ∃ text, perform repr docker data = return [("ok", .bool false), ("error", .str text)] := by
  simp only [perform]
  split
  · rename_i hlist
    exact Or.inl ⟨Json.isStr_iff.1 hlist, rfl⟩
  · split
    · rename_i henable
      exact Or.inr (Or.inl ⟨"enable", by decide, Json.isStr_iff.1 henable, _, rfl⟩)
    · split
      · rename_i hdisable
        exact Or.inr (Or.inl ⟨"disable", by decide, Json.isStr_iff.1 hdisable, _, rfl⟩)
      · split
        · rename_i hrestart
          exact Or.inr (Or.inl ⟨"restart", by decide, Json.isStr_iff.1 hrestart, _, rfl⟩)
        · rename_i hlist henable hdisable hrestart
          rw [Json.isStr_iff] at hlist henable hdisable hrestart
          refine Or.inr (Or.inr ⟨?_, _, rfl⟩)
          simp [serviceActions, hlist, henable, hdisable, hrestart]

/-- Whether the branch that is taken returns. -/
theorem returns_perform_iff :
    (perform repr docker data).Returns ↔ Answerable docker (some (.obj data)) := by
  rcases perform_cases repr docker data with ⟨haction, hperform⟩ |
    ⟨action, hmem, haction, commands, hperform⟩ | ⟨hunknown, text, hperform⟩
  · have hno : ∀ action ∈ serviceActions, Json.str "list" ≠ .str action := by
      simp [serviceActions]
    rw [hperform, Answerable, haction, returns_bind_iff]
    constructor
    · rintro ⟨services, hservices, -⟩
      refine ⟨fun _ ↦ returns_listServices_iff.1 ⟨services, hservices⟩, fun action hmem heq ↦ ?_⟩
      exact absurd heq (hno action hmem)
    · rintro ⟨hopens, -⟩
      obtain ⟨services, hservices⟩ := returns_listServices_iff.2 (hopens rfl)
      exact ⟨services, hservices, returns_pure _⟩
  · have hnotList : Json.str action ≠ .str "list" := by
      rintro heq
      rw [Json.str.inj heq] at hmem
      exact absurd hmem (by decide)
    rw [hperform, Answerable, haction, returns_control_iff]
    constructor
    · intro hcontrol
      exact ⟨fun heq ↦ absurd heq hnotList, fun _ _ _ ↦ hcontrol⟩
    · rintro ⟨-, hservice⟩
      exact hservice action hmem rfl
  · rw [hperform]
    refine iff_of_true (returns_pure _) ⟨fun heq ↦ ?_, fun action hmem heq ↦ ?_⟩
    · exact absurd heq (hunknown "list" List.mem_cons_self)
    · exact absurd heq (hunknown action (List.mem_cons_of_mem _ hmem))

/-- No branch replies by itself, and none touches a container that may not be managed. -/
theorem only_perform : Only Call.Confined (perform repr docker data) := by
  rcases perform_cases repr docker data with ⟨-, hperform⟩ | ⟨_, -, -, _, hperform⟩ |
    ⟨-, _, hperform⟩
  · rw [hperform]
    exact only_bind only_listServices fun _ _ ↦ only_pure _
  · rw [hperform]
    exact only_control
  · rw [hperform]
    exact only_pure _

/-- Every branch returns a reply. -/
theorem ensures_perform : Ensures IsReply (perform repr docker data) := by
  rcases perform_cases repr docker data with ⟨-, hperform⟩ | ⟨_, -, -, _, hperform⟩ |
    ⟨-, _, hperform⟩
  · rw [hperform]
    exact ensures_bind fun _ _ ↦ ensures_pure ⟨true, by simp [Dict.get_cons]⟩
  · rw [hperform]
    exact ensures_control
  · rw [hperform]
    exact ensures_pure ⟨false, by simp [Dict.get_cons]⟩

/-- The handler replies once, with what the branch returned, or not at all. -/
theorem replies_handleServiceControl :
    replies (handleServiceControl repr docker (some (.obj data))).issued =
      match (perform repr docker data).result with
      | .ok reply => [reply]
      | .error _ => [] := by
  have hnone : replies (perform repr docker data).issued = [] := replies_of_confined only_perform
  rw [handleServiceControl]
  rcases hresult : (perform repr docker data).result with e | reply
  · rw [bind_of_error hresult]
    exact hnone
  · rw [bind_of_ok hresult]
    show replies ((perform repr docker data).issued ++ [.respond reply]) = [reply]
    rw [replies, List.filterMap_append]
    exact congrArg (· ++ [reply]) hnone

/-- A payload that is an object is answered if its handling comes to its end. -/
theorem answered_obj_iff :
    Answered repr docker (some (.obj data)) ↔ (perform repr docker data).Returns := by
  rw [Answered, replies_handleServiceControl]
  rcases hresult : (perform repr docker data).result with e | reply
  · refine iff_of_false (by simp) ?_
    rintro ⟨reply, hreply⟩
    simp [hresult] at hreply
  · exact iff_of_true ⟨reply, rfl, ensures_perform reply hresult⟩ ⟨reply, hresult⟩

/-- No container that may not be managed is touched, whatever the request. -/
theorem confined_handleServiceControl (payload : Option Json) (name : String) (c : Command)
    (h : .command name c ∈ (handleServiceControl repr docker payload).issued) :
    name ∈ managedServices := by
  have honly : Only (fun k ↦ ∀ name c, k = .command name c → name ∈ managedServices)
      (handleServiceControl repr docker payload) := by
    rw [handleServiceControl.eq_def]
    split
    · exact only_call _ (by simp)
    · refine only_bind (fun k hk ↦ ?_) fun _ _ ↦ only_call _ (by simp)
      rintro name c rfl
      exact only_perform _ hk
    · exact only_compute _
  exact honly _ h name c rfl

/-- An endpoint answers 504 if no reply is sent. -/
theorem status_serve_iff (request : AdminRequest) :
    (serve repr docker request).status ≠ 504 ↔
      (perform repr docker request.payload).Returns := by
  rw [serve, replies_handleServiceControl]
  rcases hresult : (perform repr docker request.payload).result with e | reply
  · refine iff_of_false ?_ ?_
    · cases request <;> simp [AdminRequest.response, didNotRespond]
    · rintro ⟨reply, hreply⟩
      simp [hresult] at hreply
  · refine iff_of_true ?_ ⟨reply, hresult⟩
    cases request with
    | list =>
      simp only [List.head?_cons, AdminRequest.response]
      split <;> simp
    | _ => simp [AdminRequest.response]

end

/-- A service request is answered, with one object that has a boolean `ok`, if and only if its
payload is no JSON or an object; its service may be managed, if it is to enable, disable or restart
one; and the Docker client comes up and closes, if it needs one. Exactly otherwise an endpoint of
api-gateway answers 504. -/
theorem answered_iff (repr : Json → String) (docker : Docker) :
    (∀ payload, Answered repr docker payload ↔ Answerable docker payload) ∧
      ∀ request : AdminRequest, (serve repr docker request).status ≠ 504 ↔
        Answerable docker (some (.obj request.payload)) := by
  refine ⟨fun payload ↦ ?_, fun request ↦ ?_⟩
  · rcases payload with - | value
    · refine iff_of_true ⟨_, rfl, false, ?_⟩ trivial
      simp [Dict.get_cons]
    · cases value with
      | obj data => exact answered_obj_iff.trans returns_perform_iff
      | _ =>
        refine iff_of_false ?_ id
        rintro ⟨reply, hreply, -⟩
        exact absurd hreply (List.cons_ne_nil _ _).symm
  · exact (status_serve_iff request).trans returns_perform_iff

/-- A running container in a healthy Docker. -/
def healthy : Docker where
  fromEnv := .ok ()
  get _ := .ok ⟨.ok (.str "running"), .ok (.str "always"), fun _ ↦ .ok ()⟩
  close := .ok ()

/-- The request to disable `nats` is not answered, and the endpoint reports that system-manager did
not respond. -/
theorem not_answered_protected :
    ¬ Answered (fun _ ↦ "") healthy (some (.obj (AdminRequest.disable "nats").payload)) ∧
      serve (fun _ ↦ "") healthy (.disable "nats") = didNotRespond := by
  have hresult : (perform (fun _ ↦ "") healthy (AdminRequest.disable "nats").payload).result =
      .error (.valueError (notManageable "nats")) := by
    rfl
  constructor
  · rw [answered_obj_iff]
    rintro ⟨reply, hreply⟩
    simp [hresult] at hreply
  · rw [serve, replies_handleServiceControl, hresult]
    rfl

end LiveSTT.ServiceControl
