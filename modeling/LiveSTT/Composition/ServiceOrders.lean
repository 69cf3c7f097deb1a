import LiveSTT.SystemManager.Host

/-!
# What the answers of the service endpoints mean

An admin who enables, disables or restarts a service asks api-gateway, which sends a request on
`system.service_control` and waits ten seconds for the reply; system-manager handles the requests.
In between, containers exit and boot, other clients send requests of their own, system-manager may
be down, and the connection to the broker may fail.

`answers_of_orders` says what an answer is worth. One with status 200 and `"ok": true` stands for an
order that was given while the admin waited, and was carried out, and it is the only order that was
given for the request; what a disable or an enable has made of the container stays until the next
order to it. The same status with `"ok": false` says that no order was carried out. But a 504 says
nothing, nor does a 500: the order may have been given, with success, or may be given still.

The places of the orders in the history of the host are noted in `Ticket`; no code keeps them.
-/

namespace LiveSTT.ServiceOrders

open TransitionSystem ServiceControl
open ServiceControl.Host (Box Faults Order docker ordered)

/-! ### The model -/

/-- Where the message of a request is. -/
inductive Message
  | queued
  /-- system-manager has handled it, with the reply it has sent, and the place of the order it has
  given. -/
  | handled (reply : Option Dict) (order : Option ℕ)
  | lost

/-- A request of an endpoint. -/
structure Ticket where
  request : AdminRequest
  /-- The number of orders when the request was sent. -/
  sent : ℕ
  message : Message := .queued
  /-- What the endpoint has answered, and the number of orders then. -/
  answer : Option (Response × ℕ) := none

/-- The place of the order that was given for a request. -/
def Ticket.order (t : Ticket) : Option ℕ :=
  match t.message with
  | .handled _ order => order
  | .queued | .lost => none

structure State where
  manager : Host.State
  tickets : List Ticket := []

inductive Action
  /-- An admin asks, and the endpoint sends its request. -/
  | ask (q : AdminRequest)
  /-- system-manager handles a request. -/
  | handle (i : ℕ) (faults : Faults)
  /-- Nobody is subscribed, or system-manager ends before it handles a request. -/
  | lose (i : ℕ)
  /-- The reply reaches the endpoint. -/
  | reply (i : ℕ)
  /-- The endpoint has waited for ten seconds. -/
  | timeout (i : ℕ)
  /-- The call of the endpoint raises what is no `TimeoutError`: nobody is subscribed, or the
  connection fails. -/
  | fail (i : ℕ)
  /-- A container exits or boots, or somebody else sends a request. -/
  | host (a : Host.Action)

/-- An exception leaves the endpoint. -/
def internalServerError : Response := ⟨500, []⟩

section

variable (repr : Json → String)

/-- A request goes on, if it can. -/
def State.proceed (s : State) (i : ℕ) (f : Ticket → Option Ticket) : Option State :=
  (s.tickets[i]?.bind f).map fun t ↦ { s with tickets := s.tickets.set i t }

/-- What system-manager makes of the message of a request. -/
def Ticket.handled (t : Ticket) (manager : Host.State) (faults : Faults) : Ticket :=
  let calls := (handleServiceControl repr (docker manager.host faults)
    (some (.obj t.request.payload))).issued
  { t with
    message := .handled (replies calls).head?
      ((calls.findSome? ordered).map fun _ ↦ manager.history.length) }

/-- The endpoint answers. -/
def Ticket.answered (t : Ticket) (r : Response) (orders : ℕ) : Ticket :=
  { t with answer := some (r, orders) }

def step (s : State) : Action → Option State
  | .ask q =>
    some { s with tickets := s.tickets ++ [{ request := q, sent := s.manager.history.length }] }
  | .handle i faults => s.tickets[i]?.bind fun t ↦
      match t.message with
      | .queued => some
          { manager := Host.request repr s.manager (some (.obj t.request.payload)) faults
            tickets := s.tickets.set i (t.handled repr s.manager faults) }
      | .handled _ _ | .lost => none
  | .lose i => s.proceed i fun t ↦
      match t.message with
      | .queued => some { t with message := .lost }
      | .handled _ _ | .lost => none
  | .reply i => s.proceed i fun t ↦
      match t.message, t.answer with
      | .handled (some reply) _, none => some
          (t.answered (t.request.response (some reply)) s.manager.history.length)
      | _, _ => none
  | .timeout i => s.proceed i fun t ↦
      match t.answer with
      | none => some (t.answered (t.request.response none) s.manager.history.length)
      | some _ => none
  | .fail i => s.proceed i fun t ↦
      match t.answer with
      | none => some (t.answered internalServerError s.manager.history.length)
      | some _ => none
  | .host a => (Host.step repr s.manager a).map fun manager ↦ { s with manager := manager }

/-- The service endpoints of api-gateway, and system-manager. -/
def system : TransitionSystem State Action where
  init s := (Host.system repr).init s.manager ∧ s.tickets = []
  step := step repr

end

/-- The action and the service of a request that is for one service. -/
def orderOf : AdminRequest → Option (String × String)
  | .list => none
  | .enable name => some ("enable", name)
  | .disable name => some ("disable", name)
  | .restart name => some ("restart", name)

/-- What a container is like after an action that was carried out, until the next order to it. -/
structure Holds (action : String) (box : Box) : Prop where
  disabled : action = "disable" → box.policy = "no" ∧ box.running = false
  enabled : action = "enable" → box.policy = "always"

section

variable {repr : Json → String} {s t : State}

/-! ### How a request is handled -/

/-- The host is as if there were no endpoints. -/
theorem refines_host : (system repr).Refines always (Host.system repr) always State.manager where
  init _ hs := hs.1
  step {s a t} _ ht := by
    have hproceed {i : ℕ} {f : Ticket → Option Ticket} (ht : s.proceed i f = some t) :
        ∃ bs, (Host.system repr).Run always s.manager bs t.manager := by
      obtain ⟨x, -, rfl⟩ := Option.map_eq_some_iff.1 ht
      exact ⟨[], .nil⟩
    cases a with
    | ask q =>
      obtain rfl := Option.some.inj ht
      exact ⟨[], .nil⟩
    | handle i faults =>
      obtain ⟨x, -, ht⟩ := Option.bind_eq_some_iff.1 ht
      split at ht
      · obtain rfl := Option.some.inj ht
        exact ⟨[.request (some (.obj x.request.payload)) faults], .single trivial rfl⟩
      · contradiction
      · contradiction
    | lose i => exact hproceed ht
    | reply i => exact hproceed ht
    | timeout i => exact hproceed ht
    | fail i => exact hproceed ht
    | host a =>
      obtain ⟨manager, hmanager, rfl⟩ := Option.map_eq_some_iff.1 ht
      exact ⟨[a], .single trivial hmanager⟩

/-- A request that orders something names an action and a service. -/
theorem action_mem_of_orderOf {q : AdminRequest} {action name : String}
    (hq : orderOf q = some (action, name)) : action ∈ serviceActions ∧
      Dict.getOr q.payload "action" (.str "") = .str action ∧
      Dict.getOr q.payload "service" (.str "") = .str name := by
  cases q with
  | list => contradiction
  | enable n | disable n | restart n =>
    obtain ⟨rfl, rfl⟩ := Prod.mk.inj (Option.some.inj hq)
    exact ⟨by decide, rfl, rfl⟩

/-- **How a request for one service is handled.** An order is for the service that was named, and
success is reported only if one was given. -/
theorem handled_of_orderOf (repr : Json → String) (d : Docker) {q : AdminRequest}
    {action name : String} (hq : orderOf q = some (action, name)) :
    (∀ n, (handleServiceControl repr d (some (.obj q.payload))).issued.findSome? ordered = some n →
      n = name) ∧
    ((replies (handleServiceControl repr d (some (.obj q.payload))).issued).any Host.succeeds =
      true →
      (handleServiceControl repr d (some (.obj q.payload))).issued.findSome? ordered ≠ none) := by
  obtain ⟨hmem, haction, hservice⟩ := action_mem_of_orderOf hq
  have hperform := Host.perform_of_action repr d hmem haction
  rw [hservice] at hperform
  have hissued := Host.issued_handleServiceControl repr d q.payload
  rw [hperform] at hissued
  constructor
  · intro n hn
    obtain ⟨call, hcall, hordered⟩ := List.exists_of_findSome?_eq_some hn
    rw [hissued] at hcall
    rcases List.mem_append.1 hcall with hcall | hcall
    · have hrequired := Host.only_ordered_control call hcall n hordered
      exact (Json.str.inj (requireManaged_eq_ok_iff.1 hrequired).2).symm
    · split at hcall
      · rw [List.mem_singleton.1 hcall] at hordered
        contradiction
      · contradiction
  · intro hsucceeds hnone
    rw [replies_handleServiceControl, hperform] at hsucceeds
    split at hsucceeds
    · rename_i reply hreply
      have hok : Host.succeeds reply = true := by simpa using hsucceeds
      obtain ⟨n, c, -, -, hcalls, -⟩ := Host.issued_of_control_ok hreply hok
      -- The first command of the action is an order.
      have hcommands : Host.commandsOf action ≠ [] := by
        simp only [serviceActions, List.mem_cons, List.not_mem_nil, or_false] at hmem
        rcases hmem with rfl | rfl | rfl
        all_goals exact List.cons_ne_nil _ _
      obtain ⟨command, commands, hcommand⟩ := List.exists_cons_of_ne_nil hcommands
      have hfirst : .command n command ∈
          (handleServiceControl repr d (some (.obj q.payload))).issued := by
        rw [hissued, hcalls, hcommand]
        simp
      exact absurd (List.findSome?_eq_none_iff.1 hnone _ hfirst) (Option.some_ne_none n)
    · contradiction

/-- The history only grows. -/
theorem history_append {a : Host.Action} {manager manager' : Host.State}
    (ht : Host.step repr manager a = some manager') :
    ∃ orders, manager'.history = manager.history ++ orders := by
  cases a with
  | request payload faults =>
    obtain rfl := Option.some.inj ht
    exact ⟨_, rfl⟩
  | exit name =>
    obtain rfl := Option.some.inj ht
    exact ⟨[], (List.append_nil _).symm⟩
  | boot name =>
    obtain ⟨-, ht⟩ := Option.ite_none_right_eq_some.1 ht
    obtain rfl := Option.some.inj ht
    exact ⟨[], (List.append_nil _).symm⟩

/-! ### What is known of a request -/

/-- The answer and the order of a request, against the orders that were given. -/
structure Truthful (history : List Order) (t : Ticket) : Prop where
  sent : t.sent ≤ history.length
  order : ∀ k, t.order = some k → t.sent ≤ k ∧ k < history.length ∧
    ∃ reply, t.message = .handled reply (some k) ∧ ∀ action name,
      orderOf t.request = some (action, name) →
        history[k]? = some ⟨name, .str action, reply.any Host.succeeds⟩
  /-- Success is reported of an order. -/
  succeeded : ∀ reply order, t.message = .handled (some reply) order →
    (orderOf t.request).isSome = true → Host.succeeds reply = true → order ≠ none
  answer : ∀ r n, t.answer = some (r, n) → n ≤ history.length ∧
    (r.status = 200 → ∃ reply order, t.message = .handled (some reply) order ∧
      r = t.request.response (some reply) ∧ ∀ k, order = some k → k < n)

section Truthful

variable {history : List Order} {x : Ticket}

/-- Orders given later do not change what is known of a request. -/
theorem Truthful.append (h : Truthful history x) (orders : List Order) :
    Truthful (history ++ orders) x := by
  have hlength : history.length ≤ (history ++ orders).length := by simp
  refine ⟨h.sent.trans hlength, fun k hk ↦ ?_, h.succeeded, fun r n hr ↦ ?_⟩
  · obtain ⟨hsent, hlt, reply, hmessage, horder⟩ := h.order k hk
    refine ⟨hsent, hlt.trans_le hlength, reply, hmessage, fun action name hq ↦ ?_⟩
    rw [List.getElem?_append_left hlt]
    exact horder action name hq
  · obtain ⟨hn, hanswer⟩ := h.answer r n hr
    exact ⟨hn.trans hlength, hanswer⟩

theorem truthful_ask (q : AdminRequest) :
    Truthful history { request := q, sent := history.length } :=
  ⟨le_rfl, nofun, nofun, nofun⟩

/-- A message that is lost gives no order, and was not answered with a reply. -/
theorem Truthful.lose (h : Truthful history x) (hqueued : x.message = .queued) :
    Truthful history { x with message := .lost } := by
  refine ⟨h.sent, nofun, nofun, fun r n hr ↦ ?_⟩
  obtain ⟨hn, hreply⟩ := h.answer r n hr
  refine ⟨hn, fun hstatus ↦ ?_⟩
  obtain ⟨reply, order, hmessage, -⟩ := hreply hstatus
  rw [hqueued] at hmessage
  contradiction

/-- An answer to a request that had none. -/
theorem Truthful.answered (h : Truthful history x) {r : Response}
    (hreply : r.status = 200 → ∃ reply order, x.message = .handled (some reply) order ∧
      r = x.request.response (some reply)) : Truthful history (x.answered r history.length) := by
  refine ⟨h.sent, h.order, h.succeeded, fun r' n hr ↦ ?_⟩
  obtain ⟨rfl, rfl⟩ := Prod.mk.inj (Option.some.inj hr)
  refine ⟨le_rfl, fun hstatus ↦ ?_⟩
  obtain ⟨reply, order, hmessage, hresponse⟩ := hreply hstatus
  refine ⟨reply, order, hmessage, hresponse, ?_⟩
  rintro k rfl
  have hk : x.order = some k := by rw [Ticket.order, hmessage]
  exact (h.order k hk).2.1

end Truthful

/-- **A request is handled.** -/
theorem Truthful.handled {manager : Host.State} {x : Ticket} (h : Truthful manager.history x)
    (hqueued : x.message = .queued) (faults : Faults) :
    Truthful (Host.request repr manager (some (.obj x.request.payload)) faults).history
      (x.handled repr manager faults) := by
  set calls := (handleServiceControl repr (docker manager.host faults)
    (some (.obj x.request.payload))).issued with hcalls
  have hhistory : (Host.request repr manager (some (.obj x.request.payload)) faults).history =
      manager.history ++ ((calls.findSome? ordered).toList.map fun name ↦
        ⟨name, Host.actionOf (some (.obj x.request.payload)), (replies calls).any Host.succeeds⟩) :=
          rfl
  have hmessage : (x.handled repr manager faults).message = .handled (replies calls).head?
      ((calls.findSome? ordered).map fun _ ↦ manager.history.length) := rfl
  -- The handler replies at most once.
  have hreplies : (replies calls).any Host.succeeds = (replies calls).head?.any Host.succeeds := by
    rw [hcalls, replies_handleServiceControl]
    split <;> simp
  rw [hhistory]
  refine ⟨h.sent.trans (by simp), fun k hk ↦ ?_, fun reply order hreply hq hok ↦ ?_,
    fun r n hr ↦ ?_⟩
  · rw [Ticket.order, hmessage] at hk
    obtain ⟨n, hn, rfl⟩ := Option.map_eq_some_iff.1 hk
    rw [hn]
    refine ⟨h.sent, by simp, _, hmessage.trans (by rw [hn]; rfl), fun action name hq ↦ ?_⟩
    have haction : Host.actionOf (some (.obj x.request.payload)) = .str action :=
      (action_mem_of_orderOf hq).2.1
    obtain rfl := (handled_of_orderOf repr (docker manager.host faults) hq).1 n hn
    rw [Option.toList_some, List.map_singleton, List.getElem?_append_right le_rfl, Nat.sub_self,
      haction, hreplies]
    rfl
  · obtain ⟨⟨action, name⟩, hq⟩ := Option.isSome_iff_exists.1 hq
    replace hq : orderOf x.request = some (action, name) := hq
    obtain ⟨hhead, rfl⟩ := Message.handled.inj (hmessage.symm.trans hreply)
    have hgiven := (handled_of_orderOf repr (docker manager.host faults) hq).2
    rw [Ne, Option.map_eq_none_iff]
    refine hgiven ?_
    rw [← hcalls, hreplies, hhead]
    exact hok
  · obtain ⟨hn, hreply⟩ := h.answer r n hr
    refine ⟨hn.trans (by simp), fun hstatus ↦ ?_⟩
    obtain ⟨reply, order, hhandled, -⟩ := hreply hstatus
    rw [hqueued] at hhandled
    contradiction

/-! ### Every run -/

/-- Two requests have not given the same order. -/
structure Sound (s : State) : Prop where
  truthful : ∀ (i : ℕ) (x : Ticket), s.tickets[i]? = some x → Truthful s.manager.history x
  distinct : ∀ (i j : ℕ) (x y : Ticket) (k : ℕ), s.tickets[i]? = some x → s.tickets[j]? = some y →
    x.order = some k →
    y.order = some k → i = j

/-- One request goes on. An order that it has given just now is a new one. -/
theorem Sound.set (h : Sound s) {i : ℕ} {x y : Ticket} {manager : Host.State} {orders : List Order}
    (hx : s.tickets[i]? = some x) (hhistory : manager.history = s.manager.history ++ orders)
    (hy : Truthful manager.history y)
    (horder : ∀ k, y.order = some k → x.order = some k ∨ s.manager.history.length ≤ k) :
    Sound { manager := manager, tickets := s.tickets.set i y } := by
  have hlt : i < s.tickets.length := (List.getElem?_eq_some_iff.1 hx).1
  have hold {j : ℕ} {z : Ticket} (hne : i ≠ j) (hz : (s.tickets.set i y)[j]? = some z) :
      s.tickets[j]? = some z := by
    rwa [List.getElem?_set_ne hne] at hz
  have hnew {z : Ticket} (hz : (s.tickets.set i y)[i]? = some z) : z = y := by
    rw [List.getElem?_set_self hlt] at hz
    exact (Option.some.inj hz).symm
  -- Another request has not given the order of the one that goes on.
  have hother {j : ℕ} {z : Ticket} {k : ℕ} (hne : i ≠ j) (hz : s.tickets[j]? = some z)
      (hzk : z.order = some k) (hyk : y.order = some k) : False := by
    rcases horder k hyk with hxk | hle
    · exact hne (h.distinct i j x z k hx hz hxk hzk)
    · exact absurd ((h.truthful j z hz).order k hzk).2.1 (Nat.not_lt.2 hle)
  refine ⟨fun j z hz ↦ ?_, fun j l z w k hz hw hzk hwk ↦ ?_⟩
  · by_cases hij : i = j
    · subst hij
      rw [hnew hz]
      exact hy
    · show Truthful manager.history z
      rw [hhistory]
      exact (h.truthful j z (hold hij hz)).append orders
  · by_cases hij : i = j
    · by_cases hil : i = l
      · exact hij.symm.trans hil
      · subst hij
        rw [hnew hz] at hzk
        exact (hother hil (hold hil hw) hwk hzk).elim
    · by_cases hil : i = l
      · subst hil
        rw [hnew hw] at hwk
        exact (hother hij (hold hij hz) hzk hwk).elim
      · exact h.distinct j l z w k (hold hij hz) (hold hil hw) hzk hwk

/-- A request goes on without system-manager. -/
theorem Sound.proceed (h : Sound s) {i : ℕ} {f : Ticket → Option Ticket}
    (ht : s.proceed i f = some t)
    (hf : ∀ x y, f x = some y → Truthful s.manager.history x → Truthful s.manager.history y ∧
      ∀ k, y.order = some k → x.order = some k) : Sound t := by
  obtain ⟨y, hy, rfl⟩ := Option.map_eq_some_iff.1 ht
  obtain ⟨x, hx, hfx⟩ := Option.bind_eq_some_iff.1 hy
  obtain ⟨htruthful, horder⟩ := hf x y hfx (h.truthful i x hx)
  exact h.set hx (List.append_nil _).symm htruthful fun k hk ↦ Or.inl (horder k hk)

/-- The handler of system-manager takes the request that was sent first, and notes the place of its
order. -/
theorem Sound.step {a : Action} (h : Sound s) (ht : step repr s a = some t) : Sound t := by
  cases a with
  | ask q =>
    obtain rfl := Option.some.inj ht
    have hlast {i : ℕ} {x : Ticket}
      (hx : (s.tickets ++ [⟨q, s.manager.history.length, .queued, none⟩])[i]? =
        some x) : s.tickets[i]? = some x ∨ x = ⟨q, s.manager.history.length, .queued, none⟩ := by
      rw [List.getElem?_append] at hx
      split at hx
      · exact Or.inl hx
      · exact Or.inr (List.mem_singleton.1 (List.mem_of_getElem? hx))
    refine ⟨fun i x hx ↦ ?_, fun i j x y k hx hy hxk hyk ↦ ?_⟩
    · rcases hlast hx with hx | rfl
      · exact h.truthful i x hx
      · exact truthful_ask q
    · rcases hlast hx with hx | rfl
      · rcases hlast hy with hy | rfl
        · exact h.distinct i j x y k hx hy hxk hyk
        · contradiction
      · contradiction
  | handle i faults =>
    obtain ⟨x, hx, ht⟩ := Option.bind_eq_some_iff.1 ht
    split at ht
    · rename_i hqueued
      obtain rfl := Option.some.inj ht
      refine h.set hx rfl ((h.truthful i x hx).handled hqueued faults) fun k hk ↦ Or.inr ?_
      obtain ⟨-, -, rfl⟩ := Option.map_eq_some_iff.1 hk
      exact le_rfl
    · contradiction
    · contradiction
  | lose i =>
    refine h.proceed ht fun x y hy hx ↦ ?_
    split at hy
    · rename_i hqueued
      obtain rfl := Option.some.inj hy
      exact ⟨hx.lose hqueued, nofun⟩
    · contradiction
    · contradiction
  | reply i =>
    refine h.proceed ht fun x y hy hx ↦ ?_
    split at hy
    · rename_i reply order hmessage _
      obtain rfl := Option.some.inj hy
      exact ⟨hx.answered fun _ ↦ ⟨reply, order, hmessage, rfl⟩, fun k hk ↦ hk⟩
    · contradiction
  | timeout i =>
    refine h.proceed ht fun x y hy hx ↦ ?_
    split at hy
    · obtain rfl := Option.some.inj hy
      have hresponse : x.request.response none = didNotRespond := by
        cases x.request <;> rfl
      rw [hresponse]
      exact ⟨hx.answered fun hstatus : 504 = 200 ↦ absurd hstatus (by decide), fun k hk ↦ hk⟩
    · contradiction
  | fail i =>
    refine h.proceed ht fun x y hy hx ↦ ?_
    split at hy
    · obtain rfl := Option.some.inj hy
      exact ⟨hx.answered fun hstatus : 500 = 200 ↦ absurd hstatus (by decide), fun k hk ↦ hk⟩
    · contradiction
  | host a =>
    obtain ⟨manager, hmanager, rfl⟩ := Option.map_eq_some_iff.1 ht
    obtain ⟨orders, horders⟩ := history_append hmanager
    refine ⟨fun i x hx ↦ ?_, h.distinct⟩
    show Truthful manager.history x
    rw [horders]
    exact (h.truthful i x hx).append orders

/-- In every run, with any failures of Docker and any requests that run out of time. -/
theorem sound_inductive (repr : Json → String) : (system repr).Inductive always Sound where
  init := by
    rintro s ⟨-, htickets⟩
    refine ⟨fun i x hx ↦ ?_, fun i j x y k hx ↦ ?_⟩
    · rw [htickets] at hx
      contradiction
    · rw [htickets] at hx
      contradiction
  step h _ ht := h.step ht

/-- What a container is like after its last order, if this was carried out. -/
theorem holds_of_last {manager : Host.State} (h : Host.Settled manager) {action name : String}
    {k : ℕ} {box : Box} (hk : manager.history[k]? = some ⟨name, .str action, true⟩)
    (hlast : ∀ o ∈ manager.history.drop (k + 1), o.name ≠ name)
    (hbox : manager.host name = some box) : Holds action box := by
  obtain ⟨hlt, hget⟩ := List.getElem?_eq_some_iff.1 hk
  have horders : Host.ordersOf name manager.history =
      Host.ordersOf name (manager.history.take k) ++ [⟨name, .str action, true⟩] := by
    have hnone : (manager.history.drop (k + 1)).filter (fun o ↦ o.name = name) = [] := by
      rw [List.filter_eq_nil_iff]
      intro o ho
      simpa using hlast o ho
    conv_lhs => rw [← List.take_append_drop k manager.history, List.drop_eq_getElem_cons hlt, hget]
    rw [Host.ordersOf, List.filter_append, List.filter_cons_of_pos (by simp), hnone, Host.ordersOf]
  have hpolicy (policy : String)
    (heq : ∀ known, Order.policy known ⟨name, .str action, true⟩ = some policy) :
      box.policy = policy := by
    refine h.policy name box hbox policy ?_
    rw [Host.knownPolicy, horders, List.foldl_append]
    exact heq _
  constructor
  · rintro rfl
    refine h.down name box hbox ?_
    rw [Host.disabled, horders, List.getLast?_append, List.getLast?_singleton]
    rfl
  · rintro rfl
    exact hpolicy "always" fun _ ↦ rfl

/-- **What an answer is worth**, in every run. With status 200, `"ok": true` stands for an order
that was given while the admin waited and was carried out, and `"ok": false` for none. No other
request has given the order; and what it has made of the container stays until the next order. -/
theorem answers_of_orders (hs : (system repr).Reachable always s) {i : ℕ} {x : Ticket}
    (hx : s.tickets[i]? = some x) {action name : String}
    (hq : orderOf x.request = some (action, name)) {r : Response} {n : ℕ}
    (hr : x.answer = some (r, n)) :
    (r.status = 200 → (Host.succeeds r.content = true ↔ ∃ k, x.order = some k ∧ x.sent ≤ k ∧ k < n ∧
      s.manager.history[k]? = some ⟨name, .str action, true⟩)) ∧
    (∀ k j y, x.order = some k → s.tickets[j]? = some y → y.order = some k → i = j) ∧
    (∀ k box, x.order = some k → s.manager.history[k]? = some ⟨name, .str action, true⟩ →
      (∀ o ∈ s.manager.history.drop (k + 1), o.name ≠ name) → s.manager.host name = some box →
        Holds action box) := by
  have hsound := (sound_inductive repr).reachable hs
  have htruthful := hsound.truthful i x hx
  obtain ⟨-, hreply⟩ := htruthful.answer r n hr
  refine ⟨fun hstatus ↦ ?_, fun k j y hxk hy hyk ↦ ?_, fun k box _ hk hlast hbox ↦ ?_⟩
  · obtain ⟨reply, order, hmessage, hresponse, hbefore⟩ := hreply hstatus
    obtain rfl : r = ⟨200, reply⟩ := by
      rw [hresponse]
      cases hrequest : x.request with
      | list =>
        rw [hrequest] at hq
        contradiction
      | enable | disable | restart => rfl
    have horder : x.order = order := by rw [Ticket.order, hmessage]
    constructor
    · intro hok
      have hgiven := htruthful.succeeded reply order hmessage (by rw [hq]; rfl) hok
      obtain ⟨k, rfl⟩ := Option.ne_none_iff_exists'.1 hgiven
      obtain ⟨hsent, -, reply', hmessage', hhistory⟩ := htruthful.order k horder
      obtain ⟨rfl, -⟩ := Message.handled.inj (hmessage.symm.trans hmessage')
      refine ⟨k, horder, hsent, hbefore k rfl, ?_⟩
      rw [hhistory action name hq, Option.any_some, hok]
    · rintro ⟨k, hk, -, -, hget⟩
      obtain ⟨-, -, reply', hmessage', hhistory⟩ := htruthful.order k hk
      obtain ⟨rfl, -⟩ := Message.handled.inj (hmessage.symm.trans hmessage')
      have hsame := Option.some.inj ((hhistory action name hq).symm.trans hget)
      exact congrArg Order.ok hsame
  · exact hsound.distinct i j x y k hx hy hxk hyk
  · exact holds_of_last ((Host.settled_inductive repr).reachable (refines_host.reachable hs)) hk
      hlast hbox

/-- A disable is answered with 504, and then carried out; one of another service is answered in
time. -/
def lateAndInTime : List Action :=
  [.ask (.disable "stt-provider"), .timeout 0, .handle 0 {}, .ask (.disable "identity-manager"),
    .handle 1 {}, .reply 1]

/-- Two requests for one container: the first is given up after its order, the second is answered
with success, and its order is the last. -/
theorem answers_of_orders_inTime : ∃ (s : State) (x y : Ticket) (box : Box),
    (system fun _ ↦ "").Reachable always s ∧
    s.tickets[0]? = some x ∧ x.answer.any (fun a ↦ a.1.status = 504) = true ∧ x.order = some 0 ∧
    s.tickets[1]? = some y ∧ y.answer.any (fun a ↦ a.1.status = 200) = true ∧
    s.manager.history[1]? = some ⟨"identity-manager", .str "disable", true⟩ ∧
    s.manager.host "identity-manager" = some box ∧ Holds "disable" box := by
  obtain ⟨s, hs, hend⟩ := exists_reachable_of_exec (M := system fun _ ↦ "") (G := always)
    ⟨⟨Host.started, Host.started, []⟩, []⟩ lateAndInTime
    (fun s ↦ (s.tickets[0]?.any fun x ↦
      x.answer.any (fun a ↦ a.1.status = 504) && x.order = some 0) &&
      (s.tickets[1]?.any fun y ↦ orderOf y.request = some ("disable", "identity-manager") &&
        (y.answer.any fun a ↦ a.1.status = 200 && Host.succeeds a.1.content) && y.order = some 1) &&
      s.manager.history.length = 2 && (s.manager.host "identity-manager").isSome)
    ⟨⟨rfl, rfl⟩, rfl⟩ (by decide +kernel)
  simp only [Bool.and_eq_true, decide_eq_true_eq, Option.any_eq_true] at hend
  obtain ⟨⟨⟨⟨x, hx, hlate, hgiven⟩, y, hy, ⟨hq, a, ha, hstatus, hok⟩, horder⟩, hlength⟩, hsome⟩ :=
    hend
  obtain ⟨box, hbox⟩ := Option.isSome_iff_exists.1 hsome
  obtain ⟨hcarried, -, hholds⟩ := answers_of_orders hs hy hq (r := a.1) (n := a.2) ha
  obtain ⟨k, hk, -, -, hget⟩ := (hcarried hstatus).1 hok
  obtain rfl : k = 1 := Option.some.inj (hk.symm.trans horder)
  have hlast : ∀ o ∈ s.manager.history.drop (1 + 1), o.name ≠ "identity-manager" := by
    rw [List.drop_eq_nil_of_le hlength.le]
    exact fun _ ho ↦ absurd ho List.not_mem_nil
  refine ⟨s, x, y, box, hs, hx, ?_, hgiven, hy, ?_, hget, hbox, hholds 1 box hk hget hlast hbox⟩
  · rw [Option.any_eq_true]
    simpa using hlate
  · rw [ha]
    simpa using hstatus

end

end LiveSTT.ServiceOrders
