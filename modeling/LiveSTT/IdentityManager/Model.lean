import Mathlib.Data.Rat.Defs
import Mathlib.Algebra.Order.Ring.Rat
import LiveSTT.Lib.Deque
import LiveSTT.Lib.Json
import LiveSTT.Lib.TransitionSystem
import LiveSTT.Messaging.Broker

/-!
# identity-manager: the Time Zipper

`IdentityManager` fuses final transcripts with identity events. Its three coroutines share the
pending list and the two identity pools, and interleave at their awaits:

* `_transcript_subscriber` appends final transcripts to `_pending`, evicting the oldest beyond
  `MAX_BUFFER`, and forwards interim ones;
* `_identity_subscriber` files identity events in the pool of their lane;
* `_fusion_loop` takes the pending list, publishes what has a speaker or has waited long enough, and
  puts the rest back in front of what arrived meanwhile.

One step of the model runs a coroutine from the await it is suspended at to its next one, so nothing
else happens in between. The log records what the service did to the outside world. The argument
`fromisoformat` is `datetime.fromisoformat(s).timestamp()`: the POSIX time of an ISO 8601 string,
`none` where parsing raises.

Publishes, acks and naks may fail, or be carried out and lose their answer, and a restart may come
at any await. `Stepped` names the cases of a step, and the results about order, conservation and
capacity are proved by it. The clock is read where the source reads it, and nothing is assumed of it
here.
-/

namespace LiveSTT.IdentityManager

/-- `PUBLISH_TIMEOUT_S`. -/
def publishTimeoutS : ℚ := 3

/-- `MATCH_WINDOW_S`. -/
def matchWindowS : ℚ := 2

/-- `MAX_BUFFER`. -/
def maxBuffer : ℕ := 500

/-! ### The data -/

/-- `_Pending`: a final transcript waiting for its speaker. `msg` identifies the delivery, which is
what gets acked. -/
structure Pending where
  data : Dict
  receivedAt : ℚ
  msg : ℕ

/-- An identity event as it was delivered. The service keeps and reads only `data`; `lane` is the
last token of the subject `transcript.identity.<lane>` the event was published on, and no code below
reads it. -/
structure IdentityEvent where
  lane : Lane
  data : Dict

/-- What the service does to the outside world. -/
inductive Event
  /-- An identity event was appended to a pool. -/
  | filed (event : IdentityEvent) (pool : Lane)
  /-- The fused payload of the delivery `msg` was stored on `transcript.final.<source>`. The last
  field is the identity event its speaker was taken from. -/
  | published (msg : ℕ) (source : Json) (payload : Dict) (identity : Option IdentityEvent)
  /-- The publish of the delivery `msg` raised. -/
  | publishFailed (msg : ℕ)
  /-- An interim transcript was stored on `transcript.final.<source>`. -/
  | forwarded (source : Json) (payload : Dict)
  | acked (msg : ℕ)
  | naked (msg : ℕ)
  /-- The delivery `msg` was popped from a pending list of `len` transcripts. -/
  | evicted (msg : ℕ) (len : ℕ)

/-- Where `_fusion_loop` is suspended. -/
inductive FusionPc
  /-- At `asyncio.sleep(0.1)`, or not started. -/
  | sleeping
  /-- At the publish of `item`; `rest` is the unprocessed part of the batch. -/
  | publishing (now : ℚ) (item : Pending) (rest stillPending : List Pending) (raised : Bool)
  /-- At `pending.msg.ack()`. -/
  | acking (now : ℚ) (item : Pending) (rest stillPending : List Pending) (raised : Bool)
  /-- At `pending.msg.nak()`. -/
  | naking (now : ℚ) (rest stillPending : List Pending) (raised : Bool)
  /-- An exception left the loop. -/
  | failed

/-- Where `_transcript_subscriber` is suspended. -/
inductive SubscriberPc
  /-- At `sub.fetch(1, timeout=1)`. -/
  | fetching
  /-- At the ack of an evicted delivery. -/
  | evicting
  /-- At the publish of the interim transcript of delivery `msg`. -/
  | forwarding (msg : ℕ) (raised : Bool)
  /-- At the ack of an interim transcript. -/
  | acking

/-- How a delivered final transcript left the buffers. -/
inductive Outcome
  | published
  | failed
  | evicted
  deriving DecidableEq, Repr

structure State where
  pending : List Pending := []
  liveIdentities : List IdentityEvent := []
  backfillIdentities : List IdentityEvent := []
  fusion : FusionPc := .sleeping
  subscriber : SubscriberPc := .fetching
  /-- The number of transcript deliveries so far; a delivery is named by its number. -/
  deliveries : ℕ := 0
  /-- The final transcripts delivered so far. -/
  finals : List (ℕ × Dict) := []
  /-- The final transcripts that left the buffers, and how. -/
  resolved : List (ℕ × Outcome) := []
  log : List Event := []

/-! ### Matching -/

/-- `_parse_ts`. A missing, empty or non-string timestamp does not parse. -/
def parseTs (fromisoformat : String → Option ℚ) : Option Json → Option ℚ
  | some (.str s) => if s = "" then none else fromisoformat s
  | _ => none

/-- The loop of `_find_identity`: the first event at the smallest distance below `bestDiff`. -/
def closest (fromisoformat : String → Option ℚ) (ts : ℚ) :
    List IdentityEvent → Option IdentityEvent → ℚ → Option IdentityEvent
  | [], best, _ => best
  | identity :: pool, best, bestDiff =>
    match parseTs fromisoformat (identity.data.get "timestamp") with
    | none => closest fromisoformat ts pool best bestDiff
    | some idTs =>
      let diff := |idTs - ts|
      if diff < bestDiff then closest fromisoformat ts pool (some identity) diff
      else closest fromisoformat ts pool best bestDiff

/-- `source == "backfill"` picks the backfill pool, everything else the live one. -/
def poolOf (source : Json) : Lane :=
  if source.isStr "backfill" then .backfill else .live

def State.pool (s : State) : Lane → List IdentityEvent
  | .live => s.liveIdentities
  | .backfill => s.backfillIdentities

/-- `_find_identity`. -/
def findIdentity (fromisoformat : String → Option ℚ) (s : State) (transcriptTs : Option Json)
    (source : Json) : Option IdentityEvent :=
  match parseTs fromisoformat transcriptTs with
  | none => none
  | some ts => closest fromisoformat ts (s.pool (poolOf source)) none matchWindowS

/-! ### The fusion loop -/

/-- The source of a transcript: `data.get("source", "live")`. -/
def sourceOf (data : Dict) : Json :=
  data.getOr "source" (.str "live")

/-- The speaker a fused payload names. -/
def speakerOf : Option IdentityEvent → Json
  | some identity => identity.data.getOr "speaker" (.str "Unknown")
  | none => .str "Unknown"

/-- The first part of the loop's body: `some identity` when the transcript is to be published now,
`none` when it stays pending. -/
def verdict (fromisoformat : String → Option ℚ) (s : State) (now : ℚ) (p : Pending) :
    Option (Option IdentityEvent) :=
  let identity := findIdentity fromisoformat s (p.data.get "timestamp") (sourceOf p.data)
  if identity.isSome ∨ publishTimeoutS ≤ now - p.receivedAt then some identity else none

/-- Where the loop over the batch gets to without an await: the next transcript to publish, or the
end of the batch. -/
inductive Scan
  | done (stillPending : List Pending)
  | publish (item : Pending) (identity : Option IdentityEvent) (rest stillPending : List Pending)

/-- The loop over the batch, up to the next publish. -/
def scan (fromisoformat : String → Option ℚ) (s : State) (now : ℚ) :
    List Pending → List Pending → Scan
  | [], stillPending => .done stillPending
  | p :: rest, stillPending =>
    match verdict fromisoformat s now p with
    | some identity => .publish p identity rest stillPending
    | none => scan fromisoformat s now rest (stillPending ++ [p])

/-- At the end of the batch everything the loop held is still pending, in its order. -/
theorem scan_done {fromisoformat : String → Option ℚ} {s : State} {now : ℚ} :
    ∀ {rest still out : List Pending}, scan fromisoformat s now rest still = .done out →
      out = still ++ rest
  | [], still, out, h => by
    rw [scan, Scan.done.injEq] at h
    rw [← h, List.append_nil]
  | p :: rest, still, out, h => by
    rw [scan] at h
    split at h
    · nomatch h
    · rw [scan_done h, List.append_assoc, List.singleton_append]

/-- Before the next transcript to publish, the loop only moved transcripts to `still_pending`. -/
theorem scan_publish {fromisoformat : String → Option ℚ} {s : State} {now : ℚ} {item : Pending}
    {identity : Option IdentityEvent} {rest' still' : List Pending} :
    ∀ {rest still : List Pending},
      scan fromisoformat s now rest still = .publish item identity rest' still' →
      ∃ skipped, rest = skipped ++ item :: rest' ∧ still' = still ++ skipped ∧
        verdict fromisoformat s now item = some identity
  | [], still, h => by
    nomatch h
  | p :: rest, still, h => by
    rw [scan] at h
    split at h
    · rename_i identity' hverdict
      rw [Scan.publish.injEq] at h
      obtain ⟨rfl, rfl, rfl, rfl⟩ := h
      exact ⟨[], rfl, by simp, hverdict⟩
    · obtain ⟨skipped, hrest, hstill, hverdict⟩ := scan_publish h
      refine ⟨p :: skipped, ?_, ?_, hverdict⟩
      · rw [hrest, List.cons_append]
      · rw [hstill, List.append_assoc, List.singleton_append]

def State.logs (s : State) (es : List Event) : State := { s with log := s.log ++ es }

def State.resolve (s : State) (msg : ℕ) (o : Outcome) : State :=
  { s with resolved := s.resolved ++ [(msg, o)] }

/-- `_publish(js, data, speaker)` for the transcript of a delivery: the fused payload goes to
`transcript.final.<source>`. -/
def publish (s : State) (p : Pending) (identity : Option IdentityEvent) (r : Reply) : State :=
  s.logs (if r.applied then
    [.published p.msg (sourceOf p.data) (p.data.set "speaker" (speakerOf identity)) identity]
  else [])

/-- Continue with the batch: issue the next publish, or put what is still pending back in front of
what arrived meanwhile and go to sleep. -/
def nextItem (fromisoformat : String → Option ℚ) (s : State) (now : ℚ)
    (rest stillPending : List Pending) (r : Reply) : State :=
  match scan fromisoformat s now rest stillPending with
  | .done still => { s with pending := still ++ s.pending, fusion := .sleeping }
  | .publish item identity rest still =>
    { publish s item identity r with fusion := .publishing now item rest still r.raised }

/-- The `except` branch: nak the message. -/
def nak (s : State) (now : ℚ) (item : Pending) (rest stillPending : List Pending) (r : Reply) :
    State :=
  { ((s.logs (.publishFailed item.msg :: if r.applied then [.naked item.msg] else [])).resolve
      item.msg .failed) with fusion := .naking now rest stillPending r.raised }

/-- The end of the `try` body: ack the message. -/
def ack (s : State) (now : ℚ) (item : Pending) (rest stillPending : List Pending) (r : Reply) :
    State :=
  { ((s.logs (if r.applied then [.acked item.msg] else [])).resolve item.msg .published) with
    fusion := .acking now item rest stillPending r.raised }

/-- A cycle starts: the pending list becomes the batch. -/
def wake (fromisoformat : String → Option ℚ) (s : State) (now : ℚ) (r : Reply) : State :=
  nextItem fromisoformat { s with pending := [] } now s.pending [] r

/-- `_fusion_loop` from one await to the next; `r` is the answer to the call it issues. -/
def fusionStep (fromisoformat : String → Option ℚ) (s : State) (now : ℚ) (r : Reply) :
    Option State :=
  match s.fusion with
  | .sleeping => some (wake fromisoformat s now r)
  | .publishing now item rest still false => some (ack s now item rest still r)
  | .publishing now item rest still true => some (nak s now item rest still r)
  | .acking now _ rest still false => some (nextItem fromisoformat s now rest still r)
  | .acking now item rest still true => some (nak s now item rest still r)
  | .naking now rest still false => some (nextItem fromisoformat s now rest still r)
  | .naking _ _ _ true => some { s with fusion := .failed }
  | .failed => none

/-! ### The subscribers -/

/-- `evicted = self._pending.pop(0)`, and its ack. -/
def evictOldest (s : State) (r : Reply) : State :=
  match s.pending with
  | [] => s
  | oldest :: rest =>
    { ((s.logs (.evicted oldest.msg s.pending.length ::
        if r.applied then [.acked oldest.msg] else [])).resolve oldest.msg .evicted) with
      pending := rest, subscriber := .evicting }

/-- A final transcript is appended to the pending list. -/
def enqueue (s : State) (data : Dict) (now : ℚ) : State :=
  { s with
    pending := s.pending ++ [⟨data, now, s.deliveries⟩]
    deliveries := s.deliveries + 1
    finals := s.finals ++ [(s.deliveries, data)] }

/-- A final transcript: append it, and evict the oldest when the list has become too long. -/
def receiveFinal (s : State) (data : Dict) (now : ℚ) (r : Reply) : State :=
  let s := enqueue s data now
  if maxBuffer < s.pending.length then evictOldest s r else s

/-- An interim transcript: forward it with no speaker. -/
def receiveInterim (s : State) (data : Dict) (r : Reply) : State :=
  { s.logs (if r.applied then [.forwarded (sourceOf data) (data.set "speaker" .null)] else []) with
    deliveries := s.deliveries + 1, subscriber := .forwarding s.deliveries r.raised }

/-- `_transcript_subscriber` with one fetched message. A payload that is not a JSON object raises
inside the `try`: it is logged and left unacked. -/
def transcriptStep (s : State) (payload : Option Json) (now : ℚ) (r : Reply) : Option State :=
  match s.subscriber, payload with
  | .fetching, some (.obj data) =>
    if (Dict.getOr data "is_final" .null).truthy then some (receiveFinal s data now r)
    else some (receiveInterim s data r)
  | .fetching, _ => some { s with deliveries := s.deliveries + 1 }
  | _, _ => none

/-- `_transcript_subscriber` resumed after a publish or an ack. An exception ends the handling of
the message, nothing more. -/
def subscriberStep (s : State) (r : Reply) : Option State :=
  match s.subscriber with
  | .fetching => none
  | .evicting => some { s with subscriber := .fetching }
  | .forwarding msg false =>
    some { s.logs (if r.applied then [.acked msg] else []) with subscriber := .acking }
  | .forwarding _ true => some { s with subscriber := .fetching }
  | .acking => some { s with subscriber := .fetching }

/-- An identity event is appended to a pool. -/
def State.file (s : State) (event : IdentityEvent) : Lane → State
  | .live => { s with liveIdentities := boundedAppend maxBuffer s.liveIdentities event }
  | .backfill => { s with backfillIdentities := boundedAppend maxBuffer s.backfillIdentities event }

section

variable (s : State) (event : IdentityEvent) (pool : Lane)

@[simp] theorem State.pending_file : (s.file event pool).pending = s.pending := by
  cases pool <;> simp only [State.file]

@[simp] theorem State.fusion_file : (s.file event pool).fusion = s.fusion := by
  cases pool <;> simp only [State.file]

@[simp] theorem State.subscriber_file : (s.file event pool).subscriber = s.subscriber := by
  cases pool <;> simp only [State.file]

@[simp] theorem State.deliveries_file : (s.file event pool).deliveries = s.deliveries := by
  cases pool <;> simp only [State.file]

@[simp] theorem State.finals_file : (s.file event pool).finals = s.finals := by
  cases pool <;> simp only [State.file]

@[simp] theorem State.resolved_file : (s.file event pool).resolved = s.resolved := by
  cases pool <;> simp only [State.file]

@[simp] theorem State.log_file : (s.file event pool).log = s.log := by
  cases pool <;> simp only [State.file]

end

/-- `_identity_subscriber` with one fetched message on `transcript.identity.<lane>`. The pool is
chosen by the `source` field of the payload, which defaults to `"live"`. -/
def identityStep (s : State) (lane : Lane) (payload : Option Json) : State :=
  match payload with
  | some (.obj data) =>
    (s.logs [.filed ⟨lane, data⟩ (poolOf (sourceOf data))]).file ⟨lane,
      data⟩ (poolOf (sourceOf data))
  | _ => s

/-! ### The subscribers leave the fusion loop where it is -/

@[simp] theorem fusion_receiveFinal (s : State) (data : Dict) (now : ℚ) (r : Reply) :
    (receiveFinal s data now r).fusion = s.fusion := by
  simp only [receiveFinal]
  split
  · rw [evictOldest.eq_def]
    split <;> rfl
  · rfl

theorem fusion_identityStep (s : State) (lane : Lane) (payload : Option Json) :
    (identityStep s lane payload).fusion = s.fusion := by
  rw [identityStep.eq_def]
  split
  · rw [State.fusion_file]
    rfl
  · rfl

/-! ### The system -/

inductive Action
  /-- A fetch of the transcript subscriber returned a message. -/
  | transcript (payload : Option Json) (now : ℚ) (r : Reply)
  /-- The transcript subscriber continues after an await. -/
  | subscriber (r : Reply)
  /-- A fetch of the identity subscriber returned a message published on the lane's subject. -/
  | identity (lane : Lane) (payload : Option Json)
  /-- The fusion loop continues after an await. -/
  | fusion (now : ℚ) (r : Reply)
  /-- The process dies and starts again: what was in memory is gone. -/
  | restart

/-- An exception that leaves the fusion loop ends the task group: only a restart is possible. -/
def State.running (s : State) : Bool :=
  match s.fusion with
  | .failed => false
  | _ => true

def step (fromisoformat : String → Option ℚ) (s : State) : Action → Option State
  | .transcript payload now r => if s.running then transcriptStep s payload now r else none
  | .subscriber r => if s.running then subscriberStep s r else none
  | .identity lane payload => if s.running then some (identityStep s lane payload) else none
  | .fusion now r => fusionStep fromisoformat s now r
  | .restart => some { s with
      pending := [], liveIdentities := [], backfillIdentities := [],
      fusion := .sleeping, subscriber := .fetching }

/-- identity-manager, started with empty buffers. -/
def system (fromisoformat : String → Option ℚ) : TransitionSystem State Action where
  init s := s = {}
  step := step fromisoformat

/-! ### What a step can do -/

/-- The inversion of `step`: where each step finds the service, and what it does. -/
inductive Stepped (fromisoformat : String → Option ℚ) (s : State) : Action → State → Prop
  | final {data : Dict} (hrun : s.running = true) (hsub : s.subscriber = .fetching)
      (hfinal : (Dict.getOr data "is_final" .null).truthy = true) (now : ℚ) (r : Reply) :
    Stepped fromisoformat s (.transcript (some (.obj data)) now r) (receiveFinal s data now r)
  | interim {data : Dict} (hrun : s.running = true) (hsub : s.subscriber = .fetching)
      (hinterim : ¬ (Dict.getOr data "is_final" .null).truthy = true) (now : ℚ) (r : Reply) :
    Stepped fromisoformat s (.transcript (some (.obj data)) now r) (receiveInterim s data r)
  | unreadable {payload : Option Json} (hrun : s.running = true) (hsub : s.subscriber = .fetching)
      (hpayload : ∀ data, payload ≠ some (.obj data)) (now : ℚ) (r : Reply) :
    Stepped fromisoformat s (.transcript payload now r) { s with deliveries := s.deliveries + 1 }
  | evicted (hrun : s.running = true) (hsub : s.subscriber = .evicting) (r : Reply) :
    Stepped fromisoformat s (.subscriber r) { s with subscriber := .fetching }
  | forwarded {msg : ℕ} (hrun : s.running = true) (hsub : s.subscriber = .forwarding msg false)
      (r : Reply) : Stepped fromisoformat s (.subscriber r)
        { s.logs (if r.applied then [.acked msg] else []) with subscriber := .acking }
  | unforwarded {msg : ℕ} (hrun : s.running = true) (hsub : s.subscriber = .forwarding msg true)
      (r : Reply) : Stepped fromisoformat s (.subscriber r) { s with subscriber := .fetching }
  | interimAcked (hrun : s.running = true) (hsub : s.subscriber = .acking) (r : Reply) :
    Stepped fromisoformat s (.subscriber r) { s with subscriber := .fetching }
  | identity (hrun : s.running = true) (lane : Lane) (payload : Option Json) :
    Stepped fromisoformat s (.identity lane payload) (identityStep s lane payload)
  | wake (hpc : s.fusion = .sleeping) (now : ℚ) (r : Reply) :
    Stepped fromisoformat s (.fusion now r) (wake fromisoformat s now r)
  | published {woken : ℚ} {item : Pending} {rest still : List Pending}
      (hpc : s.fusion = .publishing woken item rest still false) (now : ℚ) (r : Reply) :
    Stepped fromisoformat s (.fusion now r) (ack s woken item rest still r)
  | unpublished {woken : ℚ} {item : Pending} {rest still : List Pending}
      (hpc : s.fusion = .publishing woken item rest still true) (now : ℚ) (r : Reply) :
    Stepped fromisoformat s (.fusion now r) (nak s woken item rest still r)
  | acked {woken : ℚ} {item : Pending} {rest still : List Pending}
      (hpc : s.fusion = .acking woken item rest still false) (now : ℚ) (r : Reply) :
    Stepped fromisoformat s (.fusion now r) (nextItem fromisoformat s woken rest still r)
  | unacked {woken : ℚ} {item : Pending} {rest still : List Pending}
      (hpc : s.fusion = .acking woken item rest still true) (now : ℚ) (r : Reply) :
    Stepped fromisoformat s (.fusion now r) (nak s woken item rest still r)
  | naked {woken : ℚ} {rest still : List Pending} (hpc : s.fusion = .naking woken rest still false)
      (now : ℚ) (r : Reply) :
    Stepped fromisoformat s (.fusion now r) (nextItem fromisoformat s woken rest still r)
  | unnaked {woken : ℚ} {rest still : List Pending} (hpc : s.fusion = .naking woken rest still true)
      (now : ℚ) (r : Reply) : Stepped fromisoformat s (.fusion now r) { s with fusion := .failed }
  | restart : Stepped fromisoformat s .restart { s with
      pending := [], liveIdentities := [], backfillIdentities := [],
      fusion := .sleeping, subscriber := .fetching }

section Stepped

variable {fromisoformat : String → Option ℚ} {s t : State} {now : ℚ} {r : Reply}

/-- What the handler of transcripts does is one of the cases of `Stepped`. -/
theorem stepped_of_transcriptStep {payload : Option Json} (hrun : s.running = true)
    (ht : transcriptStep s payload now r = some t) :
    Stepped fromisoformat s (.transcript payload now r) t := by
  rw [transcriptStep.eq_def] at ht
  split at ht
  · rename_i hsub
    split at ht <;> obtain rfl := Option.some.inj ht
    · exact .final hrun hsub ‹_› now r
    · exact .interim hrun hsub ‹_› now r
  · rename_i hsub hpayload
    obtain rfl := Option.some.inj ht
    exact .unreadable hrun hsub hpayload now r
  · contradiction

/-- So is what it does when its call returns. -/
theorem stepped_of_subscriberStep (hrun : s.running = true) (ht : subscriberStep s r = some t) :
    Stepped fromisoformat s (.subscriber r) t := by
  rw [subscriberStep.eq_def] at ht
  split at ht <;> rename_i hsub
  · contradiction
  · obtain rfl := Option.some.inj ht
    exact .evicted hrun hsub r
  · obtain rfl := Option.some.inj ht
    exact .forwarded hrun hsub r
  · obtain rfl := Option.some.inj ht
    exact .unforwarded hrun hsub r
  · obtain rfl := Option.some.inj ht
    exact .interimAcked hrun hsub r

/-- So is a step of the fusion loop. -/
theorem stepped_of_fusionStep (ht : fusionStep fromisoformat s now r = some t) :
    Stepped fromisoformat s (.fusion now r) t := by
  rw [fusionStep.eq_def] at ht
  split at ht <;> rename_i hpc
  · obtain rfl := Option.some.inj ht
    exact .wake hpc now r
  · obtain rfl := Option.some.inj ht
    exact .published hpc now r
  · obtain rfl := Option.some.inj ht
    exact .unpublished hpc now r
  · obtain rfl := Option.some.inj ht
    exact .acked hpc now r
  · obtain rfl := Option.some.inj ht
    exact .unacked hpc now r
  · obtain rfl := Option.some.inj ht
    exact .naked hpc now r
  · obtain rfl := Option.some.inj ht
    exact .unnaked hpc now r
  · contradiction

/-- And so is every step. -/
theorem stepped_of_step {a : Action} (ht : step fromisoformat s a = some t) :
    Stepped fromisoformat s a t := by
  cases a with
  | transcript payload now r =>
    obtain ⟨hrun, ht⟩ := Option.ite_none_right_eq_some.1 ht
    exact stepped_of_transcriptStep hrun ht
  | subscriber r =>
    obtain ⟨hrun, ht⟩ := Option.ite_none_right_eq_some.1 ht
    exact stepped_of_subscriberStep hrun ht
  | identity lane payload =>
    obtain ⟨hrun, ht⟩ := Option.ite_none_right_eq_some.1 ht
    obtain rfl := Option.some.inj ht
    exact .identity hrun lane payload
  | fusion now r => exact stepped_of_fusionStep ht
  | restart =>
    obtain rfl := Option.some.inj ht
    exact .restart

end Stepped

end LiveSTT.IdentityManager
