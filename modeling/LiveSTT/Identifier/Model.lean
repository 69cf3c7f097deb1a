import Mathlib.Logic.Function.Basic
import LiveSTT.Lib.Json
import LiveSTT.Lib.TransitionSystem
import LiveSTT.Messaging.Audio
import LiveSTT.Messaging.Broker

/-!
# identifier: from audio windows to identity events

`IdentifierService` runs one worker for each lane. A worker collects the chunks of a session until
they fill a window, embeds the window, looks the embedding up among the enrolled voiceprints, and
publishes a match on `transcript.identity.<lane>`.

A worker's buffers are its own, and the only trace it leaves outside is the published event. So the
handling of one message is one step, placed where its event is published. Embedder and voiceprint
store are a parameter of that step, since the store changes as people enrol.
-/

namespace LiveSTT.Identifier

/-- `_WINDOW_SAMPLES`. -/
def windowSamples : ℕ := 24576

/-! ### Windows -/

/-- `_AudioBuffer`. -/
structure AudioBuffer where
  chunks : List Bytes := []
  sampleCount : ℕ := 0

namespace AudioBuffer

def add (buf : AudioBuffer) (chunk : Bytes) : AudioBuffer where
  chunks := buf.chunks ++ [chunk]
  sampleCount := buf.sampleCount + chunk.length / 2

def ready (buf : AudioBuffer) : Bool :=
  windowSamples ≤ buf.sampleCount

/-- What `consume` returns; the buffer is empty afterwards. -/
def consume (buf : AudioBuffer) : Bytes :=
  buf.chunks.flatten

end AudioBuffer

/-- The buffers of one worker, by session id. A session without an entry has the empty buffer
`setdefault` would give it. -/
abbrev Buffers := String → AudioBuffer

/-- `_worker` with one message: the new buffers, and the window to identify if one is full. -/
def receive (buffers : Buffers) (msg : AudioMsg) : Buffers × Option Bytes :=
  let sessionId := lastToken msg.subject
  if msg.isEos then (Function.update buffers sessionId {}, none)
  else
    let buf := (buffers sessionId).add msg.data
    if buf.ready then (Function.update buffers sessionId {}, some buf.consume)
    else (Function.update buffers sessionId buf, none)

/-! ### Identity events -/

/-- What embedding a window and looking it up comes to. -/
inductive Recognition
  | raised
  | noEmbedding
  | noMatch
  | matched (speaker : String) (confidence : ℚ)

/-- The payload of an identity event. -/
def identityPayload (speaker : String) (confidence : ℚ) (timestamp : String) : Dict :=
  [("speaker", .str speaker), ("confidence", .num confidence), ("timestamp", .str timestamp)]

structure State where
  liveBuffers : Buffers := fun _ ↦ {}
  backfillBuffers : Buffers := fun _ ↦ {}
  /-- A worker raised, which ends the task group. -/
  failed : Bool := false
  /-- The events stored on `transcript.identity.<lane>`, in order. -/
  identities : List (Lane × Dict) := []

def State.buffers (s : State) : Lane → Buffers
  | .live => s.liveBuffers
  | .backfill => s.backfillBuffers

def State.setBuffers (s : State) (buffers : Buffers) : Lane → State
  | .live => { s with liveBuffers := buffers }
  | .backfill => { s with backfillBuffers := buffers }

/-- `_identify_and_publish`. -/
def identifyAndPublish (s : State) (recognition : Recognition) (source : Lane) (timestamp : String)
    (r : Reply) : State :=
  match recognition with
  | .raised => { s with failed := true }
  | .noEmbedding => s
  | .noMatch => s
  | .matched speaker confidence =>
    if r.applied then
      { s with identities :=
        s.identities ++ [(source, identityPayload speaker confidence timestamp)] }
    else s

/-- One message of the worker's lane, up to its ack. -/
def worker (s : State) (source : Lane) (msg : AudioMsg) (recognize : Bytes → Recognition)
    (timestamp : String) (r : Reply) : State :=
  match receive (s.buffers source) msg with
  | (buffers, none) => s.setBuffers buffers source
  | (buffers, some audio) =>
    identifyAndPublish (s.setBuffers buffers source) (recognize audio) source timestamp r

inductive Action
  /-- The worker of a lane handles a fetched message. -/
  | message (source : Lane) (msg : AudioMsg) (recognize : Bytes → Recognition) (timestamp : String)
    (r : Reply)
  /-- The process dies and starts again. -/
  | restart

def step (s : State) : Action → Option State
  | .message source msg recognize timestamp r =>
    if s.failed then none else some (worker s source msg recognize timestamp r)
  | .restart => some { identities := s.identities }

/-- identifier, started with empty buffers. -/
def system : TransitionSystem State Action where
  init s := s = {}
  step := step

/-! ### What is published -/

@[simp] theorem identities_setBuffers (s : State) (buffers : Buffers) (source : Lane) :
    (s.setBuffers buffers source).identities = s.identities := by
  cases source <;> rfl

/-- A message publishes at most one event: on the lane of its worker, with a speaker, a confidence
and a timestamp. -/
theorem identities_worker (s : State) (source : Lane) (msg : AudioMsg)
    (recognize : Bytes → Recognition) (timestamp : String) (r : Reply) :
    (worker s source msg recognize timestamp r).identities = s.identities ∨
      ∃ speaker confidence, (worker s source msg recognize timestamp r).identities =
        s.identities ++ [(source, identityPayload speaker confidence timestamp)] := by
  rw [worker]
  split
  · exact Or.inl (identities_setBuffers _ _ _)
  · rw [identifyAndPublish.eq_def]
    split
    · exact Or.inl (identities_setBuffers _ _ _)
    · exact Or.inl (identities_setBuffers _ _ _)
    · exact Or.inl (identities_setBuffers _ _ _)
    · rename_i speaker confidence hmatched
      split
      · exact Or.inr ⟨speaker, confidence, by simp⟩
      · exact Or.inl (identities_setBuffers _ _ _)

/-- A chunk that fills the window is embedded with what was buffered before it. -/
theorem receive_of_full {buffers : Buffers} {msg : AudioMsg} (heos : msg.isEos = false)
    (hfull : windowSamples ≤ (buffers (lastToken msg.subject)).sampleCount + msg.data.length / 2) :
    receive buffers msg = (Function.update buffers (lastToken msg.subject) {},
      some ((buffers (lastToken msg.subject)).add msg.data).consume) := by
  have hready : ((buffers (lastToken msg.subject)).add msg.data).ready = true :=
    decide_eq_true hfull
  simp only [receive, heos, hready, if_true]
  rfl

/-- The worker identifies the window a chunk fills. -/
theorem worker_of_full {s : State} {source : Lane} {msg : AudioMsg}
    {recognize : Bytes → Recognition} {timestamp : String} {r : Reply} (heos : msg.isEos = false)
    (hfull : windowSamples ≤
      (s.buffers source (lastToken msg.subject)).sampleCount + msg.data.length / 2) :
    worker s source msg recognize timestamp r = identifyAndPublish
      (s.setBuffers (Function.update (s.buffers source) (lastToken msg.subject) {}) source)
      (recognize ((s.buffers source (lastToken msg.subject)).add msg.data).consume)
      source timestamp r := by
  rw [worker, receive_of_full heos hfull]

end LiveSTT.Identifier
