import LiveSTT.Composition.SpeakerNames
import LiveSTT.Identifier.Voiceprints

/-!
# Where the names come from

A name that is given to a transcript has come a long way: a worker of identifier has embedded a
window of audio, and the voiceprint store has found the nearest row of its table; the id of the row
went into an identity event, the event over the stream into a pool of identity-manager, and its
speaker into the transcript.

`named_of_table`: in every run each transcript under `transcript.final` is `"Unknown"` or has the id
of a row of the store that was found for a window within the threshold. So nobody is named while
nobody is enrolled (the last part of it), and nobody ever is: `enroll` of the store has no caller,
and for the commands that api-gateway publishes on `identifier.command` there is no subscriber.

`tables` are the tables that the store holds in the course of a run. The store without LanceDB finds
nothing, as does an empty table.

Of the models nothing is assumed but that the search returns rows of the table with their distances;
which row is nearest is for the search to say.
-/

namespace LiveSTT.VoiceNames

open Identifier (Recognition)
open SpeakerNames
open SttProvider (TranscriptPayload)
open TransitionSystem
open Voiceprints (Row)

/-! ### Embedder and store -/

variable {E V : Type*}

/-- What is outside: the embedding model, and the search of LanceDB. -/
structure Models (E V : Type*) where
  /-- `embed`, which may raise. -/
  embed : Bytes → Except Unit (Option E)
  astype : E → V
  /-- `search(…).metric("cosine").limit(1).to_list()`: rows of the table with their distances, or
  nothing if it raises. -/
  search : List (Row V) → V → Option (List (Row V × ℚ))
  round : ℚ → ℚ
  mem_of_search : ∀ table v rows, search table v = some rows → ∀ x ∈ rows, x.1 ∈ table

/-- `LanceDBVoiceprintStore.identify` -/
def identify (m : Models E V) (table : List (Row V)) (threshold : ℚ) (embedding : E) :
    Option (String × ℚ) :=
  match m.search table (m.astype embedding) with
  | none => none
  | some [] => none
  | some ((row, distance) :: _) =>
    if threshold < distance then none else some (row.id, m.round (1 - distance))

/-- The first half of `_identify_and_publish`. -/
def recognize (m : Models E V) (threshold : ℚ) (table : List (Row V)) (audio : Bytes) :
    Recognition :=
  match m.embed audio with
  | .error () => .raised
  | .ok none => .noEmbedding
  | .ok (some embedding) =>
    match identify m table threshold embedding with
    | none => .noMatch
    | some (speaker, confidence) => .matched speaker confidence

/-- The workers look up in one of the tables. -/
def ofStore (m : Models E V) (threshold : ℚ) (tables : Set (List (Row V))) (_ : State) :
    Action → Prop
  | .identifier (.message _ _ recognition _ _) =>
    ∃ table ∈ tables, recognition = recognize m threshold table
  | _ => True

/-- A row of the store was found for a window of audio, near enough. -/
def Found (m : Models E V) (threshold : ℚ) (tables : Set (List (Row V))) (speaker : String)
    (confidence : ℚ) : Prop :=
  ∃ table ∈ tables, ∃ row ∈ table, row.id = speaker ∧ ∃ audio embedding distance rest,
    m.embed audio = .ok (some embedding) ∧
    m.search table (m.astype embedding) = some ((row, distance) :: rest) ∧
    distance ≤ threshold ∧ confidence = m.round (1 - distance)

section

variable {m : Models E V} {threshold : ℚ} {tables : Set (List (Row V))}
  {fromisoformat : String → Option ℚ} {text : Json → String} {s t : State}

/-! ### The identity events -/

/-- A match is the nearest row of the table, and near enough. -/
theorem found_of_recognize {table : List (Row V)} (htable : table ∈ tables) {audio : Bytes}
    {speaker : String} {confidence : ℚ}
    (h : recognize m threshold table audio = .matched speaker confidence) :
    Found m threshold tables speaker confidence := by
  rw [recognize] at h
  split at h
  · contradiction
  · contradiction
  · rename_i embedding hembed
    split at h
    · contradiction
    · rename_i speaker' confidence' hidentify
      obtain ⟨rfl, rfl⟩ := Recognition.matched.inj h
      rw [identify] at hidentify
      split at hidentify
      · contradiction
      · contradiction
      · rename_i row distance rest hsearch
        obtain ⟨hnear, hfound⟩ := Option.ite_none_left_eq_some.1 hidentify
        obtain ⟨rfl, rfl⟩ := Prod.mk.inj (Option.some.inj hfound)
        have hrow := m.mem_of_search table _ _ hsearch (row, distance) List.mem_cons_self
        exact ⟨table, htable, row, hrow, rfl, audio, embedding, distance, rest, hembed, hsearch,
          not_lt.1 hnear, rfl⟩

/-- The event that a message makes a worker publish is of a recognition. -/
theorem found_of_worker {i : Identifier.State} {source : Lane} {msg : AudioMsg}
    {table : List (Row V)} (htable : table ∈ tables) {timestamp : String} {r : Reply}
    {identity : Lane × Dict}
    (h : identity ∈
      (Identifier.worker i source msg (recognize m threshold table) timestamp r).identities.drop
      i.identities.length) :
    ∃ speaker confidence,
      identity = (source, Identifier.identityPayload speaker confidence timestamp) ∧
      Found m threshold tables speaker confidence := by
  rw [Identifier.worker] at h
  split at h
  · rw [Identifier.identities_setBuffers, List.drop_length] at h
    contradiction
  · rename_i buffers audio _
    rw [Identifier.identifyAndPublish.eq_def] at h
    split at h
    · simp at h
    · simp at h
    · simp at h
    · rename_i speaker confidence hmatched
      split at h
      · simp only [Identifier.identities_setBuffers, List.drop_left, List.mem_singleton] at h
        exact ⟨speaker, confidence, h, found_of_recognize htable hmatched⟩
      · simp at h

/-- The identity events on the stream are of recognitions. -/
def Founded (m : Models E V) (threshold : ℚ) (tables : Set (List (Row V))) (s : State) : Prop :=
  ∀ x ∈ s.stream, x.kind = some "identity" → ∃ lane speaker confidence timestamp,
    x = identityMessage (lane, Identifier.identityPayload speaker confidence timestamp) ∧
      Found m threshold tables speaker confidence

/-- Messages with a finding may be published. -/
theorem Founded.publish (h : Founded m threshold tables s) {ms : List Message}
    (hms : ∀ x ∈ ms, x.kind = some "identity" → ∃ lane speaker confidence timestamp,
      x = identityMessage (lane, Identifier.identityPayload speaker confidence timestamp) ∧
        Found m threshold tables speaker confidence) :
    Founded m threshold tables (s.publish ms) := by
  intro x hx hkind
  rcases List.mem_append.1 hx with hold | hnew
  · exact h x hold hkind
  · exact hms x (List.mem_of_mem_filter hnew) hkind

/-- identity-manager publishes no identity events. -/
theorem Founded.manage (h : Founded m threshold tables s) {a : IdentityManager.Action}
    (ht : manage fromisoformat text s a = some t) : Founded m threshold tables t := by
  obtain ⟨manager, -, rfl⟩ := Option.map_eq_some_iff.1 ht
  have hmanager : Founded m threshold tables { s with manager := manager } := h
  refine hmanager.publish fun x hx hkind ↦ ?_
  obtain ⟨e, -, hmessage⟩ := List.mem_filterMap.1 hx
  cases e with
  | published msg source payload identity | forwarded source payload =>
    obtain rfl := Option.some.inj hmessage
    rw [kind_fusedMessage] at hkind
    exact absurd (Option.some.inj hkind) (by decide)
  | filed | publishFailed | acked | naked | evicted => simp [messageOf] at hmessage

/-- Only identifier publishes identity events, and it looks up in one of the tables. -/
theorem Founded.step {a : Action} (h : Founded m threshold tables s)
    (ha : ofStore m threshold tables s a) (ht : step fromisoformat text s a = some t) :
    Founded m threshold tables t := by
  cases a with
  | transcribe p =>
    obtain rfl := Option.some.inj ht
    refine h.publish fun x hx hkind ↦ ?_
    obtain rfl := List.mem_singleton.1 hx
    rw [Message.kind, tokens_transcriptMessage] at hkind
    have hkind : (if p.isFinal then "raw" else "interim") = "identity" := Option.some.inj hkind
    split at hkind
    · exact absurd hkind (by decide)
    · exact absurd hkind (by decide)
  | identifier a =>
    obtain ⟨i, hi, rfl⟩ := Option.map_eq_some_iff.1 ht
    have hidentifier : Founded m threshold tables { s with identifier := i } := h
    refine hidentifier.publish fun x hx _ ↦ ?_
    obtain ⟨identity, hidentity, rfl⟩ := List.mem_map.1 hx
    cases a with
    | restart =>
      obtain rfl := Option.some.inj hi
      simp at hidentity
    | message source msg recognition timestamp r =>
      obtain ⟨table, htable, rfl⟩ := ha
      obtain ⟨-, hi⟩ := Option.ite_none_left_eq_some.1 hi
      obtain rfl := Option.some.inj hi
      obtain ⟨speaker, confidence, rfl, hfound⟩ := found_of_worker htable hidentity
      exact ⟨source, speaker, confidence, timestamp, rfl, hfound⟩
  | deliver seq now r =>
    obtain ⟨a, -, hmanage⟩ := Option.bind_eq_some_iff.1 ht
    exact h.manage hmanage
  | subscriber r => exact h.manage (a := .subscriber r) ht
  | fusion now r => exact h.manage (a := .fusion now r) ht
  | restart => exact h.manage (a := .restart) ht
  | gateway a active =>
    obtain ⟨l, -, rfl⟩ := Option.map_eq_some_iff.1 ht
    exact h

theorem founded_of_reachable
    (hs : (system fromisoformat text).Reachable (ofStore m threshold tables) s) :
    Founded m threshold tables s := by
  refine Inductive.reachable ⟨?_, fun h ha ht ↦ h.step ha ht⟩ hs
  rintro s rfl
  exact nofun

/-! ### The transcripts -/

/-- **Where the names come from.** In every run a transcript that was given a speaker is one of
stt-provider, by `"Unknown"` or by the id of a row of the store that was found for a window, within
the threshold; by `"Unknown"`, as long as the store is empty. -/
theorem named_of_table (hs : (system fromisoformat text).Reachable (ofStore m threshold tables) s)
    {x : Message} (hx : x ∈ s.stream) (hkind : x.kind = some "final") :
    ∃ p : TranscriptPayload, ∃ speaker, p.isFinal = true ∧ transcriptMessage p ∈ s.stream ∧
      x.payload = p.asdict.set "speaker" (.str speaker) ∧
      (speaker = "Unknown" ∨ ∃ confidence, Found m threshold tables speaker confidence) ∧
      ((∀ table ∈ tables, table = []) → speaker = "Unknown") := by
  have hmade := (kept_of_reachable (hs.mono fun _ _ _ ↦ trivial)).stream x hx
  have hfounded := founded_of_reachable hs
  cases hmade with
  | transcript hfinal =>
    rw [kind_transcriptMessage hfinal] at hkind
    exact absurd (Option.some.inj hkind) (by decide)
  | identity lane speaker confidence timestamp =>
    rw [kind_identityMessage] at hkind
    exact absurd (Option.some.inj hkind) (by decide)
  | @fused p _ speaker _ hfinal hsource hpayload hspeaker =>
    have hname : speaker = "Unknown" ∨ ∃ confidence,
      Found m threshold tables speaker confidence := by
      refine hspeaker.imp_right ?_
      rintro ⟨data, ⟨lane, -, -, -, -, hmem⟩, hdata⟩
      obtain ⟨lane', speaker', confidence, timestamp, heq, hfound⟩ :=
        hfounded _ hmem (kind_identityMessage _)
      have hpayload : data = Identifier.identityPayload speaker' confidence timestamp :=
        congrArg Message.payload heq
      rw [hpayload, get_speaker_identityPayload] at hdata
      obtain rfl := Json.str.inj (Option.some.inj hdata)
      exact ⟨confidence, hfound⟩
    refine ⟨p, speaker, hfinal, hsource, hpayload, hname, fun hempty ↦ hname.resolve_right ?_⟩
    rintro ⟨confidence, table, htable, row, hrow, -⟩
    rw [hempty table htable] at hrow
    exact absurd hrow List.not_mem_nil

end

/-! ### One enrolled voice -/

/-- One row, which is near to everything. -/
def enrolled : List (Row Unit) := [⟨"Pastor Mike", (), "2026-02-01T09:00:00+00:00"⟩]

def models : Models Unit Unit where
  embed _ := .ok (some ())
  astype _ := ()
  search table _ := some ((table.take 1).map fun row ↦ (row, 1 / 10))
  round c := c
  mem_of_search table _ rows h x hx := by
    obtain rfl := Option.some.inj h
    obtain ⟨row, hrow, rfl⟩ := List.mem_map.1 hx
    exact List.mem_of_mem_take hrow

/-- A transcript is published and given its speaker. -/
def fused : List Action :=
  [.transcribe SpeakerLanes.amen, .deliver 0 20 .ok, .deliver 1 20 .ok, .fusion 20 .ok]

/-- No worker takes a step. -/
def elsewhere (_ : State) : Action → Bool
  | .identifier _ => false
  | _ => true

/-- A run with one voice enrolled, in which it speaks and is named. -/
theorem named_of_table_enrolled : ∃ s, (system SpeakerLanes.clock textOf).Reachable
      (ofStore models (1 / 4) {enrolled}) s ∧
    ∃ x ∈ s.stream, x.kind = some "final" ∧ x.payload.get "speaker" = some (.str "Pastor Mike") ∧
      ∃ confidence, Found models (1 / 4) {enrolled} "Pastor Mike" confidence := by
  have hrecognize (audio : Bytes) :
      recognize models (1 / 4) enrolled audio = .matched "Pastor Mike" (9 / 10) := by
    have hidentify : identify models enrolled (1 / 4) () = some ("Pastor Mike", 9 / 10) := by
      decide +kernel
    simp only [recognize, models] at hidentify ⊢
    rw [hidentify]
  have hrecognised :
    (system SpeakerLanes.clock textOf).Reachable (ofStore models (1 / 4) {enrolled})
      recognised :=
    reachable_recognised hrecognize ⟨enrolled, rfl, rfl⟩
  have hexec :
    ((system SpeakerLanes.clock textOf).exec (fun s a ↦ elsewhere s a = true) recognised fused).any
      (fun s ↦ s.stream.any fun x ↦ x.kind = some "final" ∧
        ((x.payload.getOr "speaker" .null).isStr "Pastor Mike") = true) = true := by
    decide +kernel
  obtain ⟨s, hrun, htest⟩ := Run.exists_of_exec hexec
  have hs := hrecognised.run (hrun.mono (H := ofStore models (1 / 4) {enrolled}) fun s a ha ↦ by
    cases a with
    | identifier a => contradiction
    | transcribe | deliver | subscriber | fusion | restart | gateway => trivial)
  obtain ⟨x, hx, hfinal⟩ := List.any_eq_true.1 htest
  obtain ⟨hkind, hmike⟩ := of_decide_eq_true hfinal
  obtain ⟨p, speaker, -, -, hpayload, hname, -⟩ := named_of_table hs hx hkind
  have hspeaker : x.payload.get "speaker" = some (.str speaker) := by
    rw [hpayload, get_speaker_set]
  rw [Dict.getOr, hspeaker, Option.getD_some, Json.isStr_iff] at hmike
  obtain rfl : speaker = "Pastor Mike" := Json.str.inj hmike
  exact ⟨s, hs, x, hx, hkind, hspeaker, hname.resolve_left (by decide)⟩

end LiveSTT.VoiceNames
