import LiveSTT.Composition.SpeakerLanes
import LiveSTT.Gateway.PullLoop
import LiveSTT.IdentityManager.Payloads
import LiveSTT.Messaging.Streams

/-!
# Who reads the names of the speakers

stt-provider, identifier and identity-manager store what they publish on one stream: a final
transcript under `transcript.raw.<source>`, an identity event under `transcript.identity.<lane>`,
and a transcript that was given a speaker under `transcript.final.<source>`. Each reader has a
consumer with a filter; that of api-gateway's pull loop is `transcript.raw.>`.

The messages that name a speaker are exactly those which the filter leaves out (`Made.named_iff`).
So the loop handles transcripts as stt-provider published them, in every run, however they are
redelivered and whatever fails, and each row it stores has the speaker `"Unknown"` (`rows_unnamed`).
That is **not** for want of a match: the same transcript can stand on the stream with its speaker.

The argument `text` is `str` of a JSON value, with which identity-manager forms its subjects.

`Made` says of a message on the stream what it is made of, down to the event that names the speaker,
and is kept because nothing is taken off the stream. The readers are given any of its messages, in
any order and more than once; so `Kept` needs nothing of the consumers but their filters.
-/

namespace LiveSTT.SpeakerNames

open IdentityManager (Event sourceOf speakerOf)
open PullLoop (Deed TranscriptSegment)
open SttProvider (TranscriptPayload)
open Subject (covers tokens)
open TransitionSystem

/-- A message of the stream. -/
structure Message where
  subject : String
  payload : Dict

/-! ### What is published -/

def subjectPrefixTranscriptInterim : String := "transcript.interim"

/-- What `_drain_events` publishes. -/
def transcriptMessage (p : TranscriptPayload) : Message where
  subject := (if p.isFinal then subjectPrefixTranscriptRaw else subjectPrefixTranscriptInterim) ++
    "." ++ p.source.tag
  payload := p.asdict

/-- What `_identify_and_publish` publishes. -/
def identityMessage (identity : Lane × Dict) : Message where
  subject := "transcript.identity." ++ identity.1.tag
  payload := identity.2

/-- What `_publish` of identity-manager publishes. -/
def fusedMessage (text : Json → String) (source : Json) (payload : Dict) : Message where
  subject := "transcript.final." ++ text source
  payload := payload

/-- The message an event of identity-manager stores. -/
def messageOf (text : Json → String) : Event → Option Message
  | .published _ source payload _ => some (fusedMessage text source payload)
  | .forwarded source payload => some (fusedMessage text source payload)
  | .filed _ _ | .publishFailed _ | .acked _ | .naked _ | .evicted _ _ => none

/-! ### The stream and its readers -/

/-- The filter of identity-manager's durable consumer `id_manager_identity`. -/
def identityTopic : String := "transcript.identity.>"

/-- `TRANSCRIPT_TOPIC`: the filter of the durable consumer `api_gateway`, and of
`id_manager_raw`. -/
def transcriptTopic : String := "transcript.raw.>"

structure State where
  identifier : Identifier.State := {}
  manager : IdentityManager.State := {}
  gateway : PullLoop.State := {}
  /-- What is stored, in order. -/
  stream : List Message := []

/-- Messages are published: those are stored whose subject the stream captures. -/
def State.publish (s : State) (ms : List Message) : State :=
  { s with stream := s.stream ++ ms.filter fun m ↦ transcriptionStreamConfig.captures m.subject }

/-- What the consumer of api-gateway is given. -/
def State.raw (s : State) : List (Option Json) :=
  (s.stream.filter fun m ↦ covers transcriptTopic m.subject).map fun m ↦ some (.obj m.payload)

/-- The lane in the subject of an identity event. -/
def laneOf (subject : String) : Lane :=
  if (tokens subject).getLast? = some "backfill" then .backfill else .live

/-- What a message is to identity-manager: each of its subscribers has its filter. -/
def delivery (m : Message) (now : ℚ) (r : Reply) : Option IdentityManager.Action :=
  if covers transcriptTopic m.subject then some (.transcript (some (.obj m.payload)) now r)
  else if covers identityTopic m.subject then
    some (.identity (laneOf m.subject) (some (.obj m.payload)))
  else none

inductive Action
  /-- stt-provider publishes a transcript. -/
  | transcribe (p : TranscriptPayload)
  | identifier (a : Identifier.Action)
  /-- A message of the stream is delivered to identity-manager. -/
  | deliver (seq : ℕ) (now : ℚ) (r : Reply)
  | subscriber (r : Reply)
  | fusion (now : ℚ) (r : Reply)
  /-- identity-manager dies and starts again. -/
  | restart
  /-- The pull loop goes on, with what `_active_session_id` is. -/
  | gateway (a : PullLoop.Action) (active : Option String)

section

variable (fromisoformat : String → Option ℚ) (text : Json → String)

/-- A step of identity-manager, with what it publishes. -/
def manage (s : State) (a : IdentityManager.Action) : Option State :=
  (IdentityManager.step fromisoformat s.manager a).map fun manager ↦
    { s with manager := manager }.publish
      ((manager.log.drop s.manager.log.length).filterMap (messageOf text))

def step (s : State) : Action → Option State
  | .transcribe p => some (s.publish [transcriptMessage p])
  | .identifier a => (Identifier.step s.identifier a).map fun identifier ↦
      { s with identifier := identifier }.publish
        ((identifier.identities.drop s.identifier.identities.length).map identityMessage)
  | .deliver seq now r =>
    (s.stream[seq]?.bind fun m ↦ delivery m now r).bind (manage fromisoformat text s)
  | .subscriber r => manage fromisoformat text s (.subscriber r)
  | .fusion now r => manage fromisoformat text s (.fusion now r)
  | .restart => manage fromisoformat text s .restart
  | .gateway a active => (PullLoop.step s.raw active s.gateway a).map fun gateway ↦
      { s with gateway := gateway }

def system : TransitionSystem State Action where
  init s := s = {}
  step := step fromisoformat text

end

/-! ### The filters tell the messages apart -/

/-- The second token of a subject says what a message is. -/
def Message.kind (m : Message) : Option String := (tokens m.subject)[1]?

/-- A filter with a kind covers the messages of that kind. -/
theorem kind_of_covers {filter kind : String} {m : Message}
    (hfilter : tokens filter = ["transcript", kind] ++ [">"]) (hkind : kind ≠ ">" ∧ kind ≠ "*")
    (hcovers : covers filter m.subject = true) : m.kind = some kind := by
  have hplain : ∀ p ∈ ["transcript", kind], p ≠ ">" ∧ p ≠ "*" := by
    simpa using hkind
  obtain ⟨rest, -, htokens⟩ := (covers_tail m.subject hfilter hplain).1 hcovers
  rw [Message.kind, htokens]
  rfl

theorem tokens_transcriptMessage (p : TranscriptPayload) : tokens (transcriptMessage p).subject =
    ["transcript", if p.isFinal then "raw" else "interim"] ++ tokens p.source.tag := by
  rw [transcriptMessage, Subject.tokens_append]
  cases p.isFinal with
  | true => rfl
  | false => rfl

theorem kind_transcriptMessage {p : TranscriptPayload} (hfinal : p.isFinal = true) :
    (transcriptMessage p).kind = some "raw" := by
  rw [Message.kind, tokens_transcriptMessage, hfinal]
  rfl

theorem kind_identityMessage (identity : Lane × Dict) :
    (identityMessage identity).kind = some "identity" := by
  have htokens : tokens (identityMessage identity).subject =
      ["transcript", "identity"] ++ tokens identity.1.tag :=
    Subject.tokens_append "transcript.identity" identity.1.tag
  rw [Message.kind, htokens]
  rfl

theorem kind_fusedMessage (text : Json → String) (source : Json) (payload : Dict) :
    (fusedMessage text source payload).kind = some "final" := by
  have htokens : tokens (fusedMessage text source payload).subject =
      ["transcript", "final"] ++ tokens (text source) :=
    Subject.tokens_append "transcript.final" (text source)
  rw [Message.kind, htokens]
  rfl

/-- A final transcript is for the readers of `transcript.raw.>`. -/
theorem covers_transcriptMessage {p : TranscriptPayload} (hfinal : p.isFinal = true) :
    covers transcriptTopic (transcriptMessage p).subject = true := by
  have htokens := tokens_transcriptMessage p
  rw [hfinal] at htokens
  exact (covers_tail _ rfl (by decide)).2 ⟨_, Subject.tokens_ne_nil _, htokens⟩

/-- An interim one is not stored. -/
theorem not_captures_interim {p : TranscriptPayload} (hinterim : p.isFinal = false) :
    transcriptionStreamConfig.captures (transcriptMessage p).subject = false := by
  rw [← Bool.not_eq_true, captures_transcription]
  rintro ⟨kind, hkind, rest, -, htokens⟩
  rw [tokens_transcriptMessage, hinterim] at htokens
  obtain rfl : kind = "interim" := (List.cons.inj (List.cons.inj htokens).2).1.symm
  exact absurd hkind (by decide)

/-! ### What is on the stream -/

/-- A final transcript that is on the stream. -/
def Transcribed (stream : List Message) (data : Dict) : Prop :=
  ∃ p : TranscriptPayload, p.isFinal = true ∧ data = p.asdict ∧ transcriptMessage p ∈ stream

/-- An identity event that is on the stream. -/
def Identified (stream : List Message) (data : Dict) : Prop :=
  ∃ lane speaker confidence timestamp,
    data = Identifier.identityPayload speaker confidence timestamp ∧
    identityMessage (lane, data) ∈ stream

/-- What a message is. A transcript that was given a speaker is one of the stream, and so is the
event that names the speaker, if one does. -/
inductive Made (stream : List Message) : Message → Prop
  | transcript {p : TranscriptPayload} (hfinal : p.isFinal = true) :
      Made stream (transcriptMessage p)
  | identity (lane : Lane) (speaker : String) (confidence : ℚ) (timestamp : String) :
    Made stream (identityMessage (lane, Identifier.identityPayload speaker confidence timestamp))
  | fused {p : TranscriptPayload} {m : Message} {speaker : String} (hkind : m.kind = some "final")
      (hfinal : p.isFinal = true) (hsource : transcriptMessage p ∈ stream)
      (hpayload : m.payload = p.asdict.set "speaker" (.str speaker))
      (hspeaker : speaker = "Unknown" ∨ ∃ data, Identified stream data ∧
        data.get "speaker" = some (.str speaker)) : Made stream m

section Made

variable {stream stream' : List Message} {m : Message}

theorem Transcribed.mono {data : Dict} (h : Transcribed stream data) (hsub : stream ⊆ stream') :
    Transcribed stream' data := by
  obtain ⟨p, hfinal, hdata, hmem⟩ := h
  exact ⟨p, hfinal, hdata, hsub hmem⟩

theorem Identified.mono {data : Dict} (h : Identified stream data) (hsub : stream ⊆ stream') :
    Identified stream' data := by
  obtain ⟨lane, speaker, confidence, timestamp, hdata, hmem⟩ := h
  exact ⟨lane, speaker, confidence, timestamp, hdata, hsub hmem⟩

/-- The stream may grow. -/
theorem Made.mono (h : Made stream m) (hsub : stream ⊆ stream') : Made stream' m := by
  cases h with
  | transcript hfinal => exact .transcript hfinal
  | identity lane speaker confidence timestamp => exact .identity lane speaker confidence timestamp
  | fused hkind hfinal hsource hpayload hspeaker =>
    refine .fused hkind hfinal (hsub hsource) hpayload (hspeaker.imp_right ?_)
    rintro ⟨data, hdata, hname⟩
    exact ⟨data, hdata.mono hsub, hname⟩

theorem Made.transcript_of_kind (h : Made stream m) (hkind : m.kind = some "raw") :
    ∃ p : TranscriptPayload, p.isFinal = true ∧ m = transcriptMessage p := by
  cases h with
  | transcript hfinal => exact ⟨_, hfinal, rfl⟩
  | identity => simp [kind_identityMessage] at hkind
  | fused hfused => simp [hfused] at hkind

theorem Made.identity_of_kind (h : Made stream m) (hkind : m.kind = some "identity") :
    ∃ lane speaker confidence timestamp,
      m = identityMessage (lane, Identifier.identityPayload speaker confidence timestamp) := by
  cases h with
  | transcript hfinal => simp [kind_transcriptMessage hfinal] at hkind
  | identity lane speaker confidence timestamp => exact ⟨lane, speaker, confidence, timestamp, rfl⟩
  | fused hfused => simp [hfused] at hkind

theorem get_speaker_asdict (p : TranscriptPayload) : p.asdict.get "speaker" = none := by
  simp [TranscriptPayload.asdict, Dict.get_cons]

theorem get_speaker_identityPayload (speaker : String) (confidence : ℚ) (timestamp : String) :
    (Identifier.identityPayload speaker confidence timestamp).get "speaker" =
      some (.str speaker) := by
  rw [Identifier.identityPayload, Dict.get_cons, if_pos rfl]

/-- A speaker that was set is read. -/
theorem get_speaker_set (data : Dict) (speaker : Json) :
    (data.set "speaker" speaker).get "speaker" = some speaker := by
  have hother : (data.filter fun b ↦ b.1 ≠ "speaker").find? (fun b ↦ b.1 = "speaker") = none := by
    rw [List.find?_eq_none]
    intro b hb
    simpa using (List.mem_filter.1 hb).2
  rw [Dict.get, Dict.set, List.find?_append, hother]
  simp

/-- **The messages with a name are those the filter leaves out.** -/
theorem Made.named_iff (h : Made stream m) :
    covers transcriptTopic m.subject = true ↔ m.payload.get "speaker" = none := by
  constructor
  · intro hcovers
    obtain ⟨p, -, rfl⟩ := h.transcript_of_kind (kind_of_covers rfl (by decide) hcovers)
    exact get_speaker_asdict p
  · intro hnone
    cases h with
    | transcript hfinal => exact covers_transcriptMessage hfinal
    | identity lane speaker confidence timestamp =>
      have hname := get_speaker_identityPayload speaker confidence timestamp
      exact absurd (hname.symm.trans hnone) (Option.some_ne_none _)
    | fused hkind hfinal hsource hpayload hspeaker =>
      rw [hpayload, get_speaker_set] at hnone
      contradiction

/-- What a consumer of `transcript.raw.>` or `transcript.identity.>` is delivered. -/
theorem delivers_of_delivery {now : ℚ} {r : Reply} {a : IdentityManager.Action}
    (h : ∀ m ∈ stream, Made stream m) (hm : m ∈ stream) (ha : delivery m now r = some a) :
    a.Delivers (Transcribed stream) (Identified stream) := by
  rw [delivery] at ha
  split at ha
  · rename_i hcovers
    obtain rfl := Option.some.inj ha
    obtain ⟨p, hfinal, rfl⟩ := (h m hm).transcript_of_kind (kind_of_covers rfl (by decide) hcovers)
    exact ⟨p, hfinal, rfl, hm⟩
  · split at ha
    · rename_i hcovers
      obtain rfl := Option.some.inj ha
      obtain ⟨lane, speaker, confidence, timestamp, rfl⟩ :=
        (h m hm).identity_of_kind (kind_of_covers rfl (by decide) hcovers)
      exact ⟨lane, speaker, confidence, timestamp, rfl, hm⟩
    · contradiction

/-- What identity-manager stores for an event. -/
theorem made_of_messageOf {text : Json → String} {e : Event}
    (h : e.MadeOf (Transcribed stream) (Identified stream)) (hm : messageOf text e = some m) :
    Made stream m := by
  have htruthy (p : TranscriptPayload) (hfinal : p.isFinal = true) :
      (Dict.getOr p.asdict "is_final" .null).truthy = true := by
    simp [TranscriptPayload.asdict, Dict.getOr, Dict.get_cons, Json.truthy, hfinal]
  cases e with
  | published msg source payload identity =>
    obtain rfl := Option.some.inj hm
    obtain ⟨_, ⟨p, hfinal, rfl, hsource⟩, -, -, hpayload, hidentity⟩ := h
    cases identity with
    | none =>
      have hunknown : payload = p.asdict.set "speaker" (.str "Unknown") := hpayload
      exact .fused (kind_fusedMessage _ _ _) hfinal hsource hunknown (Or.inl rfl)
    | some e =>
      obtain ⟨lane, speaker, confidence, timestamp, hdata, hmem⟩ := hidentity e rfl
      have hname : e.data.get "speaker" = some (.str speaker) := by
        rw [hdata, get_speaker_identityPayload]
      have hnamed : payload = p.asdict.set "speaker" (.str speaker) := by
        rw [hpayload, IdentityManager.speakerOf, Dict.getOr, hname, Option.getD_some]
      exact .fused (kind_fusedMessage _ _ _) hfinal hsource hnamed
        (Or.inr ⟨e.data, ⟨lane, speaker, confidence, timestamp, hdata, hmem⟩, hname⟩)
  | forwarded source payload =>
    obtain ⟨_, ⟨p, hfinal, rfl, -⟩, hinterim, -⟩ := h
    exact absurd (htruthy p hfinal) hinterim
  | filed | publishFailed | acked | naked | evicted => simp [messageOf] at hm

end Made

/-! ### What the pull loop has in hand -/

/-- A payload the loop has begun with, and the row it is to store of it. -/
def InHand (raw : List (Option Json)) : PullLoop.Pc → Prop
  | .broadcasting _ data _ => some data ∈ raw
  | .persisting deed segment _ => some deed.data ∈ raw ∧ deed.segment = some segment
  | .fetching | .acking _ _ | .ended => True

/-- All that the loop has done is of messages it was given, whatever is redelivered or fails. -/
structure Sourced (raw : List (Option Json)) (l : PullLoop.State) : Prop where
  deeds : ∀ deed ∈ l.deeds, some deed.data ∈ raw
  rows : ∀ row ∈ l.segments, ∃ deed : Deed, some deed.data ∈ raw ∧ deed.segment = some row.2
  inHand : InHand raw l.pc

section Sourced

variable {raw raw' : List (Option Json)} {active : Option String} {l l' : PullLoop.State}

/-- So may the stream the loop is given. -/
theorem Sourced.mono (h : Sourced raw l) (hsub : raw ⊆ raw') : Sourced raw' l := by
  refine ⟨fun deed hdeed ↦ hsub (h.deeds deed hdeed), fun row hrow ↦ ?_, ?_⟩
  · obtain ⟨deed, hdeed, hsegment⟩ := h.rows row hrow
    exact ⟨deed, hsub hdeed, hsegment⟩
  · have hinHand := h.inHand
    cases hpc : l.pc with
    | broadcasting seq data rest =>
      rw [hpc] at hinHand
      exact hsub hinHand
    | persisting deed segment rest =>
      rw [hpc] at hinHand
      exact ⟨hsub hinHand.1, hinHand.2⟩
    | fetching | acking | ended => trivial

theorem Sourced.of_pc (h : Sourced raw l) {pc : PullLoop.Pc} (hpc : InHand raw pc) :
    Sourced raw { l with pc := pc } :=
  ⟨h.deeds, h.rows, hpc⟩

theorem sourced_ack {seq : ℕ} {rest : List ℕ} (h : Sourced raw l) (r : Reply) :
    Sourced raw (PullLoop.ack l seq rest r) :=
  ⟨h.deeds, h.rows, trivial⟩

/-- The loop takes up the next message it was given, or is done with the batch. -/
theorem sourced_nextMsg (h : Sourced raw l) (msgs : List ℕ) (r : Reply) :
    Sourced raw (PullLoop.nextMsg raw l msgs r) := by
  rw [PullLoop.nextMsg.eq_def]
  split
  · exact h.of_pc trivial
  · split
    · rename_i hdata
      rw [Option.join_eq_some_iff] at hdata
      exact h.of_pc (List.mem_of_getElem? hdata)
    · exact sourced_ack h r

theorem Sourced.deed {deed : Deed} (h : Sourced raw l) (hdeed : some deed.data ∈ raw) :
    Sourced raw { l with deeds := l.deeds ++ [deed] } := by
  refine ⟨fun d hd ↦ ?_, h.rows, h.inHand⟩
  rcases List.mem_append.1 hd with hold | hnew
  · exact h.deeds d hold
  · rwa [List.mem_singleton.1 hnew]

theorem sourced_fileMsg {deed : Deed} (h : Sourced raw l) (hdeed : some deed.data ∈ raw)
    (rest : List ℕ) (r : Reply) : Sourced raw (PullLoop.fileMsg l deed rest r) := by
  rw [PullLoop.fileMsg]
  split
  · rename_i hsegment
    exact h.of_pc ⟨hdeed, hsegment⟩
  · exact sourced_ack (h.deed hdeed) r

/-- The row of the message in hand is stored, or the commit fails. -/
theorem sourced_commit {deed : Deed} {segment : TranscriptSegment} (h : Sourced raw l)
    (hdeed : some deed.data ∈ raw) (hsegment : deed.segment = some segment) (committed : Bool) :
    Sourced raw (PullLoop.commit l deed segment committed) := by
  refine ⟨(h.deed hdeed).deeds, fun row hrow ↦ ?_, h.inHand⟩
  cases committed with
  | false => exact h.rows row hrow
  | true =>
    rcases List.mem_append.1 hrow with hold | hnew
    · exact h.rows row hold
    · rw [List.mem_singleton.1 hnew]
      exact ⟨deed, hdeed, hsegment⟩

/-- A crash leaves what was committed. -/
theorem sourced_cut (h : Sourced raw l) (committed : Bool) {pc : PullLoop.Pc}
    (hpc : InHand raw pc) : Sourced raw (PullLoop.cut l committed pc) := by
  rw [PullLoop.cut.eq_def]
  split
  · rename_i hcut
    have hinHand := h.inHand
    rw [hcut] at hinHand
    exact (sourced_commit h hinHand.1 hinHand.2 true).of_pc hpc
  · exact h.of_pc hpc

/-- **One step of the loop**, with no assumption on it. -/
theorem sourced_step {a : PullLoop.Action} (h : Sourced raw l)
    (hl : PullLoop.step raw active l a = some l') : Sourced raw l' := by
  have hinHand := h.inHand
  cases PullLoop.stepped_of_step hl with
  | @fetched msgs _ _ _ r =>
    have hdelivered : Sourced raw { l with delivered := l.delivered ++ msgs } :=
      ⟨h.deeds, h.rows, h.inHand⟩
    exact sourced_nextMsg hdelivered msgs r
  | unfetched => exact h
  | @broadcast seq data rest hpc _ r =>
    rw [hpc] at hinHand
    have hdata : some (Deed.data ⟨seq, data, active⟩) ∈ raw := hinHand
    exact sourced_fileMsg h hdata rest r
  | committed hpc committed r =>
    rw [hpc] at hinHand
    exact sourced_ack (sourced_commit h hinHand.1 hinHand.2 committed) r
  | unacked => exact h.of_pc trivial
  | acked _ _ r => exact sourced_nextMsg h _ r
  | cancel committed | restart committed => exact sourced_cut h committed trivial

end Sourced

/-! ### Every run -/

structure Kept (s : State) : Prop where
  stream : ∀ m ∈ s.stream, Made s.stream m
  manager : IdentityManager.Made (Transcribed s.stream) (Identified s.stream) s.manager
    s.manager.fusion.held
  gateway : Sourced s.raw s.gateway

section Kept

variable {fromisoformat : String → Option ℚ} {text : Json → String} {s t : State}

/-- The stream grows by messages that are made of what is on it. -/
theorem Kept.publish {ms : List Message} (h : Kept s)
    (hms : ∀ m ∈ ms, transcriptionStreamConfig.captures m.subject = true → Made s.stream m) :
    Kept (s.publish ms) := by
  have hsub : s.stream ⊆ (s.publish ms).stream := List.subset_append_left _ _
  refine ⟨fun m hm ↦ ?_, h.manager.mono (fun _ hdata ↦ hdata.mono hsub) fun _ hdata ↦
    hdata.mono hsub, h.gateway.mono ?_⟩
  · rcases List.mem_append.1 hm with hold | hnew
    · exact (h.stream m hold).mono hsub
    · obtain ⟨hmem, hcaptures⟩ := List.mem_filter.1 hnew
      exact (hms m hmem hcaptures).mono hsub
  · show s.raw ⊆ (s.publish ms).raw
    rw [State.raw, State.raw, State.publish, List.filter_append, List.map_append]
    exact List.subset_append_left _ _

/-- identity-manager publishes what it has made of deliveries, which are messages of the stream. -/
theorem Kept.manage {a : IdentityManager.Action} (h : Kept s)
    (ha : a.Delivers (Transcribed s.stream) (Identified s.stream))
    (ht : manage fromisoformat text s a = some t) : Kept t := by
  obtain ⟨manager, hstep, rfl⟩ := Option.map_eq_some_iff.1 ht
  have hmade := IdentityManager.made_step h.manager ha hstep
  have hkept : Kept { s with manager := manager } := ⟨h.stream, hmade, h.gateway⟩
  refine hkept.publish fun m hm _ ↦ ?_
  obtain ⟨e, he, hmessage⟩ := List.mem_filterMap.1 hm
  exact made_of_messageOf (hmade.log e (List.mem_of_mem_drop he)) hmessage

/-- identifier publishes an event for what it has recognised. -/
theorem Kept.identifier {a : Identifier.Action} {i : Identifier.State} (h : Kept s)
    (hi : Identifier.step s.identifier a = some i) :
    Kept ({ s with identifier := i }.publish
      ((i.identities.drop s.identifier.identities.length).map identityMessage)) := by
  have hkept : Kept { s with identifier := i } := ⟨h.stream, h.manager, h.gateway⟩
  refine hkept.publish fun m hm _ ↦ ?_
  obtain ⟨identity, hidentity, rfl⟩ := List.mem_map.1 hm
  cases a with
  | restart =>
    obtain rfl := Option.some.inj hi
    simp at hidentity
  | message source msg recognize timestamp r =>
    simp only [Identifier.step] at hi
    split at hi
    · contradiction
    · obtain rfl := Option.some.inj hi
      rcases Identifier.identities_worker s.identifier source msg recognize timestamp r with
        heq | ⟨speaker, confidence, heq⟩
      · rw [heq, List.drop_length] at hidentity
        contradiction
      · rw [heq, List.drop_left, List.mem_singleton] at hidentity
        rw [hidentity]
        exact .identity source speaker confidence timestamp

/-- A step of any of the services; deliveries are of messages on the stream, once or more often. -/
theorem Kept.step {a : Action} (h : Kept s) (ht : step fromisoformat text s a = some t) :
    Kept t := by
  cases a with
  | transcribe p =>
    obtain rfl := Option.some.inj ht
    refine h.publish fun m hm hcaptures ↦ ?_
    obtain rfl := List.mem_singleton.1 hm
    cases hfinal : p.isFinal with
    | true => exact .transcript hfinal
    | false =>
      rw [not_captures_interim hfinal] at hcaptures
      contradiction
  | identifier a =>
    obtain ⟨i, hi, rfl⟩ := Option.map_eq_some_iff.1 ht
    exact h.identifier hi
  | deliver seq now r =>
    obtain ⟨a, ha, hmanage⟩ := Option.bind_eq_some_iff.1 ht
    obtain ⟨m, hm, hdelivery⟩ := Option.bind_eq_some_iff.1 ha
    exact h.manage (delivers_of_delivery h.stream (List.mem_of_getElem? hm) hdelivery) hmanage
  | subscriber r => exact h.manage (a := .subscriber r) trivial ht
  | fusion now r => exact h.manage (a := .fusion now r) trivial ht
  | restart =>
    have hmanage : SpeakerNames.manage fromisoformat text s .restart = some t := ht
    exact h.manage (a := .restart) trivial hmanage
  | gateway a active =>
    obtain ⟨l, hl, rfl⟩ := Option.map_eq_some_iff.1 ht
    exact ⟨h.stream, h.manager, sourced_step h.gateway hl⟩

theorem kept_of_reachable (hs : (system fromisoformat text).Reachable always s) : Kept s := by
  refine Inductive.reachable ⟨?_, fun h _ ht ↦ h.step ht⟩ hs
  rintro s rfl
  exact ⟨nofun, IdentityManager.made_init, nofun, nofun, trivial⟩

/-- What the loop is given is a final transcript of stt-provider. -/
theorem Kept.transcript_of_raw (h : Kept s) {data : Json} (hdata : some data ∈ s.raw) :
    ∃ p : TranscriptPayload, p.isFinal = true ∧ transcriptMessage p ∈ s.stream ∧
      data = .obj p.asdict := by
  obtain ⟨m, hm, heq⟩ := List.mem_map.1 hdata
  obtain ⟨hmem, hcovers⟩ := List.mem_filter.1 hm
  obtain ⟨p, hfinal, rfl⟩ :=
    (h.stream m hmem).transcript_of_kind (kind_of_covers rfl (by decide) hcovers)
  exact ⟨p, hfinal, hmem, (Option.some.inj heq).symm⟩

end Kept

/-- The row of a transcript. -/
def rowOf (sessionId : String) (p : TranscriptPayload) : TranscriptSegment where
  sessionId := sessionId
  timestamp := .str p.timestamp
  speaker := .str "Unknown"
  text := .str p.text
  confidence := .num p.confidence
  source := .str p.source.tag

/-- The row the gateway makes of a transcript has the values of its payload. -/
theorem segment_asdict {deed : Deed} {p : TranscriptPayload} {segment : TranscriptSegment}
    (hdata : deed.data = .obj p.asdict) (h : deed.segment = some segment) :
    segment = rowOf segment.sessionId p := by
  rw [Deed.segment, hdata] at h
  split at h
  · rename_i data id hobj hactive
    obtain rfl := Json.obj.inj hobj
    obtain ⟨-, hsegment⟩ := Option.ite_none_right_eq_some.1 h
    obtain rfl := Option.some.inj hsegment
    simp [PullLoop.segmentOf, rowOf, TranscriptPayload.asdict, Dict.getOr, Dict.get_cons]
  · contradiction

/-- **No reader of the names.** In every run the messages of the stream that name a speaker are
those which the filter of api-gateway leaves out; what the pull loop has broadcast are final
transcripts as stt-provider published them; and each stored row is one of these, by `"Unknown"`. -/
theorem rows_unnamed {fromisoformat : String → Option ℚ} {text : Json → String} {s : State}
    (hs : (system fromisoformat text).Reachable always s) :
    (∀ m ∈ s.stream, Made s.stream m ∧
      (covers transcriptTopic m.subject = true ↔ m.payload.get "speaker" = none)) ∧
    (∀ deed ∈ s.gateway.deeds, ∃ p : TranscriptPayload, p.isFinal = true ∧
      transcriptMessage p ∈ s.stream ∧ deed.data = .obj p.asdict) ∧
    ∀ row ∈ s.gateway.segments, ∃ p : TranscriptPayload, p.isFinal = true ∧
      transcriptMessage p ∈ s.stream ∧ row.2 = rowOf row.2.sessionId p := by
  have h := kept_of_reachable hs
  refine ⟨fun m hm ↦ ⟨h.stream m hm, (h.stream m hm).named_iff⟩,
    fun deed hdeed ↦ h.transcript_of_raw (h.gateway.deeds deed hdeed), fun row hrow ↦ ?_⟩
  obtain ⟨deed, hdeed, hsegment⟩ := h.gateway.rows row hrow
  obtain ⟨p, hfinal, hmem, hdata⟩ := h.transcript_of_raw hdeed
  exact ⟨p, hfinal, hmem, segment_asdict hdata hsegment⟩

/-! ### A name on the stream, and none in the row -/

open SpeakerLanes (amen clock window)

/-- `str` of a string is the string. -/
def textOf : Json → String
  | .str s => s
  | _ => ""

/-- A live window was recognised. -/
def recognised : State where
  identifier := (SpeakerLanes.published .live "Pastor Mike").identifier
  stream := [identityMessage
    (.live, Identifier.identityPayload "Pastor Mike" (9 / 10) "2026-03-01T10:00:00+00:00")]

/-- A window is recognised as Pastor Mike's. -/
theorem reachable_recognised {G : State → Action → Prop}
    {recognize : Bytes → Identifier.Recognition}
    (hrecognize : ∀ audio, recognize audio = .matched "Pastor Mike" (9 / 10))
    (hG : G {}
      (.identifier (.message .live (window .live) recognize "2026-03-01T10:00:00+00:00" .ok))) :
    (system clock textOf).Reachable G recognised := by
  have hfull : Identifier.windowSamples ≤ (({} : Identifier.State).buffers .live
      (lastToken (window .live).subject)).sampleCount + (window .live).data.length / 2 := by
    refine le_trans ?_ (Nat.le_add_left _ _)
    rw [window, List.length_replicate]
    omega
  have hstep : Identifier.step {} (.message .live (window .live) recognize
      "2026-03-01T10:00:00+00:00" .ok) = some recognised.identifier := by
    rw [Identifier.step, if_neg Bool.false_ne_true, Identifier.worker_of_full rfl hfull, hrecognize]
    rfl
  refine (Reachable.of_init rfl).step hG ?_
  simp only [system, step, hstep, Option.map_some, Option.some.injEq]
  rfl

/-- A transcript is published, given its speaker, and stored by the gateway. -/
def stored : List Action :=
  [.transcribe amen, .deliver 0 20 .ok, .deliver 1 20 .ok, .fusion 20 .ok,
    .gateway (.fetched [0] .ok) none, .gateway (.resume true .ok) (some "20260301-1000"),
    .gateway (.resume true .ok) none]

/-- The name is on the stream, and in no row. -/
theorem rows_unnamed_stored : ∃ s, (system clock textOf).Reachable always s ∧
    (∃ m ∈ s.stream, m.kind = some "final" ∧
      ((m.payload.getOr "speaker" .null).isStr "Pastor Mike") = true) ∧
    s.gateway.segments ≠ [] ∧
    ∀ row ∈ s.gateway.segments, ∃ p : TranscriptPayload, p.isFinal = true ∧
      transcriptMessage p ∈ s.stream ∧ row.2 = rowOf row.2.sessionId p := by
  obtain ⟨s, hs, htest⟩ :=
    (reachable_recognised (G := always) (fun _ ↦ rfl) trivial).exists_of_exec stored
    (fun s ↦ s.stream.any (fun m ↦ m.kind = some "final" ∧
      ((m.payload.getOr "speaker" .null).isStr "Pastor Mike") = true) &&
        !s.gateway.segments.isEmpty)
    (by decide +kernel)
  rw [Bool.and_eq_true, Bool.not_eq_true', List.isEmpty_eq_false_iff] at htest
  obtain ⟨m, hm, hname⟩ := List.any_eq_true.1 htest.1
  exact ⟨s, hs, ⟨m, hm, of_decide_eq_true hname⟩, htest.2, (rows_unnamed hs).2.2⟩

end LiveSTT.SpeakerNames
