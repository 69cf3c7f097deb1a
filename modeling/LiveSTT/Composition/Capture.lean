import LiveSTT.AudioProducer.Opened
import LiveSTT.IdentityManager.Model
import LiveSTT.Messaging.Streams
import LiveSTT.SttProvider.Drain

/-!
# What is published is captured

Six services publish to JetStream, each with subjects that it builds from the shared prefixes, from
a lane and from session ids. Each of these subjects is captured by exactly one of the configured
streams, with one exception: audio-classifier publishes to `classification.live`, and the filter of
its stream, `classification.live.>`, covers only what is below that (`captured_iff`). So no
classification is ever stored (`classification_lost`).

The subjects are those of the models of the services, and not written down again: for a lane, a
session id or a service name the theorem is about what the code builds. A session id has no dot in
it, which is all that is needed of it (`tokens_audio`).
-/

namespace LiveSTT

open Subject

/-! ### Subjects -/

/-- The subject audio-producer publishes it to. -/
def AudioProducer.Stored.subject : AudioProducer.Stored → String
  | .live id _ => subjectPrefixAudioLive ++ "." ++ id.val
  | .liveEos id => subjectPrefixAudioLive ++ "." ++ id.val
  | .backfill id _ _ => subjectPrefixAudioBackfill ++ "." ++ id.val
  | .backfillEos id => subjectPrefixAudioBackfill ++ "." ++ id.val

/-- The `subject` of `_identify_and_publish`. -/
def Identifier.subject (source : Lane) : String := "transcript.identity." ++ source.tag

/-- The `subject` of `_publish`. -/
def IdentityManager.subject (source : String) : String := "transcript.final." ++ source

/-- The `topic` of `_handle_audio`. -/
def AudioClassifier.topic : String := subjectPrefixClassification ++ ".live"

/-- A message that a service publishes to JetStream. -/
inductive Publication
  /-- audio-producer, while idle. -/
  | preroll (chunk : AudioProducer.Captured)
  /-- audio-producer, in a session and in the flush of the pre-roll. -/
  | audio (msg : AudioProducer.Stored) (htoken : IsToken msg.session.val)
  /-- stt-provider; interim transcripts go to core NATS. -/
  | raw (e : SttProvider.Drain.TranscriptionEvent) (hfinal : e.isFinal = true) (tag : Lane)
    (timestamp : String)
  | identity (source : Lane)
  /-- identity-manager, for a transcript of the lane. -/
  | final (data : Dict) (source : Lane) (hsource : IdentityManager.sourceOf data = .str source.tag)
  /-- A start or stop command, of api-gateway or system-manager. -/
  | command
  | classification

def Publication.subject : Publication → String
  | .preroll _ => subjectPrefixPreroll
  | .audio msg _ => msg.subject
  | .raw e _ tag timestamp => (SttProvider.Drain.publication e tag timestamp).subject
  | .identity source => Identifier.subject source
  | .final _ source _ => IdentityManager.subject source.tag
  | .command => "session.control"
  | .classification => AudioClassifier.topic

/-! ### Their tokens -/

/-- A subject of three tokens, the last of them a parameter. -/
theorem tokens_three {a b : String} (ha : '.' ∉ a.toList) (hb : '.' ∉ b.toList) {c : String}
    (hc : '.' ∉ c.toList) {subject : String}
    (hsubject : subject.toList = (a ++ "." ++ b ++ "." ++ c).toList) :
    tokens subject = [a, b, c] := by
  have hjoin : subject = join [a, b, c] := by
    rw [← String.toList_inj, hsubject]
    simp [join]
  rw [hjoin, tokens_join (List.cons_ne_nil _ _)]
  simp [ha, hb, hc]

theorem noDot_tag (lane : Lane) : '.' ∉ lane.tag.toList := by
  cases lane <;> decide

/-- Every message of the audio stream has a subject of three tokens, the last of them its
session. -/
theorem tokens_audio (msg : AudioProducer.Stored) (htoken : IsToken msg.session.val) :
    ∃ lane : Lane, tokens msg.subject = ["audio", lane.tag, msg.session.val] := by
  have hlive : tokens (subjectPrefixAudioLive ++ "." ++ msg.session.val) =
      ["audio", "live", msg.session.val] :=
    tokens_three (by decide) (by decide) htoken.noDot (by simp [subjectPrefixAudioLive])
  have hbackfill : tokens (subjectPrefixAudioBackfill ++ "." ++ msg.session.val) =
      ["audio", "backfill", msg.session.val] :=
    tokens_three (by decide) (by decide) htoken.noDot (by simp [subjectPrefixAudioBackfill])
  cases msg with
  | live => exact ⟨.live, hlive⟩
  | liveEos => exact ⟨.live, hlive⟩
  | backfill => exact ⟨.backfill, hbackfill⟩
  | backfillEos => exact ⟨.backfill, hbackfill⟩

theorem tokens_raw {e : SttProvider.Drain.TranscriptionEvent} (hfinal : e.isFinal = true)
    (tag : Lane) (timestamp : String) :
    tokens (SttProvider.Drain.publication e tag timestamp).subject =
      ["transcript", "raw", tag.tag] :=
  tokens_three (by decide) (by decide) (noDot_tag tag)
    (by simp [SttProvider.Drain.publication, hfinal])

/-- `_identify_and_publish` and `_publish` write the first two tokens as one text. -/
theorem tokens_lane {start b : String} (hstart : start = "transcript" ++ "." ++ b ++ ".")
    (hb : '.' ∉ b.toList) (lane : Lane) :
    tokens (start ++ lane.tag) = ["transcript", b, lane.tag] := by
  subst hstart
  exact tokens_three (by decide) hb (noDot_tag lane) rfl

theorem tokens_identity (source : Lane) :
    tokens (Identifier.subject source) = ["transcript", "identity", source.tag] :=
  tokens_lane (by decide +kernel) (by decide) source

theorem tokens_final (source : Lane) :
    tokens (IdentityManager.subject source.tag) = ["transcript", "final", source.tag] :=
  tokens_lane (by decide +kernel) (by decide) source

/-! ### One stream each -/

/-- A transcript of a lane is captured by the transcription stream. -/
theorem captures_of_tokens {subject kind : String} {lane : Lane}
    (hkind : kind ∈ ["raw", "identity", "final"])
    (htokens : tokens subject = ["transcript", kind, lane.tag]) :
    transcriptionStreamConfig.captures subject = true :=
  (captures_transcription subject).2 ⟨kind, hkind, [lane.tag], List.cons_ne_nil _ _, htokens⟩

/-- What is not a classification is captured. -/
theorem exists_captures {p : Publication} (hp : p ≠ .classification) :
    ∃ config ∈ streams, config.captures p.subject = true := by
  cases p with
  | preroll chunk =>
    exact ⟨prerollStreamConfig, by decide, (captures_preroll subjectPrefixPreroll).2 rfl⟩
  | audio msg htoken =>
    obtain ⟨lane, htokens⟩ := tokens_audio msg htoken
    exact ⟨audioStreamConfig, by decide, (captures_audio msg.subject).2
      ⟨lane, [msg.session.val], List.cons_ne_nil _ _, htokens⟩⟩
  | raw e hfinal tag timestamp =>
    exact ⟨transcriptionStreamConfig, by decide,
      captures_of_tokens (by decide) (tokens_raw hfinal tag timestamp)⟩
  | identity source =>
    exact ⟨transcriptionStreamConfig, by decide,
      captures_of_tokens (by decide) (tokens_identity source)⟩
  | final data source =>
    exact ⟨transcriptionStreamConfig, by decide,
      captures_of_tokens (by decide) (tokens_final source)⟩
  | command => exact ⟨sessionStreamConfig, by decide, (captures_session "session.control").2 rfl⟩
  | classification => contradiction

/-- A classification is published to a subject that no stream captures. -/
theorem capturing_topic : capturing AudioClassifier.topic = [] := by
  decide +kernel

/-- **Every message published to JetStream is captured** by exactly one of the streams, except for
classifications. -/
theorem captured_iff (p : Publication) :
    (capturing p.subject).length = 1 ↔ p ≠ .classification := by
  constructor
  · rintro hone rfl
    rw [Publication.subject, capturing_topic] at hone
    exact Nat.zero_ne_one hone
  · intro hp
    obtain ⟨config, hconfig, hcaptures⟩ := exists_captures hp
    rw [capturing_eq hconfig hcaptures]
    rfl

/-- A classification is not captured. -/
theorem classification_lost : ¬ (capturing (Publication.subject .classification)).length = 1 := by
  rw [Publication.subject, capturing_topic]
  exact Nat.zero_ne_one

end LiveSTT
