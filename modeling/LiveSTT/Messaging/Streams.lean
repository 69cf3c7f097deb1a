import Mathlib.Data.List.Nodup
import LiveSTT.Lib.Subjects
import LiveSTT.Messaging.Broker

/-!
# The streams

The shared constants for subjects, and the five streams with the subjects each of them captures. A
message published to a subject that no stream captures is not stored, and the publish raises.

Each stream is characterised by the tokens of the subjects it captures. The first two tokens tell
the streams apart.

Subjects are lists of tokens, and a filter covers one by the rules of the broker, with the wildcards
`*` and `>`. `first_of_captures` is the form in which this is used: the first token of a subject
tells which stream can have it.
-/

namespace LiveSTT

open Subject

/-! ### Subject constants -/

def subjectPrefixPreroll : String := "preroll.audio"

def subjectPrefixAudioLive : String := "audio.live"

def subjectPrefixAudioBackfill : String := "audio.backfill"

def subjectPrefixTranscriptRaw : String := "transcript.raw"

def subjectTranscriptRaw : String := subjectPrefixTranscriptRaw ++ ".>"

def subjectTranscriptFinal : String := "transcript.final.>"

def subjectAudioLive : String := subjectPrefixAudioLive ++ ".>"

def subjectAudioBackfill : String := subjectPrefixAudioBackfill ++ ".>"

def subjectPrefixClassification : String := "classification"

def subjectClassificationLive : String := subjectPrefixClassification ++ ".live.>"

/-! ### Streams -/

/-- A stream, as far as it decides what is captured. -/
structure StreamConfig where
  name : String
  subjects : List String
  deriving DecidableEq

def prerollStreamConfig : StreamConfig := ⟨"PRE_BUFFER", [subjectPrefixPreroll]⟩

def audioStreamConfig : StreamConfig := ⟨"AUDIO_STREAM", [subjectAudioLive, subjectAudioBackfill]⟩

def transcriptionStreamConfig : StreamConfig :=
  ⟨"TRANSCRIPTION_STREAM", [subjectTranscriptRaw, "transcript.identity.>", subjectTranscriptFinal]⟩

def sessionStreamConfig : StreamConfig := ⟨"SESSION_STREAM", ["session.control"]⟩

def classificationStreamConfig : StreamConfig :=
  ⟨"CLASSIFICATION_STREAM", [subjectClassificationLive]⟩

/-- The configured streams. -/
def streams : List StreamConfig :=
  [prerollStreamConfig, audioStreamConfig, transcriptionStreamConfig, sessionStreamConfig,
    classificationStreamConfig]

/-- A stream captures a subject. -/
def StreamConfig.captures (config : StreamConfig) (subject : String) : Bool :=
  config.subjects.any fun filter ↦ covers filter subject

/-- The streams that capture a subject. -/
def capturing (subject : String) : List StreamConfig :=
  streams.filter fun config ↦ config.captures subject

/-! ### What each stream captures -/

section

variable (subject : String)

/-- A filter with a wildcard at its end. -/
theorem covers_tail {filter : String} {ps : List String} (hfilter : tokens filter = ps ++ [">"])
    (hps : ∀ p ∈ ps, p ≠ ">" ∧ p ≠ "*") :
    covers filter subject = true ↔ ∃ rest, rest ≠ [] ∧ tokens subject = ps ++ rest := by
  rw [covers, hfilter, coversTokens_tail hps]

/-- A filter without wildcards. -/
theorem covers_plain {filter : String} {ps : List String} (hfilter : tokens filter = ps)
    (hps : ∀ p ∈ ps, p ≠ ">" ∧ p ≠ "*") : covers filter subject = true ↔ tokens subject = ps := by
  rw [covers, hfilter, coversTokens_plain hps]

theorem captures_preroll : prerollStreamConfig.captures subject = true ↔
    tokens subject = ["preroll", "audio"] := by
  simp only [StreamConfig.captures, prerollStreamConfig, List.any_cons, List.any_nil, Bool.or_false]
  exact covers_plain subject rfl (by decide)

/-- The audio stream captures what is below the subjects of the two lanes. -/
theorem captures_audio : audioStreamConfig.captures subject = true ↔
    ∃ lane : Lane, ∃ rest, rest ≠ [] ∧ tokens subject = ["audio", lane.tag] ++ rest := by
  simp only [StreamConfig.captures, audioStreamConfig, List.any_cons, List.any_nil, Bool.or_false,
    Bool.or_eq_true]
  rw [covers_tail subject (show tokens subjectAudioLive = ["audio", "live"] ++ [">"] from rfl)
    (by decide), covers_tail subject
    (show tokens subjectAudioBackfill = ["audio", "backfill"] ++ [">"] from rfl) (by decide)]
  constructor
  · rintro (h | h)
    · exact ⟨.live, h⟩
    · exact ⟨.backfill, h⟩
  · rintro ⟨lane, h⟩
    cases lane with
    | live => exact Or.inl h
    | backfill => exact Or.inr h

/-- The transcription stream captures three kinds of transcripts. -/
theorem captures_transcription : transcriptionStreamConfig.captures subject = true ↔
    ∃ kind ∈ ["raw", "identity", "final"], ∃ rest, rest ≠ [] ∧
      tokens subject = ["transcript", kind] ++ rest := by
  simp only [StreamConfig.captures, transcriptionStreamConfig, List.any_cons, List.any_nil,
    Bool.or_false, Bool.or_eq_true]
  rw [covers_tail subject
      (show tokens subjectTranscriptRaw = ["transcript", "raw"] ++ [">"] from rfl) (by decide),
    covers_tail subject
      (show tokens "transcript.identity.>" = ["transcript", "identity"] ++ [">"] from rfl)
        (by decide),
    covers_tail subject
      (show tokens subjectTranscriptFinal = ["transcript", "final"] ++ [">"] from rfl) (by decide)]
  simp only [List.exists_mem_cons_iff, List.not_mem_nil, false_and, exists_false, or_false]

theorem captures_session : sessionStreamConfig.captures subject = true ↔
    tokens subject = ["session", "control"] := by
  simp only [StreamConfig.captures, sessionStreamConfig, List.any_cons, List.any_nil, Bool.or_false]
  exact covers_plain subject rfl (by decide)

theorem captures_classification : classificationStreamConfig.captures subject = true ↔
    ∃ rest, rest ≠ [] ∧ tokens subject = ["classification", "live"] ++ rest := by
  simp only [StreamConfig.captures, classificationStreamConfig, List.any_cons, List.any_nil,
    Bool.or_false]
  exact covers_tail subject rfl (by decide)

/-! ### One stream at most -/

/-- The first token of what a stream captures. -/
def StreamConfig.first (config : StreamConfig) : Option String :=
  config.subjects.head?.bind fun filter ↦ (tokens filter).head?

variable {subject}

/-- What a stream captures begins with a token of its own, so that no subject is captured twice. -/
theorem first_of_captures {config : StreamConfig} (hconfig : config ∈ streams)
    (hcaptures : config.captures subject = true) : (tokens subject).head? = config.first := by
  simp only [streams, List.mem_cons, List.not_mem_nil, or_false] at hconfig
  rcases hconfig with rfl | rfl | rfl | rfl | rfl
  · rw [(captures_preroll subject).1 hcaptures]
    rfl
  · obtain ⟨lane, rest, -, htokens⟩ := (captures_audio subject).1 hcaptures
    rw [htokens]
    rfl
  · obtain ⟨kind, -, rest, -, htokens⟩ := (captures_transcription subject).1 hcaptures
    rw [htokens]
    rfl
  · rw [(captures_session subject).1 hcaptures]
    rfl
  · obtain ⟨rest, -, htokens⟩ := (captures_classification subject).1 hcaptures
    rw [htokens]
    rfl

/-- The first token tells the streams apart. -/
theorem eq_of_first {config config' : StreamConfig} (hconfig : config ∈ streams)
    (hconfig' : config' ∈ streams) (hfirst : config.first = config'.first) : config = config' := by
  have hall : ∀ c ∈ streams, ∀ c' ∈ streams, c.first = c'.first → c = c' := by decide +kernel
  exact hall config hconfig config' hconfig' hfirst

/-- **One stream captures it**, if any does. -/
theorem capturing_eq {config : StreamConfig} (hconfig : config ∈ streams)
    (hcaptures : config.captures subject = true) : capturing subject = [config] := by
  have hall : ∀ other ∈ capturing subject, other = config := by
    intro other hother
    obtain ⟨hother, hcaptures'⟩ := List.mem_filter.1 hother
    refine eq_of_first hother hconfig ?_
    rw [← first_of_captures hother hcaptures', ← first_of_captures hconfig hcaptures]
  have hnodup : (capturing subject).Nodup := List.Nodup.filter _ (by decide)
  have hmem : config ∈ capturing subject := List.mem_filter.2 ⟨hconfig, hcaptures⟩
  cases hcapturing : capturing subject with
  | nil =>
    rw [hcapturing] at hmem
    contradiction
  | cons c cs =>
    rw [hcapturing] at hall hnodup
    obtain rfl := hall c List.mem_cons_self
    cases cs with
    | nil => rfl
    | cons c' cs =>
      obtain rfl := hall c' (List.mem_cons_of_mem _ List.mem_cons_self)
      exact absurd List.mem_cons_self (List.nodup_cons.1 hnodup).1

end

end LiveSTT
