import LiveSTT.Lib.Json
import LiveSTT.Messaging.Broker

/-!
# stt-provider: the transcripts it publishes

The payload `_drain_events` builds from an event of the transcriber. Final transcripts go to the
stream subject `transcript.raw.<source>`, interim ones to `transcript.interim.<source>` on core
NATS.
-/

namespace LiveSTT.SttProvider

/-- `TranscriptPayload`. `source` is the tag read from `tag_holder`, which holds a lane. -/
structure TranscriptPayload where
  text : String
  isFinal : Bool
  confidence : ℚ
  timestamp : String
  source : Lane

/-- `dataclasses.asdict`. -/
def TranscriptPayload.asdict (p : TranscriptPayload) : Dict :=
  [("text", .str p.text), ("is_final", .bool p.isFinal), ("confidence", .num p.confidence),
    ("timestamp", .str p.timestamp), ("source", .str p.source.tag)]

end LiveSTT.SttProvider
