import Mathlib.Data.List.Basic

/-!
# Audio messages

The messages of the streams `audio.live.<session>` and `audio.backfill.<session>` as their consumers
read them: a subject whose last token is the session id, optional headers, and the samples. An EOS
marker is a message with the header `LiveSTT-EOS: true`.
-/

namespace LiveSTT

/-- Raw PCM: 16-bit samples, so two bytes a sample. -/
abbrev Bytes := List UInt8

/-- The part of a subject behind its last dot, `subject.split(".")[-1]`; all of it when there is
none. -/
def lastToken (subject : String) : String :=
  String.ofList (subject.toList.reverse.takeWhile (· ≠ '.')).reverse

/-- A message of an audio stream. -/
structure AudioMsg where
  subject : String
  headers : Option (List (String × String)) := none
  data : Bytes
  deriving DecidableEq, Repr

/-- `msg.headers and msg.headers.get("LiveSTT-EOS") == "true"`. -/
def AudioMsg.isEos (msg : AudioMsg) : Bool :=
  match msg.headers with
  | none => false
  | some headers => headers.lookup "LiveSTT-EOS" = some "true"

end LiveSTT
