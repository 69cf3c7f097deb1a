import Mathlib.Data.List.Basic
import LiveSTT.Messaging.Broker

/-!
# The audio-gap warning

`_check_consumer_lag` compares two sequence numbers of `AUDIO_STREAM`: that of the last message
delivered to the backfill consumer, and the first one the stream still has. The stream numbers the
messages of both lanes, and what ages out is its oldest part, so what the backfill consumer can have
lost are the backfill messages between the two.

The code warns whenever the first number is the smaller one, and takes their difference for the
number of messages lost. A loss is never missed (`isSome_of_lost`). But the difference counts the
live messages between the two as well, and one more (`gapMsgs_eq`): where nothing has aged out
behind the delivered message, there is a gap of 1. So the warning is right exactly when there is
none (`exact_iff`).

Nothing here depends on a run: the stream is a list of messages with their sequence numbers, and the
check reads two of them.
-/

namespace LiveSTT.ConsumerLag

/-! ### The stream -/

/-- `AUDIO_STREAM`: the lanes of all messages ever stored, the first of which has sequence number 1,
and how many of the oldest have aged out. -/
structure AudioStream where
  messages : List Lane
  agedOut : ℕ
  valid : agedOut ≤ messages.length

namespace AudioStream

/-- `stream_info.state.first_seq`. When everything has aged out it is the next number; a stream that
never had a message reports 0. -/
def firstSeq (s : AudioStream) : ℕ :=
  if s.messages = [] then 0 else s.agedOut + 1

/-- The messages that have aged out behind the delivered position, with their sequence numbers. -/
def passed (s : AudioStream) (delivered : ℕ) : List (Lane × ℕ) :=
  ((s.messages.take s.agedOut).zipIdx 1).filter fun p ↦ delivered < p.2

/-- The backfill messages that were never delivered and have aged out. -/
def lost (s : AudioStream) (delivered : ℕ) : List (Lane × ℕ) :=
  (s.passed delivered).filter fun p ↦ p.1 = .backfill

/-- The live messages among them, which the consumer does not see. -/
def foreign (s : AudioStream) (delivered : ℕ) : List (Lane × ℕ) :=
  (s.passed delivered).filter fun p ↦ ¬ p.1 = .backfill

end AudioStream

/-! ### The check -/

/-- What the warning says: `lost_s` is 0.096 times `gapMsgs`. -/
structure Warning where
  gapMsgs : ℕ
  consumerSeq : ℕ
  firstSeq : ℕ
  deriving DecidableEq

/-- `_check_consumer_lag`, with what `consumer_info` and `stream_info` returned, nothing if the call
raised: the warning it logs. -/
def checkConsumerLag (consumerSeq firstSeq : Option ℕ) : Option Warning :=
  match consumerSeq, firstSeq with
  | some consumerSeq, some firstSeq =>
    if consumerSeq < firstSeq then
      some { gapMsgs := firstSeq - consumerSeq, consumerSeq := consumerSeq, firstSeq := firstSeq }
    else none
  | _, _ => none

/-- The check at a stream and a delivered position. -/
def check (s : AudioStream) (delivered : ℕ) : Option Warning :=
  checkConsumerLag (some delivered) (some s.firstSeq)

/-- It warns exactly when a backfill message was lost, and the number it goes by is how many. -/
def Exact (s : AudioStream) (delivered : ℕ) : Prop :=
  ((check s delivered).isSome = true ↔ s.lost delivered ≠ []) ∧
    ∀ w ∈ check s delivered, w.gapMsgs = (s.lost delivered).length

instance (s : AudioStream) (delivered : ℕ) : Decidable (Exact s delivered) :=
  inferInstanceAs (Decidable (_ ∧ ∀ w ∈ check s delivered, _))

section

variable {s : AudioStream} {delivered : ℕ}

/-- It warns by comparing the two numbers. -/
theorem isSome_check_iff : (check s delivered).isSome = true ↔ delivered < s.firstSeq := by
  rw [check, checkConsumerLag]
  split
  · simp [*]
  · simp [*]

/-- Behind the delivered position are the numbers up to the last one that aged out. -/
theorem length_filter_zipIdx (lanes : List Lane) (j : ℕ) :
    ((lanes.zipIdx j).filter fun p ↦ delivered < p.2).length =
      lanes.length - (delivered + 1 - j) := by
  induction lanes generalizing j with
  | nil => simp
  | cons lane lanes ih =>
    -- the numbers grow, so once one is behind the position the others are, too
    rw [List.zipIdx_cons, List.filter_cons, List.length_cons]
    split
    · rename_i hlt
      have hlt : delivered < j := by simpa using hlt
      rw [List.length_cons, ih]
      omega
    · rename_i hge
      have hge : j ≤ delivered := by simpa using hge
      rw [ih]
      omega

theorem length_passed : (s.passed delivered).length = s.agedOut - delivered := by
  have hvalid := s.valid
  rw [AudioStream.passed, length_filter_zipIdx, List.length_take]
  omega

/-- The difference counts what was lost, the live messages between, and one message too many. -/
theorem gapMsgs_eq {w : Warning} (h : w ∈ check s delivered) :
    w.gapMsgs = (s.lost delivered).length + (s.foreign delivered).length + 1 := by
  have hlt : delivered < s.firstSeq := isSome_check_iff.1 (Option.isSome_of_mem h)
  have hgap : w.gapMsgs = s.firstSeq - delivered := by
    rw [check, checkConsumerLag, if_pos hlt] at h
    obtain rfl := Option.some.inj h
    rfl
  have hsplit : (s.lost delivered).length + (s.foreign delivered).length =
      (s.passed delivered).length := by
    have hparts := List.length_eq_length_filter_add (l := s.passed delivered)
      fun p ↦ decide (p.1 = .backfill)
    simpa [AudioStream.lost, AudioStream.foreign] using hparts.symm
  rw [hsplit, length_passed, hgap]
  have hfirst : s.firstSeq = s.agedOut + 1 := by
    rw [AudioStream.firstSeq] at hlt ⊢
    split at hlt
    · omega
    · rename_i hne
      rw [if_neg hne]
  omega

/-- A loss is never missed. -/
theorem isSome_of_lost (h : s.lost delivered ≠ []) : (check s delivered).isSome = true := by
  obtain ⟨p, hp⟩ := List.exists_mem_of_ne_nil _ h
  have hpassed : p ∈ s.passed delivered := List.mem_of_mem_filter hp
  have hpos : 0 < (s.passed delivered).length := List.length_pos_of_mem hpassed
  have hvalid := s.valid
  rw [length_passed] at hpos
  rw [isSome_check_iff, AudioStream.firstSeq, if_neg (by rintro hnil; simp [hnil] at hvalid; omega)]
  omega

end

/-- The warning is exact where there is none: where the delivered message has not aged out. -/
theorem exact_iff (s : AudioStream) (delivered : ℕ) :
    Exact s delivered ↔ s.firstSeq ≤ delivered := by
  constructor
  · rintro ⟨-, hgap⟩
    by_contra hlt
    obtain ⟨w, hw⟩ := Option.isSome_iff_exists.1 (isSome_check_iff.2 (Nat.not_le.1 hlt))
    have hcount := hgap w hw
    rw [gapMsgs_eq hw] at hcount
    omega
  · intro hle
    have hnone : check s delivered = none := by
      rw [← Option.not_isSome_iff_eq_none, isSome_check_iff]
      exact Nat.not_lt.2 hle
    refine ⟨⟨fun h ↦ ?_, isSome_of_lost⟩, fun w hw ↦ ?_⟩
    · rw [hnone] at h
      simp at h
    · rw [hnone] at hw
      simp at hw

/-- The only backfill message was delivered, and live ones have aged out since: nothing is lost, and
the warning says four messages. -/
theorem not_exact : ¬ Exact ⟨[.backfill, .live, .live, .live, .live], 4, by decide⟩ 1 ∧
    check ⟨[.backfill, .live, .live, .live, .live], 4, by decide⟩ 1 = some ⟨4, 1, 5⟩ ∧
    AudioStream.lost ⟨[.backfill, .live, .live, .live, .live], 4, by decide⟩ 1 = [] := by
  decide

end LiveSTT.ConsumerLag
