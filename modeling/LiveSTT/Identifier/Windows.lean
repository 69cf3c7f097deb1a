import Mathlib.Data.List.DropRight
import LiveSTT.Identifier.Model
import LiveSTT.Lib.Windows

/-!
# Windows partition the audio

A worker keeps a buffer for each session of its lane. A chunk goes to the buffer of its session, a
full buffer is passed to the embedder as a window, and an EOS marker drops the buffer. So for each
session, whatever the other sessions do, the windows since its last EOS marker followed by what is
still buffered are its chunks since that marker (`windows_partition`).

`Heard` is a worker with the messages it has handled, each with the window it passed on. The
invariant is `Windowed` for every session: of the chunks since the marker, with the windows since
then, and with the buffer as the rest. A message changes it for its own session only.

The partition itself is a law of the library about a list of chunks cut into windows. What is
particular to the source is in `receive`: the EOS marker drops a buffer that is not full, and so
those chunks are in no window; they are not among the chunks since the last marker either.
-/

namespace LiveSTT.Identifier

/-! ### A worker and what it has handled -/

/-- The buffers of a worker, and the messages it has handled with the window each has filled. -/
structure Heard where
  buffers : Buffers := fun _ ↦ {}
  handled : List (AudioMsg × Option Bytes) := []

/-- The worker handles a message. -/
def Heard.hear (h : Heard) (msg : AudioMsg) : Heard where
  buffers := (receive h.buffers msg).1
  handled := h.handled ++ [(msg, (receive h.buffers msg).2)]

/-- A worker starts, and handles messages. -/
def hear (msgs : List AudioMsg) : Heard := msgs.foldl Heard.hear {}

theorem hear_concat (msgs : List AudioMsg) (msg : AudioMsg) :
    hear (msgs ++ [msg]) = (hear msgs).hear msg :=
  List.foldl_concat _ _ _ _

theorem handled_hear (msgs : List AudioMsg) : (hear msgs).handled.map Prod.fst = msgs := by
  induction msgs using List.reverseRecOn with
  | nil => rfl
  | append_singleton msgs msg ih =>
    rw [hear_concat, Heard.hear, List.map_append, ih]
    rfl

namespace Heard

variable (h : Heard) (sessionId : String)

/-- What was handled of a session since its last EOS marker. -/
def sinceEos : List (AudioMsg × Option Bytes) :=
  (h.handled.filter fun p ↦ lastToken p.1.subject = sessionId).rtakeWhile fun p ↦ !p.1.isEos

/-- The chunks of a session since its last EOS marker. -/
def chunksSince : List Bytes := (h.sinceEos sessionId).map fun p ↦ p.1.data

/-- The windows of a session that were passed to the embedder since its last EOS marker. -/
def windowsSince : List Bytes := (h.sinceEos sessionId).filterMap Prod.snd

variable {h sessionId}

/-- A message of another session. -/
theorem sinceEos_other {msg : AudioMsg} (hother : lastToken msg.subject ≠ sessionId) :
    (h.hear msg).sinceEos sessionId = h.sinceEos sessionId := by
  rw [sinceEos, hear, List.filter_append, List.filter_singleton]
  simp [hother, sinceEos]

theorem sinceEos_eos {msg : AudioMsg} (hsession : lastToken msg.subject = sessionId)
    (heos : msg.isEos = true) : (h.hear msg).sinceEos sessionId = [] := by
  rw [sinceEos, hear, List.filter_append, List.filter_singleton]
  simp [hsession, heos]

theorem sinceEos_chunk {msg : AudioMsg} (hsession : lastToken msg.subject = sessionId)
    (heos : msg.isEos = false) : (h.hear msg).sinceEos sessionId =
      h.sinceEos sessionId ++ [(msg, (receive h.buffers msg).2)] := by
  rw [sinceEos, hear, List.filter_append, List.filter_singleton]
  simp [hsession, heos, sinceEos]

end Heard

/-! ### The invariant -/

/-- A chunk that does not fill the window is buffered. -/
theorem receive_of_open {buffers : Buffers} {msg : AudioMsg} (heos : msg.isEos = false)
    (hopen : (buffers (lastToken msg.subject)).sampleCount + msg.data.length / 2 < windowSamples) :
    receive buffers msg = (Function.update buffers (lastToken msg.subject)
      ((buffers (lastToken msg.subject)).add msg.data), none) := by
  have hready : ((buffers (lastToken msg.subject)).add msg.data).ready = false :=
    decide_eq_false (not_le.2 hopen)
  simp only [receive, heos, hready]
  rfl

/-- The samples of a chunk. -/
def samples (chunk : Bytes) : ℕ := chunk.length / 2

/-- The windows of a session since its last EOS marker, and its buffer, partition its chunks. -/
def Heard.Partitioned (h : Heard) (sessionId : String) (blocks : List (List Bytes)) : Prop :=
  Windowed samples windowSamples (h.chunksSince sessionId) blocks (h.buffers sessionId).chunks ∧
    blocks.map List.flatten = h.windowsSince sessionId ∧
    (h.buffers sessionId).sampleCount = totalSize samples (h.buffers sessionId).chunks

section Partitioned

variable {h : Heard} {sessionId : String} {blocks : List (List Bytes)} {msg : AudioMsg}

theorem windowSamples_pos : 0 < windowSamples := by decide

/-- A message does not touch the buffer of another session. -/
theorem buffers_other (buffers : Buffers) (hother : lastToken msg.subject ≠ sessionId) :
    (receive buffers msg).1 sessionId = buffers sessionId := by
  have hne : sessionId ≠ lastToken msg.subject := hother.symm
  simp only [receive]
  split
  · simp [hne]
  · split <;> simp [hne]

theorem Heard.Partitioned.other (hp : h.Partitioned sessionId blocks)
    (hother : lastToken msg.subject ≠ sessionId) : (h.hear msg).Partitioned sessionId blocks := by
  have hbuffer : (h.hear msg).buffers sessionId = h.buffers sessionId := buffers_other _ hother
  rw [Heard.Partitioned, Heard.chunksSince, Heard.windowsSince, Heard.sinceEos_other hother,
    hbuffer]
  exact hp

/-- An EOS marker discards a partial window. -/
theorem partitioned_eos (hsession : lastToken msg.subject = sessionId) (heos : msg.isEos = true) :
    (h.hear msg).Partitioned sessionId [] := by
  have hbuffer : (h.hear msg).buffers sessionId = {} := by
    rw [Heard.hear, receive, if_pos heos, hsession]
    dsimp only
    rw [Function.update_self]
  rw [Heard.Partitioned, Heard.chunksSince, Heard.windowsSince, Heard.sinceEos_eos hsession heos,
    hbuffer]
  exact ⟨windowed_nil windowSamples_pos, rfl, rfl⟩

/-- The samples a buffer has once a chunk is added. -/
theorem Heard.Partitioned.count (hp : h.Partitioned sessionId blocks) (chunk : Bytes) :
    (h.buffers sessionId).sampleCount + chunk.length / 2 =
      totalSize samples ((h.buffers sessionId).chunks ++ [chunk]) := by
  rw [totalSize_concat, ← hp.2.2]
  rfl

/-- The buffer of a full window is emptied. -/
theorem buffers_of_full (h : Heard) (heos : msg.isEos = false)
    (hfull : windowSamples ≤
      (h.buffers (lastToken msg.subject)).sampleCount + msg.data.length / 2) :
    (h.hear msg).buffers (lastToken msg.subject) = {} := by
  simp [Heard.hear, receive_of_full heos hfull]

/-- A chunk fills a window. -/
theorem Heard.Partitioned.fills (hp : h.Partitioned sessionId blocks)
    (hsession : lastToken msg.subject = sessionId) (heos : msg.isEos = false)
    (hfull : windowSamples ≤ totalSize samples ((h.buffers sessionId).chunks ++ [msg.data])) :
    (h.hear msg).Partitioned sessionId (blocks ++ [(h.buffers sessionId).chunks ++ [msg.data]]) ∧
      (receive h.buffers msg).2 = some ((h.buffers sessionId).chunks ++ [msg.data]).flatten := by
  have hcount := hp.count msg.data
  subst hsession
  have hreceive := receive_of_full heos (hcount ▸ hfull)
  have hbuffer := buffers_of_full h heos (hcount ▸ hfull)
  have hwindow : (receive h.buffers msg).2 =
      some ((h.buffers (lastToken msg.subject)).chunks ++ [msg.data]).flatten := by
    rw [hreceive]
    rfl
  refine ⟨⟨?_, ?_, ?_⟩, hwindow⟩
  · rw [Heard.chunksSince, Heard.sinceEos_chunk rfl heos, List.map_append, hbuffer]
    exact hp.1.fills hfull
  · rw [Heard.windowsSince, Heard.sinceEos_chunk rfl heos, List.filterMap_append, List.map_append,
      hp.2.1, hwindow]
    rfl
  · rw [hbuffer]
    rfl

/-- A chunk does not fill a window. -/
theorem Heard.Partitioned.grows (hp : h.Partitioned sessionId blocks)
    (hsession : lastToken msg.subject = sessionId) (heos : msg.isEos = false)
    (hopen : totalSize samples ((h.buffers sessionId).chunks ++ [msg.data]) < windowSamples) :
    (h.hear msg).Partitioned sessionId blocks := by
  have hcount := hp.count msg.data
  subst hsession
  have hreceive := receive_of_open heos (hcount ▸ hopen)
  have hbuffer : (h.hear msg).buffers (lastToken msg.subject) =
      (h.buffers (lastToken msg.subject)).add msg.data := by
    rw [Heard.hear, hreceive]
    dsimp only
    rw [Function.update_self]
  refine ⟨?_, ?_, ?_⟩
  · rw [Heard.chunksSince, Heard.sinceEos_chunk rfl heos, List.map_append, hbuffer]
    exact hp.1.grows hopen
  · rw [Heard.windowsSince, Heard.sinceEos_chunk rfl heos, List.filterMap_append, hp.2.1, hreceive]
    exact (List.append_nil _).symm
  · rw [hbuffer]
    exact hcount

/-- **One message.** -/
theorem Heard.Partitioned.hear (hp : h.Partitioned sessionId blocks) (msg : AudioMsg) :
    ∃ blocks, (h.hear msg).Partitioned sessionId blocks := by
  by_cases hsession : lastToken msg.subject = sessionId
  · cases heos : msg.isEos with
    | true => exact ⟨[], partitioned_eos hsession heos⟩
    | false =>
      rcases le_or_gt windowSamples
        (totalSize samples ((h.buffers sessionId).chunks ++ [msg.data])) with hfull | hopen
      · exact ⟨_, (hp.fills hsession heos hfull).1⟩
      · exact ⟨blocks, hp.grows hsession heos hopen⟩
  · exact ⟨blocks, hp.other hsession⟩

/-- **All messages.** -/
theorem partitioned_hear (msgs : List AudioMsg) (sessionId : String) :
    ∃ blocks, (Identifier.hear msgs).Partitioned sessionId blocks := by
  induction msgs using List.reverseRecOn with
  | nil => exact ⟨[], windowed_nil windowSamples_pos, rfl, rfl⟩
  | append_singleton msgs msg ih =>
    obtain ⟨blocks, hp⟩ := ih
    rw [hear_concat]
    exact hp.hear msg

end Partitioned

/-! ### Samples -/

/-- Chunks of whole samples have as many samples together as one by one. -/
theorem samples_flatten {chunks : List Bytes} (heven : ∀ chunk ∈ chunks, chunk.length % 2 = 0) :
    samples chunks.flatten = totalSize samples chunks := by
  induction chunks with
  | nil => rfl
  | cons chunk chunks ih =>
    obtain ⟨hchunk, htail⟩ := List.forall_mem_cons.1 heven
    have hsum : totalSize samples (chunk :: chunks) = samples chunk + totalSize samples chunks := by
      simp [totalSize]
    rw [hsum, ← ih htail, samples, samples, samples, List.flatten_cons, List.length_append]
    omega

/-- The chunks of a session are the data of messages that are no EOS markers. -/
theorem even_chunksSince {msgs : List AudioMsg}
    (heven : ∀ msg ∈ msgs, msg.isEos = false → msg.data.length % 2 = 0) (sessionId : String) :
    ∀ chunk ∈ (hear msgs).chunksSince sessionId, chunk.length % 2 = 0 := by
  intro chunk hchunk
  obtain ⟨p, hp, rfl⟩ := List.mem_map.1 hchunk
  have heos : p.1.isEos = false := by simpa using List.mem_rtakeWhile_imp hp
  have hhandled : p ∈ (hear msgs).handled :=
    (List.mem_filter.1 (List.rtakeWhile_suffix _ _ |>.mem hp)).1
  have hmsg : p.1 ∈ (hear msgs).handled.map Prod.fst := List.mem_map_of_mem hhandled
  rw [handled_hear] at hmsg
  exact heven p.1 hmsg heos

/-! ### The windows of a run -/

/-- What was handled is not changed by what is handled later. -/
theorem handled_prefix (msgs more : List AudioMsg) :
    (hear msgs).handled <+: (hear (msgs ++ more)).handled := by
  induction more using List.reverseRecOn with
  | nil => simp
  | append_singleton more msg ih =>
    rw [← List.append_assoc, hear_concat]
    exact ih.trans (List.prefix_append _ _)

/-- A window was filled by the message it is recorded with. -/
theorem receive_of_handled {msgs : List AudioMsg} {before after : List (AudioMsg × Option Bytes)}
    {msg : AudioMsg} {window : Option Bytes}
    (h : (hear msgs).handled = before ++ (msg, window) :: after) :
    (receive (hear (before.map Prod.fst)).buffers msg).2 = window := by
  have hmsgs : msgs = (before.map Prod.fst ++ [msg]) ++ after.map Prod.fst := by
    rw [← handled_hear msgs, h]
    simp
  have hprefix :
    (hear (before.map Prod.fst ++ [msg])).handled <+: before ++ (msg, window) :: after := by
    rw [← h, hmsgs]
    exact handled_prefix _ _
  have hprefix' : before ++ [(msg, window)] <+: before ++ (msg, window) :: after :=
    ⟨after, by simp⟩
  have hlength : (hear (before.map Prod.fst ++ [msg])).handled.length =
      (before ++ [(msg, window)]).length := by
    rw [← List.length_map Prod.fst, handled_hear]
    simp
  have heq := (List.prefix_of_prefix_length_le hprefix hprefix' hlength.le).eq_of_length hlength
  rw [hear_concat, Heard.hear] at heq
  exact (Prod.mk.inj (List.singleton_injective (List.append_inj' heq rfl).2)).2

/-- **A window is made of chunks of one session, since its last EOS marker.** -/
theorem window_suffix {msgs : List AudioMsg} {before after : List (AudioMsg × Option Bytes)}
    {msg : AudioMsg} {audio : Bytes}
    (h : (hear msgs).handled = before ++ (msg, some audio) :: after) :
    ∃ block, block <:+ (hear (before.map Prod.fst ++ [msg])).chunksSince (lastToken msg.subject) ∧
      audio = block.flatten := by
  have hwindow := receive_of_handled h
  obtain ⟨blocks, hp⟩ := partitioned_hear (before.map Prod.fst) (lastToken msg.subject)
  rw [hear_concat]
  cases heos : msg.isEos with
  | true =>
    rw [receive, if_pos heos] at hwindow
    contradiction
  | false =>
    rcases le_or_gt windowSamples (totalSize samples
      (((hear (before.map Prod.fst)).buffers (lastToken msg.subject)).chunks ++ [msg.data]))
      with hfull | hopen
    · obtain ⟨hfills, hfilled⟩ := hp.fills rfl heos hfull
      -- The buffer is empty after the window, which is then the last part of the session's chunks.
      have hbuffer := buffers_of_full (hear (before.map Prod.fst)) heos (hp.count msg.data ▸ hfull)
      refine ⟨_, ?_, Option.some.inj (hwindow.symm.trans hfilled)⟩
      have hwindowed := hfills.1
      rw [hbuffer] at hwindowed
      exact hwindowed.last_suffix
    · rw [receive_of_open heos (hp.count msg.data ▸ hopen)] at hwindow
      contradiction

/-- **Windows partition the audio.** Whatever messages of whatever sessions a worker has handled, if
the chunks are of whole samples, then for each session the windows since its last EOS marker and
what is buffered are its chunks since that marker; the count is the number of buffered samples; each
window is full, and was not without its last chunk; and every window that was ever filled is made of
chunks of one session that follow its last EOS marker. -/
theorem windows_partition {msgs : List AudioMsg}
    (heven : ∀ msg ∈ msgs, msg.isEos = false → msg.data.length % 2 = 0) (sessionId : String) :
    (∃ blocks : List (List Bytes),
      blocks.map List.flatten = (hear msgs).windowsSince sessionId ∧
      blocks.flatten ++ ((hear msgs).buffers sessionId).chunks = (hear msgs).chunksSince sessionId ∧
      ∀ block ∈ blocks, windowSamples ≤ samples block.flatten ∧
        samples block.dropLast.flatten < windowSamples) ∧
    ((hear msgs).windowsSince sessionId).flatten ++
        ((hear msgs).buffers sessionId).chunks.flatten =
      ((hear msgs).chunksSince sessionId).flatten ∧
    ((hear msgs).buffers sessionId).sampleCount =
      samples ((hear msgs).buffers sessionId).chunks.flatten ∧
    ∀ before msg audio after, (hear msgs).handled = before ++ (msg, some audio) :: after →
      ∃ block, block <:+ (hear (before.map Prod.fst ++ [msg])).chunksSince (lastToken msg.subject) ∧
        audio = block.flatten := by
  obtain ⟨blocks, hwindowed, hwindows, hcount⟩ := partitioned_hear msgs sessionId
  have hchunks := even_chunksSince heven sessionId
  rw [← hwindowed.parts] at hchunks
  have hbuffered : ∀ chunk ∈ ((hear msgs).buffers sessionId).chunks, chunk.length % 2 = 0 :=
    fun chunk hchunk ↦ hchunks chunk (List.mem_append_right _ hchunk)
  refine ⟨⟨blocks, hwindows, hwindowed.parts, fun block hblock ↦ ?_⟩, ?_, ?_, fun _ _ _ _ h ↦
    window_suffix h⟩
  · have hblocked : ∀ chunk ∈ block, chunk.length % 2 = 0 := fun chunk hchunk ↦
      hchunks chunk (List.mem_append_left _ (List.mem_flatten_of_mem hblock hchunk))
    rw [samples_flatten hblocked,
      samples_flatten fun chunk hchunk ↦ hblocked chunk (List.dropLast_subset _ hchunk)]
    exact hwindowed.filled block hblock
  · rw [← hwindowed.parts, ← hwindows, List.flatten_append, List.flatten_flatten]
  · rw [samples_flatten hbuffered, hcount]

/-- A chunk that fills a window by itself. -/
def fullChunk : AudioMsg := ⟨"audio.live.a", none, List.replicate 49152 0⟩

theorem windows_partition_fullChunk :
    ((hear [fullChunk]).windowsSince "a").flatten ++
      ((hear [fullChunk]).buffers "a").chunks.flatten =
      ((hear [fullChunk]).chunksSince "a").flatten ∧
    ((hear [fullChunk]).buffers "a").sampleCount =
      samples ((hear [fullChunk]).buffers "a").chunks.flatten := by
  have heven : ∀ msg ∈ [fullChunk], msg.isEos = false → msg.data.length % 2 = 0 := by
    intro msg hmsg _
    have hlength : fullChunk.data.length = 49152 := List.length_replicate
    rw [List.mem_singleton.1 hmsg, hlength]
  obtain ⟨-, hparts, hcount, -⟩ := windows_partition heven "a"
  exact ⟨hparts, hcount⟩

/-! ### The workers of the service -/

/-- The messages a worker has handled. -/
def messagesOf (source : Lane) (as : List Action) : List AudioMsg :=
  as.filterMap fun
    | .message lane msg _ _ _ => if lane = source then some msg else none
    | .restart => none

/-- The lookup and its publish leave the buffers alone. -/
theorem buffers_identifyAndPublish (s : State) (recognition : Recognition) (source lane : Lane)
    (timestamp : String) (r : Reply) :
    (identifyAndPublish s recognition source timestamp r).buffers lane = s.buffers lane := by
  rw [identifyAndPublish.eq_def]
  split
  · cases lane <;> rfl
  · rfl
  · rfl
  · split
    · cases lane <;> rfl
    · rfl

/-- A message is buffered by the worker of its lane. -/
theorem buffers_worker (s : State) (source lane : Lane) (msg : AudioMsg)
    (recognize : Bytes → Recognition) (timestamp : String) (r : Reply) :
    (worker s source msg recognize timestamp r).buffers lane =
      if source = lane then (receive (s.buffers source) msg).1 else s.buffers lane := by
  have hset : ∀ buffers, (s.setBuffers buffers source).buffers lane =
      if source = lane then buffers else s.buffers lane := by
    intro buffers
    cases source <;> cases lane <;> rfl
  rw [worker]
  split
  · rename_i buffers hreceive
    rw [hset, hreceive]
  · rename_i buffers audio hreceive
    rw [buffers_identifyAndPublish, hset, hreceive]

/-- **The buffers of the service** are those of two workers, each of which has handled the messages
of its lane. -/
theorem buffers_run {s : State} {as : List Action}
    (hrun : system.Run (fun _ a ↦ a ≠ .restart) {} as s) (lane : Lane) :
    s.buffers lane = (hear (messagesOf lane as)).buffers := by
  induction hrun with
  | nil => cases lane <;> rfl
  | @snoc as a s t _ hG hstep ih =>
    cases a with
    | restart => exact absurd rfl hG
    | message source msg recognize timestamp r =>
      obtain ⟨-, hworker⟩ := Option.ite_none_left_eq_some.1 hstep
      obtain rfl := Option.some.inj hworker
      rw [buffers_worker, messagesOf, List.filterMap_append]
      by_cases hlane : source = lane
      · subst hlane
        rw [if_pos rfl, ih]
        simp only [List.filterMap_cons, List.filterMap_nil, if_true]
        rw [hear_concat]
        rfl
      · rw [if_neg hlane, ih]
        simp only [List.filterMap_cons, List.filterMap_nil, if_neg hlane, List.append_nil]
        rfl

end LiveSTT.Identifier
