import LiveSTT.Lib.Pieces
import LiveSTT.Messaging.Audio

/-!
# Playing a file

`FileSource.stream` reads `chunk_size` frames of a WAV file at a time. At the end of the file it
rewinds, if it is to loop, and reads again; that iteration yields nothing and awaits nothing.

A request for the next chunk runs the loop until it yields or ends. It takes one iteration, or two
around the end of the file, and the chunks are the pieces of the file (`chunks_cut`), again and
again if it loops (`requests_eq`). But a file without frames is at its end after every rewind:
looping over it, a request never ends (`next_eq_none`). So playback makes progress exactly if it
does not loop or there is something to play (`progresses_iff`).

`stream` is a generator, so it is modelled by what a request makes it do: `next` with fuel for the
iterations of its loop. Two units are enough wherever there is an answer, and no fuel is where there
is none, so that the fuel is not a bound on anything (`next_of_lt`, `next_of_end`, `next_eq_none`).
-/

namespace LiveSTT.Audiosource

open Pieces

/-! ### The file -/

/-- A WAV file, with the bytes of its data chunk. Nothing checks that they are whole frames. -/
structure WavFile where
  nchannels : ℕ
  sampwidth : ℕ
  data : Bytes

/-- The size of a frame. -/
def WavFile.framesize (file : WavFile) : ℕ := file.nchannels * file.sampwidth

/-- `wave.Wave_read`: an open file, and how much of its data chunk was read. -/
structure WaveRead where
  file : WavFile
  pos : ℕ := 0

/-- `readframes`. -/
def WaveRead.readframes (wf : WaveRead) (nframes : ℕ) : Bytes × WaveRead :=
  let data := (wf.file.data.drop wf.pos).take (nframes * wf.file.framesize)
  (data, { wf with pos := wf.pos + data.length })

/-- `rewind`. -/
def WaveRead.rewind (wf : WaveRead) : WaveRead := { wf with pos := 0 }

/-! ### The source -/

structure FileSource where
  chunkSize : ℕ
  loop : Bool
  running : Bool
  wf : WaveRead

/-- `__aenter__`. -/
def aenter (file : WavFile) (chunkSize : ℕ) (loop : Bool) : Except String FileSource :=
  if file.nchannels ≠ 1 then .error "Audio file must be mono"
  else if file.sampwidth ≠ 2 then .error "Audio file must be 16-bit PCM"
  else .ok { chunkSize := chunkSize, loop := loop, running := true, wf := { file := file } }

/-- A request for the next chunk: the loop of `stream`, run until it yields a chunk or ends, with at
most so many iterations. -/
def next : ℕ → FileSource → Option (Option Bytes × FileSource)
  | 0, _ => none
  | fuel + 1, s =>
    if s.running then
      let (data, wf) := s.wf.readframes s.chunkSize
      if data = [] then
        if s.loop then next fuel { s with wf := wf.rewind }
        else some (none, { s with wf := wf })
      else some (some data, { s with wf := wf })
    else some (none, s)

/-- Some requests, one after another, with their answers. -/
def requests (fuel : ℕ) : ℕ → FileSource → Option (List (Option Bytes) × FileSource)
  | 0, s => some ([], s)
  | n + 1, s =>
    (requests fuel n s).bind fun (answers, s) ↦
      (next fuel s).map fun (answer, s) ↦ (answers ++ [answer], s)

/-! ### What the chunks are to be -/

/-- The frames of the file, cut into pieces of `chunk_size`. -/
def chunks (file : WavFile) (chunkSize : ℕ) : List Bytes :=
  cut (chunkSize * file.framesize) file.data

/-- The answer to request `n`: the chunks in order, from the first again if the source loops, and
the end of the iteration if it does not. -/
def answer (file : WavFile) (chunkSize : ℕ) (loop : Bool) (n : ℕ) : Option Bytes :=
  if loop then (chunks file chunkSize)[n % (chunks file chunkSize).length]?
  else (chunks file chunkSize)[n]?

/-- Every request ends after finitely many iterations, and the answers are the chunks. -/
def Progresses (file : WavFile) (chunkSize : ℕ) (loop : Bool) (s : FileSource) : Prop :=
  ∀ n, ∃ fuel t, requests fuel n s = some ((List.range n).map (answer file chunkSize loop), t)

section

variable {file : WavFile} {chunkSize : ℕ} {loop : Bool} {s : FileSource}

/-- The chunks are the frames of the file, and only the last may have fewer than `chunk_size`. -/
theorem chunks_cut (hk : 0 < chunkSize * file.framesize) :
    (chunks file chunkSize).flatten = file.data ∧ ∀ i, i + 1 < (chunks file chunkSize).length →
      ∃ c, (chunks file chunkSize)[i]? = some c ∧ c.length = chunkSize * file.framesize := by
  refine ⟨flatten_cut hk, fun i hi ↦ ?_⟩
  rw [chunks, length_cut] at hi
  exact ⟨_, getElem?_cut (by omega), length_piece_of_lt hk hi⟩

/-! ### One request -/

/-- The source has read the first `i` pieces since the last rewind. -/
structure ReadTo (file : WavFile) (chunkSize : ℕ) (loop : Bool) (i : ℕ) (s : FileSource) :
    Prop where
  sized : s.chunkSize = chunkSize
  loops : s.loop = loop
  running : s.running = true
  reads : s.wf.file = file
  pos : s.wf.pos = place (chunkSize * file.framesize) file.data i

/-- `readframes` answers the next piece of the file, and the source has read one piece more. -/
theorem readframes_eq {i : ℕ} (h : ReadTo file chunkSize loop i s) :
    (s.wf.readframes s.chunkSize).1 = piece (chunkSize * file.framesize) file.data i ∧
      ReadTo file chunkSize loop (i + 1) { s with wf := (s.wf.readframes s.chunkSize).2 } := by
  have hdata :
    (s.wf.readframes s.chunkSize).1 = piece (chunkSize * file.framesize) file.data i := by
    rw [WaveRead.readframes, h.reads, h.pos, h.sized, drop_place]
  refine ⟨hdata, h.sized, h.loops, h.running, h.reads, ?_⟩
  have hpos : (s.wf.readframes s.chunkSize).2.pos =
      s.wf.pos + (s.wf.readframes s.chunkSize).1.length := rfl
  rw [hpos, hdata, h.pos, place_succ]

/-- Before the end of the file, one iteration yields the next piece. -/
theorem next_of_lt (hk : 0 < chunkSize * file.framesize) {i : ℕ}
    (h : ReadTo file chunkSize loop i s) (hi : i < count (chunkSize * file.framesize) file.data)
    (fuel : ℕ) :
    ∃ t, next (fuel + 1) s = some ((chunks file chunkSize)[i]?, t) ∧
      ReadTo file chunkSize loop (i + 1) t := by
  obtain ⟨hdata, hread⟩ := readframes_eq h
  refine ⟨_, ?_, hread⟩
  rw [chunks, getElem?_cut hi, next, if_pos h.running]
  simp only [hdata]
  rw [if_neg ((piece_ne_nil_iff hk).2 hi)]

/-- At the end, the iteration ends, or the file is rewound. -/
theorem next_of_end (hk : 0 < chunkSize * file.framesize) {i : ℕ}
    (h : ReadTo file chunkSize loop i s) (hi : i = count (chunkSize * file.framesize) file.data)
    (fuel : ℕ) :
    (loop = false → ∃ t, next (fuel + 1) s = some (none, t) ∧ ReadTo file chunkSize loop i t) ∧
      (loop = true → ∃ t, next (fuel + 1) s = next fuel t ∧ ReadTo file chunkSize loop 0 t) := by
  obtain ⟨hdata, hread⟩ := readframes_eq h
  have hnil : piece (chunkSize * file.framesize) file.data i = [] := by
    by_contra hne
    have hlt := (piece_ne_nil_iff hk).1 hne
    omega
  -- nothing was read, so the reader is where it was
  have hplace : place (chunkSize * file.framesize) file.data (i + 1) =
      place (chunkSize * file.framesize) file.data i := by
    rw [← place_succ, hnil]
    rfl
  constructor
  · intro hloop
    refine ⟨_, ?_, hread.sized, hread.loops, hread.running, hread.reads, hread.pos.trans hplace⟩
    rw [next, if_pos h.running]
    simp only [hdata, hnil, if_true]
    rw [if_neg (by rw [h.loops, hloop]; decide)]
  · intro hloop
    refine ⟨{ s with wf := (s.wf.readframes s.chunkSize).2.rewind }, ?_, hread.sized, hread.loops,
      hread.running, hread.reads, ?_⟩
    · rw [next, if_pos h.running]
      simp only [hdata, hnil, if_true]
      rw [if_pos (by rw [h.loops, hloop])]
    · rw [place, Nat.zero_mul, Nat.zero_min]
      rfl

/-! ### All requests -/

/-- Looping over a file with frames, request `n` gets piece `n`, counted around the file. -/
theorem next_of_loop (hk : 0 < chunkSize * file.framesize) (hne : file.data ≠ []) {i n : ℕ}
    (h : ReadTo file chunkSize true i s) (hle : i ≤ count (chunkSize * file.framesize) file.data)
    (hi : i % count (chunkSize * file.framesize) file.data =
      n % count (chunkSize * file.framesize) file.data) :
    ∃ t j, next 2 s = some (answer file chunkSize true n, t) ∧ ReadTo file chunkSize true j t ∧
      j ≤ count (chunkSize * file.framesize) file.data ∧
      j % count (chunkSize * file.framesize) file.data =
        (n + 1) % count (chunkSize * file.framesize) file.data := by
  have hpos := (count_pos_iff hk).2 hne
  have hsucc : (i + 1) % count (chunkSize * file.framesize) file.data =
      (n + 1) % count (chunkSize * file.framesize) file.data := by
    rw [Nat.add_mod, hi, ← Nat.add_mod]
  have hanswer : answer file chunkSize true n =
      (chunks file chunkSize)[n % count (chunkSize * file.framesize) file.data]? := by
    rw [answer, if_pos rfl, chunks, length_cut]
  rw [hanswer]
  rcases Nat.lt_or_eq_of_le hle with hlt | rfl
  · obtain ⟨t, ht, hread⟩ := next_of_lt hk h hlt 1
    rw [Nat.mod_eq_of_lt hlt] at hi
    exact ⟨t, i + 1, by rw [ht, hi], hread, hlt, hsucc⟩
  · -- the file is at its end: it is rewound, and the second iteration yields its first piece
    obtain ⟨t, ht, hread⟩ := (next_of_end hk h rfl 1).2 rfl
    obtain ⟨u, hu, hread⟩ := next_of_lt hk hread hpos 0
    rw [Nat.mod_self] at hi
    refine ⟨u, 1, ?_, hread, hpos, ?_⟩
    · rw [ht, hu, ← hi]
    · rw [← hsucc, Nat.add_mod_left]

/-- Without looping it gets piece `n`, or the end. -/
theorem next_of_not_loop (hk : 0 < chunkSize * file.framesize) {n : ℕ}
    (h : ReadTo file chunkSize false (min n (count (chunkSize * file.framesize) file.data)) s) :
    ∃ t, next 2 s = some (answer file chunkSize false n, t) ∧
      ReadTo file chunkSize false (min (n + 1) (count (chunkSize * file.framesize) file.data))
        t := by
  have hanswer : answer file chunkSize false n = (chunks file chunkSize)[n]? := rfl
  rw [hanswer]
  rcases Nat.lt_or_ge n (count (chunkSize * file.framesize) file.data) with hlt | hge
  · rw [Nat.min_eq_left (Nat.le_of_lt hlt)] at h
    obtain ⟨t, ht, hread⟩ := next_of_lt hk h hlt 1
    refine ⟨t, ht, ?_⟩
    rwa [Nat.min_eq_left hlt]
  · rw [Nat.min_eq_right hge] at h
    obtain ⟨t, ht, hread⟩ := (next_of_end hk h rfl 1).1 rfl
    have hend : (chunks file chunkSize)[n]? = none := by
      rw [List.getElem?_eq_none_iff, chunks, length_cut]
      exact hge
    refine ⟨t, ht.trans (by rw [hend]), ?_⟩
    rwa [Nat.min_eq_right (by omega)]

/-- One more request. -/
theorem requests_succ {fuel n : ℕ} {answers : List (Option Bytes)} {a : Option Bytes}
    {t u : FileSource} (h : requests fuel n s = some (answers, t))
    (ha : next fuel t = some (a, u)) : requests fuel (n + 1) s = some (answers ++ [a], u) := by
  simp only [requests, h, ha, Option.bind_some, Option.map_some]

/-- The answers to all requests: of a file that has frames, or that is played once. -/
theorem requests_eq (hk : 0 < chunkSize * file.framesize) (h : ReadTo file chunkSize loop 0 s)
    (hprogress : loop = true → file.data ≠ []) (n : ℕ) :
    ∃ t, requests 2 n s = some ((List.range n).map (answer file chunkSize loop), t) := by
  cases loop with
  | true =>
    -- the piece that is read next, counted around the file
    have hrun : ∃ t i, requests 2 n s = some ((List.range n).map (answer file chunkSize true), t) ∧
        ReadTo file chunkSize true i t ∧ i ≤ count (chunkSize * file.framesize) file.data ∧
        i % count (chunkSize * file.framesize) file.data =
          n % count (chunkSize * file.framesize) file.data := by
      induction n with
      | zero => exact ⟨s, 0, rfl, h, Nat.zero_le _, rfl⟩
      | succ n ih =>
        obtain ⟨t, i, ht, hread, hle, hi⟩ := ih
        obtain ⟨u, j, hu, hread, hle, hj⟩ := next_of_loop hk (hprogress rfl) hread hle hi
        refine ⟨u, j, ?_, hread, hle, hj⟩
        rw [requests_succ ht hu, List.range_succ, List.map_append]
        rfl
    obtain ⟨t, _, ht, -⟩ := hrun
    exact ⟨t, ht⟩
  | false =>
    -- the reader stops at the end
    have hrun : ∃ t, requests 2 n s = some ((List.range n).map (answer file chunkSize false), t) ∧
        ReadTo file chunkSize false (min n (count (chunkSize * file.framesize) file.data)) t := by
      induction n with
      | zero =>
        refine ⟨s, rfl, ?_⟩
        rwa [Nat.zero_min]
      | succ n ih =>
        obtain ⟨t, ht, hread⟩ := ih
        obtain ⟨u, hu, hread⟩ := next_of_not_loop hk hread
        refine ⟨u, ?_, hread⟩
        rw [requests_succ ht hu, List.range_succ, List.map_append]
        rfl
    obtain ⟨t, ht, -⟩ := hrun
    exact ⟨t, ht⟩

/-- Looping over a file without frames, the loop goes on and on. -/
theorem next_eq_none (hnil : file.data = []) (h : ReadTo file chunkSize true 0 s) (fuel : ℕ) :
    next fuel s = none := by
  induction fuel generalizing s with
  | zero => rfl
  | succ fuel ih =>
    obtain ⟨hdata, hread⟩ := readframes_eq h
    have hempty : (s.wf.readframes s.chunkSize).1 = [] := by
      rw [hdata, piece, hnil, List.drop_nil, List.take_nil]
    rw [next, if_pos h.running]
    simp only [hempty, if_true]
    rw [if_pos h.loops]
    exact ih ⟨hread.sized, hread.loops, hread.running, hread.reads,
      by simp [place, WaveRead.rewind]⟩

end

/-! ### Progress -/

/-- What `__aenter__` accepts. -/
theorem readTo_of_aenter {file : WavFile} {chunkSize : ℕ} {loop : Bool} {s : FileSource}
    (h : aenter file chunkSize loop = .ok s) :
    file.framesize = 2 ∧ ReadTo file chunkSize loop 0 s := by
  rw [aenter] at h
  split at h
  · simp at h
  · rename_i hchannels
    split at h
    · simp at h
    · rename_i hwidth
      obtain rfl := Except.ok.inj h
      refine ⟨?_, rfl, rfl, rfl, rfl, ?_⟩
      · rw [WavFile.framesize, not_not.1 hchannels, not_not.1 hwidth]
      · simp [place]

/-- Playback makes progress unless it loops over a file whose data chunk is empty. -/
theorem progresses_iff {file : WavFile} {chunkSize : ℕ} {loop : Bool} {s : FileSource}
    (hchunk : 0 < chunkSize) (hs : aenter file chunkSize loop = .ok s) :
    Progresses file chunkSize loop s ↔ loop = false ∨ file.data ≠ [] := by
  obtain ⟨hsize, hread⟩ := readTo_of_aenter hs
  have hk : 0 < chunkSize * file.framesize := by
    rw [hsize]
    omega
  constructor
  · intro hprogress
    by_contra hnot
    obtain ⟨hloop, hnil⟩ := not_or.1 hnot
    obtain rfl : loop = true := by simpa using hloop
    obtain ⟨fuel, t, ht⟩ := hprogress 1
    simp [requests, next_eq_none (not_not.1 hnil) hread] at ht
  · intro hcond n
    have hprogress : loop = true → file.data ≠ [] := by
      rintro rfl
      exact hcond.resolve_left (by decide)
    obtain ⟨t, ht⟩ := requests_eq hk hread hprogress n
    exact ⟨2, t, ht⟩

/-- Three frames, two at a time. -/
def threeFrames : WavFile := ⟨1, 2, [1, 0, 2, 0, 3, 0]⟩

theorem progresses_iff_threeFrames :
    Progresses threeFrames 2 true ⟨2, true, true, ⟨threeFrames, 0⟩⟩ :=
  (progresses_iff (by decide) rfl).2 (Or.inr (by decide))

example : (requests 2 3 ⟨2, true, true, ⟨threeFrames, 0⟩⟩).map Prod.fst =
    some [some [1, 0, 2, 0], some [3, 0], some [1, 0, 2, 0]] := by
  decide +kernel

/-- A file without frames, as `_get_audio_source` plays it. -/
def noFrames : WavFile := ⟨1, 2, []⟩

/-- It is accepted, and no number of iterations answers the first request. -/
theorem noFrames_not_progresses : ∃ s, aenter noFrames 1536 true = .ok s ∧
    ¬ Progresses noFrames 1536 true s ∧ ∀ fuel, next fuel s = none := by
  have hread : ReadTo noFrames 1536 true 0 ⟨1536, true, true, ⟨noFrames, 0⟩⟩ :=
    ⟨rfl, rfl, rfl, rfl, rfl⟩
  have hnone := fun fuel ↦ next_eq_none rfl hread fuel
  refine ⟨⟨1536, true, true, ⟨noFrames, 0⟩⟩, rfl, fun hprogress ↦ ?_, hnone⟩
  obtain ⟨fuel, t, ht⟩ := hprogress 1
  simp [requests, hnone] at ht

end LiveSTT.Audiosource
