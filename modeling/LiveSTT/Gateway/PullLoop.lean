import LiveSTT.Lib.Json
import LiveSTT.Messaging.Broker
import Mathlib.Data.List.Nodup

/-!
# api-gateway: the pull loop

`_pull_loop` reads the stream `transcript.raw.>` through the durable consumer `api_gateway`. It
broadcasts each message to the viewers, stores it as a row of `transcript_segments` if it is final
and a session is active, and acks it. A transcript does not say which session it is of; its row gets
the session that `_active_session_id` names when its broadcast is over.

The stream and `_active_session_id` are not the loop's: its functions take them as they are when the
loop goes on. A message is known by its place in the stream. The `deeds` of the loop are the
messages it has dealt with, each with what it read then; they are no part of the program.

However messages are redelivered, the rows are those of the deeds, as long as no commit fails. If no
message is redelivered either, each has one deed at most, and one when it is acked (`filed_step`).

`Stepped` names the cases of a step, for a message that is no JSON, that is not final, or that comes
while no session is active; the invariants of the compositions go by it. A crash is a step like any
other: what was committed stays, and what was not acked is delivered again.
-/

namespace LiveSTT.PullLoop

/-- A row of `transcript_segments`. -/
structure TranscriptSegment where
  sessionId : String
  timestamp : Json
  speaker : Json
  text : Json
  confidence : Json
  source : Json

/-- A message whose broadcast is over, with what `_active_session_id` was then. -/
structure Deed where
  seq : ℕ
  data : Json
  active : Option String

/-- Where `_pull_loop` is suspended; `rest` are the fetched messages after the current one. -/
inductive Pc
  | fetching
  /-- At the sends of the broadcast. -/
  | broadcasting (seq : ℕ) (data : Json) (rest : List ℕ)
  /-- At the commit of a row. -/
  | persisting (deed : Deed) (segment : TranscriptSegment) (rest : List ℕ)
  | acking (rest : List ℕ) (raised : Bool)
  | ended

structure State where
  pc : Pc := .fetching
  /-- The rows in the order of their ids, each with the message it is made of. -/
  segments : List (ℕ × TranscriptSegment) := []
  /-- The messages that have been fetched so far. -/
  delivered : List ℕ := []
  acked : List ℕ := []
  deeds : List Deed := []

/-! ### The loop -/

/-- The row `_persist_segment` adds. -/
def segmentOf (sessionId : String) (data : Dict) : TranscriptSegment where
  sessionId := sessionId
  timestamp := Dict.getOr data "timestamp" (.str "")
  speaker := Dict.getOr data "speaker" (.str "Unknown")
  text := Dict.getOr data "text" (.str "")
  confidence := Dict.getOr data "confidence" (.num 0)
  source := Dict.getOr data "source" (.str "live")

/-- `await msg.ack()`. -/
def ack (s : State) (seq : ℕ) (rest : List ℕ) (r : Reply) : State :=
  { s with
    acked := if r.applied then s.acked ++ [seq] else s.acked
    pc := .acking rest r.raised }

/-- The loop over the fetched messages. One that does not decode is logged and acked. -/
def nextMsg (stream : List (Option Json)) (s : State) (msgs : List ℕ) (r : Reply) : State :=
  match msgs with
  | [] => { s with pc := .fetching }
  | seq :: rest =>
    match stream[seq]?.join with
    | some data => { s with pc := .broadcasting seq data rest }
    | none => ack s seq rest r

/-- The row of a broadcast message, if it gets one: it is final, and a session is active. The `get`
of a payload that is no object raises, which is logged. -/
def Deed.segment (deed : Deed) : Option TranscriptSegment :=
  match deed.data, deed.active with
  | .obj data, some id =>
    if (Dict.getOr data "is_final" .null).truthy ∧ id ≠ "" then some (segmentOf id data) else none
  | _, _ => none

/-- The broadcast of a message is over. -/
def fileMsg (s : State) (deed : Deed) (rest : List ℕ) (r : Reply) : State :=
  match deed.segment with
  | some segment => { s with pc := .persisting deed segment rest }
  | none => ack { s with deeds := s.deeds ++ [deed] } deed.seq rest r

/-- The commit of a row ends. -/
def commit (s : State) (deed : Deed) (segment : TranscriptSegment) (committed : Bool) : State :=
  { s with
    segments := if committed then s.segments ++ [(deed.seq, segment)] else s.segments
    deeds := s.deeds ++ [deed] }

/-- A fetch returns at most ten messages that are not acked. -/
def fetched (stream : List (Option Json)) (s : State) (msgs : List ℕ) (r : Reply) : Option State :=
  match s.pc with
  | .fetching =>
    if msgs.length ≤ 10 ∧ ∀ seq ∈ msgs, seq < stream.length ∧ seq ∉ s.acked then
      some (nextMsg stream { s with delivered := s.delivered ++ msgs } msgs r)
    else none
  | _ => none

/-- `_pull_loop`, resumed. An ack that raises leaves the rest of the batch to be delivered again. -/
def resume (stream : List (Option Json)) (active : Option String) (s : State) (committed : Bool)
    (r : Reply) : Option State :=
  match s.pc with
  | .broadcasting seq data rest => some (fileMsg s ⟨seq, data, active⟩ rest r)
  | .persisting deed segment rest => some (ack (commit s deed segment committed) deed.seq rest r)
  | .acking _ true => some { s with pc := .fetching }
  | .acking rest false => some (nextMsg stream s rest r)
  | _ => none

/-- The loop is cut off; a commit under way may have taken effect. -/
def cut (s : State) (committed : Bool) (pc : Pc) : State :=
  match s.pc, committed with
  | .persisting deed segment _, true => { commit s deed segment true with pc := pc }
  | _, _ => { s with pc := pc }

inductive Action
  | fetched (msgs : List ℕ) (r : Reply)
  /-- The fetch times out or raises. -/
  | unfetched
  | resume (committed : Bool) (r : Reply)
  /-- The task is cancelled. -/
  | cancel (committed : Bool)
  /-- api-gateway dies and starts again. -/
  | restart (committed : Bool)

def step (stream : List (Option Json)) (active : Option String) (s : State) : Action → Option State
  | .fetched msgs r => fetched stream s msgs r
  | .unfetched =>
    match s.pc with
    | .fetching => some s
    | _ => none
  | .resume committed r => resume stream active s committed r
  | .cancel committed => some (cut s committed .ended)
  | .restart committed => some (cut s committed .fetching)

/-! ### What a step can do -/

/-- The inversion of `step`: where each step finds the loop, and what it does. -/
inductive Stepped (stream : List (Option Json)) (active : Option String) (s : State) :
    Action → State → Prop
  | fetched {msgs : List ℕ} (hpc : s.pc = .fetching) (hlength : msgs.length ≤ 10)
      (hmsgs : ∀ seq ∈ msgs, seq < stream.length ∧ seq ∉ s.acked) (r : Reply) :
    Stepped stream active s (.fetched msgs r)
      (nextMsg stream { s with delivered := s.delivered ++ msgs } msgs r)
  | unfetched (hpc : s.pc = .fetching) : Stepped stream active s .unfetched s
  | broadcast {seq : ℕ} {data : Json} {rest : List ℕ} (hpc : s.pc = .broadcasting seq data rest)
      (committed : Bool) (r : Reply) :
    Stepped stream active s (.resume committed r) (fileMsg s ⟨seq, data, active⟩ rest r)
  | committed {deed : Deed} {segment : TranscriptSegment} {rest : List ℕ}
      (hpc : s.pc = .persisting deed segment rest) (committed : Bool) (r : Reply) :
    Stepped stream active s (.resume committed r)
      (ack (commit s deed segment committed) deed.seq rest r)
  | unacked {rest : List ℕ} (hpc : s.pc = .acking rest true) (committed : Bool) (r : Reply) :
    Stepped stream active s (.resume committed r) { s with pc := .fetching }
  | acked {rest : List ℕ} (hpc : s.pc = .acking rest false) (committed : Bool) (r : Reply) :
    Stepped stream active s (.resume committed r) (nextMsg stream s rest r)
  | cancel (committed : Bool) : Stepped stream active s (.cancel committed) (cut s committed .ended)
  | restart (committed : Bool) :
    Stepped stream active s (.restart committed) (cut s committed .fetching)

section Stepped

variable {stream : List (Option Json)} {active : Option String} {s t : State}

/-- What a resumed call does is one of the cases. -/
theorem stepped_of_resume {committed : Bool} {r : Reply}
    (ht : resume stream active s committed r = some t) :
    Stepped stream active s (.resume committed r) t := by
  rw [resume.eq_def] at ht
  split at ht
  · obtain rfl := Option.some.inj ht
    exact .broadcast ‹_› committed r
  · obtain rfl := Option.some.inj ht
    exact .committed ‹_› committed r
  · obtain rfl := Option.some.inj ht
    exact .unacked ‹_› committed r
  · obtain rfl := Option.some.inj ht
    exact .acked ‹_› committed r
  · contradiction

/-- So is every step. -/
theorem stepped_of_step {a : Action} (ht : step stream active s a = some t) :
    Stepped stream active s a t := by
  cases a with
  | fetched msgs r =>
    rw [step, fetched.eq_def] at ht
    split at ht
    · rename_i hpc
      split at ht
      · rename_i hbatch
        obtain rfl := Option.some.inj ht
        exact .fetched hpc hbatch.1 hbatch.2 r
      · contradiction
    · contradiction
  | unfetched =>
    rw [step] at ht
    split at ht
    · obtain rfl := Option.some.inj ht
      exact .unfetched ‹_›
    · contradiction
  | resume committed r => exact stepped_of_resume ht
  | cancel committed =>
    obtain rfl := Option.some.inj ht
    exact .cancel committed
  | restart committed =>
    obtain rfl := Option.some.inj ht
    exact .restart committed

end Stepped

/-! ### The session of a segment -/

/-- The session of a segment that is being stored. -/
def Pc.storing : Pc → List String
  | .persisting _ segment _ => [segment.sessionId]
  | _ => []

section

variable {stream : List (Option Json)} {active : Option String} {s t : State}

/-- A row is made for the session that was active when the message was taken up. -/
theorem sessionId_of_segment {deed : Deed} {segment : TranscriptSegment}
    (h : deed.segment = some segment) : deed.active = some segment.sessionId := by
  rw [Deed.segment.eq_def] at h
  split at h
  · rename_i hactive
    obtain ⟨-, hsegment⟩ := Option.ite_none_right_eq_some.1 h
    obtain rfl := Option.some.inj hsegment
    exact hactive
  · contradiction

variable (stream s) in
theorem storing_nextMsg (msgs : List ℕ) (r : Reply) : (nextMsg stream s msgs r).pc.storing = [] ∧
    (nextMsg stream s msgs r).segments = s.segments := by
  rw [nextMsg.eq_def]
  split
  · exact ⟨rfl, rfl⟩
  · split <;> exact ⟨rfl, rfl⟩

/-- A step stores the segment in hand, or takes one in hand for the active session. -/
theorem segments_step {a : Action} (ht : step stream active s a = some t) :
    (∀ p ∈ t.segments, p ∈ s.segments ∨ p.2.sessionId ∈ s.pc.storing) ∧
      ∀ id ∈ t.pc.storing, active = some id := by
  have hcut (committed : Bool) (pc : Pc) (hpc : pc.storing = []) :
      (∀ p ∈ (cut s committed pc).segments, p ∈ s.segments ∨ p.2.sessionId ∈ s.pc.storing) ∧
        ∀ id ∈ (cut s committed pc).pc.storing, active = some id := by
    rw [cut.eq_def]
    split
    · rename_i deed segment rest hs
      refine ⟨fun p hp ↦ ?_, by simp [hpc]⟩
      rcases List.mem_append.1 hp with hp | hp
      · exact Or.inl hp
      · obtain rfl := List.mem_singleton.1 hp
        rw [hs]
        exact Or.inr (List.mem_singleton_self _)
    · exact ⟨fun p hp ↦ Or.inl hp, by simp [hpc]⟩
  cases stepped_of_step ht with
  | fetched hpc hlength hmsgs r =>
    obtain ⟨hstoring, hsegments⟩ :=
      storing_nextMsg stream { s with delivered := s.delivered ++ _ } _ r
    rw [hstoring, hsegments]
    exact ⟨fun p hp ↦ Or.inl hp, by simp⟩
  | unfetched hpc => exact ⟨fun p hp ↦ Or.inl hp, by simp [hpc, Pc.storing]⟩
  | broadcast hpc committed r =>
    rw [fileMsg.eq_def]
    split
    · rename_i segment hsegment
      refine ⟨fun p hp ↦ Or.inl hp, fun id hid ↦ ?_⟩
      obtain rfl := List.mem_singleton.1 hid
      exact sessionId_of_segment hsegment
    · exact ⟨fun p hp ↦ Or.inl hp, by simp [ack, Pc.storing]⟩
  | @committed deed segment rest hpc committed r =>
    refine ⟨fun p hp ↦ ?_, by simp [ack, Pc.storing]⟩
    simp only [ack, commit] at hp
    split at hp
    · rcases List.mem_append.1 hp with hp | hp
      · exact Or.inl hp
      · obtain rfl := List.mem_singleton.1 hp
        rw [hpc]
        exact Or.inr (List.mem_singleton_self _)
    · exact Or.inl hp
  | unacked hpc committed r => exact ⟨fun p hp ↦ Or.inl hp, by simp [Pc.storing]⟩
  | acked hpc committed r =>
    obtain ⟨hstoring, hsegments⟩ := storing_nextMsg stream s _ r
    rw [hstoring, hsegments]
    exact ⟨fun p hp ↦ Or.inl hp, by simp⟩
  | cancel committed => exact hcut committed _ rfl
  | restart committed => exact hcut committed _ rfl

end

/-! ### What the loop has done -/

/-- Every commit of the loop succeeds, and no message is delivered twice. -/
def Action.succeeds (s : State) : Action → Bool
  | .fetched msgs _ => msgs.Nodup ∧ ∀ seq ∈ msgs, seq ∉ s.delivered
  | .resume committed _ => committed
  | _ => true

/-- The messages in hand, from the current one on. -/
def Pc.msgs : Pc → List ℕ
  | .broadcasting seq _ rest => seq :: rest
  | .persisting deed _ rest => deed.seq :: rest
  | .acking rest _ => rest
  | _ => []

/-- The position fits the stream. -/
def Pc.Fits (stream : List (Option Json)) : Pc → Prop
  | .broadcasting seq data _ => stream[seq]? = some (some data)
  | .persisting deed segment _ =>
    stream[deed.seq]? = some (some deed.data) ∧ deed.segment = some segment
  | _ => True

def Deed.row (deed : Deed) : Option (ℕ × TranscriptSegment) :=
  deed.segment.map fun segment ↦ (deed.seq, segment)

/-- The messages dealt with are filed, and those in hand are not. -/
structure Filed (stream : List (Option Json)) (s : State) : Prop where
  rows : s.segments = s.deeds.filterMap Deed.row
  once : (s.deeds.map Deed.seq ++ s.pc.msgs).Nodup
  delivered : ∀ seq ∈ s.deeds.map Deed.seq ++ s.pc.msgs, seq ∈ s.delivered
  data : ∀ deed ∈ s.deeds, stream[deed.seq]? = some (some deed.data)
  known : ∀ seq ∈ s.delivered, seq < stream.length
  acked : ∀ seq ∈ s.acked, stream[seq]? = some none ∨ seq ∈ s.deeds.map Deed.seq
  fits : s.pc.Fits stream

section Filed

variable {stream : List (Option Json)} {active : Option String} {s t : State}

theorem filed_init : Filed stream {} :=
  ⟨rfl, List.nodup_nil, by simp [Pc.msgs], by simp, by simp, by simp, trivial⟩

/-- The stream grows. -/
theorem Filed.append (h : Filed stream s) (E : List (Option Json)) : Filed (stream ++ E) s := by
  have hkept : ∀ {seq : ℕ} {x : Option Json}, stream[seq]? = some x →
    (stream ++ E)[seq]? = some x := by
    intro seq x hx
    rw [List.getElem?_append_left (List.getElem?_eq_some_iff.1 hx).1, hx]
  refine ⟨h.rows, h.once, h.delivered, fun deed hdeed ↦ hkept (h.data deed hdeed),
    fun seq hseq ↦ ?_, fun seq hseq ↦ (h.acked seq hseq).imp_left hkept, ?_⟩
  · rw [List.length_append]
    exact Nat.lt_add_right _ (h.known seq hseq)
  · have hfits := h.fits
    cases hpc : s.pc with
    | broadcasting seq data rest =>
      rw [hpc] at hfits
      exact hkept hfits
    | persisting deed segment rest =>
      rw [hpc] at hfits
      exact ⟨hkept hfits.1, hfits.2⟩
    | _ => trivial

/-- The loop goes on to messages it has in hand. -/
theorem Filed.of_pc (h : Filed stream s) {pc : Pc} (hmsgs : pc.msgs.Sublist s.pc.msgs)
    (hfits : pc.Fits stream) : Filed stream { s with pc := pc } :=
  ⟨h.rows, h.once.sublist (hmsgs.append_left _),
    fun seq hseq ↦ h.delivered seq ((hmsgs.append_left _).subset hseq), h.data, h.known, h.acked,
    hfits⟩

/-- An ack of a message that is dealt with, or does not decode. -/
theorem filed_ack {seq : ℕ} {rest : List ℕ} (h : Filed stream { s with pc := .acking rest false })
    (hseq : stream[seq]? = some none ∨ seq ∈ s.deeds.map Deed.seq) (r : Reply) :
    Filed stream (ack s seq rest r) := by
  refine ⟨h.rows, h.once, h.delivered, h.data, h.known, fun seq' hseq' ↦ ?_, trivial⟩
  have hcases : seq' ∈ s.acked ∨ seq' = seq := by
    rw [ack] at hseq'
    split at hseq'
    · simpa using hseq'
    · exact Or.inl hseq'
  rcases hcases with hold | rfl
  · exact h.acked seq' hold
  · exact hseq

/-- The loop goes on to the next message of the batch. -/
theorem filed_nextMsg {msgs : List ℕ} (h : Filed stream { s with pc := .acking msgs false })
    (r : Reply) : Filed stream (nextMsg stream s msgs r) := by
  rw [nextMsg.eq_def]
  split
  · exact h.of_pc (List.nil_sublist _) trivial
  · rename_i seq rest
    split
    · rename_i data hdata
      refine h.of_pc (List.Sublist.refl _) ?_
      rwa [Option.join_eq_some_iff] at hdata
    · rename_i hnone
      refine filed_ack (h.of_pc (List.sublist_cons_self _ _) trivial) (Or.inl ?_) r
      -- A message in hand is on the stream, so it is one that does not decode.
      have hmem : seq ∈ s.delivered :=
        h.delivered seq (List.mem_append_right _ List.mem_cons_self)
      rw [List.getElem?_eq_getElem (h.known seq hmem)] at hnone ⊢
      exact congrArg some hnone

/-- A message is dealt with: its row is there if it gets one. -/
theorem Filed.deed (h : Filed stream s) {deed : Deed} {rest : List ℕ}
    (hmsgs : s.pc.msgs = deed.seq :: rest) (hdata : stream[deed.seq]? = some (some deed.data)) :
    Filed stream { s with
      segments := s.segments ++ deed.row.toList
      deeds := s.deeds ++ [deed]
      pc := .acking rest false } := by
  have hmoved : s.deeds.map Deed.seq ++ s.pc.msgs =
      (s.deeds ++ [deed]).map Deed.seq ++ rest := by
    rw [hmsgs, List.map_append, List.append_assoc]
    rfl
  refine ⟨?_, ?_, ?_, fun d hd ↦ ?_, h.known, fun seq hseq ↦ ?_, trivial⟩
  · show s.segments ++ deed.row.toList = (s.deeds ++ [deed]).filterMap Deed.row
    rw [h.rows, List.filterMap_append]
    cases hrow : deed.row <;> simp [hrow]
  · have honce := h.once
    rwa [hmoved] at honce
  · have hdelivered := h.delivered
    rwa [hmoved] at hdelivered
  · rcases List.mem_append.1 hd with hold | hnew
    · exact h.data d hold
    · rwa [List.mem_singleton.1 hnew]
  · rw [List.map_append]
    exact (h.acked seq hseq).imp_right (List.mem_append_left _)

/-- Behind its broadcast the message is to be persisted, or is acked as it is. -/
theorem filed_fileMsg {deed : Deed} {rest : List ℕ} (h : Filed stream s)
    (hpc : s.pc = .broadcasting deed.seq deed.data rest) (r : Reply) :
    Filed stream (fileMsg s deed rest r) := by
  have hmsgs : s.pc.msgs = deed.seq :: rest := by
    rw [hpc]
    rfl
  have hdata : stream[deed.seq]? = some (some deed.data) := by
    have hfits := h.fits
    rwa [hpc] at hfits
  rw [fileMsg]
  split
  · rename_i segment hsegment
    exact h.of_pc (by rw [hmsgs]; exact List.Sublist.refl _) ⟨hdata, hsegment⟩
  · rename_i hnone
    have hdone := h.deed hmsgs hdata
    rw [Deed.row, hnone, Option.map_none, Option.toList_none, List.append_nil] at hdone
    refine filed_ack hdone (Or.inr ?_) r
    rw [List.map_append]
    exact List.mem_append_right _ (List.mem_singleton_self _)

/-- A commit that took effect, whatever the loop does then. -/
theorem filed_commit {deed : Deed} {segment : TranscriptSegment} {rest : List ℕ}
    (h : Filed stream s) (hpc : s.pc = .persisting deed segment rest) :
    Filed stream { commit s deed segment true with pc := .acking rest false } := by
  have hfits := h.fits
  rw [hpc] at hfits
  have hdone := h.deed (by rw [hpc]; rfl) hfits.1
  rwa [Deed.row, hfits.2] at hdone

theorem filed_cut (h : Filed stream s) {pc : Pc} (hmsgs : pc.msgs = []) (hfits : pc.Fits stream)
    (committed : Bool) : Filed stream (cut s committed pc) := by
  rw [cut.eq_def]
  split
  · rename_i deed segment rest hpc
    exact (filed_commit h hpc).of_pc (by rw [hmsgs]; exact List.nil_sublist _) hfits
  · exact h.of_pc (by rw [hmsgs]; exact List.nil_sublist _) hfits

/-- A fetch returns messages that are new. -/
theorem filed_fetched {msgs : List ℕ} (h : Filed stream s) (hpc : s.pc = .fetching)
    (hstored : ∀ seq ∈ msgs, seq < stream.length) (hnodup : msgs.Nodup)
    (hfresh : ∀ seq ∈ msgs, seq ∉ s.delivered) :
    Filed stream { s with delivered := s.delivered ++ msgs, pc := .acking msgs false } := by
  have hnil : s.pc.msgs = [] := by
    rw [hpc]
    rfl
  have honce := h.once
  have hdelivered := h.delivered
  rw [hnil, List.append_nil] at honce hdelivered
  refine ⟨h.rows, ?_, fun seq hseq ↦ ?_, h.data, fun seq hseq ↦ ?_, h.acked, trivial⟩
  · refine List.nodup_append.2 ⟨honce, hnodup, fun seq hold seq' hnew ↦ ?_⟩
    rintro rfl
    exact hfresh seq hnew (hdelivered seq hold)
  · exact (List.mem_append.1 hseq).elim (fun hold ↦ List.mem_append_left _ (hdelivered seq hold))
      fun hnew ↦ List.mem_append_right _ hnew
  · exact (List.mem_append.1 hseq).elim (h.known seq) (hstored seq)

/-- **One step.** -/
theorem filed_step {a : Action} (h : Filed stream s) (hsucceeds : a.succeeds s = true)
    (ht : step stream active s a = some t) : Filed stream t := by
  cases stepped_of_step ht with
  | fetched hpc _ hmsgs r =>
    obtain ⟨hnodup, hfresh⟩ := of_decide_eq_true hsucceeds
    exact filed_nextMsg (filed_fetched h hpc (fun seq hseq ↦ (hmsgs seq hseq).1) hnodup hfresh) r
  | unfetched => exact h
  | broadcast hpc _ r => exact filed_fileMsg h hpc r
  | @committed deed _ _ hpc committed r =>
    obtain rfl : committed = true := hsucceeds
    refine filed_ack (filed_commit h hpc) (Or.inr ?_) r
    show deed.seq ∈ (s.deeds ++ [deed]).map Deed.seq
    rw [List.map_append]
    exact List.mem_append_right _ (List.mem_singleton_self _)
  | unacked => exact h.of_pc (List.nil_sublist _) trivial
  | acked hpc _ r => exact filed_nextMsg (h.of_pc (by rw [hpc]) trivial) r
  | cancel committed => exact filed_cut h rfl (by trivial) committed
  | restart committed => exact filed_cut h rfl (by trivial) committed

/-! ### What a deed read -/

/-- The deed of a row to be committed. -/
def Pc.deeds : Pc → List Deed
  | .persisting deed _ _ => [deed]
  | _ => []

/-- Going on deals with no new message. -/
theorem deeds_nextMsg (msgs : List ℕ) (r : Reply) :
    ∀ deed ∈ (nextMsg stream s msgs r).deeds ++ (nextMsg stream s msgs r).pc.deeds,
      deed ∈ s.deeds := by
  have hnext : (nextMsg stream s msgs r).deeds = s.deeds ∧
      (nextMsg stream s msgs r).pc.deeds = [] := by
    rw [nextMsg.eq_def]
    split
    · exact ⟨rfl, rfl⟩
    · split <;> exact ⟨rfl, rfl⟩
  rw [hnext.1, hnext.2, List.append_nil]
  exact fun deed hdeed ↦ hdeed

/-- Nor does a crash. -/
theorem deeds_cut (committed : Bool) {pc : Pc} (hpc : pc.deeds = []) :
    ∀ deed ∈ (cut s committed pc).deeds ++ (cut s committed pc).pc.deeds,
      deed ∈ s.deeds ++ s.pc.deeds := by
  intro deed hdeed
  rw [cut.eq_def] at hdeed
  split at hdeed
  · rename_i hsame
    rw [hsame]
    rwa [hpc, List.append_nil] at hdeed
  · rw [hpc, List.append_nil] at hdeed
    exact List.mem_append_left _ hdeed

/-- The deed of a broadcast that is over reads what is active then. -/
theorem deeds_fileMsg (deed : Deed) (rest : List ℕ) (r : Reply) :
    ∀ d ∈ (fileMsg s deed rest r).deeds ++ (fileMsg s deed rest r).pc.deeds,
      d ∈ s.deeds ∨ d = deed := by
  intro d hd
  rw [fileMsg] at hd
  split at hd
  · exact (List.mem_append.1 hd).imp_right List.mem_singleton.1
  · rcases List.mem_append.1 hd with hdone | hnew
    · exact (List.mem_append.1 hdone).imp_right List.mem_singleton.1
    · contradiction

/-- **A deed is of what the loop reads** in the step that begins it. -/
theorem deeds_step {a : Action} (ht : step stream active s a = some t) :
    ∀ deed ∈ t.deeds ++ t.pc.deeds, deed ∈ s.deeds ++ s.pc.deeds ∨ deed.active = active := by
  intro deed hdeed
  cases stepped_of_step ht with
  | @fetched msgs _ _ _ r =>
    have hold : deed ∈ ({ s with delivered := s.delivered ++ msgs } : State).deeds :=
      deeds_nextMsg msgs r deed hdeed
    exact Or.inl (List.mem_append_left _ hold)
  | unfetched => exact Or.inl hdeed
  | @broadcast seq data rest _ _ r =>
    rcases deeds_fileMsg ⟨seq, data, active⟩ rest r deed hdeed with hold | rfl
    · exact Or.inl (List.mem_append_left _ hold)
    · exact Or.inr rfl
  | committed hpc _ _ =>
    refine Or.inl ?_
    rw [hpc]
    rcases List.mem_append.1 hdeed with hdone | hnew
    · exact hdone
    · contradiction
  | unacked =>
    rcases List.mem_append.1 hdeed with hdone | hnew
    · exact Or.inl (List.mem_append_left _ hdone)
    · contradiction
  | @acked rest _ _ r =>
    exact Or.inl (List.mem_append_left _ (deeds_nextMsg rest r deed hdeed))
  | cancel committed => exact Or.inl (deeds_cut committed rfl deed hdeed)
  | restart committed => exact Or.inl (deeds_cut committed rfl deed hdeed)

/-! ### Acked messages -/

/-- A message that is dealt with once. -/
theorem filter_eq_singleton {deeds : List Deed} {deed : Deed} (honce : (deeds.map Deed.seq).Nodup)
    (hmem : deed ∈ deeds) : deeds.filter (fun d ↦ d.seq = deed.seq) = [deed] := by
  obtain ⟨before, after, rfl⟩ := List.append_of_mem hmem
  rw [List.map_append, List.map_cons, List.nodup_append, List.nodup_cons] at honce
  obtain ⟨-, ⟨hafter, -⟩, hbefore⟩ := honce
  have hbefore' : before.filter (fun d ↦ d.seq = deed.seq) = [] := by
    refine List.filter_eq_nil_iff.2 fun d hd heq ↦ ?_
    exact hbefore d.seq (List.mem_map_of_mem hd) deed.seq List.mem_cons_self (of_decide_eq_true heq)
  have hafter' : after.filter (fun d ↦ d.seq = deed.seq) = [] := by
    refine List.filter_eq_nil_iff.2 fun d hd heq ↦ hafter ?_
    rw [← of_decide_eq_true heq]
    exact List.mem_map_of_mem hd
  rw [List.filter_append, hbefore', List.nil_append, List.filter_cons, if_pos (decide_eq_true rfl),
    hafter']

/-- The rows of a message are those of its deeds. -/
theorem filter_rows (deeds : List Deed) (seq : ℕ) :
    (deeds.filterMap Deed.row).filter (fun row ↦ row.1 = seq) =
      (deeds.filter fun deed ↦ deed.seq = seq).filterMap Deed.row := by
  induction deeds with
  | nil => rfl
  | cons deed deeds ih =>
    cases hrow : deed.row with
    | none =>
      rw [List.filterMap_cons_none hrow, ih, List.filter_cons]
      split
      · rw [List.filterMap_cons_none hrow]
      · rfl
    | some row =>
      obtain ⟨segment, -, rfl⟩ := Option.map_eq_some_iff.1 hrow
      rw [List.filterMap_cons_some hrow, List.filter_cons, ih, List.filter_cons]
      split
      · rw [List.filterMap_cons_some hrow]
      · rfl

/-- **An acked message has one deed**, and the row of that, if there is one. -/
theorem Filed.of_acked (h : Filed stream s) {seq : ℕ} (hacked : seq ∈ s.acked) {data : Json}
    (hdata : stream[seq]? = some (some data)) : ∃ active,
      s.deeds.filter (fun deed ↦ deed.seq = seq) = [⟨seq, data, active⟩] ∧
      s.segments.filter (fun row ↦ row.1 = seq) = (Deed.row ⟨seq, data, active⟩).toList := by
  have hmem : seq ∈ s.deeds.map Deed.seq := by
    refine (h.acked seq hacked).resolve_left fun hnone ↦ ?_
    cases hdata.symm.trans hnone
  obtain ⟨deed, hdeed, rfl⟩ := List.mem_map.1 hmem
  obtain rfl : deed.data = data :=
    Option.some.inj (Option.some.inj ((h.data deed hdeed).symm.trans hdata))
  have hfilter := filter_eq_singleton (List.Nodup.of_append_left h.once) hdeed
  refine ⟨deed.active, hfilter, ?_⟩
  rw [h.rows, filter_rows, hfilter]
  cases hrow : deed.row <;> simp [hrow]

end Filed

end LiveSTT.PullLoop
