import LiveSTT.SttProvider.SessionLoop

/-!
# What a batch becomes

`_send_msgs` goes through a list of fetched messages. A message of another session is acked and
skipped; that test comes first, so the EOS marker of another session is skipped as well. Of the
session's own messages, an EOS marker is acked and ends the call, and a chunk is sent and then
acked, unless its send raises, which ends the call without an ack.

`sendBatch` is the whole call, with the calls it makes in their order; `SessionLoop` runs the same
code one await at a time, and `run_sendMsgs` is the connection. Up to the message that ends the call
the calls are determined by the messages alone (`sendBatch_append`), so which messages were sent and
which were acked can be read off the place of that message (`sendBatch_split`).
-/

namespace LiveSTT.SttProvider

open TransitionSystem

/-! ### The call -/

/-- A call that `_send_msgs` makes; `k` is the place of the message in the list. -/
inductive Call
  | ack (k : ℕ)
  /-- `transcriber.send_audio`. -/
  | sendAudio (k : ℕ) (raised : Bool)
  /-- `_publish_stt_status("reconnecting", …)`. -/
  | publishSttStatus
  deriving DecidableEq

/-- A call of `_send_msgs`: the calls it makes, whether it sets `dg_closed`, and what it returns. -/
structure Forwarded where
  calls : List Call
  setsDgClosed : Bool
  eos : Bool
  deriving DecidableEq

/-- The same, after some calls. -/
def Forwarded.after (f : Forwarded) (calls : List Call) : Forwarded :=
  { f with calls := calls ++ f.calls }

theorem Forwarded.after_after (f : Forwarded) (cs cs' : List Call) :
    (f.after cs').after cs = f.after (cs ++ cs') := by
  simp [after]

section

variable (sessionId : Option String) (closeOnEos : Bool) (raises : ℕ → Bool)

/-- `_send_msgs`, from the message at place `k` on. The acks succeed; `raises k` is whether the send
of the message at place `k` raises. -/
def sendBatchFrom : ℕ → List AudioMsg → Forwarded
  | _, [] => { calls := [], setsDgClosed := false, eos := false }
  | k, msg :: rest =>
    if isStale sessionId msg then (sendBatchFrom (k + 1) rest).after [.ack k]
    else if msg.isEos then { calls := [.ack k], setsDgClosed := closeOnEos, eos := true }
    else if raises k then
      { calls := [.sendAudio k true, .publishSttStatus], setsDgClosed := true, eos := false }
    else (sendBatchFrom (k + 1) rest).after [.sendAudio k false, .ack k]

/-- `_send_msgs`. -/
def sendBatch (msgs : List AudioMsg) : Forwarded :=
  sendBatchFrom sessionId closeOnEos raises 0 msgs

end

/-- The messages acked, in order. -/
def acks (calls : List Call) : List ℕ :=
  calls.filterMap fun
    | .ack k => some k
    | _ => none

/-- The sends, in order, with whether they raised. -/
def sends (calls : List Call) : List (ℕ × Bool) :=
  calls.filterMap fun
    | .sendAudio k raised => some (k, raised)
    | _ => none

theorem acks_append (cs cs' : List Call) : acks (cs ++ cs') = acks cs ++ acks cs' :=
  List.filterMap_append

theorem sends_append (cs cs' : List Call) : sends (cs ++ cs') = sends cs ++ sends cs' :=
  List.filterMap_append

/-! ### Messages -/

/-- A session id is given, and the last token of the subject differs from it. -/
def OtherSession (sessionId : Option String) (msg : AudioMsg) : Prop :=
  ∃ sid, sessionId = some sid ∧ sid ≠ "" ∧ lastToken msg.subject ≠ sid

/-- On a subject of an audio stream, which has a session token, the test of the code is this one. -/
theorem isStale_iff {sessionId : Option String} {msg : AudioMsg} (hdot : '.' ∈ msg.subject.toList)
    (htoken : lastToken msg.subject ≠ "") :
    isStale sessionId msg = true ↔ OtherSession sessionId msg := by
  have hsid : sessionIdFromSubject msg.subject = some (lastToken msg.subject) := if_pos hdot
  rw [isStale.eq_def, hsid]
  unfold OtherSession
  rcases sessionId with _ | sid
  · simp
  · simp [htoken]

/-- A chunk of the session. -/
def isOwnChunk (sessionId : Option String) (msg : AudioMsg) : Bool :=
  !isStale sessionId msg && !msg.isEos

section

variable {sessionId : Option String} {closeOnEos : Bool} {raises : ℕ → Bool}
  {msgs front : List AudioMsg} {msg : AudioMsg}

/-! ### Messages that do not end the call -/

/-- What is done with a message that does not end the call. -/
def handled (sessionId : Option String) (k : ℕ) (msg : AudioMsg) : List Call :=
  if isStale sessionId msg then [.ack k] else [.sendAudio k false, .ack k]

/-- The message at place `k` ends the call: it is the session's own, and an EOS marker or a chunk
whose send raises. -/
def EndsAt (sessionId : Option String) (raises : ℕ → Bool) (msgs : List AudioMsg) (k : ℕ) : Prop :=
  ∃ msg, msgs[k]? = some msg ∧ isStale sessionId msg = false ∧ (msg.isEos = true ∨ raises k = true)

/-- Messages that do not end the call are handled one after another, and the call goes on. -/
theorem sendBatchFrom_append (closeOnEos : Bool) {j : ℕ} (rest : List AudioMsg)
    (hfront : ∀ i msg, front[i]? = some msg → isStale sessionId msg = false →
      msg.isEos = false ∧ raises (j + i) = false) :
    sendBatchFrom sessionId closeOnEos raises j (front ++ rest) =
      (sendBatchFrom sessionId closeOnEos raises (j + front.length) rest).after
        ((front.zipIdx j).flatMap fun p ↦ handled sessionId p.2 p.1) := by
  -- the place is generalised: the messages behind the first are numbered from the next place on
  induction front generalizing j with
  | nil => rfl
  | cons msg front ih =>
    have hrest := ih (j := j + 1) fun i msg hi hown ↦ by
      rw [Nat.add_right_comm]
      exact hfront (i + 1) msg hi hown
    have hplace : j + (msg :: front).length = j + 1 + front.length := by
      rw [List.length_cons]
      omega
    rw [List.cons_append, List.zipIdx_cons, List.flatMap_cons, hplace, ← Forwarded.after_after,
      ← hrest, sendBatchFrom, handled]
    split
    · rfl
    · rename_i hown
      obtain ⟨heos, hsend⟩ := hfront 0 msg rfl (Bool.eq_false_iff.2 hown)
      rw [Nat.add_zero] at hsend
      rw [if_neg (by simp [heos]), if_neg (by simp [hsend])]

theorem acks_handled (k : ℕ) : acks (handled sessionId k msg) = [k] := by
  rw [handled]
  split <;> rfl

theorem sends_handled (k : ℕ) :
    sends (handled sessionId k msg) = if isStale sessionId msg then [] else [(k, false)] := by
  rw [handled]
  split <;> rfl

/-- Each of them is acked once. -/
theorem acks_flatMap_handled (j : ℕ) :
    acks ((front.zipIdx j).flatMap fun p ↦ handled sessionId p.2 p.1) =
      List.range' j front.length := by
  induction front generalizing j with
  | nil => rfl
  | cons msg front ih =>
    rw [List.zipIdx_cons, List.flatMap_cons, acks_append, ih, acks_handled, List.length_cons,
      List.range'_succ]
    rfl

/-- And what is sent are the chunks of the session among them. -/
theorem sends_flatMap_handled (j : ℕ)
    (hfront : ∀ msg ∈ front, isStale sessionId msg = false → msg.isEos = false) :
    sends ((front.zipIdx j).flatMap fun p ↦ handled sessionId p.2 p.1) =
      ((front.zipIdx j).filter fun p ↦ isOwnChunk sessionId p.1).map fun p ↦ (p.2, false) := by
  induction front generalizing j with
  | nil => rfl
  | cons msg front ih =>
    obtain ⟨hmsg, hrest⟩ := List.forall_mem_cons.1 hfront
    rw [List.zipIdx_cons, List.flatMap_cons, sends_append, ih (j + 1) hrest, sends_handled,
      List.filter_cons]
    by_cases hstale : isStale sessionId msg = true
    · simp [isOwnChunk, hstale]
    · simp [isOwnChunk, hstale, hmsg (Bool.eq_false_iff.2 hstale)]

/-! ### The whole call -/

/-- The message that ends the call. -/
theorem sendBatchFrom_ends {k : ℕ} {rest : List AudioMsg} (hown : isStale sessionId msg = false)
    (hreason : msg.isEos = true ∨ raises k = true) :
    sendBatchFrom sessionId closeOnEos raises k (msg :: rest) =
      if msg.isEos then { calls := [.ack k], setsDgClosed := closeOnEos, eos := true }
      else
        { calls := [.sendAudio k true, .publishSttStatus], setsDgClosed := true,
          eos := false } := by
  rw [sendBatchFrom, if_neg (Bool.eq_false_iff.1 hown)]
  split
  · rfl
  · rename_i heos
    rw [if_pos (hreason.resolve_left heos)]

/-- The messages before the place `k` do not end the call. -/
theorem sendBatch_append (closeOnEos : Bool) {k : ℕ} (hk : k ≤ msgs.length)
    (hfirst : ∀ i < k, ¬ EndsAt sessionId raises msgs i) :
    sendBatch sessionId closeOnEos raises msgs =
        (sendBatchFrom sessionId closeOnEos raises k (msgs.drop k)).after
          (((msgs.take k).zipIdx).flatMap fun p ↦ handled sessionId p.2 p.1) ∧
      ∀ msg ∈ msgs.take k, isStale sessionId msg = false → msg.isEos = false := by
  have hfront : ∀ i msg, (msgs.take k)[i]? = some msg → isStale sessionId msg = false →
      msg.isEos = false ∧ raises (0 + i) = false := by
    intro i msg hi hown
    have hlt : i < k :=
      Nat.lt_of_lt_of_le (List.getElem?_eq_some_iff.1 hi).1 (List.length_take_le k msgs)
    rw [List.getElem?_take_of_lt hlt] at hi
    have hnot := hfirst i hlt
    rw [Nat.zero_add]
    constructor
    · exact Bool.eq_false_iff.2 fun heos ↦ hnot ⟨msg, hi, hown, Or.inl heos⟩
    · exact Bool.eq_false_iff.2 fun hraises ↦ hnot ⟨msg, hi, hown, Or.inr hraises⟩
  constructor
  · have hsplit := sendBatchFrom_append closeOnEos (msgs.drop k) hfront
    rwa [List.take_append_drop, List.length_take, Nat.min_eq_left hk, Nat.zero_add] at hsplit
  · intro msg hmsg hown
    obtain ⟨i, hi⟩ := List.mem_iff_getElem?.1 hmsg
    exact (hfront i msg hi hown).1

/-- What the messages before the place `k` are handled with. -/
theorem acks_take {k : ℕ} (hk : k ≤ msgs.length) :
    acks (((msgs.take k).zipIdx).flatMap fun p ↦ handled sessionId p.2 p.1) = List.range k := by
  rw [acks_flatMap_handled, List.length_take, Nat.min_eq_left hk, List.range_eq_range']

end

/-- The chunks of the session before the place `k`, in order, each sent without raising. -/
def ownChunks (sessionId : Option String) (msgs : List AudioMsg) (k : ℕ) : List (ℕ × Bool) :=
  ((msgs.take k).zipIdx.filter fun p ↦ isOwnChunk sessionId p.1).map fun p ↦ (p.2, false)

/-- The call is split at the first message that ends it, if there is one. What comes before is
acked, each message once, and of it the chunks of the session were sent, in order. An EOS marker is
acked, and sets `dg_closed` if `close_on_eos` says so; a chunk whose send raises is not acked.
Nothing is done with what comes behind. Without such a message all are handled, and `dg_closed` is
not set.

A message is skipped where it is another session's; every subject of an audio stream has a session
token. -/
theorem sendBatch_split (sessionId : Option String) (closeOnEos : Bool) (raises : ℕ → Bool)
    (msgs : List AudioMsg) :
    let f := sendBatch sessionId closeOnEos raises msgs
    (∀ k msg, msgs[k]? = some msg → EndsAt sessionId raises msgs k →
      (∀ i < k, ¬ EndsAt sessionId raises msgs i) →
      if msg.isEos then
        acks f.calls = List.range (k + 1) ∧ sends f.calls = ownChunks sessionId msgs k ∧
          f.eos = true ∧ f.setsDgClosed = closeOnEos
      else
        acks f.calls = List.range k ∧ sends f.calls = ownChunks sessionId msgs k ++ [(k, true)] ∧
          f.eos = false ∧ f.setsDgClosed = true) ∧
    ((∀ k, ¬ EndsAt sessionId raises msgs k) →
      acks f.calls = List.range msgs.length ∧
        sends f.calls = ownChunks sessionId msgs msgs.length ∧
        f.eos = false ∧ f.setsDgClosed = false) ∧
    ∀ msg : AudioMsg, '.' ∈ msg.subject.toList → lastToken msg.subject ≠ "" →
      (isStale sessionId msg = true ↔ OtherSession sessionId msg) := by
  refine ⟨fun k msg hmsg hends hfirst ↦ ?_, fun hnone ↦ ?_, fun msg ↦ isStale_iff⟩
  · obtain ⟨hlt, hget⟩ := List.getElem?_eq_some_iff.1 hmsg
    have hle : k ≤ msgs.length := Nat.le_of_lt hlt
    obtain ⟨hsplit, hchunks⟩ := sendBatch_append closeOnEos hle hfirst
    obtain ⟨msg', hmsg', hown, hreason⟩ := hends
    obtain rfl : msg = msg' := Option.some.inj (hmsg.symm.trans hmsg')
    have hdrop : msgs.drop k = msg :: msgs.drop (k + 1) := by
      rw [List.drop_eq_getElem_cons hlt, hget]
    rw [hsplit, hdrop, sendBatchFrom_ends hown hreason]
    split
    · refine ⟨?_, ?_, rfl, rfl⟩
      · rw [Forwarded.after, acks_append, acks_take hle, List.range_succ]
        rfl
      · rw [Forwarded.after, sends_append, sends_flatMap_handled 0 hchunks, ownChunks]
        exact List.append_nil _
    · refine ⟨?_, ?_, rfl, rfl⟩
      · rw [Forwarded.after, acks_append, acks_take hle]
        exact List.append_nil _
      · rw [Forwarded.after, sends_append, sends_flatMap_handled 0 hchunks, ownChunks]
        rfl
  · obtain ⟨hsplit, hchunks⟩ :=
      sendBatch_append closeOnEos (Nat.le_refl msgs.length) fun i _ ↦ hnone i
    rw [hsplit, List.drop_length, sendBatchFrom]
    refine ⟨?_, ?_, rfl, rfl⟩
    · rw [Forwarded.after, acks_append, acks_take (Nat.le_refl _)]
      exact List.append_nil _
    · rw [Forwarded.after, sends_append, sends_flatMap_handled 0 hchunks, ownChunks]
      exact List.append_nil _

/-- A message of another session, a chunk, the EOS marker, and a chunk behind it. -/
def mixedBatch : List AudioMsg :=
  [{ subject := "audio.live.s0", headers := some [("LiveSTT-EOS", "true")], data := [] },
    { subject := "audio.live.s1", data := [1, 0] },
    { subject := "audio.live.s1", headers := some [("LiveSTT-EOS", "true")], data := [] },
    { subject := "audio.live.s1", headers := some [], data := [2, 0] }]

instance (sessionId : Option String) (raises : ℕ → Bool) (msgs : List AudioMsg) (k : ℕ) :
    Decidable (EndsAt sessionId raises msgs k) :=
  decidable_of_iff
    ((msgs[k]?.any fun msg ↦ !isStale sessionId msg && (msg.isEos || raises k)) = true)
    (by simp [EndsAt, Option.any_eq_true])

/-- The call ends at the EOS marker of its session, or at the chunk, or goes through. -/
theorem sendBatch_split_mixed :
    (acks (sendBatch (some "s1") true (fun _ ↦ false) mixedBatch).calls = [0, 1, 2] ∧
      sends (sendBatch (some "s1") true (fun _ ↦ false) mixedBatch).calls = [(1, false)]) ∧
    (acks (sendBatch (some "s1") true (fun k ↦ k = 1) mixedBatch).calls = [0] ∧
      sends (sendBatch (some "s1") true (fun k ↦ k = 1) mixedBatch).calls = [(1, true)]) ∧
    acks (sendBatch (some "s2") true (fun _ ↦ false) mixedBatch).calls = [0, 1, 2, 3] ∧
    isStale (some "s1") mixedBatch[0] = true := by
  have heos := (sendBatch_split (some "s1") true (fun _ ↦ false) mixedBatch).1 2 mixedBatch[2] rfl
    (by decide +kernel) (by decide +kernel)
  have hfails := (sendBatch_split (some "s1") true (fun k ↦ k = 1) mixedBatch).1 1 mixedBatch[1] rfl
    (by decide +kernel) (by decide +kernel)
  have hall := (sendBatch_split (some "s2") true (fun _ ↦ false) mixedBatch).2.1 fun k ↦ by
    have hfour : ∀ k < 4, ¬ EndsAt (some "s2") (fun _ ↦ false) mixedBatch k := by decide +kernel
    rcases Nat.lt_or_ge k 4 with hlt | hge
    · exact hfour k hlt
    · rintro ⟨msg, hmsg, -⟩
      exact absurd (List.getElem?_eq_some_iff.1 hmsg).1 (Nat.not_lt.2 hge)
  have hother := (sendBatch_split (some "s1") true (fun _ ↦ false) mixedBatch).2.2 mixedBatch[0]
    (by decide +kernel) (by decide +kernel)
  refine ⟨⟨heos.1, heos.2.1⟩, ⟨hfails.1, hfails.2.1⟩, hall.1, hother.2 ⟨"s1", rfl, ?_⟩⟩
  decide +kernel

/-! ### The same call, one await at a time -/

section

variable {s : State} {lane : Lane}

/-- What a call that succeeds leaves behind; the message at place `k` is `place k`. -/
def perform (place : ℕ → Delivery) (s : State) : Call → State
  | .ack k => s.ack (place k) .ok s.pc
  | .sendAudio k false => { s with log := s.log ++ [.sent (place k) s.session.connection] }
  | .sendAudio _ true | .publishSttStatus => s

/-- What the whole call leaves behind. -/
def Forwarded.performed (f : Forwarded) (place : ℕ → Delivery) (s : State) : State :=
  let s := f.calls.foldl (perform place) s
  { s with session := { s.session with dgClosed := s.session.dgClosed || f.setsDgClosed } }

theorem perform_goto (place : ℕ → Delivery) (pc : Pc) (c : Call) :
    perform place (s.goto pc) c = (perform place s c).goto pc := by
  rcases c with k | ⟨k, raised⟩ | _
  · rfl
  · cases raised <;> rfl
  · rfl

/-- What a batch has done does not depend on where the loop goes next. -/
theorem performed_goto (f : Forwarded) (place : ℕ → Delivery) (pc : Pc) :
    f.performed place (s.goto pc) = (f.performed place s).goto pc := by
  have hfold : ∀ cs : List Call, cs.foldl (perform place) (s.goto pc) =
      (cs.foldl (perform place) s).goto pc := by
    intro cs
    induction cs generalizing s with
    | nil => rfl
    | cons c cs ih => rw [List.foldl_cons, perform_goto, ih, List.foldl_cons]
  rw [Forwarded.performed, hfold]
  rfl

theorem performed_after (f : Forwarded) (place : ℕ → Delivery) (cs : List Call) :
    (f.after cs).performed place s = f.performed place (cs.foldl (perform place) s) := by
  rw [Forwarded.performed, Forwarded.after, List.foldl_append]
  rfl

/-- Where the loop was suspended does not matter to where it goes. -/
theorem fetchPhase_goto (pc : Pc) (eos : Bool) :
    fetchPhase (s.goto pc) lane eos = fetchPhase s lane eos := by
  rcases lane with _ | _ <;> rcases eos with _ | _ <;> rfl

theorem ack_goto (s : State) (d : Delivery) (pc : Pc) :
    s.ack d .ok pc = (s.ack d .ok s.pc).goto pc :=
  rfl

/-- A run of the loop with the same outcomes: from the call on, it makes the same calls and returns
to `_fetch_phase` with the same answer. -/
theorem run_sendMsgs (raises : ℕ → Bool) (place : ℕ → Delivery) (lane : Lane)
    (msgs : List Delivery) (j : ℕ) (hplace : ∀ i d, msgs[i]? = some d → place (j + i) = d) :
    ∃ r as, system.Run always (sendMsgs s lane msgs r) as
      (fetchPhase ((sendBatchFrom s.session.id (decide (lane = .live)) raises j
          (msgs.map Delivery.msg)).performed place s) lane
        (sendBatchFrom s.session.id (decide (lane = .live)) raises j
          (msgs.map Delivery.msg)).eos) := by
  induction msgs generalizing s j with
  | nil =>
    refine ⟨.ok, [], ?_⟩
    have hdone :
      (sendBatchFrom s.session.id (decide (lane = .live)) raises j []).performed place s =
        s := by
      simp [sendBatchFrom, Forwarded.performed]
    rw [List.map_nil, hdone]
    exact Run.nil
  | cons d rest ih =>
    have hd : place j = d := hplace 0 d rfl
    have hrest : ∀ i d, rest[i]? = some d → place (j + 1 + i) = d := fun i d hi ↦ by
      rw [Nat.add_right_comm]
      exact hplace (i + 1) d hi
    rw [List.map_cons, sendBatchFrom]
    by_cases hstale : isStale s.session.id d.msg = true
    · obtain ⟨r, as, hrun⟩ :=
        ih (s := s.ack d .ok (.forwarding lane (.skipping rest false))) (j + 1) hrest
      refine ⟨.ok, [.resume true r] ++ as, ?_⟩
      have hfirst : sendMsgs s lane (d :: rest) .ok =
          s.ack d .ok (.forwarding lane (.skipping rest false)) := by
        rw [sendMsgs, if_pos hstale]
        rfl
      rw [if_pos hstale, hfirst, performed_after, List.foldl_cons, List.foldl_nil, perform, hd]
      refine (Run.single trivial rfl).trans ?_
      rwa [ack_goto, performed_goto, fetchPhase_goto] at hrun
    · rw [if_neg hstale]
      by_cases heos : d.msg.isEos = true
      · refine ⟨.ok, [.resume true .ok], ?_⟩
        have hfirst : sendMsgs s lane (d :: rest) .ok =
            s.ack d .ok (.forwarding lane (.ending false)) := by
          rw [sendMsgs, if_neg hstale, if_pos heos]
          rfl
        rw [if_pos heos, hfirst]
        refine Run.single trivial (congrArg some ?_)
        rw [← fetchPhase_goto (.forwarding lane (.ending false)), ← hd]
        rfl
      · rw [if_neg heos]
        by_cases hraises : raises j = true
        · refine ⟨.error, [.resume true .ok] ++ [.resume true .ok], ?_⟩
          have hfirst : sendMsgs s lane (d :: rest) .error =
              s.goto (.forwarding lane (.sending d rest true)) := by
            rw [sendMsgs, if_neg hstale, if_neg heos]
            rfl
          rw [if_pos hraises, hfirst]
          refine (Run.single trivial (t := s.goto (.forwarding lane .reporting)) rfl).trans
            (Run.single trivial (congrArg some ?_))
          rw [← fetchPhase_goto (.forwarding lane .reporting), Forwarded.performed, Bool.or_true]
          rfl
        · obtain ⟨r, as, hrun⟩ := ih (j + 1) hrest
            (s := State.ack { s with log := s.log ++ [.sent d s.session.connection] } d .ok
              (.forwarding lane (.acking rest false)))
          refine ⟨.ok, [.resume true .ok] ++ ([.resume true r] ++ as), ?_⟩
          have hfirst : sendMsgs s lane (d :: rest) .ok =
              s.goto (.forwarding lane (.sending d rest false)) := by
            rw [sendMsgs, if_neg hstale, if_neg heos]
            rfl
          rw [if_neg hraises, hfirst, performed_after, List.foldl_cons, List.foldl_cons,
            List.foldl_nil, perform, perform, hd]
          refine (Run.single trivial rfl).trans ((Run.single trivial rfl).trans ?_)
          rwa [ack_goto, performed_goto, fetchPhase_goto] at hrun

end

end LiveSTT.SttProvider
