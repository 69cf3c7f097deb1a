import LiveSTT.AudioProducer.Model
import LiveSTT.Gateway.PullLoop
import LiveSTT.SttProvider.Transcript

/-!
# A viewer page

While a session is active, a viewer page connects to `/ws/transcripts`, loses its connection and
reconnects. `websocket_endpoint` registers a connection for broadcasts first and replays the rows of
the session to it then; `_pull_loop` broadcasts a transcript first and stores it then; and the page
appends a line for every final transcript it receives, replayed or broadcast, and keeps its lines
over a reconnect.

So the page has each line once, in order, in every run in which no replay meets lines that were sent
before and no broadcast overtakes a replay (`each_line_once`). A reconnect alone shows all lines
again (`reconnect_repeats`).

Of the other pages only their connections are there, which the broadcast sends to as well. A send
puts a message on its way when it is issued; the commit and the select take effect when they end.

`Sound` is what holds of any run, disturbed or not, and `InOrder` what the conditions add; the steps
of the loop come to both by `Went`, which says how a step moves the line in process.
-/

namespace LiveSTT.Viewers

open AudioProducer (SessionId)
open PullLoop (TranscriptSegment Deed segmentOf)
open SttProvider (TranscriptPayload)

/-! ### The page -/

/-- White space and line terminators, as `String.prototype.trim` takes them. -/
def isSpace (c : Char) : Bool :=
  c ∈ ['\t', '\n', '\x0b', '\x0c', '\r', ' ', '\u00a0', '\u1680', '\u2028', '\u2029', '\u202f',
    '\u205f', '\u3000', '\ufeff'] ∨ '\u2000' ≤ c ∧ c ≤ '\u200a'

/-- `text.trim()`. -/
def trim (text : String) : String :=
  String.ofList (((text.toList.dropWhile isSpace).reverse.dropWhile isSpace).reverse)

/-- Truthiness in JavaScript, where an empty array or object is true. -/
def truthy : Json → Bool
  | .null => false
  | .bool b => b
  | .num q => q ≠ 0
  | .str s => s ≠ ""
  | _ => true

/-- A line of the transcript. -/
structure Line where
  text : String
  speaker : Json
  isBackfill : Bool

/-- The line of a text, unless it is blank. What is no string has no `trim`, which raises. -/
def textOf : Json → Option String
  | .str text => if trim text = "" then none else some (trim text)
  | _ => none

/-- The line `onmessage` appends for a transcript, if it does. -/
def lineOf (p : Dict) : Option Line :=
  let source := Dict.getOr p "source" .null
  let isBackfill := source.isStr "backfill"
  let isLive := !truthy source || source.isStr "live"
  if (isBackfill || isLive) && truthy (Dict.getOr p "is_final" .null) then
    (textOf (Dict.getOr p "text" .null)).map fun text ↦
      ⟨text, Dict.getOr p "speaker" .null, isBackfill⟩
  else none

/-- A message to a page. -/
inductive Message
  | replayStart
  | transcript (payload : Dict)
  | replayComplete

def Message.line : Message → Option Line
  | .transcript payload => lineOf payload
  | _ => none

/-! ### The state -/

/-- Where `websocket_endpoint` is suspended. -/
inductive HandlerPc
  /-- At `websocket.accept()`. -/
  | accepting
  /-- At the send of `replay_start`. -/
  | greeting
  /-- At the select of the rows. -/
  | selecting
  /-- At the select or a send, with the rows left to send. -/
  | replaying (rest : List TranscriptSegment)
  /-- At `websocket.receive_text()`; `complete` is whether the replay was completed. -/
  | receiving (complete : Bool)

/-- The rows a replay has still to send. -/
def HandlerPc.rest : HandlerPc → List TranscriptSegment
  | .replaying rest => rest
  | _ => []

/-- The replay was completed. -/
def HandlerPc.complete : HandlerPc → Bool
  | .receiving complete => complete
  | _ => false

/-- An open connection of the page. -/
structure Socket where
  conn : ℕ
  pc : HandlerPc := .accepting
  /-- The messages on their way to the page. -/
  inbox : List Message := []

structure State where
  transcripts : List TranscriptPayload := []
  loop : PullLoop.State := {}
  /-- `manager.active_connections`. -/
  connections : List ℕ := []
  /-- The number of connections so far. -/
  accepted : ℕ := 0
  /-- The connections the broadcast under way has still to send to. -/
  owed : List ℕ := []
  socket : Option Socket := none
  /-- The lines the page has appended. -/
  lines : List Line := []

/-- What `_pull_loop` reads. -/
def State.stream (s : State) : List (Option Json) :=
  s.transcripts.map fun p ↦ some (.obj p.asdict)

/-! ### The gateway -/

/-- The payload `_replay_session_transcript` makes of a row. -/
def replayPayload (segment : TranscriptSegment) : Dict :=
  [("text", segment.text), ("speaker", segment.speaker), ("is_final", .bool true),
    ("confidence", segment.confidence), ("source", segment.source),
      ("timestamp", segment.timestamp)]

/-- The rows of a session, `order_by(TranscriptSegment.id)`. -/
def rowsOf (session : SessionId) (loop : PullLoop.State) : List TranscriptSegment :=
  (loop.segments.map Prod.snd).filter fun segment ↦ segment.sessionId = session.val

def Socket.send (k : Socket) (msg : Message) (pc : HandlerPc) : Socket :=
  { k with inbox := k.inbox ++ [msg], pc := pc }

/-- `websocket_endpoint`, resumed in the session; `raised` is whether the select did. -/
def websocketEndpoint (session : SessionId) (s : State) (k : Socket) (raised : Bool) :
    Option State :=
  match k.pc with
  | .accepting => some { s with
      connections := s.connections ++ [k.conn]
      socket := some (k.send .replayStart .greeting) }
  | .greeting => some { s with socket := some { k with pc := .selecting } }
  | .selecting =>
    if raised then some { s with socket := some { k with pc := .receiving false } }
    else some { s with socket := some { k with pc := .replaying (rowsOf session s.loop) } }
  | .replaying [] => some { s with socket := some (k.send .replayComplete (.receiving true)) }
  | .replaying (segment :: rest) => some { s with
      socket := some (k.send (.transcript (replayPayload segment)) (.replaying rest)) }
  | .receiving _ => none

/-- The message that is being broadcast. -/
def payloadOf : PullLoop.Pc → Option Dict
  | .broadcasting _ (.obj payload) _ => some payload
  | _ => none

/-- The next send of a broadcast. -/
def sendNext (s : State) : Option State :=
  match s.owed, payloadOf s.loop.pc with
  | conn :: owed, some payload => some { s with
      owed := owed
      socket := s.socket.map fun k ↦
        if k.conn = conn then k.send (.transcript payload) k.pc else k }
  | _, _ => none

/-- `_pull_loop` has gone on; a broadcast that begins goes to the connections there are. -/
def loopTo (s : State) (loop : PullLoop.State) : State :=
  { s with loop := loop, owed := if (payloadOf loop.pc).isSome then s.connections else [] }

/-! ### The system -/

inductive Action
  /-- stt-provider publishes a transcript. -/
  | transcribe (p : TranscriptPayload)
  | loop (a : PullLoop.Action)
  | send
  /-- The page connects. -/
  | connect
  | handle (raised : Bool)
  /-- The page receives a message. -/
  | receive
  /-- The page's connection closes; what is on its way is lost. -/
  | drop
  /-- Another page connects. -/
  | join
  /-- A connection is dropped from the active ones, but not an open one of the page. -/
  | leave (conn : ℕ)

/-- The page's connection is open. -/
def State.isOpen (s : State) (conn : ℕ) : Bool := s.socket.any fun k ↦ k.conn = conn

/-- `limit` is `MAX_WS_CONNECTIONS`. -/
def step (limit : ℕ) (session : SessionId) (s : State) : Action → Option State
  | .transcribe p => some { s with transcripts := s.transcripts ++ [p] }
  | .loop a =>
    match a with
    -- A shutdown of api-gateway closes its connections, which is not in these runs.
    | .cancel _ | .restart _ => none
    | a =>
      if s.owed.isEmpty then
        (PullLoop.step s.stream (some session.val) s.loop a).map (loopTo s)
      else none
  | .send => sendNext s
  | .connect =>
    match s.socket with
    | some _ => none
    | none =>
      if limit ≤ s.connections.length then some s
      else some { s with socket := some { conn := s.accepted }, accepted := s.accepted + 1 }
  | .handle raised => s.socket.bind fun k ↦ websocketEndpoint session s k raised
  | .receive => s.socket.bind fun k ↦
      match k.inbox with
      | [] => none
      | msg :: inbox => some { s with
          socket := some { k with inbox := inbox }, lines := s.lines ++ msg.line.toList }
  | .drop => s.socket.map fun _ ↦ { s with socket := none }
  | .join =>
    some { s with connections := s.connections ++ [s.accepted], accepted := s.accepted + 1 }
  | .leave conn =>
    if s.isOpen conn then none else some { s with connections := s.connections.erase conn }

/-- A row made of a transcript. -/
def Made (segment : TranscriptSegment) : Prop :=
  ∃ (id : String) (p : TranscriptPayload), segment = segmentOf id p.asdict

/-- The session is active, and no transcript is in process. There may be rows already; the page is
not connected, or it is since before the session and there are none. -/
structure Initial (session : SessionId) (s : State) : Prop where
  transcripts : s.transcripts = []
  idle : s.loop.pc = .fetching
  made : ∀ row ∈ s.loop.segments, Made row.2
  owed : s.owed = []
  lines : s.lines = []
  page : s.connections = [] ∧ s.accepted = 0 ∧ s.socket = none ∨
    s.connections = [0] ∧ s.accepted = 1 ∧ s.socket = some ⟨0, .receiving true, []⟩ ∧
      rowsOf session s.loop = []

def system (limit : ℕ) (session : SessionId) : TransitionSystem State Action where
  init := Initial session
  step := step limit session

/-! ### What a step can do -/

/-- The inversion of `step`: where each step finds the page and the loop, and what it does. -/
inductive Stepped (limit : ℕ) (session : SessionId) (s : State) : Action → State → Prop
  | transcribe (p : TranscriptPayload) :
    Stepped limit session s (.transcribe p) { s with transcripts := s.transcripts ++ [p] }
  | loop {a : PullLoop.Action} {loop : PullLoop.State} (howed : s.owed = [])
      (hcancel : ∀ committed, a ≠ .cancel committed)
        (hrestart : ∀ committed, a ≠ .restart committed)
      (hl : PullLoop.step s.stream (some session.val) s.loop a = some loop) :
    Stepped limit session s (.loop a) (loopTo s loop)
  | send {t : State} (ht : sendNext s = some t) : Stepped limit session s .send t
  | refused (hnone : s.socket = none) (hfull : limit ≤ s.connections.length) :
    Stepped limit session s .connect s
  | connect (hnone : s.socket = none) (hfree : s.connections.length < limit) :
    Stepped limit session s .connect
      { s with socket := some { conn := s.accepted }, accepted := s.accepted + 1 }
  | handle {k : Socket} {t : State} (hk : s.socket = some k) {raised : Bool}
      (ht : websocketEndpoint session s k raised = some t) :
    Stepped limit session s (.handle raised) t
  | receive {k : Socket} {msg : Message} {inbox : List Message} (hk : s.socket = some k)
      (hinbox : k.inbox = msg :: inbox) :
    Stepped limit session s .receive
      { s with socket := some { k with inbox := inbox }, lines := s.lines ++ msg.line.toList }
  | drop {k : Socket} (hk : s.socket = some k) :
    Stepped limit session s .drop { s with socket := none }
  | join : Stepped limit session s .join
      { s with connections := s.connections ++ [s.accepted], accepted := s.accepted + 1 }
  | leave {conn : ℕ} (hopen : s.isOpen conn = false) :
    Stepped limit session s (.leave conn) { s with connections := s.connections.erase conn }

section Stepped

variable {limit : ℕ} {session : SessionId} {s t : State}

/-- A step of the pull loop is one of the cases. -/
theorem stepped_of_loop {a : PullLoop.Action} (ht : step limit session s (.loop a) = some t) :
    Stepped limit session s (.loop a) t := by
  have hloop : ∀ a : PullLoop.Action, (∀ committed, a ≠ .cancel committed) →
      (∀ committed, a ≠ .restart committed) →
      (if s.owed.isEmpty = true then
        (PullLoop.step s.stream (some session.val) s.loop a).map (loopTo s) else none) = some t →
      Stepped limit session s (.loop a) t := by
    intro a hcancel hrestart ht
    split at ht
    · rename_i hempty
      obtain ⟨loop, hl, rfl⟩ := Option.map_eq_some_iff.1 ht
      exact .loop (List.isEmpty_iff.1 hempty) hcancel hrestart hl
    · contradiction
  cases a with
  | cancel committed => contradiction
  | restart committed => contradiction
  | fetched msgs r => exact hloop _ (by simp) (by simp) ht
  | unfetched => exact hloop _ (by simp) (by simp) ht
  | resume committed r => exact hloop _ (by simp) (by simp) ht

/-- So is every step. -/
theorem stepped_of_step {a : Action} (ht : step limit session s a = some t) :
    Stepped limit session s a t := by
  cases a with
  | transcribe p =>
    obtain rfl := Option.some.inj ht
    exact .transcribe p
  | loop a => exact stepped_of_loop ht
  | send => exact .send ht
  | connect =>
    rw [step] at ht
    split at ht
    · contradiction
    · rename_i hnone
      split at ht <;> obtain rfl := Option.some.inj ht
      · exact .refused hnone ‹_›
      · exact .connect hnone (Nat.lt_of_not_le ‹_›)
  | handle raised =>
    obtain ⟨k, hk, ht⟩ := Option.bind_eq_some_iff.1 ht
    exact .handle hk ht
  | receive =>
    obtain ⟨k, hk, ht⟩ := Option.bind_eq_some_iff.1 ht
    split at ht
    · contradiction
    · rename_i hinbox
      obtain rfl := Option.some.inj ht
      exact .receive hk hinbox
  | drop =>
    obtain ⟨k, hk, rfl⟩ := Option.map_eq_some_iff.1 ht
    exact .drop hk
  | join =>
    obtain rfl := Option.some.inj ht
    exact .join
  | leave conn =>
    rw [step] at ht
    split at ht
    · contradiction
    · rename_i hopen
      obtain rfl := Option.some.inj ht
      exact .leave (Bool.eq_false_iff.2 hopen)

end Stepped

/-! ### What the page is to show -/

/-- The lines of rows. -/
def textsOf (segments : List TranscriptSegment) : List String :=
  segments.filterMap fun segment ↦ textOf segment.text

/-- A transcript is being broadcast or stored. -/
def busy : PullLoop.Pc → Bool
  | .broadcasting _ _ _ => true
  | .persisting _ _ _ => true
  | _ => false

/-- The replay of the page's connection is complete, nothing is on its way to the page, and no
transcript is in process. -/
structure Quiet (s : State) : Prop where
  replayed : ∃ k, s.socket = some k ∧ k.pc.complete = true ∧ k.inbox = []
  idle : busy s.loop.pc = false

/-- The line of the transcript in process, if it will be stored. -/
def processOf (session : SessionId) : PullLoop.Pc → List String
  | .broadcasting seq data _ => textsOf (Deed.segment ⟨seq, data, some session.val⟩).toList
  | .persisting _ segment _ => textsOf [segment]
  | _ => []

section Page

variable (session : SessionId) (s : State)

/-- The lines the page is to show. -/
def State.stored : List String := textsOf (rowsOf session s.loop)

/-- The lines on the page and on their way to it. -/
def State.sent : List String :=
  s.lines.map Line.text ++
    (s.socket.elim [] Socket.inbox).filterMap fun msg ↦ msg.line.map Line.text

/-- The broadcast under way has still to send to the page. -/
def State.owesPage : Bool := s.socket.any fun k ↦ k.conn ∈ s.owed

/-- The lines the replay has still to send. -/
def State.toReplay : List String := textsOf (s.socket.elim [] fun k ↦ k.pc.rest)

end Page

/-- Every commit succeeds. -/
def writes (_ : State) : Action → Bool
  | .loop (.resume committed _) => committed
  | _ => true

/-- A select of rows meets no line that was sent before, and misses no transcript in process; a
broadcast does not overtake a replay. -/
def undisturbed (session : SessionId) (s : State) : Action → Bool
  | .handle false =>
    match s.socket with
    | some ⟨_, .selecting, _⟩ => ((s.stored session).isEmpty || s.sent.isEmpty) &&
        ((processOf session s.loop.pc).isEmpty || s.owesPage || !s.sent.isEmpty)
    | _ => true
  | .send => (processOf session s.loop.pc).isEmpty || s.toReplay.isEmpty ||
      s.owed.head?.all fun conn ↦ !s.isOpen conn
  | _ => true

/-! ### Texts -/

section Texts

variable {session : SessionId} {seq : ℕ}

theorem textsOf_append (xs ys : List TranscriptSegment) :
    textsOf (xs ++ ys) = textsOf xs ++ textsOf ys :=
  List.filterMap_append

theorem textsOf_cons (x : TranscriptSegment) (xs : List TranscriptSegment) :
    textsOf (x :: xs) = (textOf x.text).toList ++ textsOf xs := by
  cases h : textOf x.text <;> simp [textsOf, h]

/-- What the page makes of a final transcript of stt-provider. -/
theorem lineOf_eq {payload : Dict} {text : String} (source : Lane)
    (hsource : Dict.getOr payload "source" .null = .str source.tag)
    (hfinal : Dict.getOr payload "is_final" .null = .bool true)
    (htext : Dict.getOr payload "text" .null = .str text) :
    (lineOf payload).map Line.text = textOf (.str text) := by
  have hshown : ((Json.str source.tag).isStr "backfill" ||
      (!truthy (.str source.tag) || (Json.str source.tag).isStr "live")) = true := by
    cases source <;> rfl
  simp only [lineOf, hsource, hfinal, htext, hshown]
  cases textOf (.str text) <;> rfl

/-- A row made of a transcript is replayed with its text. -/
theorem lineOf_replayPayload {segment : TranscriptSegment} (h : Made segment) :
    (lineOf (replayPayload segment)).map Line.text = textOf segment.text := by
  obtain ⟨id, p, rfl⟩ := h
  exact lineOf_eq p.source rfl rfl rfl

/-- A transcript is broadcast with the text of its row, if it gets one. -/
theorem lineOf_asdict (p : TranscriptPayload) : ((lineOf p.asdict).map Line.text).toList =
    textsOf (Deed.segment ⟨seq, .obj p.asdict, some session.val⟩).toList := by
  have hsegment : Deed.segment ⟨seq, .obj p.asdict, some session.val⟩ =
      if p.isFinal = true ∧ session.val ≠ "" then some (segmentOf session.val p.asdict) else none :=
        rfl
  rw [hsegment]
  cases hfinal : p.isFinal with
  | false =>
    have hnone : lineOf p.asdict = none := by
      have hflag : Dict.getOr p.asdict "is_final" .null = .bool false := congrArg Json.bool hfinal
      simp [lineOf, hflag, truthy]
    rw [hnone]
    rfl
  | true =>
    have hflag : Dict.getOr p.asdict "is_final" .null = .bool true := congrArg Json.bool hfinal
    rw [if_pos ⟨rfl, session.2⟩, lineOf_eq p.source rfl hflag rfl, Option.toList_some, textsOf_cons]
    exact (List.append_nil _).symm

/-- At most one line is in process. -/
theorem length_processOf (pc : PullLoop.Pc) : (processOf session pc).length ≤ 1 := by
  have hle : ∀ o : Option TranscriptSegment, (textsOf o.toList).length ≤ 1 := fun o ↦
    (List.length_filterMap_le _ _).trans (by cases o <;> simp)
  cases pc with
  | broadcasting seq data rest => exact hle _
  | persisting deed segment rest => exact hle (some segment)
  | _ => exact Nat.zero_le _

theorem processOf_of_not_busy {pc : PullLoop.Pc} (h : busy pc = false) :
    processOf session pc = [] := by
  cases pc with
  | broadcasting seq data rest => contradiction
  | persisting deed segment rest => contradiction
  | _ => rfl

end Texts

/-! ### What the pull loop does to the lines -/

/-- What the loop has in hand is made of transcripts. -/
inductive Fits (session : SessionId) : PullLoop.Pc → Prop
  | broadcasting (seq : ℕ) (p : TranscriptPayload) (rest : List ℕ) :
    Fits session (.broadcasting seq (.obj p.asdict) rest)
  | persisting (deed : Deed) {segment : TranscriptSegment} (rest : List ℕ) (hmade : Made segment)
    (hsession : segment.sessionId = session.val) : Fits session (.persisting deed segment rest)
  | idle {pc : PullLoop.Pc} (h : busy pc = false) : Fits session pc

/-- A step of the loop begins a broadcast, or takes the transcript in hand further: the line in
process becomes a stored one, or stays in process while no broadcast is under way. -/
inductive Went (session : SessionId) (l l' : PullLoop.State) : Prop
  | begins (hidle : processOf session l.pc = []) (hrows : l'.segments = l.segments)
    (hpc : (payloadOf l'.pc).isSome = true) (hfits : Fits session l'.pc)
  | moves (E : List (ℕ × TranscriptSegment)) (hrows : l'.segments = l.segments ++ E)
    (hmade : ∀ row ∈ E, Made row.2 ∧ row.2.sessionId = session.val)
    (hlines : textsOf (E.map Prod.snd) ++ processOf session l'.pc = processOf session l.pc)
    (hpc : payloadOf l'.pc = none) (hfits : Fits session l'.pc)

section Loop

variable {session : SessionId} {transcripts : List TranscriptPayload} {l l' : PullLoop.State}

theorem went_ack {seq : ℕ} {rest : List ℕ} {r : Reply} (h : processOf session l.pc = []) :
    Went session l (PullLoop.ack l seq rest r) :=
  .moves [] (List.append_nil _).symm (by simp) h.symm rfl (.idle rfl)

/-- The next transcript of the batch is broadcast, or the batch is done. -/
theorem went_nextMsg {msgs : List ℕ} {r : Reply} (h : processOf session l.pc = []) :
    Went session l (PullLoop.nextMsg (transcripts.map fun p ↦ some (.obj p.asdict)) l msgs r) := by
  rw [PullLoop.nextMsg.eq_def]
  split
  · exact .moves [] (List.append_nil _).symm (by simp) h.symm rfl (.idle rfl)
  · rename_i seq rest
    split
    · rename_i data hdata
      rw [Option.join_eq_some_iff, List.getElem?_map, Option.map_eq_some_iff] at hdata
      obtain ⟨p, -, hp⟩ := hdata
      obtain rfl := Option.some.inj hp
      exact .begins h rfl rfl (.broadcasting seq p rest)
    · exact went_ack h

/-- Behind the broadcast the line is in process until it is stored. -/
theorem went_fileMsg {seq : ℕ} {p : TranscriptPayload} {rest : List ℕ} {r : Reply}
    (hpc : l.pc = .broadcasting seq (.obj p.asdict) rest) :
    Went session l (PullLoop.fileMsg l ⟨seq, .obj p.asdict, some session.val⟩ rest r) := by
  have hprocess : processOf session l.pc =
      textsOf (Deed.segment ⟨seq, .obj p.asdict, some session.val⟩).toList := by
    rw [hpc, processOf]
  rw [PullLoop.fileMsg]
  split
  · rename_i segment hsegment
    have hmade : segmentOf session.val p.asdict = segment := by
      simp only [Deed.segment] at hsegment
      split at hsegment
      · exact Option.some.inj hsegment
      · contradiction
    refine .moves [] (List.append_nil _).symm (by simp) ?_ rfl
      (.persisting _ _ ⟨session.val, p, hmade.symm⟩ (hmade ▸ rfl))
    rw [hprocess, hsegment]
    rfl
  · rename_i hnone
    rw [hnone] at hprocess
    exact .moves [] (List.append_nil _).symm (by simp) hprocess.symm rfl (.idle rfl)

/-- The line in process becomes a stored one. -/
theorem went_committed {deed : Deed} {segment : TranscriptSegment} {rest : List ℕ} {r : Reply}
    (hfits : Fits session l.pc) (hpc : l.pc = .persisting deed segment rest) :
    Went session l (PullLoop.ack (PullLoop.commit l deed segment true) deed.seq rest r) := by
  have hprocess : processOf session l.pc = textsOf [segment] := by
    rw [hpc]
    rfl
  rw [hpc] at hfits
  cases hfits with
  | persisting _ _ hmade hsession =>
    refine .moves [(deed.seq, segment)] rfl (fun row hrow ↦ ?_) ?_ rfl (.idle rfl)
    · rw [List.mem_singleton.1 hrow]
      exact ⟨hmade, hsession⟩
    · rw [hprocess]
      exact List.append_nil _
  | idle h => contradiction

/-- **One step of the loop**, whose commits succeed. -/
theorem went_step {a : PullLoop.Action} (hfits : Fits session l.pc)
    (hwrites : ∀ committed r, a = .resume committed r → committed = true)
    (hcancel : ∀ committed, a ≠ .cancel committed) (hrestart : ∀ committed, a ≠ .restart committed)
    (ht : PullLoop.step (transcripts.map fun p ↦ some (.obj p.asdict)) (some session.val) l a =
      some l') : Went session l l' := by
  cases PullLoop.stepped_of_step ht with
  | @fetched msgs hpc =>
    have hnone : processOf session l.pc = [] := by
      rw [hpc]
      rfl
    cases went_nextMsg (l := { l with delivered := l.delivered ++ msgs }) hnone with
    | begins hidle hrows hpc hfits => exact .begins hidle hrows hpc hfits
    | moves E hrows hmade hlines hpc hfits => exact .moves E hrows hmade hlines hpc hfits
  | unfetched hpc => exact .moves [] (List.append_nil _).symm (by simp) rfl (by rw [hpc]; rfl) hfits
  | broadcast hpc =>
    rw [hpc] at hfits
    cases hfits with
    | broadcasting seq p rest => exact went_fileMsg hpc
    | idle h => contradiction
  | committed hpc committed r =>
    obtain rfl := hwrites committed r rfl
    exact went_committed hfits hpc
  | unacked hpc =>
    exact .moves [] (List.append_nil _).symm (by simp) (by rw [hpc]; rfl) rfl (.idle rfl)
  | acked hpc => exact went_nextMsg (by rw [hpc]; rfl)
  | cancel committed => exact absurd rfl (hcancel committed)
  | restart committed => exact absurd rfl (hrestart committed)

/-- The step of the loop, in a run whose commits succeed. -/
theorem went_of_writes {s : State} {a : PullLoop.Action} {loop : PullLoop.State}
    (hfits : Fits session s.loop.pc) (hwrites : writes s (.loop a) = true)
    (hcancel : ∀ committed, a ≠ .cancel committed) (hrestart : ∀ committed, a ≠ .restart committed)
    (hl : PullLoop.step s.stream (some session.val) s.loop a = some loop) :
    Went session s.loop loop := by
  refine went_step hfits ?_ hcancel hrestart hl
  rintro committed r rfl
  exact hwrites

end Loop

/-! ### The connections -/

/-- The page's connection is registered from `manager.connect` on, and replays rows of
transcripts. -/
def Registered (s : State) (k : Socket) : Prop :=
  match k.pc with
  | .accepting => k.conn ∉ s.connections ∧ k.conn ∉ s.owed
  | pc => k.conn ∈ s.connections ∧ ∀ segment ∈ pc.rest, Made segment

/-- What holds whether or not anything is disturbed. -/
structure Sound (session : SessionId) (s : State) : Prop where
  fits : Fits session s.loop.pc
  made : ∀ row ∈ s.loop.segments, Made row.2
  free : payloadOf s.loop.pc = none → s.owed = []
  owed : s.owed.Nodup ∧ ∀ conn ∈ s.owed, conn < s.accepted
  connections : s.connections.Nodup ∧ ∀ conn ∈ s.connections, conn < s.accepted
  page : ∀ k, s.socket = some k → k.conn < s.accepted ∧ Registered s k

section Sound

variable {session : SessionId} {limit : ℕ} {s t : State} {k : Socket}

theorem made_rowsOf (h : Sound session s) : ∀ segment ∈ rowsOf session s.loop, Made segment := by
  intro segment hsegment
  obtain ⟨row, hrow, rfl⟩ := List.mem_map.1 (List.mem_of_mem_filter hsegment)
  exact h.made row hrow

/-- The connections are as before, but for the page's, which is not accepted anew. -/
theorem Sound.of_socket (h : Sound session s) (k : Socket) {lines : List Line}
    (hk : k.conn < s.accepted ∧ Registered s k) :
    Sound session { s with socket := some k, lines := lines } :=
  ⟨h.fits, h.made, h.free, h.owed, h.connections, fun _ hk' ↦ Option.some.inj hk' ▸ hk⟩

/-- The handler of the page's socket connects, replays and waits. -/
theorem sound_handle (h : Sound session s) (hk : s.socket = some k) {raised : Bool}
    (ht : websocketEndpoint session s k raised = some t) : Sound session t := by
  obtain ⟨hlt, hregistered⟩ := h.page k hk
  rw [websocketEndpoint.eq_def] at ht
  rw [Registered.eq_def] at hregistered
  split at ht <;> rename_i hpc <;> rw [hpc] at hregistered
  · obtain rfl := Option.some.inj ht
    refine ⟨h.fits, h.made, h.free, h.owed, ⟨?_, fun conn hconn ↦ ?_⟩, fun k' hk' ↦ ?_⟩
    · exact List.nodup_append.2 ⟨h.connections.1, List.nodup_singleton _,
        fun conn hold conn' hnew ↦ by
        rw [List.mem_singleton.1 hnew]
        rintro rfl
        exact hregistered.1 hold⟩
    · rcases List.mem_append.1 hconn with hold | hnew
      · exact h.connections.2 conn hold
      · rw [List.mem_singleton.1 hnew]
        exact hlt
    · obtain rfl := Option.some.inj hk'
      exact ⟨hlt, List.mem_append_right _ (List.mem_singleton_self _),
        by simp [HandlerPc.rest, Socket.send]⟩
  · obtain rfl := Option.some.inj ht
    exact h.of_socket _ ⟨hlt, hregistered.1, by simp [HandlerPc.rest]⟩
  · split at ht <;> obtain rfl := Option.some.inj ht
    · exact h.of_socket _ ⟨hlt, hregistered.1, by simp [HandlerPc.rest]⟩
    · exact h.of_socket _ ⟨hlt, hregistered.1, made_rowsOf h⟩
  · obtain rfl := Option.some.inj ht
    exact h.of_socket _ ⟨hlt, hregistered.1, by simp [HandlerPc.rest, Socket.send]⟩
  · obtain rfl := Option.some.inj ht
    exact h.of_socket _ ⟨hlt, hregistered.1,
      fun segment hsegment ↦ hregistered.2 segment (List.mem_cons_of_mem _ hsegment)⟩
  · contradiction

/-- A connection stays registered while the connections grow by others, and the owed ones shrink. -/
theorem Registered.of_subset (h : Registered s k) (hpc : HandlerPc) (hsame : hpc = k.pc)
    {inbox : List Message} (hnew : k.conn ∈ t.connections ↔ k.conn ∈ s.connections)
    (howed : k.conn ∉ s.connections → k.conn ∉ s.owed → k.conn ∉ t.owed) :
    Registered t ⟨k.conn, hpc, inbox⟩ := by
  subst hsame
  rw [Registered.eq_def] at h ⊢
  cases hcase : k.pc with
  | accepting =>
    rw [hcase] at h
    exact ⟨fun hmem ↦ h.1 (hnew.1 hmem), howed h.1 h.2⟩
  | _ =>
    rw [hcase] at h
    exact ⟨hnew.2 h.1, h.2⟩

/-- A line that is sent is stored or in process. -/
theorem sound_sendNext (h : Sound session s) (ht : sendNext s = some t) : Sound session t := by
  rw [sendNext.eq_def] at ht
  split at ht
  · rename_i conn owed payload howed hpayload
    obtain rfl := Option.some.inj ht
    have hsub : owed ⊆ s.owed := howed ▸ List.subset_cons_self _ _
    refine ⟨h.fits, h.made, fun hnone ↦ ?_, ⟨?_, fun c hc ↦ h.owed.2 c (hsub hc)⟩, h.connections,
      fun k' hk' ↦ ?_⟩
    · cases hpayload.symm.trans hnone
    · exact (List.nodup_cons.1 (howed ▸ h.owed.1)).2
    · obtain ⟨k, hk, rfl⟩ := Option.map_eq_some_iff.1 hk'
      obtain ⟨hlt, hregistered⟩ := h.page k hk
      split
      · exact ⟨hlt, hregistered.of_subset k.pc rfl Iff.rfl fun _ hno hmem ↦ hno (hsub hmem)⟩
      · exact ⟨hlt, hregistered.of_subset k.pc rfl Iff.rfl fun _ hno hmem ↦ hno (hsub hmem)⟩
  · contradiction

/-- A step of the pull loop broadcasts to the page if it is registered. -/
theorem sound_loopTo (h : Sound session s) {loop : PullLoop.State} (hw : Went session s.loop loop) :
    Sound session (loopTo s loop) := by
  have howed : ∀ conn ∈ (loopTo s loop).owed, conn ∈ s.connections := by
    intro conn hconn
    rw [loopTo] at hconn
    split at hconn
    · exact hconn
    · contradiction
  refine ⟨?_, fun row hrow ↦ ?_, fun hnone ↦ ?_, ⟨?_, fun conn hconn ↦ ?_⟩, h.connections,
    fun k hk ↦ ?_⟩
  · cases hw with
    | begins _ _ _ hfits => exact hfits
    | moves _ _ _ _ _ hfits => exact hfits
  · cases hw with
    | begins _ hrows _ _ => exact h.made row (hrows ▸ hrow)
    | moves E hrows hmade _ _ _ =>
      rw [show (loopTo s loop).loop.segments = _ from hrows] at hrow
      exact (List.mem_append.1 hrow).elim (h.made row) fun hnew ↦ (hmade row hnew).1
  · exact if_neg (by rw [show payloadOf loop.pc = none from hnone]; exact Bool.false_ne_true)
  · rw [loopTo]
    split
    · exact h.connections.1
    · exact List.nodup_nil
  · exact h.connections.2 conn (howed conn hconn)
  · obtain ⟨hlt, hregistered⟩ := h.page k hk
    exact ⟨hlt, hregistered.of_subset k.pc rfl Iff.rfl fun hno _ hmem ↦ hno (howed _ hmem)⟩

/-- A connection is numbered. -/
theorem Sound.accept (h : Sound session s) (hloop : t.loop = s.loop) (howed : t.owed = s.owed)
    (haccepted : t.accepted = s.accepted + 1) (hnodup : t.connections.Nodup)
    (hconnections : ∀ conn ∈ t.connections, conn ∈ s.connections ∨ conn = s.accepted)
    (hpage : ∀ k, t.socket = some k → k.conn < s.accepted + 1 ∧ Registered t k) :
    Sound session t := by
  refine ⟨hloop ▸ h.fits, hloop ▸ h.made, hloop ▸ howed ▸ h.free, ⟨howed ▸ h.owed.1, ?_⟩,
    ⟨hnodup, ?_⟩, haccepted ▸ hpage⟩
  · rw [howed, haccepted]
    exact fun conn hconn ↦ Nat.lt_succ_of_lt (h.owed.2 conn hconn)
  · rw [haccepted]
    intro conn hconn
    rcases hconnections conn hconn with hold | rfl
    · exact Nat.lt_succ_of_lt (h.connections.2 conn hold)
    · exact Nat.lt_succ_self _

/-- A step of the page, of its socket or of the pull loop. -/
theorem sound_step {a : Action} (h : Sound session s) (hwrites : writes s a = true)
    (ht : step limit session s a = some t) : Sound session t := by
  cases stepped_of_step ht with
  | transcribe => exact ⟨h.fits, h.made, h.free, h.owed, h.connections, h.page⟩
  | loop _ hcancel hrestart hl =>
    exact sound_loopTo h (went_of_writes h.fits hwrites hcancel hrestart hl)
  | send ht => exact sound_sendNext h ht
  | refused => exact h
  | connect =>
    refine h.accept rfl rfl rfl h.connections.1 (fun conn hconn ↦ Or.inl hconn) fun k hk ↦ ?_
    obtain rfl := Option.some.inj hk
    exact ⟨Nat.lt_succ_self _, fun hmem ↦ Nat.lt_irrefl _ (h.connections.2 _ hmem),
      fun hmem ↦ Nat.lt_irrefl _ (h.owed.2 _ hmem)⟩
  | handle hk ht => exact sound_handle h hk ht
  | receive hk =>
    obtain ⟨hlt, hregistered⟩ := h.page _ hk
    exact h.of_socket _ ⟨hlt, hregistered.of_subset _ rfl Iff.rfl fun _ hno ↦ hno⟩
  | drop => exact ⟨h.fits, h.made, h.free, h.owed, h.connections, fun k hk ↦ by contradiction⟩
  | join =>
    refine h.accept rfl rfl rfl ?_ (fun conn hconn ↦ ?_) fun k hk ↦ ?_
    · refine List.nodup_append.2 ⟨h.connections.1, List.nodup_singleton _,
        fun conn hold conn' hnew ↦ ?_⟩
      rw [List.mem_singleton.1 hnew]
      exact Nat.ne_of_lt (h.connections.2 conn hold)
    · exact (List.mem_append.1 hconn).imp_right List.mem_singleton.1
    · obtain ⟨hlt, hregistered⟩ := h.page k hk
      refine ⟨Nat.lt_succ_of_lt hlt, hregistered.of_subset k.pc rfl ?_ fun _ hno ↦ hno⟩
      simp [Nat.ne_of_lt hlt]
  | @leave conn hopen =>
    refine ⟨h.fits, h.made, h.free, h.owed,
      ⟨h.connections.1.erase conn, fun c hc ↦ h.connections.2 c (List.mem_of_mem_erase hc)⟩,
      fun k hk ↦ ?_⟩
    obtain ⟨hlt, hregistered⟩ := h.page k hk
    refine ⟨hlt, hregistered.of_subset k.pc rfl ?_ fun _ hno ↦ hno⟩
    have hne : k.conn ≠ conn := by
      rintro rfl
      rw [State.isOpen, show s.socket = some k from hk] at hopen
      simp at hopen
    exact List.mem_erase_of_ne hne

/-- Such a state holds nothing yet that could be wrong. -/
theorem sound_init (h : Initial session s) : Sound session s := by
  have hnotBusy : payloadOf s.loop.pc = none ∧ Fits session s.loop.pc := by
    rw [h.idle]
    exact ⟨rfl, .idle rfl⟩
  refine ⟨hnotBusy.2, h.made, fun _ ↦ h.owed, ?_, ?_, fun k hk ↦ ?_⟩
  · rw [h.owed]
    exact ⟨List.nodup_nil, by simp⟩
  · rcases h.page with ⟨hconnections, haccepted, -⟩ | ⟨hconnections, haccepted, -⟩ <;>
      rw [hconnections, haccepted] <;> simp
  · rcases h.page with ⟨-, -, hnone⟩ | ⟨hconnections, haccepted, hsocket, -⟩
    · rw [hnone] at hk
      contradiction
    · obtain rfl := Option.some.inj (hsocket.symm.trans hk)
      rw [haccepted]
      exact ⟨Nat.zero_lt_one, hconnections ▸ List.mem_singleton_self _, by simp [HandlerPc.rest]⟩

end Sound

/-! ### The lines in order -/

/-- The replay has its rows. -/
def HandlerPc.caughtUp : HandlerPc → Bool
  | .replaying _ => true
  | .receiving complete => complete
  | _ => false

/-- The line the broadcast under way has still to send to the page. -/
def State.owedLines (session : SessionId) (s : State) : List String :=
  if s.owesPage then processOf session s.loop.pc else []

/-- **The invariant.** Once the replay has its rows, the lines sent, those to be replayed and the
one to be broadcast are the stored lines and the one in process. Before, as long as nothing is
stored, at most the line in process is sent. -/
structure InOrder (session : SessionId) (s : State) : Prop where
  fresh : s.stored session = [] →
    (s.sent ++ s.owedLines session).Sublist (processOf session s.loop.pc)
  caughtUp : ∀ k, s.socket = some k → k.pc.caughtUp = true →
    s.sent ++ s.toReplay ++ s.owedLines session = s.stored session ++ processOf session s.loop.pc

section InOrder

variable {session : SessionId} {limit : ℕ} {s t : State} {k : Socket}

/-- A step that sends nothing to the page, and leaves the rows and the loop alone. -/
theorem InOrder.of_eq (h : InOrder session s) (hloop : t.loop = s.loop) (hsent : t.sent = s.sent)
    (hreplay : t.toReplay = s.toReplay) (howes : t.owesPage = s.owesPage)
    (hcaught : ∀ k, t.socket = some k → k.pc.caughtUp = true →
      ∃ k', s.socket = some k' ∧ k'.pc.caughtUp = true) : InOrder session t := by
  have howed : t.owedLines session = s.owedLines session := by
    rw [State.owedLines, howes, hloop, State.owedLines]
  have hstored : t.stored session = s.stored session := by
    rw [State.stored, hloop, State.stored]
  refine ⟨?_, fun k hk hcaughtUp ↦ ?_⟩
  · rw [hstored, hsent, howed, hloop]
    exact h.fresh
  · obtain ⟨k', hk', hcaughtUp'⟩ := hcaught k hk hcaughtUp
    rw [hstored, hsent, howed, hloop, hreplay]
    exact h.caughtUp k' hk' hcaughtUp'

/-- What the page was sent, with a connection. -/
theorem sent_eq (hk : s.socket = some k) : s.sent =
    s.lines.map Line.text ++ k.inbox.filterMap fun msg ↦ msg.line.map Line.text := by
  rw [State.sent, hk]
  rfl

theorem toReplay_eq (hk : s.socket = some k) : s.toReplay = textsOf k.pc.rest := by
  rw [State.toReplay, hk]
  rfl

theorem owesPage_eq (hk : s.socket = some k) : s.owesPage = decide (k.conn ∈ s.owed) := by
  rw [State.owesPage, hk]
  rfl

/-- A message is sent on the page's connection. -/
theorem sent_send {msg : Message} {pc : HandlerPc} (hk : s.socket = some k)
    (ht : t.socket = some (k.send msg pc)) (hlines : t.lines = s.lines) :
    t.sent = s.sent ++ (msg.line.map Line.text).toList := by
  rw [sent_eq ht, sent_eq hk, hlines, Socket.send, List.filterMap_append, List.append_assoc]
  cases h : msg.line.map Line.text <;> simp [h]

/-- The loop goes on. -/
theorem inOrder_loopTo (h : InOrder session s) (hsound : Sound session s) (howed : s.owed = [])
    {loop : PullLoop.State} (hw : Went session s.loop loop) : InOrder session (loopTo s loop) := by
  have hnothing : s.owedLines session = [] := by
    rw [State.owedLines, State.owesPage, howed]
    cases s.socket <;> rfl
  have hfresh := h.fresh
  have hcaughtUp := h.caughtUp
  rw [hnothing, List.append_nil] at hfresh hcaughtUp
  cases hw with
  | begins hidle hrows hpc _ =>
    have hstored : (loopTo s loop).stored session = s.stored session := by
      rw [State.stored, rowsOf, show (loopTo s loop).loop.segments = _ from hrows]
      rfl
    rw [hidle] at hfresh hcaughtUp
    refine ⟨fun hnil ↦ ?_, fun k hk hcaught ↦ ?_⟩
    · have hsent : s.sent = [] := List.sublist_nil.1 (hfresh (hstored ▸ hnil))
      rw [show (loopTo s loop).sent = s.sent from rfl, hsent, List.nil_append, State.owedLines]
      split
      · exact List.Sublist.refl _
      · exact List.nil_sublist _
    · -- The page's connection is registered, so the broadcast goes to it.
      have hregistered : k.conn ∈ s.connections := by
        have hregistered := (hsound.page k hk).2
        rw [Registered.eq_def] at hregistered
        split at hregistered
        · rename_i haccepting
          rw [haccepting] at hcaught
          contradiction
        · exact hregistered.1
      have howes : (loopTo s loop).owesPage = true := by
        rw [owesPage_eq (s := loopTo s loop) hk, loopTo, if_pos hpc]
        exact decide_eq_true hregistered
      rw [State.owedLines, if_pos howes, hstored]
      have hall := hcaughtUp k hk hcaught
      rw [List.append_nil] at hall
      rw [show (loopTo s loop).sent ++ (loopTo s loop).toReplay = s.stored session from hall]
  | moves E hrows hmade hlines hpc _ =>
    have howed' : (loopTo s loop).owedLines session = [] := by
      have hnone : (loopTo s loop).owed = [] :=
        if_neg (by rw [hpc]; exact Bool.false_ne_true)
      rw [State.owedLines, State.owesPage, hnone]
      cases (loopTo s loop).socket <;> rfl
    have hstored :
      (loopTo s loop).stored session = s.stored session ++ textsOf (E.map Prod.snd) := by
      rw [State.stored, rowsOf, show (loopTo s loop).loop.segments = _ from hrows, List.map_append,
        List.filter_append, textsOf_append, State.stored, rowsOf]
      congr 2
      refine List.filter_eq_self.2 fun segment hsegment ↦ ?_
      obtain ⟨row, hrow, rfl⟩ := List.mem_map.1 hsegment
      exact decide_eq_true (hmade row hrow).2
    rw [← hlines] at hfresh hcaughtUp
    refine ⟨fun hnil ↦ ?_, fun k hk hcaught ↦ ?_⟩
    · rw [hstored, List.append_eq_nil_iff] at hnil
      have hsub := hfresh hnil.1
      rw [hnil.2, List.nil_append] at hsub
      rw [howed', List.append_nil]
      exact hsub
    · rw [howed', List.append_nil, hstored, List.append_assoc]
      exact hcaughtUp k hk hcaught

/-- What is broadcast is the line in process. -/
theorem line_of_payload {pc : PullLoop.Pc} {payload : Dict} (hfits : Fits session pc)
    (hpayload : payloadOf pc = some payload) :
    ((lineOf payload).map Line.text).toList = processOf session pc := by
  cases hfits with
  | broadcasting seq p rest =>
    obtain rfl := Option.some.inj hpayload
    exact lineOf_asdict p
  | persisting deed rest hmade hsession => contradiction
  | idle h => cases pc <;> contradiction

/-- The page is sent the line in process. -/
theorem inOrder_sent (h : InOrder session s) (hsound : Sound session s)
    (hundisturbed : undisturbed session s .send = true) (hk : s.socket = some k) {payload : Dict}
    (hpayload : payloadOf s.loop.pc = some payload) (howed : s.owed = k.conn :: t.owed)
    (ht : t.socket = some (k.send (.transcript payload) k.pc)) (hlines : t.lines = s.lines)
    (hloop : t.loop = s.loop) : InOrder session t := by
  have hsent : t.sent = s.sent ++ processOf session s.loop.pc := by
    rw [sent_send hk ht hlines, ← line_of_payload hsound.fits hpayload]
    rfl
  have hreplay : t.toReplay = s.toReplay := by
    rw [toReplay_eq ht, toReplay_eq hk]
    rfl
  have howes : s.owedLines session = processOf session s.loop.pc := by
    refine if_pos ?_
    rw [owesPage_eq hk, howed]
    exact decide_eq_true List.mem_cons_self
  have hpaid : t.owedLines session = [] := by
    refine if_neg ?_
    rw [owesPage_eq ht]
    exact fun hmem ↦ (List.nodup_cons.1 (howed ▸ hsound.owed.1)).1 (of_decide_eq_true hmem)
  have hstored : t.stored session = s.stored session := by rw [State.stored, hloop, State.stored]
  refine ⟨fun hnil ↦ ?_, fun k' hk' hcaught ↦ ?_⟩
  · rw [hpaid, List.append_nil, hsent, ← howes, hloop]
    exact h.fresh (hstored ▸ hnil)
  · obtain rfl := Option.some.inj (ht.symm.trans hk')
    have hall := h.caughtUp k hk hcaught
    rw [howes] at hall
    rw [hpaid, List.append_nil, hsent, hreplay, hstored, hloop, ← hall]
    -- The broadcast does not overtake the replay.
    have hempty : processOf session s.loop.pc = [] ∨ s.toReplay = [] := by
      have hopen : s.isOpen k.conn = true := by
        rw [State.isOpen, hk]
        exact decide_eq_true rfl
      simpa [undisturbed, howed, hopen] using hundisturbed
    rcases hempty with hnil | hnil <;> simp [hnil]

/-- The broadcast sends on. -/
theorem inOrder_sendNext (h : InOrder session s) (hsound : Sound session s)
    (hundisturbed : undisturbed session s .send = true) (ht : sendNext s = some t) :
    InOrder session t := by
  rw [sendNext.eq_def] at ht
  split at ht
  · rename_i conn owed payload howed hpayload
    obtain rfl := Option.some.inj ht
    have hother : (∀ k, s.socket = some k → k.conn ≠ conn) →
        InOrder session { s with owed := owed, socket := s.socket } := by
      intro hne
      refine h.of_eq rfl rfl rfl ?_ fun k hk hcaught ↦ ⟨k, hk, hcaught⟩
      cases hk : s.socket with
      | none => simp [State.owesPage, hk]
      | some k => simp [State.owesPage, hk, howed, hne k hk]
    cases hk : s.socket with
    | none =>
      rw [hk] at hother
      exact hother fun k hk' ↦ by contradiction
    | some k =>
      by_cases hconn : k.conn = conn
      · subst hconn
        refine inOrder_sent h hsound hundisturbed hk hpayload howed ?_ rfl rfl
        exact congrArg some (if_pos rfl)
      · rw [hk] at hother
        rw [Option.map_some, if_neg hconn]
        refine hother fun k' hk' ↦ ?_
        obtain rfl := Option.some.inj hk'
        exact hconn
  · contradiction

/-- The replay reads its rows. -/
theorem inOrder_select (h : InOrder session s)
    (hk : s.socket = some k) (hpc : k.pc = .selecting)
    (hundisturbed : undisturbed session s (.handle false) = true) :
    InOrder session
      { s with socket := some { k with pc := .replaying (rowsOf session s.loop) } } := by
  obtain ⟨hstored, hprocess⟩ : (s.stored session = [] ∨ s.sent = []) ∧
      (processOf session s.loop.pc = [] ∨ s.owesPage = true ∨ s.sent ≠ []) := by
    obtain ⟨conn, pc, inbox⟩ := k
    subst hpc
    simpa [undisturbed, hk, or_assoc] using hundisturbed
  have hsent : State.sent
    { s with socket := some { k with pc := .replaying (rowsOf session s.loop) } } =
      s.sent := by
    rw [sent_eq hk]
    rfl
  have howes : State.owedLines session
      { s with socket := some { k with pc := .replaying (rowsOf session s.loop) } } =
        s.owedLines session := by
    rw [State.owedLines, State.owedLines, owesPage_eq hk]
    rfl
  refine ⟨?_, fun k' hk' _ ↦ ?_⟩
  · rw [hsent, howes]
    exact h.fresh
  · rw [hsent, howes]
    show s.sent ++ s.stored session ++ s.owedLines session = s.stored session ++ _
    rcases hstored with hnil | hnil
    · -- Nothing is stored, and the line in process is sent or owed.
      have hsub := h.fresh hnil
      rw [hnil, List.append_nil, List.nil_append]
      refine hsub.eq_of_length_le ?_
      rcases hprocess with hnone | howed | hsome
      · rw [hnone]
        exact Nat.zero_le _
      · rw [State.owedLines, if_pos howed, List.length_append]
        exact Nat.le_add_left _ _
      · rw [List.length_append]
        exact ((length_processOf _).trans (List.length_pos_of_ne_nil hsome)).trans
          (Nat.le_add_right _ _)
    · -- The line in process is not sent, so it is owed.
      rw [hnil, List.nil_append]
      congr 1
      rcases hprocess with hnone | howed | hsome
      · rw [State.owedLines, hnone, ite_self]
      · exact if_pos howed
      · exact absurd hnil hsome

/-- The replay sends a row. -/
theorem inOrder_replay (h : InOrder session s) (hsound : Sound session s) (hk : s.socket = some k)
    {segment : TranscriptSegment} {rest : List TranscriptSegment}
    (hpc : k.pc = .replaying (segment :: rest)) : InOrder session { s with
      socket := some (k.send (.transcript (replayPayload segment)) (.replaying rest)) } := by
  obtain ⟨t, ht⟩ : ∃ t, t = { s with
      socket := some (k.send (.transcript (replayPayload segment)) (.replaying rest)) } := ⟨_, rfl⟩
  have htsocket :
    t.socket = some (k.send (.transcript (replayPayload segment)) (.replaying rest)) := by
    rw [ht]
  have hmade : Made segment := by
    have hregistered := (hsound.page k hk).2
    rw [Registered.eq_def, hpc] at hregistered
    exact hregistered.2 segment List.mem_cons_self
  have hsent : t.sent = s.sent ++ (textOf segment.text).toList := by
    rw [sent_send hk htsocket (by rw [ht]), ← lineOf_replayPayload hmade]
    rfl
  have hreplay : s.toReplay = (textOf segment.text).toList ++ t.toReplay := by
    rw [toReplay_eq hk, hpc, toReplay_eq htsocket]
    exact textsOf_cons segment rest
  have howes : t.owedLines session = s.owedLines session := by
    rw [State.owedLines, owesPage_eq htsocket, State.owedLines, owesPage_eq hk, ht]
    rfl
  have hloop : t.loop = s.loop := by rw [ht]
  have hstored : t.stored session = s.stored session := by rw [State.stored, hloop, State.stored]
  have hall : t.sent ++ t.toReplay ++ t.owedLines session =
      t.stored session ++ processOf session t.loop.pc := by
    rw [hsent, howes, hstored, hloop, ← h.caughtUp k hk (by rw [hpc]; rfl), hreplay]
    simp only [List.append_assoc]
  rw [← ht]
  refine ⟨fun hnil ↦ ?_, fun k' hk' _ ↦ hall⟩
  rw [hnil, List.nil_append] at hall
  rw [← hall]
  exact (List.sublist_append_left _ _).append_right _

/-- The replay takes its rows after the connection is registered; undisturbed, no line is stored or
broadcast in between. -/
theorem inOrder_handle (h : InOrder session s) (hsound : Sound session s) (hk : s.socket = some k)
    {raised : Bool} (hundisturbed : undisturbed session s (.handle raised) = true)
    (ht : websocketEndpoint session s k raised = some t) : InOrder session t := by
  -- The handler only moves, or sends what is no line.
  have hmoved : ∀ (u : State) (k' : Socket), u.socket = some k' → u.lines = s.lines →
      u.loop = s.loop → u.owed = s.owed → k'.conn = k.conn →
      (k'.inbox = k.inbox ∨ ∃ msg : Message, msg.line = none ∧ k'.inbox = k.inbox ++ [msg]) →
      k'.pc.rest = k.pc.rest → (k'.pc.caughtUp = true → k.pc.caughtUp = true) →
        InOrder session u := by
    intro u k' hu hlines hloop howed hconn hinbox hrest hcaught
    refine h.of_eq hloop ?_ ?_ ?_ fun k'' hk'' hcaught' ↦ ⟨k, hk, hcaught ?_⟩
    · rw [sent_eq hu, sent_eq hk, hlines]
      rcases hinbox with hsame | ⟨msg, hmsg, hinbox⟩
      · rw [hsame]
      · rw [hinbox, List.filterMap_append]
        simp [hmsg]
    · rw [toReplay_eq hu, toReplay_eq hk, hrest]
    · rw [owesPage_eq hu, owesPage_eq hk, hconn, howed]
    · obtain rfl := Option.some.inj (hu.symm.trans hk'')
      exact hcaught'
  rw [websocketEndpoint.eq_def] at ht
  split at ht <;> rename_i hpc
  · obtain rfl := Option.some.inj ht
    exact hmoved _ _ rfl rfl rfl rfl rfl (Or.inr ⟨_, rfl, rfl⟩) (by rw [hpc]; rfl) (fun h ↦ by
      contradiction)
  · obtain rfl := Option.some.inj ht
    exact hmoved _ _ rfl rfl rfl rfl rfl (Or.inl rfl) (by rw [hpc]; rfl) (fun h ↦ by contradiction)
  · split at ht <;> obtain rfl := Option.some.inj ht
    · exact hmoved _ _ rfl rfl rfl rfl rfl (Or.inl rfl) (by rw [hpc]; rfl) (fun h ↦ by
        contradiction)
    · rename_i hok
      obtain rfl : raised = false := by simpa using hok
      exact inOrder_select h hk hpc hundisturbed
  · obtain rfl := Option.some.inj ht
    exact hmoved _ _ rfl rfl rfl rfl rfl (Or.inr ⟨_, rfl, rfl⟩) (by rw [hpc]; rfl) fun _ ↦ by
      rw [hpc]; rfl
  · obtain rfl := Option.some.inj ht
    exact inOrder_replay h hsound hk hpc
  · contradiction

/-- The page receives a message. -/
theorem inOrder_receive (h : InOrder session s) (hk : s.socket = some k) {msg : Message}
    {inbox : List Message} (hinbox : k.inbox = msg :: inbox) : InOrder session { s with
      socket := some { k with inbox := inbox }, lines := s.lines ++ msg.line.toList } := by
  refine h.of_eq rfl ?_ ?_ ?_ fun k' hk' hcaught ↦ ⟨k, hk, ?_⟩
  · rw [sent_eq hk, hinbox, State.sent, List.map_append, List.append_assoc]
    cases hline : msg.line <;> simp [hline]
  · rw [toReplay_eq hk, State.toReplay]
    rfl
  · rw [owesPage_eq hk, State.owesPage]
    rfl
  · obtain rfl := Option.some.inj hk'
    exact hcaught

/-- The page's connection closes, and what was on its way is lost. -/
theorem inOrder_drop (h : InOrder session s) (hk : s.socket = some k) :
    InOrder session { s with socket := none } := by
  refine ⟨fun hnil ↦ ?_, fun k' hk' ↦ by contradiction⟩
  have hlost : State.sent { s with socket := none } = s.lines.map Line.text := by
    rw [State.sent]
    exact List.append_nil _
  have hsub := h.fresh hnil
  rw [sent_eq hk, List.append_assoc] at hsub
  have howes : State.owedLines session { s with socket := none } = [] := rfl
  rw [hlost, howes, List.append_nil]
  exact (List.sublist_append_left _ _).trans hsub

/-- **One step.** -/
theorem inOrder_step {a : Action} (h : InOrder session s) (hsound : Sound session s)
    (hwrites : writes s a = true) (hundisturbed : undisturbed session s a = true)
    (ht : step limit session s a = some t) : InOrder session t := by
  cases stepped_of_step ht with
  | transcribe => exact h.of_eq rfl rfl rfl rfl fun k hk hcaught ↦ ⟨k, hk, hcaught⟩
  | loop howed hcancel hrestart hl =>
    exact inOrder_loopTo h hsound howed (went_of_writes hsound.fits hwrites hcancel hrestart hl)
  | send ht => exact inOrder_sendNext h hsound hundisturbed ht
  | refused => exact h
  | connect hnone =>
    refine h.of_eq rfl ?_ ?_ ?_ fun k hk hcaught ↦ ?_
    · rw [State.sent, State.sent, hnone]
      rfl
    · rw [State.toReplay, State.toReplay, hnone]
      rfl
    · rw [State.owesPage, State.owesPage, hnone]
      exact decide_eq_false fun hmem ↦ Nat.lt_irrefl _ (hsound.owed.2 _ hmem)
    · obtain rfl := Option.some.inj hk
      contradiction
  | handle hk ht => exact inOrder_handle h hsound hk hundisturbed ht
  | receive hk hinbox => exact inOrder_receive h hk hinbox
  | drop hk => exact inOrder_drop h hk
  | join => exact h.of_eq rfl rfl rfl rfl fun k hk hcaught ↦ ⟨k, hk, hcaught⟩
  | leave => exact h.of_eq rfl rfl rfl rfl fun k hk hcaught ↦ ⟨k, hk, hcaught⟩

/-- Nothing was sent before the session, or the page is not connected. -/
theorem inOrder_init (h : Initial session s) : InOrder session s := by
  have hprocess : processOf session s.loop.pc = [] := by
    rw [h.idle]
    rfl
  have hsent : s.sent = [] := by
    rw [State.sent, h.lines]
    rcases h.page with ⟨-, -, hnone⟩ | ⟨-, -, hsocket, -⟩
    · rw [hnone]
      rfl
    · rw [hsocket]
      rfl
  have howed : s.owedLines session = [] := by
    rw [State.owedLines, hprocess, ite_self]
  refine ⟨fun _ ↦ ?_, fun k hk hcaught ↦ ?_⟩
  · rw [hsent, howed]
    exact List.nil_sublist _
  · rw [hsent, howed, hprocess]
    rcases h.page with ⟨-, -, hnone⟩ | ⟨-, -, hsocket, hrows⟩
    · rw [hnone] at hk
      contradiction
    · rw [State.toReplay, hsocket, State.stored, hrows]
      rfl

end InOrder

/-- **The page has each line once, in order**, whenever the replay of its connection is complete and
nothing is in process, in every run whose commits succeed and whose replays and broadcasts keep out
of each other's way. -/
theorem each_line_once {limit : ℕ} {session : SessionId} {s : State}
    (h : (system limit session).Reachable
      (fun s a ↦ writes s a = true ∧ undisturbed session s a = true) s) (hquiet : Quiet s) :
    s.lines.map Line.text = textsOf (rowsOf session s.loop) := by
  have hinv : Sound session s ∧ InOrder session s := by
    obtain ⟨s₀, as, hs₀, hrun⟩ := h
    exact hrun.invariant (I := fun s ↦ Sound session s ∧ InOrder session s)
      (fun hs hG ht ↦ ⟨sound_step hs.1 hG.1 ht, inOrder_step hs.2 hs.1 hG.1 hG.2 ht⟩)
      ⟨sound_init hs₀, inOrder_init hs₀⟩
  obtain ⟨k, hk, hcomplete, hinbox⟩ := hquiet.replayed
  obtain ⟨hcaught, hrest⟩ : k.pc.caughtUp = true ∧ k.pc.rest = [] := by
    cases hpc : k.pc with
    | receiving complete =>
      rw [hpc] at hcomplete
      exact ⟨hcomplete, rfl⟩
    | _ =>
      rw [hpc] at hcomplete
      contradiction
  have hall := hinv.2.caughtUp k hk hcaught
  have hprocess : processOf session s.loop.pc = [] := processOf_of_not_busy hquiet.idle
  rw [sent_eq hk, hinbox, toReplay_eq hk, hrest, State.owedLines, hprocess, ite_self,
    List.append_nil, List.append_nil] at hall
  exact (List.append_nil _).symm.trans ((List.append_nil _).symm.trans hall)

/-! ### A reconnect -/

def easter : SessionId := ⟨"20260405-100000", by decide⟩

def amen : TranscriptPayload := ⟨"Amen.", true, 1, "2026-04-05T10:00:30", .live⟩

/-- A transcript is published, broadcast to nobody and stored. -/
def persisted : List Action :=
  [.transcribe amen, .loop (.fetched [0] .ok), .loop (.resume true .ok), .loop (.resume true .ok)]

/-- The page connects, and receives the replay of one row. -/
def replayed : List Action :=
  .connect :: List.replicate 5 (.handle false) ++ List.replicate 3 .receive

theorem initial_default : Initial easter {} :=
  ⟨rfl, rfl, by simp, rfl, rfl, Or.inl ⟨rfl, rfl, rfl⟩⟩

theorem quiet_of_test {s : State}
    (h : s.socket.any (fun k ↦ k.pc.complete && k.inbox.isEmpty) = true)
    (hidle : busy s.loop.pc = false) : Quiet s := by
  obtain ⟨k, hk, htest⟩ := (Option.any_eq_true _ _).1 h
  obtain ⟨hcomplete, hinbox⟩ := Bool.and_eq_true_iff.1 htest
  exact ⟨⟨k, hk, hcomplete, List.isEmpty_iff.1 hinbox⟩, hidle⟩

/-- A row is replayed. -/
theorem each_line_once_amen :
    ∃ s, (system 50 easter).Reachable
        (fun s a ↦ writes s a = true ∧ undisturbed easter s a = true) s ∧ Quiet s ∧
      s.lines.map Line.text = ["Amen."] := by
  obtain ⟨s, hs, htest⟩ := TransitionSystem.exists_reachable_of_exec
    (M := system 50 easter) (G := fun s a ↦ writes s a = true ∧ undisturbed easter s a = true) {}
    (persisted ++ replayed)
    (fun s ↦ s.socket.any (fun k ↦ k.pc.complete && k.inbox.isEmpty) ∧ busy s.loop.pc = false ∧
      textsOf (rowsOf easter s.loop) = ["Amen."]) initial_default (by decide +kernel)
  obtain ⟨hsocket, hidle, hrows⟩ := of_decide_eq_true htest
  have hquiet : Quiet s := quiet_of_test hsocket hidle
  exact ⟨s, hs, hquiet, (each_line_once hs hquiet).trans hrows⟩

/-- The page connects, loses its connection, and reconnects: it has the line twice. -/
theorem reconnect_repeats :
    ∃ s, (system 50 easter).Reachable (fun s a ↦ writes s a = true) s ∧ Quiet s ∧
      textsOf (rowsOf easter s.loop) = ["Amen."] ∧ s.lines.map Line.text = ["Amen.", "Amen."] := by
  obtain ⟨s, hs, htest⟩ := TransitionSystem.exists_reachable_of_exec
    (M := system 50 easter) (G := fun s a ↦ writes s a = true) {}
    (persisted ++ replayed ++ .drop :: replayed)
    (fun s ↦ s.socket.any (fun k ↦ k.pc.complete && k.inbox.isEmpty) ∧ busy s.loop.pc = false ∧
      textsOf (rowsOf easter s.loop) = ["Amen."] ∧ s.lines.map Line.text = ["Amen.", "Amen."])
    initial_default (by decide +kernel)
  obtain ⟨hsocket, hidle, hrows, hlines⟩ := of_decide_eq_true htest
  exact ⟨s, hs, quiet_of_test hsocket hidle, hrows, hlines⟩

end LiveSTT.Viewers
