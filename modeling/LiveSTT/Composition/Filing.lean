import LiveSTT.AudioProducer.Switch
import LiveSTT.Composition.RenameRace
import LiveSTT.Gateway.PullLoop
import LiveSTT.SttProvider.Transcript

/-!
# Which session a transcript is filed under

audio-producer announces sessions on one channel, stt-provider publishes their transcripts on
another, and a transcript does not say which session it is of. api-gateway files it under the
session that it takes to be active when the transcript has been broadcast. So an acked transcript is
stored once, under that session, which is one that audio-producer started, or not at all when none
is active (`filed_once`); it is under its own session exactly if that was the active one. What the
transcriber makes of the end of a session comes after the lifecycle event of its stop, and can be
lost (`tail_not_filed`).

The invariant is in two parts: what api-gateway takes to be active was started by audio-producer
(`Named`), whichever way it has come to know of it, by an event or by the KV entry, which a rename
may have written; and the pull loop files what it is given under that session, each message once
(`Tracked`). Nothing ties the session of a transcript to the active one: the payload has no session
id.
-/

namespace LiveSTT.Filing

open AudioProducer (SessionId KvEntry)
open SttProvider (TranscriptPayload)
open PullLoop (Deed segmentOf)

/-! ### The composed system -/

/-- A transcript on the stream. `session` is the session whose audio it was made from; the payload
does not say. -/
structure Transcript where
  session : SessionId
  payload : TranscriptPayload

structure State where
  /-- audio-producer, and api-gateway as far as sessions go. -/
  sessions : RenameRace.State := {}
  transcripts : List Transcript := []
  loop : PullLoop.State := {}

/-- What `_pull_loop` reads. -/
def State.stream (s : State) : List (Option Json) :=
  s.transcripts.map fun t ↦ some (.obj t.payload.asdict)

/-- A chunk of the session has been stored on the audio stream. -/
def hasAudio (producer : AudioProducer.State) (id : SessionId) : Bool :=
  producer.broker.audio.any fun
    | .live id' _ => id' = id
    | .backfill id' _ _ => id' = id
    | _ => false

inductive Action
  | session (a : RenameRace.Action)
  /-- stt-provider publishes a final transcript, at any time after the audio it was made from. -/
  | transcribe (t : Transcript)
  | loop (a : PullLoop.Action)
  /-- api-gateway dies and starts again; a commit under way may have taken effect. -/
  | restart (committed : Bool)

def step (below : Bytes → Bool) (s : State) : Action → Option State
  | .session .restart => none
  | .session a => (RenameRace.step below s.sessions a).map fun t ↦ { s with sessions := t }
  | .transcribe t =>
    if t.payload.isFinal ∧ hasAudio s.sessions.producer t.session then
      some { s with transcripts := s.transcripts ++ [t] }
    else none
  | .loop (.restart _) => none
  | .loop a => (PullLoop.step s.stream s.sessions.gateway.activeSessionId s.loop a).map fun l ↦
      { s with loop := l }
  | .restart committed =>
    (RenameRace.step below s.sessions .restart).bind fun t ↦
      (PullLoop.step s.stream s.sessions.gateway.activeSessionId s.loop (.restart committed)).map
        fun l ↦ { s with sessions := t, loop := l }

def system (below : Bytes → Bool) : TransitionSystem State Action where
  init s := s = {}
  step := step below

/-- Every database write succeeds, and no transcript is delivered twice. -/
def succeeds (s : State) : Action → Bool
  | .session (.sessionEvent _ raised) => !raised
  | .loop a => a.succeeds s.loop
  | _ => true

/-! ### What api-gateway takes to be active was started -/

/-- api-gateway has heard of no session that audio-producer did not start. -/
structure Named (s : RenameRace.State) : Prop where
  claimed : AudioProducer.Claimed s.producer
  announced : ∀ id ∈ s.producer.announced, id ∈ s.producer.started
  held : ∀ e ∈ s.gateway.held, e.sessionId ∈ s.producer.started
  recovering : ∀ e, s.gateway.connection = .recovering (some e) → e.sessionId ∈ s.producer.started
  active : ∀ x, s.gateway.activeSessionId = some x → ∃ id ∈ s.producer.started, x = id.val

section Named

variable {below : Bytes → Bool} {s t : RenameRace.State}

theorem Named.current (h : Named s) {e : KvEntry} (he : s.current = some e) :
    e.sessionId ∈ s.producer.started :=
  h.claimed.entry e.sessionId (by
    rw [AudioProducer.State.entryId, show s.producer.broker.current = some e from he]
    rfl)

/-- A request of api-gateway goes on. -/
theorem Named.of_gateway (h : Named s) {gateway : SessionAdmin.State}
    (hheld : ∀ e ∈ gateway.held, e ∈ s.gateway.held ∨ s.current = some e)
    (hserves : SessionAdmin.Serves s.gateway gateway) : Named { s with gateway := gateway } := by
  obtain ⟨⟨hactive, -⟩, hconnection⟩ := hserves
  refine ⟨h.claimed, h.announced, fun e he ↦ (hheld e he).elim (h.held e) h.current, ?_, ?_⟩
  · rw [show ({ s with gateway := gateway } : RenameRace.State).gateway = gateway from rfl,
      hconnection]
    exact h.recovering
  · rw [show ({ s with gateway := gateway } : RenameRace.State).gateway = gateway from rfl, hactive]
    exact h.active

/-- An event is taken off, handled or not. -/
theorem Named.seen (h : Named s) (seen : ℕ) :
    Named { s with gateway := { s.gateway with seen := seen } } :=
  ⟨h.claimed, h.announced, h.held, h.recovering, h.active⟩

/-- What audio-producer announces it has started before. -/
theorem named_producer (h : Named s) {a : AudioProducer.Action} {p : AudioProducer.State}
    (hp : AudioProducer.step below s.producer a = some p) : Named { s with producer := p } := by
  have hclaimed : AudioProducer.Claimed p := AudioProducer.claimed_step h.claimed hp
  have hgrown : ∀ id ∈ s.producer.started, id ∈ p.started :=
    (AudioProducer.grown_step hp).started.subset
  refine ⟨hclaimed, fun id hid ↦ ?_, fun e he ↦ hgrown _ (h.held e he),
    fun e he ↦ hgrown _ (h.recovering e he), fun x hx ↦ ?_⟩
  · rcases AudioProducer.announced_step hp id hid with hold | hopened
    · exact hgrown id (h.announced id hold)
    · exact hclaimed.opened id hopened
  · obtain ⟨id, hid, hval⟩ := h.active x hx
    exact ⟨id, hgrown id hid, hval⟩

/-- The entry is written by a rename that holds one. -/
theorem Named.setCurrent (h : Named s) {current : Option KvEntry}
    (hcurrent : ∀ e, current = some e → e.sessionId ∈ s.producer.started) :
    Named { s with producer := s.setCurrent current } := by
  have hopened : ∀ id, (s.setCurrent current).Opened id → s.producer.Opened id :=
    AudioProducer.opened_of_eq (fun _ hid ↦ hid) (fun _ hid ↦ hid) rfl rfl
  refine ⟨⟨fun id ho ↦ h.claimed.opened id (hopened id ho), fun id hid ↦ ?_, fun id hid ↦ ?_⟩,
    h.announced, h.held, h.recovering, h.active⟩
  · obtain ⟨e, he, rfl⟩ := Option.map_eq_some_iff.1 hid
    exact hcurrent e he
  · obtain ⟨hmem, htwice⟩ := h.claimed.putting id hid
    exact ⟨hmem, fun ho ↦ htwice (hopened id ho)⟩

/-- A rename writes the entry back with the session it has read there. -/
theorem named_resume (h : Named s) {i : ℕ} {q : SessionAdmin.Request}
    (hq : s.gateway.requests[i]? = some q) {db : SessionAdmin.DbResult} {r : Reply} : Named {
      producer := s.setCurrent (SessionAdmin.entryAfter s.current q r)
      gateway := SessionAdmin.resume
        { s.gateway with requests := s.gateway.requests.eraseIdx i } s.current q db r } := by
  have hgateway : Named ⟨s.producer, SessionAdmin.resume
      { s.gateway with requests := s.gateway.requests.eraseIdx i } s.current q db r⟩ := by
    refine h.of_gateway (fun e he ↦ ?_) ?_
    · exact (SessionAdmin.held_resume he).imp_left (SessionAdmin.held_eraseIdx i e)
    · have hserves := SessionAdmin.serves_resume
        { s.gateway with requests := s.gateway.requests.eraseIdx i } s.current q db r
      exact ⟨hserves.remembers, hserves.connection⟩
  refine hgateway.setCurrent fun e he ↦ ?_
  rcases SessionAdmin.entryAfter_eq hq r with hsame | ⟨held, hheld, label, hput⟩
  · exact h.current (hsame.symm.trans he)
  · obtain rfl := Option.some.inj (hput.symm.trans he)
    exact h.held held hheld

/-- The event in hand is one that was announced, and so is the session it makes active. -/
theorem named_sessionEvent (h : Named s) {e : AudioProducer.Lifecycle}
    (he : s.producer.broker.events[s.gateway.seen]? = some e) {raised : Bool} :
    Named { s with gateway :=
      SessionAdmin.handleSessionDb { s.gateway with seen := s.gateway.seen + 1 } e raised } := by
  have hseen : Named { s with gateway := { s.gateway with seen := s.gateway.seen + 1 } } := h.seen _
  cases raised with
  | true =>
    cases e with
    | started id startedAt label => exact hseen
    | stopped id stoppedAt => cases id <;> exact hseen
  | false =>
    cases e with
    | started id startedAt label =>
      refine ⟨h.claimed, h.announced, h.held, h.recovering, fun x hx ↦ ⟨id, h.announced id ?_, ?_⟩⟩
      · exact List.mem_filterMap.2 ⟨_, List.mem_of_getElem? he, rfl⟩
      · exact (Option.some.inj hx).symm
    | stopped id stoppedAt =>
      cases id with
      | none => exact hseen
      | some id => exact ⟨h.claimed, h.announced, h.held, h.recovering, fun x hx ↦ by contradiction⟩

/-- The session recovered from the entry was started. -/
theorem named_connect (h : Named s) {r : Reply} :
    Named { s with gateway := SessionAdmin.kvConnect s.gateway s.current r } := by
  have hheld : (SessionAdmin.kvConnect s.gateway s.current r).held = s.gateway.held :=
    SessionAdmin.held_kvConnect r
  refine ⟨h.claimed, h.announced, hheld ▸ h.held, fun e he ↦ ?_, fun x hx ↦ ?_⟩
  · simp only [SessionAdmin.kvConnect] at he
    split at he
    · have hread := SessionAdmin.Connection.recovering.inj he
      split at hread
      · contradiction
      · exact h.current hread
    · contradiction
    · exact h.recovering e he
  · simp only [SessionAdmin.kvConnect] at hx
    split at hx
    · exact h.active x hx
    · rename_i entry hentry
      cases hrefused : SessionAdmin.refusedFor entry with
      | none =>
        rw [hrefused] at hx
        exact h.active x hx
      | some id =>
        rw [hrefused] at hx
        refine ⟨id, ?_, (Option.some.inj hx).symm⟩
        cases entry with
        | none => contradiction
        | some e =>
          rw [SessionAdmin.refusedFor] at hrefused
          split at hrefused
          · obtain rfl := Option.some.inj hrefused
            exact h.recovering e hentry
          · contradiction
    · exact h.active x hx

/-- The steps of both services together. -/
theorem named_step {a : RenameRace.Action} (h : Named s) (ht : RenameRace.step below s a = some t) :
    Named t := by
  cases a with
  | producer a =>
    obtain ⟨p, hp, rfl⟩ := Option.map_eq_some_iff.1 ht
    exact named_producer h hp
  | rename sessionId body =>
    obtain rfl := Option.some.inj ht
    refine h.of_gateway (fun e he ↦ Or.inl ?_) (SessionAdmin.serves_renameSession _ _ _)
    rwa [SessionAdmin.held_renameSession] at he
  | start label r =>
    obtain rfl := Option.some.inj ht
    refine h.of_gateway (fun e he ↦ Or.inl ?_) (SessionAdmin.serves_sessionStart _ _ _ _)
    rwa [SessionAdmin.held_sessionStart] at he
  | resume i db r =>
    obtain ⟨q, hq, rfl⟩ := Option.map_eq_some_iff.1 ht
    exact named_resume h hq
  | sessionEvent delivered raised =>
    obtain ⟨e, he, rfl⟩ := Option.map_eq_some_iff.1 ht
    cases delivered with
    | true => exact named_sessionEvent h he
    | false => exact h.seen _
  | connect r =>
    obtain rfl := Option.some.inj ht
    exact named_connect h
  | restart =>
    obtain rfl := Option.some.inj ht
    exact ⟨h.claimed, h.announced, by simp [SessionAdmin.State.held], fun e he ↦ by contradiction,
      fun x hx ↦ by contradiction⟩

end Named

/-! ### The invariant -/

structure Tracked (s : State) : Prop where
  named : Named s.sessions
  filed : PullLoop.Filed s.stream s.loop
  finals : ∀ t ∈ s.transcripts, t.payload.isFinal = true
  active : ∀ deed ∈ s.loop.deeds ++ s.loop.pc.deeds, ∀ x, deed.active = some x →
    ∃ id ∈ s.sessions.producer.started, x = id.val

section Steps

variable {below : Bytes → Bool} {s t : State}

/-- Sessions go on being started. -/
theorem started_step {a : RenameRace.Action} {u v : RenameRace.State}
    (hv : RenameRace.step below u a = some v) : u.producer.started ⊆ v.producer.started := by
  cases a with
  | producer a =>
    obtain ⟨p, hp, rfl⟩ := Option.map_eq_some_iff.1 hv
    exact (AudioProducer.grown_step hp).started.subset
  | resume i db r =>
    obtain ⟨q, -, rfl⟩ := Option.map_eq_some_iff.1 hv
    exact List.Subset.refl _
  | sessionEvent delivered raised =>
    obtain ⟨e, -, rfl⟩ := Option.map_eq_some_iff.1 hv
    exact List.Subset.refl _
  | _ =>
    obtain rfl := Option.some.inj hv
    exact List.Subset.refl _

theorem tracked_session (h : Tracked s) {a : RenameRace.Action} {v : RenameRace.State}
    (hv : RenameRace.step below s.sessions a = some v) : Tracked { s with sessions := v } := by
  refine ⟨named_step h.named hv, h.filed, h.finals, fun deed hdeed x hx ↦ ?_⟩
  obtain ⟨id, hid, hval⟩ := h.active deed hdeed x hx
  exact ⟨id, started_step hv hid, hval⟩

/-- The pull loop files under the session that is active, which was started. -/
theorem tracked_loop (h : Tracked s) {a : PullLoop.Action} {l : PullLoop.State}
    (hsucceeds : a.succeeds s.loop = true)
    (hl : PullLoop.step s.stream s.sessions.gateway.activeSessionId s.loop a = some l) :
    Tracked { s with loop := l } := by
  refine ⟨h.named, PullLoop.filed_step h.filed hsucceeds hl, h.finals, fun deed hdeed x hx ↦ ?_⟩
  rcases PullLoop.deeds_step hl deed hdeed with hold | hread
  · exact h.active deed hold x hx
  · exact h.named.active x (hread.symm.trans hx)

/-- A step of the sessions, of the stream or of the pull loop. -/
theorem tracked_step {a : Action} (h : Tracked s) (hsucceeds : succeeds s a = true)
    (ht : step below s a = some t) : Tracked t := by
  cases a with
  | session a =>
    rw [step.eq_def] at ht
    split at ht
    · contradiction
    · rename_i heq
      obtain rfl := Action.session.inj heq
      obtain ⟨v, hv, rfl⟩ := Option.map_eq_some_iff.1 ht
      exact tracked_session h hv
    all_goals contradiction
  | transcribe transcript =>
    rw [step] at ht
    split at ht
    · rename_i hfinal
      obtain rfl := Option.some.inj ht
      refine ⟨h.named, ?_, fun u hu ↦ ?_, h.active⟩
      · have happend := h.filed.append [some (.obj transcript.payload.asdict)]
        rwa [show s.stream ++ [some (.obj transcript.payload.asdict)] =
          State.stream { s with transcripts := s.transcripts ++ [transcript] } by
            simp [State.stream]]
          at happend
      · rcases List.mem_append.1 hu with hold | hnew
        · exact h.finals u hold
        · rw [List.mem_singleton.1 hnew]
          exact hfinal.1
    · contradiction
  | loop a =>
    rw [step.eq_def] at ht
    split at ht <;> try contradiction
    rename_i heq
    obtain rfl := Action.loop.inj heq
    obtain ⟨l, hl, rfl⟩ := Option.map_eq_some_iff.1 ht
    exact tracked_loop h hsucceeds hl
  | restart committed =>
    rw [step] at ht
    obtain ⟨v, hv, hrest⟩ := Option.bind_eq_some_iff.1 ht
    obtain ⟨l, hl, rfl⟩ := Option.map_eq_some_iff.1 hrest
    exact tracked_session (tracked_loop h rfl hl) hv

/-- In every run whose calls succeed. -/
theorem tracked_inductive (below : Bytes → Bool) :
    (system below).Inductive (fun s a ↦ succeeds s a = true) Tracked where
  init s hs := by
    obtain rfl : s = {} := hs
    refine ⟨⟨(AudioProducer.claimed_inductive below TransitionSystem.always).init _ rfl, ?_, ?_, ?_,
      ?_⟩, PullLoop.filed_init, by simp, by simp [PullLoop.Pc.deeds]⟩
    · exact fun id hid ↦ by contradiction
    · exact fun e he ↦ by contradiction
    · exact fun e he ↦ by contradiction
    · exact fun x hx ↦ by contradiction
  step h hG ht := tracked_step h hG ht

end Steps

/-- The rows of the `seq`-th transcript. -/
def State.rowsOf (s : State) (seq : ℕ) : List PullLoop.TranscriptSegment :=
  (s.loop.segments.filter fun row ↦ row.1 = seq).map Prod.snd

/-- **An acked transcript is filed once**, under the session that is active when its broadcast is
over, in every run whose database writes succeed and in which no transcript is delivered twice. That
is a session audio-producer started, and no row is stored if there is none; so the one row is under
the session of the audio exactly if that is the active one. -/
theorem filed_once {below : Bytes → Bool} {s : State}
    (h : (system below).Reachable (fun s a ↦ succeeds s a = true) s) {seq : ℕ} {t : Transcript}
    (ht : s.transcripts[seq]? = some t) (hacked : seq ∈ s.loop.acked) :
    ∃ active : Option SessionId,
      s.loop.deeds.filter (fun deed ↦ deed.seq = seq) =
        [⟨seq, .obj t.payload.asdict, active.map Subtype.val⟩] ∧
      (∀ id ∈ active, id ∈ s.sessions.producer.started) ∧
      s.rowsOf seq = active.toList.map (fun id ↦ segmentOf id.val t.payload.asdict) ∧
      ((s.rowsOf seq).map (·.sessionId) = [t.session.val] ↔ active = some t.session) := by
  have htracked := (tracked_inductive below).reachable h
  have hdata : s.stream[seq]? = some (some (.obj t.payload.asdict)) := by
    rw [State.stream, List.getElem?_map, ht]
    rfl
  obtain ⟨x, hdeeds, hrows⟩ := htracked.filed.of_acked hacked hdata
  -- What the loop read is the id of a session.
  obtain ⟨active, rfl, hstarted⟩ : ∃ active : Option SessionId, x = active.map Subtype.val ∧
      ∀ id ∈ active, id ∈ s.sessions.producer.started := by
    cases x with
    | none => exact ⟨none, rfl, by simp⟩
    | some x =>
      have hmem : ⟨seq, .obj t.payload.asdict, some x⟩ ∈ s.loop.deeds := by
        refine List.mem_of_mem_filter (p := fun deed ↦ decide (deed.seq = seq)) ?_
        rw [hdeeds]
        exact List.mem_singleton_self _
      obtain ⟨id, hid, rfl⟩ := htracked.active _ (List.mem_append_left _ hmem) x rfl
      exact ⟨some id, rfl, fun id' hid' ↦ Option.some.inj hid' ▸ hid⟩
  have hfinal : (Dict.getOr t.payload.asdict "is_final" .null).truthy = true := by
    have hisFinal : t.payload.isFinal = true := htracked.finals t (List.mem_of_getElem? ht)
    show t.payload.isFinal = true
    exact hisFinal
  have hrowsOf : s.rowsOf seq = active.toList.map fun id ↦ segmentOf id.val t.payload.asdict := by
    rw [State.rowsOf, hrows, Deed.row]
    cases active with
    | none => rfl
    | some id => simp [Deed.segment, hfinal, id.2]
  refine ⟨active, hdeeds, hstarted, hrowsOf, ?_⟩
  rw [hrowsOf]
  cases active with
  | none => simp
  | some id => simp [segmentOf, Subtype.ext_iff]

/-! ### The end of a session -/

/-- A chunk is captured, and published as live audio. -/
def spoken : List AudioProducer.Action := [.chunk [0, 0] .ok, .audio AudioProducer.first .ok]

/-- A session is started and has audio; api-gateway has heard of it. -/
def opening : List Action :=
  (AudioProducer.running ++ AudioProducer.starting AudioProducer.first ++ AudioProducer.started ++
    spoken).map (.session ∘ .producer) ++ [.session (.sessionEvent true false)]

/-- The session is stopped, and api-gateway hears of it. -/
def ending : List Action :=
  RenameRace.stopped.map .session ++ [.session (.sessionEvent true false)]

/-- Another session is started, and api-gateway hears of it. -/
def reopening : List Action :=
  (AudioProducer.starting AudioProducer.second ++
    AudioProducer.started).map (.session ∘ .producer) ++
    [.session (.sessionEvent true false)]

/-- A final transcript of the first session. -/
def amen : Transcript := ⟨AudioProducer.first.id, ⟨"Amen.", true, 1, "2026-03-01T10:00:59", .live⟩⟩

/-- It is published as the `seq`-th one, fetched and broadcast. -/
def broadcast (seq : ℕ) : List Action :=
  [.transcribe amen, .loop (.fetched [seq] .ok), .loop (.resume true .ok)]

/-- The session is still active: the transcript is filed under it. -/
theorem filed_once_amen :
    ∃ s, (system fun _ ↦ false).Reachable (fun s a ↦ succeeds s a = true) s ∧
      (s.rowsOf 0).map (·.sessionId) = [amen.session.val] := by
  obtain ⟨s, hs, htest⟩ := TransitionSystem.exists_reachable_of_exec
    (M := system fun _ ↦ false) (G := fun s a ↦ succeeds s a = true) {}
    (opening ++ broadcast 0 ++ [.loop (.resume true .ok)])
    (fun s ↦ s.transcripts.map (·.session) = [amen.session] ∧ 0 ∈ s.loop.acked ∧
      s.loop.deeds.map (·.active) = [some amen.session.val]) rfl (by decide +kernel)
  obtain ⟨htranscripts, hacked, hactive⟩ := of_decide_eq_true htest
  obtain ⟨t, ht, hsession⟩ := List.map_eq_singleton_iff.1 htranscripts
  have hget : s.transcripts[0]? = some t := by
    rw [ht]
    rfl
  obtain ⟨active, hdeeds, -, -, hown⟩ := filed_once hs hget hacked
  refine ⟨s, hs, hsession ▸ hown.2 ?_⟩
  obtain ⟨deed, hdeed, hread⟩ := List.map_eq_singleton_iff.1 hactive
  have hmem : ⟨0, .obj t.payload.asdict, active.map Subtype.val⟩ ∈ s.loop.deeds := by
    refine List.mem_of_mem_filter (p := fun deed ↦ decide (deed.seq = 0)) ?_
    rw [hdeeds]
    exact List.mem_singleton_self _
  rw [hdeed] at hmem
  obtain ⟨id, rfl, hid⟩ := Option.map_eq_some_iff.1
    ((congrArg Deed.active (List.mem_singleton.1 hmem)).trans hread)
  rw [hsession, Subtype.ext hid]

/-- Two transcripts of a session come after its end. api-gateway acks both: the first is stored
nowhere, and the second under the next session. -/
theorem tail_not_filed :
    ∃ s, (system fun _ ↦ false).Reachable (fun s a ↦ succeeds s a = true) s ∧
      s.transcripts.map (·.session) = [amen.session, amen.session] ∧ s.loop.acked = [0, 1] ∧
      (s.rowsOf 0).map (·.sessionId) = [] ∧
      (s.rowsOf 1).map (·.sessionId) = [AudioProducer.second.id.val] ∧
      AudioProducer.second.id ≠ amen.session := by
  obtain ⟨s, hs, htest⟩ := TransitionSystem.exists_reachable_of_exec
    (M := system fun _ ↦ false) (G := fun s a ↦ succeeds s a = true) {}
    (opening ++ ending ++ broadcast 0 ++ [.loop (.resume true .ok)] ++ reopening ++ broadcast 1 ++
      [.loop (.resume true .ok)])
    (fun s ↦ s.transcripts.map (·.session) = [amen.session, amen.session] ∧ s.loop.acked = [0, 1] ∧
      (s.rowsOf 0).map (·.sessionId) = [] ∧
      (s.rowsOf 1).map (·.sessionId) = [AudioProducer.second.id.val]) rfl (by decide +kernel)
  obtain ⟨hsessions, hacked, hlost, hmisfiled⟩ := of_decide_eq_true htest
  exact ⟨s, hs, hsessions, hacked, hlost, hmisfiled, by decide⟩

end LiveSTT.Filing
