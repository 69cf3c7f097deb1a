import LiveSTT.Identifier.Model
import LiveSTT.IdentityManager.Pools
import LiveSTT.SttProvider.Transcript

/-!
# Speaker attribution across identifier and identity-manager

The identifier's workers publish identity events on `transcript.identity.<lane>`; identity-manager
subscribes to `transcript.identity.>` and fuses them with the transcripts of stt-provider. The lane
of an event is encoded in its **subject**, and identity-manager decodes it from the **payload**,
which says nothing about it and so defaults to `"live"`.

This module composes the two services: every published event may be delivered at any time, in any
order and more than once. Its main result says exactly when attribution respects the lanes
(`lanesRespected_iff`): as long as no event of the backfill worker has been delivered.

The two services share no state, so the composition adds one thing to theirs: what was published,
from which deliveries are taken. The condition is exact, and it is one on the deliveries: what is
published and never delivered does no harm.
-/

namespace LiveSTT.SpeakerLanes

open IdentityManager (IdentityEvent Event filings poolOf sourceOf)
open SttProvider (TranscriptPayload)

/-! ### The composed system -/

structure State where
  identifier : Identifier.State := {}
  manager : IdentityManager.State := {}
  /-- The identity events delivered to identity-manager, in order. -/
  delivered : List IdentityEvent := []

inductive Action
  | identifier (a : Identifier.Action)
  /-- The identity event stored `i`-th is delivered. -/
  | deliver (i : ℕ)
  /-- A transcript of stt-provider is delivered. -/
  | transcript (p : TranscriptPayload) (now : ℚ) (r : Reply)
  | subscriber (r : Reply)
  | fusion (now : ℚ) (r : Reply)
  /-- identity-manager dies and starts again. -/
  | restart

/-- What a delivery or a coroutine of identity-manager does. -/
def State.manage (fromisoformat : String → Option ℚ) (s : State) (a : IdentityManager.Action) :
    Option State :=
  (IdentityManager.step fromisoformat s.manager a).map fun manager ↦ { s with manager := manager }

def step (fromisoformat : String → Option ℚ) (s : State) : Action → Option State
  | .identifier a =>
    (Identifier.step s.identifier a).map fun identifier ↦ { s with identifier := identifier }
  | .deliver i =>
    match s.identifier.identities[i]? with
    | none => none
    | some (lane, data) =>
      (s.manage fromisoformat (.identity lane (some (.obj data)))).map fun t ↦
        { t with delivered := t.delivered ++ [⟨lane, data⟩] }
  | .transcript p now r => s.manage fromisoformat (.transcript (some (.obj p.asdict)) now r)
  | .subscriber r => s.manage fromisoformat (.subscriber r)
  | .fusion now r => s.manage fromisoformat (.fusion now r)
  | .restart => s.manage fromisoformat .restart

def system (fromisoformat : String → Option ℚ) : TransitionSystem State Action where
  init s := s = {}
  step := step fromisoformat

/-! ### What attribution is to respect -/

/-- Every identity event is filed in the pool of its lane, and a transcript is published with the
speaker of an event of its own lane only. -/
structure LanesRespected (log : List Event) : Prop where
  filed : ∀ e pool, .filed e pool ∈ log → pool = e.lane
  published : ∀ msg (lane : Lane) payload e,
    .published msg (.str lane.tag) payload (some e) ∈ log → e.lane = lane

/-- What the two services agree on: the events in the log are those delivered, these were published,
and no payload names a source. -/
structure Composed (s : State) : Prop where
  unnamed : ∀ p ∈ s.identifier.identities, sourceOf p.2 = .str "live"
  stored : ∀ e ∈ s.delivered, (e.lane, e.data) ∈ s.identifier.identities
  filings : (filings s.manager.log).map Prod.fst = s.delivered

variable {fromisoformat : String → Option ℚ} {s t : State}

/-- The payload of an identity event has no `source`. -/
theorem sourceOf_identityPayload (speaker : String) (confidence : ℚ) (timestamp : String) :
    sourceOf (Identifier.identityPayload speaker confidence timestamp) = .str "live" := by
  simp [sourceOf, Identifier.identityPayload, Dict.getOr, Dict.get_cons]

/-- identity-manager takes a step of its own, or rests. -/
theorem refines_manager : (system fromisoformat).Refines TransitionSystem.always
    (IdentityManager.system fromisoformat) TransitionSystem.always State.manager where
  init s hs := by
    obtain rfl : s = {} := hs
    rfl
  step := by
    intro s a t _ ht
    have hmanage : ∀ a t, s.manage fromisoformat a = some t →
        ∃ as, (IdentityManager.system fromisoformat).Run TransitionSystem.always s.manager as
          t.manager := by
      intro a t h
      obtain ⟨m, hm, rfl⟩ := Option.map_eq_some_iff.1 h
      exact ⟨[a], TransitionSystem.Run.single trivial hm⟩
    cases a with
    | identifier a =>
      obtain ⟨i, -, rfl⟩ := Option.map_eq_some_iff.1 ht
      exact ⟨[], TransitionSystem.Run.nil⟩
    | deliver i =>
      simp only [system, step] at ht
      split at ht
      · nomatch ht
      · obtain ⟨u, hu, rfl⟩ := Option.map_eq_some_iff.1 ht
        exact hmanage _ u hu
    | transcript p now r => exact hmanage _ t ht
    | subscriber r => exact hmanage _ t ht
    | fusion now r => exact hmanage _ t ht
    | restart => exact hmanage .restart t ht

/-- An action of identity-manager that is no delivery of an identity event files nothing. -/
theorem Composed.of_manage {a : IdentityManager.Action} (h : Composed s)
    (ha : a.filesNothing = true) (ht : s.manage fromisoformat a = some t) : Composed t := by
  obtain ⟨m, hm, rfl⟩ := Option.map_eq_some_iff.1 ht
  refine ⟨h.unnamed, h.stored, ?_⟩
  show (IdentityManager.filings m.log).map Prod.fst = s.delivered
  rw [(IdentityManager.unfiled_step ha hm).filings]
  exact h.filings

/-- A message through the identifier publishes at most one event, whose payload names no source. -/
theorem Composed.of_identifier {a : Identifier.Action} {i : Identifier.State} (h : Composed s)
    (hi : Identifier.step s.identifier a = some i) : Composed { s with identifier := i } := by
  have hnew : i.identities = s.identifier.identities ∨ ∃ lane speaker confidence timestamp,
      i.identities = s.identifier.identities ++
        [(lane, Identifier.identityPayload speaker confidence timestamp)] := by
    cases a with
    | restart =>
      obtain rfl := Option.some.inj hi
      exact Or.inl rfl
    | message source msg recognize timestamp r =>
      simp only [Identifier.step] at hi
      split at hi
      · nomatch hi
      · obtain rfl := Option.some.inj hi
        rcases Identifier.identities_worker s.identifier source msg recognize timestamp r with
          heq | ⟨speaker, confidence, heq⟩
        · exact Or.inl heq
        · exact Or.inr ⟨source, speaker, confidence, timestamp, heq⟩
  rcases hnew with heq | ⟨lane, speaker, confidence, timestamp, heq⟩
  · exact ⟨by simpa only [heq] using h.unnamed, by simpa only [heq] using h.stored, h.filings⟩
  · refine ⟨fun p hp ↦ ?_, fun e he ↦ ?_, h.filings⟩
    · rw [show i.identities = _ from heq, List.mem_append, List.mem_singleton] at hp
      rcases hp with hp | rfl
      · exact h.unnamed p hp
      · exact sourceOf_identityPayload _ _ _
    · rw [show i.identities = _ from heq]
      exact List.mem_append_left _ (h.stored e he)

/-- A delivered event is one that was published, and is filed. -/
theorem Composed.of_deliver {lane : Lane} {data : Dict} (h : Composed s)
    (hmem : (lane, data) ∈ s.identifier.identities)
    (ht : s.manage fromisoformat (.identity lane (some (.obj data))) = some t) :
    Composed { t with delivered := t.delivered ++ [⟨lane, data⟩] } := by
  obtain ⟨m, hm, rfl⟩ := Option.map_eq_some_iff.1 ht
  refine ⟨h.unnamed, fun e he ↦ ?_, ?_⟩
  · rcases List.mem_append.1 he with he | he
    · exact h.stored e he
    · rw [List.mem_singleton.1 he]
      exact hmem
  · show (IdentityManager.filings m.log).map Prod.fst = s.delivered ++ [⟨lane, data⟩]
    obtain ⟨-, hfile⟩ := Option.ite_none_right_eq_some.1 hm
    obtain rfl := Option.some.inj hfile
    rw [IdentityManager.filings_identityStep, List.map_append, h.filings]
    rfl

/-- Both services keep their own invariants, and an event is delivered as it was published. -/
theorem composed_inductive (fromisoformat : String → Option ℚ) :
    (system fromisoformat).Inductive TransitionSystem.always Composed where
  init s hs := by
    obtain rfl : s = {} := hs
    exact ⟨nofun, nofun, rfl⟩
  step := by
    intro s a t h _ ht
    cases a with
    | identifier a =>
      obtain ⟨i, hi, rfl⟩ := Option.map_eq_some_iff.1 ht
      exact h.of_identifier hi
    | deliver i =>
      simp only [system, step] at ht
      split at ht
      · nomatch ht
      · rename_i lane data hget
        obtain ⟨u, hu, rfl⟩ := Option.map_eq_some_iff.1 ht
        exact h.of_deliver (List.mem_of_getElem? hget) hu
    | transcript p now r =>
      exact h.of_manage (a := .transcript _ now r) rfl ht
    | subscriber r => exact h.of_manage (a := .subscriber r) rfl ht
    | fusion now r => exact h.of_manage (a := .fusion now r) rfl ht
    | restart =>
      have hrestart : s.manage fromisoformat .restart = some t := ht
      exact h.of_manage rfl hrestart

/-! ### When lanes are respected -/

/-- Whatever its lane, an identity event is filed in the live pool. -/
theorem live_of_filed (h : (system fromisoformat).Reachable TransitionSystem.always s)
    {e : IdentityEvent} {pool : Lane} (hfiled : .filed e pool ∈ s.manager.log) : pool = .live := by
  have hC := (composed_inductive fromisoformat).reachable h
  have hmem : e ∈ s.delivered := by
    rw [← hC.filings]
    exact List.mem_map.2 ⟨(e, pool), IdentityManager.mem_filings.2 hfiled, rfl⟩
  have hsource : sourceOf e.data = .str "live" := hC.unnamed _ (hC.stored e hmem)
  rw [IdentityManager.pool_of_filed (refines_manager.reachable h) hfiled, hsource]
  rfl

/-- So only transcripts of the live lane are published with a speaker: those of the backfill lane
all go out as `"Unknown"`. -/
theorem live_of_published (h : (system fromisoformat).Reachable TransitionSystem.always s)
    {msg : ℕ} {lane : Lane} {payload : Dict} {e : IdentityEvent}
    (hpub : .published msg (.str lane.tag) payload (some e) ∈ s.manager.log) : lane = .live := by
  have hfiled := IdentityManager.filed_of_published (refines_manager.reachable h) hpub
  have hpool := live_of_filed h hfiled
  cases lane with
  | live => rfl
  | backfill => exact absurd hpool (by decide)

/-- **Exactly when attribution respects the lanes.** In every run: as long as no event of the
backfill worker has been delivered, and from then on never. -/
theorem lanesRespected_iff (h : (system fromisoformat).Reachable TransitionSystem.always s) :
    LanesRespected s.manager.log ↔ ∀ e ∈ s.delivered, e.lane = .live := by
  have hfilings := ((composed_inductive fromisoformat).reachable h).filings
  have hdelivered : ∀ {e pool}, .filed e pool ∈ s.manager.log → e ∈ s.delivered := by
    intro e pool hfiled
    rw [← hfilings]
    exact List.mem_map.2 ⟨(e, pool), IdentityManager.mem_filings.2 hfiled, rfl⟩
  constructor
  · -- A delivered event was filed, in the live pool whatever its lane.
    intro hlanes e he
    rw [← hfilings] at he
    obtain ⟨⟨e', pool⟩, hmem, rfl⟩ := List.mem_map.1 he
    have hfiled := IdentityManager.mem_filings.1 hmem
    rw [← hlanes.filed e' pool hfiled]
    exact live_of_filed h hfiled
  · intro hlive
    refine ⟨fun e pool hfiled ↦ ?_, fun msg lane payload e hpub ↦ ?_⟩
    · rw [live_of_filed h hfiled, hlive e (hdelivered hfiled)]
    · have hfiled := IdentityManager.filed_of_published (refines_manager.reachable h) hpub
      rw [live_of_published h hpub, hlive e (hdelivered hfiled)]

/-! ### A live transcript under a backfill speaker -/

/-- Half a minute of a Sunday, as POSIX time. -/
def clock (iso : String) : Option ℚ :=
  if iso = "2026-03-01T10:00:00+00:00" then some 1772359200
  else if iso = "2026-03-01T10:00:01+00:00" then some 1772359201
  else none

/-- One full window of audio on a lane. -/
def window (lane : Lane) : AudioMsg where
  subject := "audio." ++ lane.tag ++ ".20260301-100000"
  data := List.replicate (2 * Identifier.windowSamples) 0

/-- A window of the lane, recognised. -/
def recognised (lane : Lane) (speaker : String) : Action :=
  .identifier (.message lane (window lane) (fun _ ↦ .matched speaker (9 / 10))
    "2026-03-01T10:00:00+00:00" .ok)

/-- A final live transcript, a second later. -/
def amen : TranscriptPayload :=
  ⟨"Amen.", true, 98 / 100, "2026-03-01T10:00:01+00:00", .live⟩

/-- The system after the first window of a lane was recognised and its event published. -/
def published (lane : Lane) (speaker : String) : State where
  identifier := { ({} : Identifier.State).setBuffers
      (Function.update (fun _ ↦ {}) (lastToken (window lane).subject) {}) lane with
    identities :=
      [(lane, Identifier.identityPayload speaker (9 / 10) "2026-03-01T10:00:00+00:00")] }

/-- An event of either lane can be published by its worker. -/
theorem reachable_published (lane : Lane) (speaker : String) :
    (system clock).Reachable TransitionSystem.always (published lane speaker) := by
  refine (TransitionSystem.Reachable.of_init rfl).step (a := recognised lane speaker) trivial ?_
  have hfull : Identifier.windowSamples ≤ (({} : Identifier.State).buffers lane
      (lastToken (window lane).subject)).sampleCount + (window lane).data.length / 2 := by
    refine le_trans ?_ (Nat.le_add_left _ _)
    rw [window, List.length_replicate]
    omega
  have hworker : Identifier.worker {} lane (window lane) (fun _ ↦ .matched speaker (9 / 10))
      "2026-03-01T10:00:00+00:00" .ok = (published lane speaker).identifier := by
    rw [Identifier.worker_of_full rfl hfull]
    cases lane
    · rfl
    · rfl
  exact congrArg (fun identifier ↦ some ({ identifier := identifier } : State)) hworker

/-- The event is delivered, and then the transcript it is matched with. -/
def fuse : List Action :=
  [.deliver 0, .transcript amen 20 .ok, .fusion 20 .ok]

/-- The test a run is to pass: a live transcript was published with the speaker of an event of the
lane. -/
def namesSpeakerOf (lane : Lane) (speaker : String) (s : State) : Bool :=
  s.manager.log.any fun
    | .published _ source payload (some e) =>
      source.isStr "live" && ((Dict.getOr payload "speaker" .null).isStr speaker &&
        decide (e.lane = lane))
    | _ => false

/-- The test on a state says what it is named after. -/
theorem exists_of_namesSpeakerOf {lane : Lane} {speaker : String} {s : State}
    (h : namesSpeakerOf lane speaker s = true) : ∃ msg payload e,
      .published msg (.str "live") payload (some e) ∈ s.manager.log ∧
      Dict.getOr payload "speaker" .null = .str speaker ∧ e.lane = lane := by
  obtain ⟨event, hmem, htest⟩ := List.any_eq_true.1 h
  cases event with
  | published msg source payload identity =>
    rcases identity with - | e
    · nomatch htest
    · simp only [Bool.and_eq_true, decide_eq_true_eq] at htest
      obtain ⟨hsource, hspeaker, hlane⟩ := htest
      rw [Json.isStr_iff] at hsource hspeaker
      subst hsource
      exact ⟨msg, payload, e, hmem, hspeaker, hlane⟩
  | _ => nomatch htest

/-- A live window recognised, and the live transcript published under its speaker: nothing of the
backfill lane was delivered, and the lanes are respected. -/
theorem lanesRespected_live :
    ∃ s, (system clock).Reachable TransitionSystem.always s ∧
      (∃ msg payload e, .published msg (.str "live") payload (some e) ∈ s.manager.log ∧
        Dict.getOr payload "speaker" .null = .str "Pastor Mike" ∧ e.lane = .live) ∧
      (LanesRespected s.manager.log ↔ ∀ e ∈ s.delivered, e.lane = .live) := by
  obtain ⟨s, hs, htest⟩ := (reachable_published .live "Pastor Mike").exists_of_exec fuse
    (namesSpeakerOf .live "Pastor Mike") (by decide +kernel)
  exact ⟨s, hs, exists_of_namesSpeakerOf htest, lanesRespected_iff hs⟩

/-- The backfill worker recognises a speaker, and the final transcript of live audio captured a
second later is published under the name. -/
theorem live_transcript_named_by_backfill :
    ∃ s, (system clock).Reachable TransitionSystem.always s ∧ ¬ LanesRespected s.manager.log ∧
      ∃ msg payload e, .published msg (.str "live") payload (some e) ∈ s.manager.log ∧
        Dict.getOr payload "speaker" .null = .str "Pastor Mike" ∧ e.lane = .backfill := by
  obtain ⟨s, hs, htest⟩ := (reachable_published .backfill "Pastor Mike").exists_of_exec fuse
    (namesSpeakerOf .backfill "Pastor Mike") (by decide +kernel)
  obtain ⟨msg, payload, e, hpub, hspeaker, hlane⟩ := exists_of_namesSpeakerOf htest
  refine ⟨s, hs, fun hlanes ↦ ?_, msg, payload, e, hpub, hspeaker, hlane⟩
  have hlive : e.lane = .live := hlanes.published msg .live payload e hpub
  rw [hlane] at hlive
  exact absurd hlive (by decide)

end LiveSTT.SpeakerLanes
