import Mathlib.Data.List.Nodup
import LiveSTT.AudioProducer.Views

/-!
# Sessions end in order

What the trace, the audio stream and the lifecycle events say about the sessions that have ended,
and an invariant that ties them together (`Orderly`). It counts: every EOS marker belongs to a
session that has ended or to a stop suspended at its EOS publish, and every ended session has its
lifecycle event or a stop on its way to it. The invariant is stated for a list of stops, so that a
function of the source can be treated with the stop that runs it in a position of its own.

The rules of `Orderly` say what a step may do to the state. With them each function of the source,
its calls succeeding, gets one preservation lemma.

A stop of the audio loop and one of the control loop are treated alike, and so the list of stops
stands for both. `Quietly` is for the many steps that add neither a marker nor a report: they keep
the count as it is (`Counted.of_quiet`), and for them nothing else has to be shown.
-/

namespace LiveSTT.AudioProducer

/-! ### What has ended, and what was published about it -/

/-- The session a stop is about to end. -/
def StopPc.ending : StopPc → Option SessionId
  | .eosPublishing id _ => some id
  | _ => none

/-- The session a stop has ended, before its lifecycle event is published. -/
def StopPc.ended : StopPc → Option SessionId
  | .kvDeleting captured _ _ => captured
  | _ => none

/-- The session whose end a trace event records. -/
def Event.ended : Event → Option SessionId
  | .idled _ was _ _ => was
  | _ => none

/-- The session a live EOS marker is for. -/
def Stored.liveEosOf : Stored → Option SessionId
  | .liveEos id => some id
  | _ => none

/-- The session a lifecycle event reports as stopped. -/
def Lifecycle.stoppedOf : Lifecycle → Option SessionId
  | .stopped id _ => id
  | _ => none

namespace State

variable (s : State)

/-- The sessions that have ended. -/
def ended : List SessionId := s.trace.filterMap Event.ended

/-- The sessions with an EOS marker on their live subject, one entry for each marker. -/
def eosIds : List SessionId := s.broker.audio.filterMap Stored.liveEosOf

/-- The sessions reported as stopped, one entry for each report. -/
def stoppedIds : List SessionId := s.broker.events.filterMap Lifecycle.stoppedOf

end State

/-- The sessions about to end by a list of stops. -/
def endings (stops : List StopPc) : List SessionId := stops.filterMap StopPc.ending

/-- The sessions ended by a list of stops and not reported yet. -/
def unreported (stops : List StopPc) : List SessionId := stops.filterMap StopPc.ended

/-! ### The invariant -/

/-- A trace event that ends no session. -/
def Event.quiet : Event → Bool
  | .idled _ _ _ _ => false
  | _ => true

/-- A stop that went idle had ended its own session, and removed its own entry. -/
def Event.Own : Event → Prop
  | .idled (some id) was deleted _ =>
    (∀ id', was = some id' → id' = id) ∧ ∀ id', deleted = some id' → id' = id
  | _ => True

/-- A stop of `id` ended the session `other`, and removed its entry. -/
def Event.endsOther (id other : SessionId) : Event → Bool
  | .idled captured was deleted cleared =>
    captured = some id ∧ was = some other ∧ deleted = some other ∧ cleared
  | _ => false

theorem Event.endsOther_iff {id other : SessionId} {e : Event} :
    e.endsOther id other = true ↔ e = .idled (some id) (some other) (some other) true := by
  cases e <;> simp [Event.endsOther]

/-- What the trace and the broker say about the sessions that have ended, with `stops` in
progress. -/
structure Counted (s : State) (stops : List StopPc) : Prop where
  eos : ∀ id, s.eosIds.count id = s.ended.count id + (endings stops).count id
  reported : ∀ id, s.ended.count id = s.stoppedIds.count id + (unreported stops).count id
  nodup : s.ended.Nodup
  known : ∀ id ∈ s.ended, .startBegan id ∈ s.trace
  own : ∀ e ∈ s.trace, e.Own

/-- A session that was started and has not ended. -/
structure State.Alive (s : State) (id : SessionId) : Prop where
  not_ended : id ∉ s.ended
  began : .startBegan id ∈ s.trace

/-- The invariant, with `stops` in progress. -/
structure Orderly (s : State) (stops : List StopPc) : Prop where
  counted : Counted s stops
  active : s.mem.isActive = s.mem.sessionId.isSome
  /-- A stop about to end a session ends the active one, and there is no other. -/
  ending : ∀ id ∈ endings stops, s.mem.sessionId = some id
  sole : (endings stops).length ≤ 1
  /-- A session that is active, in the KV or about to start has not ended. -/
  alive : ∀ id, s.mem.sessionId = some id ∨ s.entryId = some id ∨ id ∈ s.ctrl.putting → s.Alive id
  /-- A session about to start finds none active, and no other in the KV. -/
  putting : ∀ id ∈ s.ctrl.putting,
    s.mem.sessionId = none ∧ ∀ id', s.entryId = some id' → id' = id
  entry : ∀ id id', s.mem.sessionId = some id → s.entryId = some id' → id' = id
  handles : s.up = true → s.mem.sessionKv = true
  down : s.up = false → stops = []

/-- The trace has grown by events that end no session. -/
def QuietTrace (s t : State) : Prop :=
  ∃ E, t.trace = s.trace ++ E ∧ ∀ e ∈ E, e.quiet = true

/-- And no marker or report was published meanwhile. -/
structure Quietly (s t : State) : Prop where
  eos : t.eosIds = s.eosIds
  stopped : t.stoppedIds = s.stoppedIds
  trace : QuietTrace s t

section Quiet

variable {s t : State} {stops : List StopPc}

theorem QuietTrace.of_eq (h : t.trace = s.trace) : QuietTrace s t :=
  ⟨[], h.trans (List.append_nil _).symm, nofun⟩

theorem QuietTrace.of_event {e : Event} (he : e.quiet = true) (h : t.trace = s.trace ++ [e]) :
    QuietTrace s t := by
  refine ⟨[e], h, fun e' he' ↦ ?_⟩
  rw [List.mem_singleton.1 he']
  exact he

theorem QuietTrace.mem (h : QuietTrace s t) {e : Event} (he : e ∈ s.trace) : e ∈ t.trace := by
  obtain ⟨E, htrace, -⟩ := h
  rw [htrace]
  exact List.mem_append_left _ he

/-- Quiet events end no session. -/
theorem QuietTrace.ended (h : QuietTrace s t) : t.ended = s.ended := by
  obtain ⟨E, htrace, hE⟩ := h
  have hnil : E.filterMap Event.ended = [] := by
    refine List.filterMap_eq_nil_iff.2 fun e he ↦ ?_
    have hquiet := hE e he
    cases e <;> first | rfl | nomatch hquiet
  rw [State.ended, htrace, List.filterMap_append, hnil, List.append_nil, State.ended]

/-- Nothing happens that the counts speak of. -/
theorem Quietly.of_eq (heos : t.eosIds = s.eosIds) (hstopped : t.stoppedIds = s.stoppedIds)
    (htrace : t.trace = s.trace) : Quietly s t :=
  ⟨heos, hstopped, QuietTrace.of_eq htrace⟩

/-- One quiet event is recorded. -/
theorem Quietly.of_event {e : Event} (he : e.quiet = true) (heos : t.eosIds = s.eosIds)
    (hstopped : t.stoppedIds = s.stoppedIds) (htrace : t.trace = s.trace ++ [e]) : Quietly s t :=
  ⟨heos, hstopped, QuietTrace.of_event he htrace⟩

theorem State.Alive.mono {id : SessionId} (h : s.Alive id) (ht : QuietTrace s t) : t.Alive id := by
  refine ⟨?_, ht.mem h.began⟩
  rw [ht.ended]
  exact h.not_ended

/-- Steps that publish neither a marker nor a report leave the count as it is. -/
theorem Counted.of_quiet (h : Counted s stops) (ht : Quietly s t) : Counted t stops := by
  have hended : t.ended = s.ended := ht.trace.ended
  refine ⟨?_, ?_, ?_, ?_, ?_⟩
  · rw [ht.eos, hended]
    exact h.eos
  · rw [hended, ht.stopped]
    exact h.reported
  · rw [hended]
    exact h.nodup
  · rw [hended]
    exact fun id hid ↦ ht.trace.mem (h.known id hid)
  · obtain ⟨E, htrace, hE⟩ := ht.trace
    rw [htrace]
    intro e he
    rcases List.mem_append.1 he with he | he
    · exact h.own e he
    · have hquiet := hE e he
      cases e <;> trivial

end Quiet

namespace Orderly

variable {s t : State} {stops stops' : List StopPc}

/-- A step that leaves everything the invariant speaks of as it is, up to quiet trace events. -/
theorem congr (h : Orderly s stops) (hup : t.up = s.up) (hid : t.mem.sessionId = s.mem.sessionId)
    (hactive : t.mem.isActive = s.mem.isActive) (hkv : t.mem.sessionKv = s.mem.sessionKv)
    (hentry : t.entryId = s.entryId) (hputting : ∀ id ∈ t.ctrl.putting, id ∈ s.ctrl.putting)
    (ht : Quietly s t) : Orderly t stops := by
  refine ⟨h.counted.of_quiet ht, ?_, ?_, h.sole, ?_, ?_, ?_, ?_, ?_⟩
  · rw [hactive, hid]
    exact h.active
  · rw [hid]
    exact h.ending
  · rw [hid, hentry]
    exact fun id hor ↦ (h.alive id (hor.imp_right (Or.imp_right (hputting id)))).mono ht.trace
  · rw [hid, hentry]
    exact fun id hmem ↦ h.putting id (hputting id hmem)
  · rw [hid, hentry]
    exact h.entry
  · rw [hup, hkv]
    exact h.handles
  · rw [hup]
    exact h.down

/-- The stops in progress change, with what they are about to end and to report; markers and reports
make up for it. -/
theorem of_stops (h : Orderly s stops) (hup : s.up = true)
    (heos : ∀ id, t.eosIds.count id = s.ended.count id + (endings stops').count id)
    (hreported : ∀ id, s.ended.count id = t.stoppedIds.count id + (unreported stops').count id)
    (hending : ∀ id ∈ endings stops', s.mem.sessionId = some id)
    (hsole : (endings stops').length ≤ 1) (htup : t.up = true) (hmem : t.mem = s.mem)
    (hentry : t.entryId = s.entryId) (hputting : ∀ id ∈ t.ctrl.putting, id ∈ s.ctrl.putting)
    (ht : QuietTrace s t) : Orderly t stops' := by
  have hended : t.ended = s.ended := ht.ended
  -- Without markers and reports this is a quiet step.
  have hrest : Orderly { t with broker :=
      { t.broker with audio := s.broker.audio, events := s.broker.events } } stops := by
    refine h.congr (htup.trans hup.symm) ?_ ?_ ?_ hentry hputting ⟨rfl, rfl, ht⟩
    · rw [← hmem]
    · rw [← hmem]
    · rw [← hmem]
  refine ⟨⟨?_, ?_, hrest.counted.nodup, hrest.counted.known, hrest.counted.own⟩, hrest.active, ?_,
    hsole, fun id hid ↦ ⟨(hrest.alive id hid).1, (hrest.alive id hid).2⟩, hrest.putting,
    hrest.entry, hrest.handles, fun hdown ↦ ?_⟩
  · rw [hended]
    exact heos
  · rw [hended]
    exact hreported
  · rw [hmem]
    exact hending
  · nomatch htup.symm.trans hdown

/-- The order the stops are listed in does not matter. -/
theorem of_perm (h : Orderly s stops) (hperm : stops'.Perm stops) : Orderly s stops' := by
  have hendings : (endings stops').Perm (endings stops) := hperm.filterMap _
  have hunreported : (unreported stops').Perm (unreported stops) := hperm.filterMap _
  refine ⟨⟨fun id ↦ ?_, fun id ↦ ?_, h.counted.nodup, h.counted.known, h.counted.own⟩, h.active,
    ?_, ?_, h.alive, h.putting, h.entry, h.handles, fun hup ↦ ?_⟩
  · rw [hendings.count_eq]
    exact h.counted.eos id
  · rw [hunreported.count_eq]
    exact h.counted.reported id
  · exact fun id hid ↦ h.ending id (hendings.subset hid)
  · rw [hendings.length_eq]
    exact h.sole
  · have hnil := h.down hup
    subst hnil
    exact hperm.eq_nil

/-- A stop goes idle: the session it is about to end is the active one, and has ended then. -/
theorem of_idle {captured : Option SessionId} (h : Orderly s stops) (hup : s.up = true)
    (hid : s.mem.sessionId = captured) (hend : endings stops = captured.toList)
    (hend' : endings stops' = []) (hun : ∀ id, (unreported stops').count id =
      captured.toList.count id + (unreported stops).count id)
    (heos : t.eosIds = s.eosIds) (hstopped : t.stoppedIds = s.stoppedIds)
    (hmem : t.mem = s.mem.idle) (hentry : t.entryId = none) (htup : t.up = true)
    (hputting : ∀ id ∈ t.ctrl.putting, id ∈ s.ctrl.putting)
    (htrace : t.trace = s.trace ++ [.idled captured captured s.entryId true]) :
    Orderly t stops' := by
  have hended : t.ended = s.ended ++ captured.toList := by
    rw [State.ended, htrace, List.filterMap_append, State.ended]
    cases captured <;> rfl
  have htid : t.mem.sessionId = none := by rw [hmem]; rfl
  have hfresh : ∀ id ∈ captured.toList, s.Alive id := by
    intro id hmem
    exact h.alive id (Or.inl (by rw [hid, ← Option.mem_toList.1 hmem]))
  refine ⟨⟨fun id ↦ ?_, fun id ↦ ?_, ?_, ?_, ?_⟩, ?_, ?_, ?_, ?_, ?_, ?_, ?_, ?_⟩
  · rw [heos, hended, hend', h.counted.eos id, hend, List.count_append, List.count_nil,
      Nat.add_zero]
  · rw [hended, hstopped, hun, List.count_append, h.counted.reported id]
    omega
  · rw [hended]
    refine h.counted.nodup.append ?_ fun id hold hnew ↦ (hfresh id hnew).not_ended hold
    cases captured <;> simp
  · rw [hended, htrace]
    intro id hmem
    rcases List.mem_append.1 hmem with hmem | hmem
    · exact List.mem_append_left _ (h.counted.known id hmem)
    · exact List.mem_append_left _ (hfresh id hmem).began
  · rw [htrace]
    intro e he
    rcases List.mem_append.1 he with he | he
    · exact h.counted.own e he
    · rw [List.mem_singleton.1 he]
      rcases captured with - | id
      · trivial
      · exact ⟨fun id' hid' ↦ (Option.some.inj hid').symm, fun id' hid' ↦ h.entry id id' hid hid'⟩
  · rw [hmem]
    rfl
  · rw [hend']
    simp
  · rw [hend']
    simp
  · rw [htid, hentry]
    rintro id (hid' | hid' | hid')
    · nomatch hid'
    · nomatch hid'
    · -- A start waiting for its put found no session active, so this stop captured none.
      have hput := hputting id hid'
      have halive := h.alive id (Or.inr (Or.inr hput))
      have hnone : captured = none := hid.symm.trans (h.putting id hput).1
      refine ⟨?_, ?_⟩
      · rw [hended, hnone]
        simpa using halive.not_ended
      · rw [htrace]
        exact List.mem_append_left _ halive.began
  · rw [hentry]
    exact fun id _ ↦ ⟨htid, by simp⟩
  · rw [htid]
    simp
  · rw [hmem]
    exact fun _ ↦ h.handles hup
  · rw [htup]
    simp

/-- A session becomes active that was about to: no other is, and no stop is about to end one. -/
theorem of_activate {id : SessionId} (h : Orderly s stops) (hput : id ∈ s.ctrl.putting)
    (hid : t.mem.sessionId = some id) (hactive : t.mem.isActive = true)
    (hkv : t.mem.sessionKv = s.mem.sessionKv) (hentry : t.entryId = s.entryId)
    (hup : t.up = s.up) (hputting : t.ctrl.putting = []) (ht : Quietly s t) :
    Orderly t stops := by
  obtain ⟨hnone, honly⟩ := h.putting id hput
  refine ⟨h.counted.of_quiet ht, ?_, ?_, h.sole, ?_, ?_, ?_, ?_, ?_⟩
  · rw [hactive, hid]
    rfl
  · intro id' hid'
    have hsome := h.ending id' hid'
    rw [hnone] at hsome
    nomatch hsome
  · rw [hid, hentry, hputting]
    rintro id' (hid' | hid' | hid')
    · obtain rfl := Option.some.inj hid'
      exact (h.alive id (Or.inr (Or.inr hput))).mono ht.trace
    · exact (h.alive id' (Or.inr (Or.inl hid'))).mono ht.trace
    · nomatch hid'
  · rw [hputting]
    simp
  · rw [hid, hentry]
    intro id' id'' hid' hid''
    obtain rfl := Option.some.inj hid'
    exact honly id'' hid''
  · rw [hup, hkv]
    exact h.handles
  · rw [hup]
    exact h.down

/-- A start takes an id that was never taken, and puts its entry. -/
theorem of_put {id : SessionId} (h : Orderly s stops) (hnone : s.mem.sessionId = none)
    (hfresh : .startBegan id ∉ s.trace) (hmem : t.mem = s.mem) (hentry : t.entryId = some id)
    (hup : t.up = s.up) (hputting : t.ctrl.putting = [id]) (ht : Quietly s t)
    (hbegan : .startBegan id ∈ t.trace) : Orderly t stops := by
  have hnew : t.Alive id := by
    refine ⟨?_, hbegan⟩
    rw [ht.trace.ended]
    exact fun hold ↦ hfresh (h.counted.known _ hold)
  refine ⟨h.counted.of_quiet ht, ?_, ?_, h.sole, ?_, ?_, ?_, ?_, ?_⟩
  · rw [hmem]
    exact h.active
  · rw [hmem]
    exact h.ending
  · rw [hmem, hnone, hentry, hputting]
    rintro id' (hid | hid | hid)
    · nomatch hid
    · obtain rfl := Option.some.inj hid
      exact hnew
    · rw [List.mem_singleton.1 hid]
      exact hnew
  · rw [hmem, hputting, hentry]
    intro id' hid
    rw [List.mem_singleton.1 hid]
    exact ⟨hnone, fun id'' hid' ↦ (Option.some.inj hid').symm⟩
  · rw [hmem, hnone]
    simp
  · rw [hup, hmem]
    exact h.handles
  · rw [hup]
    exact h.down

/-- A process with no session in memory: after a crash, or at the start of a boot. -/
theorem of_blank (h : Orderly s []) (hid : t.mem.sessionId = none)
    (hactive : t.mem.isActive = false) (hkv : t.up = true → t.mem.sessionKv = true)
    (hentry : t.entryId = s.entryId) (hputting : t.ctrl.putting = []) (ht : Quietly s t) :
    Orderly t [] := by
  refine ⟨h.counted.of_quiet ht, ?_, nofun, h.sole, ?_, ?_, ?_, hkv, fun _ ↦ rfl⟩
  · rw [hactive, hid]
    rfl
  · rw [hid, hentry, hputting]
    rintro id (hid' | hid' | hid')
    · nomatch hid'
    · exact (h.alive id (Or.inr (Or.inl hid'))).mono ht.trace
    · nomatch hid'
  · rw [hputting]
    simp
  · rw [hid]
    simp

/-- The session of the KV entry is resumed. -/
theorem of_resume {id : SessionId} (h : Orderly s []) (hentry : s.entryId = some id)
    (hid : t.mem.sessionId = some id) (hactive : t.mem.isActive = true)
    (hkv : t.mem.sessionKv = s.mem.sessionKv) (hentry' : t.entryId = s.entryId)
    (hup : t.up = s.up) (hputting : t.ctrl.putting = []) (ht : Quietly s t) : Orderly t [] := by
  have halive : t.Alive id := (h.alive id (Or.inr (Or.inl hentry))).mono ht.trace
  refine ⟨h.counted.of_quiet ht, ?_, nofun, h.sole, ?_, ?_, ?_, ?_, fun _ ↦ rfl⟩
  · rw [hactive, hid]
    rfl
  · rw [hid, hentry', hentry, hputting]
    rintro id' (hid' | hid' | hid')
    · rwa [← Option.some.inj hid']
    · rwa [← Option.some.inj hid']
    · nomatch hid'
  · rw [hputting]
    simp
  · rw [hid, hentry', hentry]
    intro id' id'' hid' hid''
    rw [← Option.some.inj hid', ← Option.some.inj hid'']
  · rw [hup, hkv]
    exact h.handles

end Orderly

/-! ### What each function preserves, with its calls succeeding -/

section Suspend

variable (s : State) (pc : StopPc) (w : Coroutine)

@[simp] theorem eosIds_suspendStop : (s.suspendStop pc w).eosIds = s.eosIds := by
  cases w <;> rfl

@[simp] theorem stoppedIds_suspendStop : (s.suspendStop pc w).stoppedIds = s.stoppedIds := by
  cases w <;> rfl

end Suspend

theorem endings_cons (pc : StopPc) (stops : List StopPc) :
    endings (pc :: stops) = pc.ending.toList ++ endings stops := by
  rw [endings, List.filterMap_cons]
  cases pc.ending <;> rfl

theorem unreported_cons (pc : StopPc) (stops : List StopPc) :
    unreported (pc :: stops) = pc.ended.toList ++ unreported stops := by
  rw [unreported, List.filterMap_cons]
  cases pc.ended <;> rfl

section Functions

variable {s : State} {stops : List StopPc} {w : Coroutine}

/-- `_stop_session` goes idle. -/
theorem orderly_idleStop {captured : Option SessionId} {stoppedAt : String}
    (h : Orderly s stops) (hup : s.up = true) (hid : s.mem.sessionId = captured)
    (hend : endings stops = captured.toList) (hend' : endings (s.otherStops w) = [])
    (hun : unreported stops = unreported (s.otherStops w)) :
    Orderly (idleStop s captured stoppedAt .ok w)
      (idleStop s captured stoppedAt .ok w).stops := by
  have hothers : (s.goIdle captured true).otherStops w = s.otherStops w := by
    cases w <;> rfl
  rw [idleStop, if_pos (h.handles hup)]
  refine Orderly.of_perm ?_ (perm_stops_suspendStop _ _ _)
  rw [Reply.applied_ok, hothers]
  refine h.of_idle hup hid hend ?_ (fun id ↦ ?_) ?_ ?_ ?_ ?_ ?_ ?_ ?_
  · rw [endings_cons, hend']
    rfl
  · rw [unreported_cons, List.count_append, hun]
    rfl
  · rw [eosIds_suspendStop]
    rfl
  · rw [stoppedIds_suspendStop]
    rfl
  · rw [mem_suspendStop]
    rfl
  · rw [entryId_suspendStop]
    rfl
  · rw [up_suspendStop]
    exact hup
  · exact putting_suspendStop (s.goIdle captured true) _ w
  · rw [trace_suspendStop]
    show s.trace ++ [.idled captured s.mem.sessionId s.entryId true] = _
    rw [hid]

/-- `_stop_session` is called, while the other coroutine is not at its EOS marker. -/
theorem orderly_beginStop {now : Stamp} (h : Orderly s (s.otherStops w)) (hup : s.up = true)
    (hnone : endings (s.otherStops w) = []) :
    Orderly (beginStop s now .ok w) (beginStop s now .ok w).stops := by
  rw [beginStop.eq_def]
  split
  · rename_i id hid
    -- The marker is stored with the call, and the stop now counts among those about to end `id`.
    refine Orderly.of_perm ?_ (perm_stops_suspendStop _ _ _)
    have hothers : ((s.record (.stopBegan (some id))).publish (.liveEos id) .ok).otherStops w =
        s.otherStops w := by
      cases w <;> rfl
    have hend : endings (.eosPublishing id now.iso :: s.otherStops w) = [id] := by
      rw [endings_cons, hnone]
      rfl
    have heos : ((s.record (.stopBegan (some id))).publish (.liveEos id) .ok).eosIds =
        s.eosIds ++ [id] := by
      simp [State.eosIds, State.publish, State.record, Stored.liveEosOf]
    rw [hothers]
    refine h.of_stops hup (fun id' ↦ ?_) (fun id' ↦ ?_) ?_ ?_ ?_ ?_ ?_ ?_
      (QuietTrace.of_event (e := .stopBegan (some id)) rfl ?_)
    · rw [eosIds_suspendStop, heos, List.count_append, h.counted.eos id', hnone, hend]
      simp
    · rw [stoppedIds_suspendStop, unreported_cons]
      exact h.counted.reported id'
    · intro id' hid'
      rw [hend, List.mem_singleton] at hid'
      rw [hid, hid']
    · rw [hend]
      exact le_rfl
    · rw [up_suspendStop]
      exact hup
    · rw [mem_suspendStop]
      rfl
    · rw [entryId_suspendStop]
      rfl
    · exact putting_suspendStop ((s.record (.stopBegan (some id))).publish (.liveEos id) .ok) _ w
    · rw [trace_suspendStop]
      rfl
  · rename_i hid
    have hcalled : Orderly (s.record (.stopBegan none)) (s.otherStops w) :=
      h.congr rfl rfl rfl rfl rfl (fun _ hid ↦ hid)
        (Quietly.of_event (e := .stopBegan none) rfl rfl rfl rfl)
    have hothers : (s.record (.stopBegan none)).otherStops w = s.otherStops w := by
      cases w <;> rfl
    refine orderly_idleStop hcalled hup hid hnone ?_ ?_
    · rw [hothers]
      exact hnone
    · rw [hothers]

/-- `_stop_session` publishes its lifecycle event. -/
theorem orderly_announceStop {captured : Option SessionId} {stoppedAt : String} {cleared : Bool}
    (h : Orderly s (.kvDeleting captured stoppedAt cleared :: s.otherStops w))
    (hup : s.up = true) : Orderly (announceStop s captured stoppedAt cleared .ok w)
      (announceStop s captured stoppedAt cleared .ok w).stops := by
  refine Orderly.of_perm ?_ (perm_stops_suspendStop _ _ _)
  have hothers : (s.announce (.stopped captured stoppedAt) .ok).otherStops w =
      s.otherStops w := by
    cases w <;> rfl
  have hstopped : (s.announce (.stopped captured stoppedAt) .ok).stoppedIds =
      s.stoppedIds ++ captured.toList := by
    cases captured <;> simp [State.stoppedIds, State.announce, Lifecycle.stoppedOf]
  have hend : endings (.eventPublishing captured cleared :: s.otherStops w) =
      endings (.kvDeleting captured stoppedAt cleared :: s.otherStops w) := by
    rw [endings_cons, endings_cons]
    rfl
  have htrace : (announceStop s captured stoppedAt cleared .ok w).trace = s.trace := by
    rw [announceStop, trace_suspendStop]
    rfl
  rw [hothers]
  refine h.of_stops hup (fun id ↦ ?_) (fun id ↦ ?_) ?_ ?_ ?_ ?_ ?_ ?_ (QuietTrace.of_eq htrace)
  · rw [announceStop, eosIds_suspendStop, hend]
    exact h.counted.eos id
  · -- The report moves the session from the unreported ones to the reported ones.
    have hold := h.counted.reported id
    rw [unreported_cons, List.count_append] at hold
    rw [announceStop, stoppedIds_suspendStop, hstopped, unreported_cons, List.count_append,
      List.count_append, hold]
    simp only [StopPc.ended, Option.toList_none, List.count_nil]
    omega
  · rw [hend]
    exact h.ending
  · rw [hend]
    exact h.sole
  · rw [announceStop, up_suspendStop]
    exact hup
  · rw [announceStop, mem_suspendStop]
    rfl
  · rw [announceStop, entryId_suspendStop]
    rfl
  · exact putting_suspendStop (s.announce (.stopped captured stoppedAt) .ok) _ w

/-- `_stop_session` returns. -/
theorem orderly_finishStop {captured : Option SessionId} {cleared : Bool}
    (h : Orderly s (.eventPublishing captured cleared :: s.otherStops w)) (hup : s.up = true) :
    Orderly (finishStop s captured cleared .ok w)
      (finishStop s captured cleared .ok w).stops := by
  have hstops : (finishStop s captured cleared .ok w).stops = s.otherStops w := by
    cases w
    · rfl
    · exact List.append_nil _
  have hend : endings (s.otherStops w) =
      endings (.eventPublishing captured cleared :: s.otherStops w) := by
    rw [endings_cons]
    rfl
  have hun : unreported (s.otherStops w) =
      unreported (.eventPublishing captured cleared :: s.otherStops w) := by
    rw [unreported_cons]
    rfl
  rw [hstops]
  refine h.of_stops hup (fun id ↦ ?_) (fun id ↦ ?_) ?_ ?_ ?_ ?_ ?_ ?_
    (QuietTrace.of_event (e := .stopReturned captured cleared) rfl ?_)
  · rw [hend]
    cases w <;> exact h.counted.eos id
  · rw [hun]
    cases w <;> exact h.counted.reported id
  · rw [hend]
    exact h.ending
  · rw [hend]
    exact h.sole
  · cases w <;> exact hup
  · cases w <;> rfl
  · cases w <;> rfl
  · cases w
    · exact fun id hid ↦ hid
    · exact nofun
  · cases w <;> rfl

/-- **`_stop_session`, from any of its awaits.** -/
theorem orderly_stopStep {pc : StopPc} (h : Orderly s (pc :: s.otherStops w))
    (hup : s.up = true) : Orderly (stopStep s pc .ok w) (stopStep s pc .ok w).stops := by
  cases pc with
  | eosPublishing id stoppedAt =>
    have hend : endings (.eosPublishing id stoppedAt :: s.otherStops w) =
        id :: endings (s.otherStops w) := by
      rw [endings_cons]
      rfl
    have hothers : endings (s.otherStops w) = [] := by
      have hsole := h.sole
      rw [hend, List.length_cons] at hsole
      exact List.length_eq_zero_iff.1 (by omega)
    refine orderly_idleStop h hup (h.ending id (by rw [hend]; simp)) ?_ hothers ?_
    · rw [hend, hothers]
      rfl
    · rw [unreported_cons]
      rfl
  | kvDeleting captured stoppedAt cleared => exact orderly_announceStop h hup
  | eventPublishing captured cleared => exact orderly_finishStop h hup

/-- With the control loop not in a stop, only the audio loop's stop is in progress. -/
theorem Orderly.of_ctrl (h : Orderly s s.audio.stops) (hctrl : s.ctrl.stops = []) :
    Orderly s s.stops := by
  rw [State.stops, hctrl, List.append_nil]
  exact h

theorem Orderly.to_ctrl (h : Orderly s s.stops) (hctrl : s.ctrl.stops = []) :
    Orderly s s.audio.stops := by
  rwa [State.stops, hctrl, List.append_nil] at h

/-- `_start_session` spawns its flush task and publishes its lifecycle event. -/
theorem orderly_spawnFlush {stamp : Stamp} {label : Json} {since : ℕ} {value : Option ℤ}
    (h : Orderly s s.audio.stops) :
    Orderly (spawnFlush s stamp label since value .ok) s.audio.stops := by
  refine h.congr rfl rfl rfl rfl rfl nofun (Quietly.of_eq rfl ?_ rfl)
  simp [State.stoppedIds, spawnFlush, State.announce, Lifecycle.stoppedOf]

/-- `_start_session` makes its session active. -/
theorem orderly_activate {stamp : Stamp} {label : Json} (h : Orderly s s.audio.stops)
    (hput : stamp.id ∈ s.ctrl.putting) :
    Orderly (activate s stamp label .ok) s.audio.stops := by
  rw [activate]
  split
  · exact h.of_activate hput rfl rfl rfl rfl rfl rfl
      (Quietly.of_event (e := .activated stamp.id) rfl rfl rfl rfl)
  · refine h.of_activate hput rfl rfl rfl rfl rfl rfl
      (Quietly.of_event (e := .activated stamp.id) rfl rfl ?_ rfl)
    simp [State.stoppedIds, spawnFlush, State.announce, State.makeActive, State.record,
      Lifecycle.stoppedOf]

/-- `_start_session` is called, with an id that no start has taken. -/
theorem orderly_beginStart {stamp : Stamp} {label : Json} (h : Orderly s s.audio.stops)
    (hup : s.up = true) (hidle : s.mem.isActive = false)
    (hfresh : .startBegan stamp.id ∉ s.trace) :
    Orderly (beginStart s stamp label .ok) (beginStart s stamp label .ok).stops := by
  have hnone : s.mem.sessionId = none := by
    have hactive := h.active
    rw [hidle] at hactive
    exact Option.not_isSome_iff_eq_none.1 (by rw [← hactive]; simp)
  have hkv : (s.record (.startBegan stamp.id)).mem.sessionKv = true := h.handles hup
  simp only [beginStart]
  rw [if_pos hkv, if_pos Reply.applied_ok]
  refine Orderly.of_ctrl ?_ rfl
  refine h.of_put hnone hfresh rfl rfl rfl rfl ⟨rfl, rfl, ?_⟩ ?_
  · refine ⟨[.startBegan stamp.id, .kvPut (entryOf stamp label)], List.append_assoc _ [_] [_], ?_⟩
    exact List.forall_mem_cons.2 ⟨rfl, List.forall_mem_singleton.2 rfl⟩
  · exact List.mem_append_left _ (List.mem_append_right _ (List.mem_singleton_self _))

/-- A step of the control loop that only moves it on. -/
theorem orderly_ctrl (h : Orderly s s.audio.stops) (ctrl : CtrlPc) (hput : ctrl.putting = [])
    (hstops : ctrl.stops = []) :
    Orderly { s with ctrl := ctrl } ({ s with ctrl := ctrl } : State).stops := by
  refine Orderly.of_ctrl ?_ hstops
  refine h.congr rfl rfl rfl rfl rfl ?_ (Quietly.of_eq rfl rfl rfl)
  rw [hput]
  exact nofun

/-- The calls of a start keep the invariant, whatever stop the audio loop has in progress. -/
theorem orderly_startStep {pc : StartPc} (h : Orderly s s.audio.stops)
    (hctrl : s.ctrl = .starting pc) :
    Orderly (startStep s pc .ok) (startStep s pc .ok).stops := by
  obtain ⟨haudio, hstops⟩ := audio_startStep (s := s) .ok pc
  refine Orderly.of_ctrl ?_ hstops
  rw [haudio]
  cases pc with
  | kvPutting stamp label =>
    refine orderly_activate h ?_
    rw [hctrl]
    exact List.mem_singleton_self _
  | configReading stamp label since value => exact orderly_spawnFlush h
  | eventPublishing => exact h.congr rfl rfl rfl rfl rfl nofun (Quietly.of_eq rfl rfl rfl)

end Functions

end LiveSTT.AudioProducer
