import LiveSTT.IdentityManager.Conservation
import LiveSTT.IdentityManager.Pools

/-!
# What a published payload is made of

identity-manager makes its payloads of what is delivered to it. Let `T` hold of the transcripts that
are delivered and `I` of the identity events. Then in every run what is published for a final
transcript is a payload with `T`, its speaker set, and the speaker is `"Unknown"` or that of an
event with `I` (`made_step`). Nothing else is ever published, whatever is delivered twice, evicted
or lost.

The two predicates are parameters, so that the result can be used by whoever delivers: for a stream
`T` and `I` say that the message is on it, and a composition learns that what is published is made
of messages of the stream. They may grow while the service holds a transcript (`Event.MadeOf.mono`).
-/

namespace LiveSTT.IdentityManager

open EventLog

/-- What the loop holds and has not published. -/
def FusionPc.held (pc : FusionPc) : List Pending := pc.current ++ (pc.rest ++ pc.stillPending)

variable {T I T' I' : Dict → Prop} {fromisoformat : String → Option ℚ} {s t : State}
  {held held' : List Pending}

variable (T I) in
/-- What an event stores is made of what was delivered. -/
def Event.MadeOf : Event → Prop
  | .published _ source payload identity => ∃ data, T data ∧
      (Dict.getOr data "is_final" .null).truthy = true ∧ source = sourceOf data ∧
      payload = data.set "speaker" (speakerOf identity) ∧ ∀ e, identity = some e → I e.data
  | .forwarded source payload => ∃ data, T data ∧
      ¬ (Dict.getOr data "is_final" .null).truthy = true ∧ source = sourceOf data ∧
      payload = data.set "speaker" .null
  | _ => True

variable (T I) in
/-- The same for all that the service has in hand; `held` is what its loop does. -/
structure Made (s : State) (held : List Pending) : Prop where
  pending : ∀ p ∈ s.pending ++ held, T p.data ∧ (Dict.getOr p.data "is_final" .null).truthy = true
  pools : ∀ lane, ∀ e ∈ s.pool lane, I e.data
  log : ∀ e ∈ s.log, e.MadeOf T I

variable (T I) in
/-- An action delivers a transcript with `T`, or an event with `I`. -/
def Action.Delivers : Action → Prop
  | .transcript (some (.obj data)) _ _ => T data
  | .identity _ (some (.obj data)) => I data
  | _ => True

/-- The sources may grow. -/
theorem Event.MadeOf.mono {e : Event} (h : e.MadeOf T I) (hT : ∀ data, T data → T' data)
    (hI : ∀ data, I data → I' data) : e.MadeOf T' I' := by
  cases e with
  | published msg source payload identity =>
    obtain ⟨data, hdata, hfinal, hsource, hpayload, hidentity⟩ := h
    exact ⟨data, hT data hdata, hfinal, hsource, hpayload, fun e he ↦ hI _ (hidentity e he)⟩
  | forwarded source payload =>
    obtain ⟨data, hdata, hrest⟩ := h
    exact ⟨data, hT data hdata, hrest⟩
  | _ => trivial

theorem Made.mono (h : Made T I s held) (hT : ∀ data, T data → T' data)
    (hI : ∀ data, I data → I' data) : Made T' I' s held :=
  ⟨fun p hp ↦ ⟨hT _ (h.pending p hp).1, (h.pending p hp).2⟩,
    fun lane e he ↦ hI _ (h.pools lane e he),
    fun e he ↦ (h.log e he).mono hT hI⟩

/-- A part of the service that takes nothing new in hand: it may let things go, and log events that
are made of what it had. -/
theorem Made.of_log {es : List Event} (h : Made T I s held)
    (hpending : ∀ p ∈ t.pending ++ held', p ∈ s.pending ++ held)
    (hpools : ∀ lane, ∀ e ∈ t.pool lane, e ∈ s.pool lane) (hlog : t.log = s.log ++ es)
    (hes : ∀ e ∈ es, e.MadeOf T I) : Made T I t held' := by
  refine ⟨fun p hp ↦ h.pending p (hpending p hp), fun lane e he ↦ h.pools lane e (hpools lane e he),
    fun e he ↦ ?_⟩
  rw [hlog] at he
  exact (List.mem_append.1 he).elim (h.log e) (hes e)

/-- The same where nothing is logged. -/
theorem Made.of_unlogged (h : Made T I s held)
    (hpending : ∀ p ∈ t.pending ++ held', p ∈ s.pending ++ held)
    (hpools : ∀ lane, ∀ e ∈ t.pool lane, e ∈ s.pool lane) (hlog : t.log = s.log) :
    Made T I t held' :=
  h.of_log hpending hpools (hlog.trans (List.append_nil _).symm) nofun

/-! ### What each function preserves -/

/-- The loop publishes a transcript that it holds, with the speaker of an event of a pool. -/
theorem made_nextItem {now : ℚ} {rest still : List Pending} (h : Made T I s (rest ++ still))
    (r : Reply) : Made T I (nextItem fromisoformat s now rest still r)
      (nextItem fromisoformat s now rest still r).fusion.held := by
  rw [nextItem]
  split
  · rename_i out hscan
    refine h.of_unlogged (fun p hp ↦ ?_) (fun lane e he ↦ by cases lane <;> exact he) rfl
    show p ∈ s.pending ++ (rest ++ still)
    have hp' : p ∈ (out ++ s.pending) ++ [] := hp
    rw [scan_done hscan] at hp'
    simp only [List.mem_append] at hp' ⊢
    tauto
  · rename_i item identity rest' still' hscan
    obtain ⟨skipped, rfl, rfl, hverdict⟩ := scan_publish hscan
    refine h.of_log (fun p hp ↦ ?_) (fun lane e he ↦ by cases lane <;> exact he) rfl fun e he ↦ ?_
    · have hp' : p ∈ s.pending ++ ([item] ++ (rest' ++ (still ++ skipped))) := hp
      simp only [List.mem_append, List.mem_cons] at hp' ⊢
      tauto
    · obtain ⟨-, rfl⟩ := mem_ite_singleton.1 he
      have hitem := h.pending item (by simp)
      refine ⟨item.data, hitem.1, hitem.2, rfl, rfl, fun e hidentity ↦ ?_⟩
      subst hidentity
      exact h.pools _ e (mem_pool_of_verdict hverdict)

/-- The item is acked and leaves the hand; what was stored stays. -/
theorem made_ack {now : ℚ} {item : Pending} {rest still : List Pending}
    (h : Made T I s (item :: (rest ++ still))) (r : Reply) :
    Made T I (ack s now item rest still r) (rest ++ still) := by
  refine h.of_log (fun p hp ↦ ?_) (fun lane e he ↦ by cases lane <;> exact he) rfl fun e he ↦ ?_
  · have hp' : p ∈ s.pending ++ (rest ++ still) := hp
    rw [List.mem_append] at hp' ⊢
    exact hp'.imp_right (List.mem_cons_of_mem _)
  · obtain ⟨-, rfl⟩ := mem_ite_singleton.1 he
    trivial

/-- So it is when the item is given back. -/
theorem made_nak {now : ℚ} {item : Pending} {rest still : List Pending} (h : Made T I s held)
    (hheld : ∀ p ∈ rest ++ still, p ∈ held) (r : Reply) :
    Made T I (nak s now item rest still r) (rest ++ still) := by
  refine h.of_log (fun p hp ↦ ?_) (fun lane e he ↦ by cases lane <;> exact he) rfl fun e he ↦ ?_
  · have hp' : p ∈ s.pending ++ (rest ++ still) := hp
    rw [List.mem_append] at hp' ⊢
    exact hp'.imp_right (hheld p)
  · rcases List.mem_cons.1 he with rfl | he
    · trivial
    · obtain ⟨-, rfl⟩ := mem_ite_singleton.1 he
      trivial

/-- An eviction stores nothing. -/
theorem made_evictOldest (h : Made T I s held) (r : Reply) : Made T I (evictOldest s r) held := by
  rw [evictOldest.eq_def]
  split
  · exact h
  · rename_i oldest rest hpending
    refine h.of_log (fun p hp ↦ ?_) (fun lane e he ↦ by cases lane <;> exact he) rfl fun e he ↦ ?_
    · have hp' : p ∈ rest ++ held := hp
      rw [hpending, List.cons_append]
      exact List.mem_cons_of_mem _ hp'
    · rcases List.mem_cons.1 he with rfl | he
      · trivial
      · obtain ⟨-, rfl⟩ := mem_ite_singleton.1 he
        trivial

/-- A final transcript is taken up as it was delivered. -/
theorem made_receiveFinal {data : Dict} (h : Made T I s held) (hdata : T data)
    (hfinal : (Dict.getOr data "is_final" .null).truthy = true) (now : ℚ) (r : Reply) :
    Made T I (receiveFinal s data now r) held := by
  have henqueue : Made T I (enqueue s data now) held := by
    refine ⟨fun p hp ↦ ?_, fun lane e he ↦ h.pools lane e (by cases lane <;> exact he), h.log⟩
    have hp' : p ∈ s.pending ++ [⟨data, now, s.deliveries⟩] ++ held := hp
    simp only [List.mem_append, List.mem_singleton] at hp'
    rcases hp' with (hold | rfl) | hheld
    · exact h.pending p (List.mem_append_left _ hold)
    · exact ⟨hdata, hfinal⟩
    · exact h.pending p (List.mem_append_right _ hheld)
  simp only [receiveFinal]
  split
  · exact made_evictOldest henqueue r
  · exact henqueue

theorem made_receiveInterim {data : Dict} (h : Made T I s held) (hdata : T data)
    (hinterim : ¬ (Dict.getOr data "is_final" .null).truthy = true) (r : Reply) :
    Made T I (receiveInterim s data r) held := by
  refine h.of_log (fun p hp ↦ hp) (fun lane e he ↦ by cases lane <;> exact he) rfl fun e he ↦ ?_
  obtain ⟨-, rfl⟩ := mem_ite_singleton.1 he
  exact ⟨data, hdata, hinterim, rfl, rfl⟩

/-- An identity event is filed as it was delivered. -/
theorem made_identityStep {lane : Lane} {payload : Option Json} (h : Made T I s held)
    (hpayload : ∀ data, payload = some (.obj data) → I data) :
    Made T I (identityStep s lane payload) held := by
  rw [identityStep.eq_def]
  split
  · rename_i data
    refine ⟨?_, fun pool e he ↦ ?_, fun e he ↦ ?_⟩
    · rw [State.pending_file]
      exact h.pending
    · rcases mem_pool_file he with hold | ⟨rfl, -⟩
      · exact h.pools pool e (by cases pool <;> exact hold)
      · exact hpayload data rfl
    · rw [State.log_file] at he
      rcases List.mem_append.1 he with hold | hnew
      · exact h.log e hold
      · rw [List.mem_singleton.1 hnew]
        trivial
  · exact h

/-! ### Every run -/

/-- A subscriber leaves the loop where it is. -/
theorem Made.of_fusion (h : Made T I t s.fusion.held) (hfusion : t.fusion = s.fusion) :
    Made T I t t.fusion.held := by
  rwa [hfusion]

/-- **One step.** -/
theorem made_step {a : Action} (h : Made T I s s.fusion.held) (ha : a.Delivers T I)
    (ht : step fromisoformat s a = some t) : Made T I t t.fusion.held := by
  have hloop := h
  have hpools {u : State} (hlive : u.liveIdentities = s.liveIdentities)
      (hbackfill : u.backfillIdentities = s.backfillIdentities) (lane : Lane) :
      ∀ e ∈ u.pool lane, e ∈ s.pool lane := by
    intro e he
    cases lane with
    | live => rwa [State.pool, hlive] at he
    | backfill => rwa [State.pool, hbackfill] at he
  cases stepped_of_step ht with
  | final _ _ hfinal now r =>
    exact (made_receiveFinal h ha hfinal now r).of_fusion (fusion_receiveFinal _ _ _ _)
  | interim _ _ hinterim _ r => exact (made_receiveInterim h ha hinterim r).of_fusion rfl
  | unreadable =>
    have hkept : Made T I { s with deliveries := s.deliveries + 1 } s.fusion.held :=
      h.of_unlogged (fun p hp ↦ hp) (hpools rfl rfl) rfl
    exact hkept.of_fusion rfl
  | evicted | unforwarded | interimAcked =>
    have hkept : Made T I { s with subscriber := .fetching } s.fusion.held :=
      h.of_unlogged (fun p hp ↦ hp) (hpools rfl rfl) rfl
    exact hkept.of_fusion rfl
  | @forwarded msg _ _ r =>
    have hkept : Made T I
        { s.logs (if r.applied then [.acked msg] else []) with subscriber := .acking }
        s.fusion.held := by
      refine h.of_log (fun p hp ↦ hp) (hpools rfl rfl) rfl fun e he ↦ ?_
      obtain ⟨-, rfl⟩ := mem_ite_singleton.1 he
      trivial
    exact hkept.of_fusion rfl
  | identity _ lane payload =>
    refine (made_identityStep h fun data hdata ↦ ?_).of_fusion (fusion_identityStep _ _ _)
    rwa [hdata] at ha
  | wake hpc now r =>
    rw [hpc] at hloop
    have hbatch : Made T I { s with pending := [] } (s.pending ++ []) :=
      ⟨fun p hp ↦ hloop.pending p hp, h.pools, h.log⟩
    exact made_nextItem hbatch r
  | @published _ item rest still hpc now r =>
    rw [hpc] at hloop
    have hheld : Made T I s (item :: (rest ++ still)) := hloop
    exact made_ack hheld r
  | @unpublished _ item rest still hpc now r =>
    rw [hpc] at hloop
    have hheld : Made T I s (item :: (rest ++ still)) := hloop
    exact made_nak hheld (fun p hp ↦ List.mem_cons_of_mem _ hp) r
  | @acked _ item rest still hpc now r =>
    rw [hpc] at hloop
    have hheld : Made T I s (rest ++ still) := hloop
    exact made_nextItem hheld r
  | @unacked _ item rest still hpc now r =>
    rw [hpc] at hloop
    have hheld : Made T I s (rest ++ still) := hloop
    exact made_nak hheld (fun p hp ↦ hp) r
  | @naked _ rest still hpc now r =>
    rw [hpc] at hloop
    have hheld : Made T I s (rest ++ still) := hloop
    exact made_nextItem hheld r
  | unnaked hpc now r =>
    refine h.of_unlogged (fun p hp ↦ ?_) (hpools rfl rfl) rfl
    have hp' : p ∈ s.pending ++ [] := hp
    rw [List.append_nil] at hp'
    exact List.mem_append_left _ hp'
  | restart =>
    exact h.of_unlogged (fun p hp ↦ absurd hp List.not_mem_nil)
      (fun lane e he ↦ by cases lane <;> exact absurd he List.not_mem_nil) rfl

theorem made_init : Made T I {} FusionPc.sleeping.held :=
  ⟨nofun, fun lane e he ↦ by cases lane <;> exact absurd he List.not_mem_nil, nofun⟩

end LiveSTT.IdentityManager
