import LiveSTT.IdentityManager.Conservation
import LiveSTT.IdentityManager.Effects

/-!
# Publish before ack

The message of a final transcript is acked in two places: by the fusion loop after its publish
returned, and by the overflow rule, which evicts the oldest pending transcript beyond `MAX_BUFFER`
without publishing it. This module proves that there is no third way, in every run — restarts,
failing acks and naks, lost answers included: an ack of a final transcript comes after the publish
of its fused payload, or after its eviction from an overfull list (`ack_after_publish_or_eviction`).

The law is one about the order of the log, so it is stated as `Justified` and carried from step to
step with the fact that ties the loop's position to the log: past a publish that returned, the fused
payload is in the log.

A nak gives the message back, to be delivered again under the same number; so the law speaks of the
delivery and not of the payload, and `Accounted` says besides that no number was acked that is still
to come. A publish that raises leads to a nak, never to an ack.
-/

namespace LiveSTT.IdentityManager

open EventLog

/-! ### The law -/

/-- The fused payload of a delivery was stored on `transcript.final.<source>`. -/
def Published (log : List Event) (d : ℕ) (data : Dict) : Prop :=
  ∃ identity,
    .published d (sourceOf data) (data.set "speaker" (speakerOf identity)) identity ∈ log

/-- The delivery was popped from a pending list that was too long. -/
def Evicted (log : List Event) (d : ℕ) : Prop :=
  ∃ len, maxBuffer < len ∧ .evicted d len ∈ log

/-- When an event may follow a log: the ack of a final transcript after its publish or its eviction,
an eviction from an overfull list only. -/
def MayFollow (finals : List (ℕ × Dict)) (log : List Event) : Event → Prop
  | .acked d => ∀ data, (d, data) ∈ finals → Published log d data ∨ Evicted log d
  | .evicted _ len => maxBuffer < len
  | _ => True

/-- The law, with what makes it inductive: the transcripts in the service's hands are those that
were delivered, and no delivery to come was acked. -/
structure Accounted (s : State) (held : List Pending) : Prop where
  known : ∀ p ∈ s.pending ++ held, (p.msg, p.data) ∈ s.finals
  nodup : s.finalMsgs.Nodup
  lt : ∀ d ∈ s.finalMsgs, d < s.deliveries
  acked_lt : ∀ d, .acked d ∈ s.log → d < s.deliveries
  interim : ∀ msg raised, s.subscriber = .forwarding msg raised →
    msg ∉ s.finalMsgs ∧ msg < s.deliveries
  lawful : Justified (MayFollow s.finals) s.log

/-- The invariant: the law, and past a publish that returned the fused payload is in the log. -/
def Lawful (s : State) : Prop :=
  match s.fusion with
  | .publishing _ item rest still raised =>
    Accounted s (item :: (rest ++ still)) ∧ (raised = false → Published s.log item.msg item.data)
  | f => Accounted s (f.rest ++ f.stillPending)

namespace Accounted

variable {s t : State} {held held' : List Pending}

/-- A delivery's data is what was delivered. -/
theorem data_unique (h : Accounted s held) {d : ℕ} {data data' : Dict} (hd : (d, data) ∈ s.finals)
    (hd' : (d, data') ∈ s.finals) : data = data' :=
  congrArg Prod.snd (List.inj_on_of_nodup_map h.nodup hd hd' rfl)

theorem mem_finalMsgs_of_held (h : Accounted s held) {p : Pending} (hp : p ∈ s.pending ++ held) :
    p.msg ∈ s.finalMsgs :=
  List.mem_map_of_mem (f := Prod.fst) (h.known p hp)

/-- What the fusion loop does: it logs lawful events and gives up transcripts. -/
theorem of_logs (h : Accounted s held) {es : List Event} (hlog : t.log = s.log ++ es)
    (hheld : ∀ p ∈ t.pending ++ held', p ∈ s.pending ++ held) (hfinals : t.finals = s.finals)
    (hdel : t.deliveries = s.deliveries)
    (hsub : ∀ msg raised, t.subscriber = .forwarding msg raised →
      s.subscriber = .forwarding msg raised)
    (hacked : ∀ d, .acked d ∈ es → d < s.deliveries)
    (hes : Justified (MayFollow s.finals) (s.log ++ es)) : Accounted t held' := by
  have hfm : t.finalMsgs = s.finalMsgs := by rw [State.finalMsgs, hfinals, State.finalMsgs]
  refine ⟨?_, ?_, ?_, ?_, ?_, ?_⟩
  · rw [hfinals]
    exact fun p hp ↦ h.known p (hheld p hp)
  · rw [hfm]
    exact h.nodup
  · rw [hfm, hdel]
    exact h.lt
  · intro d hd
    rw [hlog, List.mem_append] at hd
    rw [hdel]
    exact hd.elim (h.acked_lt d) (hacked d)
  · rw [hfm, hdel]
    exact fun msg raised hmsg ↦ h.interim msg raised (hsub msg raised hmsg)
  · rw [hfinals, hlog]
    exact hes

/-- Events that need no justification. -/
theorem of_free_logs (h : Accounted s held) {es : List Event} (hlog : t.log = s.log ++ es)
    (hheld : ∀ p ∈ t.pending ++ held', p ∈ s.pending ++ held) (hfinals : t.finals = s.finals)
    (hdel : t.deliveries = s.deliveries)
    (hsub : ∀ msg raised, t.subscriber = .forwarding msg raised →
      s.subscriber = .forwarding msg raised)
    (hes : ∀ e ∈ es, ∀ d len, e ≠ .acked d ∧ e ≠ .evicted d len) : Accounted t held' := by
  refine h.of_logs hlog hheld hfinals hdel hsub (fun d hd ↦ absurd rfl (hes _ hd d 0).1) ?_
  refine h.lawful.append_of_forall fun pre _ e he ↦ ?_
  cases e with
  | acked d => exact absurd rfl (hes _ he d 0).1
  | evicted d len => exact absurd rfl (hes _ he d len).2
  | _ => trivial

end Accounted

/-! ### What each function preserves -/

section Functions

variable {fromisoformat : String → Option ℚ} {s : State} {held : List Pending}

/-- The loop publishes its next item, or gives it back, or is done. -/
theorem lawful_nextItem {now : ℚ} {rest still : List Pending} (h : Accounted s (rest ++ still))
    (r : Reply) : Lawful (nextItem fromisoformat s now rest still r) := by
  rw [nextItem]
  split
  · rename_i out hscan
    show Accounted _ []
    refine h.of_free_logs (List.append_nil _).symm (fun p hp ↦ ?_) rfl rfl
      (fun msg raised hmsg ↦ hmsg) (by simp)
    simp only [scan_done hscan, List.append_nil, List.mem_append] at hp ⊢
    tauto
  · rename_i item identity rest' still' hscan
    obtain ⟨skipped, rfl, rfl, -⟩ := scan_publish hscan
    refine ⟨h.of_free_logs rfl (fun p hp ↦ ?_) rfl rfl (fun msg raised hmsg ↦ hmsg) ?_, ?_⟩
    · simp only [publish, State.logs, List.mem_append, List.mem_cons] at hp ⊢
      tauto
    · intro e he d len
      obtain ⟨-, rfl⟩ := mem_ite_singleton.1 he
      simp
    · intro hr
      refine ⟨identity, ?_⟩
      simp [publish, State.logs, Reply.applied_of_not_raised hr]

/-- The ack after a publish that returned. -/
theorem lawful_ack {now : ℚ} {item : Pending} {rest still : List Pending}
    (h : Accounted s (item :: (rest ++ still))) (hpub : Published s.log item.msg item.data)
    (r : Reply) : Lawful (ack s now item rest still r) := by
  have hitem : (item.msg, item.data) ∈ s.finals := h.known item (by simp)
  show Accounted _ (rest ++ still)
  refine h.of_logs rfl (fun p hp ↦ ?_) rfl rfl (fun msg raised hmsg ↦ hmsg) ?_ ?_
  · simp only [ack, State.logs, State.resolve, List.mem_append, List.mem_cons] at hp ⊢
    tauto
  · intro d hd
    obtain ⟨-, hd⟩ := mem_ite_singleton.1 hd
    obtain rfl := Event.acked.inj hd
    exact h.lt _ (h.mem_finalMsgs_of_held (by simp))
  · split
    · refine h.lawful.append_singleton fun data hdata ↦ Or.inl ?_
      rwa [h.data_unique hdata hitem]
    · rw [List.append_nil]
      exact h.lawful

/-- The `except` branch acks nothing. -/
theorem lawful_nak {now : ℚ} {item : Pending} {rest still : List Pending}
    (h : Accounted s held) (hheld : ∀ p ∈ rest ++ still, p ∈ held) (r : Reply) :
    Lawful (nak s now item rest still r) := by
  show Accounted _ (rest ++ still)
  refine h.of_free_logs rfl (fun p hp ↦ ?_) rfl rfl (fun msg raised hmsg ↦ hmsg) ?_
  · rcases List.mem_append.1 hp with hp | hp
    · exact List.mem_append_left _ hp
    · exact List.mem_append_right _ (hheld p hp)
  · intro e he d len
    rcases List.mem_cons.1 he with rfl | he
    · exact ⟨nofun, nofun⟩
    · obtain ⟨-, rfl⟩ := mem_ite_singleton.1 he
      exact ⟨nofun, nofun⟩

/-- The overflow rule: the list was too long, and the ack follows the eviction. -/
theorem accounted_evictOldest (h : Accounted s held) (hlong : maxBuffer < s.pending.length)
    (r : Reply) : Accounted (evictOldest s r) held := by
  rw [evictOldest.eq_def]
  split
  · exact h
  · rename_i oldest rest hpending
    have hlt : oldest.msg < s.deliveries := h.lt _ (h.mem_finalMsgs_of_held (by simp [hpending]))
    refine h.of_logs rfl (fun p hp ↦ ?_) rfl rfl (by simp) ?_ ?_
    · rw [hpending]
      exact List.mem_cons_of_mem _ hp
    · intro d hd
      obtain ⟨-, hd⟩ := mem_ite_singleton.1 ((List.mem_cons.1 hd).resolve_left (by simp))
      obtain rfl := Event.acked.inj hd
      exact hlt
    · rw [List.append_cons]
      have hevicted : Justified (MayFollow s.finals)
          (s.log ++ [.evicted oldest.msg s.pending.length]) :=
        h.lawful.append_singleton (show maxBuffer < s.pending.length from hlong)
      split
      · refine hevicted.append_singleton fun data _ ↦ Or.inr ⟨s.pending.length, hlong, ?_⟩
        exact List.mem_append_right _ (List.mem_singleton_self _)
      · rwa [List.append_nil]

/-- A final transcript arrives. Its delivery was not acked before it existed. -/
theorem accounted_receiveFinal (h : Accounted s held) (data : Dict) (now : ℚ) (r : Reply) :
    Accounted (receiveFinal s data now r) held := by
  have hmsgs := finalMsgs_enqueue s data now
  have harrived : Accounted (enqueue s data now) held := by
    refine ⟨?_, ?_, ?_, ?_, ?_, ?_⟩
    · intro p hp
      simp only [enqueue, List.append_assoc, List.mem_append, List.mem_singleton] at hp ⊢
      rcases hp with hp | rfl | hp
      · exact Or.inl (h.known p (List.mem_append_left _ hp))
      · exact Or.inr rfl
      · exact Or.inl (h.known p (List.mem_append_right _ hp))
    · exact nodup_finalMsgs_enqueue h.nodup h.lt data now
    · exact lt_of_mem_finalMsgs_enqueue h.lt data now
    · exact fun d hd ↦ Nat.lt_succ_of_lt (h.acked_lt d hd)
    · intro msg raised hmsg
      obtain ⟨hmem, hlt⟩ := h.interim msg raised hmsg
      exact ⟨not_mem_finalMsgs_enqueue hmem hlt data now, Nat.lt_succ_of_lt hlt⟩
    · intro pre e post hlog
      have hold := h.lawful hlog
      cases e with
      | acked d =>
        -- An ack in the log is of an earlier delivery, so the new one is not concerned.
        intro data' hd
        have hlt : d < s.deliveries := h.acked_lt d (by rw [show s.log = _ from hlog]; simp)
        rcases List.mem_append.1 hd with hd | hd
        · exact hold data' hd
        · obtain ⟨rfl, -⟩ : d = s.deliveries ∧ data' = data := by simpa using hd
          exact absurd hlt (lt_irrefl _)
      | _ => exact hold
  simp only [receiveFinal]
  split
  · rename_i hlong
    exact accounted_evictOldest harrived hlong r
  · exact harrived

/-- An interim transcript: its delivery is no final transcript's, and its ack is free. -/
theorem accounted_receiveInterim (h : Accounted s held) (data : Dict) (r : Reply) :
    Accounted (receiveInterim s data r) held := by
  refine ⟨h.known, h.nodup, fun d hd ↦ Nat.lt_succ_of_lt (h.lt d hd), ?_, ?_, ?_⟩
  · intro d hd
    refine Nat.lt_succ_of_lt (h.acked_lt d ?_)
    rcases List.mem_append.1 hd with hd | hd
    · exact hd
    · nomatch (mem_ite_singleton.1 hd).2
  · intro msg raised hmsg
    simp only [receiveInterim, SubscriberPc.forwarding.injEq] at hmsg
    obtain ⟨rfl, -⟩ := hmsg
    exact ⟨fun hd ↦ absurd (h.lt _ hd) (by omega), Nat.lt_succ_self _⟩
  · refine h.lawful.append_of_forall fun pre _ e he ↦ ?_
    obtain ⟨-, rfl⟩ := mem_ite_singleton.1 he
    trivial

/-- A payload that cannot be handled: the delivery is counted and stays unacked. -/
theorem accounted_unreadable (h : Accounted s held) :
    Accounted { s with deliveries := s.deliveries + 1 } held :=
  ⟨h.known, h.nodup, fun d hd ↦ Nat.lt_succ_of_lt (h.lt d hd),
    fun d hd ↦ Nat.lt_succ_of_lt (h.acked_lt d hd),
    fun msg raised hmsg ↦ (h.interim msg raised hmsg).imp_right Nat.lt_succ_of_lt, h.lawful⟩

/-- The handling of a message is over. -/
theorem accounted_fetching (h : Accounted s held) :
    Accounted { s with subscriber := .fetching } held :=
  ⟨h.known, h.nodup, h.lt, h.acked_lt, by simp, h.lawful⟩

/-- The ack of an interim transcript. -/
theorem accounted_forwarded (h : Accounted s held) {msg : ℕ}
    (hsub : s.subscriber = .forwarding msg false) (r : Reply) : Accounted
      { s.logs (if r.applied then [.acked msg] else []) with subscriber := .acking } held := by
  obtain ⟨hmem, hlt⟩ := h.interim msg false hsub
  refine h.of_logs rfl (fun p hp ↦ hp) rfl rfl (by simp) ?_ ?_
  · intro d hd
    obtain ⟨-, hd⟩ := mem_ite_singleton.1 hd
    obtain rfl := Event.acked.inj hd
    exact hlt
  · split
    · refine h.lawful.append_singleton fun data hdata ↦ absurd ?_ hmem
      exact List.mem_map_of_mem (f := Prod.fst) hdata
    · rw [List.append_nil]
      exact h.lawful

/-- Identity events touch no transcript. -/
theorem accounted_identityStep (h : Accounted s held) (lane : Lane) (payload : Option Json) :
    Accounted (identityStep s lane payload) held := by
  rw [identityStep.eq_def]
  split
  · rename_i data
    have hlog : ((s.logs [.filed ⟨lane, data⟩ (poolOf (sourceOf data))]).file ⟨lane, data⟩
        (poolOf (sourceOf data))).log = s.log ++ [.filed ⟨lane, data⟩ (poolOf (sourceOf data))] :=
      State.log_file _ _ _
    refine h.of_free_logs hlog ?_ ?_ ?_ ?_ ?_ <;> simp [State.logs]
  · exact h

end Functions

/-! ### Runs -/

/-- Filing extends the log. -/
theorem log_extends_identityStep (s : State) (lane : Lane) (payload : Option Json) :
    s.log <+: (identityStep s lane payload).log := by
  rw [identityStep.eq_def]
  split
  · rw [State.log_file]
    exact List.prefix_append _ _
  · exact List.prefix_refl _

/-- A step of a subscriber leaves the fusion loop where it is and only extends the log. -/
theorem Lawful.of_fusion_eq {s t : State} (h : Lawful s) (hfusion : t.fusion = s.fusion)
    (hlog : s.log <+: t.log) (ht : ∀ {held}, Accounted s held → Accounted t held) : Lawful t := by
  unfold Lawful at h ⊢
  rw [hfusion]
  rcases hs :
    s.fusion with - | ⟨now, item, rest, still, raised⟩ | ⟨now, item, rest, still, raised⟩ |
      ⟨now, rest, still, raised⟩ | -
  all_goals simp only [hs] at h ⊢
  · exact ht h
  · refine ⟨ht h.1, fun hr ↦ ?_⟩
    obtain ⟨identity, hmem⟩ := h.2 hr
    exact ⟨identity, hlog.subset hmem⟩
  · exact ht h
  · exact ht h
  · exact ht h

/-- Whatever the loop holds, the law holds of the log. -/
theorem Lawful.accounted {s : State} (h : Lawful s) : ∃ held, Accounted s held := by
  unfold Lawful at h
  split at h
  · exact ⟨_, h.1⟩
  · exact ⟨_, h⟩

/-! ### The law holds throughout every run -/

section Steps

variable {fromisoformat : String → Option ℚ} {s t : State}

/-- A cycle starts: the loop takes what is pending. -/
theorem lawful_wake {now : ℚ} (h : Accounted s []) (r : Reply) :
    Lawful (wake fromisoformat s now r) := by
  have hA : Accounted { s with pending := [] } (s.pending ++ []) :=
    ⟨fun p hp ↦ h.known p (by simpa using hp), h.nodup, h.lt, h.acked_lt, h.interim, h.lawful⟩
  exact lawful_nextItem hA r

/-- **One step**, with nothing assumed of the broker or of when the service dies. -/
theorem lawful_step {a : Action} (h : Lawful s) (ht : step fromisoformat s a = some t) :
    Lawful t := by
  have hloop := h
  unfold Lawful at hloop
  cases stepped_of_step ht with
  | final =>
    exact h.of_fusion_eq (fusion_receiveFinal _ _ _ _) (unfiled_step rfl ht).log_extends fun hA ↦
      accounted_receiveFinal hA _ _ _
  | interim =>
    exact h.of_fusion_eq rfl (unfiled_step rfl ht).log_extends fun hA ↦
      accounted_receiveInterim hA _ _
  | unreadable => exact h.of_fusion_eq rfl (List.prefix_refl _) accounted_unreadable
  | evicted => exact h.of_fusion_eq rfl (List.prefix_refl _) accounted_fetching
  | forwarded _ hsub r =>
    exact h.of_fusion_eq rfl (List.prefix_append _ _) fun hA ↦ accounted_forwarded hA hsub r
  | unforwarded => exact h.of_fusion_eq rfl (List.prefix_refl _) accounted_fetching
  | interimAcked => exact h.of_fusion_eq rfl (List.prefix_refl _) accounted_fetching
  | identity _ lane payload =>
    exact h.of_fusion_eq (fusion_identityStep _ _ _) (log_extends_identityStep _ _ _) fun hA ↦
      accounted_identityStep hA _ _
  | wake hpc now r =>
    simp only [hpc] at hloop
    exact lawful_wake hloop r
  | published hpc now r =>
    simp only [hpc] at hloop
    exact lawful_ack hloop.1 (hloop.2 trivial) r
  | unpublished hpc now r =>
    simp only [hpc] at hloop
    exact lawful_nak hloop.1 (fun p hp ↦ List.mem_cons_of_mem _ hp) r
  | acked hpc now r =>
    simp only [hpc] at hloop
    exact lawful_nextItem hloop r
  | unacked hpc now r =>
    simp only [hpc] at hloop
    exact lawful_nak hloop (fun p hp ↦ hp) r
  | naked hpc now r =>
    simp only [hpc] at hloop
    exact lawful_nextItem hloop r
  | unnaked hpc now r =>
    simp only [hpc] at hloop
    show Accounted _ []
    exact ⟨fun p hp ↦ hloop.known p (List.mem_append_left _ (by simpa using hp)), hloop.nodup,
      hloop.lt, hloop.acked_lt, hloop.interim, hloop.lawful⟩
  | restart =>
    obtain ⟨held, hA⟩ := h.accounted
    show Accounted _ []
    exact ⟨nofun, hA.nodup, hA.lt, hA.acked_lt, nofun, hA.lawful⟩

theorem lawful_inductive (fromisoformat : String → Option ℚ) :
    (system fromisoformat).Inductive TransitionSystem.always Lawful where
  init s hs := by
    obtain rfl : s = {} := hs
    exact ⟨nofun, List.nodup_nil, nofun, nofun, nofun, justified_nil⟩
  step h _ ht := lawful_step h ht

end Steps

/-- **Publish before ack.** In every run, the ack of a final transcript comes after its fused
payload was stored on `transcript.final.<source>`, or after the delivery was evicted as the oldest
of more than `MAX_BUFFER` pending transcripts. -/
theorem ack_after_publish_or_eviction {fromisoformat : String → Option ℚ} {s : State}
    (h : (system fromisoformat).Reachable TransitionSystem.always s) {d : ℕ} {data : Dict}
    (hd : (d, data) ∈ s.finals) {pre post : List Event} (hlog : s.log = pre ++ .acked d :: post) :
    Published pre d data ∨ Evicted pre d := by
  obtain ⟨held, hA⟩ := ((lawful_inductive fromisoformat).reachable h).accounted
  exact hA.lawful hlog data hd

/-- A delivery published, acked, and then one that is still being published. -/
theorem ack_after_publish_of_first :
    ∃ s d data pre post, (system fun _ ↦ none).Reachable TransitionSystem.always s ∧
      (d, data) ∈ s.finals ∧ s.log = pre ++ .acked d :: post ∧ post ≠ [] ∧
      (Published pre d data ∨ Evicted pre d) := by
  obtain ⟨s, hs, htest⟩ := TransitionSystem.exists_reachable_of_exec
    (M := system fun _ ↦ none) (G := TransitionSystem.always) {}
    [.transcript untimed 0 .ok, .fusion 5 .ok, .transcript untimed 5 .ok, .fusion 5 .ok,
      .fusion 5 .ok, .fusion 9 .ok]
    (fun s ↦ s.finalMsgs = [0, 1] ∧ s.log.map Event.about =
      [some (0, .published), some (0, .acked), some (1, .published)]) rfl (by decide +kernel)
  simp only [decide_eq_true_eq] at htest
  obtain ⟨hfinals, habout⟩ := htest
  obtain ⟨⟨d, data⟩, hd, rfl⟩ : ∃ x ∈ s.finals, x.1 = 0 := by
    refine List.mem_map.1 (show 0 ∈ s.finalMsgs from ?_)
    rw [hfinals]
    decide
  rw [List.map_eq_cons_iff] at habout
  obtain ⟨e₁, l₁, hl₁, -, habout⟩ := habout
  rw [List.map_eq_cons_iff] at habout
  obtain ⟨e₂, l₂, rfl, he₂, habout⟩ := habout
  obtain rfl := eq_acked_of_about he₂
  have hlog : s.log = [e₁] ++ .acked 0 :: l₂ := hl₁
  refine ⟨s, 0, data, [e₁], l₂, hs, hd, hlog, ?_, ack_after_publish_or_eviction hs hd hlog⟩
  rintro rfl
  simp at habout

/-! ### The overflow rule acks without a publish -/

/-- `k` deliveries of one final transcript, none of them handled yet. -/
def burst (data : Dict) (now : ℚ) (k : ℕ) : State where
  pending := (List.range k).map fun d ↦ ⟨data, now, d⟩
  deliveries := k
  finals := (List.range k).map fun d ↦ (d, data)

section Burst

variable {fromisoformat : String → Option ℚ} {data : Dict} {now : ℚ}

/-- One more delivery of the burst is handled to its end. -/
theorem step_burst (hfinal : (Dict.getOr data "is_final" .null).truthy = true) (k : ℕ) :
    (system fromisoformat).step (burst data now k) (.transcript (some (.obj data)) now .ok) =
      some (receiveFinal (burst data now k) data now .ok) := by
  have hstep : transcriptStep (burst data now k) (some (.obj data)) now .ok =
      some (receiveFinal (burst data now k) data now .ok) := by
    show (if (Dict.getOr data "is_final" .null).truthy then _ else _) = _
    rw [if_pos hfinal]
  exact hstep

theorem enqueue_burst (k : ℕ) : enqueue (burst data now k) data now = burst data now (k + 1) := by
  simp [enqueue, burst, List.range_succ]

theorem pending_burst_succ (k : ℕ) : (burst data now (k + 1)).pending =
    ⟨data, now, 0⟩ :: (List.range k).map fun d ↦ ⟨data, now, d + 1⟩ := by
  simp [burst, List.range_succ_eq_map]

theorem length_pending_burst (k : ℕ) : (burst data now k).pending.length = k := by
  simp [burst]

theorem mem_finals_burst {d k : ℕ} (h : d < k) : (d, data) ∈ (burst data now k).finals := by
  simpa [burst] using h

/-- Up to `MAX_BUFFER` deliveries only fill the pending list. -/
theorem reachable_burst (hfinal : (Dict.getOr data "is_final" .null).truthy = true) :
    ∀ k ≤ maxBuffer, (system fromisoformat).Reachable TransitionSystem.always (burst data now k)
  | 0, _ => TransitionSystem.Reachable.of_init rfl
  | k + 1, hk => by
    have hshort : ¬ maxBuffer < (enqueue (burst data now k) data now).pending.length := by
      rw [enqueue_burst, length_pending_burst]
      omega
    have hnext : receiveFinal (burst data now k) data now .ok = burst data now (k + 1) := by
      simp only [receiveFinal, if_neg hshort]
      exact enqueue_burst k
    refine (reachable_burst hfinal k (by omega)).step
      (a := .transcript (some (.obj data)) now .ok) trivial ?_
    rw [step_burst hfinal, hnext]

/-- From then on a delivery evicts and acks the oldest. -/
theorem log_receiveFinal_burst {k : ℕ} (hk : maxBuffer ≤ k) :
    (receiveFinal (burst data now k) data now .ok).log = [.evicted 0 (k + 1), .acked 0] := by
  have hlong : maxBuffer < (enqueue (burst data now k) data now).pending.length := by
    rw [enqueue_burst, length_pending_burst]
    omega
  simp only [receiveFinal, if_pos hlong]
  rw [evictOldest.eq_def, enqueue_burst, pending_burst_succ]
  simp [State.logs, State.resolve, burst]

theorem finals_receiveFinal (s : State) (data : Dict) (now : ℚ) (r : Reply) :
    (receiveFinal s data now r).finals = s.finals ++ [(s.deliveries, data)] := by
  simp only [receiveFinal]
  split
  · rw [evictOldest.eq_def]
    split <;> rfl
  · rfl

end Burst

/-- Five hundred and one final transcripts, delivered while nothing is fused: the first is acked and
was published nowhere. -/
theorem ack_without_publish :
    ¬ ∀ s d data pre post, (system fun _ ↦ none).Reachable TransitionSystem.always s →
      (d, data) ∈ s.finals → s.log = pre ++ .acked d :: post → Published pre d data := by
  intro hclaim
  let data : Dict := [("is_final", .bool true)]
  have hfinal : (Dict.getOr data "is_final" .null).truthy = true := by decide +kernel
  have hfull : (system fun _ ↦ none).Reachable TransitionSystem.always (burst data 0 maxBuffer) :=
    reachable_burst hfinal maxBuffer le_rfl
  have hs := hfull.step trivial (step_burst hfinal maxBuffer)
  have hd : (0, data) ∈ (receiveFinal (burst data 0 maxBuffer) data 0 .ok).finals := by
    rw [finals_receiveFinal]
    exact List.mem_append_left _ (mem_finals_burst (by rw [maxBuffer]; omega))
  obtain ⟨identity, hmem⟩ := hclaim _ 0 data [.evicted 0 (maxBuffer + 1)] [] hs hd
    (log_receiveFinal_burst le_rfl)
  simp at hmem

end LiveSTT.IdentityManager
