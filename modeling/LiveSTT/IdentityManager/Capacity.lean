import LiveSTT.IdentityManager.PublishBeforeAck

/-!
# The cap on the pending list

`MAX_BUFFER` is documented as a hard cap, and an arrival keeps to it: the oldest pending transcript
is evicted when the list has become too long. The fusion loop does not. It takes the list as its
batch, the cap is from then on applied to what arrives meanwhile, and at the end of the batch the
two are concatenated, whatever their lengths.

That is the one place: a step leaves the list within the cap if and only if it is not the end of a
batch too large for what arrived meanwhile (`length_pending_step`). So the runs within the cap are
exactly those whose steps all fit (`pending_bounded_iff`).

Nothing is assumed of the clock or of the identities: they decide how much of a batch is kept, and
that is in the condition by what the loop holds and not by what it will do. A run that starts within
the cap and never meets the one step stays within it, and a run that meets it is above the cap in
that very state.
-/

namespace LiveSTT.IdentityManager

open TransitionSystem

section

variable {fromisoformat : String → Option ℚ} {s t : State}

/-! ### The end of a batch -/

/-- A scan that goes through has found none of its items due. -/
theorem verdict_of_scan_done {now : ℚ} : ∀ {rest still out : List Pending},
    scan fromisoformat s now rest still = .done out → ∀ p ∈ rest,
      verdict fromisoformat s now p = none
  | [], _, _, _ => by simp
  | q :: rest, still, out, h => by
    rw [scan] at h
    split at h
    · contradiction
    · rename_i hq
      intro p hp
      rcases List.mem_cons.1 hp with rfl | hp
      · exact hq
      · exact verdict_of_scan_done h p hp

variable (fromisoformat) in
/-- The step is not the end of a batch too large for what arrived meanwhile. A batch ends at the
step after an ack or a nak from which on nothing of it is to be published. -/
def Fits (s : State) : Action → Prop
  | .fusion _ _ =>
    match s.fusion with
    | .acking woken _ rest still false | .naking woken rest still false =>
      (∀ p ∈ rest, verdict fromisoformat s woken p = none) →
        still.length + rest.length + s.pending.length ≤ maxBuffer
    | _ => True
  | _ => True

/-- An arrival keeps to the cap. -/
theorem length_pending_receiveFinal (hs : s.pending.length ≤ maxBuffer) (data : Dict) (now : ℚ)
    (r : Reply) : (receiveFinal s data now r).pending.length ≤ maxBuffer := by
  have harrived : (enqueue s data now).pending.length = s.pending.length + 1 := by simp [enqueue]
  simp only [receiveFinal]
  split
  · rw [evictOldest.eq_def]
    split
    · rename_i hnil
      rw [hnil]
      exact Nat.zero_le _
    · rename_i oldest rest hcons
      rw [hcons, List.length_cons] at harrived
      show rest.length ≤ maxBuffer
      omega
  · rename_i hshort
    exact Nat.le_of_not_lt hshort

/-- The loop over the batch keeps to the cap if it comes to a publish, or the parts fit. -/
theorem length_pending_nextItem {now : ℚ} {rest still : List Pending}
    (hs : s.pending.length ≤ maxBuffer) (r : Reply) :
    (nextItem fromisoformat s now rest still r).pending.length ≤ maxBuffer ↔
      ((∀ p ∈ rest, verdict fromisoformat s now p = none) →
        still.length + rest.length + s.pending.length ≤ maxBuffer) := by
  rw [nextItem]
  split
  · rename_i out hscan
    have hnone := verdict_of_scan_done hscan
    obtain rfl := scan_done hscan
    show (still ++ rest ++ s.pending).length ≤ maxBuffer ↔ _
    rw [List.length_append, List.length_append]
    exact ⟨fun h _ ↦ h, fun h ↦ h hnone⟩
  · rename_i item identity rest' still' hscan
    obtain ⟨skipped, rfl, -, hverdict⟩ := scan_publish hscan
    refine iff_of_true hs fun hnone ↦ ?_
    rw [hnone item (by simp)] at hverdict
    contradiction

theorem length_pending_identityStep (lane : Lane) (payload : Option Json) :
    (identityStep s lane payload).pending = s.pending := by
  rw [identityStep.eq_def]
  split
  · rw [State.pending_file]
    rfl
  · rfl

/-- **One step** keeps to the cap exactly when it fits. -/
theorem length_pending_step {a : Action} (hs : s.pending.length ≤ maxBuffer)
    (ht : step fromisoformat s a = some t) :
    t.pending.length ≤ maxBuffer ↔ Fits fromisoformat s a := by
  cases stepped_of_step ht with
  | final _ _ _ now r => exact iff_of_true (length_pending_receiveFinal hs _ now r) trivial
  | identity _ lane payload =>
    rw [length_pending_identityStep]
    exact iff_of_true hs trivial
  | wake hpc now r =>
    refine iff_of_true ?_ (by simp [Fits, hpc])
    refine (length_pending_nextItem (Nat.zero_le _) r).2 fun _ ↦ ?_
    simpa using hs
  | published hpc => exact iff_of_true hs (by simp [Fits, hpc])
  | unpublished hpc => exact iff_of_true hs (by simp [Fits, hpc])
  | acked hpc now r =>
    rw [length_pending_nextItem hs r]
    simp only [Fits, hpc]
  | unacked hpc => exact iff_of_true hs (by simp [Fits, hpc])
  | naked hpc now r =>
    rw [length_pending_nextItem hs r]
    simp only [Fits, hpc]
  | unnaked hpc => exact iff_of_true hs (by simp [Fits, hpc])
  | restart => exact iff_of_true (Nat.zero_le _) trivial
  | interim | unreadable | evicted | forwarded | unforwarded | interimAcked =>
    exact iff_of_true hs trivial

/-! ### Runs -/

/-- **The pending list is bounded exactly in the runs whose batches fit.** In every state a run goes
through at most `MAX_BUFFER` transcripts are pending if and only if, whenever the run ends a batch,
what is still pending and what arrived meanwhile are together at most `MAX_BUFFER`. -/
theorem pending_bounded_iff {as : List Action} (h : (system fromisoformat).init s)
    (hrun : (system fromisoformat).Run always s as t) :
    (∀ bs u, bs <+: as → (system fromisoformat).Run always s bs u → u.pending.length ≤ maxBuffer) ↔
      (system fromisoformat).Run (Fits fromisoformat) s as t := by
  have hinit : s.pending.length ≤ maxBuffer := by
    obtain rfl : s = {} := h
    exact Nat.zero_le _
  constructor
  · intro hbounded
    induction hrun with
    | nil => exact .nil
    | @snoc as a t u hrun _ hstep ih =>
      have ht : t.pending.length ≤ maxBuffer := hbounded as t (List.prefix_append _ _) hrun
      have hu : u.pending.length ≤ maxBuffer :=
        hbounded (as ++ [a]) u (List.prefix_refl _) (.snoc hrun trivial hstep)
      refine .snoc (ih fun bs v hbs hv ↦ ?_) ((length_pending_step ht hstep).1 hu) hstep
      exact hbounded bs v (hbs.trans (List.prefix_append _ _)) hv
  · intro hfits bs u hbs hu
    obtain ⟨cs, rfl⟩ := hbs
    obtain ⟨v, hv, -⟩ := hfits.split
    obtain rfl := hu.deterministic hv
    exact hv.invariant (I := fun s ↦ s.pending.length ≤ maxBuffer)
      (fun hs hG ht ↦ (length_pending_step hs ht).2 hG) hinit

/-! ### A slow publish -/

/-- A final transcript arrives while there is room. -/
theorem step_arrival {data : Dict} (hfinal : (Dict.getOr data "is_final" .null).truthy = true)
    (now : ℚ) (hrun : s.running = true) (hsub : s.subscriber = .fetching)
    (hroom : s.pending.length < maxBuffer) :
    (system fromisoformat).step s (.transcript (some (.obj data)) now .ok) =
      some (enqueue s data now) := by
  have hshort : ¬ maxBuffer < (enqueue s data now).pending.length := by
    simp only [enqueue, List.length_append, List.length_singleton]
    omega
  show (if s.running then transcriptStep s (some (.obj data)) now .ok else none) = _
  rw [if_pos hrun, transcriptStep.eq_def, hsub]
  simp only [if_pos hfinal, receiveFinal, if_neg hshort]

/-- While the fusion loop is suspended, final transcripts fill the list up to the cap. -/
theorem run_arrivals {data : Dict} (hfinal : (Dict.getOr data "is_final" .null).truthy = true)
    (now : ℚ) (hrun : s.running = true) (hsub : s.subscriber = .fetching) :
    ∀ k, s.pending.length + k ≤ maxBuffer → ∃ t,
      (system fromisoformat).Run always s
        (List.replicate k (.transcript (some (.obj data)) now .ok)) t ∧
      t.pending.length = s.pending.length + k ∧ t.fusion = s.fusion ∧ t.subscriber = .fetching
  | 0, _ => ⟨s, .nil, rfl, rfl, hsub⟩
  | k + 1, hk => by
    obtain ⟨t, ht, hlength, hfusion, hfetching⟩ := run_arrivals hfinal now hrun hsub k (by omega)
    have hrun' : t.running = true := by rw [State.running, hfusion, ← State.running, hrun]
    have hstep : (system fromisoformat).step t (.transcript (some (.obj data)) now .ok) =
        some (enqueue t data now) :=
      step_arrival hfinal now hrun' hfetching (by omega)
    refine ⟨enqueue t data now, ?_, ?_, hfusion, hfetching⟩
    · rw [List.replicate_succ']
      exact ht.snoc trivial hstep
    · simp only [enqueue, List.length_append, List.length_singleton]
      omega

/-- What has no timestamp is published when it has waited long enough. -/
theorem verdict_of_untimed {p : Pending} (h : p.data.get "timestamp" = none) (now : ℚ) :
    verdict fromisoformat s now p =
      if publishTimeoutS ≤ now - p.receivedAt then some none else none := by
  simp [verdict, findIdentity, h, parseTs]

end

/-- Two transcripts wait, the first is due and its publish is slow; five hundred arrive meanwhile.
At the end of the batch five hundred and one are pending. -/
theorem pending_exceeds_maxBuffer :
    ¬ ∀ s, (system fun _ ↦ none).Reachable always s → s.pending.length ≤ maxBuffer := by
  intro hclaim
  let data : Dict := [("is_final", .bool true)]
  have hfinal : (Dict.getOr data "is_final" .null).truthy = true := by decide +kernel
  have huntimed : Dict.get data "timestamp" = none := by decide +kernel
  let two : State := enqueue (enqueue {} data 0) data 1
  have htwo : (system fun _ ↦ none).Reachable always two :=
    ((Reachable.of_init rfl).step trivial (step_arrival hfinal 0 rfl rfl (by decide))).step trivial
      (step_arrival hfinal 1 rfl rfl (by decide))
  -- The first transcript is due at time 3, the second is not.
  have hdue : verdict (fun _ ↦ none) { two with pending := [] } 3 ⟨data, 0, 0⟩ = some none := by
    rw [verdict_of_untimed huntimed, if_pos (by decide +kernel)]
  have hwaits (s : State) : verdict (fun _ ↦ none) s 3 ⟨data, 1, 1⟩ = none := by
    rw [verdict_of_untimed huntimed, if_neg (by decide +kernel)]
  obtain ⟨s, hwake, hpending, hfusion, hsub⟩ : ∃ s, fusionStep (fun _ ↦ none) two 3 .ok = some s ∧
      s.pending = [] ∧ s.fusion = .publishing 3 ⟨data, 0, 0⟩ [⟨data, 1, 1⟩] [] false ∧
      s.subscriber = .fetching := by
    refine ⟨wake (fun _ ↦ none) two 3 .ok, rfl, ?_⟩
    have hscan : scan (fun _ ↦ none) { two with pending := [] } 3 two.pending [] =
        .publish ⟨data, 0, 0⟩ none [⟨data, 1, 1⟩] [] := by
      show scan _ _ 3 [⟨data, 0, 0⟩, ⟨data, 1, 1⟩] [] = _
      rw [scan, hdue]
    rw [wake, nextItem, hscan]
    exact ⟨rfl, rfl, rfl⟩
  have hs : (system fun _ ↦ none).Reachable always s := htwo.step (a := .fusion 3 .ok) trivial hwake
  have hrunning : s.running = true := by rw [State.running, hfusion]
  -- The publish is slow.
  obtain ⟨t, hrun, hlength, hfusion', -⟩ : ∃ t, (system fun _ ↦ none).Run always s
      (List.replicate maxBuffer (.transcript (some (.obj data)) 3 .ok)) t ∧
      t.pending.length = s.pending.length + maxBuffer ∧ t.fusion = s.fusion ∧
      t.subscriber = .fetching :=
    run_arrivals hfinal 3 hrunning hsub maxBuffer (by rw [hpending]; rfl)
  have hack : (system fun _ ↦ none).step t (.fusion 3 .ok) =
      some (ack t 3 ⟨data, 0, 0⟩ [⟨data, 1, 1⟩] [] .ok) := by
    show fusionStep _ t 3 .ok = _
    rw [fusionStep.eq_def, hfusion', hfusion]
  have hacked := (hs.run hrun).step trivial hack
  have hend := hclaim _ (hacked.step (a := .fusion 3 .ok) trivial rfl)
  have hroom := (length_pending_nextItem (hclaim _ hacked) .ok).1 hend fun p hp ↦ by
    rw [List.mem_singleton.1 hp]
    exact hwaits _
  have hfull : (ack t 3 ⟨data, 0, 0⟩ [⟨data, 1, 1⟩] [] .ok).pending.length = maxBuffer := by
    show t.pending.length = maxBuffer
    rw [hlength, hpending, List.length_nil, zero_add]
  rw [hfull] at hroom
  exact absurd hroom (by decide)

/-- A transcript is published alone, and then one more arrives: the batch fits. -/
theorem pending_bounded_alone :
    ∃ as s, (system fun _ ↦ none).Run always {} as s ∧ s.pending.length = 1 ∧
      ((∀ bs u, bs <+: as → (system fun _ ↦ none).Run always {} bs u →
        u.pending.length ≤ maxBuffer) ↔ (system fun _ ↦ none).Run (Fits fun _ ↦ none) {} as s) := by
  let as : List Action :=
    [.transcript untimed 0 .ok, .fusion 5 .ok, .transcript untimed 5 .ok, .fusion 5 .ok,
      .fusion 5 .ok]
  obtain ⟨s, hs, hlength⟩ : ∃ s, (system fun _ ↦ none).Run always {} as s ∧
      decide (s.pending.length = 1) = true := Run.exists_of_exec (by decide +kernel)
  exact ⟨as, s, hs, of_decide_eq_true hlength, pending_bounded_iff rfl hs⟩

end LiveSTT.IdentityManager
