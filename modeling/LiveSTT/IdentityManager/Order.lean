import LiveSTT.IdentityManager.PublishBeforeAck

/-!
# Arrival order and timeouts

Transcripts with a matching identity leave the buffers out of order, and what is not yet due is put
back in front of what arrived meanwhile. The order in which the service holds the rest is never
disturbed: `still_pending`, the item being published, the rest of the batch and the pending list
are, one after another, a sublist of the arrivals (`Ordered`).

A transcript kept in this cycle had not waited `PUBLISH_TIMEOUT_S` at the cycle's clock reading. So
when the loop comes to one that has, nothing that arrived before it is still in the service's hands:
what times out overtakes nothing (`timed_out_is_first`).

The law is one about a lifetime of the process, between a start with empty buffers and a restart,
and assumes of the clock that its readings at the arrivals do not decrease in between.

`due_of_nextItem` is where the clock is used: an item that is published without an identity has
waited for the timeout at the reading of the cycle, and what is held in front of it was not due at
that same reading. The evictions do not matter, as they take from the front.
-/

namespace LiveSTT.IdentityManager

open TransitionSystem

/-! ### Arrivals -/

/-- The clock reading an action takes for a final transcript. -/
def Action.arrival : Action → Option ℚ
  | .transcript payload now _ => if isFinal payload then some now else none
  | _ => none

/-- The clock readings of the arrivals, in order. -/
def arrivalTimes (as : List Action) : List ℚ :=
  as.filterMap Action.arrival

theorem arrivalTimes_snoc (as : List Action) (a : Action) :
    arrivalTimes (as ++ [a]) = arrivalTimes as ++ a.arrival.toList := by
  rw [arrivalTimes, List.filterMap_append, arrivalTimes, List.append_cancel_left_eq]
  cases h : a.arrival <;> simp [h]

/-- The process is not restarted. -/
def staysUp (_ : State) : Action → Prop
  | .restart => False
  | _ => True

instance : ∀ (s : State) (a : Action), Decidable (staysUp s a)
  | _, .restart => inferInstanceAs (Decidable False)
  | _, .transcript _ _ _ | _, .subscriber _ | _, .identity _ _ | _, .fusion _ _ =>
    inferInstanceAs (Decidable True)

/-- The service as it starts, for the first time or again: it holds no transcript. -/
def State.Started (s : State) : Prop :=
  s.pending = [] ∧ s.fusion = .sleeping

/-! ### What the service holds -/

/-- The batch of the fusion loop: what it keeps, what it is publishing, what it has not come to. -/
def FusionPc.batch (f : FusionPc) : List Pending :=
  f.stillPending ++ f.current ++ f.rest

/-- The transcripts in the service's hands, the oldest first. -/
def State.queue (s : State) : List Pending :=
  s.fusion.batch ++ s.pending

/-- The transcripts the loop keeps were not due at the clock reading of the cycle. -/
def FusionPc.NotDue : FusionPc → Prop
  | .publishing woken _ _ still _ | .acking woken _ _ still _ | .naking woken _ still _ =>
    ∀ p ∈ still, woken - p.receivedAt < publishTimeoutS
  | _ => True

/-- `queue` is in the order of arrival and holds every final transcript delivered since the start —
the deliveries from `base` on — that is not resolved. -/
structure Ordered (base : ℕ) (times : List ℚ) (s : State) (queue : List Pending) : Prop where
  sorted : queue.Pairwise fun p q ↦ p.msg < q.msg ∧ p.receivedAt ≤ q.receivedAt
  lt : ∀ p ∈ queue, p.msg < s.deliveries
  arrived : ∀ p ∈ queue, p.receivedAt ∈ times
  covered : ∀ d ∈ s.finalMsgs, base ≤ d → d ∈ msgs queue ∨ d ∈ s.resolvedMsgs

/-- The invariant. A loop that has failed gave up its batch. -/
def InOrder (base : ℕ) (times : List ℚ) (s : State) : Prop :=
  match s.fusion with
  | .failed => s.pending.Pairwise fun p q ↦ p.receivedAt ≤ q.receivedAt
  | f => Ordered base times s (f.batch ++ s.pending) ∧ f.NotDue

section

variable {fromisoformat : String → Option ℚ} {base : ℕ} {times : List ℚ} {s t : State}
  {queue queue' : List Pending}

/-- The invariant at a loop that runs. -/
theorem InOrder.ordered (h : InOrder base times s) (hrun : s.running = true) :
    Ordered base times s s.queue ∧ s.fusion.NotDue := by
  unfold InOrder at h
  unfold State.running at hrun
  split at h
  · rename_i hfailed
    rw [hfailed] at hrun
    nomatch hrun
  · exact h

/-- The invariant from what a loop that runs owes. -/
theorem inOrder_of_ordered (h : Ordered base times s s.queue) (hdue : s.fusion.NotDue)
    (hrun : s.running = true) : InOrder base times s := by
  unfold State.running at hrun
  unfold InOrder
  split
  · rename_i hfailed
    rw [hfailed] at hrun
    nomatch hrun
  · exact ⟨h, hdue⟩

theorem InOrder.sorted (h : InOrder base times s) :
    s.pending.Pairwise fun p q ↦ p.receivedAt ≤ q.receivedAt := by
  unfold InOrder at h
  split at h
  · exact h
  · exact ((List.pairwise_append.1 h.1.sorted).2.1).imp And.right

namespace Ordered

/-- Transcripts leave the service's hands: they are resolved, and the others keep their order. -/
theorem of_leaving (h : Ordered base times s queue) (hsub : queue'.Sublist queue)
    (hfinals : t.finals = s.finals) (hdel : s.deliveries ≤ t.deliveries)
    (hres : ∀ d ∈ s.resolvedMsgs, d ∈ t.resolvedMsgs)
    (hleft : ∀ p ∈ queue, p ∈ queue' ∨ p.msg ∈ t.resolvedMsgs) : Ordered base times t queue' := by
  refine ⟨h.sorted.sublist hsub, fun p hp ↦ (h.lt p (hsub.subset hp)).trans_le hdel,
    fun p hp ↦ h.arrived p (hsub.subset hp), fun d hd hbase ↦ ?_⟩
  rw [State.finalMsgs, hfinals] at hd
  rcases h.covered d hd hbase with hmem | hmem
  · obtain ⟨p, hp, rfl⟩ := List.mem_map.1 hmem
    exact (hleft p hp).imp_left mem_msgs_of_mem
  · exact Or.inr (hres d hmem)

/-- A step that moves no transcript. -/
theorem of_unmoved (h : Ordered base times s queue) (hfinals : t.finals = s.finals)
    (hdel : s.deliveries ≤ t.deliveries) (hres : t.resolved = s.resolved) :
    Ordered base times t queue := by
  refine h.of_leaving (List.Sublist.refl _) hfinals hdel (fun d hd ↦ ?_) fun p hp ↦ Or.inl hp
  rwa [State.resolvedMsgs, hres]

/-- A final transcript arrives, at a reading no earlier than those before. -/
theorem enqueue (h : Ordered base times s queue) (data : Dict) {now : ℚ}
    (hclock : ∀ x ∈ times, x ≤ now) :
    Ordered base (times ++ [now]) (enqueue s data now)
      (queue ++ [⟨data, now, s.deliveries⟩]) := by
  refine ⟨?_, ?_, ?_, ?_⟩
  · refine List.pairwise_append.2 ⟨h.sorted, List.pairwise_singleton _ _, fun p hp q hq ↦ ?_⟩
    obtain rfl := List.mem_singleton.1 hq
    exact ⟨h.lt p hp, hclock _ (h.arrived p hp)⟩
  · intro p hp
    rcases List.mem_append.1 hp with hp | hp
    · exact Nat.lt_succ_of_lt (h.lt p hp)
    · obtain rfl := List.mem_singleton.1 hp
      exact Nat.lt_succ_self _
  · intro p hp
    rcases List.mem_append.1 hp with hp | hp
    · exact List.mem_append_left _ (h.arrived p hp)
    · obtain rfl := List.mem_singleton.1 hp
      exact List.mem_append_right _ (List.mem_singleton_self _)
  · intro d hd hbase
    rw [finalMsgs_enqueue, List.mem_append, List.mem_singleton] at hd
    rw [msgs_append, List.mem_append]
    rcases hd with hd | rfl
    · exact (h.covered d hd hbase).imp_left Or.inl
    · exact Or.inl (Or.inr (List.mem_singleton_self _))

/-- The oldest pending transcript is evicted. -/
theorem evictOldest {batch : List Pending} (h : Ordered base times s (batch ++ s.pending))
    (r : Reply) :
    Ordered base times (evictOldest s r) (batch ++ (evictOldest s r).pending) := by
  rw [IdentityManager.evictOldest.eq_def]
  split
  · exact h
  · rename_i oldest rest hpending
    rw [hpending] at h
    refine h.of_leaving ?_ rfl le_rfl (fun d hd ↦ ?_) fun p hp ↦ ?_
    · exact (List.Sublist.refl batch).append (List.sublist_cons_self oldest rest)
    · simp only [State.resolvedMsgs, State.resolve, State.logs, List.map_append, List.mem_append]
      exact Or.inl hd
    · simp only [List.mem_append, List.mem_cons] at hp
      simp only [State.resolvedMsgs, State.resolve, State.logs, List.map_append, List.mem_append]
      rcases hp with hp | rfl | hp
      · exact Or.inl (Or.inl hp)
      · exact Or.inr (Or.inr (List.mem_singleton_self _))
      · exact Or.inl (Or.inr hp)

/-- The item being published, or nacked after its publish, is resolved. -/
theorem settle {item : Pending} {batch : List Pending} {es : List Event} {o : Outcome}
    (h : Ordered base times s (batch ++ s.pending)) {batch' : List Pending}
    (hsub : batch'.Sublist batch) (hleft : ∀ p ∈ batch, p ∈ batch' ∨ p = item) :
    Ordered base times ((s.logs es).resolve item.msg o) (batch' ++ s.pending) := by
  refine h.of_leaving (hsub.append (List.Sublist.refl _)) rfl le_rfl (fun d hd ↦ ?_) fun p hp ↦ ?_
  · simp only [State.resolvedMsgs, State.resolve, State.logs, List.map_append, List.mem_append]
    exact Or.inl hd
  · simp only [State.resolvedMsgs, State.resolve, State.logs, List.map_append, List.mem_append]
    rcases List.mem_append.1 hp with hp | hp
    · rcases hleft p hp with hp | rfl
      · exact Or.inl (Or.inl hp)
      · exact Or.inr (Or.inr (List.mem_singleton_self _))
    · exact Or.inl (Or.inr hp)

end Ordered

/-! ### The loop over the batch -/

/-- What the loop passes over has no verdict. -/
theorem verdict_of_mem_kept {now : ℚ} {item : Pending} {identity : Option IdentityEvent}
    {rest' still' : List Pending} : ∀ {rest still : List Pending},
      scan fromisoformat s now rest still = .publish item identity rest' still' →
      ∀ p ∈ still', p ∈ still ∨ verdict fromisoformat s now p = none
  | [], _, h => by contradiction
  | q :: rest, still, h => by
    rw [scan] at h
    split at h
    · rw [Scan.publish.injEq] at h
      obtain ⟨-, -, -, rfl⟩ := h
      exact fun p hp ↦ Or.inl hp
    · rename_i hq
      intro p hp
      rcases verdict_of_mem_kept h p hp with hp | hp
      · rcases List.mem_append.1 hp with hp | hp
        · exact Or.inl hp
        · obtain rfl := List.mem_singleton.1 hp
          exact Or.inr hq
      · exact Or.inr hp

/-- No verdict: not due. -/
theorem lt_of_verdict_eq_none {now : ℚ} {p : Pending} (h : verdict fromisoformat s now p = none) :
    now - p.receivedAt < publishTimeoutS := by
  simp only [verdict] at h
  split at h
  · contradiction
  · rename_i hwait
    exact not_le.1 fun hdue ↦ hwait (Or.inr hdue)

/-- Published without an identity: due. -/
theorem le_of_verdict_eq_unknown {now : ℚ} {p : Pending}
    (h : verdict fromisoformat s now p = some none) : publishTimeoutS ≤ now - p.receivedAt := by
  simp only [verdict] at h
  split at h
  · rename_i hdue
    rw [Option.some.inj h] at hdue
    exact hdue.resolve_left (by simp)
  · contradiction

/-- The verdict of the transcript to publish is what matching found. -/
theorem findIdentity_of_verdict {now : ℚ} {p : Pending} {identity : Option IdentityEvent}
    (h : verdict fromisoformat s now p = some identity) :
    findIdentity fromisoformat s (p.data.get "timestamp") (sourceOf p.data) = identity := by
  simp only [verdict] at h
  split at h
  · exact Option.some.inj h
  · contradiction

/-- The loop goes on to the next item: those it keeps are not due, and keep their place. -/
theorem inOrder_nextItem {now : ℚ} {rest still : List Pending}
    (h : Ordered base times s (still ++ rest ++ s.pending))
    (hdue : ∀ p ∈ still, now - p.receivedAt < publishTimeoutS) (r : Reply) :
    InOrder base times (nextItem fromisoformat s now rest still r) := by
  rw [nextItem]
  split
  · rename_i out hscan
    obtain rfl := scan_done hscan
    exact ⟨h.of_unmoved rfl le_rfl rfl, trivial⟩
  · rename_i item identity rest' still' hscan
    obtain ⟨skipped, rfl, rfl, -⟩ := scan_publish hscan
    refine ⟨?_, fun p hp ↦ ?_⟩
    · have hqueue : still ++ (skipped ++ item :: rest') ++ s.pending =
          (FusionPc.publishing now item rest' (still ++ skipped) r.raised).batch ++ s.pending := by
        simp [FusionPc.batch, FusionPc.stillPending, FusionPc.current, FusionPc.rest]
      rw [hqueue] at h
      exact h.of_unmoved rfl le_rfl rfl
    · exact (verdict_of_mem_kept hscan p hp).elim (hdue p) lt_of_verdict_eq_none

/-- The item of the loop is settled: it was published, or its publish failed. -/
theorem inOrder_settle {item : Pending} {current rest still : List Pending} {f : FusionPc}
    {es : List Event} {o : Outcome}
    (h : Ordered base times s (still ++ current ++ rest ++ s.pending))
    (hcurrent : ∀ p ∈ current, p = item) (hbatch : f.batch = still ++ rest) (hdue : f.NotDue)
    (hf : f ≠ .failed) :
    InOrder base times { (s.logs es).resolve item.msg o with fusion := f } := by
  have hsub : (still ++ rest).Sublist (still ++ current ++ rest) :=
    (List.sublist_append_left still current).append (List.Sublist.refl rest)
  have hsettled :
    Ordered base times ((s.logs es).resolve item.msg o) (still ++ rest ++ s.pending) := by
    refine h.settle hsub fun p hp ↦ ?_
    simp only [List.mem_append] at hp ⊢
    rcases hp with (hp | hp) | hp
    · exact Or.inl (Or.inl hp)
    · exact Or.inr (hcurrent p hp)
    · exact Or.inl (Or.inr hp)
  refine inOrder_of_ordered ?_ hdue ?_
  · rw [State.queue, hbatch]
    exact hsettled.of_unmoved rfl le_rfl rfl
  · cases f <;> simp_all [State.running]

/-! ### One step -/

/-- A step that leaves the transcripts and the loop where they are. -/
theorem InOrder.of_unmoved (h : InOrder base times s) (hrun : s.running = true)
    (hfusion : t.fusion = s.fusion) (hpending : t.pending = s.pending)
    (hfinals : t.finals = s.finals) (hres : t.resolved = s.resolved)
    (hdel : s.deliveries ≤ t.deliveries) : InOrder base times t := by
  obtain ⟨hO, hdue⟩ := h.ordered hrun
  refine inOrder_of_ordered ?_ (by rwa [hfusion]) (by rwa [State.running, hfusion])
  rw [State.queue, hfusion, hpending]
  exact hO.of_unmoved hfinals hdel hres

/-- A final transcript joins the end of the queue, at a clock not behind those before it. -/
theorem inOrder_receiveFinal (h : InOrder base times s) (hrun : s.running = true) (data : Dict)
    {now : ℚ} (hclock : ∀ x ∈ times, x ≤ now) (r : Reply) :
    InOrder base (times ++ [now]) (receiveFinal s data now r) := by
  obtain ⟨hO, hdue⟩ := h.ordered hrun
  have harrived : Ordered base (times ++ [now]) (enqueue s data now)
      (s.fusion.batch ++ (enqueue s data now).pending) := by
    have hE := hO.enqueue data hclock
    rw [State.queue, List.append_assoc] at hE
    exact hE
  have hfusion := fusion_receiveFinal s data now r
  refine inOrder_of_ordered ?_ (by rwa [hfusion]) (by rwa [State.running, hfusion])
  rw [State.queue, hfusion]
  simp only [receiveFinal]
  split
  · exact harrived.evictOldest r
  · exact harrived

theorem inOrder_identityStep (h : InOrder base times s) (hrun : s.running = true) (lane : Lane)
    (payload : Option Json) : InOrder base times (identityStep s lane payload) := by
  refine h.of_unmoved hrun (fusion_identityStep s lane payload) ?_ ?_ ?_ ?_ <;>
    · rw [identityStep.eq_def]
      split <;> simp [State.logs]

/-- **One step**, at a reading no earlier than those before. -/
theorem inOrder_step {a : Action} (h : InOrder base times s) (hG : staysUp s a)
    (hclock : ∀ x ∈ times, ∀ y ∈ a.arrival, x ≤ y) (ht : step fromisoformat s a = some t) :
    InOrder base (times ++ a.arrival.toList) t := by
  have hloop := h
  unfold InOrder at hloop
  cases stepped_of_step ht with
  | @final data hrun hsub hfinal now r =>
    have harrival : Action.arrival (.transcript (some (.obj data)) now r) = some now := by
      simp [Action.arrival, isFinal, hfinal]
    rw [harrival] at hclock ⊢
    exact inOrder_receiveFinal h hrun data (fun x hx ↦ hclock x hx now rfl) r
  | @interim data hrun _ hinterim now r =>
    have harrival : Action.arrival (.transcript (some (.obj data)) now r) = none := by
      simp [Action.arrival, isFinal, hinterim]
    rw [harrival, Option.toList_none, List.append_nil]
    exact h.of_unmoved hrun rfl rfl rfl rfl (Nat.le_succ _)
  | @unreadable payload hrun _ hpayload now r =>
    have harrival : Action.arrival (.transcript payload now r) = none := by
      rw [Action.arrival, isFinal.eq_def]
      split
      · exact absurd rfl (hpayload _)
      · rfl
    rw [harrival, Option.toList_none, List.append_nil]
    exact h.of_unmoved hrun rfl rfl rfl rfl (Nat.le_succ _)
  | evicted hrun | forwarded hrun | unforwarded hrun | interimAcked hrun =>
    simp only [Action.arrival, Option.toList_none, List.append_nil]
    exact h.of_unmoved hrun rfl rfl rfl rfl le_rfl
  | identity hrun lane payload =>
    simp only [Action.arrival, Option.toList_none, List.append_nil]
    exact inOrder_identityStep h hrun lane payload
  | restart => exact hG.elim
  | wake hpc now r =>
    simp only [hpc] at hloop
    simp only [Action.arrival, Option.toList_none, List.append_nil]
    refine inOrder_nextItem ?_ (by simp) r
    rw [List.nil_append, List.append_nil]
    exact hloop.1.of_unmoved rfl le_rfl rfl
  | published hpc | unpublished hpc =>
    simp only [hpc] at hloop
    simp only [Action.arrival, Option.toList_none, List.append_nil]
    exact inOrder_settle hloop.1 (fun p hp ↦ List.mem_singleton.1 hp)
      (by simp [FusionPc.batch, FusionPc.stillPending, FusionPc.current, FusionPc.rest]) hloop.2
      (by simp)
  | acked hpc now r | naked hpc now r =>
    simp only [hpc] at hloop
    simp only [Action.arrival, Option.toList_none, List.append_nil]
    refine inOrder_nextItem ?_ hloop.2 r
    simpa [FusionPc.batch, FusionPc.stillPending, FusionPc.current, FusionPc.rest] using hloop.1
  | unacked hpc now r =>
    simp only [hpc] at hloop
    simp only [Action.arrival, Option.toList_none, List.append_nil]
    exact inOrder_settle hloop.1 (fun p hp ↦ absurd hp List.not_mem_nil)
      (by simp [FusionPc.batch, FusionPc.stillPending, FusionPc.current, FusionPc.rest]) hloop.2
      (by simp)
  | unnaked =>
    simp only [Action.arrival, Option.toList_none, List.append_nil]
    exact h.sorted

/-! ### Runs -/

/-- **A lifetime of the service** keeps the order of arrival. -/
theorem inOrder_of_run {as : List Action} (h : (system fromisoformat).Reachable always s)
    (hstart : s.Started) (hrun : (system fromisoformat).Run staysUp s as t)
    (hclock : (arrivalTimes as).Pairwise (· ≤ ·)) :
    InOrder s.deliveries (arrivalTimes as) t := by
  induction hrun with
  | nil =>
    obtain ⟨held, hA⟩ := ((lawful_inductive fromisoformat).reachable h).accounted
    refine inOrder_of_ordered ?_ ?_ (by rw [State.running, hstart.2])
    · rw [State.queue, hstart.1, hstart.2]
      exact ⟨.nil, nofun, nofun, fun d hd hbase ↦ absurd (hA.lt d hd) (not_lt.2 hbase)⟩
    · rw [hstart.2]
      trivial
  | @snoc as a t u _ hG hstep ih =>
    rw [arrivalTimes_snoc] at hclock ⊢
    obtain ⟨hbefore, -, hlater⟩ := List.pairwise_append.1 hclock
    refine inOrder_step (ih hbefore) hG (fun x hx y hy ↦ hlater x hx y ?_) hstep
    simpa using hy

/-! ### What times out is the oldest -/

/-- An item published without an identity has waited for the timeout. -/
theorem due_of_nextItem {now woken : ℚ} {item : Pending} {rest still rest' still' : List Pending}
    {r : Reply} {raised : Bool}
    (hpc : (nextItem fromisoformat s now rest still r).fusion =
      .publishing woken item rest' still' raised)
    (hunknown : findIdentity fromisoformat s (item.data.get "timestamp") (sourceOf item.data) =
      none) :
    publishTimeoutS ≤ woken - item.receivedAt := by
  rw [nextItem] at hpc
  split at hpc
  · contradiction
  · rename_i item' identity rest'' still'' hscan
    obtain ⟨-, -, -, hverdict⟩ := scan_publish hscan
    obtain ⟨rfl, rfl, -⟩ := FusionPc.publishing.inj hpc
    rw [← findIdentity_of_verdict hverdict, hunknown] at hverdict
    exact le_of_verdict_eq_unknown hverdict

/-- A transcript whose publish is issued without a match is due. -/
theorem due_of_step {now woken : ℚ} {r : Reply} {item : Pending} {rest still : List Pending}
    {raised : Bool} (ht : step fromisoformat s (.fusion now r) = some t)
    (hpc : t.fusion = .publishing woken item rest still raised)
    (hunknown : findIdentity fromisoformat s (item.data.get "timestamp") (sourceOf item.data) =
      none) :
    publishTimeoutS ≤ woken - item.receivedAt := by
  cases stepped_of_step ht with
  | wake =>
    -- Matching reads the pools, which a cycle's start leaves alone.
    exact due_of_nextItem (s := { s with pending := [] }) hpc hunknown
  | acked | naked => exact due_of_nextItem hpc hunknown
  | published | unpublished | unacked | unnaked => contradiction

/-- While a transcript that is due is published, nothing older is in the service's hands. -/
theorem InOrder.le_of_due {woken : ℚ} {item : Pending} {rest still : List Pending} {raised : Bool}
    (h : InOrder base times s) (hpc : s.fusion = .publishing woken item rest still raised)
    (hdue : publishTimeoutS ≤ woken - item.receivedAt) : ∀ p ∈ s.queue, item.msg ≤ p.msg := by
  obtain ⟨hO, hkept⟩ := h.ordered (by rw [State.running, hpc])
  have hqueue : s.queue = still ++ item :: (rest ++ s.pending) := by
    simp [State.queue, hpc, FusionPc.batch, FusionPc.stillPending, FusionPc.current, FusionPc.rest]
  rw [hpc] at hkept
  have hsorted := hO.sorted
  rw [hqueue] at hsorted ⊢
  obtain ⟨-, hafter, hbefore⟩ := List.pairwise_append.1 hsorted
  -- What the loop kept is older than the item and was not due.
  have hnil : still = [] := by
    refine List.eq_nil_iff_forall_not_mem.2 fun p hp ↦ ?_
    have hle : p.receivedAt ≤ item.receivedAt := (hbefore p hp item List.mem_cons_self).2
    have hlt : woken - p.receivedAt < publishTimeoutS := hkept p hp
    exact absurd (hdue.trans (sub_le_sub_left hle woken)) (not_le.2 hlt)
  subst hnil
  intro p hp
  rcases List.mem_cons.1 hp with rfl | hp
  · exact le_rfl
  · exact ((List.pairwise_cons.1 hafter).1 p hp).1.le

/-- **Timed-out transcripts never overtake.** From a start of the service on, as long as the clock
readings of the arrivals do not decrease, the pending list is sorted by `received_at`; and when the
fusion loop publishes a final transcript for which matching finds no identity, it has waited
`PUBLISH_TIMEOUT_S`, and every final transcript delivered since the start and before it has left the
buffers: it was published, nacked or evicted. -/
theorem timed_out_is_first {as : List Action} (h : (system fromisoformat).Reachable always s)
    (hstart : s.Started) (hrun : (system fromisoformat).Run staysUp s as t)
    (hclock : (arrivalTimes as).Pairwise (· ≤ ·)) :
    (t.pending.Pairwise fun p q ↦ p.receivedAt ≤ q.receivedAt) ∧
      ∀ now r u woken item rest still raised, step fromisoformat t (.fusion now r) = some u →
        u.fusion = .publishing woken item rest still raised →
        findIdentity fromisoformat t (item.data.get "timestamp") (sourceOf item.data) = none →
        publishTimeoutS ≤ woken - item.receivedAt ∧
          ∀ d ∈ u.finalMsgs, s.deliveries ≤ d → d < item.msg →
            d ∉ msgs u.queue ∧ d ∈ u.resolvedMsgs := by
  have hO : InOrder s.deliveries (arrivalTimes as) t := inOrder_of_run h hstart hrun hclock
  refine ⟨hO.sorted, fun now r u woken item rest still raised hu hpc hunknown ↦ ?_⟩
  have hdue := due_of_step hu hpc hunknown
  have hu' : InOrder s.deliveries (arrivalTimes as) u := by
    simpa [Action.arrival] using inOrder_step (a := .fusion now r) hO trivial
      (by simp [Action.arrival]) hu
  have hfirst := hu'.le_of_due hpc hdue
  refine ⟨hdue, fun d hd hbase hlt ↦ ?_⟩
  have hgone : d ∉ msgs u.queue := by
    intro hmem
    obtain ⟨p, hp, rfl⟩ := List.mem_map.1 hmem
    exact absurd (hfirst p hp) (not_le.2 hlt)
  have hcovered := (hu'.ordered (by rw [State.running, hpc])).1.covered d hd hbase
  exact ⟨hgone, hcovered.resolve_left hgone⟩

end

/-- The second delivery is being published, and matching found no identity for it. -/
def publishesSecond (s t : State) : Bool :=
  match t.fusion with
  | .publishing _ item _ _ _ => item.msg = 1 ∧ 0 ∈ t.finalMsgs ∧
      (findIdentity (fun _ ↦ none) s (item.data.get "timestamp") (sourceOf item.data)).isNone
  | _ => false

/-- Two transcripts time out in one cycle: when the second is published, the first is resolved. -/
theorem timed_out_is_first_two :
    ∃ t u item, (∃ as, (system fun _ ↦ none).Run staysUp {} as t) ∧
      step (fun _ ↦ none) t (.fusion 5 .ok) = some u ∧ u.fusion.current = [item] ∧ item.msg = 1 ∧
      0 ∈ u.resolvedMsgs := by
  let as : List Action :=
    [.transcript untimed 0 .ok, .transcript untimed 1 .ok, .fusion 5 .ok, .fusion 5 .ok]
  have hclock : (arrivalTimes as).Pairwise (· ≤ ·) := by decide +kernel
  obtain ⟨t, hrun, htest⟩ : ∃ t, (system fun _ ↦ none).Run staysUp {} as t ∧
      (step (fun _ ↦ none) t (.fusion 5 .ok)).any (publishesSecond t) = true :=
    Run.exists_of_exec (by decide +kernel)
  obtain ⟨u, hu, htest⟩ := (Option.any_eq_true _ _).1 htest
  rw [publishesSecond] at htest
  split at htest
  · rename_i woken item rest still raised hpc
    simp only [decide_eq_true_eq, Option.isNone_iff_eq_none] at htest
    obtain ⟨hmsg, hmem, hunknown⟩ := htest
    have hresolved := ((timed_out_is_first (Reachable.of_init rfl) ⟨rfl, rfl⟩ hrun hclock).2 5 .ok u
      woken item rest still raised hu hpc hunknown).2 0 hmem le_rfl (by omega)
    exact ⟨t, u, item, ⟨as, hrun⟩, hu, by rw [hpc, FusionPc.current], hmsg, hresolved.2⟩
  · contradiction

end LiveSTT.IdentityManager
