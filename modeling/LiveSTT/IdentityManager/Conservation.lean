import Mathlib.Data.List.Nodup
import Mathlib.Data.List.Perm.Basic
import Mathlib.Tactic.Ring
import LiveSTT.IdentityManager.Model
import LiveSTT.Lib.EventLog

/-!
# Conservation in the Time Zipper

The fusion loop swaps the pending list out, works through it across awaits and merges what is left
back in front of what arrived meanwhile, while the subscriber appends to and evicts from the new
list. This module proves that no final transcript is lost or handled twice on the way.

* `places` lists the deliveries where they are: in `_pending`, in the unprocessed part of the batch
  with the item being published, in `still_pending`, or resolved. `Conserved` says that `places` is
  a rearrangement of the deliveries of final transcripts, and these are distinct.
* The **story** of a delivery is what the log says about it. It is empty as long as the delivery is
  waiting, and complete — one of the stories `storiesOf` lists — once it is resolved.

The invariant is stated for a state together with what the fusion loop holds, so that each function
of the source gets one preservation lemma, whichever await it is reached from.
-/

namespace LiveSTT.IdentityManager

open EventLog

/-! ### Stories -/

/-- What an event says about a delivery. -/
inductive Mark
  | published
  | publishFailed
  | acked
  | naked
  | evicted
  deriving DecidableEq, Repr

/-- The delivery an event is about. Filing an identity and forwarding an interim transcript are
about no final transcript. -/
def Event.about : Event → Option (ℕ × Mark)
  | .filed _ _ => none
  | .published msg _ _ _ => some (msg, .published)
  | .publishFailed msg => some (msg, .publishFailed)
  | .forwarded _ _ => none
  | .acked msg => some (msg, .acked)
  | .naked msg => some (msg, .naked)
  | .evicted msg _ => some (msg, .evicted)

theorem eq_acked_of_about {e : Event} {d : ℕ} (h : e.about = some (d, .acked)) : e = .acked d := by
  cases e <;> simp_all [Event.about]

/-- The log's story of the delivery `d`. -/
def State.story (s : State) (d : ℕ) : List Mark :=
  EventLog.story Event.about d s.log

/-- The complete stories of a resolved delivery: published once and acked; the publish raised — it
may have been stored all the same — and the message nacked; or evicted and acked. -/
def storiesOf : Outcome → List (List Mark)
  | .published => [[.published, .acked]]
  | .failed => [[.publishFailed, .naked], [.published, .publishFailed, .naked]]
  | .evicted => [[.evicted, .acked]]

/-- No complete story publishes twice. -/
theorem count_published_le_one {o : Outcome} {l : List Mark} (h : l ∈ storiesOf o) :
    l.count .published ≤ 1 := by
  cases o <;> simp only [storiesOf, List.mem_cons, List.not_mem_nil, or_false] at h
  · subst h; decide
  · rcases h with rfl | rfl <;> decide
  · subst h; decide

/-! ### Places -/

/-- The item whose publish is under way. -/
def FusionPc.current : FusionPc → List Pending
  | .publishing _ item _ _ _ => [item]
  | _ => []

/-- The part of the batch the loop has not come to. -/
def FusionPc.rest : FusionPc → List Pending
  | .publishing _ _ rest _ _ => rest
  | .acking _ _ rest _ _ => rest
  | .naking _ rest _ _ => rest
  | _ => []

/-- `still_pending`. -/
def FusionPc.stillPending : FusionPc → List Pending
  | .publishing _ _ _ still _ => still
  | .acking _ _ _ still _ => still
  | .naking _ _ still _ => still
  | _ => []

/-- The deliveries of a list of pending transcripts. -/
def msgs (ps : List Pending) : List ℕ := ps.map Pending.msg

@[simp] theorem msgs_nil : msgs [] = [] := rfl
@[simp] theorem msgs_cons (p : Pending) (ps : List Pending) : msgs (p :: ps) = p.msg :: msgs ps :=
    rfl
@[simp] theorem msgs_append (ps qs : List Pending) : msgs (ps ++ qs) = msgs ps ++ msgs qs :=
  List.map_append

theorem mem_msgs_of_mem {p : Pending} {ps : List Pending} (h : p ∈ ps) : p.msg ∈ msgs ps :=
  List.mem_map_of_mem h

/-- The deliveries of final transcripts. -/
def State.finalMsgs (s : State) : List ℕ := s.finals.map Prod.fst

section Enqueue

variable {s : State}

theorem finalMsgs_enqueue (s : State) (data : Dict) (now : ℚ) :
    (enqueue s data now).finalMsgs = s.finalMsgs ++ [s.deliveries] :=
  List.map_append

/-- A new delivery is none of those before it. -/
theorem nodup_finalMsgs_enqueue (hnodup : s.finalMsgs.Nodup)
    (hlt : ∀ d ∈ s.finalMsgs, d < s.deliveries) (data : Dict) (now : ℚ) :
    (enqueue s data now).finalMsgs.Nodup := by
  rw [finalMsgs_enqueue]
  refine hnodup.append (List.nodup_singleton _) fun d hd hnew ↦ ?_
  rw [List.mem_singleton] at hnew
  exact absurd (hlt d hd) (by omega)

/-- A new delivery has the next number. -/
theorem lt_of_mem_finalMsgs_enqueue (hlt : ∀ d ∈ s.finalMsgs, d < s.deliveries) (data : Dict)
    (now : ℚ) : ∀ d ∈ (enqueue s data now).finalMsgs, d < (enqueue s data now).deliveries := by
  intro d hd
  show d < s.deliveries + 1
  rw [finalMsgs_enqueue, List.mem_append, List.mem_singleton] at hd
  rcases hd with hd | rfl
  · exact Nat.lt_succ_of_lt (hlt d hd)
  · exact Nat.lt_succ_self _

theorem not_mem_finalMsgs_enqueue {d : ℕ} (hd : d ∉ s.finalMsgs) (hlt : d < s.deliveries)
    (data : Dict) (now : ℚ) : d ∉ (enqueue s data now).finalMsgs := by
  rw [finalMsgs_enqueue, List.mem_append, List.mem_singleton, not_or]
  exact ⟨hd, by omega⟩

end Enqueue

/-- The deliveries of resolved transcripts. -/
def State.resolvedMsgs (s : State) : List ℕ := s.resolved.map Prod.fst

/-- **Conservation**, for a state whose fusion loop is publishing `current` and holds the waiting
transcripts `held`. -/
structure Conserved (s : State) (current held : List Pending) : Prop where
  perm : (msgs (s.pending ++ current ++ held) ++ s.resolvedMsgs).Perm s.finalMsgs
  nodup : s.finalMsgs.Nodup
  lt : ∀ d ∈ s.finalMsgs, d < s.deliveries
  /-- Nothing has been said about a delivery that waits. -/
  waiting : ∀ p ∈ s.pending ++ held, s.story p.msg = []
  /-- Nothing has been said about a delivery to come. -/
  unborn : ∀ d, s.deliveries ≤ d → s.story d = []
  resolved : ∀ d o, (d, o) ∈ s.resolved → s.story d ∈ storiesOf o
  /-- The interim transcript being forwarded is no final one. -/
  interim : ∀ msg raised, s.subscriber = .forwarding msg raised →
    msg ∉ s.finalMsgs ∧ msg < s.deliveries

/-- The invariant: conservation with what the fusion loop holds, and what the log says about the
item being published. Where the calls to ack and nak succeed the loop is never in the branches after
a raising one. -/
def Zipped (s : State) : Prop :=
  match s.fusion with
  | .sleeping => Conserved s [] []
  | .publishing _ item rest still raised =>
    Conserved s [item] (rest ++ still) ∧
      (s.story item.msg = [.published] ∨ raised = true ∧ s.story item.msg = [])
  | .acking _ _ rest still raised => raised = false ∧ Conserved s [] (rest ++ still)
  | .naking _ rest still raised => raised = false ∧ Conserved s [] (rest ++ still)
  | .failed => False

namespace Conserved

variable {s t : State} {current held current' held' : List Pending}

/-- Whatever place a delivery is in, it is in no other. -/
theorem nodup_places (h : Conserved s current held) :
    (msgs (s.pending ++ current ++ held) ++ s.resolvedMsgs).Nodup :=
  h.perm.nodup_iff.2 h.nodup

theorem mem_finalMsgs (h : Conserved s current held) {d : ℕ}
    (hd : d ∈ msgs (s.pending ++ current ++ held) ++ s.resolvedMsgs) : d ∈ s.finalMsgs :=
  h.perm.subset hd

/-- A step that moves no final transcript and says nothing about one. -/
theorem of_unmoved (h : Conserved s current held) (hpending : t.pending = s.pending)
    (hfinals : t.finals = s.finals) (hres : t.resolved = s.resolved)
    (hdel : s.deliveries ≤ t.deliveries)
    (hlog : ∀ d, d ∈ s.finalMsgs ∨ t.deliveries ≤ d → t.story d = s.story d)
    (hsub : ∀ msg raised, t.subscriber = .forwarding msg raised →
      msg ∉ s.finalMsgs ∧ msg < t.deliveries) :
    Conserved t current held ∧ ∀ p ∈ current, t.story p.msg = s.story p.msg := by
  have hfm : t.finalMsgs = s.finalMsgs := by rw [State.finalMsgs, hfinals, State.finalMsgs]
  have hrm : t.resolvedMsgs = s.resolvedMsgs := by rw [State.resolvedMsgs, hres, State.resolvedMsgs]
  refine ⟨⟨?_, ?_, ?_, ?_, ?_, ?_, ?_⟩, fun p hp ↦ hlog _ (Or.inl (h.mem_finalMsgs ?_))⟩
  · rw [hpending, hrm, hfm]
    exact h.perm
  · rw [hfm]
    exact h.nodup
  · rw [hfm]
    exact fun d hd ↦ lt_of_lt_of_le (h.lt d hd) hdel
  · rw [hpending]
    intro p hp
    have hplace : p.msg ∈ msgs (s.pending ++ current ++ held) := by
      rcases List.mem_append.1 hp with hp | hp <;>
        simp only [msgs_append, List.mem_append, mem_msgs_of_mem hp, true_or, or_true]
    rw [hlog _ (Or.inl (h.mem_finalMsgs (List.mem_append_left _ hplace)))]
    exact h.waiting p hp
  · intro d hd
    rw [hlog d (Or.inr hd)]
    exact h.unborn d (le_trans hdel hd)
  · intro d o hdo
    rw [hres] at hdo
    have hplace : d ∈ s.resolvedMsgs := List.mem_map_of_mem (f := Prod.fst) hdo
    rw [hlog d (Or.inl (h.mem_finalMsgs (List.mem_append_right _ hplace)))]
    exact h.resolved d o hdo
  · rw [hfm]
    exact hsub
  · simp only [msgs_append, List.mem_append, mem_msgs_of_mem hp, true_or, or_true]

/-- A step that moves the one delivery `d` out of the waiting ones and tells its story. -/
theorem of_told (h : Conserved s current held) {d : ℕ}
    (hplaces : (msgs (t.pending ++ current' ++ held') ++ t.resolvedMsgs).Perm
      (msgs (s.pending ++ current ++ held) ++ s.resolvedMsgs))
    (hfrom : d ∈ msgs (s.pending ++ current ++ held))
    (hto : d ∈ msgs current' ++ t.resolvedMsgs)
    (hwaiting : ∀ p ∈ t.pending ++ held', p ∈ s.pending ++ held)
    (hfinals : t.finals = s.finals) (hdel : t.deliveries = s.deliveries)
    (hsub : ∀ msg raised, t.subscriber = .forwarding msg raised →
      s.subscriber = .forwarding msg raised)
    (hlog : ∀ d', d' ≠ d → t.story d' = s.story d')
    (hres : ∀ d' o, (d', o) ∈ t.resolved →
      (d', o) ∈ s.resolved ∨ d' = d ∧ t.story d ∈ storiesOf o) :
    Conserved t current' held' := by
  have hfm : t.finalMsgs = s.finalMsgs := by rw [State.finalMsgs, hfinals, State.finalMsgs]
  have hnodup : (msgs (t.pending ++ current' ++ held') ++ t.resolvedMsgs).Nodup :=
    hplaces.nodup_iff.2 h.nodup_places
  -- `d` has left the waiting transcripts, and was not resolved before.
  have hgone : ∀ p ∈ t.pending ++ held', p.msg ≠ d := by
    rintro p hp rfl
    have hwait : p.msg ∈ msgs (t.pending ++ held') := mem_msgs_of_mem hp
    have hperm : (msgs (t.pending ++ current' ++ held') ++ t.resolvedMsgs).Perm
        (msgs (t.pending ++ held') ++ (msgs current' ++ t.resolvedMsgs)) := by
      simp only [msgs_append, List.append_assoc]
      refine List.Perm.append_left _ ?_
      rw [← List.append_assoc, ← List.append_assoc]
      exact List.Perm.append_right _ List.perm_append_comm
    exact (List.nodup_append.1 (hperm.nodup_iff.1 hnodup)).2.2 _ hwait _ hto rfl
  have hnew : d ∉ s.resolvedMsgs := fun hd ↦
    (List.nodup_append.1 h.nodup_places).2.2 _ hfrom _ hd rfl
  refine ⟨?_, ?_, ?_, ?_, ?_, ?_, ?_⟩
  · rw [hfm]
    exact hplaces.trans h.perm
  · rw [hfm]
    exact h.nodup
  · rw [hfm, hdel]
    exact h.lt
  · intro p hp
    rw [hlog _ (hgone p hp)]
    exact h.waiting p (hwaiting p hp)
  · intro d' hd'
    rw [hdel] at hd'
    have hne : d' ≠ d := by
      rintro rfl
      exact absurd (h.lt d' (h.mem_finalMsgs (List.mem_append_left _ hfrom))) (by omega)
    rw [hlog d' hne]
    exact h.unborn d' hd'
  · intro d' o hdo
    rcases hres d' o hdo with hold | ⟨rfl, hstory⟩
    · have hne : d' ≠ d := by
        rintro rfl
        exact hnew (List.mem_map_of_mem (f := Prod.fst) hold)
      rw [hlog d' hne]
      exact h.resolved d' o hold
    · exact hstory
  · rw [hfm, hdel]
    exact fun msg raised hmsg ↦ h.interim msg raised (hsub msg raised hmsg)

/-- Conservation does not depend on where the coroutines are suspended. -/
theorem of_position (h : Conserved s current held) (f : FusionPc) (u : SubscriberPc)
    (hsub : ∀ msg raised, u = .forwarding msg raised → s.subscriber = .forwarding msg raised) :
    Conserved { s with fusion := f, subscriber := u } current held :=
  ⟨h.perm, h.nodup, h.lt, h.waiting, h.unborn, h.resolved,
    fun msg raised hmsg ↦ h.interim msg raised (hsub msg raised hmsg)⟩

end Conserved

/-! ### What each function preserves -/

section Functions

variable {fromisoformat : String → Option ℚ} {s : State} {current held : List Pending}

/-- The loop over the batch, up to its next await. -/
theorem zipped_nextItem {now : ℚ} {rest still : List Pending} (h : Conserved s [] (rest ++ still))
    (r : Reply) : Zipped (nextItem fromisoformat s now rest still r) := by
  rw [nextItem]
  split
  · rename_i out hscan
    -- The batch is over: what was kept goes back in front of what arrived.
    show Conserved _ [] []
    rw [scan_done hscan]
    refine ⟨?_, h.nodup, h.lt, ?_, h.unborn, h.resolved, h.interim⟩
    · refine List.Perm.trans (List.perm_iff_count.2 fun d ↦ ?_) h.perm
      simp only [State.resolvedMsgs, msgs_append, List.append_nil, List.count_append]
      omega
    · intro p hp
      refine h.waiting p ?_
      simp only [List.append_nil, List.mem_append] at hp ⊢
      tauto
  · rename_i item identity rest' still' hscan
    -- `item` leaves the batch for the publish; the others stay in it or move to `still_pending`.
    obtain ⟨skipped, rfl, rfl, -⟩ := scan_publish hscan
    have hitem : s.story item.msg = [] := h.waiting item (by simp)
    refine ⟨h.of_told (d := item.msg) ?_ ?_ ?_ ?_ rfl rfl ?_ ?_ ?_, ?_⟩
    · refine List.perm_iff_count.2 fun d ↦ ?_
      simp only [publish, State.logs, State.resolvedMsgs, msgs_append, msgs_cons, msgs_nil,
        List.count_append, List.count_cons, List.count_nil]
      omega
    · simp
    · simp
    · intro p hp
      simp only [publish, State.logs, List.mem_append, List.mem_cons] at hp ⊢
      tauto
    · exact fun msg raised hmsg ↦ hmsg
    · intro d hne
      simp only [publish, State.story, State.logs, story_append]
      split <;> simp [story_cons, Event.about, hne.symm]
    · exact fun d o hdo ↦ Or.inl hdo
    · simp only [publish, State.story, State.logs, story_append] at hitem ⊢
      cases r <;> simp [Reply.applied, Reply.raised, story_cons, Event.about, hitem]

/-- **Settling one delivery**: the log gets the rest of its story, and it is resolved. -/
theorem conserved_settle {item : Pending} {es : List Event} {o : Outcome}
    (h : Conserved s (item :: current) held)
    (hothers : ∀ d, d ≠ item.msg → EventLog.story Event.about d es = [])
    (hstory : s.story item.msg ++ EventLog.story Event.about item.msg es ∈ storiesOf o) :
    Conserved ((s.logs es).resolve item.msg o) current held := by
  refine h.of_told (d := item.msg) ?_ ?_ ?_ ?_ rfl rfl ?_ ?_ ?_
  · refine List.perm_iff_count.2 fun d ↦ ?_
    simp only [State.logs, State.resolve, State.resolvedMsgs, msgs_append, msgs_cons,
      List.map_append, List.map_cons, List.map_nil, List.count_append, List.count_cons,
      List.count_nil]
    omega
  · simp
  · simp [State.resolve, State.resolvedMsgs]
  · exact fun p hp ↦ hp
  · exact fun msg raised hmsg ↦ hmsg
  · intro d hne
    simp only [State.story, State.logs, State.resolve, story_append, hothers d hne,
      List.append_nil]
  · intro d o' hdo
    simp only [State.logs, State.resolve, List.mem_append, List.mem_singleton,
      Prod.mk.injEq] at hdo
    rcases hdo with hold | ⟨rfl, rfl⟩
    · exact Or.inl hold
    · refine Or.inr ⟨rfl, ?_⟩
      simpa only [State.story, State.logs, State.resolve, story_append] using hstory

/-- The cycle starts: what was pending is in the loop's hands. -/
theorem conserved_snapshot (h : Conserved s [] []) :
    Conserved { s with pending := [] } [] (s.pending ++ []) := by
  refine ⟨?_, h.nodup, h.lt, ?_, h.unborn, h.resolved, h.interim⟩
  · show (msgs ([] ++ [] ++ (s.pending ++ [])) ++ s.resolvedMsgs).Perm s.finalMsgs
    simpa using h.perm
  · show ∀ p ∈ [] ++ (s.pending ++ []), s.story p.msg = []
    simpa using h.waiting

/-- The `except` branch: the message is nacked. -/
theorem zipped_nak {now : ℚ} {item : Pending} {rest still : List Pending}
    (h : Conserved s [item] (rest ++ still))
    (hstory : s.story item.msg = [.published] ∨ s.story item.msg = []) :
    Zipped (nak s now item rest still .ok) := by
  refine ⟨rfl, (conserved_settle h (fun d hne ↦ ?_) ?_).of_position _ _ ?_⟩
  · simp [story_cons, Event.about, hne.symm]
  · rcases hstory with hstory | hstory <;>
      simp [hstory, story_cons, Event.about, storiesOf]
  · exact fun msg raised hmsg ↦ hmsg

/-- The end of the `try` body: the message is acked. -/
theorem zipped_ack {now : ℚ} {item : Pending} {rest still : List Pending}
    (h : Conserved s [item] (rest ++ still)) (hstory : s.story item.msg = [.published]) :
    Zipped (ack s now item rest still .ok) := by
  refine ⟨rfl, (conserved_settle h (fun d hne ↦ ?_) ?_).of_position _ _ ?_⟩
  · simp [story_cons, Event.about, hne.symm]
  · simp [hstory, story_cons, Event.about, storiesOf]
  · exact fun msg raised hmsg ↦ hmsg

/-- Eviction takes the oldest out of the pending list, and its message is acked. -/
theorem conserved_evictOldest (h : Conserved s current held) :
    Conserved (evictOldest s .ok) current held := by
  rw [evictOldest]
  split
  · exact h
  · rename_i oldest rest hpending
    have hpopped : Conserved { s with pending := rest } (oldest :: current) held := by
      refine ⟨?_, h.nodup, h.lt, ?_, h.unborn, h.resolved, h.interim⟩
      · refine List.Perm.trans (List.perm_iff_count.2 fun d ↦ ?_) h.perm
        simp only [State.resolvedMsgs, hpending, msgs_append, msgs_cons, List.count_append,
          List.count_cons]
        omega
      · intro p hp
        refine h.waiting p ?_
        rw [hpending]
        exact List.mem_cons_of_mem _ hp
    have hstory : s.story oldest.msg = [] := h.waiting oldest (by simp [hpending])
    refine (conserved_settle hpopped (fun d hne ↦ ?_) ?_).of_position _ _ ?_
    · simp [story_cons, Event.about, hne.symm]
    · show s.story oldest.msg ++ _ ∈ _
      simp [hstory, story_cons, Event.about, storiesOf]
    · exact nofun

/-- Eviction says nothing about the item being published. -/
theorem story_evictOldest (h : Conserved s current held) {p : Pending} (hp : p ∈ current)
    (r : Reply) : (evictOldest s r).story p.msg = s.story p.msg := by
  rw [evictOldest]
  split
  · rfl
  · rename_i oldest rest hpending
    have hne : oldest.msg ≠ p.msg := by
      have hnodup := h.nodup_places
      simp only [hpending, msgs_append, msgs_cons, List.cons_append, List.nodup_cons,
        List.mem_append, not_or] at hnodup
      exact fun heq ↦ hnodup.1.1.1.2 (heq ▸ mem_msgs_of_mem hp)
    simp only [State.story, State.logs, State.resolve, story_append]
    cases r <;> simp [Reply.applied, story_cons, Event.about, hne]

/-- A final transcript arrives in the pending list. -/
theorem conserved_enqueue (h : Conserved s current held) (data : Dict) (now : ℚ) :
    Conserved (enqueue s data now) current held := by
  have hmsgs := finalMsgs_enqueue s data now
  refine ⟨?_, nodup_finalMsgs_enqueue h.nodup h.lt data now,
    lt_of_mem_finalMsgs_enqueue h.lt data now, ?_, ?_, h.resolved, ?_⟩
  · refine List.perm_iff_count.2 fun d ↦ ?_
    have hold := h.perm.count_eq d
    rw [hmsgs]
    simp only [enqueue, State.resolvedMsgs, msgs_append, msgs_cons, msgs_nil, List.count_append,
      List.count_cons, List.count_nil] at hold ⊢
    omega
  · intro p hp
    simp only [enqueue, List.append_assoc, List.mem_append, List.mem_singleton] at hp
    rcases hp with hp | rfl | hp
    · exact h.waiting p (List.mem_append_left _ hp)
    · exact h.unborn s.deliveries le_rfl
    · exact h.waiting p (List.mem_append_right _ hp)
  · exact fun d hd ↦ h.unborn d (le_trans (Nat.le_succ _) hd)
  · intro msg raised hmsg
    obtain ⟨hmem, hlt⟩ := h.interim msg raised hmsg
    exact ⟨not_mem_finalMsgs_enqueue hmem hlt data now, Nat.lt_succ_of_lt hlt⟩

/-- A final transcript arrives; the list may have become too long. -/
theorem conserved_receiveFinal (h : Conserved s current held) (data : Dict) (now : ℚ) :
    Conserved (receiveFinal s data now .ok) current held ∧
      ∀ p ∈ current, (receiveFinal s data now .ok).story p.msg = s.story p.msg := by
  have harrived := conserved_enqueue h data now
  simp only [receiveFinal]
  split
  · exact ⟨conserved_evictOldest harrived, fun p hp ↦ story_evictOldest harrived hp _⟩
  · exact ⟨harrived, fun p hp ↦ rfl⟩

/-- An interim transcript, or a payload that does not decode to an object: neither is a final
one. -/
theorem conserved_receiveInterim (h : Conserved s current held) (data : Dict) (r : Reply) :
    Conserved (receiveInterim s data r) current held ∧
      ∀ p ∈ current, (receiveInterim s data r).story p.msg = s.story p.msg := by
  refine h.of_unmoved rfl rfl rfl (Nat.le_succ _) (fun d _ ↦ ?_) fun msg raised hmsg ↦ ?_
  · simp only [receiveInterim, State.story, State.logs, story_append]
    cases r <;> simp [Reply.applied, story_cons, Event.about]
  · simp only [receiveInterim, SubscriberPc.forwarding.injEq] at hmsg
    obtain ⟨rfl, -⟩ := hmsg
    exact ⟨fun hd ↦ absurd (h.lt _ hd) (by omega), Nat.lt_succ_self _⟩

/-- Forwarding an interim transcript ends in the ack of a message that is no final transcript's. -/
theorem conserved_forwarded (h : Conserved s current held) {msg : ℕ}
    (hsub : s.subscriber = .forwarding msg false) (r : Reply) :
    Conserved { s.logs (if r.applied then [.acked msg] else []) with subscriber := .acking }
        current held ∧
      ∀ p ∈ current, State.story
        { s.logs (if r.applied then [.acked msg] else []) with subscriber := .acking } p.msg =
          s.story p.msg := by
  obtain ⟨hmem, hlt⟩ := h.interim msg false hsub
  refine h.of_unmoved rfl rfl rfl le_rfl (fun d hd ↦ ?_) (by simp)
  have hne : msg ≠ d := by
    rintro rfl
    exact hd.elim hmem (not_le_of_gt hlt)
  simp only [State.story, State.logs, story_append]
  cases r <;> simp [Reply.applied, story_cons, Event.about, hne]

/-- The handling of a message is over. -/
theorem conserved_fetching (h : Conserved s current held) :
    Conserved { s with subscriber := .fetching } current held ∧
      ∀ p ∈ current, State.story { s with subscriber := .fetching } p.msg = s.story p.msg :=
  ⟨h.of_position s.fusion .fetching (by simp), fun p _ ↦ rfl⟩

/-- Filing an identity event concerns no transcript. -/
theorem conserved_identityStep (h : Conserved s current held) (lane : Lane)
    (payload : Option Json) :
    Conserved (identityStep s lane payload) current held ∧
      ∀ p ∈ current, (identityStep s lane payload).story p.msg = s.story p.msg := by
  rw [identityStep.eq_def]
  split
  · refine h.of_unmoved (by simp [State.logs]) (by simp [State.logs]) (by simp [State.logs])
      (by simp [State.logs]) (fun d _ ↦ ?_) ?_
    · simp [State.story, State.logs, story_cons, Event.about]
    · simpa [State.logs] using h.interim
  · exact ⟨h, fun p _ ↦ rfl⟩

end Functions

/-! ### Runs -/

/-- The payload is a final transcript. -/
def isFinal : Option Json → Bool
  | some (.obj data) => (Dict.getOr data "is_final" .null).truthy
  | _ => false

/-- The calls to ack and to nak succeed, and the process is not restarted: the runs conservation is
about. Publishes succeed or fail as they like. -/
def acksSucceed (s : State) : Action → Bool
  | .transcript payload _ r => !isFinal payload || r = .ok
  | .subscriber _ => true
  | .identity _ _ => true
  | .fusion _ r =>
    match s.fusion with
    | .publishing _ _ _ _ _ => r = .ok
    | _ => true
  | .restart => false

/-- A step of a subscriber: the fusion loop stays where it is. -/
theorem Zipped.of_fusion_eq {s t : State} (h : Zipped s) (hfusion : t.fusion = s.fusion)
    (ht : ∀ {current held}, Conserved s current held →
      Conserved t current held ∧ ∀ p ∈ current, t.story p.msg = s.story p.msg) : Zipped t := by
  unfold Zipped at h ⊢
  rw [hfusion]
  rcases hs :
    s.fusion with - | ⟨now, item, rest, still, raised⟩ | ⟨now, item, rest, still, raised⟩ |
      ⟨now, rest, still, raised⟩ | -
  all_goals simp only [hs] at h ⊢
  · exact (ht h).1
  · refine ⟨(ht h.1).1, ?_⟩
    rw [(ht h.1).2 item (List.mem_singleton_self item)]
    exact h.2
  · exact ⟨h.1, (ht h.2).1⟩
  · exact ⟨h.1, (ht h.2).1⟩

variable {fromisoformat : String → Option ℚ}

/-- **One step**, in the runs whose acks and naks succeed. -/
theorem zipped_step {s t : State} {a : Action} (h : Zipped s) (hG : acksSucceed s a = true)
    (ht : step fromisoformat s a = some t) : Zipped t := by
  have hloop := h
  unfold Zipped at hloop
  cases stepped_of_step ht with
  | @final data _ _ hfinal now r =>
    obtain rfl : r = .ok := by simpa [acksSucceed, isFinal, hfinal] using hG
    exact h.of_fusion_eq (fusion_receiveFinal s data now .ok) fun hC ↦
      conserved_receiveFinal hC data now
  | interim => exact h.of_fusion_eq rfl fun hC ↦ conserved_receiveInterim hC _ _
  | unreadable _ hsub =>
    exact h.of_fusion_eq rfl fun hC ↦
      hC.of_unmoved rfl rfl rfl (Nat.le_succ _) (fun d _ ↦ rfl) (by simp [hsub])
  | evicted => exact h.of_fusion_eq rfl conserved_fetching
  | forwarded _ hsub r => exact h.of_fusion_eq rfl fun hC ↦ conserved_forwarded hC hsub r
  | unforwarded => exact h.of_fusion_eq rfl conserved_fetching
  | interimAcked => exact h.of_fusion_eq rfl conserved_fetching
  | identity _ lane payload =>
    exact h.of_fusion_eq (fusion_identityStep s lane payload) fun hC ↦
      conserved_identityStep hC lane payload
  | wake hpc now r =>
    simp only [hpc] at hloop
    exact zipped_nextItem (conserved_snapshot hloop) r
  | published hpc now r =>
    simp only [hpc] at hloop
    obtain rfl : r = .ok := by simpa [acksSucceed, hpc] using hG
    exact zipped_ack hloop.1 (by simpa using hloop.2)
  | unpublished hpc now r =>
    simp only [hpc] at hloop
    obtain rfl : r = .ok := by simpa [acksSucceed, hpc] using hG
    exact zipped_nak hloop.1 (by simpa using hloop.2)
  | acked hpc now r =>
    simp only [hpc] at hloop
    exact zipped_nextItem hloop.2 r
  | unacked hpc =>
    simp only [hpc] at hloop
    nomatch hloop.1
  | naked hpc now r =>
    simp only [hpc] at hloop
    exact zipped_nextItem hloop.2 r
  | unnaked hpc =>
    simp only [hpc] at hloop
    nomatch hloop.1
  | restart => nomatch hG

/-- The step lemmas together, over every action in which the calls to ack and nak succeed. -/
theorem zipped_inductive :
    (system fromisoformat).Inductive (fun s a ↦ acksSucceed s a = true) Zipped where
  init s hs := by
    subst hs
    show Conserved _ [] []
    refine ⟨?_, ?_, ?_, ?_, ?_, ?_, ?_⟩ <;>
      simp [State.finalMsgs, State.resolvedMsgs, State.story]
  step h hG ht := zipped_step h hG ht

/-- The invariant, read at the place the fusion loop is at. -/
theorem Zipped.conserved {s : State} (h : Zipped s) :
    Conserved s s.fusion.current (s.fusion.rest ++ s.fusion.stillPending) := by
  unfold Zipped at h
  rcases hs :
    s.fusion with - | ⟨now, item, rest, still, raised⟩ | ⟨now, item, rest, still, raised⟩ |
      ⟨now, rest, still, raised⟩ | - <;>
    simp only [hs, FusionPc.current, FusionPc.rest, FusionPc.stillPending] at h ⊢
  · exact h
  · exact h.1
  · exact h.2
  · exact h.2

/-- A delivery that is not resolved has no story yet, or was just published. -/
theorem Zipped.story_of_unresolved {s : State} (h : Zipped s) {d : ℕ} (hd : d ∈ s.finalMsgs)
    (hres : d ∉ s.resolvedMsgs) : s.story d = [] ∨ s.story d = [.published] := by
  have hplace := h.conserved.perm.symm.subset hd
  simp only [msgs_append, List.mem_append, hres, or_false] at hplace
  have hwaiting : ∀ ps, (∀ p ∈ ps, p ∈ s.pending ++ (s.fusion.rest ++ s.fusion.stillPending)) →
      d ∈ msgs ps → s.story d = [] := by
    intro ps hps hmem
    obtain ⟨p, hp, rfl⟩ := List.mem_map.1 hmem
    exact h.conserved.waiting p (hps p hp)
  rcases hplace with (hpending | hcurrent) | hrest | hstill
  · exact Or.inl (hwaiting s.pending (fun p hp ↦ List.mem_append_left _ hp) hpending)
  · unfold Zipped at h
    rcases hs : s.fusion with - | ⟨now, item, rest, still, raised⟩ |
        ⟨now, item, rest, still, raised⟩ | ⟨now, rest, still, raised⟩ | - <;>
      simp only [hs, FusionPc.current, msgs_cons, msgs_nil, List.mem_singleton,
        List.not_mem_nil] at h hcurrent
    subst hcurrent
    rcases h.2 with hstory | ⟨-, hstory⟩
    · exact Or.inr hstory
    · exact Or.inl hstory
  · exact Or.inl (hwaiting s.fusion.rest (fun p hp ↦ by simp [hp]) hrest)
  · exact Or.inl (hwaiting s.fusion.stillPending (fun p hp ↦ by simp [hp]) hstill)

/-- **Conservation in the Time Zipper.** At every moment a delivered final transcript is in exactly
one place: pending, in the unprocessed part of the batch with the item being published, still
pending, or resolved. Once resolved it has one complete story; until then it was neither acked, nor
nacked, nor evicted. It is never published twice. -/
theorem delivery_conserved {s : State}
    (h : (system fromisoformat).Reachable (fun s a ↦ acksSucceed s a = true) s)
    {d : ℕ} {data : Dict} (hd : (d, data) ∈ s.finals) :
    (msgs s.pending).count d + (msgs (s.fusion.current ++ s.fusion.rest)).count d +
        (msgs s.fusion.stillPending).count d + s.resolvedMsgs.count d = 1 ∧
      (∀ o, (d, o) ∈ s.resolved → s.story d ∈ storiesOf o) ∧
      (d ∉ s.resolvedMsgs → s.story d = [] ∨ s.story d = [.published]) ∧
      (s.story d).count .published ≤ 1 := by
  have hZ : Zipped s := zipped_inductive.reachable h
  have hC := hZ.conserved
  have hmem : d ∈ s.finalMsgs := List.mem_map_of_mem (f := Prod.fst) hd
  have hunresolved := hZ.story_of_unresolved hmem
  refine ⟨?_, hC.resolved d, hunresolved, ?_⟩
  · have hcount := hC.perm.count_eq d
    rw [List.count_eq_one_of_mem hC.nodup hmem] at hcount
    simp only [msgs_append, List.count_append] at hcount ⊢
    omega
  · by_cases hres : d ∈ s.resolvedMsgs
    · obtain ⟨⟨d', o⟩, hdo, rfl⟩ := List.mem_map.1 hres
      exact count_published_le_one (hC.resolved d' o hdo)
    · rcases hunresolved hres with hstory | hstory <;> rw [hstory] <;> decide

/-- A final transcript without a timestamp: no identity event can match it. -/
def untimed : Option Json :=
  some (.obj [("text", .str "amen"), ("is_final", .bool true), ("source", .str "live")])

/-- A run with a delivery resolved and one, arrived during its publish, pending again. -/
theorem delivery_conserved_after_publish :
    ∃ s d data, (system fun _ ↦ none).Reachable (fun s a ↦ acksSucceed s a = true) s ∧
      (d, data) ∈ s.finals ∧ s.resolvedMsgs = [0] ∧ msgs s.pending = [1] ∧
      (msgs s.pending).count d + (msgs (s.fusion.current ++ s.fusion.rest)).count d +
        (msgs s.fusion.stillPending).count d + s.resolvedMsgs.count d = 1 := by
  obtain ⟨s, hs, htest⟩ := TransitionSystem.exists_reachable_of_exec
    (M := system fun _ ↦ none) (G := fun s a ↦ acksSucceed s a = true) {}
    [.transcript untimed 0 .ok, .fusion 5 .ok, .transcript untimed 5 .ok, .fusion 5 .ok,
      .fusion 5 .ok]
    (fun s ↦ s.finalMsgs = [0, 1] ∧ s.resolvedMsgs = [0] ∧ msgs s.pending = [1]) rfl
    (by decide +kernel)
  simp only [decide_eq_true_eq] at htest
  obtain ⟨⟨d, data⟩, hd⟩ : ∃ x, x ∈ s.finals :=
    List.exists_mem_of_ne_nil _ fun hnil ↦ by simp [State.finalMsgs, hnil] at htest
  exact ⟨s, d, data, hs, hd, htest.2.1, htest.2.2, (delivery_conserved hs hd).1⟩

end LiveSTT.IdentityManager
