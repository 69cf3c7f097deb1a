import LiveSTT.SystemManager.OncePerDay

/-!
# What the record of a firing is worth

`_eval_schedule` records a command as fired when `_fire_start` or `_fire_stop` has returned. Both
handle the exception of the publish themselves and return all the same, so the record does not tell
a command that was published from one that was not, and no later poll of the window tries again.

`Honest` is what the record should mean: its command was published on that date, or it is a stop
that the policy of the schedule left out. A firing that delivers keeps it, and one that does not
breaks it for the rest of the poll (`Stuck`); so the runs that keep it are exactly those in which
every command is delivered when it is due (`honest_iff`).
-/

namespace LiveSTT.SystemManager

open Calendar TransitionSystem

/-! ### What the record should mean -/

/-- The command is dealt with: it was published, or it is a stop left to the silence timeout. -/
def Settled (s : State) (c : Command) (id : String) (d : Date) : Prop :=
  (c, id, d) ∈ s.publications ∨ c = .stop ∧ .stopSkipped id d ∈ s.log

/-- The recorded commands are dealt with. -/
structure Honest (s : State) : Prop where
  start : ∀ id d, fireKey .start id d ∈ s.keys → (.start, id, d) ∈ s.publications
  stop : ∀ id d, fireKey .stop id d ∈ s.keys →
    (.stop, id, d) ∈ s.publications ∨ .stopSkipped id d ∈ s.log

section

variable {s t : State} {now : Reading} {c c' : Command} {id id' : String} {d d' : Date}
  {x : Fetched}

/-- It is a condition on each key. -/
theorem honest_iff_settled : Honest s ↔ ∀ c id d, fireKey c id d ∈ s.keys → Settled s c id d := by
  constructor
  · intro h c id d hk
    cases c with
    | start => exact Or.inl (h.start id d hk)
    | stop => exact (h.stop id d hk).imp_right fun hskipped ↦ ⟨rfl, hskipped⟩
  · intro h
    refine ⟨fun id d hk ↦ (h .start id d hk).resolve_right (by simp), fun id d hk ↦ ?_⟩
    exact (h .stop id d hk).imp_right And.right

/-- The firing delivers: its publish is stored, or nothing is to be published. -/
def Fetched.delivers (x : Fetched) : Command → Bool
  | .start => x.start.applied
  | .stop => x.sched.policy = "soft" || x.stop.applied

/-- A firing deals with its command if it delivers. -/
theorem settled_fire : Settled (fire s c x now) c' id d ↔
    Settled s c' id d ∨ (x.delivers c = true ∧ c' = c ∧ id = x.sched.id ∧ d = now.date) := by
  have hpublish (payload : Dict) (r : Reply) : Settled (publish s c x.sched now payload r) c' id d ↔
      Settled s c' id d ∨ (r.applied = true ∧ c' = c ∧ id = x.sched.id ∧ d = now.date) := by
    simp only [Settled, publish, publications_logs]
    cases r <;> simp [Reply.applied, Reply.raised, Event.publication, State.logs] <;> tauto
  cases c with
  | start => exact hpublish _ _
  | stop =>
    simp only [fire, fireStop, Fetched.delivers]
    split
    · rename_i hsoft
      simp only [Settled, publications_logs, hsoft]
      simp [Event.publication, State.logs]
      tauto
    · rename_i hhard
      simpa [hhard] using hpublish [("command", .str "stop")] x.stop

@[simp] theorem settled_record (key value : String) :
    Settled (s.record key value) c id d ↔ Settled s c id d :=
  Iff.rfl

/-! ### One firing -/

/-- A command of today is recorded and was not dealt with. -/
def Stuck (now : Reading) (c : Command) (id : String) (s : State) : Prop :=
  fireKey c id now.date ∈ s.keys ∧ ¬ Settled s c id now.date

theorem Stuck.not_honest (h : Stuck now c id s) : ¬ Honest s := fun hs ↦
  h.2 (honest_iff_settled.1 hs c id now.date h.1)

/-- The rest of the poll does not try again. -/
theorem Stuck.evaluated (h : Stuck now c id s) (ht : Evaluated now s t) : Stuck now c id t := by
  obtain ⟨hkey, hnot⟩ := h
  cases ht with
  | idle => exact ⟨hkey, hnot⟩
  | failed => exact ⟨hkey, hnot⟩
  | fired c' x hdue =>
    refine ⟨?_, ?_⟩
    · rw [keys_record, keys_fire]
      exact List.mem_append_left _ hkey
    · rw [settled_record, settled_fire]
      rintro (hsettled | ⟨-, rfl, rfl, -⟩)
      · exact hnot hsettled
      · exact hdue.2.2 hkey

/-- If the command of a schedule is due, its firing delivers, or it was dealt with before. -/
def DeliversHalf (s : State) (c : Command) (x : Fetched) (now : Reading) : Prop :=
  Due s c x.sched now → x.delivers c = true ∨ Settled s c x.sched.id now.date

/-- One half of the evaluation, either way. -/
theorem honest_evalHalf (h : Honest s) (hruns : x.sched.runsOn now = true) :
    (DeliversHalf s c x now → Honest (evalHalf s c x now)) ∧
      (¬ DeliversHalf s c x now → Stuck now c x.sched.id (evalHalf s c x now)) := by
  rcases evalHalf_cases s c now hruns with ⟨hdue, heq⟩ | ⟨hnot, heq⟩
  · rw [heq]
    refine ⟨fun hdelivers ↦ honest_iff_settled.2 fun c' id d hk ↦ ?_, fun hfails ↦ ?_⟩
    · rw [settled_record, settled_fire]
      rw [keys_record, keys_fire, List.mem_append, List.mem_singleton] at hk
      rcases hk with hk | hk
      · exact Or.inl (honest_iff_settled.1 h c' id d hk)
      · obtain ⟨rfl, rfl, rfl⟩ := fireKey_injective hk
        rcases hdelivers hdue with hdone | hbefore
        · exact Or.inr ⟨hdone, rfl, rfl, rfl⟩
        · exact Or.inl hbefore
    · have hboth : ¬ (x.delivers c = true ∨ Settled s c x.sched.id now.date) := fun hor ↦
        hfails fun _ ↦ hor
      refine ⟨?_, ?_⟩
      · rw [keys_record]
        exact List.mem_append_right _ (List.mem_singleton_self _)
      · rw [settled_record, settled_fire]
        rintro (hsettled | ⟨hdone, -⟩)
        · exact hboth (Or.inr hsettled)
        · exact hboth (Or.inl hdone)
  · refine ⟨fun _ ↦ ?_, fun hfails ↦ absurd (fun hdue ↦ absurd hdue hnot) hfails⟩
    rcases heq with heq | heq
    · rwa [heq]
    · rw [heq]
      exact ⟨h.start, h.stop⟩

/-! ### One poll -/

/-- Both halves of the evaluation of a schedule deliver what is due. -/
def DeliversOne (s : State) (x : Fetched) (now : Reading) : Prop :=
  x.sched.runsOn now = true → DeliversHalf s .start x now ∧
    ((evalHalf s .start x now).failed = false → DeliversHalf (evalHalf s .start x now) .stop x now)

/-- The evaluations of a poll deliver what is due, each in the state it finds. -/
def DeliversAll (now : Reading) : State → List Fetched → Prop
  | _, [] => True
  | s, x :: xs => DeliversOne s x now ∧
    ((evalSchedule s x now).failed = false → DeliversAll now (evalSchedule s x now) xs)

/-- The poll delivers what is due. -/
def Delivers (s : State) (p : Poll) : Prop :=
  match p.schedules with
  | none => True
  | some xs => DeliversAll p.now s xs

/-- The start comes before the stop, so that a stop that is not delivered may be behind a start that
was. -/
theorem honest_evalSchedule (h : Honest s) :
    (DeliversOne s x now → Honest (evalSchedule s x now)) ∧
      (¬ DeliversOne s x now → ∃ c id, Stuck now c id (evalSchedule s x now)) := by
  rw [evalSchedule_eq]
  by_cases hruns : x.sched.runsOn now = true
  · obtain ⟨hkept, hbroken⟩ := honest_evalHalf (c := .start) h hruns
    rw [if_pos hruns]
    refine ⟨fun hone ↦ ?_, fun hone ↦ ?_⟩
    · obtain ⟨hstart, hstop⟩ := hone hruns
      split
      · exact hkept hstart
      · rename_i hfailed
        exact (honest_evalHalf (hkept hstart) hruns).1 (hstop (Bool.eq_false_iff.2 hfailed))
    · by_cases hstart : DeliversHalf s .start x now
      · have hstop : ¬ ((evalHalf s .start x now).failed = false →
            DeliversHalf (evalHalf s .start x now) .stop x now) := fun hstop ↦
          hone fun _ ↦ ⟨hstart, hstop⟩
        obtain ⟨hfailed, hnot⟩ := Classical.not_imp.1 hstop
        rw [hfailed, if_neg Bool.false_ne_true]
        exact ⟨_, _, (honest_evalHalf (hkept hstart) hruns).2 hnot⟩
      · have hstuck := hbroken hstart
        split
        · exact ⟨_, _, hstuck⟩
        · exact ⟨_, _, hstuck.evaluated (evaluated_evalHalf _ _ hruns)⟩
  · rw [if_neg hruns]
    exact ⟨fun _ ↦ h, fun hone ↦ absurd (fun hr ↦ absurd hr hruns) hone⟩

/-- The loop: it is honest at its end if all evaluations delivered, and stuck if one did not. -/
theorem honest_evalAll : ∀ {xs : List Fetched} {s : State}, Honest s →
    (DeliversAll now s xs → Honest (evalAll now s xs)) ∧
      (¬ DeliversAll now s xs → ∃ c id, Stuck now c id (evalAll now s xs))
  | [], _, h => ⟨fun _ ↦ h, fun hall ↦ absurd trivial hall⟩
  | x :: xs, s, h => by
    have hfirst : _ ∧ (¬ DeliversOne s x now → _) := honest_evalSchedule h
    obtain ⟨hkept, hbroken⟩ := hfirst
    rw [evalAll]
    refine ⟨fun hall ↦ ?_, fun hall ↦ ?_⟩
    · obtain ⟨hone, hrest⟩ := hall
      split
      · exact hkept hone
      · rename_i hfailed
        exact (honest_evalAll (hkept hone)).1 (hrest (Bool.eq_false_iff.2 hfailed))
    · by_cases hone : DeliversOne s x now
      · have hrest : ¬ ((evalSchedule s x now).failed = false →
            DeliversAll now (evalSchedule s x now) xs) := fun hrest ↦ hall ⟨hone, hrest⟩
        obtain ⟨hfailed, hnot⟩ := Classical.not_imp.1 hrest
        rw [hfailed, if_neg Bool.false_ne_true]
        exact (honest_evalAll (hkept hone)).2 hnot
      · obtain ⟨c, id, hstuck⟩ := hbroken hone
        split
        · exact ⟨c, id, hstuck⟩
        · exact ⟨c, id, evalAll_invariant (fun hs ht ↦ hs.evaluated ht) hstuck⟩

/-- **One poll** keeps the record honest exactly when it delivers. -/
theorem honest_checkSchedules {p : Poll} (h : Honest s) :
    Honest (checkSchedules s p) ↔ Delivers s p := by
  cases hxs : p.schedules with
  | none =>
    simp only [checkSchedules, Delivers, hxs]
    exact iff_of_true h trivial
  | some xs =>
    simp only [checkSchedules, Delivers, hxs]
    have hloop : _ ∧ (¬ DeliversAll p.now s xs → _) := honest_evalAll h
    obtain ⟨hkept, hbroken⟩ := hloop
    by_cases hall : DeliversAll p.now s xs
    · refine iff_of_true ?_ hall
      have hend := hkept hall
      split
      · exact hend
      · exact ⟨fun id d hk ↦ hend.start id d (mem_keys_prune.1 hk).1,
          fun id d hk ↦ hend.stop id d (mem_keys_prune.1 hk).1⟩
    · refine iff_of_false ?_ hall
      obtain ⟨c, id, hstuck⟩ := hbroken hall
      split
      · exact hstuck.not_honest
      · -- The key shows today's date, so it outlasts the pruning.
        have hkey : fireKey c id p.now.date ∈ (prune (evalAll p.now s xs) p.now).keys :=
          mem_keys_prune.2 ⟨hstuck.1, contains_fireKey c id _⟩
        have hpruned : Stuck p.now c id (prune (evalAll p.now s xs) p.now) := ⟨hkey, hstuck.2⟩
        exact hpruned.not_honest

/-! ### Runs -/

/-- **The record is honest exactly in the runs that deliver.** In every state a run of polls goes
through each recorded command was published on its date — or is a stop that a soft policy left out —
if and only if, in every poll, no publish of a command that is due fails. -/
theorem honest_iff {ps : List Poll} (hinit : system.init s) (hrun : system.Run always s ps t) :
    (∀ qs u, qs <+: ps → system.Run always s qs u → Honest u) ↔ system.Run Delivers s ps t := by
  have hempty : Honest s := by
    obtain rfl : s = {} := hinit
    exact ⟨fun _ _ hk ↦ absurd hk List.not_mem_nil, fun _ _ hk ↦ absurd hk List.not_mem_nil⟩
  have hstep {u v : State} {p : Poll} (hu : Honest u) (hv : system.step u p = some v) :
      Honest v ↔ Delivers u p := by
    obtain ⟨-, hv⟩ := Option.ite_none_left_eq_some.1 hv
    rw [← Option.some.inj hv]
    exact honest_checkSchedules hu
  constructor
  · intro hhonest
    induction hrun with
    | nil => exact .nil
    | @snoc ps p u v hrun _ hv ih =>
      have hu : Honest u := hhonest ps u (List.prefix_append _ _) hrun
      have hv' : Honest v := hhonest (ps ++ [p]) v (List.prefix_refl _) (.snoc hrun trivial hv)
      refine .snoc (ih fun qs w hqs hw ↦ ?_) ((hstep hu hv).1 hv') hv
      exact hhonest qs w (hqs.trans (List.prefix_append _ _)) hw
  · intro hdelivers qs u hqs hu
    obtain ⟨rs, rfl⟩ := hqs
    obtain ⟨w, hw, -⟩ := hdelivers.split
    obtain rfl := hu.deterministic hw
    exact hw.invariant (I := Honest) (fun hs hG ht ↦ (hstep hs ht).2 hG) hempty

end

/-- The publish of nine o'clock raises, and the one of a minute later would succeed: the start is
recorded and is published never. -/
theorem start_lost :
    ∃ ps t, system.Run always {} ps t ∧
      ps.map (fun p ↦ (p.now.minute, p.schedules.map (List.map Fetched.start))) =
        [(0, some [.error]), (1, some [.ok])] ∧
      t.publications = [] ∧ ¬ Honest t := by
  let ps : List Poll :=
    [sundayPoll 9 0 (by decide) ⟨sunday, .error, .ok⟩,
      sundayPoll 9 1 (by decide) ⟨sunday, .ok, .ok⟩]
  obtain ⟨t, hrun, htest⟩ : ∃ t, system.Run always {} ps t ∧
      decide (t.publications = [] ∧ fireKey .start sunday.id sundayDate ∈ t.keys) =
        true :=
    Run.exists_of_exec (by decide +kernel)
  obtain ⟨hnone, hkey⟩ := of_decide_eq_true htest
  refine ⟨ps, t, hrun, by decide +kernel, hnone, fun hhonest ↦ ?_⟩
  have hmem := hhonest.start _ _ hkey
  rw [hnone] at hmem
  exact absurd hmem List.not_mem_nil

/-- The same polls with a publish that succeeds at nine. -/
theorem honest_iff_sunday :
    ∃ ps t, system.Run always {} ps t ∧ t.publications.map Prod.fst = [.start] ∧
      ((∀ qs u, qs <+: ps → system.Run always {} qs u → Honest u) ↔
        system.Run Delivers {} ps t) := by
  let ps : List Poll :=
    [sundayPoll 9 0 (by decide) ⟨sunday, .ok, .ok⟩, sundayPoll 9 1 (by decide) ⟨sunday, .ok, .ok⟩]
  obtain ⟨t, hrun, htest⟩ : ∃ t, system.Run always {} ps t ∧
      decide (t.publications.map Prod.fst = [.start]) = true :=
    Run.exists_of_exec (by decide +kernel)
  exact ⟨ps, t, hrun, of_decide_eq_true htest, honest_iff rfl hrun⟩

end LiveSTT.SystemManager
