import Mathlib.Data.List.Chain
import LiveSTT.Gateway.Schedules
import LiveSTT.SystemManager.OncePerDay

/-!
# Scheduled stops

The policy of a schedule says when its session is to be stopped: at the next `stop_time` (hard), or
N minutes later (grace_N). The schedule checker knows two policies, soft and any other, and it looks
for the stop as for the start: by the weekday and the two-minute window of the current date. So a
stop after midnight is looked for on the days of the schedule and not on the day after them, and N
is not read.

A schedule whose publishes succeed is stopped in a poll exactly when its stop is due there
(`publishes_iff_due`), and what is due is a matter of the polls before: in a run that polls every
minute, a command is published by the polls that are in the window of its time on one of the
schedule's days, and whose date has not been served by an earlier one (`Watched.publishedAt_iff`).

Other schedules may be in the list, and fail to publish: they are `Untouched` by one another, since
a key has the id of its schedule. What "served" means is said by the polls (`Served`), without the
record of the checker: the lemma that connects the two is `mem_keys_checkSchedules`.
-/

namespace LiveSTT.SystemManager

open Calendar TransitionSystem

/-! ### The schedules of the gateway -/

/-- A stored schedule, as the checker fetches it. -/
def listed (id : String) (body : Gateway.ScheduleBody) : Schedule where
  id := id
  enabled := some body.enabled
  dayOfWeek := some body.dayOfWeek
  startTime := body.startTime
  stopTime := body.stopTime
  labelTemplate := some body.labelTemplate
  stopPolicy := some body.stopPolicy

/-- The schedule passed the gateway's validation. -/
def Accepted (shown : String) (sched : Schedule) : Prop :=
  ∃ id body, sched = listed id body ∧ Gateway.validateSchedule shown body = none

section

variable {shown id : String} {s t u : State} {c c' : Command} {x : Fetched} {now : Reading}
  {xs : List Fetched}

/-- The times of an accepted schedule are of the form HH:MM. -/
theorem Accepted.isHhmm (h : Accepted shown x.sched) (c : Command) :
    Gateway.isHhmm (x.sched.target c) = true := by
  obtain ⟨id, body, heq, hvalid⟩ := h
  obtain ⟨-, hstart, hstop, -⟩ := Gateway.validateSchedule_eq_none.1 hvalid
  rw [heq]
  cases c
  · exact hstart
  · exact hstop

/-! ### Times of the day -/

/-- The minute of the day that the checker reads a time as. -/
def minuteOfDay (target : String) : Option ℤ := do
  let th ← Text.int (target.toList.take 2)
  let tm ← Text.int (target.toList.drop 3)
  return th * 60 + tm

/-- An accepted time is read as a minute that is not negative. -/
theorem minuteOfDay_of_isHhmm {target : String} (h : Gateway.isHhmm target = true) :
    ∃ t : ℕ, minuteOfDay target = some (t : ℤ) := by
  obtain ⟨hour, minute, hhour, hminute⟩ := Gateway.int_of_isHhmm h
  refine ⟨hour * 60 + minute, ?_⟩
  simp [minuteOfDay, hhour, hminute]

theorem withinWindow_eq {w : ℤ} {target : String} {h m : ℤ}
    (hh : Text.int (target.toList.take 2) = some h)
    (hm : Text.int (target.toList.drop 3) = some m) :
    withinWindow w now.hhmm target =
      some (decide (0 ≤ (now.minutes : ℤ) - (h * 60 + m) ∧
        (now.minutes : ℤ) - (h * 60 + m) < w)) := by
  simp [withinWindow, now.int_hour, now.int_minute, hh, hm, Reading.minutes]

/-- The window of a time begins at its minute. -/
theorem withinWindow_of_minuteOfDay {w t : ℤ} {target : String} (h : minuteOfDay target = some t) :
    withinWindow w now.hhmm target =
      some (decide (0 ≤ (now.minutes : ℤ) - t ∧ (now.minutes : ℤ) - t < w)) := by
  simp only [minuteOfDay, Option.bind_eq_bind, Option.bind_eq_some_iff, Option.pure_def] at h
  obtain ⟨th, hth, tm, htm, ht⟩ := h
  obtain rfl := Option.some.inj ht
  exact withinWindow_eq hth htm

/-- The last minute of the day is 23:59. -/
theorem minutes_le (now : Reading) : now.minutes ≤ 1439 := by
  have hvalid := now.valid
  rw [Reading.minutes]
  omega

/-- The clock is in the two minutes of the time: it shows the time, or the minute after it. -/
def InWindow (now : Reading) (target : String) : Prop :=
  ∃ t, minuteOfDay target = some t ∧ ((now.minutes : ℤ) = t ∨ (now.minutes : ℤ) = t + 1)

/-- That is the window the evaluation asks for. -/
theorem withinWindow_iff {target : String} (h : Gateway.isHhmm target = true) :
    withinWindow windowMinutes now.hhmm target = some true ↔ InWindow now target := by
  obtain ⟨t, ht⟩ := minuteOfDay_of_isHhmm h
  rw [withinWindow_of_minuteOfDay ht, Option.some.injEq, decide_eq_true_eq]
  constructor
  · rintro ⟨hlow, hhigh⟩
    have hlt : (now.minutes : ℤ) - t < 2 := hhigh
    exact ⟨t, ht, by omega⟩
  · rintro ⟨t', ht', hin⟩
    obtain rfl : (t : ℤ) = t' := Option.some.inj (ht.symm.trans ht')
    refine ⟨by omega, ?_⟩
    show (now.minutes : ℤ) - t < 2
    omega

/-- An accepted time raises in no window. -/
theorem isSome_withinWindow {w : ℤ} {target : String} (h : Gateway.isHhmm target = true) :
    (withinWindow w now.hhmm target).isSome = true := by
  obtain ⟨hhour, hminute⟩ := Gateway.isSome_int_of_isHhmm h
  obtain ⟨th, hth⟩ := Option.isSome_iff_exists.1 hhour
  obtain ⟨tm, htm⟩ := Option.isSome_iff_exists.1 hminute
  rw [withinWindow_eq hth htm]
  rfl

/-! ### One half of an evaluation -/

instance (s : State) (c : Command) (sched : Schedule) (now : Reading) :
    Decidable (Due s c sched now) :=
  inferInstanceAs (Decidable (_ ∧ _ ∧ _))

@[simp] theorem failed_fire (s : State) (c : Command) (x : Fetched) (now : Reading) :
    (fire s c x now).failed = s.failed := by
  cases c with
  | start => rfl
  | stop =>
    simp only [fire, fireStop]
    split <;> rfl

/-- What one half of an evaluation publishes. -/
theorem count_evalHalf (hruns : x.sched.runsOn now = true) (p : Command × String × Date) :
    (evalHalf s c x now).publications.count p = s.publications.count p +
      if Due s c x.sched now ∧ x.publishes c = true ∧
        (c, x.sched.id, now.date) = p then 1 else 0 := by
  rcases evalHalf_cases s c now hruns with ⟨hdue, heq⟩ | ⟨hnot, heq⟩
  · rw [heq, publications_record, publications_fire, List.count_append]
    by_cases hpublishes : x.publishes c = true
    · simp [hdue, hpublishes, List.count_singleton]
    · simp [hpublishes]
  · have hsame : (evalHalf s c x now).publications = s.publications := by
      rcases heq with heq | heq <;> rw [heq]
      rfl
    simp [hsame, hnot]

/-- What one half of an evaluation records. -/
theorem mem_keys_evalHalf (hruns : x.sched.runsOn now = true) {k : String} :
    k ∈ (evalHalf s c x now).keys ↔
      k ∈ s.keys ∨ Due s c x.sched now ∧ k = fireKey c x.sched.id now.date := by
  rcases evalHalf_cases s c now hruns with ⟨hdue, heq⟩ | ⟨hnot, heq⟩
  · simp [heq, hdue]
  · have hsame : (evalHalf s c x now).keys = s.keys := by
      rcases heq with heq | heq <;> rw [heq]
      rfl
    simp [hsame, hnot]

/-- An accepted time ends no process. -/
theorem failed_evalHalf (htime : Gateway.isHhmm (x.sched.target c) = true) :
    (evalHalf s c x now).failed = s.failed := by
  obtain ⟨inside, hinside⟩ : ∃ inside,
      withinWindow windowMinutes now.hhmm (x.sched.target c) = some inside :=
    Option.isSome_iff_exists.1 (isSome_withinWindow htime)
  rw [evalHalf, evalWindow, hinside]
  dsimp only
  split
  · exact failed_fire s c x now
  · rfl

/-- An accepted schedule does not make the evaluation raise. -/
theorem failed_evalSchedule (h : Accepted shown x.sched) :
    (evalSchedule s x now).failed = s.failed := by
  rw [evalSchedule_eq]
  split
  · split
    · exact failed_evalHalf (h.isHhmm .start)
    · rw [failed_evalHalf (h.isHhmm .stop), failed_evalHalf (h.isHhmm .start)]
  · rfl

/-! ### The other schedules -/

/-- Nothing was published for the schedule, and none of its keys was recorded. -/
structure Untouched (id : String) (s t : State) : Prop where
  count : ∀ c d, t.publications.count (c, id, d) = s.publications.count (c, id, d)
  keys : ∀ c d, fireKey c id d ∈ t.keys ↔ fireKey c id d ∈ s.keys

theorem Untouched.refl (s : State) : Untouched id s s :=
  ⟨fun _ _ ↦ rfl, fun _ _ ↦ Iff.rfl⟩

theorem Untouched.trans (h : Untouched id s t) (h' : Untouched id t u) : Untouched id s u :=
  ⟨fun c d ↦ (h'.count c d).trans (h.count c d), fun c d ↦ (h'.keys c d).trans (h.keys c d)⟩

theorem Untouched.due (h : Untouched id s t) {sched : Schedule} (hid : sched.id = id) :
    Due t c sched now ↔ Due s c sched now := by
  subst hid
  exact and_congr_right' (and_congr_right' (not_congr (h.keys c _)))

/-- One half of another schedule's evaluation. -/
theorem untouched_evalHalf (hruns : x.sched.runsOn now = true) (hid : x.sched.id ≠ id) :
    Untouched id s (evalHalf s c x now) := by
  refine ⟨fun c' d ↦ ?_, fun c' d ↦ ?_⟩
  · rw [count_evalHalf hruns, if_neg, Nat.add_zero]
    rintro ⟨-, -, heq⟩
    exact hid (congrArg (fun p ↦ p.2.1) heq)
  · rw [mem_keys_evalHalf hruns, or_iff_left]
    rintro ⟨-, heq⟩
    exact hid (fireKey_injective heq).2.1.symm

/-- The whole of it: the keys have the id of their schedule. -/
theorem untouched_evalSchedule (hid : x.sched.id ≠ id) : Untouched id s (evalSchedule s x now) := by
  rw [evalSchedule_eq]
  split
  · rename_i hruns
    split
    · exact untouched_evalHalf hruns hid
    · exact (untouched_evalHalf hruns hid).trans (untouched_evalHalf hruns hid)
  · exact .refl s

/-- Evaluating other schedules. -/
theorem untouched_evalAll : ∀ {xs : List Fetched} {s : State}, (∀ x ∈ xs, x.sched.id ≠ id) →
    Untouched id s (evalAll now s xs)
  | [], _, _ => .refl _
  | x :: xs, s, hids => by
    have hone : Untouched id s (evalSchedule s x now) :=
      untouched_evalSchedule (hids x List.mem_cons_self)
    rw [evalAll]
    split
    · exact hone
    · exact hone.trans (untouched_evalAll fun y hy ↦ hids y (List.mem_cons_of_mem _ hy))

/-- Nor does a list of them. -/
theorem failed_evalAll : ∀ {xs : List Fetched} {s : State}, (∀ x ∈ xs, Accepted shown x.sched) →
    s.failed = false → (evalAll now s xs).failed = false
  | [], _, _, hs => hs
  | x :: xs, s, hxs, hs => by
    have hone : (evalSchedule s x now).failed = false :=
      (failed_evalSchedule (hxs x List.mem_cons_self)).trans hs
    rw [evalAll, hone, if_neg Bool.false_ne_true]
    exact failed_evalAll (fun y hy ↦ hxs y (List.mem_cons_of_mem _ hy)) hone

/-- A list of accepted schedules is evaluated to its end. -/
theorem evalAll_append : ∀ {xs ys : List Fetched} {s : State}, (∀ x ∈ xs, Accepted shown x.sched) →
    s.failed = false → evalAll now s (xs ++ ys) = evalAll now (evalAll now s xs) ys
  | [], _, _, _, _ => rfl
  | x :: xs, ys, s, hxs, hs => by
    have hone : (evalSchedule s x now).failed = false :=
      (failed_evalSchedule (hxs x List.mem_cons_self)).trans hs
    rw [List.cons_append, evalAll, evalAll, hone, if_neg Bool.false_ne_true,
      if_neg Bool.false_ne_true]
    exact evalAll_append (fun y hy ↦ hxs y (List.mem_cons_of_mem _ hy)) hone

/-! ### One poll -/

/-- The poll publishes the command of the schedule. -/
def Publishes (s : State) (p : Poll) (c : Command) (id : String) : Prop :=
  s.publications.count (c, id, p.now.date) <
    (checkSchedules s p).publications.count (c, id, p.now.date)

/-- The key of the start is not the one the stop looks up. -/
theorem due_stop_evalHalf (hruns : x.sched.runsOn now = true) :
    Due (evalHalf s .start x now) .stop x.sched now ↔ Due s .stop x.sched now := by
  refine and_congr_right' (and_congr_right' (not_congr ?_))
  rw [mem_keys_evalHalf hruns, or_iff_left]
  rintro ⟨-, heq⟩
  exact absurd (fireKey_injective heq).1 (by decide)

/-- The evaluation of a schedule publishes what is due. -/
theorem count_evalSchedule (hs : s.failed = false) (h : Accepted shown x.sched)
    (hpublishes : x.publishes c = true) :
    (evalSchedule s x now).publications.count (c, x.sched.id, now.date) =
      s.publications.count (c, x.sched.id, now.date) + if Due s c x.sched now then 1 else 0 := by
  rw [evalSchedule_eq]
  split
  · rename_i hruns
    rw [failed_evalHalf (h.isHhmm .start), hs, if_neg Bool.false_ne_true, count_evalHalf hruns,
      count_evalHalf hruns]
    cases c with
    | start => simp [hpublishes]
    | stop => simp [hpublishes, due_stop_evalHalf hruns]
  · rename_i hruns
    rw [if_neg fun hdue ↦ hruns hdue.1, Nat.add_zero]

/-- And it records what is due. -/
theorem mem_keys_evalSchedule (hs : s.failed = false) (h : Accepted shown x.sched) (c : Command)
    (d : Date) : fireKey c x.sched.id d ∈ (evalSchedule s x now).keys ↔
      fireKey c x.sched.id d ∈ s.keys ∨ Due s c x.sched now ∧ d = now.date := by
  have hkey (c' : Command) : fireKey c x.sched.id d = fireKey c' x.sched.id now.date ↔
      c = c' ∧ d = now.date := by
    constructor
    · intro heq
      obtain ⟨rfl, -, rfl⟩ := fireKey_injective heq
      exact ⟨rfl, rfl⟩
    · rintro ⟨rfl, rfl⟩
      rfl
  rw [evalSchedule_eq]
  split
  · rename_i hruns
    rw [failed_evalHalf (h.isHhmm .start), hs, if_neg Bool.false_ne_true, mem_keys_evalHalf hruns,
      mem_keys_evalHalf hruns, hkey, hkey, due_stop_evalHalf hruns]
    cases c with
    | start => simp
    | stop => simp
  · rename_i hruns
    exact (or_iff_left fun hdue ↦ hruns hdue.1.1).symm

/-- In the loop of a poll, only the evaluation of the schedule itself touches what is its own. -/
theorem exists_untouched (hs : s.failed = false) (hx : x ∈ xs)
    (hids : (xs.map fun x ↦ x.sched.id).Nodup) (hxs : ∀ y ∈ xs, Accepted shown y.sched) :
    ∃ u, u.failed = false ∧ Untouched x.sched.id s u ∧
      Untouched x.sched.id (evalSchedule u x now) (evalAll now s xs) := by
  obtain ⟨ys, zs, rfl⟩ := List.append_of_mem hx
  simp only [List.map_append, List.map_cons, List.nodup_append, List.nodup_cons, List.mem_map,
    List.mem_cons] at hids
  obtain ⟨-, ⟨hzs, -⟩, hys⟩ := hids
  have hys' : ∀ y ∈ ys, Accepted shown y.sched := fun y hy ↦ hxs y (List.mem_append_left _ hy)
  have hs' : (evalAll now s ys).failed = false := failed_evalAll hys' hs
  have hfail : (evalSchedule (evalAll now s ys) x now).failed = false :=
    (failed_evalSchedule (hxs x hx)).trans hs'
  have hend : evalAll now s (ys ++ x :: zs) =
      evalAll now (evalSchedule (evalAll now s ys) x now) zs := by
    rw [evalAll_append hys' hs, evalAll, hfail, if_neg Bool.false_ne_true]
  refine ⟨evalAll now s ys, hs', ?_, ?_⟩
  · exact untouched_evalAll fun y hy ↦ hys _ ⟨y, hy, rfl⟩ _ (Or.inl rfl)
  · rw [hend]
    exact untouched_evalAll fun y hy heq ↦ hzs ⟨y, hy, heq⟩

/-- **A poll publishes a command exactly when it is due**, for a schedule whose publishes
succeed. -/
theorem publishes_iff_due (hs : s.failed = false) (hx : x ∈ xs)
    (hids : (xs.map fun x ↦ x.sched.id).Nodup) (hxs : ∀ y ∈ xs, Accepted shown y.sched)
    (hpublishes : x.publishes c = true) :
    Publishes s ⟨now, some xs⟩ c x.sched.id ↔ Due s c x.sched now := by
  obtain ⟨u, hu, hbefore, hafter⟩ : ∃ u, u.failed = false ∧ Untouched x.sched.id s u ∧
      Untouched x.sched.id (evalSchedule u x now) (evalAll now s xs) :=
    exists_untouched hs hx hids hxs
  have hone : (evalSchedule u x now).publications.count (c, x.sched.id, now.date) = _ :=
    count_evalSchedule hu (hxs x hx) hpublishes
  have hcount :
    (checkSchedules s ⟨now, some xs⟩).publications = (evalAll now s xs).publications := by
    simp only [checkSchedules]
    split <;> rfl
  rw [Publishes, hcount, hafter.count, hone, hbefore.count]
  by_cases hdue : Due s c x.sched now
  · simp [hbefore.due rfl, hdue]
  · simp [hbefore.due rfl, hdue]

/-- **The keys a poll leaves**: those that were there and that of what is due, of these the ones
that show the date of the poll. -/
theorem mem_keys_checkSchedules (hs : s.failed = false) (hx : x ∈ xs)
    (hids : (xs.map fun x ↦ x.sched.id).Nodup) (hxs : ∀ y ∈ xs, Accepted shown y.sched)
    (c : Command) (d : Date) : fireKey c x.sched.id d ∈ (checkSchedules s ⟨now, some xs⟩).keys ↔
      (fireKey c x.sched.id d ∈ s.keys ∨ Due s c x.sched now ∧ d = now.date) ∧
        Text.contains (fireKey c x.sched.id d) now.date.compact = true := by
  obtain ⟨u, hu, hbefore, hafter⟩ : ∃ u, u.failed = false ∧ Untouched x.sched.id s u ∧
      Untouched x.sched.id (evalSchedule u x now) (evalAll now s xs) :=
    exists_untouched hs hx hids hxs
  have hpoll : checkSchedules s ⟨now, some xs⟩ = prune (evalAll now s xs) now := by
    simp only [checkSchedules, failed_evalAll hxs hs, if_neg Bool.false_ne_true]
  rw [hpoll, mem_keys_prune, hafter.keys, mem_keys_evalSchedule hu (hxs x hx), hbefore.keys,
    hbefore.due rfl]

end

/-! ### Runs -/

/-- The polls of a minute, one of them: what it fetched. -/
structure Round where
  minute : ℕ
  schedules : List Fetched

section

variable (clock : ℕ → Reading)

/-- A poll reads the clock. -/
def Round.poll (r : Round) : Poll :=
  ⟨clock r.minute, some r.schedules⟩

/-- A run in which every minute is polled and fetches the schedule, the fetched schedules are valid
and have different identifiers, and the publishes of the schedule succeed. -/
structure Watched (shown : String) (x : Fetched) (rs : List Round) : Prop where
  polled : rs.IsChain fun r r' ↦ r'.minute = r.minute ∨ r'.minute = r.minute + 1
  fetched : ∀ r ∈ rs, x ∈ r.schedules
  ids : ∀ r ∈ rs, (r.schedules.map fun x ↦ x.sched.id).Nodup
  accepted : ∀ r ∈ rs, ∀ y ∈ r.schedules, Accepted shown y.sched
  succeeds : x.start.applied = true ∧ x.stop.applied = true

/-- In the run of `rs`, poll `i` is `r` and finds the state `s`. -/
def Finds (rs : List Round) (i : ℕ) (r : Round) (s : State) : Prop :=
  rs[i]? = some r ∧ system.Run always {} ((rs.take i).map (Round.poll clock)) s

/-- Poll `i` publishes the command of the schedule. -/
def PublishedAt (rs : List Round) (c : Command) (id : String) (i : ℕ) : Prop :=
  ∃ r s, Finds clock rs i r s ∧ Publishes s (r.poll clock) c id

/-- The schedule is open for a command: the day is one of its days, and the clock is in the
window. -/
def Schedule.Opens (sched : Schedule) (c : Command) (now : Reading) : Prop :=
  sched.runsOn now = true ∧ InWindow now (sched.target c)

/-- A poll at the reading keeps the key of the date: it shows the date of the reading. -/
def Schedule.Keeps (sched : Schedule) (c : Command) (d : Date) (now : Reading) : Prop :=
  Text.contains (fireKey c sched.id d) now.date.compact = true

/-- The date has been served before poll `i`: an earlier poll of that date found the schedule open,
and the polls from then on keep the key. -/
def Served (rs : List Round) (c : Command) (sched : Schedule) (d : Date) (i : ℕ) : Prop :=
  ∃ j r, j < i ∧ rs[j]? = some r ∧ sched.Opens c (clock r.minute) ∧ (clock r.minute).date = d ∧
    ∀ l r', j < l → l < i → rs[l]? = some r' → sched.Keeps c d (clock r'.minute)

/-- Poll `i` finds the schedule open for the command, on a date that has not been served. -/
def Finding (rs : List Round) (c : Command) (sched : Schedule) (i : ℕ) : Prop :=
  ∃ r, rs[i]? = some r ∧ sched.Opens c (clock r.minute) ∧
    ¬ Served clock rs c sched (clock r.minute).date i

end

section

variable {clock : ℕ → Reading} {shown : String} {x : Fetched} {rs : List Round} {r : Round}
  {s : State} {c : Command} {i m n o : ℕ}

/-- A poll of the run does not fail. -/
theorem Watched.failed_checkSchedules (h : Watched shown x rs) (hr : r ∈ rs)
    (hs : s.failed = false) : (checkSchedules s (r.poll clock)).failed = false := by
  have hloop : (evalAll (clock r.minute) s r.schedules).failed = false :=
    failed_evalAll (h.accepted r hr) hs
  simp only [checkSchedules, Round.poll, hloop, if_neg Bool.false_ne_true]
  exact hloop

/-- The next poll finds what the one before it leaves. -/
theorem Watched.finds_succ (h : Watched shown x rs) (hfinds : Finds clock rs i r s)
    (hs : s.failed = false) {r' : Round} (hr' : rs[i + 1]? = some r') :
    Finds clock rs (i + 1) r' (checkSchedules s (r.poll clock)) ∧
      (checkSchedules s (r.poll clock)).failed = false := by
  obtain ⟨hr, hrun⟩ := hfinds
  refine ⟨⟨hr', ?_⟩, h.failed_checkSchedules (List.mem_of_getElem? hr) hs⟩
  rw [List.take_add_one, hr, Option.toList_some, List.map_append]
  refine .snoc hrun trivial ?_
  simp [system, hs]

/-- The process is there at each poll. -/
theorem Watched.finds (h : Watched shown x rs) :
    ∀ {i : ℕ} {r : Round}, rs[i]? = some r → ∃ s, Finds clock rs i r s ∧ s.failed = false
  | 0, _, hr => ⟨{}, ⟨hr, .nil⟩, rfl⟩
  | i + 1, r, hr => by
    obtain ⟨hi, -⟩ := List.getElem?_eq_some_iff.1 hr
    obtain ⟨s, hfinds, hs⟩ := h.finds (List.getElem?_eq_getElem (show i < rs.length by omega))
    exact ⟨_, h.finds_succ hfinds hs hr⟩

/-- What is due, for a schedule that was accepted. -/
theorem due_iff (h : Accepted shown x.sched) (now : Reading) : Due s c x.sched now ↔
    x.sched.Opens c now ∧ fireKey c x.sched.id now.date ∉ s.keys := by
  rw [Due, withinWindow_iff (h.isHhmm c), Schedule.Opens, and_assoc]

/-- **The keys a poll finds** are those of the dates that have been served. -/
theorem Watched.mem_keys (h : Watched shown x rs) (d : Date) :
    ∀ {i : ℕ} {r : Round} {s : State}, Finds clock rs i r s →
      (fireKey c x.sched.id d ∈ s.keys ↔ Served clock rs c x.sched d i)
  | 0, r, s, hfinds => by
    obtain rfl : s = {} := hfinds.2.deterministic (H := always) .nil
    refine iff_of_false (by simp [State.keys]) ?_
    rintro ⟨j, -, hj, -⟩
    exact absurd hj (Nat.not_lt_zero j)
  | i + 1, r', t, hfinds => by
    obtain ⟨hi, -⟩ := List.getElem?_eq_some_iff.1 hfinds.1
    obtain ⟨r, hr⟩ : ∃ r, rs[i]? = some r :=
      ⟨_, List.getElem?_eq_getElem (show i < rs.length by omega)⟩
    obtain ⟨s, hbefore, hs⟩ : ∃ s, Finds clock rs i r s ∧ s.failed = false := h.finds hr
    obtain rfl : checkSchedules s (r.poll clock) = t :=
      (h.finds_succ hbefore hs hfinds.1).1.2.deterministic hfinds.2
    have hmem := List.mem_of_getElem? hr
    have haccepted := h.accepted r hmem x (h.fetched r hmem)
    rw [Round.poll,
      mem_keys_checkSchedules hs (h.fetched r hmem) (h.ids r hmem) (h.accepted r hmem),
      due_iff haccepted, h.mem_keys d hbefore]
    constructor
    · rintro ⟨⟨j, rj, hj, hrj, hopens, hdate, hkeeps⟩ | ⟨⟨hopens, -⟩, rfl⟩, hkeep⟩
      · refine ⟨j, rj, hj.trans (Nat.lt_succ_self i), hrj, hopens, hdate, fun l rl hjl hl hrl ↦ ?_⟩
        rcases Nat.lt_succ_iff_lt_or_eq.1 hl with hl | rfl
        · exact hkeeps l rl hjl hl hrl
        · obtain rfl := Option.some.inj (hr.symm.trans hrl)
          exact hkeep
      · exact ⟨i, r, Nat.lt_succ_self i, hr, hopens, rfl, fun l rl hil hl _ ↦ by omega⟩
    · rintro ⟨j, rj, hj, hrj, hopens, hdate, hkeeps⟩
      rcases Nat.lt_succ_iff_lt_or_eq.1 hj with hj | rfl
      · refine ⟨Or.inl ⟨j, rj, hj, hrj, hopens, hdate, fun l rl hjl hl hrl ↦ ?_⟩,
          hkeeps i r hj (Nat.lt_succ_self i) hr⟩
        exact hkeeps l rl hjl (hl.trans (Nat.lt_succ_self i)) hrl
      · obtain rfl := Option.some.inj (hr.symm.trans hrj)
        subst hdate
        refine ⟨?_, contains_fireKey c _ _⟩
        -- the date is served by this poll, if it was not before
        by_cases hserved : fireKey c x.sched.id (clock r.minute).date ∈ s.keys
        · exact Or.inl ((h.mem_keys _ hbefore).1 hserved)
        · exact Or.inr ⟨⟨hopens, hserved⟩, rfl⟩

/-- **At each poll, the command is published if and only if the schedule is open for it and the date
has not been served**, which is a matter of the clock and the polls. -/
theorem Watched.publishedAt_iff (h : Watched shown x rs) (hpublishes : x.publishes c = true) :
    PublishedAt clock rs c x.sched.id i ↔ Finding clock rs c x.sched i := by
  have hat {r : Round} {s : State} (hfinds : Finds clock rs i r s) (hs : s.failed = false) :
      Publishes s (r.poll clock) c x.sched.id ↔ x.sched.Opens c (clock r.minute) ∧
        ¬ Served clock rs c x.sched (clock r.minute).date i := by
    have hmem := List.mem_of_getElem? hfinds.1
    have haccepted := h.accepted r hmem x (h.fetched r hmem)
    rw [Round.poll, publishes_iff_due hs (h.fetched r hmem) (h.ids r hmem) (h.accepted r hmem)
      hpublishes, due_iff haccepted, h.mem_keys _ hfinds]
  constructor
  · rintro ⟨r, s, hfinds, hpublished⟩
    obtain ⟨s', hfinds', hs⟩ : ∃ s', Finds clock rs i r s' ∧ s'.failed = false := h.finds hfinds.1
    obtain rfl := hfinds.2.deterministic hfinds'.2
    exact ⟨r, hfinds.1, (hat hfinds hs).1 hpublished⟩
  · rintro ⟨r, hr, hfinding⟩
    obtain ⟨s, hfinds, hs⟩ : ∃ s, Finds clock rs i r s ∧ s.failed = false := h.finds hr
    exact ⟨r, s, hfinds, (hat hfinds hs).2 hfinding⟩

end

end LiveSTT.SystemManager
