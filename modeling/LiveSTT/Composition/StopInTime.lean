import Mathlib.Data.Nat.Find
import LiveSTT.Composition.StopPolicy

/-!
# When a scheduled stop honours its policy

A hard stop is to be published in the first minute after the start that shows `stop_time`, and a
stop of `grace_N` N minutes later. What is published is decided by the clock and the polls alone
(`Watched.publishedAt_iff`), and so is whether that is in time (`InTime`): no poll before the minute
finds the schedule open for its stop, on a date that has not been served; and the first poll of the
minute does.

On a clock that goes on by the minute, into the next date at midnight (`Ticking`), that comes to a
matter of weekdays (`NextStop`). From the start on, `stop_time` is shown once a day, and the stop is
published on the first of these days that is one of the schedule's. So a hard stop is in time if the
day of `stop_time` is one of them, which it need not be past midnight; and a stop with a delay is
late by whole days or not at all, so that no delay of less than a day is kept
(`grace_not_honoured`). `honoured_iff` has both.
-/

namespace LiveSTT.SystemManager

open Calendar TransitionSystem

/-! ### What the policy promises -/

section

variable (clock : ℕ → Reading)

/-- The clock shows the time. -/
def Shows (now : Reading) (target : String) : Prop :=
  minuteOfDay target = some (now.minutes : ℤ)

/-- `o` is the first minute after `m` at which the clock shows the time. -/
structure FirstAfter (target : String) (m o : ℕ) : Prop where
  after : m < o
  shows : Shows (clock o) target
  first : ∀ k, m < k → k < o → ¬ Shows (clock k) target

/-- The policy stops a session `n` minutes after `stop_time`. -/
def Delays (policy : String) (n : ℕ) : Prop :=
  policy = "hard" ∧ n = 0 ∨ policy = "grace_" ++ toString n

/-- From poll `i` on, `P` holds in the minute `due` and in none before. -/
structure Timely (rs : List Round) (P : ℕ → Prop) (i due : ℕ) : Prop where
  notBefore : ∀ k (r : Round), i ≤ k → rs[k]? = some r → r.minute < due → ¬ P k
  inMinute : ∀ k (r : Round), i ≤ k → rs[k]? = some r → due ≤ r.minute →
    ∃ (q : ℕ) (r' : Round), i ≤ q ∧ q ≤ k ∧ rs[q]? = some r' ∧ r'.minute = due ∧ P q

/-- What the policy promises of the run: whenever the start is published, the stop is published in
the minute that the policy says, counted from the next `stop_time`, and not before. -/
def Honoured (rs : List Round) (sched : Schedule) : Prop :=
  ∀ i r o n, rs[i]? = some r → PublishedAt clock rs .start sched.id i →
    FirstAfter clock sched.stopTime r.minute o → Delays sched.policy n →
      Timely rs (PublishedAt clock rs .stop sched.id) i (o + n)

/-! ### What the clock and the polls decide -/

/-- Poll `q` is the first of its minute. -/
structure FirstOf (rs : List Round) (minute q : ℕ) : Prop where
  polled : ∃ r : Round, rs[q]? = some r ∧ r.minute = minute
  first : ∀ j (r : Round), j < q → rs[j]? = some r → r.minute < minute

/-- The stop for the start at poll `i` is in time, in the minute `due`: no poll from the start on
finds the schedule open before, on a date that has not been served; and the first poll of the minute
does. -/
structure InTime (rs : List Round) (sched : Schedule) (i due : ℕ) : Prop where
  quiet : ∀ k (r : Round), i ≤ k → rs[k]? = some r → r.minute < due →
    sched.Opens .stop (clock r.minute) →
    Served clock rs .stop sched (clock r.minute).date k
  opens : ∀ q, FirstOf rs due q → sched.Opens .stop (clock due) ∧
    ¬ Served clock rs .stop sched (clock due).date q

/-- The clock goes on by the minute, and at midnight to a later date. -/
structure Ticking : Prop where
  within : ∀ m, (clock m).minutes < 1439 →
    (clock (m + 1)).date = (clock m).date ∧ (clock (m + 1)).minutes = (clock m).minutes + 1
  midnight : ∀ m, (clock m).minutes = 1439 → (clock m).date ≤ (clock (m + 1)).date ∧
    (clock m).date ≠ (clock (m + 1)).date ∧ (clock (m + 1)).minutes = 0

/-- The run has a poll in the minute. -/
def Polled (rs : List Round) (minute : ℕ) : Prop :=
  ∃ (k : ℕ) (r : Round), rs[k]? = some r ∧ r.minute = minute

/-- The stop for the start at poll `i`, in the minute `m`, comes `n` minutes after `o`, in days: the
start is in no window of `stop_time` that has not been served; no day that shows `stop_time` before
is one of the schedule's; and `n` minutes are whole days, after which the day is. -/
structure NextStop (rs : List Round) (sched : Schedule) (i m o n : ℕ) : Prop where
  start : sched.Opens .stop (clock m) → Served clock rs .stop sched (clock m).date i
  skipped : ∀ w, o ≤ w → w < o + n → Polled rs w → Shows (clock w) sched.stopTime →
    ¬ sched.runsOn (clock w) = true
  listed : Polled rs (o + n) → 1440 ∣ n ∧ sched.runsOn (clock (o + n)) = true

/-- Whenever the start is published, the stop is in time. -/
def OnTime (rs : List Round) (sched : Schedule) : Prop :=
  ∀ i r o n, rs[i]? = some r → Finding clock rs .start sched i →
    FirstAfter clock sched.stopTime r.minute o → Delays sched.policy n →
      InTime clock rs sched i (o + n)

/-- The same in days. -/
def OnDays (rs : List Round) (sched : Schedule) : Prop :=
  ∀ i r o n, rs[i]? = some r → Finding clock rs .start sched i →
    FirstAfter clock sched.stopTime r.minute o → Delays sched.policy n →
      NextStop clock rs sched i r.minute o n

end

section

variable {clock : ℕ → Reading} {shown : String} {x : Fetched} {rs : List Round} {r r' : Round}
  {sched : Schedule} {c : Command} {i k m n o w q : ℕ}

/-! ### The minutes of the polls -/

theorem Watched.minute_succ (h : Watched shown x rs) (hr : rs[k]? = some r)
    (hr' : rs[k + 1]? = some r') : r'.minute = r.minute ∨ r'.minute = r.minute + 1 := by
  obtain ⟨hk, rfl⟩ := List.getElem?_eq_some_iff.1 hr
  obtain ⟨hk', rfl⟩ := List.getElem?_eq_some_iff.1 hr'
  exact h.polled.getElem k hk'

/-- The minutes of the polls do not decrease. -/
theorem Watched.minute_le (h : Watched shown x rs) (hi : rs[i]? = some r) (hle : i ≤ k)
    (hk : rs[k]? = some r') : r.minute ≤ r'.minute := by
  induction k, hle using Nat.le_induction generalizing r' with
  | base =>
    obtain rfl := Option.some.inj (hi.symm.trans hk)
    exact le_rfl
  | succ k hle ih =>
    obtain ⟨hlt, -⟩ := List.getElem?_eq_some_iff.1 hk
    have hbefore := List.getElem?_eq_getElem (show k < rs.length by omega)
    have hmono := ih hbefore
    have hstep := h.minute_succ hbefore hk
    omega

/-- A minute that the run passes has a first poll. -/
theorem Watched.exists_firstOf (h : Watched shown x rs) (hi : rs[i]? = some r) (hlt : r.minute < w)
    (hk : rs[k]? = some r') (hle : w ≤ r'.minute) : ∃ q, i < q ∧ q ≤ k ∧ FirstOf rs w q := by
  classical
  have hex : ∃ q, ∃ r' : Round, rs[q]? = some r' ∧ w ≤ r'.minute := ⟨k, r', hk, hle⟩
  obtain ⟨rq, hrq, hreached⟩ := Nat.find_spec hex
  have hbefore : ∀ j (r : Round), j < Nat.find hex → rs[j]? = some r → r.minute < w :=
    fun j r hj hr ↦
    not_le.1 fun hle' ↦ Nat.find_min hex hj ⟨r, hr, hle'⟩
  have hafter : i < Nat.find hex := by
    by_contra hnot
    have hmono := h.minute_le hrq (not_lt.1 hnot) hi
    omega
  refine ⟨Nat.find hex, hafter, Nat.find_min' hex ⟨r', hk, hle⟩, ⟨rq, hrq, ?_⟩, hbefore⟩
  -- the poll before is in an earlier minute, and no minute is left out
  obtain ⟨p, hp⟩ : ∃ p, Nat.find hex = p + 1 := ⟨Nat.find hex - 1, by omega⟩
  rw [hp] at hrq
  obtain ⟨hlength, -⟩ := List.getElem?_eq_some_iff.1 hrq
  have hrp := List.getElem?_eq_getElem (show p < rs.length by omega)
  have hearlier := hbefore p _ (by omega) hrp
  have hstep := h.minute_succ hrp hrq
  omega

theorem Watched.exists_firstOf_of_polled (h : Watched shown x rs) (hi : rs[i]? = some r)
    (hlt : r.minute < w) (hw : Polled rs w) : ∃ q, i < q ∧ FirstOf rs w q := by
  obtain ⟨k, r', hk, rfl⟩ := hw
  obtain ⟨q, hq, -, hfirst⟩ := h.exists_firstOf hi hlt hk le_rfl
  exact ⟨q, hq, hfirst⟩

/-- The minutes between two polls are polled. -/
theorem Watched.polled_of_le (h : Watched shown x rs) (hi : rs[i]? = some r) (hlt : r.minute < w)
    (hk : rs[k]? = some r') (hle : w ≤ r'.minute) : Polled rs w := by
  obtain ⟨q, -, -, ⟨rq, hrq, hminute⟩, -⟩ := h.exists_firstOf hi hlt hk hle
  exact ⟨q, rq, hrq, hminute⟩

/-! ### On any clock -/

theorem finding_iff (hk : rs[k]? = some r) : Finding clock rs c sched k ↔
    sched.Opens c (clock r.minute) ∧ ¬ Served clock rs c sched (clock r.minute).date k := by
  constructor
  · rintro ⟨r', hr', hfinding⟩
    obtain rfl := Option.some.inj (hk.symm.trans hr')
    exact hfinding
  · exact fun hfinding ↦ ⟨r, hk, hfinding⟩

/-- **The stop is published in the minute and not before, exactly if it is in time.** -/
theorem Watched.timely_iff (h : Watched shown x rs) (hi : rs[i]? = some r) (hdue : r.minute < m) :
    Timely rs (Finding clock rs c sched) i m ↔
      (∀ k (r : Round), i ≤ k → rs[k]? = some r → r.minute < m → sched.Opens c (clock r.minute) →
        Served clock rs c sched (clock r.minute).date k) ∧
      ∀ q, FirstOf rs m q → sched.Opens c (clock m) ∧
        ¬ Served clock rs c sched (clock m).date q := by
  constructor
  · intro htimely
    refine ⟨fun k r' hle hk hlt hopens ↦ ?_, fun q hq ↦ ?_⟩
    · by_contra hserved
      exact htimely.notBefore k r' hle hk hlt ((finding_iff hk).2 ⟨hopens, hserved⟩)
    · obtain ⟨rq, hrq, rfl⟩ := hq.polled
      have hle : i ≤ q := by
        by_contra hnot
        have hmono := h.minute_le hrq (not_le.1 hnot).le hi
        omega
      obtain ⟨q', r', -, hle', hr', hminute, hfinding⟩ := htimely.inMinute q rq hle hrq le_rfl
      have heq : q' = q := by
        by_contra hne
        have hearlier := hq.first q' r' (by omega) hr'
        omega
      rw [heq] at hfinding
      exact (finding_iff hrq).1 hfinding
  · rintro ⟨hquiet, hopens⟩
    refine ⟨fun k r' hle hk hlt hfinding ↦ ?_, fun k r' hle hk hreached ↦ ?_⟩
    · obtain ⟨hopen, hnot⟩ := (finding_iff hk).1 hfinding
      exact hnot (hquiet k r' hle hk hlt hopen)
    · obtain ⟨q, hiq, hqk, hq⟩ := h.exists_firstOf hi hdue hk hreached
      obtain ⟨rq, hrq, rfl⟩ := hq.polled
      exact ⟨q, rq, hiq.le, hqk, hrq, rfl, (finding_iff hrq).2 (hopens q hq)⟩

/-- A schedule that is not soft publishes its commands. -/
theorem Watched.publishes (h : Watched shown x rs) (hpolicy : Delays x.sched.policy n)
    (c : Command) : x.publishes c = true := by
  cases c with
  | start => exact h.succeeds.1
  | stop =>
    have hpolicy : x.sched.policy ≠ "soft" := by
      intro hsoft
      rw [hsoft] at hpolicy
      rcases hpolicy with ⟨hhard, -⟩ | hgrace
      · exact absurd hhard (by decide)
      · have hhead := congrArg (fun t ↦ t.toList.head?) hgrace
        simp at hhead
    simp [Fetched.publishes, hpolicy, h.succeeds.2]

/-- The promise for one start. -/
theorem Watched.timely_published_iff (h : Watched shown x rs) (hpolicy : Delays x.sched.policy n)
    (hi : rs[i]? = some r) (ho : FirstAfter clock x.sched.stopTime r.minute o) :
    Timely rs (PublishedAt clock rs .stop x.sched.id) i (o + n) ↔
      InTime clock rs x.sched i (o + n) := by
  have hstop : PublishedAt clock rs .stop x.sched.id = Finding clock rs .stop x.sched :=
    funext fun i ↦ propext (h.publishedAt_iff (h.publishes hpolicy .stop))
  have hafter := ho.after
  rw [hstop, h.timely_iff hi (show r.minute < o + n by omega)]
  exact ⟨fun hin ↦ ⟨hin.1, hin.2⟩, fun hin ↦ ⟨hin.quiet, hin.opens⟩⟩

/-! ### On a clock that ticks -/

namespace Ticking

/-- `k` minutes later the clock shows the minute `k` further on, round the day. -/
theorem minutes_add (h : Ticking clock) (m k : ℕ) :
    (clock (m + k)).minutes = ((clock m).minutes + k) % 1440 := by
  induction k with
  | zero =>
    have hle := minutes_le (clock m)
    rw [Nat.add_zero, Nat.add_zero]
    omega
  | succ k ih =>
    have hle := minutes_le (clock (m + k))
    rcases Nat.lt_or_ge (clock (m + k)).minutes 1439 with hlt | hge
    · have hnext := (h.within _ hlt).2
      rw [← Nat.add_assoc]
      omega
    · have hnext := (h.midnight (m + k) (by omega)).2.2
      rw [← Nat.add_assoc]
      omega

/-- Dates do not go back. -/
theorem date_le (h : Ticking clock) (hle : m ≤ k) : (clock m).date ≤ (clock k).date := by
  induction k, hle using Nat.le_induction with
  | base => exact Date.le_refl _
  | succ k _ ih =>
    have hle := minutes_le (clock k)
    rcases Nat.lt_or_ge (clock k).minutes 1439 with hlt | hge
    · rw [(h.within k hlt).1]
      exact ih
    · exact Date.le_trans ih (h.midnight k (by omega)).1

/-- A date that is left does not come back. -/
theorem date_eq (h : Ticking clock) (hmw : m ≤ w) (hwk : w ≤ k)
    (heq : (clock m).date = (clock k).date) : (clock w).date = (clock k).date :=
  Date.le_antisymm (h.date_le hwk) (heq ▸ h.date_le hmw)

/-- Within a date the clock counts the minutes. -/
theorem minutes_of_date_eq (h : Ticking clock) (hle : m ≤ k)
    (heq : (clock m).date = (clock k).date) :
    (clock k).minutes = (clock m).minutes + (k - m) := by
  induction k, hle using Nat.le_induction with
  | base => omega
  | succ k hle ih =>
    have hsame := h.date_eq hle (Nat.le_succ k) heq
    have hbound := minutes_le (clock k)
    rcases Nat.lt_or_ge (clock k).minutes 1439 with hlt | hge
    · have hnext := (h.within k hlt).2
      have hcount := ih (heq.trans hsame.symm)
      omega
    · exact absurd hsame (h.midnight k (by omega)).2.1

/-- The minute before one that is not midnight. -/
theorem before (h : Ticking clock) (hpos : (clock (m + 1)).minutes ≠ 0) :
    (clock m).date = (clock (m + 1)).date ∧ (clock (m + 1)).minutes = (clock m).minutes + 1 := by
  have hle := minutes_le (clock m)
  rcases Nat.lt_or_ge (clock m).minutes 1439 with hlt | hge
  · exact ⟨(h.within m hlt).1.symm, (h.within m hlt).2⟩
  · exact absurd (h.midnight m (by omega)).2.2 hpos

end Ticking

theorem runsOn_of_date_eq {now now' : Reading} (h : now.date = now'.date) :
    sched.runsOn now = sched.runsOn now' := by
  rw [Schedule.runsOn, Schedule.runsOn, currentDow, currentDow, h]

/-- A minute that shows the time is in its window. -/
theorem Shows.inWindow {now : Reading} {target : String} (h : Shows now target) :
    InWindow now target :=
  ⟨now.minutes, h, Or.inl rfl⟩

/-- An earlier poll of the date that finds the schedule open serves the date. -/
theorem Ticking.served (hclock : Ticking clock) (h : Watched shown x rs) {j : ℕ} {rj rk : Round}
    (hlt : j < k) (hj : rs[j]? = some rj) (hk : rs[k]? = some rk)
    (hopens : sched.Opens c (clock rj.minute))
    (hdate : (clock rj.minute).date = (clock rk.minute).date) :
    Served clock rs c sched (clock rk.minute).date k := by
  refine ⟨j, rj, hlt, hj, hopens, hdate, fun l rl hjl hlk hl ↦ ?_⟩
  have hsame := hclock.date_eq (h.minute_le hj hjl.le hl) (h.minute_le hl hlk.le hk) hdate
  rw [Schedule.Keeps, ← hsame]
  exact contains_fireKey c _ _

/-- The first poll of the minute that shows the time finds a date that has not been served. -/
theorem Ticking.not_served (hclock : Ticking clock) (hq : FirstOf rs w q)
    (hshows : Shows (clock w) (sched.target c)) : ¬ Served clock rs c sched (clock w).date q := by
  rintro ⟨j, rj, hj, hrj, ⟨-, t, ht, hin⟩, hdate, -⟩
  obtain rfl : t = (clock w).minutes := Option.some.inj (ht.symm.trans hshows)
  have hearlier := hq.first j rj hj hrj
  have hcount := hclock.minutes_of_date_eq hearlier.le hdate
  omega

/-- A stop that is in time is the next one in days. -/
theorem Ticking.nextStop (hclock : Ticking clock) (h : Watched shown x rs) (hi : rs[i]? = some r)
    (ho : FirstAfter clock sched.stopTime r.minute o) (hin : InTime clock rs sched i (o + n)) :
    NextStop clock rs sched i r.minute o n := by
  have hafter := ho.after
  have hskipped : ∀ w, o ≤ w → w < o + n → Polled rs w → Shows (clock w) sched.stopTime →
      ¬ sched.runsOn (clock w) = true := by
    intro w how hlt hpolled hshows hruns
    obtain ⟨q, hiq, hq⟩ := h.exists_firstOf_of_polled hi (hafter.trans_le how) hpolled
    obtain ⟨rq, hrq, rfl⟩ := hq.polled
    exact hclock.not_served (c := .stop) hq hshows
      (hin.quiet q rq hiq.le hrq hlt ⟨hruns, hshows.inWindow⟩)
  refine ⟨hin.quiet i r le_rfl hi (by omega), hskipped, fun hpolled ↦ ?_⟩
  obtain ⟨q, hiq, hq⟩ := h.exists_firstOf_of_polled hi (show r.minute < o + n by omega) hpolled
  obtain ⟨⟨hruns, t, ht, hwindow⟩, -⟩ := hin.opens q hq
  obtain rfl : t = (clock o).minutes := Option.some.inj (ht.symm.trans ho.shows)
  have hbound := minutes_le (clock o)
  have hcount := hclock.minutes_add o n
  rcases hwindow with hminutes | hminutes
  · exact ⟨by omega, hruns⟩
  · -- the minute before shows the time on the same day, so the stop is published there
    have hne : n ≠ 0 := by
      rintro rfl
      omega
    obtain ⟨p, rfl⟩ := Nat.exists_eq_add_one_of_ne_zero hne
    obtain ⟨hdate, hbefore⟩ := hclock.before (m := o + p) (by rw [Nat.add_assoc]; omega)
    rw [Nat.add_assoc] at hdate hbefore
    obtain ⟨rq, hrq, hminute⟩ := hq.polled
    have hpolled' : Polled rs (o + p) := h.polled_of_le hi (by omega) hrq (by omega)
    have hshows : Shows (clock (o + p)) sched.stopTime := ho.shows.trans (congrArg some (by omega))
    exact absurd ((runsOn_of_date_eq hdate).trans hruns)
      (hskipped (o + p) (by omega) (by omega) hpolled' hshows)

/-- Before the next stop in days, no poll finds the schedule open on a date that has not been
served: what is open is the minute of the start, or the one after. -/
theorem Ticking.quiet (hclock : Ticking clock) (h : Watched shown x rs) (hi : rs[i]? = some r)
    (ho : FirstAfter clock sched.stopTime r.minute o)
    (hnext : NextStop clock rs sched i r.minute o n) (hle : i ≤ k) (hk : rs[k]? = some r')
    (hlt : r'.minute < o + n) (hopen : sched.Opens .stop (clock r'.minute)) :
    Served clock rs .stop sched (clock r'.minute).date k := by
  obtain ⟨hruns, t, ht, hwindow⟩ := hopen
  obtain rfl : t = (clock o).minutes := Option.some.inj (ht.symm.trans ho.shows)
  have hmono := h.minute_le hi hle hk
  have hnone {w : ℕ} (hw : r.minute < w) (hwk : w ≤ r'.minute)
      (hshows : Shows (clock w) sched.stopTime) (hday : sched.runsOn (clock w) = true) : False := by
    have how : o ≤ w := not_lt.1 fun hwo ↦ ho.first w hw hwo hshows
    exact hnext.skipped w how (by omega) (h.polled_of_le hi hw hk hwk) hshows hday
  rcases hmono.eq_or_lt with heq | hlater
  · by_cases hik : i = k
    · subst hik
      obtain rfl := Option.some.inj (hi.symm.trans hk)
      exact hnext.start ⟨hruns, _, ht, hwindow⟩
    · have hstart : sched.Opens .stop (clock r.minute) := heq ▸ ⟨hruns, _, ht, hwindow⟩
      exact hclock.served h (by omega) hi hk hstart (by rw [heq])
  · rcases hwindow with hminutes | hminutes
    · exact (hnone hlater le_rfl (ht.trans (congrArg some hminutes.symm)) hruns).elim
    · obtain ⟨w, hw⟩ := Nat.exists_eq_add_one_of_ne_zero (Nat.ne_zero_of_lt hlater)
      obtain ⟨hdate, hbefore⟩ := hclock.before (m := w) (by rw [← hw]; omega)
      rw [← hw] at hdate hbefore
      have hshows : Shows (clock w) sched.stopTime := ht.trans (congrArg some (by omega))
      have hday : sched.runsOn (clock w) = true := (runsOn_of_date_eq hdate).trans hruns
      rcases (show r.minute ≤ w by omega).eq_or_lt with heq | hlt'
      · rw [← heq] at hdate hshows hday
        have hne : i ≠ k := by
          rintro rfl
          obtain rfl := Option.some.inj (hi.symm.trans hk)
          omega
        exact hclock.served h (by omega) hi hk ⟨hday, hshows.inWindow⟩ hdate
      · exact (hnone hlt' (by omega) hshows hday).elim

/-- **On a clock that ticks, being in time is a matter of weekdays.** -/
theorem Ticking.inTime_iff (hclock : Ticking clock) (h : Watched shown x rs) (hi : rs[i]? = some r)
    (ho : FirstAfter clock sched.stopTime r.minute o) :
    InTime clock rs sched i (o + n) ↔ NextStop clock rs sched i r.minute o n := by
  refine ⟨hclock.nextStop h hi ho,
    fun hnext ↦ ⟨fun k r' ↦ hclock.quiet h hi ho hnext, fun q hq ↦ ?_⟩⟩
  obtain ⟨rq, hrq, hminute⟩ := hq.polled
  obtain ⟨hdays, hruns⟩ := hnext.listed ⟨q, rq, hrq, hminute⟩
  have hbound := minutes_le (clock o)
  have hcount := hclock.minutes_add o n
  have hshows : Shows (clock (o + n)) sched.stopTime :=
    ho.shows.trans (congrArg some (by omega))
  exact ⟨⟨hruns, hshows.inWindow⟩, hclock.not_served (c := .stop) hq hshows⟩

/-! ### The promise is kept -/

/-- **A scheduled stop honours its policy exactly when** it is in time for every start, which the
clock and the polls decide; and on a clock that ticks, exactly when the minute that the policy says
is the first after the start to show `stop_time` on one of the schedule's days. -/
theorem honoured_iff (h : Watched shown x rs) :
    (Honoured clock rs x.sched ↔ OnTime clock rs x.sched) ∧
      (Ticking clock → (Honoured clock rs x.sched ↔ OnDays clock rs x.sched)) := by
  have hstart (i : ℕ) : PublishedAt clock rs .start x.sched.id i ↔
    Finding clock rs .start x.sched i :=
    h.publishedAt_iff h.succeeds.1
  refine ⟨?_, fun hclock ↦ ?_⟩
  · refine forall₄_congr fun i r o n ↦ forall_congr' fun hi ↦ imp_congr (hstart i) ?_
    exact forall₂_congr fun ho hpolicy ↦ h.timely_published_iff hpolicy hi ho
  · refine forall₄_congr fun i r o n ↦ forall_congr' fun hi ↦ imp_congr (hstart i) ?_
    exact forall₂_congr fun ho hpolicy ↦
      (h.timely_published_iff hpolicy hi ho).trans (hclock.inTime_iff h hi ho)

/-- **N is not waited for.** On a clock that ticks, a stop with a delay of less than a day is not in
time, once its minute is polled. -/
theorem grace_not_honoured (h : Watched shown x rs) (hclock : Ticking clock)
    (hpolicy : Delays x.sched.policy n) (hpos : 0 < n) (hday : n < 1440) (hi : rs[i]? = some r)
    (hstart : Finding clock rs .start x.sched i) (ho : FirstAfter clock x.sched.stopTime r.minute o)
    (hpolled : Polled rs (o + n)) : ¬ Honoured clock rs x.sched := by
  intro hhonoured
  have hnext := ((honoured_iff h).2 hclock).1 hhonoured i r o n hi hstart ho hpolicy
  obtain ⟨hdays, -⟩ := hnext.listed hpolled
  omega

end

/-! ### Two schedules -/

/-- The polls of the minutes `ms` fetch one schedule. -/
def alone (x : Fetched) (ms : List ℕ) : List Round :=
  ms.map fun m ↦ ⟨m, [x]⟩

/-- A run of polls with one schedule in the list. -/
theorem watched_alone {shown : String} {x : Fetched} {ms : List ℕ}
    (hms : ms.IsChain fun m m' ↦ m' = m ∨ m' = m + 1) (hx : Accepted shown x.sched)
    (hsucceeds : x.start.applied = true ∧ x.stop.applied = true) :
    Watched shown x (alone x ms) := by
  have hall : ∀ r ∈ alone x ms, r.schedules = [x] := by
    intro r hr
    obtain ⟨m, -, rfl⟩ := List.mem_map.1 hr
    rfl
  refine ⟨(List.isChain_map _).2 hms, fun r hr ↦ ?_, fun r hr ↦ ?_, fun r hr ↦ ?_, hsucceeds⟩
  · rw [hall r hr]
    exact List.mem_singleton_self _
  · rw [hall r hr]
    exact List.nodup_singleton _
  · rw [hall r hr]
    intro y hy
    rwa [List.mem_singleton.1 hy]

/-- A local clock that shows midnight of Sunday at minute 0, and the times of Monday from minute
1440 on. -/
def weekendClock (m : ℕ) : Reading :=
  if h : m < 1440 then ⟨sundayDate, m / 60, m % 60, by omega⟩
  else ⟨⟨2026, 3, 30, by decide⟩, m / 60 % 24, m % 60, by omega⟩

/-- A vigil on Sunday, which is stopped at midnight. -/
def vigil : Fetched where
  sched := listed "9d1e77c4"
    { dayOfWeek := [0], startTime := "23:59", stopTime := "00:00", stopPolicy := "hard" }

/-- A prayer on Sunday morning, of two minutes. -/
def prayer : Fetched where
  sched := listed "77ab03de"
    { dayOfWeek := [0], startTime := "09:00", stopTime := "09:02", stopPolicy := "hard" }

instance (s : State) (p : Poll) (c : Command) (id : String) : Decidable (Publishes s p c id) :=
  inferInstanceAs (Decidable (_ < _))

instance (now : Reading) (target : String) : Decidable (Shows now target) :=
  inferInstanceAs (Decidable (_ = _))

/-- The vigil starts at 23:59 and is not stopped at midnight: Monday is none of its days. -/
theorem vigil_not_stopped :
    Watched "\x7b'hard', 'soft'\x7d" vigil (alone vigil [1439, 1440]) ∧
      Delays vigil.sched.policy 0 ∧
        ¬ Honoured weekendClock (alone vigil [1439, 1440]) vigil.sched := by
  have hwatched : Watched "\x7b'hard', 'soft'\x7d" vigil (alone vigil [1439, 1440]) :=
    watched_alone (by simp) ⟨_, _, rfl, by decide +kernel⟩ (by decide)
  have hpolicy : Delays vigil.sched.policy 0 := Or.inl ⟨rfl, rfl⟩
  refine ⟨hwatched, hpolicy, fun hhonoured ↦ ?_⟩
  have hstart : PublishedAt weekendClock (alone vigil [1439, 1440]) .start vigil.sched.id 0 :=
    ⟨_, _, ⟨rfl, .nil⟩, by decide +kernel⟩
  have hmidnight : FirstAfter weekendClock vigil.sched.stopTime 1439 1440 :=
    ⟨by omega, by decide +kernel, fun k hk hk' ↦ by omega⟩
  have htimely := hhonoured 0 _ 1440 0 rfl hstart hmidnight hpolicy
  obtain ⟨q, r', -, -, hr', hminute, hstop⟩ := htimely.inMinute 1 _ (by omega) rfl (by decide)
  obtain ⟨r, hr, ⟨hruns, -⟩, -⟩ :=
    (hwatched.publishedAt_iff (hwatched.publishes hpolicy .stop)).1 hstop
  obtain rfl := Option.some.inj (hr'.symm.trans hr)
  rw [hminute] at hruns
  exact absurd hruns (by decide +kernel)

/-- The prayer starts at nine and is stopped two minutes later. -/
theorem honoured_iff_prayer :
    ∃ rs t, rs = alone prayer [540, 540, 541, 541, 542, 542] ∧
      system.Run always {} (rs.map (Round.poll weekendClock)) t ∧
      t.publications.map Prod.fst = [.start, .stop] ∧
      (Honoured weekendClock rs prayer.sched ↔ OnTime weekendClock rs prayer.sched) := by
  obtain ⟨t, hrun, htest⟩ : ∃ t, system.Run always {}
      ((alone prayer [540, 540, 541, 541, 542, 542]).map (Round.poll weekendClock)) t ∧
      decide (t.publications.map Prod.fst = [.start, .stop]) = true :=
    Run.exists_of_exec (by decide +kernel)
  have hwatched : Watched "\x7b'hard', 'soft'\x7d" prayer
      (alone prayer [540, 540, 541, 541, 542, 542]) :=
    watched_alone (by simp) ⟨_, _, rfl, by decide +kernel⟩ (by decide)
  exact ⟨_, t, rfl, hrun, of_decide_eq_true htest, (honoured_iff hwatched).1⟩

end LiveSTT.SystemManager
