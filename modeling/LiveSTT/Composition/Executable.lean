import LiveSTT.Composition.StopPolicy

/-!
# Which accepted schedules can fire

The gateway accepts a time by its form, `\d{2}:\d{2}`. The schedule checker reads it as hours and
minutes, and compares the minute of the day they make with the minute of the clock. It reads every
time that is accepted, whatever its digits, so no accepted schedule ends the process. But nothing
checks that the time is one of the day: the clock never comes to "24:75", and a schedule with it is
stored, listed and evaluated, and does not fire.

So an accepted schedule can be executed exactly if neither of its times is past the last minute of
the day (`executable_iff`). A minute from 60 on does no harm below that: "22:75" fires at a quarter
past eleven.
-/

namespace LiveSTT.SystemManager

open Calendar

/-- The weekday of the date is one of the schedule's days. -/
def Schedule.listsDay (sched : Schedule) (date : Date) : Prop :=
  (((date.weekday + 1) % 7 : ℕ) : ℤ) ∈ sched.dayOfWeek.getD []

/-- Evaluating the schedule never raises, whatever the state, the reading of the clock and the
answers to its publishes; and on each of its days there is a minute in which its start is in the
window, and one in which its stop is. -/
structure Executable (sched : Schedule) : Prop where
  total : ∀ s x now, x.sched = sched → s.failed = false → (evalSchedule s x now).failed = false
  inWindow : ∀ date, sched.listsDay date → ∀ c, ∃ now : Reading, now.date = date ∧
    withinWindow windowMinutes now.hhmm (sched.target c) = some true

section

variable {shown : String} {sched : Schedule} {target : String}

/-- The reading of a minute of the day. -/
def readingAt (date : Date) (t : ℕ) (h : t ≤ 1439) : Reading :=
  ⟨date, t / 60, t % 60, by omega, by omega⟩

@[simp] theorem minutes_readingAt (date : Date) {t : ℕ} (h : t ≤ 1439) :
    (readingAt date t h).minutes = t := by
  show t / 60 * 60 + t % 60 = t
  omega

/-- The clock comes into the window of a time exactly if the time is one of the day. -/
theorem exists_withinWindow_iff (h : Gateway.isHhmm target = true) (date : Date) :
    (∃ now : Reading, now.date = date ∧
      withinWindow windowMinutes now.hhmm target = some true) ↔
    ∃ t ≤ 1439, minuteOfDay target = some t := by
  obtain ⟨t, ht⟩ := minuteOfDay_of_isHhmm h
  constructor
  · rintro ⟨now, -, hwithin⟩
    rw [withinWindow_of_minuteOfDay ht, Option.some.injEq, decide_eq_true_eq] at hwithin
    have hle := minutes_le now
    exact ⟨t, by omega, ht⟩
  · rintro ⟨t', hle, ht'⟩
    obtain rfl : (t : ℤ) = t' := Option.some.inj (ht.symm.trans ht')
    have hle : t ≤ 1439 := by omega
    refine ⟨readingAt date t hle, rfl, ?_⟩
    rw [withinWindow_of_minuteOfDay ht, Option.some.injEq, decide_eq_true_eq, minutes_readingAt]
    exact ⟨by omega, by simp [windowMinutes]⟩

/-- Every day of the week has a date. -/
theorem exists_date {d : ℤ} (h : 0 ≤ d ∧ d ≤ 6) :
    ∃ date : Date, (((date.weekday + 1) % 7 : ℕ) : ℤ) = d := by
  obtain ⟨n, rfl⟩ := Int.eq_ofNat_of_zero_le h.1
  -- in the first week of year 1, which begins on a Monday
  have hday : (n + 6) % 7 + 1 ≤ daysInMonth 1 1 := by
    show (n + 6) % 7 + 1 ≤ 31
    omega
  refine ⟨⟨1, 1, (n + 6) % 7 + 1, by omega, by omega, by omega, by omega, hday⟩, ?_⟩
  have hordinal (hvalid) : (Date.mk 1 1 ((n + 6) % 7 + 1) hvalid).toOrdinal = (n + 6) % 7 + 1 := by
    simp [Date.toOrdinal, Date.daysBeforeYear]
  rw [Date.weekday, hordinal]
  omega

/-- An accepted schedule has a day. -/
theorem Accepted.exists_listsDay (h : Accepted shown sched) : ∃ date, sched.listsDay date := by
  obtain ⟨id, body, rfl, hvalid⟩ := h
  obtain ⟨⟨hne, hdays⟩, -⟩ := Gateway.validateSchedule_eq_none.1 hvalid
  obtain ⟨d, hd⟩ := List.exists_mem_of_ne_nil _ hne
  obtain ⟨date, hdate⟩ := exists_date (hdays d hd)
  refine ⟨date, ?_⟩
  rw [Schedule.listsDay, hdate]
  exact hd

/-- On its days, an enabled schedule that can be executed comes due, start and stop, if the key is
not recorded; and what is due is fired (`evalHalf_cases`). -/
theorem Executable.due (h : Executable sched) (henabled : sched.enabled = some true) {date : Date}
    (hday : sched.listsDay date) (c : Command) : ∃ now : Reading, now.date = date ∧
      ∀ s : State, fireKey c sched.id date ∉ s.keys → Due s c sched now := by
  obtain ⟨now, rfl, hwithin⟩ := h.inWindow date hday c
  refine ⟨now, rfl, fun s hkey ↦ ⟨?_, hwithin, hkey⟩⟩
  rw [Schedule.runsOn, henabled, Option.getD_some, Bool.true_and, List.contains_iff_mem]
  exact hday

end

/-- An accepted schedule can be executed if and only if both its times are read as minutes of the
day. -/
theorem executable_iff {shown : String} {sched : Schedule} (h : Accepted shown sched) :
    Executable sched ↔ ∀ c, ∃ t ≤ 1439, minuteOfDay (sched.target c) = some t := by
  have htime (c : Command) : Gateway.isHhmm (sched.target c) = true :=
    Accepted.isHhmm (x := ⟨sched, .ok, .ok⟩) h c
  constructor
  · intro hexecutable c
    obtain ⟨date, hday⟩ := h.exists_listsDay
    exact (exists_withinWindow_iff (htime c) date).1 (hexecutable.inWindow date hday c)
  · intro hminutes
    refine ⟨fun s x now hx hfailed ↦ ?_, fun date _ c ↦ ?_⟩
    · subst hx
      exact (failed_evalSchedule h).trans hfailed
    · exact (exists_withinWindow_iff (htime c) date).2 (hminutes c)

/-- The gateway's schedule for Sundays at the two times. -/
def sundays (start stop : String) : Gateway.ScheduleBody where
  dayOfWeek := [0]
  startTime := start
  stopTime := stop

/-- A schedule from nine to "22:75" can be executed: it is accepted, and the second time is a
quarter past eleven. -/
theorem executable_iff_quarterPast : ∃ sched,
    sched = listed "1" (sundays "09:00" "22:75") ∧ Executable sched := by
  have hvalid : Gateway.validateSchedule "\x7b'hard', 'soft'\x7d" (sundays "09:00" "22:75") =
      none := by
    decide +kernel
  refine ⟨_, rfl, (executable_iff ⟨"1", _, rfl, hvalid⟩).2 fun c ↦ ?_⟩
  cases c with
  | start => exact ⟨540, by omega, by decide +kernel⟩
  | stop => exact ⟨1395, by omega, by decide +kernel⟩

/-- A schedule from "24:75" is accepted, and its start is in the window at no minute of any day. -/
theorem not_executable : ∃ sched, Accepted "\x7b'hard', 'soft'\x7d" sched ∧
    sched = listed "1" (sundays "24:75" "09:00") ∧ ¬ Executable sched := by
  have hvalid : Gateway.validateSchedule "\x7b'hard', 'soft'\x7d" (sundays "24:75" "09:00") =
      none := by
    decide +kernel
  have haccepted : Accepted "\x7b'hard', 'soft'\x7d" (listed "1" (sundays "24:75" "09:00")) :=
    ⟨"1", _, rfl, hvalid⟩
  refine ⟨_, haccepted, rfl, fun hexecutable ↦ ?_⟩
  obtain ⟨date, hday⟩ := haccepted.exists_listsDay
  have htime : Gateway.isHhmm "24:75" = true := by decide +kernel
  obtain ⟨t, hle, ht⟩ :=
    (exists_withinWindow_iff htime date).1 (hexecutable.inWindow date hday .start)
  have hread : minuteOfDay "24:75" = some 1515 := by decide +kernel
  obtain rfl := Option.some.inj (hread.symm.trans ht)
  omega

end LiveSTT.SystemManager
