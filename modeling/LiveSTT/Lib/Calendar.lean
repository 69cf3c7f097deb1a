import LiveSTT.Lib.Text

/-!
# Dates and clock readings

The dates of the proleptic Gregorian calendar and the readings of a local clock, as `datetime` has
them: their order, the weekday through the ordinal of a date, and the formats `%Y%m%d` and `%H:%M`.
A date and a reading carry their validity, so each is printed to one text and read back from it.
-/

namespace Calendar

/-- `calendar.isleap`. -/
def isLeap (year : ℕ) : Bool :=
  year % 4 = 0 ∧ (year % 100 ≠ 0 ∨ year % 400 = 0)

def daysInMonth (year month : ℕ) : ℕ :=
  if month = 2 then if isLeap year then 29 else 28
  else if month ∈ [4, 6, 9, 11] then 30 else 31

/-- A date. -/
structure Date where
  year : ℕ
  month : ℕ
  day : ℕ
  valid : 1 ≤ year ∧ 1 ≤ month ∧ month ≤ 12 ∧ 1 ≤ day ∧ day ≤ daysInMonth year month

namespace Date

theorem ext {d e : Date} (hyear : d.year = e.year) (hmonth : d.month = e.month)
    (hday : d.day = e.day) : d = e := by
  cases d
  cases e
  simp_all

instance : DecidableEq Date := fun d e ↦
  decidable_of_iff (d.year = e.year ∧ d.month = e.month ∧ d.day = e.day)
    ⟨fun h ↦ ext h.1 h.2.1 h.2.2, fun h ↦ by simp [h]⟩

theorem day_lt (d : Date) : d.day < 100 := by
  have hle : daysInMonth d.year d.month ≤ 31 := by
    unfold daysInMonth
    split
    · split <;> omega
    · split <;> omega
  have hvalid := d.valid
  omega

theorem month_lt (d : Date) : d.month < 100 := by
  have hvalid := d.valid
  omega

/-! ### The order -/

/-- Dates are compared by year, month and day. -/
instance : LE Date :=
  ⟨fun d e ↦ d.year < e.year ∨
    d.year = e.year ∧ (d.month < e.month ∨ d.month = e.month ∧ d.day ≤ e.day)⟩

theorem le_def {d e : Date} : d ≤ e ↔ d.year < e.year ∨
    d.year = e.year ∧ (d.month < e.month ∨ d.month = e.month ∧ d.day ≤ e.day) :=
  Iff.rfl

instance (d e : Date) : Decidable (d ≤ e) :=
  decidable_of_iff _ le_def.symm

theorem le_refl (d : Date) : d ≤ d := by
  rw [le_def]
  omega

theorem le_trans {d e f : Date} (hde : d ≤ e) (hef : e ≤ f) : d ≤ f := by
  rw [le_def] at *
  omega

theorem le_antisymm {d e : Date} (hde : d ≤ e) (hed : e ≤ d) : d = e := by
  rw [le_def] at *
  exact ext (by omega) (by omega) (by omega)

/-! ### The weekday -/

/-- The days before a year. -/
def daysBeforeYear (year : ℕ) : ℕ :=
  (year - 1) * 365 + (year - 1) / 4 - (year - 1) / 100 + (year - 1) / 400

/-- `date.toordinal`: January 1 of year 1 is day 1. -/
def toOrdinal (d : Date) : ℕ :=
  daysBeforeYear d.year + ((List.range (d.month - 1)).map fun m ↦ daysInMonth d.year (m + 1)).foldl
    (· + ·) 0 + d.day

/-- `date.weekday`: Monday is 0. -/
def weekday (d : Date) : ℕ :=
  (d.toOrdinal + 6) % 7

/-! ### The format -/

/-- `strftime("%Y%m%d")`. -/
def compact (d : Date) : String :=
  toString d.year ++ Text.padded d.month ++ Text.padded d.day

/-- Different dates are printed differently. -/
theorem compact_injective {d e : Date} (h : d.compact.toList = e.compact.toList) : d = e := by
  simp only [compact, String.toList_append] at h
  have hlength (d : Date) : (Text.padded d.day).toList.length = 2 ∧
      (Text.padded d.month).toList.length = 2 :=
    ⟨Text.length_padded d.day_lt, Text.length_padded d.month_lt⟩
  obtain ⟨hrest, hday⟩ := List.append_inj' h ((hlength d).1.trans (hlength e).1.symm)
  obtain ⟨hyear, hmonth⟩ := List.append_inj' hrest ((hlength d).2.trans (hlength e).2.symm)
  exact ext (Text.toString_injective hyear) (Text.padded_injective d.month_lt e.month_lt hmonth)
    (Text.padded_injective d.day_lt e.day_lt hday)

/-- The format has digits only. -/
theorem isDigit_of_mem_compact {d : Date} {c : Char} (h : c ∈ d.compact.toList) :
    c.isDigit = true := by
  simp only [compact, String.toList_append, List.mem_append] at h
  rcases h with (h | h) | h
  · exact Text.isDigit_of_mem_toString h
  · exact Text.isDigit_of_mem_padded h
  · exact Text.isDigit_of_mem_padded h

/-- The name of a month, `%B`. -/
def monthName (d : Date) : String :=
  ["January", "February", "March", "April", "May", "June", "July", "August", "September",
    "October", "November", "December"].getD (d.month - 1) ""

end Date

/-! ### Clock readings -/

/-- A reading of a local clock, to the minute. -/
structure Reading where
  date : Date
  hour : ℕ
  minute : ℕ
  valid : hour < 24 ∧ minute < 60

namespace Reading

/-- The minute of the day. -/
def minutes (t : Reading) : ℕ :=
  t.hour * 60 + t.minute

/-- `strftime("%H:%M")`. -/
def hhmm (t : Reading) : String :=
  Text.padded t.hour ++ ":" ++ Text.padded t.minute

/-- The hour is read back from the format. -/
theorem int_hour (t : Reading) : Text.int (t.hhmm.toList.take 2) = some (t.hour : ℤ) := by
  have hhour : t.hour < 100 := by
    have hvalid := t.valid
    omega
  rw [hhmm, String.toList_append, String.toList_append, List.append_assoc,
    List.take_append_of_le_length (Text.length_padded hhour).ge,
    List.take_of_length_le (Text.length_padded hhour).le, Text.int_padded hhour]

/-- So is the minute. -/
theorem int_minute (t : Reading) : Text.int (t.hhmm.toList.drop 3) = some (t.minute : ℤ) := by
  have hvalid := t.valid
  have hhour : t.hour < 100 := by omega
  have hminute : t.minute < 100 := by omega
  have hthree : (Text.padded t.hour ++ ":").toList.length = 3 := by
    rw [String.toList_append, List.length_append, Text.length_padded hhour]
    rfl
  rw [hhmm, String.toList_append, ← hthree, List.drop_left, Text.int_padded hminute]

end Reading

/-- Sunday, March 29, 2026. -/
example : (Date.mk 2026 3 29 (by decide)).weekday = 6 := by decide +kernel

end Calendar
