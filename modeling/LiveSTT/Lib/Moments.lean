import LiveSTT.Lib.Calendar
import LiveSTT.Lib.FixedWidth

/-!
# Moments in UTC and `isoformat`

A moment is a date of the years 1 to 9999 and a time of the day to the microsecond, as an aware
`datetime` in UTC has them. In time, moments are ordered by the microseconds since the beginning of
year 1, and that is the order of their fields (`instant_lt_iff`): the ordinals of dates grow with
the date (`Date.toOrdinal_lt_iff`).

`isoformat` prints every field with leading zeros and leaves the fraction out when it is zero. Where
one text has the fraction and the other does not, the sign of the offset stands against the decimal
point, and `'+'` is the smaller character. So the texts are ordered as the moments are
(`isoformat_lt_iff`).

The calendar is the proleptic Gregorian one, with `toOrdinal` counting days from 1 January of year
1. Nothing is said of other offsets than that of UTC: two texts with different offsets are not
ordered as their moments are, and no code here compares such.
-/

namespace Calendar

/-! ### The order of the ordinals -/

namespace Date

/-- The days of a year before its month `m + 1`. -/
def daysBeforeMonth (year m : ℕ) : ℕ :=
  ((List.range m).map fun m ↦ daysInMonth year (m + 1)).foldl (· + ·) 0

theorem toOrdinal_eq (d : Date) :
    d.toOrdinal = daysBeforeYear d.year + daysBeforeMonth d.year (d.month - 1) + d.day :=
  rfl

theorem daysBeforeMonth_succ (year m : ℕ) :
    daysBeforeMonth year (m + 1) = daysBeforeMonth year m + daysInMonth year (m + 1) := by
  simp [daysBeforeMonth, List.range_succ]

/-- The days of a month come before the later months. -/
theorem daysBeforeMonth_le (year : ℕ) {m n : ℕ} (h : m < n) :
    daysBeforeMonth year m + daysInMonth year (m + 1) ≤ daysBeforeMonth year n := by
  induction n with
  | zero => omega
  | succ n ih =>
    rw [daysBeforeMonth_succ]
    rcases Nat.lt_or_ge m n with hlt | hge
    · have hle := ih hlt
      omega
    · obtain rfl : m = n := by omega
      exact Nat.le_refl _

theorem isLeap_iff (year : ℕ) :
    isLeap year = true ↔ year % 4 = 0 ∧ (year % 100 ≠ 0 ∨ year % 400 = 0) := by
  simp [isLeap]

/-- The days of a year, by months. -/
theorem daysBeforeMonth_twelve (year : ℕ) :
    daysBeforeMonth year 12 = 365 + if isLeap year = true then 1 else 0 := by
  have hall : ∀ leap : Bool, ((List.range 12).map fun m ↦
      if m + 1 = 2 then if leap = true then 29 else 28
      else if m + 1 ∈ [4, 6, 9, 11] then 30 else 31).foldl (· + ·) 0 =
        365 + if leap = true then 1 else 0 := by
    decide
  exact hall (isLeap year)

/-- The twelve months make up the year. -/
theorem daysBeforeYear_succ {year : ℕ} (h : 1 ≤ year) :
    daysBeforeYear (year + 1) = daysBeforeYear year + daysBeforeMonth year 12 := by
  have hdiv : ∀ k, 0 < k → year / k = (year - 1) / k + if year % k = 0 then 1 else 0 := by
    intro k hk
    have hsucc := Nat.succ_div (a := year - 1) (b := k)
    rw [Nat.sub_add_cancel h] at hsucc
    simpa only [Nat.dvd_iff_mod_eq_zero] using hsucc
  have hleap := isLeap_iff year
  have hfour := hdiv 4 (by decide)
  have hhundred := hdiv 100 (by decide)
  have hfourHundred := hdiv 400 (by decide)
  have hle : (year - 1) / 100 ≤ (year - 1) / 4 := Nat.div_le_div_left (by decide) (by decide)
  rw [daysBeforeMonth_twelve, daysBeforeYear, daysBeforeYear, Nat.add_sub_cancel, hfour, hhundred,
    hfourHundred]
  -- by the first of the three rules of the calendar that does not apply
  by_cases h4 : year % 4 = 0
  · by_cases h100 : year % 100 = 0
    · by_cases h400 : year % 400 = 0
      · rw [if_pos h4, if_pos h100, if_pos h400, if_pos (hleap.2 ⟨h4, Or.inr h400⟩)]
        omega
      · rw [if_pos h4, if_pos h100, if_neg h400, if_neg (fun h ↦ by have := hleap.1 h; omega)]
        omega
    · rw [if_pos h4, if_neg h100, if_neg (by omega), if_pos (hleap.2 ⟨h4, Or.inl h100⟩)]
      omega
  · rw [if_neg h4, if_neg (by omega), if_neg (by omega),
      if_neg (fun h ↦ h4 (hleap.1 h).1)]
    omega

/-- The days of a year come before the later years. -/
theorem daysBeforeYear_le {year year' : ℕ} (h : 1 ≤ year) (hlt : year < year') :
    daysBeforeYear year + daysBeforeMonth year 12 ≤ daysBeforeYear year' := by
  induction year' with
  | zero => omega
  | succ year' ih =>
    rcases Nat.lt_or_ge year year' with hlt' | hge
    · have hle := ih hlt'
      rw [daysBeforeYear_succ (by omega)]
      omega
    · obtain rfl : year = year' := by omega
      rw [daysBeforeYear_succ h]

/-- A date lies in its month. -/
theorem toOrdinal_bounds (d : Date) :
    daysBeforeYear d.year + daysBeforeMonth d.year (d.month - 1) < d.toOrdinal ∧
      d.toOrdinal ≤
        daysBeforeYear d.year + daysBeforeMonth d.year (d.month - 1)
          + daysInMonth d.year d.month := by
  have hvalid := d.valid
  rw [toOrdinal_eq]
  omega

/-- And in its year. -/
theorem toOrdinal_le (d : Date) :
    d.toOrdinal ≤ daysBeforeYear d.year + daysBeforeMonth d.year 12 := by
  have hvalid := d.valid
  have hbounds := d.toOrdinal_bounds
  have hmonth := daysBeforeMonth_le d.year (show d.month - 1 < 12 by omega)
  rw [Nat.sub_add_cancel hvalid.2.1] at hmonth
  omega

/-- The later date has the larger ordinal. -/
theorem toOrdinal_lt_of_lt {d e : Date} (h : d.year < e.year ∨
    d.year = e.year ∧ (d.month < e.month ∨ d.month = e.month ∧ d.day < e.day)) :
    d.toOrdinal < e.toOrdinal := by
  have hd := d.valid
  have he := e.toOrdinal_bounds
  rcases h with hyear | ⟨hyear, hmonth | ⟨hmonth, hday⟩⟩
  · have hle := d.toOrdinal_le
    have hyears := daysBeforeYear_le hd.1 hyear
    omega
  · have hle := d.toOrdinal_bounds.2
    have hmonths := daysBeforeMonth_le d.year (show d.month - 1 < e.month - 1 by omega)
    rw [Nat.sub_add_cancel hd.2.1] at hmonths
    rw [hyear] at hle hmonths
    omega
  · rw [toOrdinal_eq, toOrdinal_eq, hyear, hmonth]
    omega

/-- The order of the ordinals is that of the dates. -/
theorem toOrdinal_lt_iff {d e : Date} : d.toOrdinal < e.toOrdinal ↔ d.year < e.year ∨
    d.year = e.year ∧ (d.month < e.month ∨ d.month = e.month ∧ d.day < e.day) := by
  refine ⟨fun h ↦ ?_, toOrdinal_lt_of_lt⟩
  by_contra hnot
  by_cases heq : d = e
  · rw [heq] at h
    omega
  · have hne : ¬ (d.year = e.year ∧ d.month = e.month ∧ d.day = e.day) := fun hfields ↦
      heq (ext hfields.1 hfields.2.1 hfields.2.2)
    have hgt := toOrdinal_lt_of_lt (d := e) (e := d) (by omega)
    omega

end Date

/-! ### Moments -/

/-- An aware `datetime` in UTC. -/
structure DateTime where
  date : Date
  hour : ℕ
  minute : ℕ
  second : ℕ
  microsecond : ℕ
  valid : date.year ≤ 9999 ∧ hour < 24 ∧ minute < 60 ∧ second < 60 ∧ microsecond < 1000000

namespace DateTime

/-- The microseconds since the beginning of year 1. -/
def instant (t : DateTime) : ℕ :=
  (((((t.date.toOrdinal - 1) * 24 + t.hour) * 60 + t.minute) * 60 + t.second) * 1000000) +
    t.microsecond

/-- The offset of UTC. -/
def offset : List Char :=
  "+00:00".toList

/-- The fraction, if there is one. -/
def fraction (microsecond : ℕ) : List Char :=
  if microsecond = 0 then [] else '.' :: FixedWidth.zeroPadded 6 microsecond

/-- `datetime.isoformat`. -/
def isoformat (t : DateTime) : String :=
  String.ofList (FixedWidth.zeroPadded 4 t.date.year ++ '-' ::
    (FixedWidth.zeroPadded 2 t.date.month ++ '-' ::
    (FixedWidth.zeroPadded 2 t.date.day ++ 'T' ::
    (FixedWidth.zeroPadded 2 t.hour ++ ':' ::
    (FixedWidth.zeroPadded 2 t.minute ++ ':' ::
    (FixedWidth.zeroPadded 2 t.second ++
    (fraction t.microsecond ++ offset)))))))

example : isoformat ⟨⟨2026, 3, 9, by decide⟩, 7, 5, 0, 0, by decide⟩ = "2026-03-09T07:05:00+00:00" ∧
    isoformat ⟨⟨987, 12, 31, by decide⟩, 23, 59, 58, 450, by decide⟩ =
      "0987-12-31T23:59:58.000450+00:00" := by
  decide +kernel

/-! ### Their order -/

/-- The earlier field decides. -/
theorem instant_lt_iff {a b : DateTime} : a.instant < b.instant ↔
    a.date.year < b.date.year ∨ a.date.year = b.date.year ∧
    (a.date.month < b.date.month ∨ a.date.month = b.date.month ∧
    (a.date.day < b.date.day ∨ a.date.day = b.date.day ∧
    (a.hour < b.hour ∨ a.hour = b.hour ∧
    (a.minute < b.minute ∨ a.minute = b.minute ∧
    (a.second < b.second ∨ a.second = b.second ∧ a.microsecond < b.microsecond))))) := by
  have ha := a.valid
  have hb := b.valid
  have hpos (d : Date) : 1 ≤ d.toOrdinal := Nat.one_le_of_lt d.toOrdinal_bounds.1
  have hposa := hpos a.date
  have hposb := hpos b.date
  have hlt := Date.toOrdinal_lt_iff (d := a.date) (e := b.date)
  have hgt := Date.toOrdinal_lt_iff (d := b.date) (e := a.date)
  -- the fields of the clock are bounded, so they decide where the dates are the same
  have hclock : a.instant < b.instant ↔ a.date.toOrdinal < b.date.toOrdinal ∨
      a.date.toOrdinal = b.date.toOrdinal ∧
      (a.hour < b.hour ∨ a.hour = b.hour ∧
      (a.minute < b.minute ∨ a.minute = b.minute ∧
      (a.second < b.second ∨ a.second = b.second ∧ a.microsecond < b.microsecond))) := by
    simp only [instant]
    omega
  rw [hclock]
  omega

theorem ext {a b : DateTime} (hdate : a.date = b.date) (hhour : a.hour = b.hour)
    (hminute : a.minute = b.minute) (hsecond : a.second = b.second)
    (hmicrosecond : a.microsecond = b.microsecond) : a = b := by
  cases a
  cases b
  simp_all

/-- The fraction is left out at the smallest value, and the sign is smaller than the point. -/
theorem fraction_lt_iff {m n : ℕ} (hm : m < 1000000) (hn : n < 1000000) :
    fraction m ++ offset < fraction n ++ offset ↔ m < n := by
  have hsign : offset = '+' :: "00:00".toList := rfl
  have hpoint : '+' < '.' := by decide
  unfold fraction
  split
  · split
    · simp [*]
    · rw [hsign, List.nil_append, List.cons_append, List.cons_lt_cons_iff]
      simp only [hpoint, true_or, true_iff]
      omega
  · split
    · rw [hsign, List.nil_append, List.cons_append, List.cons_lt_cons_iff]
      simp only [show ¬ '.' < '+' by decide, show '.' ≠ '+' by decide, false_and, or_false,
        false_iff]
      omega
    · have hself : ¬ offset < offset := List.lt_irrefl offset
      rw [List.cons_append, List.cons_append, List.cons_lt_cons_self,
        FixedWidth.field_lt_iff (by decide) hm hn]
      simp only [hself, and_false, or_false]

/-- The texts are ordered as the moments. -/
theorem isoformat_lt_iff {a b : DateTime} : a.isoformat < b.isoformat ↔ a.instant < b.instant := by
  have ha := a.valid
  have hb := b.valid
  have hmonth (t : DateTime) : t.date.month < 10 ^ 2 := t.date.month_lt
  have hday (t : DateTime) : t.date.day < 10 ^ 2 := t.date.day_lt
  rw [instant_lt_iff, String.lt_iff, isoformat, isoformat, String.toList_ofList,
    String.toList_ofList]
  rw [FixedWidth.field_lt_iff (by decide) (by omega) (by omega), List.cons_lt_cons_self,
    FixedWidth.field_lt_iff (by decide) (hmonth a) (hmonth b), List.cons_lt_cons_self,
    FixedWidth.field_lt_iff (by decide) (hday a) (hday b), List.cons_lt_cons_self,
    FixedWidth.field_lt_iff (by decide) (by omega) (by omega), List.cons_lt_cons_self,
    FixedWidth.field_lt_iff (by decide) (by omega) (by omega), List.cons_lt_cons_self,
    FixedWidth.field_lt_iff (by decide) (by omega) (by omega),
    fraction_lt_iff ha.2.2.2.2 hb.2.2.2.2]

/-- Different moments are different instants. -/
theorem instant_inj {a b : DateTime} : a.instant = b.instant ↔ a = b := by
  refine ⟨fun h ↦ ?_, fun h ↦ by rw [h]⟩
  have hlt := instant_lt_iff (a := a) (b := b)
  have hgt := instant_lt_iff (a := b) (b := a)
  exact ext (Date.ext (by omega) (by omega) (by omega)) (by omega) (by omega) (by omega) (by omega)

/-- And they are printed differently. -/
theorem isoformat_inj {a b : DateTime} : a.isoformat = b.isoformat ↔ a = b := by
  refine ⟨fun h ↦ ?_, fun h ↦ by rw [h]⟩
  have hlt := isoformat_lt_iff (a := a) (b := b)
  have hgt := isoformat_lt_iff (a := b) (b := a)
  rw [h] at hlt hgt
  simp only [String.lt_iff, List.lt_irrefl, false_iff] at hlt hgt
  exact instant_inj.1 (by omega)

end DateTime

end Calendar
