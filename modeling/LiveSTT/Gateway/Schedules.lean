import LiveSTT.Lib.Text

/-!
# The schedules an administrator may enter

`_validate_schedule`, which `POST` and `PUT` on `/admin/schedules` call before they store a body. Of
the texts for a time it requires the form alone: "24:75" passes, and so does a line feed at the end.
What it accepts is always read as a number of hours and one of minutes (`isSome_int_of_isHhmm`).
-/

namespace LiveSTT.Gateway

/-- `ScheduleBody`. -/
structure ScheduleBody where
  dayOfWeek : List ℤ
  startTime : String
  stopTime : String
  labelTemplate : String := ""
  stopPolicy : String := "soft"
  enabled : Bool := true

/-- `re.match(r"^\d{2}:\d{2}$", s)`; `$` matches before a line feed at the end, too. -/
def isHhmm (s : String) : Bool :=
  match s.toList with
  | [a, b, ':', c, d] => [a, b, c, d].all fun x ↦ (Text.decimal x).isSome
  | [a, b, ':', c, d, '\n'] => [a, b, c, d].all fun x ↦ (Text.decimal x).isSome
  | _ => false

/-- `_validate_schedule`. The text of `valid_policies` has its elements in any order, so it is a
parameter. -/
def validateSchedule (shown : String) (body : ScheduleBody) : Option String :=
  if body.dayOfWeek = [] ∨ ¬ body.dayOfWeek.all (fun d ↦ 0 ≤ d ∧ d ≤ 6) = true then
    some "day_of_week must contain values 0-6"
  else if ¬ isHhmm body.startTime = true then some "start_time must be HH:MM"
  else if ¬ isHhmm body.stopTime = true then some "stop_time must be HH:MM"
  else if body.stopPolicy ∉ ["hard", "soft"] ∧
      ¬ "grace_".toList.isPrefixOf body.stopPolicy.toList = true then
    some ("stop_policy must be one of " ++ shown ++ " or grace_N")
  else none

section

variable {shown : String} {body : ScheduleBody}

/-- What is accepted. -/
theorem validateSchedule_eq_none : validateSchedule shown body = none ↔
    (body.dayOfWeek ≠ [] ∧ ∀ d ∈ body.dayOfWeek, 0 ≤ d ∧ d ≤ 6) ∧
      isHhmm body.startTime = true ∧ isHhmm body.stopTime = true ∧
      (body.stopPolicy ∈ ["hard", "soft"] ∨ "grace_".toList <+: body.stopPolicy.toList) := by
  have hdays : (body.dayOfWeek.all fun d ↦ 0 ≤ d ∧ d ≤ 6) = true ↔
      ∀ d ∈ body.dayOfWeek, 0 ≤ d ∧ d ≤ 6 := by
    simp
  rw [← hdays, ← List.isPrefixOf_iff_prefix, validateSchedule]
  split
  · rename_i h
    refine iff_of_false (by simp) fun hall ↦ ?_
    exact h.elim hall.1.1 fun hnot ↦ hnot hall.1.2
  · rename_i hday
    rw [not_or, not_not] at hday
    split
    · rename_i h
      exact iff_of_false (by simp) fun hall ↦ h hall.2.1
    · rename_i hstart
      split
      · rename_i h
        exact iff_of_false (by simp) fun hall ↦ h hall.2.2.1
      · rename_i hstop
        split
        · rename_i h
          exact iff_of_false (by simp) fun hall ↦ hall.2.2.2.elim h.1 h.2
        · rename_i hpolicy
          refine iff_of_true rfl ⟨hday, not_not.1 hstart, not_not.1 hstop, ?_⟩
          by_contra hnone
          exact hpolicy (not_or.1 hnone)

/-- An accepted time is read as two numbers, which are not negative. -/
theorem int_of_isHhmm {s : String} (h : isHhmm s = true) : ∃ hour minute : ℕ,
    Text.int (s.toList.take 2) = some (hour : ℤ) ∧
      Text.int (s.toList.drop 3) = some (minute : ℤ) := by
  have hdigits {a b c d : Char} (hall : ([a, b, c, d].all fun x ↦ (Text.decimal x).isSome) = true) :
      (∃ x y, Text.decimal a = some x ∧ Text.decimal b = some y) ∧
        ∃ x y, Text.decimal c = some x ∧ Text.decimal d = some y := by
    obtain ⟨ha, hb, hc, hd⟩ : (Text.decimal a).isSome = true ∧ (Text.decimal b).isSome = true ∧
        (Text.decimal c).isSome = true ∧ (Text.decimal d).isSome = true := by
      simpa using hall
    obtain ⟨x, hx⟩ := Option.isSome_iff_exists.1 ha
    obtain ⟨y, hy⟩ := Option.isSome_iff_exists.1 hb
    obtain ⟨z, hz⟩ := Option.isSome_iff_exists.1 hc
    obtain ⟨w, hw⟩ := Option.isSome_iff_exists.1 hd
    exact ⟨⟨x, y, hx, hy⟩, z, w, hz, hw⟩
  unfold isHhmm at h
  split at h
  · rename_i a b c d hs
    obtain ⟨⟨x, y, hx, hy⟩, z, w, hz, hw⟩ := hdigits h
    rw [hs]
    exact ⟨_, _, (Text.int_digits hx hy).1, (Text.int_digits hz hw).1⟩
  · rename_i a b c d hs
    obtain ⟨⟨x, y, hx, hy⟩, z, w, hz, hw⟩ := hdigits h
    rw [hs]
    exact ⟨_, _, (Text.int_digits hx hy).1, (Text.int_digits hz hw).2⟩
  · contradiction

theorem isSome_int_of_isHhmm {s : String} (h : isHhmm s = true) :
    (Text.int (s.toList.take 2)).isSome = true ∧ (Text.int (s.toList.drop 3)).isSome = true := by
  obtain ⟨hour, minute, hhour, hminute⟩ := int_of_isHhmm h
  exact ⟨Option.isSome_of_eq_some hhour, Option.isSome_of_eq_some hminute⟩

end

end LiveSTT.Gateway
