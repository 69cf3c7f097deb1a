import LiveSTT.IdentityManager.Model
import LiveSTT.Lib.FirstMin

/-!
# The closest identity

`_find_identity` scans the pool of the transcript's source for the identity event that is closest in
time. `best_diff` is both the distance of the best event so far and, at the start, the window an
event has to be in. The scan is `scanMin` with the distance as the key, and an event whose timestamp
does not parse has none. So what it returns is the first of the closest events in the window, and
nothing exactly if the transcript has no time or no event is in its window (`closest_identity`).
-/

namespace LiveSTT.IdentityManager

variable (fromisoformat : String → Option ℚ)

/-- The distance of an identity event from a time, if its timestamp parses. -/
def distance (ts : ℚ) (identity : IdentityEvent) : Option ℚ :=
  (parseTs fromisoformat (identity.data.get "timestamp")).map fun idTs ↦ |idTs - ts|

variable {fromisoformat}

/-- The loop of `_find_identity` is the scan for a minimum, with the distance in time as the
measure. -/
theorem closest_eq_scanMin (ts : ℚ) (pool : List IdentityEvent) (best : Option IdentityEvent)
    (bestDiff : ℚ) : closest fromisoformat ts pool best bestDiff =
      scanMin (distance fromisoformat ts) pool best bestDiff := by
  induction pool generalizing best bestDiff with
  | nil => rfl
  | cons identity pool ih =>
    rw [closest, scanMin]
    cases hts : parseTs fromisoformat (identity.data.get "timestamp") with
    | none =>
      have hnone : distance fromisoformat ts identity = none := by
        rw [distance, hts, Option.map_none]
      simp only [hnone]
      exact ih best bestDiff
    | some idTs =>
      have hsome : distance fromisoformat ts identity = some |idTs - ts| := by
        rw [distance, hts, Option.map_some]
      simp only [hsome, ih]

/-- **Closest identity wins.** The event that is returned is the first of the closest in the window,
in the pool of the source; nothing is returned exactly if the transcript's time does not parse or no
event of the pool is in the window; and the other pool does not matter. -/
theorem closest_identity (fromisoformat : String → Option ℚ) (s : State)
    (transcriptTs : Option Json) (source : Json) :
    (∀ identity, findIdentity fromisoformat s transcriptTs source = some identity ↔
      ∃ ts, parseTs fromisoformat transcriptTs = some ts ∧
        FirstMin (distance fromisoformat ts) matchWindowS (s.pool (poolOf source)) identity) ∧
    (findIdentity fromisoformat s transcriptTs source = none ↔
      ∀ ts, parseTs fromisoformat transcriptTs = some ts →
        NoneBelow (distance fromisoformat ts) matchWindowS (s.pool (poolOf source))) ∧
    ∀ t : State, t.pool (poolOf source) = s.pool (poolOf source) →
      findIdentity fromisoformat t transcriptTs source =
        findIdentity fromisoformat s transcriptTs source := by
  refine ⟨fun identity ↦ ?_, ?_, fun t hpool ↦ ?_⟩
  · rw [findIdentity]
    cases hts : parseTs fromisoformat transcriptTs with
    | none => simp
    | some ts => simp [closest_eq_scanMin, scanMin_eq_some_iff]
  · rw [findIdentity]
    cases hts : parseTs fromisoformat transcriptTs with
    | none => simp
    | some ts => simp [closest_eq_scanMin, scanMin_eq_none_iff]
  · rw [findIdentity, findIdentity, hpool]

end LiveSTT.IdentityManager
