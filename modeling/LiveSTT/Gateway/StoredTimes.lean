import LiveSTT.Gateway.Retention
import LiveSTT.Lib.Moments

/-!
# Stored times

`started_at`, the timestamps of log entries and the cutoffs of the retention loops are texts,
written by `datetime.now(UTC).isoformat()`, and the database compares them as texts. That is the
order of time (`isoformat_order`), so the retention keeps the sessions that started last and deletes
those that started before the cutoff (`ordered_iff`, `expired_iff`), the log purge deletes what was
logged before it (`mem_purge_iff`), and the export has the last entries, in the order in which they
were logged (`Selected.exists_left_out`).
-/

namespace LiveSTT.StoredTimes

open Calendar SessionStore

/-- Comparing two stored times as texts is comparing them in time. -/
theorem isoformat_order (a b : DateTime) :
    (a.isoformat < b.isoformat ↔ a.instant < b.instant) ∧
      (a.isoformat = b.isoformat ↔ a.instant = b.instant) :=
  ⟨DateTime.isoformat_lt_iff, DateTime.isoformat_inj.trans DateTime.instant_inj.symm⟩

/-! ### Sessions -/

section

variable {s : State} {ids : List String} {row : SessionModel}

/-- The select of the completed sessions is answered with the latest first. -/
theorem ordered_iff (started : String → DateTime)
    (hstarted : ∀ row ∈ s.completed, s.startedAt row.id = (started row.id).isoformat) :
    s.Ordered ids ↔ ids.Perm (s.completed.map SessionModel.id) ∧
      ids.Pairwise fun id id' ↦ (started id').instant ≤ (started id).instant := by
  refine and_congr_right fun hperm ↦ List.Pairwise.iff_of_mem fun {id id'} hid hid' ↦ ?_
  have hdate : ∀ id ∈ ids, s.startedAt id = (started id).isoformat := by
    intro id hid
    obtain ⟨row, hrow, rfl⟩ := List.mem_map.1 (hperm.mem_iff.1 hid)
    exact hstarted row hrow
  rw [hdate id hid, hdate id' hid', DateTime.isoformat_lt_iff, Nat.not_lt]

/-- A session that one of the policies is against: it is not among the first, or it started before
the cutoff. -/
theorem expired_iff {count days : ℤ} {started cutoff : DateTime}
    (hstarted : row.startedAt = started.isoformat) :
    expired count days ids cutoff.isoformat row = true ↔ row.stoppedAt.isSome = true ∧
      (0 < count ∧ row.id ∈ ids.drop count.toNat ∨ 0 < days ∧
        started.instant < cutoff.instant) := by
  rw [expired, decide_eq_true_iff, hstarted, DateTime.isoformat_lt_iff]

end

/-! ### Log entries -/

/-- A row of `log_entries`. -/
structure LogEntry where
  id : ℕ
  timestamp : String
  service : String
  level : String
  message : String

/-- `_log_retention_loop`, the delete. The rows may carry more than the entry that is stored. -/
def purge {α : Type*} (entry : α → LogEntry) (cutoff : String) (rows : List α) : List α :=
  rows.filter fun x ↦ ¬ (entry x).timestamp < cutoff

/-- What the select of `export_logs` may return: the matching rows by `timestamp`, the latest first,
and of these `limit`. SQLite takes a negative limit for none. -/
def Selected (entries : List LogEntry) (matching : LogEntry → Bool) (limit : ℤ)
    (rows : List LogEntry) : Prop :=
  ∃ order : List LogEntry, order.Perm (entries.filter matching) ∧
    order.Pairwise (fun e e' ↦ ¬ e.timestamp < e'.timestamp) ∧
    rows = if limit < 0 then order else order.take limit.toNat

/-- The rows of the export, in the order of its lines. -/
def exported (rows : List LogEntry) : List LogEntry :=
  rows.reverse

/-- The purge keeps what was logged at the cutoff or after it. -/
theorem mem_purge_iff {α : Type*} {entry : α → LogEntry} {rows : List α} {x : α}
    {logged cutoff : DateTime} (hlogged : (entry x).timestamp = logged.isoformat) :
    x ∈ purge entry cutoff.isoformat rows ↔ x ∈ rows ∧ cutoff.instant ≤ logged.instant := by
  rw [purge, List.mem_filter, decide_eq_true_iff, hlogged, DateTime.isoformat_lt_iff, Nat.not_lt]

/-- What the select leaves out was logged before what it returns, and the limit leaves it out. -/
theorem Selected.exists_left_out {entries rows : List LogEntry} {logged : LogEntry → DateTime}
    {matching : LogEntry → Bool} {limit : ℤ} (h : Selected entries matching limit rows)
    (hlogged : ∀ e ∈ entries, e.timestamp = (logged e).isoformat) :
    ∃ rest : List LogEntry, (rows ++ rest).Perm (entries.filter matching) ∧
      (rows ++ rest).Pairwise (fun e e' ↦ (logged e').instant ≤ (logged e).instant) ∧
      (rest ≠ [] → (rows.length : ℤ) = limit) := by
  obtain ⟨order, hperm, hsorted, hrows⟩ := h
  have hdated : order.Pairwise fun e e' ↦ (logged e').instant ≤ (logged e).instant := by
    refine hsorted.imp_of_mem fun {e e'} he he' hle ↦ ?_
    have hmem : ∀ e ∈ order, e ∈ entries := fun e he ↦ List.mem_of_mem_filter (hperm.mem_iff.1 he)
    rwa [hlogged e (hmem e he), hlogged e' (hmem e' he'), DateTime.isoformat_lt_iff,
      Nat.not_lt] at hle
  by_cases hlimit : limit < 0
  · rw [if_pos hlimit] at hrows
    rw [hrows]
    rw [← List.append_nil order] at hperm hdated
    exact ⟨[], hperm, hdated, fun hne ↦ absurd rfl hne⟩
  · rw [if_neg hlimit] at hrows
    rw [hrows]
    refine ⟨order.drop limit.toNat, ?_, ?_, fun hne ↦ ?_⟩
    · rwa [List.take_append_drop]
    · rwa [List.take_append_drop]
    · have hlt : limit.toNat < order.length := by
        by_contra hle
        exact hne (List.drop_eq_nil_of_le (Nat.not_lt.1 hle))
      rw [List.length_take]
      omega

end LiveSTT.StoredTimes
