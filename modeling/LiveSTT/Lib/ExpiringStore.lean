import Mathlib.Data.List.Induction
import Mathlib.Data.List.Nodup
import Mathlib.Order.Defs.PartialOrder

/-!
# Stores whose records expire

A store keeps for each key the record that was put last, and a read sees the records that are fresh
when it comes. Which times are fresh is a set that is closed upwards: of two records the later one
lives longer.

`ofLog` is the store that a log of puts leaves. Although it has forgotten all but the last record of
each key, reading it tells as much about freshness as reading the log: a key is seen exactly if it
was put at a time that is fresh (`mem_keys_ofLog_iff`).

With it a store is a function of the log, and the rules for `put` are those for a log that has grown
by one. A delete is no part of this: the stores it is for expire their records and delete none.
-/

namespace ExpiringStore

/-- A record, with the time of its put. -/
structure Record (κ τ β : Type*) where
  key : κ
  time : τ
  value : β

variable {κ τ β : Type*} [DecidableEq κ] {s log : List (Record κ τ β)} {r x : Record κ τ β} {k : κ}

/-! ### Writing -/

/-- Put a record in the place of the one with its key. -/
def put (s : List (Record κ τ β)) (r : Record κ τ β) : List (Record κ τ β) :=
  s.filter (fun x ↦ x.key ≠ r.key) ++ [r]

theorem mem_put_iff : r ∈ put s x ↔ (r ∈ s ∧ r.key ≠ x.key) ∨ r = x := by
  simp [put]

/-- The store after a log of puts. -/
def ofLog (log : List (Record κ τ β)) : List (Record κ τ β) :=
  log.foldl put []

@[simp] theorem ofLog_nil : ofLog ([] : List (Record κ τ β)) = [] := rfl

@[simp] theorem ofLog_append_singleton : ofLog (log ++ [r]) = put (ofLog log) r :=
  List.foldl_append

theorem mem_of_mem_ofLog (h : r ∈ ofLog log) : r ∈ log := by
  induction log using List.reverseRecOn with
  | nil => exact h
  | append_singleton log x ih =>
    rw [ofLog_append_singleton, mem_put_iff] at h
    rcases h with ⟨h, -⟩ | rfl
    · exact List.mem_append_left _ (ih h)
    · exact List.mem_append_right _ (List.mem_singleton_self _)

/-- There is one record a key. -/
theorem nodup_keys_ofLog : ((ofLog log).map Record.key).Nodup := by
  induction log using List.reverseRecOn with
  | nil => exact List.nodup_nil
  | append_singleton log x ih =>
    rw [ofLog_append_singleton, put, List.map_append, List.map_singleton, List.nodup_append]
    refine ⟨ih.sublist (List.filter_sublist.map _), List.nodup_singleton _, ?_⟩
    intro a ha b hb
    obtain ⟨r, hr, rfl⟩ := List.mem_map.1 ha
    obtain rfl := List.mem_singleton.1 hb
    simpa using (List.mem_filter.1 hr).2

theorem ofLog_eq_nil_iff : ofLog log = [] ↔ log = [] := by
  induction log using List.reverseRecOn with
  | nil => simp
  | append_singleton log x _ => simp [put]

/-- The store has of each key the record that was put last. -/
theorem mem_ofLog_iff : r ∈ ofLog log ↔ (log.filter fun x ↦ x.key = r.key).getLast? = some r := by
  induction log using List.reverseRecOn with
  | nil => simp
  | append_singleton log x ih =>
    rw [ofLog_append_singleton, mem_put_iff, List.filter_append]
    by_cases hkey : x.key = r.key
    · have hlast : [x].filter (fun x ↦ x.key = r.key) = [x] := List.filter_eq_self.2 (by simpa)
      rw [hlast, List.getLast?_concat, Option.some.injEq]
      exact ⟨fun h ↦ (h.resolve_left fun h ↦ h.2 hkey.symm).symm, fun h ↦ Or.inr h.symm⟩
    · have hnone : [x].filter (fun x ↦ x.key = r.key) = [] := List.filter_eq_nil_iff.2 (by simpa)
      rw [hnone, List.append_nil, ← ih]
      refine ⟨fun h ↦ (h.resolve_right ?_).1, fun h ↦ Or.inl ⟨h, Ne.symm hkey⟩⟩
      rintro rfl
      exact hkey rfl

/-! ### Reading -/

variable (fresh : τ → Prop) [DecidablePred fresh]

/-- The keys of the fresh records. -/
def keys (s : List (Record κ τ β)) : List κ :=
  (s.filter fun r ↦ fresh r.time).map Record.key

/-- The fresh record of a key. -/
def get (s : List (Record κ τ β)) (k : κ) : Option (Record κ τ β) :=
  s.find? fun r ↦ r.key = k ∧ fresh r.time

variable {fresh}

omit [DecidableEq κ] in
theorem mem_keys_iff : k ∈ keys fresh s ↔ ∃ r ∈ s, r.key = k ∧ fresh r.time := by
  simp only [keys, List.mem_map, List.mem_filter, decide_eq_true_eq]
  constructor
  · rintro ⟨r, ⟨hr, ht⟩, hkey⟩
    exact ⟨r, hr, hkey, ht⟩
  · rintro ⟨r, hr, hkey, ht⟩
    exact ⟨r, ⟨hr, ht⟩, hkey⟩

theorem nodup_keys : (keys fresh (ofLog log)).Nodup :=
  nodup_keys_ofLog.sublist (List.filter_sublist.map _)

theorem of_get_eq_some (h : get fresh s k = some r) : r ∈ s ∧ r.key = k ∧ fresh r.time := by
  have hr := List.find?_some h
  exact ⟨List.mem_of_find?_eq_some h, by simpa using hr⟩

/-! ### The store and its log -/

variable [Preorder τ]

/-- The puts of a log come one after another. -/
def Ascending (log : List (Record κ τ β)) : Prop :=
  log.Pairwise fun r x ↦ r.time ≤ x.time

omit [DecidableEq κ] in
theorem ascending_append_singleton (h : Ascending log) (hr : ∀ x ∈ log, x.time ≤ r.time) :
    Ascending (log ++ [r]) := by
  refine List.pairwise_append.2 ⟨h, List.pairwise_singleton _ _, ?_⟩
  intro x hx y hy
  obtain rfl := List.mem_singleton.1 hy
  exact hr x hx

/-- What was put is still there, or something later is under its key. -/
theorem exists_mem_ofLog (h : Ascending log) (hr : r ∈ log) :
    ∃ x ∈ ofLog log, x.key = r.key ∧ r.time ≤ x.time := by
  induction log using List.reverseRecOn with
  | nil => exact absurd hr List.not_mem_nil
  | append_singleton log y ih =>
    obtain ⟨hlog, -, hlast⟩ := List.pairwise_append.1 h
    rw [ofLog_append_singleton]
    rcases List.mem_append.1 hr with hr | hr
    · obtain ⟨x, hx, hkey, htime⟩ := ih hlog hr
      by_cases hxy : x.key = y.key
      · exact ⟨y, mem_put_iff.2 (Or.inr rfl), hxy.symm.trans hkey,
          hlast r hr y (List.mem_singleton_self y)⟩
      · exact ⟨x, mem_put_iff.2 (Or.inl ⟨hx, hxy⟩), hkey, htime⟩
    · obtain rfl := List.mem_singleton.1 hr
      exact ⟨r, mem_put_iff.2 (Or.inr rfl), rfl, le_rfl⟩

/-- **A key is seen exactly if it was put at a fresh time.** -/
theorem mem_keys_ofLog_iff (hlog : Ascending log) (hfresh : ∀ ⦃t u⦄, t ≤ u → fresh t → fresh u) :
    k ∈ keys fresh (ofLog log) ↔ ∃ r ∈ log, r.key = k ∧ fresh r.time := by
  rw [mem_keys_iff]
  constructor
  · rintro ⟨r, hr, hkey, ht⟩
    exact ⟨r, mem_of_mem_ofLog hr, hkey, ht⟩
  · rintro ⟨r, hr, rfl, ht⟩
    obtain ⟨x, hx, hkey, htime⟩ := exists_mem_ofLog hlog hr
    exact ⟨x, hx, hkey, hfresh htime ht⟩

end ExpiringStore
