import Mathlib.Data.List.Perm.Subperm
import Mathlib.Data.List.Induction
import LiveSTT.Gateway.SessionStore

/-!
# What the retention deletes

`_run_session_retention` collects the ids of the completed sessions behind the first
`_SESSION_RETENTION_COUNT` by start time, and of those started before a cutoff, deletes their
segments and then them, and returns how many they were. `runSessionRetention` is a call that nothing
else interferes with, as the answers to its database calls make it go on; those are steps of
`SessionStore`.

A session is `expired` if one of the two policies says so. A call that succeeds leaves what is not
expired and returns the number of expired sessions, whatever order the database gives sessions that
started at the same time; a call in which a database call raises leaves everything; and after a call
that succeeded, another one with the same cutoff finds nothing (`retention_exact`).

The database is free to choose among sessions with the same start time, and so the answer to the
first select is only bound to be some order by it (`State.Ordered`). `Ended` is what a call has done
when it comes to its end, in either of two ways.
-/

namespace LiveSTT.SessionStore

/-! ### A call -/

/-- What a call that ends with the answer returns. -/
def returned (s : State) (a : RetentionAnswer) : ℕ :=
  match s.retention, a with
  | .deleting ids, .deleted .ok => ids.length
  | _, _ => 0

/-- A call goes on with the answers until it returns. -/
def resumeRetention (count days : ℤ) (s : State) : List RetentionAnswer → Option (State × ℕ)
  | [] => none
  | a :: as =>
    (retentionStep count days s a).bind fun t ↦
      match t.retention with
      | .idle => if as.isEmpty then some (t, returned s a) else none
      | _ => resumeRetention count days t as

/-- `_run_session_retention`: what it makes of the tables, and what it returns, when its database
calls end as `as` says. -/
def runSessionRetention (count days : ℤ) (s : State) (as : List RetentionAnswer) :
    Option (State × ℕ) :=
  match (beginRetention count days s).retention with
  | .idle => if as.isEmpty then some (beginRetention count days s, 0) else none
  | _ => resumeRetention count days (beginRetention count days s) as

/-- A database call raised. -/
def raises (as : List RetentionAnswer) : Bool :=
  as.any fun
    | .raised => true
    | .deleted r => r.raised
    | _ => false

/-! ### What the policies say -/

/-- A completed session that one of the policies is against: it is not among the first `count` of
`order`, or it started before the cutoff. -/
def expired (count days : ℤ) (order : List String) (cutoff : String) (row : SessionModel) : Bool :=
  row.stoppedAt.isSome ∧
    (0 < count ∧ row.id ∈ order.drop count.toNat ∨ 0 < days ∧ row.startedAt < cutoff)

/-- The tables without some of the sessions, and without their segments. -/
def State.without (s : State) (p : SessionModel → Bool) : State := { s with
  sessions := s.sessions.filter fun row ↦ !p row
  loop := { s.loop with
    segments := s.loop.segments.filter fun q ↦
      !s.sessions.any fun row ↦ p row && row.id = q.2.sessionId } }

/-- The ids of some of the sessions, each once. -/
def Collected (s : State) (p : SessionModel → Bool) (ids : List String) : Prop :=
  ids.Perm ((s.sessions.filter p).map SessionModel.id)

section

variable {count days : ℤ} {s t : State} {order ids : List String} {cutoff : String}
  {p : SessionModel → Bool}

/-! ### Collecting ids -/

/-- Rows are told apart by their ids. -/
theorem row_eq (hkeys : s.sessionIds.Nodup) {row row' : SessionModel} (hrow : row ∈ s.sessions)
    (hrow' : row' ∈ s.sessions) (hid : row.id = row'.id) : row = row' :=
  List.inj_on_of_nodup_map hkeys hrow hrow' hid

/-- They are the ids of the rows with the property. -/
theorem collected_iff (hkeys : s.sessionIds.Nodup) : Collected s p ids ↔
    ids.Nodup ∧ ∀ id, id ∈ ids ↔ ∃ row ∈ s.sessions, p row = true ∧ row.id = id := by
  have hnodup : ((s.sessions.filter p).map SessionModel.id).Nodup :=
    hkeys.sublist (List.filter_sublist.map _)
  have hmem : ∀ id, id ∈ (s.sessions.filter p).map SessionModel.id ↔
      ∃ row ∈ s.sessions, p row = true ∧ row.id = id := by
    intro id
    simp [and_assoc]
  constructor
  · intro h
    exact ⟨h.nodup_iff.2 hnodup, fun id ↦ (h.mem_iff).trans (hmem id)⟩
  · rintro ⟨hids, hiff⟩
    exact (List.perm_ext_iff_of_nodup hids hnodup).2 fun id ↦ (hiff id).trans (hmem id).symm

/-- A row is collected if its id is. -/
theorem Collected.mem_iff (h : Collected s p ids) (hkeys : s.sessionIds.Nodup) {row : SessionModel}
    (hrow : row ∈ s.sessions) : row.id ∈ ids ↔ p row = true := by
  rw [((collected_iff hkeys).1 h).2]
  constructor
  · rintro ⟨row', hrow', hp, hid⟩
    rwa [← row_eq hkeys hrow' hrow hid]
  · exact fun hp ↦ ⟨row, hrow, hp, rfl⟩

/-- There are as many ids as sessions. -/
theorem Collected.length (h : Collected s p ids) : ids.length = s.sessions.countP p := by
  rw [List.Perm.length_eq h, List.length_map, List.countP_eq_length_filter]

theorem Collected.congr (h : Collected s p ids) {q : SessionModel → Bool}
    (hpq : ∀ row ∈ s.sessions, p row = q row) : Collected s q ids := by
  rw [Collected, ← List.filter_congr hpq]
  exact h

/-- Nothing is collected at first. -/
theorem collected_nil : Collected s (fun _ ↦ false) [] := by
  simp [Collected]

/-- The completed sessions behind the first ones. -/
theorem collected_drop (hkeys : s.sessionIds.Nodup) (horder : s.Ordered order) (n : ℕ) :
    Collected s (fun row ↦ row.stoppedAt.isSome ∧ row.id ∈ order.drop n) (order.drop n) := by
  have hcompleted : (s.completed.map SessionModel.id).Nodup :=
    hkeys.sublist (List.filter_sublist.map _)
  have hnodup : order.Nodup := horder.1.nodup_iff.2 hcompleted
  refine (collected_iff hkeys).2 ⟨hnodup.sublist (List.drop_sublist n order), fun id ↦ ?_⟩
  constructor
  · intro hid
    obtain ⟨row, hrow, rfl⟩ := List.mem_map.1 (horder.1.mem_iff.1 (List.mem_of_mem_drop hid))
    obtain ⟨hrow, hstopped⟩ := List.mem_filter.1 hrow
    exact ⟨row, hrow, by simpa [hid] using hstopped, rfl⟩
  · rintro ⟨row, -, hp, rfl⟩
    exact (of_decide_eq_true hp).2

/-- The completed sessions that started before the cutoff are added. -/
theorem Collected.age (h : Collected s p ids) (hkeys : s.sessionIds.Nodup) (cutoff : String) :
    Collected s (fun row ↦ p row || (row.stoppedAt.isSome && row.startedAt < cutoff))
      (ids ++ ((s.completed.filter fun row ↦ row.startedAt < cutoff).map SessionModel.id).filter
        (· ∉ ids)) := by
  obtain ⟨hids, hiff⟩ := (collected_iff hkeys).1 h
  have haged : ((s.completed.filter fun row ↦ row.startedAt < cutoff).map SessionModel.id).Nodup :=
    hkeys.sublist ((List.filter_sublist.trans List.filter_sublist).map _)
  refine (collected_iff hkeys).2 ⟨?_, fun id ↦ ?_⟩
  · refine List.nodup_append'.2 ⟨hids, haged.filter _, fun id hid hnew ↦ ?_⟩
    exact of_decide_eq_true (List.mem_filter.1 hnew).2 hid
  · have hnew : id ∈ (s.completed.filter fun row ↦ row.startedAt < cutoff).map SessionModel.id ↔
        ∃ row ∈ s.sessions, (row.stoppedAt.isSome = true ∧ row.startedAt < cutoff) ∧
          row.id = id := by
      simp [State.completed, and_assoc, and_left_comm]
    rw [List.mem_append, List.mem_filter, hnew, decide_eq_true_iff]
    constructor
    · rintro (hold | ⟨⟨row, hrow, ⟨hstopped, hlt⟩, rfl⟩, -⟩)
      · obtain ⟨row, hrow, hp, rfl⟩ := (hiff id).1 hold
        exact ⟨row, hrow, by simp [hp], rfl⟩
      · exact ⟨row, hrow, by simp [hstopped, hlt], rfl⟩
    · rintro ⟨row, hrow, hp, rfl⟩
      by_cases hold : row.id ∈ ids
      · exact Or.inl hold
      · have hnot : p row = false := Bool.eq_false_iff.2 fun htrue ↦
          hold ((h.mem_iff hkeys hrow).2 htrue)
        refine Or.inr ⟨⟨row, hrow, ?_, rfl⟩, hold⟩
        simpa [hnot] using hp

/-! ### Deleting them -/

/-- Nothing to delete. -/
theorem without_of_collected_nil (h : Collected s p []) : s.without p = s := by
  have hnone : ∀ row ∈ s.sessions, p row = false := by
    have hempty := List.map_eq_nil_iff.1 (List.nil_perm.1 h)
    intro row hrow
    exact Bool.eq_false_iff.2 (List.filter_eq_nil_iff.1 hempty row hrow)
  have hsessions : s.sessions.filter (fun row ↦ !p row) = s.sessions :=
    List.filter_eq_self.2 fun row hrow ↦ by simp [hnone row hrow]
  have hsegments : (s.loop.segments.filter fun q ↦
      !s.sessions.any fun row ↦ p row && row.id = q.2.sessionId) = s.loop.segments := by
    refine List.filter_eq_self.2 fun q _ ↦ ?_
    rw [Bool.not_eq_true', List.any_eq_false]
    intro row hrow
    simp [hnone row hrow]
  rw [State.without, hsessions, hsegments]

/-- The deletes. -/
theorem deleteStep_of_collected (h : Collected s p ids) (hkeys : s.sessionIds.Nodup) :
    deleteStep s ids .ok = { s.without p with retention := .idle } := by
  have hsessions :
    s.sessions.filter (fun row ↦ row.id ∉ ids) = s.sessions.filter (fun row ↦ !p row) := by
    refine List.filter_congr fun row hrow ↦ ?_
    rw [Bool.eq_iff_iff, decide_eq_true_iff, h.mem_iff hkeys hrow]
    simp
  have hsegments : (s.loop.segments.filter fun q ↦ q.2.sessionId ∉ ids) =
      s.loop.segments.filter fun q ↦
        !s.sessions.any fun row ↦ p row && row.id = q.2.sessionId := by
    refine List.filter_congr fun q _ ↦ ?_
    rw [Bool.eq_iff_iff, decide_eq_true_iff, ((collected_iff hkeys).1 h).2]
    simp
  rw [deleteStep, if_pos Reply.applied_ok, State.without, hsessions, hsegments]

/-! ### How a call ends -/

/-- A call has ended: a database call raised and nothing is done, or the sessions are deleted. -/
def Ended (s : State) (p : SessionModel → Bool) (as : List RetentionAnswer) (t : State) (n : ℕ) :
    Prop :=
  (raises as = true ∧ t = s ∧ n = 0) ∨
    (raises as = false ∧ t = s.without p ∧ n = s.sessions.countP p)

section

variable {as : List RetentionAnswer} {n : ℕ}

/-- Only the rows that are there matter. -/
theorem Ended.congr (h : Ended s p as t n) {q : SessionModel → Bool}
    (hpq : ∀ row ∈ s.sessions, p row = q row) : Ended s q as t n := by
  have hsessions : s.sessions.filter (fun row ↦ !p row) = s.sessions.filter (fun row ↦ !q row) :=
    List.filter_congr fun row hrow ↦ by rw [hpq row hrow]
  have hsegments : (s.loop.segments.filter fun x ↦
        !s.sessions.any fun row ↦ p row && row.id = x.2.sessionId) =
      s.loop.segments.filter fun x ↦
        !s.sessions.any fun row ↦ q row && row.id = x.2.sessionId := by
    refine List.filter_congr fun x _ ↦ ?_
    rw [Bool.eq_iff_iff, Bool.not_eq_true', Bool.not_eq_true', List.any_eq_false, List.any_eq_false]
    exact forall₂_congr fun row hrow ↦ by rw [hpq row hrow]
  have hwithout : s.without p = s.without q := by
    rw [State.without, State.without, hsessions, hsegments]
  have hcount : s.sessions.countP p = s.sessions.countP q :=
    List.countP_congr fun row hrow ↦ by rw [hpq row hrow]
  rwa [Ended, hwithout, hcount] at h

/-- At the deletes. -/
theorem ended_deleting (h : Collected s p ids) (hkeys : s.sessionIds.Nodup)
    (hidle : s.retention = .idle) (hcommit : .deleted .lost ∉ as)
    (hcall : resumeRetention count days { s with retention := .deleting ids } as = some (t, n)) :
    Ended s p as t n := by
  have hsame : { s with retention := .idle } = s := by rw [← hidle]
  cases as with
  | nil => contradiction
  | cons a as =>
    rw [resumeRetention] at hcall
    cases a with
    | ordered order => contradiction
    | cutoff cutoff => contradiction
    | raised =>
      obtain ⟨-, heq⟩ := Option.ite_none_right_eq_some.1 hcall
      obtain ⟨rfl, rfl⟩ := Prod.mk.inj (Option.some.inj heq)
      exact Or.inl ⟨rfl, hsame, rfl⟩
    | deleted r =>
      cases r with
      | lost => exact absurd List.mem_cons_self hcommit
      | error =>
        obtain ⟨-, heq⟩ := Option.ite_none_right_eq_some.1 hcall
        obtain ⟨rfl, rfl⟩ := Prod.mk.inj (Option.some.inj heq)
        exact Or.inl ⟨rfl, hsame, rfl⟩
      | ok =>
        have hdelete : deleteStep { s with retention := .deleting ids } ids .ok =
            { s.without p with retention := .idle } := deleteStep_of_collected h hkeys
        simp only [retentionStep, hdelete, Option.bind_some] at hcall
        obtain ⟨hempty, heq⟩ := Option.ite_none_right_eq_some.1 hcall
        obtain ⟨rfl, rfl⟩ := Prod.mk.inj (Option.some.inj heq)
        obtain rfl := List.isEmpty_iff.1 hempty
        refine Or.inr ⟨rfl, ?_, h.length⟩
        rw [show s.without p = { s.without p with retention := s.retention } from rfl, hidle]

variable (count days) in
/-- The ids are known. -/
theorem ended_beginDelete (h : Collected s p ids) (hkeys : s.sessionIds.Nodup)
    (hidle : s.retention = .idle) (hcommit : .deleted .lost ∉ as) {m : ℕ} (hm : m = 0)
    (hcall : (match (beginDelete s ids).retention with
      | .idle => if as.isEmpty then some (beginDelete s ids, m) else none
      | _ => resumeRetention count days (beginDelete s ids) as) = some (t, n)) :
    Ended s p as t n := by
  rw [beginDelete] at hcall
  by_cases hids : ids = []
  · -- There is nothing to delete, and the call returns without another answer.
    subst hids
    obtain ⟨hempty, heq⟩ := Option.ite_none_right_eq_some.1 hcall
    obtain ⟨rfl, rfl⟩ := Prod.mk.inj (Option.some.inj heq)
    obtain rfl := List.isEmpty_iff.1 hempty
    refine Or.inr ⟨rfl, ?_, ?_⟩
    · rw [without_of_collected_nil h, if_pos rfl, ← hidle]
    · rw [hm, ← h.length]
      rfl
  · simp only [if_neg hids] at hcall
    exact ended_deleting h hkeys hidle hcommit hcall

variable (count days) in
/-- At the select of the old sessions. -/
theorem ended_aging (h : Collected s p ids) (hkeys : s.sessionIds.Nodup)
    (hidle : s.retention = .idle) (hcommit : .deleted .lost ∉ as)
    (hcutoff : ∀ c, .cutoff c ∈ as → c = cutoff)
    (hcall : resumeRetention count days { s with retention := .aging ids } as = some (t, n)) :
    Ended s (fun row ↦ p row || (row.stoppedAt.isSome && row.startedAt < cutoff)) as t n := by
  have hsame : { s with retention := .idle } = s := by rw [← hidle]
  cases as with
  | nil => contradiction
  | cons a as =>
    rw [resumeRetention] at hcall
    cases a with
    | ordered order => contradiction
    | deleted r => contradiction
    | raised =>
      obtain ⟨-, heq⟩ := Option.ite_none_right_eq_some.1 hcall
      obtain ⟨rfl, rfl⟩ := Prod.mk.inj (Option.some.inj heq)
      exact Or.inl ⟨rfl, hsame, rfl⟩
    | cutoff c =>
      obtain rfl := hcutoff c List.mem_cons_self
      have hage := h.age hkeys c
      have hrest := ended_beginDelete count days hage hkeys hidle
        (fun hlost ↦ hcommit (List.mem_cons_of_mem _ hlost)) rfl hcall
      exact hrest

/-- At the select of the completed sessions. -/
theorem ended_counting (hcount : 0 < count) (hkeys : s.sessionIds.Nodup)
    (hidle : s.retention = .idle) (hcommit : .deleted .lost ∉ as)
    (hcutoff : ∀ c, .cutoff c ∈ as → c = cutoff)
    (hcall : resumeRetention count days { s with retention := .counting } as = some (t, n)) :
    ∃ order, (raises as = false → s.Ordered order ∧ .ordered order ∈ as) ∧
      Ended s (expired count days order cutoff) as t n := by
  have hsame : { s with retention := .idle } = s := by rw [← hidle]
  cases as with
  | nil => contradiction
  | cons a as =>
    have hcommit' : .deleted .lost ∉ as := fun hlost ↦ hcommit (List.mem_cons_of_mem _ hlost)
    have hcutoff' : ∀ c, .cutoff c ∈ as → c = cutoff := fun c hc ↦
      hcutoff c (List.mem_cons_of_mem _ hc)
    rw [resumeRetention] at hcall
    cases a with
    | cutoff c => contradiction
    | deleted r => contradiction
    | raised =>
      obtain ⟨-, heq⟩ := Option.ite_none_right_eq_some.1 hcall
      obtain ⟨rfl, rfl⟩ := Prod.mk.inj (Option.some.inj heq)
      exact ⟨[], fun h ↦ by contradiction, Or.inl ⟨rfl, hsame, rfl⟩⟩
    | ordered order =>
      obtain ⟨u, hstep, hrest⟩ := Option.bind_eq_some_iff.1 hcall
      obtain ⟨horder, hu⟩ := Option.ite_none_right_eq_some.1 hstep
      obtain rfl := Option.some.inj hu
      have hdrop := collected_drop hkeys horder count.toNat
      refine ⟨order, fun _ ↦ ⟨horder, List.mem_cons_self⟩, ?_⟩
      rw [countStep] at hrest
      by_cases hdays : 0 < days
      · rw [if_pos hdays] at hrest
        have hended := ended_aging count days hdrop hkeys hidle hcommit' hcutoff'
          hrest
        have hall : Ended s _ (.ordered order :: as) t n := hended
        refine hall.congr fun row _ ↦ ?_
        rw [Bool.eq_iff_iff]
        simp only [expired, Bool.or_eq_true, Bool.and_eq_true, decide_eq_true_eq, hcount, hdays,
          true_and, and_or_left]
      · rw [if_neg hdays] at hrest
        have hended := ended_beginDelete count days hdrop hkeys hidle hcommit' rfl
          hrest
        have hall : Ended s _ (.ordered order :: as) t n := hended
        refine hall.congr fun row _ ↦ ?_
        rw [Bool.eq_iff_iff]
        simp only [expired, decide_eq_true_eq, hcount, hdays, true_and, false_and, or_false]

/-- **How a call ends.** -/
theorem ended_run (hkeys : s.sessionIds.Nodup) (hidle : s.retention = .idle)
    (hcommit : .deleted .lost ∉ as) (hcutoff : ∀ c, .cutoff c ∈ as → c = cutoff)
    (hcall : runSessionRetention count days s as = some (t, n)) :
    ∃ order, (0 < count → raises as = false → s.Ordered order ∧ .ordered order ∈ as) ∧
      Ended s (expired count days order cutoff) as t n := by
  rw [runSessionRetention, beginRetention] at hcall
  by_cases hoff : count ≤ 0 ∧ days ≤ 0
  · simp only [if_pos hoff, hidle] at hcall
    obtain ⟨hempty, heq⟩ := Option.ite_none_right_eq_some.1 hcall
    obtain ⟨rfl, rfl⟩ := Prod.mk.inj (Option.some.inj heq)
    obtain rfl := List.isEmpty_iff.1 hempty
    have hnothing : Collected s (expired count days [] cutoff) [] :=
      collected_nil.congr fun row _ ↦ by simp [expired, Int.not_lt.2 hoff.1, Int.not_lt.2 hoff.2]
    refine ⟨[], fun hcount ↦ absurd hcount (Int.not_lt.2 hoff.1), Or.inr ⟨rfl, ?_, hnothing.length⟩⟩
    exact (without_of_collected_nil hnothing).symm
  · rw [if_neg hoff] at hcall
    by_cases hcount : 0 < count
    · rw [if_pos hcount] at hcall
      obtain ⟨order, horder, hended⟩ := ended_counting hcount hkeys hidle hcommit hcutoff hcall
      exact ⟨order, fun _ ↦ horder, hended⟩
    · rw [if_neg hcount] at hcall
      have hdays : 0 < days := by omega
      have hended := ended_aging count days collected_nil hkeys hidle hcommit
        hcutoff hcall
      refine ⟨[], fun h ↦ absurd h hcount, hended.congr fun row _ ↦ ?_⟩
      rw [Bool.eq_iff_iff]
      simp [expired, hcount, hdays]

/-! ### Nothing is left -/

/-- After the deletes no session is expired, however those that are left are ordered. -/
theorem not_expired_without (hkeys : s.sessionIds.Nodup) (horder : 0 < count → s.Ordered order)
    {order' : List String}
    (horder' : 0 < count → (s.without (expired count days order cutoff)).Ordered order') :
    ∀ row ∈ (s.without (expired count days order cutoff)).sessions,
      expired count days order' cutoff row = false := by
  intro row hrow
  obtain ⟨-, hleft⟩ := List.mem_filter.1 hrow
  rw [Bool.not_eq_true', expired, decide_eq_false_iff_not] at hleft
  rw [expired, decide_eq_false_iff_not]
  rintro ⟨hstopped, ⟨hcount, hbehind⟩ | hold⟩
  · -- What is left was among the first `count`, so nothing is behind them now.
    have hleft' : order' ⊆ order.take count.toNat := by
      intro id hid
      obtain ⟨row', hrow', rfl⟩ := List.mem_map.1 ((horder' hcount).1.mem_iff.1 hid)
      obtain ⟨hrow', hstopped'⟩ := List.mem_filter.1 hrow'
      obtain ⟨hrow', hnot⟩ := List.mem_filter.1 hrow'
      rw [Bool.not_eq_true', expired, decide_eq_false_iff_not] at hnot
      have hlisted : row'.id ∈ order := (horder hcount).1.mem_iff.2
        (List.mem_map_of_mem (List.mem_filter.2 ⟨hrow', hstopped'⟩))
      rw [← List.take_append_drop count.toNat order, List.mem_append] at hlisted
      exact hlisted.resolve_right fun hdrop ↦ hnot ⟨hstopped', Or.inl ⟨hcount, hdrop⟩⟩
    have hnodup : order'.Nodup := (horder' hcount).1.nodup_iff.2
      (hkeys.sublist ((List.filter_sublist.trans List.filter_sublist).map _))
    have hlength := (hnodup.subperm hleft').length_le
    rw [List.length_take] at hlength
    rw [List.drop_eq_nil_of_le (hlength.trans (min_le_left _ _))] at hbehind
    exact absurd hbehind List.not_mem_nil
  · exact hleft ⟨hstopped, Or.inr hold⟩

/-- Where no session is expired, a call does nothing. -/
theorem Ended.eq_of_not_expired (h : Ended s p as t n) (hnone : ∀ row ∈ s.sessions, p row = false) :
    t = s ∧ n = 0 := by
  have hcollected : Collected s p [] := collected_nil.congr fun row hrow ↦ (hnone row hrow).symm
  rcases h with ⟨-, rfl, rfl⟩ | ⟨-, rfl, rfl⟩
  · exact ⟨rfl, rfl⟩
  · exact ⟨without_of_collected_nil hcollected, hcollected.length.symm⟩

end

end

/-- **The retention deletes exactly what the policies say.** A call in which no database call raises
leaves the tables without the expired sessions and their segments, and returns how many they were;
and another call with the same cutoff then finds nothing. A call in which one raises leaves the
tables and returns 0. That a commit which raises has no effect is assumed. -/
theorem retention_exact {count days : ℤ} {cutoff : String} {s t : State} {as : List RetentionAnswer}
    {n : ℕ} (hkeys : s.sessionIds.Nodup) (hidle : s.retention = .idle)
    (hcommit : .deleted .lost ∉ as) (hcutoff : ∀ c, .cutoff c ∈ as → c = cutoff)
    (hcall : runSessionRetention count days s as = some (t, n)) :
    (raises as = false → ∃ order, (0 < count → s.Ordered order ∧ .ordered order ∈ as) ∧
      t = s.without (expired count days order cutoff) ∧
      n = s.sessions.countP (expired count days order cutoff)) ∧
    (raises as = false → ∀ as' u m, .deleted .lost ∉ as' → (∀ c, .cutoff c ∈ as' → c = cutoff) →
      runSessionRetention count days t as' = some (u, m) → u = t ∧ m = 0) ∧
    (raises as = true → t = s ∧ n = 0) := by
  obtain ⟨order, horder, hended⟩ := ended_run hkeys hidle hcommit hcutoff hcall
  rcases hended with ⟨hraises, rfl, rfl⟩ | ⟨hquiet, rfl, rfl⟩
  · refine ⟨fun h ↦ ?_, fun h ↦ ?_, fun _ ↦ ⟨rfl, rfl⟩⟩ <;>
      rw [hraises] at h <;> contradiction
  · refine ⟨fun _ ↦ ⟨order, fun hcount ↦ horder hcount hquiet, rfl, rfl⟩, ?_, fun h ↦ ?_⟩
    · intro _ as' u m hcommit' hcutoff' hcall'
      have hkeys' : (s.without (expired count days order cutoff)).sessionIds.Nodup :=
        hkeys.sublist (List.filter_sublist.map _)
      obtain ⟨order', horder', hended'⟩ := ended_run hkeys' hidle hcommit' hcutoff' hcall'
      by_cases hquiet' : raises as' = false
      · exact hended'.eq_of_not_expired (not_expired_without hkeys
          (fun hcount ↦ (horder hcount hquiet).1) fun hcount ↦ (horder' hcount hquiet').1)
      · rcases hended' with ⟨-, hu, hm⟩ | ⟨hquiet'', -⟩
        · exact ⟨hu, hm⟩
        · exact absurd hquiet'' hquiet'
    · rw [hquiet] at h
      contradiction

/-! ### Every order can be the answer -/

section

variable {count days : ℤ} {s : State} {order : List String}

/-- The delete can come to its end, or there is nothing to delete. -/
theorem exists_deletes (count days : ℤ) (s : State) (ids : List String) :
    ∃ as t n, (as = [] ∨ as = [.deleted .ok]) ∧
      (match (beginDelete s ids).retention with
        | .idle => if as.isEmpty then some (beginDelete s ids, 0) else none
        | _ => resumeRetention count days (beginDelete s ids) as) = some (t, n) := by
  by_cases hids : ids = []
  · refine ⟨[], { s with retention := .idle }, 0, Or.inl rfl, ?_⟩
    simp [beginDelete, hids]
  · refine ⟨[.deleted .ok], deleteStep { s with retention := .deleting ids } ids .ok, ids.length,
      Or.inr rfl, ?_⟩
    simp only [beginDelete, if_neg hids]
    rfl

theorem exists_aging (count days : ℤ) (s : State) (ids : List String) (cutoff : String) :
    ∃ as t n, (as = [.cutoff cutoff] ∨ as = [.cutoff cutoff, .deleted .ok]) ∧
      resumeRetention count days { s with retention := .aging ids } as = some (t, n) := by
  obtain ⟨as, t, n, has, hcall⟩ := exists_deletes count days { s with retention := .aging ids }
    (ids ++ ((s.completed.filter fun row ↦ row.startedAt < cutoff).map SessionModel.id).filter
      (· ∉ ids))
  exact ⟨.cutoff cutoff :: as, t, n, has.imp (congrArg _) (congrArg _), hcall⟩

/-- Whatever order the database gives sessions that started at the same time, the call goes
through. -/
theorem exists_call (hidle : s.retention = .idle) (horder : 0 < count → s.Ordered order)
    (cutoff : String) : ∃ as t n, runSessionRetention count days s as = some (t, n) ∧
      raises as = false ∧ .deleted .lost ∉ as ∧ (∀ c, .cutoff c ∈ as → c = cutoff) ∧
      (0 < count → .ordered order ∈ as) := by
  simp only [runSessionRetention, beginRetention]
  by_cases hoff : count ≤ 0 ∧ days ≤ 0
  · refine ⟨[], s, 0, ?_, rfl, List.not_mem_nil, fun _ h ↦ absurd h List.not_mem_nil,
      fun h ↦ absurd h (Int.not_lt.2 hoff.1)⟩
    simp [hoff, hidle]
  · by_cases hcount : 0 < count
    · simp only [if_neg hoff, if_pos hcount]
      have hstep : retentionStep count days { s with retention := .counting } (.ordered order) =
          some (countStep count days { s with retention := .counting } order) :=
        if_pos (horder hcount)
      by_cases hdays : 0 < days
      · obtain ⟨as, t, n, has, hcall⟩ := exists_aging count days s (order.drop count.toNat) cutoff
        refine ⟨.ordered order :: as, t, n, ?_, ?_⟩
        · rw [resumeRetention, hstep, Option.bind_some, countStep, if_pos hdays]
          exact hcall
        · rcases has with rfl | rfl <;> simp [raises, Reply.raised]
      · obtain ⟨as, t, n, has, hcall⟩ := exists_deletes count days
          { s with retention := .counting } (order.drop count.toNat)
        refine ⟨.ordered order :: as, t, n, ?_, ?_⟩
        · rw [resumeRetention, hstep, Option.bind_some, countStep, if_neg hdays]
          exact hcall
        · rcases has with rfl | rfl <;> simp [raises, Reply.raised]
    · simp only [if_neg hoff, if_neg hcount]
      obtain ⟨as, t, n, has, hcall⟩ := exists_aging count days s [] cutoff
      refine ⟨as, t, n, hcall, ?_⟩
      rcases has with rfl | rfl <;> simp [raises, Reply.raised, hcount]

end

/-! ### Three sessions -/

/-- Two completed sessions, and one that is running. -/
def threeSessions : State where
  sessions := [⟨"20260301-100000", .str "", "2026-03-01T10:00:00", some "2026-03-01T11:00:00", 0⟩,
    ⟨"20260308-100000", .str "", "2026-03-08T10:00:00", some "2026-03-08T11:00:00", 0⟩,
    ⟨"20260315-100000", .str "", "2026-03-15T10:00:00", none, 0⟩]

/-- One completed session is kept. -/
theorem retention_exact_threeSessions :
    ∃ t n, t.sessionIds = ["20260308-100000", "20260315-100000"] ∧ n = 1 ∧
      ∃ order, threeSessions.Ordered order ∧ t = threeSessions.without (expired 1 0 order "") := by
  have hruns : (runSessionRetention 1 0 threeSessions
      [.ordered ["20260308-100000", "20260301-100000"], .deleted .ok]).any (fun r ↦
        r.1.sessionIds = ["20260308-100000", "20260315-100000"] ∧ r.2 = 1) = true := by
    decide +kernel
  obtain ⟨⟨t, n⟩, hcall, htest⟩ := (Option.any_eq_true _ _).1 hruns
  obtain ⟨hids, hn⟩ := of_decide_eq_true htest
  have hcutoff : ∀ c, .cutoff c ∈ [.ordered ["20260308-100000", "20260301-100000"],
      RetentionAnswer.deleted .ok] → c = "" := by simp
  obtain ⟨hexact, -⟩ := retention_exact (by decide +kernel) rfl (by simp) hcutoff hcall
  obtain ⟨order, horder, ht, -⟩ := hexact rfl
  exact ⟨t, n, hids, hn, order, (horder (by decide)).1, ht⟩

end LiveSTT.SessionStore
