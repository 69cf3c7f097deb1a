import Mathlib.Data.List.Nodup
import LiveSTT.SystemManager.Model

/-!
# Schedules fire at most once a day

A command is fired only when its key is not recorded, and its key is recorded with it. So what could
fire a command twice on a date is the pruning, which forgets keys between polls. It forgets the keys
that do not show the date of the poll; as long as the local date does not decrease, no later poll
makes one of these again (`pruned_is_past`).

The invariant says so of the last date alone: the commands published on a date that no poll has
passed still have their keys (`OncePerDay.recorded`). Times of day play no part in it.

The publishes may fail or not: a command that was tried is recorded either way, and is not tried
again. A restart forgets the keys, and begins a new life of the process: the law is one about a
life, as the record is.
-/

namespace LiveSTT.SystemManager

open Calendar TransitionSystem

/-! ### What was published -/

/-- The command an event publishes, with its schedule and date. -/
def Event.publication : Event → Option (Command × String × Date)
  | .published command id date _ => some (command, id, date)
  | _ => none

/-- The commands published so far, in order. -/
def State.publications (s : State) : List (Command × String × Date) :=
  s.log.filterMap Event.publication

section

variable {s t : State} {now : Reading} {dates : List Date}

@[simp] theorem publications_record (s : State) (key value : String) :
    (s.record key value).publications = s.publications := rfl

theorem publications_logs (s : State) (es : List Event) :
    (s.logs es).publications = s.publications ++ es.filterMap Event.publication :=
  List.filterMap_append

/-- Firing the command publishes it. -/
def Fetched.publishes (x : Fetched) : Command → Bool
  | .start => x.start.applied
  | .stop => x.sched.policy ≠ "soft" && x.stop.applied

/-- What firing a command publishes. -/
theorem publications_fire (s : State) (command : Command) (x : Fetched) (now : Reading) :
    (fire s command x now).publications = s.publications ++
      if x.publishes command = true then [(command, x.sched.id, now.date)] else [] := by
  have hpublish (payload : Dict) (r : Reply) :
      (publish s command x.sched now payload r).publications = s.publications ++
        if r.applied = true then [(command, x.sched.id, now.date)] else [] := by
    rw [publish, publications_logs, publications_logs]
    cases r <;> simp [Reply.applied, Reply.raised, Event.publication]
  cases command with
  | start => exact hpublish _ _
  | stop =>
    simp only [fire, fireStop, Fetched.publishes]
    split
    · rename_i hsoft
      simp [publications_logs, hsoft, Event.publication]
    · rename_i hhard
      simpa [hhard] using hpublish [("command", .str "stop")] x.stop

/-! ### The invariant -/

/-- The invariant, after polls on the dates `dates`. -/
structure OncePerDay (dates : List Date) (s : State) : Prop where
  once : s.publications.Nodup
  published : ∀ c id d, (c, id, d) ∈ s.publications → d ∈ dates
  keyed : ∀ k ∈ s.keys, ∃ c id, ∃ d ∈ dates, k = fireKey c id d
  recorded : ∀ c id d, (c, id, d) ∈ s.publications → (∀ e ∈ dates, e ≤ d) → fireKey c id d ∈ s.keys

/-- The clock is read. -/
theorem OncePerDay.poll (h : OncePerDay dates s) (now : Reading) :
    OncePerDay (dates ++ [now.date]) s := by
  refine ⟨h.once, fun c id d hmem ↦ List.mem_append_left _ (h.published c id d hmem),
    fun k hk ↦ ?_, fun c id d hmem hlast ↦ ?_⟩
  · obtain ⟨c, id, d, hd, rfl⟩ := h.keyed k hk
    exact ⟨c, id, d, List.mem_append_left _ hd, rfl⟩
  · exact h.recorded c id d hmem fun e he ↦ hlast e (List.mem_append_left _ he)

/-- **One evaluation**, at a poll of today. -/
theorem OncePerDay.evaluated (h : OncePerDay dates s) (hnow : now.date ∈ dates)
    (hlast : ∀ e ∈ dates, e ≤ now.date) (ht : Evaluated now s t) : OncePerDay dates t := by
  cases ht with
  | idle => exact h
  | failed => exact ⟨h.once, h.published, h.keyed, h.recorded⟩
  | fired command x hdue =>
    obtain ⟨-, -, hkey⟩ := hdue
    have hkeyed : ∀ k ∈ s.keys ++ [fireKey command x.sched.id now.date],
        ∃ c id, ∃ d ∈ dates, k = fireKey c id d := by
      intro k hk
      rcases List.mem_append.1 hk with hk | hk
      · exact h.keyed k hk
      · exact ⟨command, x.sched.id, now.date, hnow, List.mem_singleton.1 hk⟩
    -- The key is new, so the command was not published today.
    have hnew : (command, x.sched.id, now.date) ∉ s.publications := fun hmem ↦
      hkey (h.recorded _ _ _ hmem hlast)
    have hpub := publications_fire s command x now
    by_cases hpublishes : x.publishes command = true
    · rw [if_pos hpublishes] at hpub
      refine ⟨?_, ?_, ?_, ?_⟩ <;> simp only [publications_record, hpub, keys_record, keys_fire]
      · exact List.nodup_append.2 ⟨h.once, List.nodup_singleton _, fun y hy z hz heq ↦
          hnew (List.mem_singleton.1 hz ▸ heq ▸ hy)⟩
      · intro c id d hmem
        rcases List.mem_append.1 hmem with hmem | hmem
        · exact h.published c id d hmem
        · obtain ⟨rfl, rfl, rfl⟩ : c = command ∧ id = x.sched.id ∧ d = now.date := by
            simpa using hmem
          exact hnow
      · exact hkeyed
      · intro c id d hmem hd
        rcases List.mem_append.1 hmem with hmem | hmem
        · exact List.mem_append_left _ (h.recorded c id d hmem hd)
        · obtain ⟨rfl, rfl, rfl⟩ : c = command ∧ id = x.sched.id ∧ d = now.date := by
            simpa using hmem
          exact List.mem_append_right _ (List.mem_singleton_self _)
    · rw [if_neg hpublishes, List.append_nil] at hpub
      refine ⟨?_, ?_, ?_, ?_⟩ <;> simp only [publications_record, hpub, keys_record, keys_fire]
      · exact h.once
      · exact h.published
      · exact hkeyed
      · exact fun c id d hmem hd ↦ List.mem_append_left _ (h.recorded c id d hmem hd)

/-- Pruning leaves the keys of the current date. -/
theorem mem_keys_prune {k : String} : k ∈ (prune s now).keys ↔
    k ∈ s.keys ∧ Text.contains k now.date.compact = true := by
  simp only [State.keys, prune, List.mem_map, List.mem_filter]
  constructor
  · rintro ⟨kv, ⟨hkv, hcontains⟩, rfl⟩
    exact ⟨⟨kv, hkv, rfl⟩, hcontains⟩
  · rintro ⟨⟨kv, hkv, rfl⟩, hcontains⟩
    exact ⟨kv, ⟨hkv, hcontains⟩, rfl⟩

/-- Pruning keeps the keys of today. -/
theorem OncePerDay.prune (h : OncePerDay dates s) (hnow : now.date ∈ dates)
    (hlast : ∀ e ∈ dates, e ≤ now.date) : OncePerDay dates (prune s now) := by
  refine ⟨h.once, h.published, fun k hk ↦ h.keyed k (mem_keys_prune.1 hk).1,
    fun c id d hmem hd ↦ mem_keys_prune.2 ⟨h.recorded c id d hmem hd, ?_⟩⟩
  obtain rfl : d = now.date := Date.le_antisymm (hlast d (h.published c id d hmem)) (hd _ hnow)
  exact contains_fireKey c id now.date

/-- The loop of a poll, up to its pruning. -/
theorem OncePerDay.evalAll (h : OncePerDay dates s) (hlast : ∀ e ∈ dates, e ≤ now.date)
    (xs : List Fetched) : OncePerDay (dates ++ [now.date]) (evalAll now s xs) := by
  have hnow : now.date ∈ dates ++ [now.date] := List.mem_append_right _ (List.mem_singleton_self _)
  have hlast' : ∀ e ∈ dates ++ [now.date], e ≤ now.date := by
    intro e he
    rcases List.mem_append.1 he with he | he
    · exact hlast e he
    · exact List.mem_singleton.1 he ▸ Date.le_refl _
  exact evalAll_invariant (fun hs ht ↦ hs.evaluated hnow hlast' ht) (h.poll now)

/-- **One poll**, on a date no earlier than those before. -/
theorem OncePerDay.checkSchedules {p : Poll} (h : OncePerDay dates s)
    (hlast : ∀ e ∈ dates, e ≤ p.now.date) :
    OncePerDay (dates ++ [p.now.date]) (checkSchedules s p) := by
  rw [SystemManager.checkSchedules]
  split
  · exact h.poll p.now
  · rename_i xs _
    have heval := h.evalAll hlast xs
    split
    · exact heval
    · refine heval.prune (List.mem_append_right _ (List.mem_singleton_self _)) fun e he ↦ ?_
      rcases List.mem_append.1 he with he | he
      · exact hlast e he
      · exact List.mem_singleton.1 he ▸ Date.le_refl _

/-! ### Runs -/

/-- The dates of the polls. -/
def pollDates (ps : List Poll) : List Date :=
  ps.map fun p ↦ p.now.date

/-- Along a run whose dates do not go back. -/
theorem oncePerDay_of_run {ps : List Poll} (hinit : system.init s)
    (hrun : system.Run always s ps t) (hdates : (pollDates ps).Pairwise (· ≤ ·)) :
    OncePerDay (pollDates ps) t := by
  induction hrun with
  | nil =>
    obtain rfl : s = {} := hinit
    exact ⟨List.nodup_nil, by simp [State.publications], by simp [State.keys],
      by simp [State.publications]⟩
  | @snoc ps p t u _ _ hstep ih =>
    obtain ⟨-, hu⟩ := Option.ite_none_left_eq_some.1 hstep
    obtain rfl := Option.some.inj hu
    rw [pollDates, List.map_append] at hdates ⊢
    obtain ⟨hbefore, -, hlater⟩ := List.pairwise_append.1 hdates
    exact (ih hbefore).checkSchedules fun e he ↦ hlater e he _ (List.mem_singleton_self _)

/-- A key that a poll prunes is a key of no date from then on. -/
theorem pruned_is_past {p : Poll} {xs : List Fetched} (h : OncePerDay dates s)
    (hlast : ∀ e ∈ dates, e ≤ p.now.date) (hxs : p.schedules = some xs) {k : String}
    (hk : k ∈ (evalAll p.now s xs).keys) (hpruned : k ∉ (checkSchedules s p).keys) (c : Command)
    (id : String) {d : Date} (hd : p.now.date ≤ d) : k ≠ fireKey c id d := by
  rintro rfl
  obtain ⟨c', id', d', hd', heq⟩ := (h.evalAll hlast xs).keyed _ hk
  obtain ⟨-, -, rfl⟩ := fireKey_injective heq
  have hle : d ≤ p.now.date := by
    rcases List.mem_append.1 hd' with hd' | hd'
    · exact hlast d hd'
    · exact List.mem_singleton.1 hd' ▸ Date.le_refl _
  obtain rfl := Date.le_antisymm hle hd
  simp only [checkSchedules, hxs] at hpruned
  split at hpruned
  · exact hpruned hk
  · exact hpruned (mem_keys_prune.2 ⟨hk, contains_fireKey c id _⟩)

/-- **Schedules fire at most once a day.** In every run of polls whose local dates do not decrease,
for every schedule and date each command is published at most once; and in the next poll, a key that
pruning removes is one that no poll of that date or a later one looks up. -/
theorem once_per_day {ps : List Poll} (hinit : system.init s) (hrun : system.Run always s ps t)
    (hdates : (pollDates ps).Pairwise (· ≤ ·)) :
    (∀ c id d, t.publications.count (c, id, d) ≤ 1) ∧
      ∀ p xs, (∀ e ∈ pollDates ps, e ≤ p.now.date) → p.schedules = some xs →
        ∀ k ∈ (evalAll p.now t xs).keys, k ∉ (checkSchedules t p).keys →
          ∀ c id d, p.now.date ≤ d → k ≠ fireKey c id d := by
  have h := oncePerDay_of_run hinit hrun hdates
  refine ⟨fun c id d ↦ List.nodup_iff_count_le_one.1 h.once _, ?_⟩
  intro p xs hlast hxs k hk hpruned c id d hd
  exact pruned_is_past h hlast hxs hk hpruned c id hd

end

/-- A Sunday service, nine to half past ten. -/
def sunday : Schedule where
  id := "5f0c2a1b"
  dayOfWeek := some [0]
  startTime := "09:00"
  stopTime := "10:30"
  labelTemplate := some "Sunday Morning — {date}"
  stopPolicy := some "hard"

/-- A Sunday in March. -/
def sundayDate : Date := ⟨2026, 3, 29, by decide⟩

/-- A poll on that Sunday, which fetches one schedule. -/
def sundayPoll (hour minute : ℕ) (valid : hour < 24 ∧ minute < 60) (x : Fetched) : Poll where
  now := ⟨sundayDate, hour, minute, valid⟩
  schedules := some [x]

/-- Two polls in the window: the start is published by the first of them. -/
theorem once_per_day_twice :
    ∃ ps t, system.Run always {} ps t ∧ t.publications.map Prod.fst = [.start] ∧
      ∀ c id d, t.publications.count (c, id, d) ≤ 1 := by
  let ps : List Poll :=
    [sundayPoll 9 0 (by decide) ⟨sunday, .ok, .ok⟩, sundayPoll 9 1 (by decide) ⟨sunday, .ok, .ok⟩]
  obtain ⟨t, hrun, htest⟩ : ∃ t, system.Run always {} ps t ∧
      decide (t.publications.map Prod.fst = [.start]) = true :=
    Run.exists_of_exec (by decide +kernel)
  exact ⟨ps, t, hrun, of_decide_eq_true htest, (once_per_day rfl hrun (by decide +kernel)).1⟩

end LiveSTT.SystemManager
