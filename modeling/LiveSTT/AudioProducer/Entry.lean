import LiveSTT.AudioProducer.Refinement

/-!
# The KV entry, as audio-producer writes it

The entry `current` of the KV is written by audio-producer and, as the api-gateway renames sessions,
by others. Two facts about audio-producer's own steps are needed there. A step leaves the entry as
it is or writes it, and its writes are what the trace records (`entry_step`). And when its deletes
take effect, an idle producer has left no entry behind (`unclaimed_step`).

Both speak of one step from any state: between two steps of audio-producer others may have written.

The first is one about the recorder of sessions, where a write of the record is a mark in the log
(`Written`), and so is what a stop does to it (`Cleans`). A boot is a case of its own in the second:
it recovers an entry that is active and passes over any other (`unclaimed_boot`).
-/

namespace LiveSTT.Sessions

variable {ι ε κ : Type*}

/-- What a mark says was written: a record, or nothing in its place. -/
def Mark.write : Mark ι ε → Option (Option ε)
  | .put r => some (some r)
  | .idled true => some none
  | _ => none

/-- The writes of the record, in order. -/
def State.writes (v : State ι ε κ) : List (Option ε) := v.log.filterMap Mark.write

/-- Between two states the record is written as the log says, and the records put satisfy `P`. -/
def Written (P : ε → Prop) (v w : State ι ε κ) : Prop :=
  ∃ W, w.writes = v.writes ++ W ∧ w.record = W.getLast?.getD v.record ∧ ∀ r, some r ∈ W → P r

section Written

variable {P : ε → Prop} {u v w : State ι ε κ}

theorem Written.refl (v : State ι ε κ) : Written P v v :=
  ⟨[], (List.append_nil _).symm, rfl, by simp⟩

theorem Written.trans (h₁ : Written P u v) (h₂ : Written P v w) : Written P u w := by
  obtain ⟨W₁, hlog₁, hrecord₁, hP₁⟩ := h₁
  obtain ⟨W₂, hlog₂, hrecord₂, hP₂⟩ := h₂
  refine ⟨W₁ ++ W₂, by rw [hlog₂, hlog₁, List.append_assoc], ?_, fun r hr ↦ ?_⟩
  · rw [hrecord₂, hrecord₁, List.getLast?_append]
    cases W₂.getLast? <;> rfl
  · exact (List.mem_append.1 hr).elim (hP₁ r) (hP₂ r)

/-- Appended marks that write nothing. -/
theorem Written.of_quiet {E : List (Mark ι ε)} (hlog : w.log = v.log ++ E)
    (hE : ∀ m ∈ E, m.write = none) (hrecord : w.record = v.record) : Written P v w := by
  refine ⟨[], ?_, hrecord, by simp⟩
  rw [State.writes, hlog, List.filterMap_append, List.filterMap_eq_nil_iff.2 hE]
  rfl

/-- An appended mark that writes the record. -/
theorem Written.of_write {m : Mark ι ε} {x : Option ε} (hlog : w.log = v.log ++ [m])
    (hm : m.write = some x) (hrecord : w.record = x) (hP : ∀ r, x = some r → P r) :
    Written P v w := by
  refine ⟨[x], ?_, hrecord, fun r hr ↦ hP r (List.mem_singleton.1 hr).symm⟩
  rw [State.writes, hlog, List.filterMap_append, List.filterMap_cons_some hm]
  rfl

/-- An act writes the record as it notes in the log; only a put needs a reason. -/
theorem written_next [DecidableEq κ] {a : Act ι ε κ} (hput : ∀ r, a = .put r → P r) :
    Written P v (next v a) := by
  have hsame : (next v a).log = v.log → (next v a).record = v.record → Written P v (next v a) :=
    fun hlog ↦ Written.of_quiet (hlog.trans (List.append_nil _).symm) (by simp)
  cases a with
  | resume id => exact Written.of_quiet rfl (by simp [Mark.write]) rfl
  | crash lost => exact Written.of_quiet rfl (by simp [Mark.write]) rfl
  | begin id => exact Written.of_quiet rfl (by simp [Mark.write]) rfl
  | put r =>
    refine Written.of_write (m := .put r) rfl rfl rfl fun r' hr ↦ hput r' ?_
    exact congrArg Act.put (Option.some.inj hr)
  | idle k captured cleared =>
    cases cleared with
    | false => exact Written.of_quiet (E := [.idled false]) rfl (by simp [Mark.write]) rfl
    | true => exact Written.of_write (m := .idled true) rfl rfl rfl (by simp)
  | finish k captured cleared => exact Written.of_quiet rfl (by simp [Mark.write]) rfl
  | lose i id => exact Written.of_quiet rfl (by simp [Mark.write]) rfl
  | _ => exact hsame rfl rfl

end Written

/-- A recorder that is up and has neither a session nor a start that puts one has no record. -/
def Unclaimed (v : State ι ε κ) : Prop :=
  v.up = true → v.active = none → (∀ id, v.start ≠ .putting id) → v.record = none

/-- Between two states the log grows and, if every stop that made the recorder idle in between
cleared the record, nothing is left behind. -/
def Cleans (v w : State ι ε κ) : Prop :=
  ∃ E, w.log = v.log ++ E ∧ (.idled false ∉ E → Unclaimed v → Unclaimed w)

theorem Cleans.refl (v : State ι ε κ) : Cleans v v :=
  ⟨[], (List.append_nil _).symm, fun _ h ↦ h⟩

theorem Cleans.trans {u v w : State ι ε κ} (h₁ : Cleans u v) (h₂ : Cleans v w) : Cleans u w := by
  obtain ⟨E₁, hlog₁, hclean₁⟩ := h₁
  obtain ⟨E₂, hlog₂, hclean₂⟩ := h₂
  refine ⟨E₁ ++ E₂, by rw [hlog₂, hlog₁, List.append_assoc], fun hE h ↦ ?_⟩
  rw [List.mem_append, not_or] at hE
  exact hclean₂ hE.2 (hclean₁ hE.1 h)

/-- Every step but a boot. -/
theorem cleans_next [DecidableEq κ] {idOf : ε → ι} {v : State ι ε κ} {a : Act ι ε κ}
    (hE : Enabled idOf v a) (hboot : a ≠ .boot) : Cleans v (next v a) := by
  cases a with
  | boot => exact absurd rfl hboot
  | resume id => exact ⟨_, rfl, fun _ _ _ hnone ↦ nomatch hnone⟩
  | crash lost => exact ⟨_, rfl, fun _ _ hup ↦ nomatch hup⟩
  | begin id => exact ⟨_, rfl, fun _ _ _ _ hstart ↦ absurd rfl (hstart id)⟩
  | put r => exact ⟨_, rfl, fun _ _ _ _ hstart ↦ absurd hE.2 (hstart (idOf r))⟩
  | activate id =>
    exact ⟨[], (List.append_nil _).symm, fun _ _ _ hnone ↦ nomatch hnone⟩
  | spawn id =>
    refine ⟨[], (List.append_nil _).symm, fun _ h hup hnone _ ↦ h hup hnone fun id' hput ↦ ?_⟩
    nomatch hput.symm.trans hE.2
  | idle k captured cleared =>
    refine ⟨_, rfl, fun hE _ _ _ _ ↦ ?_⟩
    cases cleared with
    | false => exact absurd (List.mem_singleton_self _) hE
    | true => rfl
  | finish k captured cleared => exact ⟨_, rfl, fun _ h ↦ h⟩
  | lose i id => exact ⟨_, rfl, fun _ h ↦ h⟩
  | _ => exact ⟨[], (List.append_nil _).symm, fun _ h ↦ h⟩

end LiveSTT.Sessions

namespace LiveSTT.AudioProducer

/-- The part of an entry that says which session is active. -/
def KvEntry.identity (entry : KvEntry) : String × SessionId := (entry.state, entry.sessionId)

/-- What a trace event says was written to the entry. -/
def Event.write : Event → Option (Option KvEntry)
  | .kvPut entry => some (some entry)
  | .idled _ _ _ true => some none
  | _ => none

/-- The puts and deletes of the entry, in order. -/
def State.writes (s : State) : List (Option KvEntry) := s.trace.filterMap Event.write

theorem writes_sessions (s : State) : s.sessions.writes = s.writes := by
  show (s.trace.filterMap Event.mark).filterMap Sessions.Mark.write = _
  rw [List.filterMap_filterMap]
  refine congrArg (List.filterMap · s.trace) (funext fun e ↦ ?_)
  cases e with
  | idled _ _ _ cleared => cases cleared <;> rfl
  | _ => rfl

section Step

variable {below : Bytes → Bool} {s t : State} {a : Action}

/-- **A step writes the entry as its trace says**, and otherwise leaves it as it is. The entries it
puts are active. -/
theorem entry_step (ht : step below s a = some t) :
    ∃ W, t.writes = s.writes ++ W ∧ t.broker.current = W.getLast?.getD s.broker.current ∧
      ∀ entry, some entry ∈ W → entry.state = "active" := by
  obtain ⟨bs, hbs⟩ := records_step ht
  have hwritten : Sessions.Written (fun entry ↦ entry.state = "active") s.sessions t.sessions :=
    hbs.relates Sessions.Written.refl Sessions.Written.trans fun {_ b _} ho hstep ↦ by
      obtain ⟨-, rfl⟩ := Sessions.step_eq_some_iff.1 hstep
      refine Sessions.written_next ?_
      rintro r rfl
      exact ho
  rw [← writes_sessions, ← writes_sessions]
  exact hwritten

/-- An idle producer has no entry. -/
def State.Unclaimed (s : State) : Prop :=
  s.up = true → s.mem.sessionId = none → (∀ id, s.ctrl.start ≠ .putting id) →
    s.broker.current = none

/-- A delete of the entry failed, or there was no handle to delete it with. -/
def Event.deleteFailed : Event → Bool
  | .idled _ _ _ cleared => !cleared
  | _ => false

/-- **Going idle leaves no entry**, if no delete fails. -/
theorem unclaimed_step (h : s.Unclaimed) (hboot : a.isBoot = false) (ht : step below s a = some t)
    (hdeletes : ∀ e ∈ t.trace, e.deleteFailed = false) : t.Unclaimed := by
  obtain ⟨bs, hbs⟩ := records_step ht
  have hcleans : Sessions.Cleans s.sessions t.sessions :=
    hbs.relates Sessions.Cleans.refl Sessions.Cleans.trans fun {_ b _} ho hstep ↦ by
      obtain ⟨hE, rfl⟩ := Sessions.step_eq_some_iff.1 hstep
      refine Sessions.cleans_next hE ?_
      rintro rfl
      nomatch hboot.symm.trans ho
  obtain ⟨E, hlog, hclean⟩ := hcleans
  refine hclean (fun hE ↦ ?_) h
  have hmem : .idled false ∈ t.sessions.log := hlog ▸ List.mem_append_right _ hE
  obtain ⟨e, he, hmark⟩ := List.mem_filterMap.1 hmem
  cases e with
  | idled captured was deleted cleared =>
    obtain rfl : cleared = false := Sessions.Mark.idled.inj (Option.some.inj hmark)
    nomatch hdeletes _ he
  | _ => nomatch hmark

/-- A boot recovers an active entry, so that it is no idle producer's. -/
theorem unclaimed_boot (hactive : ∀ entry, s.broker.current = some entry → entry.state = "active")
    (configKv : Bool) : (boot s true configKv false).Unclaimed := by
  rw [boot, recoverSession.eq_def]
  split
  · rename_i entry hentry
    rw [if_pos ⟨rfl, by simp, hactive entry hentry⟩]
    exact fun _ hnone ↦ by cases hnone
  · rename_i hentry
    exact fun _ _ _ ↦ hentry

end Step

end LiveSTT.AudioProducer
