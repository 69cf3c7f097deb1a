import Mathlib.Data.List.Induction

/-!
# Event logs

A log is a list of events that only grows at its end. Two ways of reading one:

* `Justified J log` — every event is justified by the events **before** it. This is the shape of
  "an acknowledgement only after a successful send" and of every other law about the order of
  events. A log stays justified when the appended events are, so a law about whole runs is checked
  one step at a time (`Justified.append_singleton`).
* `story about d log` — what the log says about one subject `d`, in order. Appending events about
  other subjects does not change it (`story_append`, `story_cons`).
-/

namespace EventLog

variable {ε ι κ : Type*}

/-! ### Justified logs -/

/-- Every event of the log is justified by the events before it. -/
def Justified (J : List ε → ε → Prop) (log : List ε) : Prop :=
  ∀ ⦃pre e post⦄, log = pre ++ e :: post → J pre e

variable {J : List ε → ε → Prop}

theorem justified_nil : Justified J [] := by
  intro pre e post h
  simp at h

/-- An occurrence in a longer log is the new event, or was there before. -/
theorem eq_or_of_append_singleton_eq {log : List ε} {e e' : ε} {pre post : List ε}
    (h : log ++ [e] = pre ++ e' :: post) :
    (pre = log ∧ e' = e) ∨ ∃ post', log = pre ++ e' :: post' := by
  rcases List.eq_nil_or_concat post with rfl | ⟨post', a, rfl⟩
  · obtain ⟨hlog, he⟩ := List.append_inj' h rfl
    exact Or.inl ⟨hlog.symm, (List.singleton_inj.1 he).symm⟩
  · rw [List.concat_eq_append, ← List.cons_append, ← List.append_assoc] at h
    exact Or.inr ⟨post', (List.append_inj' h rfl).1⟩

/-- An occurrence in an extended log was there before, or is among the new events. -/
theorem split_append {log es pre post : List ε} {e : ε} (h : log ++ es = pre ++ e :: post) :
    (∃ post', log = pre ++ e :: post' ∧ post = post' ++ es) ∨
      ∃ pre', pre = log ++ pre' ∧ es = pre' ++ e :: post := by
  rcases List.append_eq_append_iff.1 h with ⟨pre', hpre, hes⟩ | ⟨rest, hlog, hes⟩
  · exact Or.inr ⟨pre', hpre, hes⟩
  · cases rest with
    | nil => exact Or.inr ⟨[], by rw [hlog, List.append_nil, List.append_nil], hes.symm⟩
    | cons e' rest =>
      rw [List.cons_append, List.cons.injEq] at hes
      obtain ⟨rfl, hes⟩ := hes
      exact Or.inl ⟨rest, hlog, hes⟩

/-- A log is justified as it grows: the new event by what is before it. -/
theorem justified_append_singleton {log : List ε} {e : ε} :
    Justified J (log ++ [e]) ↔ Justified J log ∧ J log e := by
  constructor
  · intro h
    refine ⟨fun pre e' post hlog ↦ ?_, h rfl⟩
    have hlonger : log ++ [e] = pre ++ e' :: (post ++ [e]) := by
      rw [hlog, List.append_assoc, List.cons_append]
    exact h hlonger
  · rintro ⟨hlog, he⟩ pre e' post h
    rcases eq_or_of_append_singleton_eq h with ⟨rfl, rfl⟩ | ⟨post', h'⟩
    · exact he
    · exact hlog h'

/-- **One step.** A justified log stays justified when the new event is justified by it. -/
theorem Justified.append_singleton {log : List ε} {e : ε} (h : Justified J log) (he : J log e) :
    Justified J (log ++ [e]) :=
  justified_append_singleton.2 ⟨h, he⟩

/-- Appending events that any longer log justifies. -/
theorem Justified.append_of_forall {log es : List ε} (h : Justified J log)
    (hes : ∀ pre, log <+: pre → ∀ e ∈ es, J pre e) : Justified J (log ++ es) := by
  induction es using List.reverseRecOn with
  | nil => rwa [List.append_nil]
  | append_singleton es e ih =>
    rw [← List.append_assoc]
    refine (ih fun pre hpre e' he' ↦ hes pre hpre e' ?_).append_singleton ?_
    · exact List.mem_append_left _ he'
    · exact hes _ (List.prefix_append _ _) e (List.mem_append_right _ (List.mem_singleton_self _))

/-- The event of a call that may have had no effect. -/
theorem mem_ite_singleton {b : Prop} [Decidable b] {e e' : ε} :
    e ∈ (if b then [e'] else []) ↔ b ∧ e = e' := by
  by_cases hb : b <;> simp [hb]

/-! ### The story of one subject -/

/-- What a log says about the subject `d`, where `about e` is the subject and the content of the
event `e`, if it has one. -/
def story [DecidableEq ι] (about : ε → Option (ι × κ)) (d : ι) (log : List ε) : List κ :=
  log.filterMap fun e ↦ (about e).bind fun p ↦ if p.1 = d then some p.2 else none

variable [DecidableEq ι] {about : ε → Option (ι × κ)} {d : ι}

@[simp] theorem story_nil : story about d [] = [] := rfl

@[simp] theorem story_append (log es : List ε) :
    story about d (log ++ es) = story about d log ++ story about d es :=
  List.filterMap_append

theorem story_cons (e : ε) (es : List ε) :
    story about d (e :: es) =
      match about e with
      | some (d', k) => if d' = d then k :: story about d es else story about d es
      | none => story about d es := by
  rcases h : about e with - | ⟨d', k⟩
  · simp [story, h]
  · by_cases hd : d' = d <;> simp [story, h, hd]

end EventLog
