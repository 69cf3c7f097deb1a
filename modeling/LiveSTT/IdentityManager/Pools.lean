import LiveSTT.IdentityManager.Effects

/-!
# Where a published speaker comes from

identity-manager decides twice by a `source` field: the payload of an identity event decides which
pool the event is filed in, and the payload of a transcript decides which pool is searched. The two
decisions agree in every run: a final transcript is published with the speaker of an identity event
only if that event was filed before, in the pool of the transcript's source (`filed_of_published`).

Nothing here relates a pool to the lane an event came from. The payload is all the service looks at.

`Pooled` keeps beside the law that whatever a pool holds was filed there; the search looks at a pool
alone, so what it finds was filed. That the closest event is taken, and not the first, plays no
part.
-/

namespace LiveSTT.IdentityManager

open EventLog

/-! ### The law -/

/-- What an event refers to: an event is filed in the pool its payload selects, and a speaker is
taken from an event filed in the pool of the transcript's source. -/
def Grounded (log : List Event) : Event → Prop
  | .filed e pool => pool = poolOf (sourceOf e.data)
  | .published _ source _ (some e) => .filed e (poolOf source) ∈ log
  | _ => True

/-- The invariant: the law, and that the pools hold what was filed in them. -/
structure Pooled (s : State) : Prop where
  filed : ∀ pool, ∀ e ∈ s.pool pool, .filed e pool ∈ s.log
  grounded : Justified Grounded s.log

variable {fromisoformat : String → Option ℚ} {s t : State}

/-- A step that files nothing publishes speakers from the pools, and what these hold was filed. -/
theorem Pooled.of_unfiled (h : Pooled s) (ht : Unfiled s t) : Pooled t := by
  obtain ⟨es, hlog, hes⟩ := ht.log
  refine ⟨fun pool e he ↦ ht.log_extends.subset (h.filed pool e (ht.pool pool e he)), ?_⟩
  rw [hlog]
  refine h.grounded.append_of_forall fun pre hpre e he ↦ ?_
  obtain ⟨hfiling, hfrom⟩ := hes e he
  cases e with
  | filed e pool => nomatch hfiling
  | published msg source payload identity =>
    cases identity with
    | none => trivial
    | some e => exact hpre.subset (h.filed _ e hfrom)
  | _ => trivial

/-- A pool after filing: the event at its end, the other pool as it was. -/
theorem mem_pool_file {event e : IdentityEvent} {pool pool' : Lane}
    (h : e ∈ (s.file event pool).pool pool') : e ∈ s.pool pool' ∨ e = event ∧ pool' = pool := by
  cases pool <;> cases pool' <;> simp only [State.file, State.pool] at h ⊢
  · exact (mem_of_mem_boundedAppend h).imp_right fun he ↦ ⟨he, trivial⟩
  · exact Or.inl h
  · exact Or.inl h
  · exact (mem_of_mem_boundedAppend h).imp_right fun he ↦ ⟨he, trivial⟩

/-- An event is filed in the pool its lane goes to, and noted so. -/
theorem pooled_identityStep (h : Pooled s) (lane : Lane) (payload : Option Json) :
    Pooled (identityStep s lane payload) := by
  rw [identityStep.eq_def]
  split
  · refine ⟨fun pool e he ↦ ?_, ?_⟩
    · rw [State.log_file]
      rcases mem_pool_file he with hold | ⟨rfl, rfl⟩
      · exact List.mem_append_left _ (h.filed pool e hold)
      · exact List.mem_append_right _ (List.mem_singleton_self _)
    · rw [State.log_file]
      exact h.grounded.append_singleton rfl
  · exact h

/-- **The pools are what the log says**, in every run. -/
theorem pooled_inductive (fromisoformat : String → Option ℚ) :
    (system fromisoformat).Inductive TransitionSystem.always Pooled where
  init s hs := by
    obtain rfl : s = {} := hs
    exact ⟨fun pool ↦ by cases pool <;> exact nofun, justified_nil⟩
  step := by
    intro s a t h _ ht
    have hstep : IdentityManager.step fromisoformat s a = some t := ht
    cases a with
    | identity lane payload =>
      obtain ⟨-, hfile⟩ := Option.ite_none_right_eq_some.1 hstep
      obtain rfl := Option.some.inj hfile
      exact pooled_identityStep h lane payload
    | _ => exact h.of_unfiled (unfiled_step rfl hstep)

/-- An identity event is filed where its payload says. -/
theorem pool_of_filed (h : (system fromisoformat).Reachable TransitionSystem.always s)
    {e : IdentityEvent} {pool : Lane} (hfiled : .filed e pool ∈ s.log) :
    pool = poolOf (sourceOf e.data) := by
  obtain ⟨pre, post, hlog⟩ := List.append_of_mem hfiled
  exact ((pooled_inductive fromisoformat).reachable h).grounded hlog

/-- A published speaker comes from an event filed in the pool of the transcript's source. -/
theorem filed_of_published (h : (system fromisoformat).Reachable TransitionSystem.always s)
    {msg : ℕ} {source : Json} {payload : Dict} {e : IdentityEvent}
    (hpub : .published msg source payload (some e) ∈ s.log) : .filed e (poolOf source) ∈ s.log := by
  obtain ⟨pre, post, hlog⟩ := List.append_of_mem hpub
  have hpre : .filed e (poolOf source) ∈ pre :=
    ((pooled_inductive fromisoformat).reachable h).grounded hlog
  rw [hlog]
  exact List.mem_append_left _ hpre

end LiveSTT.IdentityManager
