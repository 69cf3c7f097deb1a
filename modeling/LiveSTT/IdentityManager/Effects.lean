import LiveSTT.IdentityManager.Model
import LiveSTT.Lib.EventLog

/-!
# What a step adds to the log

The one place that files an identity event is `_identity_subscriber`. Every other step extends the
log by events that file nothing, takes the speakers it publishes from the pools, and lets no pool
gain an event. `Unfiled` says so of two states, and is proved once for each function of the source;
the results about filings and about the order of the log are derived from it.

Events are appended, and none is ever taken back; so a fact about the log at one moment is one about
the log at all later moments. That is why the lemmas are stated with `Unfiled` between two states
and compose by transitivity.
-/

namespace LiveSTT.IdentityManager

open EventLog

/-! ### Matching returns an event of the pool -/

/-- The loop returns an event of the pool it goes through, or the one it started with. -/
theorem mem_of_closest {fromisoformat : String → Option ℚ} {ts : ℚ} {e : IdentityEvent} :
    ∀ {pool : List IdentityEvent} {best : Option IdentityEvent} {bestDiff : ℚ},
      closest fromisoformat ts pool best bestDiff = some e → e ∈ pool ∨ best = some e
  | [], _, _, h => Or.inr h
  | identity :: pool, best, bestDiff, h => by
    rw [closest] at h
    split at h
    · exact (mem_of_closest h).imp_left (List.mem_cons_of_mem _)
    · simp only at h
      split at h
      · rcases mem_of_closest h with hmem | hbest
        · exact Or.inl (List.mem_cons_of_mem _ hmem)
        · exact Or.inl (Option.some.inj hbest ▸ List.mem_cons_self)
      · exact (mem_of_closest h).imp_left (List.mem_cons_of_mem _)

/-- `_find_identity` returns an event of the pool the source selects. -/
theorem mem_pool_of_findIdentity {fromisoformat : String → Option ℚ} {s : State}
    {transcriptTs : Option Json} {source : Json} {e : IdentityEvent}
    (h : findIdentity fromisoformat s transcriptTs source = some e) :
    e ∈ s.pool (poolOf source) := by
  rw [findIdentity] at h
  split at h
  · nomatch h
  · exact (mem_of_closest h).resolve_right nofun

/-- So does the loop's decision to publish. -/
theorem mem_pool_of_verdict {fromisoformat : String → Option ℚ} {s : State} {now : ℚ} {p : Pending}
    {e : IdentityEvent} (h : verdict fromisoformat s now p = some (some e)) :
    e ∈ s.pool (poolOf (sourceOf p.data)) := by
  simp only [verdict] at h
  split at h
  · exact mem_pool_of_findIdentity (Option.some.inj h)
  · nomatch h

/-! ### Filings -/

/-- The filing an event records. -/
def Event.filing : Event → Option (IdentityEvent × Lane)
  | .filed event pool => some (event, pool)
  | _ => none

/-- The filings of a log, in order. -/
def filings (log : List Event) : List (IdentityEvent × Lane) :=
  log.filterMap Event.filing

/-- The filings are the filed events of the log. -/
theorem mem_filings {log : List Event} {e : IdentityEvent} {pool : Lane} :
    (e, pool) ∈ filings log ↔ .filed e pool ∈ log := by
  rw [filings, List.mem_filterMap]
  constructor
  · rintro ⟨e', he', h⟩
    cases e' <;> simp only [Event.filing, Option.some.injEq, Prod.mk.injEq, reduceCtorEq] at h
    obtain ⟨rfl, rfl⟩ := h
    exact he'
  · exact fun h ↦ ⟨_, h, rfl⟩

/-- The one place that files. -/
theorem filings_identityStep (s : State) (lane : Lane) (data : Dict) :
    filings (identityStep s lane (some (.obj data))).log =
      filings s.log ++ [(⟨lane, data⟩, poolOf (sourceOf data))] := by
  rw [identityStep, State.log_file, State.logs, filings, List.filterMap_append]
  rfl

/-! ### The steps that file nothing -/

/-- A published speaker is that of an event in the pool of the transcript's source. -/
def Event.FromPools (s : State) : Event → Prop
  | .published _ source _ (some e) => e ∈ s.pool (poolOf source)
  | _ => True

/-- No pool gains an event, and the log gains events that file nothing and take speakers from the
pools. -/
structure Unfiled (s t : State) : Prop where
  pool : ∀ lane, ∀ e ∈ t.pool lane, e ∈ s.pool lane
  log : ∃ es, t.log = s.log ++ es ∧ ∀ e ∈ es, e.filing = none ∧ e.FromPools s

/-- The actions that are no delivery of an identity event. -/
def Action.filesNothing : Action → Bool
  | .identity _ _ => false
  | _ => true

section Unfiled

variable {fromisoformat : String → Option ℚ} {s t : State}

theorem Unfiled.log_extends (h : Unfiled s t) : s.log <+: t.log := by
  obtain ⟨es, hlog, -⟩ := h.log
  exact ⟨es, hlog.symm⟩

theorem Unfiled.filings (h : Unfiled s t) : filings t.log = filings s.log := by
  obtain ⟨es, hlog, hes⟩ := h.log
  have hnil : es.filterMap Event.filing = [] :=
    List.filterMap_eq_nil_iff.2 fun e he ↦ (hes e he).1
  rw [IdentityManager.filings, hlog, List.filterMap_append, hnil, List.append_nil,
    IdentityManager.filings]

/-- A step that leaves the pools alone. -/
theorem Unfiled.of_log {es : List Event} (hlive : t.liveIdentities = s.liveIdentities)
    (hbackfill : t.backfillIdentities = s.backfillIdentities) (hlog : t.log = s.log ++ es)
    (hes : ∀ e ∈ es, e.filing = none ∧ e.FromPools s) : Unfiled s t := by
  refine ⟨fun lane e he ↦ ?_, es, hlog, hes⟩
  cases lane with
  | live => rwa [State.pool, hlive] at he
  | backfill => rwa [State.pool, hbackfill] at he

/-- A step that logs nothing either. -/
theorem Unfiled.of_unlogged (hlive : t.liveIdentities = s.liveIdentities)
    (hbackfill : t.backfillIdentities = s.backfillIdentities) (hlog : t.log = s.log) :
    Unfiled s t :=
  Unfiled.of_log hlive hbackfill (hlog.trans (List.append_nil _).symm) nofun

/-- The log of a call that may have had no effect. -/
theorem unfiled_of_applied {b : Bool} {e : Event} (he : e.filing = none ∧ e.FromPools s) :
    ∀ e' ∈ (if b then [e] else []), e'.filing = none ∧ e'.FromPools s := by
  intro e' he'
  obtain ⟨-, rfl⟩ := mem_ite_singleton.1 he'
  exact he

/-- The same, after an event that is logged in any case. -/
theorem unfiled_cons_of_applied {b : Bool} {e e' : Event} (he : e.filing = none ∧ e.FromPools s)
    (he' : e'.filing = none ∧ e'.FromPools s) :
    ∀ e'' ∈ e :: (if b then [e'] else []), e''.filing = none ∧ e''.FromPools s :=
  List.forall_mem_cons.2 ⟨he, unfiled_of_applied he'⟩

/-- The loop over the batch publishes speakers from the pools only. -/
theorem unfiled_nextItem {now : ℚ} {rest still : List Pending} (r : Reply) :
    Unfiled s (nextItem fromisoformat s now rest still r) := by
  rw [nextItem]
  split
  · exact Unfiled.of_unlogged rfl rfl rfl
  · rename_i item identity rest' still' hscan
    obtain ⟨-, -, -, hverdict⟩ := scan_publish hscan
    refine Unfiled.of_log rfl rfl rfl (unfiled_of_applied ⟨rfl, ?_⟩)
    cases identity with
    | none => trivial
    | some e => exact mem_pool_of_verdict hverdict

theorem unfiled_ack {now : ℚ} {item : Pending} {rest still : List Pending} (r : Reply) :
    Unfiled s (ack s now item rest still r) :=
  Unfiled.of_log rfl rfl rfl (unfiled_of_applied ⟨rfl, trivial⟩)

theorem unfiled_nak {now : ℚ} {item : Pending} {rest still : List Pending} (r : Reply) :
    Unfiled s (nak s now item rest still r) :=
  Unfiled.of_log rfl rfl rfl (unfiled_cons_of_applied ⟨rfl, trivial⟩ ⟨rfl, trivial⟩)

/-- A cycle works on the same pools, with the pending list taken out. -/
theorem unfiled_wake {now : ℚ} (r : Reply) : Unfiled s (wake fromisoformat s now r) := by
  have hwake : Unfiled { s with pending := [] } (wake fromisoformat s now r) := unfiled_nextItem r
  exact ⟨hwake.pool, hwake.log⟩

theorem unfiled_evictOldest (s : State) (r : Reply) : Unfiled s (evictOldest s r) := by
  rw [evictOldest.eq_def]
  split
  · exact Unfiled.of_unlogged rfl rfl rfl
  · exact Unfiled.of_log rfl rfl rfl (unfiled_cons_of_applied ⟨rfl, trivial⟩ ⟨rfl, trivial⟩)

theorem unfiled_receiveFinal (data : Dict) (now : ℚ) (r : Reply) :
    Unfiled s (receiveFinal s data now r) := by
  simp only [receiveFinal]
  split
  · have hevicted := unfiled_evictOldest (enqueue s data now) r
    exact ⟨hevicted.pool, hevicted.log⟩
  · exact Unfiled.of_unlogged rfl rfl rfl

/-- **Every step but the delivery of an identity event files nothing.** A restart loses the
pools. -/
theorem unfiled_step {a : Action} (ha : a.filesNothing = true)
    (ht : step fromisoformat s a = some t) : Unfiled s t := by
  cases stepped_of_step ht with
  | final => exact unfiled_receiveFinal _ _ _
  | interim => exact Unfiled.of_log rfl rfl rfl (unfiled_of_applied ⟨rfl, trivial⟩)
  | unreadable => exact Unfiled.of_unlogged rfl rfl rfl
  | evicted => exact Unfiled.of_unlogged rfl rfl rfl
  | forwarded => exact Unfiled.of_log rfl rfl rfl (unfiled_of_applied ⟨rfl, trivial⟩)
  | unforwarded => exact Unfiled.of_unlogged rfl rfl rfl
  | interimAcked => exact Unfiled.of_unlogged rfl rfl rfl
  | identity => contradiction
  | wake => exact unfiled_wake _
  | published => exact unfiled_ack _
  | unpublished => exact unfiled_nak _
  | acked => exact unfiled_nextItem _
  | unacked => exact unfiled_nak _
  | naked => exact unfiled_nextItem _
  | unnaked => exact Unfiled.of_unlogged rfl rfl rfl
  | restart =>
    refine ⟨fun lane ↦ ?_, [], (List.append_nil _).symm, nofun⟩
    cases lane <;> exact nofun

end Unfiled

end LiveSTT.IdentityManager
