import LiveSTT.AudioProducer.Refinement
import LiveSTT.Lib.EventLog

/-!
# A stopped session stays stopped

Once `_stop_session` has returned for a session, what can make the session active again? A start
that takes the same id, within the second the id resolves; and a recovery, if the delete of the KV
entry did not take effect, which `_stop_session` treats as non-fatal. There is nothing else:
whatever the loops, the crashes and the KV do, a stop that cleared the entry is final
(`stop_is_final`).

This is a property of the recorder of sessions, by an invariant about one session, `Settled`. Most
steps do not bring a session closer to being active, nor its record closer to being there
(`Settled.mono`), and each of the others is a case of its own.

`Settled` speaks of the starts by their count: of an id that was taken once, or is about to be. So
it holds before the session begins as well, and no other session matters to it. What has returned is
read off the log, so that the order of the stop and of what comes behind it is part of the
statement.
-/

namespace LiveSTT.Sessions

variable {ι ε κ : Type*}

/-- The identifier a start took. -/
def Mark.beganId : Mark ι ε → Option ι
  | .began id => some id
  | _ => none

/-- The identifiers starts took, one entry for each start. -/
def State.began (v : State ι ε κ) : List ι := v.log.filterMap Mark.beganId

/-- No stop has taken the session, and none has returned for it. -/
structure State.Unstopped (v : State ι ε κ) (id : ι) : Prop where
  stops : ∀ k idled, v.stops k ≠ some ⟨some id, idled⟩
  returned : ∀ cleared, .returned (some id) cleared ∉ v.log

/-- The session is neither active nor, if the record was cleared, in the record. -/
structure State.Gone (idOf : ε → ι) (v : State ι ε κ) (id : ι) (cleared : Bool) : Prop where
  active : v.active ≠ some id
  record : cleared = true → v.record.map idOf ≠ some id

/-- The invariant, for a session no two starts took the identifier of. -/
structure Settled [BEq ι] (idOf : ε → ι) (v : State ι ε κ) (id : ι) : Prop where
  fresh : id ∉ v.began → v.Gone idOf id true ∧ v.start ≠ .putting id ∧ v.Unstopped id
  putting : v.began.count id ≤ 1 → v.start = .putting id → v.active ≠ some id ∧ v.Unstopped id
  idled : v.began.count id ≤ 1 → ∀ k cleared, v.stops k = some ⟨some id, some cleared⟩ →
    v.Gone idOf id cleared
  returned : v.began.count id ≤ 1 → ∀ pre cleared post,
    v.log = pre ++ .returned (some id) cleared :: post →
      (v.active = some id → cleared = false ∧ .resumed id ∈ post) ∧
      (cleared = true → v.record.map idOf ≠ some id)

/-- A mark that is neither a start nor a return. -/
def Mark.quiet : Mark ι ε → Bool
  | .began _ => false
  | .returned _ _ => false
  | _ => true

theorem began_append {v w : State ι ε κ} {E : List (Mark ι ε)} (hlog : w.log = v.log ++ E) :
    w.began = v.began ++ E.filterMap Mark.beganId := by
  rw [State.began, hlog, List.filterMap_append, State.began]

theorem began_eq_of_quiet {v w : State ι ε κ} {E : List (Mark ι ε)} (hlog : w.log = v.log ++ E)
    (hE : ∀ m ∈ E, m.quiet = true) : w.began = v.began := by
  have hnil : E.filterMap Mark.beganId = [] := by
    refine List.filterMap_eq_nil_iff.2 fun m hm ↦ ?_
    have hquiet := hE m hm
    cases m <;> first | rfl | nomatch hquiet
  rw [began_append hlog, hnil, List.append_nil]

/-- A stop after an update is the new one, or was there before. -/
theorem eq_of_update [DecidableEq κ] {stops : κ → Option (Stop ι)} {k k' : κ}
    {x y : Option (Stop ι)} (h : Function.update stops k x k' = y) : x = y ∨ stops k' = y := by
  rcases eq_or_ne k' k with rfl | hk
  · exact Or.inl (by rwa [Function.update_self] at h)
  · exact Or.inr (by rwa [Function.update_of_ne hk] at h)

section Settled

variable [BEq ι] {idOf : ε → ι} {v w : State ι ε κ} {id : ι}

namespace Settled

/-- A step that makes no session active, puts no record, starts and stops nothing. -/
theorem mono (h : Settled idOf v id) {E : List (Mark ι ε)}
    (hactive : w.active = some id → v.active = some id)
    (hrecord : w.record.map idOf = some id → v.record.map idOf = some id)
    (hstart : w.start = .putting id → v.start = .putting id)
    (hstops : ∀ k idled, w.stops k = some ⟨some id, idled⟩ → v.stops k = some ⟨some id, idled⟩)
    (hlog : w.log = v.log ++ E) (hE : ∀ m ∈ E, m.quiet = true) : Settled idOf w id := by
  have hbegan : w.began = v.began := began_eq_of_quiet hlog hE
  have hun : v.Unstopped id → w.Unstopped id := by
    refine fun hun ↦ ⟨fun k idled hk ↦ hun.stops k idled (hstops k idled hk), fun cleared hmem ↦ ?_⟩
    rw [hlog, List.mem_append] at hmem
    rcases hmem with hmem | hmem
    · exact hun.returned cleared hmem
    · nomatch hE _ hmem
  have hgone : ∀ cleared, v.Gone idOf id cleared → w.Gone idOf id cleared := fun cleared hgone ↦
    ⟨fun ha ↦ hgone.active (hactive ha), fun hc hr ↦ hgone.record hc (hrecord hr)⟩
  refine ⟨?_, ?_, ?_, ?_⟩
  · rw [hbegan]
    intro hfresh
    obtain ⟨hg, hs, hu⟩ := h.fresh hfresh
    exact ⟨hgone true hg, fun hput ↦ hs (hstart hput), hun hu⟩
  · rw [hbegan]
    intro honce hput
    obtain ⟨ha, hu⟩ := h.putting honce (hstart hput)
    exact ⟨fun hact ↦ ha (hactive hact), hun hu⟩
  · rw [hbegan]
    exact fun honce k cleared hk ↦ hgone cleared (h.idled honce k cleared (hstops k _ hk))
  · rw [hbegan, hlog]
    intro honce pre cleared post hsplit
    rcases EventLog.split_append hsplit with ⟨post', hold, rfl⟩ | ⟨pre', -, hnew⟩
    · obtain ⟨hactive', hrecord'⟩ := h.returned honce pre cleared post' hold
      refine ⟨fun ha ↦ ?_, fun hc hr ↦ hrecord' hc (hrecord hr)⟩
      obtain ⟨hc, hres⟩ := hactive' (hactive ha)
      exact ⟨hc, List.mem_append_left _ hres⟩
    · exact absurd (hE (.returned (some id) cleared) (by simp [hnew])) (by simp [Mark.quiet])

/-- A recovery. Nothing is in progress, and the record names the session. -/
theorem resume (h : Settled idOf v id) {id' : ι} (hrecord : v.record.map idOf = some id')
    (hstart : v.start = .none) (hstops : ∀ k, v.stops k = none) :
    Settled idOf { v with active := some id', log := v.log ++ [.resumed id'] } id := by
  have hbegan : State.began
    { v with active := some id', log := v.log ++ [.resumed id'] } = v.began :=
    began_eq_of_quiet rfl (by simp [Mark.quiet])
  refine ⟨?_, ?_, ?_, ?_⟩
  · rw [hbegan]
    intro hfresh
    obtain ⟨hg, -, hu⟩ := h.fresh hfresh
    have hne : some id' ≠ some id := hrecord ▸ hg.record rfl
    refine ⟨⟨hne, hg.record⟩, by simp [hstart], ⟨hu.stops, fun cleared hmem ↦ ?_⟩⟩
    exact hu.returned cleared (by simpa using hmem)
  · exact fun _ hput ↦ (nomatch hstart.symm.trans hput)
  · exact fun _ k cleared hk ↦ (nomatch (hstops k).symm.trans hk)
  · rw [hbegan]
    intro honce pre cleared post hsplit
    rcases EventLog.split_append hsplit with ⟨post', hold, rfl⟩ | ⟨pre', -, hnew⟩
    · -- The record names the session, so the stop that returned had not cleared it.
      obtain ⟨-, hrecord'⟩ := h.returned honce pre cleared post' hold
      refine ⟨fun ha ↦ ⟨?_, ?_⟩, hrecord'⟩
      · rw [show some id' = some id from ha] at hrecord
        cases cleared with
        | false => rfl
        | true => exact absurd hrecord (hrecord' rfl)
      · rw [Option.some.inj ha]
        simp
    · cases pre' <;> simp at hnew

/-- A start takes an identifier. -/
theorem begin [LawfulBEq ι] (h : Settled idOf v id) (id' : ι) :
    Settled idOf { v with start := .putting id', log := v.log ++ [.began id'] } id := by
  have hbegan : State.began { v with start := .putting id', log := v.log ++ [.began id'] } =
      v.began ++ [id'] := began_append (E := [.began id']) rfl
  have hun : v.Unstopped id →
      State.Unstopped { v with start := .putting id', log := v.log ++ [.began id'] } id :=
    fun hun ↦ ⟨hun.stops, fun cleared hmem ↦ hun.returned cleared (by simpa using hmem)⟩
  have hold : (v.began ++ [id']).count id ≤ 1 → v.began.count id ≤ 1 := by
    rw [List.count_append]
    omega
  refine ⟨?_, ?_, ?_, ?_⟩
  · rw [hbegan]
    intro hfresh
    obtain ⟨hg, -, hu⟩ := h.fresh fun hmem ↦ hfresh (List.mem_append_left _ hmem)
    refine ⟨⟨hg.active, hg.record⟩, fun hput ↦ hfresh ?_, hun hu⟩
    rw [Sessions.Start.putting.inj hput]
    simp
  · rw [hbegan]
    intro honce hput
    -- The identifier is taken by this start alone, so no earlier one took it.
    obtain rfl := Sessions.Start.putting.inj hput
    rw [List.count_append, List.count_singleton_self] at honce
    have hfresh : id' ∉ v.began := List.count_eq_zero.1 (by omega)
    obtain ⟨hg, -, hu⟩ := h.fresh hfresh
    exact ⟨hg.active, hun hu⟩
  · rw [hbegan]
    exact fun honce k cleared hk ↦
      ⟨(h.idled (hold honce) k cleared hk).active, (h.idled (hold honce) k cleared hk).record⟩
  · rw [hbegan]
    intro honce pre cleared post hsplit
    rcases EventLog.split_append hsplit with ⟨post', hlog, rfl⟩ | ⟨pre', -, hnew⟩
    · obtain ⟨hactive, hrecord⟩ := h.returned (hold honce) pre cleared post' hlog
      refine ⟨fun ha ↦ ?_, hrecord⟩
      exact ⟨(hactive ha).1, List.mem_append_left _ (hactive ha).2⟩
    · cases pre' <;> simp at hnew

/-- A start puts its record. -/
theorem put (h : Settled idOf v id) {r : ε} (hstart : v.start = .putting (idOf r)) :
    Settled idOf { v with record := some r, log := v.log ++ [.put r] } id := by
  have hbegan : State.began { v with record := some r, log := v.log ++ [.put r] } = v.began :=
    began_eq_of_quiet rfl (by simp [Mark.quiet])
  have hun : v.Unstopped id →
      State.Unstopped { v with record := some r, log := v.log ++ [.put r] } id :=
    fun hun ↦ ⟨hun.stops, fun cleared hmem ↦ hun.returned cleared (by simpa using hmem)⟩
  -- The start's own session is the only one the record can come to name.
  have hown : some (idOf r) = some id → v.start = .putting id :=
    fun hid ↦ hstart.trans (congrArg Start.putting (Option.some.inj hid))
  refine ⟨?_, ?_, ?_, ?_⟩
  · rw [hbegan]
    intro hfresh
    obtain ⟨hg, hs, hu⟩ := h.fresh hfresh
    exact ⟨⟨hg.active, fun _ hid ↦ hs (hown hid)⟩, hs, hun hu⟩
  · rw [hbegan]
    exact fun honce hput ↦ ⟨(h.putting honce hput).1, hun (h.putting honce hput).2⟩
  · rw [hbegan]
    intro honce k cleared hk
    refine ⟨(h.idled honce k cleared hk).active, fun _ hid ↦ ?_⟩
    exact (h.putting honce (hown hid)).2.stops k _ hk
  · rw [hbegan]
    intro honce pre cleared post hsplit
    rcases EventLog.split_append hsplit with ⟨post', hold, rfl⟩ | ⟨pre', -, hnew⟩
    · obtain ⟨hactive, -⟩ := h.returned honce pre cleared post' hold
      refine ⟨fun ha ↦ ⟨(hactive ha).1, List.mem_append_left _ (hactive ha).2⟩, fun _ hid ↦ ?_⟩
      refine (h.putting honce (hown hid)).2.returned cleared ?_
      rw [hold]
      simp
    · cases pre' <;> simp at hnew

/-- A start makes its session active. -/
theorem activate (h : Settled idOf v id) {id' : ι} (hstart : v.start = .putting id') :
    Settled idOf { v with active := some id', start := .active id' } id := by
  have hown : some id' = some id → v.start = .putting id :=
    fun hid ↦ hstart.trans (congrArg Start.putting (Option.some.inj hid))
  refine ⟨fun hfresh ↦ ?_, nofun, fun honce k cleared hk ↦ ?_,
    fun honce pre cleared post hlog ↦ ?_⟩
  · obtain ⟨hg, hs, hu⟩ := h.fresh hfresh
    exact ⟨⟨fun hid ↦ hs (hown hid), hg.record⟩, by simp, ⟨hu.stops, hu.returned⟩⟩
  · refine ⟨fun hid ↦ ?_, (h.idled honce k cleared hk).record⟩
    exact (h.putting honce (hown hid)).2.stops k _ hk
  · refine ⟨fun hid ↦ ?_, (h.returned honce pre cleared post hlog).2⟩
    refine absurd ?_ ((h.putting honce (hown hid)).2.returned cleared)
    rw [hlog]
    simp

variable [DecidableEq κ]

/-- A stop takes the active session. -/
theorem call (h : Settled idOf v id) {k : κ} {id' : ι} (hactive : v.active = some id') :
    Settled idOf { v with stops := Function.update v.stops k (some ⟨some id', none⟩) } id := by
  have hun : v.active ≠ some id → v.Unstopped id →
      State.Unstopped { v with stops := Function.update v.stops k (some ⟨some id', none⟩) } id := by
    refine fun hne hun ↦ ⟨fun k' idled hk' ↦ ?_, hun.returned⟩
    rcases eq_of_update hk' with hnew | hold
    · exact hne (hactive.trans (congrArg Stop.captured (Option.some.inj hnew)))
    · exact hun.stops k' idled hold
  refine ⟨fun hfresh ↦ ?_, fun honce hput ↦ ?_, fun honce k' cleared hk' ↦ ?_,
    fun honce pre cleared post hlog ↦ h.returned honce pre cleared post hlog⟩
  · obtain ⟨hg, hs, hu⟩ := h.fresh hfresh
    exact ⟨⟨hg.active, hg.record⟩, hs, hun hg.active hu⟩
  · obtain ⟨ha, hu⟩ := h.putting honce hput
    exact ⟨ha, hun ha hu⟩
  · rcases eq_of_update hk' with hnew | hold
    · nomatch congrArg Stop.idled (Option.some.inj hnew)
    · exact ⟨(h.idled honce k' cleared hold).active, (h.idled honce k' cleared hold).record⟩

/-- A stop makes the recorder idle. -/
theorem idle (h : Settled idOf v id) {k : κ} {captured : Option ι} (cleared : Bool)
    (hk : v.stops k = some ⟨captured, none⟩ ∨ v.stops k = none ∧ captured = none) :
    Settled idOf (next v (.idle k captured cleared)) id := by
  have hlog : (next v (.idle k captured cleared)).log = v.log ++ [.idled cleared] := rfl
  have hquiet : ∀ m ∈ [(.idled cleared : Mark ι ε)], m.quiet = true := by
    simp [Mark.quiet]
  have hbegan : (next v (.idle k captured cleared)).began = v.began := began_eq_of_quiet hlog hquiet
  have hrecord : (next v (.idle k captured cleared)).record.map idOf = some id →
      cleared = false ∧ v.record.map idOf = some id := by
    cases cleared <;> simp [next]
  have hgone : (next v (.idle k captured cleared)).Gone idOf id cleared := by
    refine ⟨by simp [next], fun hc hr ↦ ?_⟩
    rw [(hrecord hr).1] at hc
    contradiction
  have hun : v.Unstopped id → (next v (.idle k captured cleared)).Unstopped id := by
    refine fun hun ↦ ⟨fun k' idled hk' ↦ ?_, fun c hmem ↦ ?_⟩
    · rcases eq_of_update hk' with hnew | hold
      · have hcaptured : captured = some id := congrArg Stop.captured (Option.some.inj hnew)
        rcases hk with hk | ⟨-, hnone⟩
        · exact hun.stops k none (hcaptured ▸ hk)
        · cases hnone.symm.trans hcaptured
      · exact hun.stops k' idled hold
    · rw [hlog, List.mem_append] at hmem
      rcases hmem with hmem | hmem
      · exact hun.returned c hmem
      · cases hquiet _ hmem
  refine ⟨?_, ?_, ?_, ?_⟩
  · rw [hbegan]
    intro hfresh
    obtain ⟨hg, hs, hu⟩ := h.fresh hfresh
    exact ⟨⟨hgone.active, fun _ hr ↦ hg.record rfl (hrecord hr).2⟩, hs, hun hu⟩
  · rw [hbegan]
    exact fun honce hput ↦ ⟨hgone.active, hun (h.putting honce hput).2⟩
  · rw [hbegan]
    intro honce k' c hk'
    rcases eq_of_update hk' with hnew | hold
    · obtain rfl : cleared = c :=
        Option.some.inj (congrArg Stop.idled (Option.some.inj hnew))
      exact hgone
    · exact ⟨hgone.active, fun hc hr ↦ (h.idled honce k' c hold).record hc (hrecord hr).2⟩
  · rw [hbegan, hlog]
    intro honce pre c post hsplit
    rcases EventLog.split_append hsplit with ⟨post', hold, -⟩ | ⟨pre', -, hnew⟩
    · refine ⟨fun ha ↦ absurd ha hgone.active, fun hc hr ↦ ?_⟩
      exact (h.returned honce pre c post' hold).2 hc (hrecord hr).2
    · exact absurd (hquiet (.returned (some id) c) (by rw [hnew]; simp)) (by simp [Mark.quiet])

/-- A stop returns. -/
theorem finish (h : Settled idOf v id) {k : κ} {captured : Option ι} {cleared : Bool}
    (hk : v.stops k = some ⟨captured, some cleared⟩) :
    Settled idOf (next v (.finish k captured cleared)) id := by
  have hbegan : (next v (.finish k captured cleared)).began = v.began :=
    (began_append (E := [.returned captured cleared]) rfl).trans (List.append_nil _)
  have hstops : ∀ k' x, (next v (.finish k captured cleared)).stops k' = some x →
      v.stops k' = some x := by
    intro k' x hk'
    rcases eq_of_update hk' with hnew | hold
    · nomatch hnew
    · exact hold
  have hun : v.Unstopped id → (next v (.finish k captured cleared)).Unstopped id := by
    refine fun hun ↦ ⟨fun k' idled hk' ↦ hun.stops k' idled (hstops k' _ hk'), fun c hmem ↦ ?_⟩
    rcases List.mem_append.1 hmem with hmem | hmem
    · exact hun.returned c hmem
    · obtain ⟨rfl, rfl⟩ := Mark.returned.inj (List.mem_singleton.1 hmem)
      exact hun.stops k (some c) hk
  refine ⟨?_, ?_, ?_, ?_⟩
  · rw [hbegan]
    intro hfresh
    obtain ⟨hg, hs, hu⟩ := h.fresh hfresh
    exact ⟨⟨hg.active, hg.record⟩, hs, hun hu⟩
  · rw [hbegan]
    exact fun honce hput ↦ ⟨(h.putting honce hput).1, hun (h.putting honce hput).2⟩
  · rw [hbegan]
    intro honce k' c hk'
    have hg := h.idled honce k' c (hstops k' _ hk')
    exact ⟨hg.active, hg.record⟩
  · rw [hbegan]
    intro honce pre c post hsplit
    rcases EventLog.split_append hsplit with ⟨post', hold, rfl⟩ | ⟨pre', -, hnew⟩
    · obtain ⟨hactive, hrecord⟩ := h.returned honce pre c post' hold
      exact ⟨fun ha ↦ ⟨(hactive ha).1, List.mem_append_left _ (hactive ha).2⟩, hrecord⟩
    · -- The stop that returns has made the recorder idle.
      obtain ⟨rfl, rfl⟩ : captured = some id ∧ cleared = c := by
        cases pre' with
        | nil => exact Mark.returned.inj (List.cons.inj hnew).1
        | cons _ _ => simp at hnew
      have hg := h.idled honce k cleared hk
      exact ⟨fun ha ↦ absurd ha hg.active, hg.record⟩

/-- **One step.** -/
theorem step [LawfulBEq ι] (h : Settled idOf v id) {a : Act ι ε κ} (hE : Enabled idOf v a) :
    Settled idOf (next v a) id := by
  cases a with
  | boot =>
    exact h.mono (by simp [next]) (fun hr ↦ hr) (by simp [next]) (by simp [next])
      (List.append_nil _).symm (by simp)
  | resume id' => exact h.resume hE.2.1 hE.2.2.2.1 hE.2.2.2.2
  | crash lost =>
    exact h.mono (by simp [next]) (fun hr ↦ hr) (by simp [next]) (by simp [next]) rfl
      (by simp [Mark.quiet])
  | begin id' => exact h.begin id'
  | put r => exact h.put hE.2
  | activate id' => exact h.activate hE.2
  | spawn id' =>
    exact h.mono (fun ha ↦ ha) (fun hr ↦ hr) (by simp [next]) (fun _ _ hk ↦ hk)
      (List.append_nil _).symm (by simp)
  | call k id' => exact h.call hE.2.1
  | idle k captured cleared => exact h.idle cleared hE.2
  | finish k captured cleared => exact h.finish hE.2
  | mark i id' published =>
    exact h.mono (fun ha ↦ ha) (fun hr ↦ hr) (fun hs ↦ hs) (fun _ _ hk ↦ hk)
      (List.append_nil _).symm (by simp)
  | lose i id' =>
    exact h.mono (fun ha ↦ ha) (fun hr ↦ hr) (fun hs ↦ hs) (fun _ _ hk ↦ hk) rfl
      (by simp [Mark.quiet])
  | drop i =>
    exact h.mono (fun ha ↦ ha) (fun hr ↦ hr) (fun hs ↦ hs) (fun _ _ hk ↦ hk)
      (List.append_nil _).symm (by simp)

end Settled

/-- Every session is settled in every run of the recorder. -/
theorem settled_inductive [LawfulBEq ι] [DecidableEq κ] (idOf : ε → ι) :
    (system idOf κ).Inductive TransitionSystem.always fun v ↦ ∀ id, Settled idOf v id where
  init v hv id := by
    obtain rfl : v = {} := hv
    refine ⟨fun _ ↦ ⟨⟨?_, ?_⟩, ?_, ⟨?_, ?_⟩⟩, ?_, ?_, ?_⟩ <;> simp
  step h _ ht id := by
    obtain ⟨hE, rfl⟩ := step_eq_some_iff.1 ht
    exact (h id).step hE

end Settled

end LiveSTT.Sessions

namespace LiveSTT.AudioProducer

theorem began_sessions (s : State) : s.sessions.began = s.started := by
  show (s.trace.filterMap Event.mark).filterMap Sessions.Mark.beganId = _
  rw [List.filterMap_filterMap]
  refine congrArg (List.filterMap · s.trace) (funext fun e ↦ ?_)
  cases e <;> rfl

/-- **A stop is final.** When `_stop_session` has returned for a session, the session is active
again only if the delete of the KV entry had not taken effect and the session was recovered since,
or if two starts took its id. -/
theorem stop_is_final {below : Bytes → Bool} {s : State}
    (h : (system below).Reachable TransitionSystem.always s) {pre post : List Event}
    {id : SessionId} {cleared : Bool}
    (hreturned : s.trace = pre ++ .stopReturned (some id) cleared :: post)
    (hactive : s.mem.sessionId = some id) :
    (cleared = false ∧ .resumed id ∈ post) ∨ 2 ≤ s.started.count id := by
  have hreach := (refines_sessions (H := fun _ ↦ True) (fun _ _ _ _ _ ↦ trivial) below).reachable h
  have hsettled := (Sessions.settled_inductive KvEntry.sessionId).reachable hreach id
  rcases Nat.lt_or_ge (s.started.count id) 2 with honce | htwice
  · have hlog : s.sessions.log = pre.filterMap Event.mark ++
        .returned (some id) cleared :: post.filterMap Event.mark := by
      show s.trace.filterMap Event.mark = _
      rw [hreturned, List.filterMap_append, List.filterMap_cons]
      rfl
    rw [← began_sessions] at honce
    obtain ⟨hc, hresumed⟩ := (hsettled.returned (Nat.le_of_lt_succ honce) _ _ _ hlog).1 hactive
    refine Or.inl ⟨hc, ?_⟩
    obtain ⟨e, he, hmark⟩ := List.mem_filterMap.1 hresumed
    cases e with
    | resumed id' =>
      obtain rfl := Sessions.Mark.resumed.inj (Option.some.inj hmark)
      exact he
    | _ => nomatch hmark
  · exact Or.inr htwice

/-- A session is stopped while the delete of its KV entry fails; then the process is restarted. -/
def stoppedUncleared : List Action :=
  running ++ starting first ++ started ++
    [.message (command "stop") second .ok, .ctrl .error, .ctrl .ok, .ctrl .ok] ++
    [.crash, .boot true true false]

/-- A stop of the session returned without clearing the KV entry. -/
def Event.unclearedStop (id : SessionId) : Event → Bool
  | .stopReturned captured cleared => captured = some id ∧ cleared = false
  | _ => false

theorem Event.unclearedStop_iff {id : SessionId} {e : Event} :
    e.unclearedStop id = true ↔ e = .stopReturned (some id) false := by
  cases e <;> simp [Event.unclearedStop]

/-- The restart resumes the session. -/
theorem stop_is_final_uncleared :
    ∃ (s : State) (pre post : List Event),
      (system fun _ ↦ false).Reachable TransitionSystem.always s ∧
      s.trace = pre ++ .stopReturned (some first.id) false :: post ∧
      s.mem.sessionId = some first.id ∧
      ((false = false ∧ .resumed first.id ∈ post) ∨ 2 ≤ s.started.count first.id) := by
  obtain ⟨s, hs, htest⟩ := TransitionSystem.exists_reachable_of_exec
    (M := system fun _ ↦ false) (G := TransitionSystem.always) {} stoppedUncleared
    (fun s ↦ decide (s.mem.sessionId = some first.id) && s.trace.any (Event.unclearedStop first.id))
    rfl (by decide +kernel)
  rw [Bool.and_eq_true, decide_eq_true_eq] at htest
  obtain ⟨hactive, hstop⟩ := htest
  obtain ⟨e, he, htest⟩ := List.any_eq_true.1 hstop
  obtain rfl := Event.unclearedStop_iff.1 htest
  obtain ⟨pre, post, htrace⟩ := List.append_of_mem he
  exact ⟨s, pre, post, hs, htrace, hactive, stop_is_final hs htrace hactive⟩

/-- A session that was started once and whose stop has returned is active again. -/
theorem stopped_session_resumed :
    ∃ s, (system fun _ ↦ false).Reachable TransitionSystem.always s ∧
      .stopReturned (some first.id) false ∈ s.trace ∧ s.started = [first.id] ∧
      s.mem.sessionId = some first.id ∧ s.mem.isActive = true := by
  obtain ⟨s, hs, htest⟩ := TransitionSystem.exists_reachable_of_exec
    (M := system fun _ ↦ false) (G := TransitionSystem.always) {} stoppedUncleared
    (fun s ↦ decide (s.started = [first.id] ∧ s.mem.sessionId = some first.id ∧
      s.mem.isActive = true) && s.trace.any (Event.unclearedStop first.id))
    rfl (by decide +kernel)
  rw [Bool.and_eq_true, decide_eq_true_eq] at htest
  obtain ⟨⟨hstarted, hactive, hflag⟩, hstop⟩ := htest
  obtain ⟨e, he, htest⟩ := List.any_eq_true.1 hstop
  obtain rfl := Event.unclearedStop_iff.1 htest
  exact ⟨s, hs, he, hstarted, hactive, hflag⟩

end LiveSTT.AudioProducer
