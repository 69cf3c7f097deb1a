import LiveSTT.AudioProducer.Entry
import LiveSTT.Gateway.SessionAdmin

/-!
# Renaming a session while audio-producer starts and stops it

The KV entry `current` has two writers: audio-producer puts and deletes it, and a rename of the
api-gateway reads it, changes the label and puts it back, in two calls without a revision check. As
long as audio-producer does not write between the two calls of a rename, the session the entry names
is the one audio-producer wrote last, and a start is not refused while audio-producer is idle
(`rename_keeps_session`). A delete between the two calls is undone by the put: the entry of the
stopped session is back, and no session can be started (`rename_revives_session`).

The guard `noOverlap` speaks of the state before a step: audio-producer writes the entry only while
no rename is between its two calls. What the invariant `Coherent` adds is what a rename has read
there, since that is what it puts back. Failures of the KV are left out by a guard of their own
(`kvSucceeds`).
-/

namespace LiveSTT.RenameRace

open AudioProducer (KvEntry SessionId)
open SessionAdmin (Request DbResult)

/-! ### The composed system -/

structure State where
  producer : AudioProducer.State := {}
  gateway : SessionAdmin.State := {}

/-- The KV entry. -/
def State.current (s : State) : Option KvEntry := s.producer.broker.current

inductive Action
  | producer (a : AudioProducer.Action)
  /-- `PATCH /admin/sessions/{id}` arrives. -/
  | rename (sessionId : String) (body : Option Json)
  /-- `POST /session/start` arrives. -/
  | start (label : String) (r : Reply)
  /-- The `i`-th request in flight goes on. -/
  | resume (i : ℕ) (db : DbResult) (r : Reply)
  /-- The next lifecycle event is handled, or dropped. -/
  | sessionEvent (delivered raised : Bool)
  /-- `_kv_connect` goes on. -/
  | connect (r : Reply)
  /-- api-gateway dies and starts again. -/
  | restart

/-- The entry is left as `current`. -/
def State.setCurrent (s : State) (current : Option KvEntry) : AudioProducer.State :=
  { s.producer with broker := { s.producer.broker with current := current } }

def step (below : Bytes → Bool) (s : State) : Action → Option State
  | .producer a => (AudioProducer.step below s.producer a).map fun p ↦ { s with producer := p }
  | .rename sessionId body =>
    some { s with gateway := SessionAdmin.renameSession s.gateway sessionId body }
  | .start label r =>
    some { s with gateway := SessionAdmin.sessionStart s.gateway s.current label r }
  | .resume i db r => s.gateway.requests[i]?.map fun q ↦ {
      producer := s.setCurrent (SessionAdmin.entryAfter s.current q r)
      gateway := SessionAdmin.resume
        { s.gateway with requests := s.gateway.requests.eraseIdx i } s.current q db r }
  | .sessionEvent delivered raised => s.producer.broker.events[s.gateway.seen]?.map fun e ↦
      let gateway := { s.gateway with seen := s.gateway.seen + 1 }
      { s with gateway :=
          if delivered then SessionAdmin.handleSessionDb gateway e raised else gateway }
  | .connect r => some { s with gateway := SessionAdmin.kvConnect s.gateway s.current r }
  | .restart => some { s with gateway := { seen := s.producer.broker.events.length } }

def system (below : Bytes → Bool) : TransitionSystem State Action where
  init s := s = {}
  step := step below

/-! ### What renames are to leave alone -/

/-- What audio-producer wrote last: an entry, or nothing. -/
def State.lastWrite (s : State) : Option KvEntry := s.producer.writes.getLast?.join

/-- audio-producer is running, with no session and no start in progress. -/
structure State.Idle (s : State) : Prop where
  up : s.producer.up = true
  inactive : s.producer.mem.sessionId = none
  starting : s.producer.ctrl.isStarting = false

/-- The entry names the session audio-producer wrote last, and no start is refused while it is
idle. -/
structure SessionKept (s : State) : Prop where
  entry : s.current.map KvEntry.identity = s.lastWrite.map KvEntry.identity
  start : s.Idle → SessionAdmin.refusedFor s.current = none

/-- No KV operation of audio-producer fails in the step: the read of a boot, and the deletes. -/
def kvSucceeds (below : Bytes → Bool) (s : State) : Action → Bool
  | .producer a =>
    (match a with
      | .boot sessionKv _ raised => sessionKv && !raised
      | _ => true) &&
    (AudioProducer.step below s.producer a).all fun p ↦ p.trace.all fun e ↦ !e.deleteFailed
  | _ => true

/-- audio-producer does not write the entry while a rename is between its get and its put. -/
def noOverlap (below : Bytes → Bool) (s : State) : Action → Bool
  | .producer a => s.gateway.held.isEmpty ||
    (AudioProducer.step below s.producer a).all fun p ↦ p.writes.length = s.producer.writes.length
  | _ => true

/-! ### The invariant -/

structure Coherent (s : State) : Prop where
  entry : s.current.map KvEntry.identity = s.lastWrite.map KvEntry.identity
  /-- The renames in flight hold entries of the current session. -/
  held : ∀ e ∈ s.gateway.held, s.current.map KvEntry.identity = some e.identity
  active : ∀ e, s.current = some e → e.state = "active"
  unclaimed : s.producer.Unclaimed

section Steps

variable {below : Bytes → Bool} {s t : State}

/-- A step of the gateway that leaves the entry alone. -/
theorem Coherent.of_gateway (h : Coherent s) {gateway : SessionAdmin.State}
    (hheld : ∀ e ∈ gateway.held, e ∈ s.gateway.held ∨
      s.current.map KvEntry.identity = some e.identity) :
    Coherent { s with gateway := gateway } :=
  ⟨h.entry, fun e he ↦ (hheld e he).elim (h.held e) id, h.active, h.unclaimed⟩

/-- A rename puts back the entry it holds, with another label. -/
theorem Coherent.of_put (h : Coherent s) {e : KvEntry} {label : Json} (he : e ∈ s.gateway.held) :
    Coherent { s with producer := s.setCurrent (some (SessionAdmin.relabel e label)) } := by
  have hidentity : s.current.map KvEntry.identity = some e.identity := h.held e he
  obtain ⟨old, hold, hsame⟩ := Option.map_eq_some_iff.1 hidentity
  refine ⟨hidentity.symm.trans h.entry, fun e' he' ↦ ?_, fun e' he' ↦ ?_, fun hup hnone hstart ↦ ?_⟩
  · exact hidentity.symm.trans (h.held e' he')
  · obtain rfl := Option.some.inj he'
    exact (congrArg Prod.fst hsame).symm.trans (h.active old hold)
  · -- An idle producer has no entry, so no rename holds one.
    have hnil : s.current = none := h.unclaimed hup hnone hstart
    rw [hnil] at hold
    nomatch hold

/-- A request goes on. What it reads is the entry before its put, which names the same session. -/
theorem coherent_resume (h : Coherent s) {i : ℕ} {q : Request}
    (hq : s.gateway.requests[i]? = some q) (db : DbResult) (r : Reply) : Coherent {
      producer := s.setCurrent (SessionAdmin.entryAfter s.current q r)
      gateway := SessionAdmin.resume
        { s.gateway with requests := s.gateway.requests.eraseIdx i } s.current q db r } := by
  have hheld : ∀ e ∈ (SessionAdmin.resume
      { s.gateway with requests := s.gateway.requests.eraseIdx i } s.current q db r).held,
      e ∈ s.gateway.held ∨ s.current.map KvEntry.identity = some e.identity := fun e he ↦
    (SessionAdmin.held_resume he).imp (SessionAdmin.held_eraseIdx i e)
      (congrArg (Option.map KvEntry.identity))
  rcases SessionAdmin.entryAfter_eq hq r with hsame | ⟨e, he, label, hput⟩
  · rw [hsame]
    exact h.of_gateway hheld
  · rw [hput]
    refine (h.of_put he).of_gateway fun e' he' ↦ (hheld e' he').imp_right fun hread ↦ ?_
    exact (h.held e he).symm.trans hread

/-- A step of audio-producer: it writes the entry in a start, a stop or a recovery, none of them
while a rename is between its read and its write. -/
theorem coherent_producer (h : Coherent s) {a : AudioProducer.Action} {p : AudioProducer.State}
    (hkv : kvSucceeds below s (.producer a) = true) (hno : noOverlap below s (.producer a) = true)
    (hp : AudioProducer.step below s.producer a = some p) : Coherent { s with producer := p } := by
  obtain ⟨hboot, hdeletes⟩ := Bool.and_eq_true_iff.1 hkv
  obtain ⟨W, hwrites, hcurrent, hactive⟩ := AudioProducer.entry_step hp
  have hunclaimed : p.Unclaimed := by
    cases a with
    | boot sessionKv configKv raised =>
      obtain ⟨rfl, hraised⟩ := Bool.and_eq_true_iff.1 hboot
      obtain rfl : raised = false := by simpa using hraised
      simp only [AudioProducer.step] at hp
      split at hp
      · nomatch hp
      · obtain rfl := Option.some.inj hp
        exact AudioProducer.unclaimed_boot h.active configKv
    | _ =>
      refine AudioProducer.unclaimed_step h.unclaimed rfl hp fun e he ↦ ?_
      rw [hp, Option.all_some] at hdeletes
      simpa using List.all_eq_true.1 hdeletes e he
  -- A step that writes the entry leaves its last write there, and no rename holds an older one.
  rcases List.eq_nil_or_concat W with rfl | ⟨W', x, rfl⟩
  · have hsame : p.broker.current = s.current := hcurrent
    have hlast : p.writes.getLast?.join = s.lastWrite := by
      rw [hwrites, List.append_nil]
      rfl
    refine ⟨?_, fun e he ↦ ?_, fun e he ↦ h.active e (hsame.symm.trans he), hunclaimed⟩
    · show p.broker.current.map _ = p.writes.getLast?.join.map _
      rw [hsame, hlast]
      exact h.entry
    · exact (congrArg (Option.map KvEntry.identity) hsame).trans (h.held e he)
  · have hx : p.broker.current = x := by
      rw [hcurrent, List.concat_eq_append, List.getLast?_concat]
      rfl
    have hlast : p.writes.getLast?.join = x := by
      rw [hwrites, List.concat_eq_append, ← List.append_assoc, List.getLast?_concat]
      rfl
    have hnobody : s.gateway.held = [] := by
      refine List.isEmpty_iff.1 ((Bool.or_eq_true_iff.1 hno).resolve_right fun hlength ↦ ?_)
      rw [hp, Option.all_some, decide_eq_true_eq, hwrites] at hlength
      simp at hlength
    refine ⟨?_, ?_, fun e he ↦ hactive e ?_, hunclaimed⟩
    · show p.broker.current.map _ = p.writes.getLast?.join.map _
      rw [hx, hlast]
    · show ∀ e ∈ s.gateway.held, _
      rw [hnobody]
      simp
    · rw [← hx.symm.trans he]
      simp

/-- A step of either service. -/
theorem coherent_step {a : Action} (h : Coherent s) (hkv : kvSucceeds below s a = true)
    (hno : noOverlap below s a = true) (ht : step below s a = some t) : Coherent t := by
  cases a with
  | producer a =>
    obtain ⟨p, hp, rfl⟩ := Option.map_eq_some_iff.1 ht
    exact coherent_producer h hkv hno hp
  | rename sessionId body =>
    obtain rfl := Option.some.inj ht
    refine h.of_gateway fun e he ↦ Or.inl ?_
    rwa [SessionAdmin.held_renameSession] at he
  | start label r =>
    obtain rfl := Option.some.inj ht
    refine h.of_gateway fun e he ↦ Or.inl ?_
    rwa [SessionAdmin.held_sessionStart] at he
  | resume i db r =>
    obtain ⟨q, hq, rfl⟩ := Option.map_eq_some_iff.1 ht
    exact coherent_resume h hq db r
  | sessionEvent delivered raised =>
    obtain ⟨e, -, rfl⟩ := Option.map_eq_some_iff.1 ht
    refine h.of_gateway fun e' he ↦ Or.inl ?_
    cases delivered
    · exact he
    · rwa [if_pos rfl, SessionAdmin.held_handleSessionDb] at he
  | connect r =>
    obtain rfl := Option.some.inj ht
    refine h.of_gateway fun e he ↦ Or.inl ?_
    rwa [SessionAdmin.held_kvConnect] at he
  | restart =>
    obtain rfl := Option.some.inj ht
    exact h.of_gateway nofun

/-- In every run in which the KV calls succeed and no rename overlaps another write. -/
theorem coherent_inductive (below : Bytes → Bool) :
    (system below).Inductive (fun s a ↦ kvSucceeds below s a = true ∧ noOverlap below s a = true)
      Coherent where
  init s hs := by
    obtain rfl : s = {} := hs
    refine ⟨rfl, by simp [SessionAdmin.State.held], fun e he ↦ absurd he ?_, fun hup ↦ ?_⟩
    · simp [State.current]
    · contradiction
  step h hG ht := coherent_step h hG.1 hG.2 ht

end Steps

/-- **A rename changes no session**, in every run in which audio-producer does not write the entry
between the get and the put of a rename. -/
theorem rename_keeps_session {below : Bytes → Bool} {s : State}
    (h : (system below).Reachable
      (fun s a ↦ kvSucceeds below s a = true ∧ noOverlap below s a = true) s) : SessionKept s := by
  have hcoherent := (coherent_inductive below).reachable h
  refine ⟨hcoherent.entry, fun hidle ↦ ?_⟩
  have hnone : s.current = none := by
    refine hcoherent.unclaimed hidle.up hidle.inactive fun id hput ↦ ?_
    nomatch (AudioProducer.start_eq_none hidle.starting).symm.trans hput
  rw [hnone]
  rfl

/-! ### Runs with a rename -/

/-- A session is started, and the gateway learns of it. -/
def startedSession : List Action :=
  .connect .ok :: .connect .ok ::
    (AudioProducer.running ++ AudioProducer.starting AudioProducer.first ++
      AudioProducer.started).map .producer ++ [.sessionEvent true false]

/-- A rename of the session, up to the get of the entry. -/
def renameRead : List Action :=
  [.rename "20260301-100000" (some (.obj [("label", .str "Easter")])), .resume 0 .row .ok,
    .resume 0 .row .ok]

/-- The session is stopped by a command. -/
def stopped : List Action :=
  ([.message (AudioProducer.command "stop") AudioProducer.second .ok, .ctrl .ok, .ctrl .ok,
    .ctrl .ok, .ctrl .ok] : List AudioProducer.Action).map .producer

/-- The session is renamed, and then stopped. -/
theorem rename_keeps_session_one :
    ∃ s, (system fun _ ↦ false).Reachable (fun s a ↦ kvSucceeds (fun _ ↦ false) s a = true ∧
        noOverlap (fun _ ↦ false) s a = true) s ∧ s.producer.writes.length = 2 ∧
      SessionKept s := by
  obtain ⟨s, hs, htest⟩ := TransitionSystem.exists_reachable_of_exec
    (M := system fun _ ↦ false) (G := fun s a ↦ kvSucceeds (fun _ ↦ false) s a = true ∧
      noOverlap (fun _ ↦ false) s a = true) {}
    (startedSession ++ renameRead ++ [.resume 0 .row .ok, .resume 0 .row .ok] ++ stopped)
    (fun s ↦ decide (s.producer.writes.length = 2)) rfl (by decide +kernel)
  exact ⟨s, hs, of_decide_eq_true htest, rename_keeps_session hs⟩

/-- The session is stopped between the get and the put of its rename. The put brings its entry back,
and with nothing active a start is refused for it. -/
theorem rename_revives_session :
    ∃ s, (system fun _ ↦ false).Reachable (fun s a ↦ kvSucceeds (fun _ ↦ false) s a = true) s ∧
      s.Idle ∧ s.lastWrite.isNone = true ∧
      SessionAdmin.refusedFor s.current = some AudioProducer.first.id ∧ ¬ SessionKept s := by
  obtain ⟨s, hs, htest⟩ := TransitionSystem.exists_reachable_of_exec
    (M := system fun _ ↦ false) (G := fun s a ↦ kvSucceeds (fun _ ↦ false) s a = true) {}
    (startedSession ++ renameRead ++ stopped ++ [.resume 0 .row .ok])
    (fun s ↦ decide (s.producer.up = true ∧ s.producer.mem.sessionId = none ∧
      s.producer.ctrl.isStarting = false ∧ s.lastWrite.isNone = true ∧
      SessionAdmin.refusedFor s.current = some AudioProducer.first.id)) rfl (by decide +kernel)
  obtain ⟨hup, hnone, hstarting, hlast, hrefused⟩ := of_decide_eq_true htest
  refine ⟨s, hs, ⟨hup, hnone, hstarting⟩, hlast, hrefused, fun hkept ↦ ?_⟩
  rw [hkept.start ⟨hup, hnone, hstarting⟩] at hrefused
  nomatch hrefused

end LiveSTT.RenameRace
