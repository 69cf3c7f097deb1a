import LiveSTT.AudioProducer.ControlLoop

/-!
# The commands in SESSION_STREAM

Requests and schedules publish their commands on `session.control`, one subject of a stream that
keeps a single message for each: "only the latest command matters". So the control loop of
audio-producer does not see every command. One that is still in the stream when the next is
published is gone, and one that has been there for a minute is discarded.

`active_iff_asked` says that this is sound as long as the session is not stopped by silence: once
the control loop is at its fetch and the stream is empty, audio-producer is active exactly if the
last command that was not discarded asks for it, whatever the calls of the handler have answered and
whatever was overwritten before. And it gets there: from any state in which the loop has not ended,
nor is about to end as its ack has raised, a run of the control loop alone comes to such a
state (`exists_rest`).

What a command asks for is a state, not a change of it. A stop that is overwritten by a start is not
carried out: the session goes on, and the label of the start is dropped.
-/

namespace LiveSTT.CommandStream

open TransitionSystem
open AudioProducer (Stamp CtrlPc StartPc StopPc AudioPc Coroutine wantsStart wantsStop Stepped)

/-! ### The stream in front of audio-producer -/

/-- What a command asks for, after `active` was asked for. -/
def ask (active : Bool) (payload : Option Json) : Bool :=
  if wantsStart payload then true else if wantsStop payload then false else active

structure State where
  producer : AudioProducer.State
  /-- The message in the stream that has not been fetched. -/
  stored : Option (Option Json) := none
  /-- What the commands ask for that were fetched. -/
  fetched : Bool
  /-- What the commands ask for that were published and not discarded. -/
  asked : Bool

inductive Action
  /-- A command is published, and takes the place of the one that is there. -/
  | publish (payload : Option Json)
  /-- The message is discarded for its age. -/
  | discard
  /-- The control loop fetches the message. -/
  | fetch (now : Stamp) (r : Reply)
  /-- Another step of audio-producer. -/
  | producer (a : AudioProducer.Action)

variable (below : Bytes → Bool)

def step (s : State) : Action → Option State
  | .publish payload => some { s with stored := some payload, asked := ask s.asked payload }
  | .discard => some { s with stored := none, asked := s.fetched }
  | .fetch now r =>
    match s.stored with
    | none => none
    | some payload =>
      (AudioProducer.step below s.producer (.message payload now r)).map fun producer ↦
        { s with producer := producer, stored := none, fetched := ask s.fetched payload }
  | .producer (.message _ _ _) => none
  | .producer a => (AudioProducer.step below s.producer a).map fun producer ↦
      { s with producer := producer }

/-- audio-producer has just started, on what the broker holds, and nothing is in the stream. -/
def system : TransitionSystem State Action where
  init s := ∃ down sessionKv configKv raised,
    s.producer = AudioProducer.boot down sessionKv configKv raised ∧ s.stored = none ∧
      s.fetched = s.producer.mem.isActive ∧ s.asked = s.producer.mem.isActive
  step := step below

/-- What is published is a start or a stop, silence stops no session, and the process goes on. -/
def calm (s : State) : Action → Prop
  | .publish payload => wantsStart payload = true ∨ wantsStop payload = true
  | .producer (.audio _ _) => s.producer.silenceReached below = false
  | .producer .crash => False
  | _ => True

instance : ∀ (s : State) (a : Action), Decidable (calm below s a)
  | _, .publish payload =>
    inferInstanceAs (Decidable (wantsStart payload = true ∨ wantsStop payload = true))
  | s, .producer (.audio _ _) =>
    inferInstanceAs (Decidable (s.producer.silenceReached below = false))
  | _, .producer .crash => instDecidableFalse
  | _, .discard | _, .fetch _ _ | _, .producer (.boot _ _ _) | _, .producer (.chunk _ _)
  | _, .producer (.subscribed _) | _, .producer (.message _ _ _) | _, .producer (.ctrl _)
  | _, .producer .ctrlExit | _, .producer (.flush _ _ _) | _, .producer (.expire _)
  | _, .producer (.setConfig _) => instDecidableTrue

/-- The control loop is at its fetch, and there is nothing to fetch. -/
def State.Resting (s : State) : Prop := s.producer.ctrl = .fetching ∧ s.stored = none

/-! ### The invariant -/

/-- Where the control loop is, by what is active and by what the fetched commands ask for. -/
def Settles (active fetched : Bool) : CtrlPc → Prop
  | .starting (.kvPutting _ _) => active = false ∧ fetched = true
  | .starting _ => active = true ∧ fetched = true
  | .stopping (.eosPublishing _ _) => fetched = false
  | .stopping _ => active = false ∧ fetched = false
  | .subscribing | .fetching | .acking _ | .exited => active = fetched

structure Agrees (s : State) : Prop where
  up : s.producer.up = true
  command : ∀ payload, s.stored = some payload → wantsStart payload = true ∨
    wantsStop payload = true
  audio : s.producer.audio.stops = []
  ctrl : Settles s.producer.mem.isActive s.fetched s.producer.ctrl
  asked : s.asked = match s.stored with
    | some payload => ask s.fetched payload
    | none => s.fetched

variable {below} {s t : State} {p q : AudioProducer.State} {r : Reply} {now : Stamp}

/-- A command overwrites what was asked for. -/
theorem ask_of_command {payload : Option Json}
    (h : wantsStart payload = true ∨ wantsStop payload = true) (a b : Bool) :
    ask a payload = ask b payload := by
  rw [ask, ask]
  rcases h with h | h
  · rw [if_pos h, if_pos h]
  · rw [h]
    simp

/-! ### Steps of the control loop -/

theorem settles_idleStop (captured : Option AudioProducer.SessionId) (stoppedAt : String) :
    Settles (AudioProducer.idleStop p captured stoppedAt r .control).mem.isActive false
      (AudioProducer.idleStop p captured stoppedAt r .control).ctrl := by
  rw [AudioProducer.mem_idleStop, AudioProducer.idleStop]
  split
  · exact ⟨rfl, rfl⟩
  · exact ⟨rfl, rfl⟩

/-- A stop ends with an idle producer. -/
theorem settles_beginStop :
    Settles (AudioProducer.beginStop p now r .control).mem.isActive false
      (AudioProducer.beginStop p now r .control).ctrl := by
  rw [AudioProducer.beginStop.eq_def]
  split
  · exact rfl
  · exact settles_idleStop none now.iso

/-- A stop of the control loop ends with no session active, at the call that leaves its session. -/
theorem settles_stopStep {pc : StopPc} (h : Settles p.mem.isActive false (.stopping pc)) :
    Settles (AudioProducer.stopStep p pc r .control).mem.isActive false
      (AudioProducer.stopStep p pc r .control).ctrl := by
  cases pc with
  | eosPublishing id stoppedAt => exact settles_idleStop (some id) stoppedAt
  | kvDeleting captured stoppedAt cleared =>
    refine ⟨?_, rfl⟩
    rw [AudioProducer.stopStep, AudioProducer.mem_announceStop]
    exact h.1
  | eventPublishing captured cleared => exact h.1

theorem settles_activate (stamp : Stamp) (label : Json) :
    Settles (AudioProducer.activate p stamp label r).mem.isActive true
      (AudioProducer.activate p stamp label r).ctrl := by
  rw [AudioProducer.mem_activate, AudioProducer.activate]
  split
  · exact ⟨rfl, rfl⟩
  · exact ⟨rfl, rfl⟩

/-- A start ends with an active producer. -/
theorem settles_beginStart (h : p.mem.isActive = false) (label : Json) :
    Settles (AudioProducer.beginStart p now label r).mem.isActive true
      (AudioProducer.beginStart p now label r).ctrl := by
  rcases hkv : p.mem.sessionKv with - | -
  · rw [AudioProducer.beginStart_of_no_kv p now label r hkv]
    exact settles_activate now label
  · rw [AudioProducer.beginStart_of_kv p now label r hkv]
    exact ⟨h, rfl⟩

theorem settles_startStep {pc : StartPc} (h : Settles p.mem.isActive true (.starting pc)) :
    Settles (AudioProducer.startStep p pc r).mem.isActive true
      (AudioProducer.startStep p pc r).ctrl := by
  cases pc with
  | kvPutting stamp label => exact settles_activate stamp label
  | configReading stamp label since value => exact ⟨h.1, rfl⟩
  | eventPublishing => exact h.1

/-- A message sets the loop to what it asks for. -/
theorem settles_handleControlMessage {fetched : Bool} (h : p.mem.isActive = fetched)
    (payload : Option Json) :
    Settles (AudioProducer.handleControlMessage p payload now r).mem.isActive (ask fetched payload)
      (AudioProducer.handleControlMessage p payload now r).ctrl := by
  rw [AudioProducer.handleControlMessage.eq_def]
  split
  · exact h
  · rename_i data
    split
    · rename_i hstart
      have hask : ask fetched (some (.obj data)) = true := if_pos hstart
      rw [hask]
      split
      · rename_i hactive
        exact hactive
      · rename_i hidle
        exact settles_beginStart (by simpa using hidle) _
    · rename_i hstart
      have hstart : ¬ wantsStart (some (.obj data)) = true := hstart
      split
      · rename_i hstop
        have hask : ask fetched (some (.obj data)) = false := by
          rw [ask, if_neg hstart, if_pos (show wantsStop (some (.obj data)) = true from hstop.1)]
        rw [hask]
        exact settles_beginStop
      · rename_i hstop
        rw [ask, if_neg hstart]
        split
        · rename_i hwants
          show p.mem.isActive = false
          by_contra hactive
          exact hstop ⟨hwants, by simpa using hactive⟩
        · exact h
  · rename_i value hnot
    have hask : ask fetched (some value) = fetched := by
      cases value with
      | obj data => exact absurd rfl (hnot data)
      | _ => rfl
    rw [hask]
    exact h

/-- A step of the control loop keeps to what the fetched commands ask for. -/
theorem settles_ctrl {fetched : Bool} (h : Settles p.mem.isActive fetched p.ctrl) {r : Reply}
    (ht : AudioProducer.step below p (.ctrl r) = some q) :
    Settles q.mem.isActive fetched q.ctrl := by
  cases AudioProducer.stepped_of_step ht with
  | @ctrlStart pc hup hctrl r =>
    rw [hctrl] at h
    have hfetched : fetched = true := by
      cases pc with
      | kvPutting stamp label => exact h.2
      | configReading stamp label since value => exact h.2
      | eventPublishing => exact h.2
    rw [hfetched] at h ⊢
    exact settles_startStep h
  | @ctrlStop pc hup hctrl r =>
    rw [hctrl] at h
    have hfetched : fetched = false := by
      cases pc with
      | eosPublishing id stoppedAt => exact h
      | kvDeleting captured stoppedAt cleared => exact h.2
      | eventPublishing captured cleared => exact h.2
    rw [hfetched] at h ⊢
    exact settles_stopStep h
  | @ctrlAcked raised hup hctrl r =>
    rw [hctrl] at h
    cases raised
    · exact h
    · exact h

/-- Beside the control loop nothing becomes active or idle, if silence stops no session. -/
theorem active_of_beside {a : AudioProducer.Action} (ht : AudioProducer.step below p a = some q)
    (ha : a.duringHandler = true) (hctrl : a.isCtrl = false) (hstops : p.audio.stops = [])
    (hsilence : ∀ now r, a = .audio now r → p.silenceReached below = false) :
    q.mem.isActive = p.mem.isActive ∧ q.audio.stops = [] := by
  cases AudioProducer.stepped_of_step ht with
  | chunk _ _ data r =>
    rw [AudioProducer.routeChunk.eq_def]
    split
    · simp [AudioPc.stops]
    · exact ⟨rfl, rfl⟩
  | @published chunk _ haudio now r =>
    have hnot := hsilence now r rfl
    simp only [AudioProducer.State.silenceReached, haudio, Bool.and_eq_false_imp,
      Bool.not_eq_true'] at hnot
    simp only [AudioProducer.checkSilence]
    split
    · exact ⟨rfl, rfl⟩
    · rename_i hodd
      split
      · rename_i hlong
        rw [hnot (Bool.not_eq_true _ ▸ hodd)] at hlong
        contradiction
      · exact ⟨rfl, rfl⟩
  | dropped _ _ now r => exact ⟨rfl, rfl⟩
  | buffered _ _ now r => exact ⟨rfl, rfl⟩
  | @audioStop pc _ haudio now r =>
    rw [haudio] at hstops
    contradiction
  | @flush i f _ _ answer r =>
    have hF := AudioProducer.flushed_flushStep p i f answer r
    exact ⟨by rw [hF.mem], by rw [hF.audio]; exact hstops⟩
  | expire n => exact ⟨rfl, hstops⟩
  | setConfig value => exact ⟨rfl, hstops⟩
  | _ => contradiction

/-- The control loop does not touch the audio loop. -/
theorem stops_of_ctrl {r : Reply} (ht : AudioProducer.step below p (.ctrl r) = some q) :
    q.audio = p.audio ∧ q.up = p.up := by
  cases AudioProducer.stepped_of_step ht with
  | @ctrlStart pc hup hctrl r =>
    refine ⟨(AudioProducer.audio_startStep (s := p) r pc).1, ?_⟩
    cases pc with
    | kvPutting stamp label => exact AudioProducer.up_activate p stamp label r
    | configReading stamp label since value => exact AudioProducer.up_announce p _ r
    | eventPublishing => rfl
  | @ctrlStop pc hup hctrl r =>
    have hstopping : AudioProducer.Stopping .control p (AudioProducer.stopStep p pc r .control) :=
      AudioProducer.stopping_stopStep
    refine ⟨?_, hstopping.up⟩
    cases hstopping.loops with
    | control haudio _ => exact haudio
  | ctrlAcked hup hctrl r => exact ⟨rfl, rfl⟩

/-- A command leaves the audio loop where it is. -/
theorem audio_handleControlMessage (payload : Option Json) :
    (AudioProducer.handleControlMessage p payload now r).audio = p.audio := by
  have hstart (label : Json) : (AudioProducer.beginStart p now label r).audio = p.audio := by
    rcases hkv : p.mem.sessionKv with - | -
    · rw [AudioProducer.beginStart_of_no_kv p now label r hkv]
      exact (AudioProducer.audio_activate now label r).1
    · rw [AudioProducer.beginStart_of_kv p now label r hkv]
  rw [AudioProducer.handleControlMessage.eq_def]
  split
  · rfl
  · split
    · split
      · rfl
      · exact hstart _
    · split
      · have hstopping :
          AudioProducer.Stopping .control p (AudioProducer.beginStop p now r .control) :=
          AudioProducer.stopping_beginStop
        cases hstopping.loops with
        | control haudio _ => exact haudio
      · rfl
  · rfl

/-! ### The system -/

/-- A step that is no fetch is one of audio-producer. -/
theorem producer_of_step {a : AudioProducer.Action} (ht : step below s (.producer a) = some t) :
    ∃ q, AudioProducer.step below s.producer a = some q ∧ t = { s with producer := q } := by
  cases a with
  | message payload now r => contradiction
  | _ =>
    simp only [step, Option.map_eq_some_iff] at ht
    obtain ⟨q, hq, rfl⟩ := ht
    exact ⟨q, hq, rfl⟩

/-- By the cases of the two systems: a publish puts a command on the stream, and audio-producer
fetches it or goes on with the one it has. -/
theorem Agrees.step {a : Action} (h : Agrees s) (hG : calm below s a)
    (ht : step below s a = some t) : Agrees t := by
  obtain ⟨hup, hcommand, haudio, hctrl, hasked⟩ := h
  cases a with
  | publish payload =>
    obtain rfl := Option.some.inj ht
    refine ⟨hup, fun payload' h ↦ ?_, haudio, hctrl, ask_of_command hG _ _⟩
    obtain rfl : payload = payload' := Option.some.inj h
    exact hG
  | discard =>
    obtain rfl := Option.some.inj ht
    exact ⟨hup, nofun, haudio, hctrl, rfl⟩
  | fetch now r =>
    rw [CommandStream.step] at ht
    split at ht
    · contradiction
    · rename_i payload hstored
      obtain ⟨p, hp, rfl⟩ := Option.map_eq_some_iff.1 ht
      cases AudioProducer.stepped_of_step hp with
      | message _ hfetching _ _ _ =>
        rw [hfetching] at hctrl
        rw [hstored] at hasked
        refine ⟨(AudioProducer.up_handleControlMessage payload now).trans hup, nofun, ?_,
          settles_handleControlMessage hctrl payload, hasked⟩
        rw [audio_handleControlMessage]
        exact haudio
  | producer a =>
    obtain ⟨q, hq, rfl⟩ := producer_of_step ht
    cases a with
    | message payload now r => contradiction
    | crash => exact hG.elim
    | boot sessionKv configKv raised => simp [AudioProducer.step, hup] at hq
    | ctrl r =>
      obtain ⟨haudio', hup'⟩ := stops_of_ctrl hq
      exact ⟨hup'.trans hup, hcommand, by rw [haudio']; exact haudio, settles_ctrl hctrl hq, hasked⟩
    | subscribed ok =>
      cases AudioProducer.stepped_of_step hq with
      | subscribed _ hsubscribing _ =>
        rw [hsubscribing] at hctrl
        refine ⟨hup, hcommand, haudio, ?_, hasked⟩
        cases ok
        · exact hctrl
        · exact hctrl
    | ctrlExit =>
      cases AudioProducer.stepped_of_step hq with
      | ctrlExit _ hfetching =>
        rw [hfetching] at hctrl
        exact ⟨hup, hcommand, haudio, hctrl, hasked⟩
    | chunk _ _ | audio _ _ | flush _ _ _ | expire _ | setConfig _ =>
      obtain ⟨hctrl', hup'⟩ := AudioProducer.ctrl_of_beside hq rfl rfl
      obtain ⟨hactive, haudio'⟩ := active_of_beside hq rfl rfl haudio
        (fun now r ha ↦ by first | contradiction | exact hG)
      refine ⟨hup'.trans hup, hcommand, haudio', ?_, hasked⟩
      rw [hctrl', hactive]
      exact hctrl

/-- So they agree in every run; the process is up after its boot. -/
theorem agrees_of_reachable (hs : (system below).Reachable (calm below) s) : Agrees s := by
  refine Inductive.reachable ⟨?_, fun h hG ht ↦ h.step hG ht⟩ hs
  rintro s ⟨down, sessionKv, configKv, raised, hproducer, hstored, hfetched, hasked⟩
  have hboot : s.producer.up = true ∧ s.producer.audio.stops = [] ∧
    s.producer.ctrl = .subscribing := by
    rw [hproducer, AudioProducer.boot, AudioProducer.recoverSession.eq_def]
    split
    · split <;> exact ⟨rfl, rfl, rfl⟩
    · exact ⟨rfl, rfl, rfl⟩
  obtain ⟨hup, haudio, hctrl⟩ := hboot
  refine ⟨hup, fun payload h ↦ ?_, haudio, ?_, ?_⟩
  · rw [hstored] at h
    contradiction
  · rw [hctrl]
    exact hfetched.symm
  · rw [hstored, hasked, hfetched]

/-! ### The way to a rest -/

/-- A step of the control loop, or the fetch of what is in the stream. -/
def Action.isLoop : Action → Bool
  | .fetch _ _ => true
  | .producer (.ctrl _) => true
  | .producer (.subscribed _) => true
  | _ => false

/-- The control loop is at its fetch, or in a handler whose ack has not failed. -/
def Handling (pc : CtrlPc) : Prop := pc = .fetching ∨ (pc.busy = true ∧ pc ≠ .acking true)

/-- In a handler the loop can go on, and has less to do then. -/
theorem exists_ctrl (below : Bytes → Bool) (hup : p.up = true) (hbusy : p.ctrl.busy = true)
    (hack : p.ctrl ≠ .acking true) :
    ∃ q, AudioProducer.step below p (.ctrl .ok) = some q ∧ q.up = true ∧ q.ctrl.rest < p.ctrl.rest ∧
      Handling q.ctrl := by
  obtain ⟨q, hq⟩ : ∃ q, AudioProducer.step below p (.ctrl .ok) = some q := by
    refine Option.isSome_iff_exists.1 ?_
    cases hpc : p.ctrl with
    | subscribing | fetching | exited => simp [hpc, CtrlPc.busy] at hbusy
    | _ => simp [AudioProducer.step, AudioProducer.runStep, AudioProducer.ctrlStep, hup, hpc]
  have hok : q.ctrl ≠ .acking true := by
    cases AudioProducer.stepped_of_step hq with
    | @ctrlStart pc _ _ r =>
      rcases (AudioProducer.ctrl_startStep (s := p) (r := .ok) pc).2 with ⟨pc', hpc'⟩ | hacking
      · simp [hpc']
      · simp [hacking, Reply.raised]
    | @ctrlStop pc _ _ r =>
      rcases (AudioProducer.ctrl_stopStep (s := p) (r := .ok) pc).2 with ⟨pc', hpc'⟩ | hacking
      · simp [hpc']
      · simp [hacking, Reply.raised]
    | @ctrlAcked raised _ _ r => cases raised <;> simp
  obtain ⟨hup', hrest, hnext⟩ := AudioProducer.ctrl_step hq hok
  refine ⟨q, hq, hup', hrest, ?_⟩
  rcases hnext with ⟨pc, pc', -, hpc'⟩ | ⟨pc, pc', -, hpc'⟩ | ⟨-, -, hacking⟩ | ⟨raised, hacking,
    hreturn⟩
  · exact Or.inr ⟨by rw [hpc']; rfl, hok⟩
  · exact Or.inr ⟨by rw [hpc']; rfl, hok⟩
  · exact Or.inr ⟨by rw [hacking]; rfl, hok⟩
  · cases raised with
    | false => exact Or.inl hreturn
    | true => exact absurd hacking hack

/-- The handler comes to the next fetch. By induction on the steps it has still to take. -/
theorem exists_fetching (below : Bytes → Bool) (n : ℕ) (s : State) (hup : s.producer.up = true)
    (hn : s.producer.ctrl.rest ≤ n) (hctrl : Handling s.producer.ctrl) :
    ∃ as t, (system below).Run (calm below) s as t ∧ (∀ a ∈ as, a.isLoop = true) ∧
      t.producer.ctrl = .fetching ∧ t.stored = s.stored ∧ t.asked = s.asked := by
  induction n generalizing s with
  | zero =>
    rcases hctrl with hfetching | ⟨hbusy, hack⟩
    · exact ⟨[], s, Run.nil, by simp, hfetching, rfl, rfl⟩
    · obtain ⟨q, -, -, hrest, -⟩ := exists_ctrl below hup hbusy hack
      omega
  | succ n ih =>
    rcases hctrl with hfetching | ⟨hbusy, hack⟩
    · exact ⟨[], s, Run.nil, by simp, hfetching, rfl, rfl⟩
    · obtain ⟨q, hq, hup', hrest, hctrl'⟩ := exists_ctrl below hup hbusy hack
      have hstep : step below s (.producer (.ctrl .ok)) = some { s with producer := q } := by
        simp [step, hq]
      obtain ⟨as, t, hrun, hloop, hfetching, hstored, hasked⟩ :=
        ih { s with producer := q } hup' (by show q.ctrl.rest ≤ n; omega) hctrl'
      refine ⟨[.producer (.ctrl .ok)] ++ as, t, (Run.single trivial hstep).trans hrun, ?_,
        hfetching, hstored, hasked⟩
      intro a ha
      rcases List.mem_append.1 ha with ha | ha
      · rw [List.mem_singleton.1 ha]
        rfl
      · exact hloop a ha

/-- The control loop has not ended, and no ack has raised, which ends it. -/
def Going (pc : CtrlPc) : Prop := pc ≠ .exited ∧ pc ≠ .acking true

/-- Until it has subscribed, the loop is in no handler and at no fetch. -/
theorem handling_of_going {pc : CtrlPc} (h : Going pc) (hsubscribed : pc ≠ .subscribing) :
    Handling pc := by
  obtain ⟨hexited, hacking⟩ := h
  cases pc with
  | subscribing => contradiction
  | exited => contradiction
  | fetching => exact Or.inl rfl
  | starting pc => exact Or.inr ⟨rfl, nofun⟩
  | stopping pc => exact Or.inr ⟨rfl, nofun⟩
  | acking raised => exact Or.inr ⟨rfl, hacking⟩

/-- A loop that goes on comes to the next fetch, by way of the subscription if it has not
subscribed. -/
theorem exists_fetching_of_going (below : Bytes → Bool) (s : State) (hup : s.producer.up = true)
    (hctrl : Going s.producer.ctrl) :
    ∃ as t, (system below).Run (calm below) s as t ∧ (∀ a ∈ as, a.isLoop = true) ∧
      t.producer.ctrl = .fetching ∧ t.stored = s.stored ∧ t.asked = s.asked := by
  by_cases hpc : s.producer.ctrl = .subscribing
  · have hstep : step below s (.producer (.subscribed true)) =
        some { s with producer := { s.producer with ctrl := .fetching } } := by
      simp [step, AudioProducer.step, AudioProducer.runStep, hup, hpc]
    refine ⟨[.producer (.subscribed true)], _, Run.single trivial hstep, fun a ha ↦ ?_, rfl, rfl,
      rfl⟩
    rw [List.mem_singleton.1 ha]
    rfl
  · exact exists_fetching below _ s hup le_rfl (handling_of_going hctrl hpc)

/-- A command begins a start or a stop, or is acked at once. -/
theorem handling_of_command {payload : Option Json}
    (h : wantsStart payload = true ∨ wantsStop payload = true) :
    Handling (AudioProducer.handleControlMessage p payload now .ok).ctrl := by
  have hwell : AudioProducer.malformed payload = false := by
    cases payload with
    | none => rfl
    | some value =>
      cases value with
      | obj data => rfl
      | _ => simp [wantsStart, wantsStop] at h
  rcases AudioProducer.ctrl_handleControlMessage (s := p) (r := .ok) hwell now with
    hacking | ⟨-, ⟨pc, hpc⟩, -⟩ | ⟨-, ⟨pc, hpc⟩, -⟩
  · rw [hacking]
    exact Or.inr ⟨rfl, nofun⟩
  · rw [hpc]
    exact Or.inr ⟨rfl, nofun⟩
  · rw [hpc]
    exact Or.inr ⟨rfl, nofun⟩

/-- At rest, what was asked for is carried out. -/
theorem Agrees.of_resting (h : Agrees s) (hrest : s.Resting) :
    s.producer.mem.isActive = s.asked := by
  obtain ⟨hctrl, hstored⟩ := hrest
  have hsettles := h.ctrl
  have hasked := h.asked
  rw [hctrl] at hsettles
  rw [hstored] at hasked
  exact hsettles.trans hasked.symm

/-- **The last command decides**, in every run: at rest audio-producer is active exactly if the last
command that was not discarded asks for it, or, if there was none, if it has recovered a session. -/
theorem active_iff_asked (hs : (system below).Reachable (calm below) s) (hrest : s.Resting) :
    s.producer.mem.isActive = s.asked :=
  (agrees_of_reachable hs).of_resting hrest

/-- audio-producer, started on an empty broker. -/
def booted : State where
  producer := AudioProducer.boot {} false false false
  fetched := false
  asked := false

theorem booted_init : (system below).init booted := ⟨{}, false, false, false, rfl, rfl, rfl, rfl⟩

/-- A start is published while a stop is in the stream, and is the one to be fetched. -/
def overwritten : List Action :=
  [.publish (AudioProducer.command "stop"), .publish (AudioProducer.command "start"),
    .producer (.subscribed true), .fetch AudioProducer.first .ok]

/-- The handler of the start is done, and audio-producer is active. -/
theorem active_iff_asked_overwritten : ∃ s,
    (system AudioProducer.silent).Reachable (calm AudioProducer.silent) s ∧ s.Resting ∧
      s.producer.mem.isActive = true := by
  have hrun : (system AudioProducer.silent).Run (calm AudioProducer.silent) booted
      (overwritten ++ [.producer (.ctrl .ok), .producer (.ctrl .ok)]) _ := run_of_exec rfl
  have hreach := (Reachable.of_init booted_init).run hrun
  exact ⟨_, hreach, ⟨rfl, rfl⟩, active_iff_asked hreach ⟨rfl, rfl⟩⟩

/-- **And it gets there**: unless it has ended, or is about to for an ack that has raised, the
control loop comes to a rest by its own steps, and what was asked for is then carried out. -/
theorem exists_rest (hs : (system below).Reachable (calm below) s) (hctrl : Going s.producer.ctrl) :
    ∃ as t, (system below).Run (calm below) s as t ∧ (∀ a ∈ as, a.isLoop = true) ∧ t.Resting ∧
      t.asked = s.asked ∧ t.producer.mem.isActive = s.asked := by
  obtain ⟨as, t, hrun, hloop, hfetching, hstored, hasked⟩ :=
    exists_fetching_of_going below s (agrees_of_reachable hs).up hctrl
  have hagrees := agrees_of_reachable (hs.run hrun)
  cases hpayload : t.stored with
  | none =>
    have hresting : t.Resting := ⟨hfetching, hpayload⟩
    exact ⟨as, t, hrun, hloop, hresting, hasked, (hagrees.of_resting hresting).trans hasked⟩
  | some payload =>
    -- The message is fetched, and its handler comes to the next fetch.
    obtain ⟨v, hv⟩ : ∃ v, v = { t with
        producer := AudioProducer.handleControlMessage t.producer payload AudioProducer.first .ok
        stored := none
        fetched := ask t.fetched payload } := ⟨_, rfl⟩
    have hfetch : step below t (.fetch AudioProducer.first .ok) = some v := by
      simp [step, hpayload, AudioProducer.step, AudioProducer.runStep, hagrees.up, hfetching, hv]
    have hsingle : (system below).Run (calm below) t [.fetch AudioProducer.first .ok] v :=
      Run.single trivial hfetch
    have hhandling : Handling v.producer.ctrl := by
      rw [hv]
      exact handling_of_command (hagrees.command payload hpayload)
    obtain ⟨bs, u, hrun', hloop', hfetching', hstored', hasked'⟩ :=
      exists_fetching below _ v (agrees_of_reachable ((hs.run hrun).run hsingle)).up le_rfl
        hhandling
    rw [hv] at hstored' hasked'
    have hall := (hrun.trans hsingle).trans hrun'
    have hresting : u.Resting := ⟨hfetching', hstored'⟩
    have hactive := (agrees_of_reachable (hs.run hall)).of_resting hresting
    refine ⟨_, u, hall, ?_, hresting, hasked'.trans hasked, hactive.trans (hasked'.trans hasked)⟩
    intro a ha
    rcases List.mem_append.1 ha with ha | ha
    · rcases List.mem_append.1 ha with ha | ha
      · exact hloop a ha
      · rw [List.mem_singleton.1 ha]
        rfl
    · exact hloop' a ha

/-- From a start of audio-producer on, before the loop has subscribed, with two commands
published. -/
theorem exists_rest_overwritten : ∃ s t, ∃ as,
    (system AudioProducer.silent).Reachable (calm AudioProducer.silent) s ∧
      s.producer.ctrl = .subscribing ∧
      (system AudioProducer.silent).Run (calm AudioProducer.silent) s as t ∧ t.Resting ∧
        t.producer.mem.isActive = true := by
  have hrun : (system AudioProducer.silent).Run (calm AudioProducer.silent) booted
      (overwritten.take 2) _ := run_of_exec rfl
  have hreach := (Reachable.of_init booted_init).run hrun
  obtain ⟨as, t, hrun', -, hrest, -, hactive⟩ := exists_rest hreach ⟨nofun, nofun⟩
  exact ⟨_, t, as, hreach, rfl, hrun', hrest, hactive⟩

end LiveSTT.CommandStream
