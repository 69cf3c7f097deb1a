import LiveSTT.Composition.StopPolicy
import LiveSTT.Lib.JsonText
import LiveSTT.Lib.TransitionSystem
import LiveSTT.Messaging.Broker

/-!
# The table of schedules

Administrators create, change and delete schedules, each request with its own awaits, and
system-manager asks for the list every half minute and fires what is due. The table is the outcome
of the writes in the order in which they were committed; `history` is that order, which no code
keeps.

`answers_agree` says what the answers mean, of a `PUT` above all. The row is looked up in one
statement and written in another, and nobody looks whether the second has met it: an answer "ok"
says that there was a row with the id at the first, and that the second has given it the values of
the request unless the row was deleted in between. Then nothing is written, and the answer is the
same.

`published_of_table` follows a command of the schedule checker back to the table, by way of the poll
that has published it. Each poll reads the clock, asks for the list and evaluates it, three steps
with requests in between; `evaluations` records, which no code does, what each of them has gone by,
and which events of system-manager are its own. When the poll of a command has read its list, a row
stood in the table with the id of the command, and it had been accepted; it was enabled, ran on the
weekday of the poll, and had its time in the two minutes up to the poll's reading of the clock. And
no list, whatever the administrators do meanwhile, ends the process. That the days survive being
stored as JSON is the round trip of the text.
-/

namespace LiveSTT.ScheduleTable

open Calendar TransitionSystem SystemManager
open Gateway (ScheduleBody validateSchedule)

/-! ### The table -/

/-- A row of `schedules`. -/
structure Row where
  id : String
  dayOfWeek : List Char
  startTime : String
  stopTime : String
  labelTemplate : String
  stopPolicy : String
  enabled : ℤ

/-- The days as a JSON array. -/
def daysJson (days : List ℤ) : Json := .arr (days.map fun d : ℤ ↦ .num d)

/-- The row that `create_schedule` adds, and the values that `update_schedule` sets. -/
def rowOf (id : String) (body : ScheduleBody) : Row where
  id := id
  dayOfWeek := Json.dumps Json.Numerals.whole (daysJson body.dayOfWeek)
  startTime := body.startTime
  stopTime := body.stopTime
  labelTemplate := body.labelTemplate
  stopPolicy := body.stopPolicy
  enabled := if body.enabled then 1 else 0

/-- A number of a list of days. -/
def dayOf : Json → Option ℤ
  | .num q => if q.den = 1 then some q.num else none
  | _ => none

/-- An entry of the answer of `list_schedules`, as the schedule checker reads it. `none` is a row
whose days are no list of whole numbers. -/
def entryOf (r : Row) : Option Schedule :=
  match Json.loads Json.Numerals.whole r.dayOfWeek with
  | some (.arr days) => (days.mapM dayOf).map fun days ↦
    { id := r.id, enabled := some (decide (r.enabled ≠ 0)), dayOfWeek := some days
      startTime := r.startTime, stopTime := r.stopTime, labelTemplate := some r.labelTemplate
      stopPolicy := some r.stopPolicy }
  | _ => none

/-- A write that was committed. -/
inductive Write
  | created (id : String) (body : ScheduleBody)
  | updated (id : String) (body : ScheduleBody)
  | deleted (id : String)

/-- What a write does to the table. -/
def Write.apply (table : List Row) : Write → List Row
  | .created id body => table ++ [rowOf id body]
  | .updated id body => table.map fun r ↦ if r.id = id then rowOf id body else r
  | .deleted id => table.filter fun r ↦ r.id ≠ id

/-- The table after the writes. -/
def tableOf (history : List Write) : List Row := history.foldl Write.apply []

/-! ### The requests -/

inductive Request
  | post (id : String) (body : ScheduleBody)
  | put (id : String) (body : ScheduleBody)
  | delete (id : String)

/-- Where the handler of a request is suspended. -/
inductive HandlerPc
  /-- At the transaction of `create_schedule`; the id has been drawn. -/
  | creating (id : String) (body : ScheduleBody)
  /-- At the select of `update_schedule`. -/
  | selecting (id : String) (body : ScheduleBody)
  /-- At its update. `seen` is the number of writes at the select, which no code reads. -/
  | updating (id : String) (body : ScheduleBody) (seen : ℕ)
  /-- At the transaction of `delete_schedule`. -/
  | deleting (id : String)

/-- An answer, with the number of writes at the select of an update, and when it was given. -/
structure Answer where
  request : Request
  status : ℕ
  seen : ℕ
  answered : ℕ

/-- Where `_check_schedules` is suspended. -/
inductive PollPc
  /-- Between two polls. -/
  | resting
  /-- The clock has been read, and the list is asked for. -/
  | fetching (now : Reading)
  /-- The list has come, read after `seen` writes. -/
  | fetched (now : Reading) (schedules : List Schedule) (seen : ℕ)

/-- A poll that has evaluated its list. No code keeps this. -/
structure Evaluation where
  /-- The poll's reading of the clock. -/
  now : Reading
  /-- The number of writes when its list was read. -/
  seen : ℕ
  /-- The number of events of system-manager when it was begun. -/
  before : ℕ
  /-- The number of them at its end. -/
  after : ℕ

structure State where
  table : List Row := []
  handlers : List HandlerPc := []
  answers : List Answer := []
  poll : PollPc := .resting
  manager : SystemManager.State := {}
  /-- The polls that have evaluated their lists, in order. -/
  evaluations : List Evaluation := []
  /-- The writes in the order of their commits. -/
  history : List Write := []

inductive Action
  /-- A request comes in; `create_schedule` draws an id. -/
  | request (q : Request)
  /-- A handler continues after its database call. -/
  | handler (i : ℕ) (r : Reply)
  /-- `_check_schedules` reads the clock. -/
  | check (now : Reading)
  /-- `list_schedules` answers it, or the fetch fails. -/
  | list (r : Reply)
  /-- The list is evaluated, with the answers to the publishes. -/
  | evaluate (start stop : String → Reply)
  /-- system-manager is started again. -/
  | restart

variable (shown : String)

def State.answer (s : State) (q : Request) (status seen : ℕ) : State :=
  { s with answers := s.answers ++ [⟨q, status, seen, s.history.length⟩] }

def State.write (s : State) (w : Write) : State :=
  { s with table := w.apply s.table, history := s.history ++ [w] }

/-- The handlers up to their first await. -/
def beginRequest (s : State) : Request → State
  | .post id body => match validateSchedule shown body with
    | some _ => s.answer (.post id body) 400 s.history.length
    | none => { s with handlers := s.handlers ++ [.creating id body] }
  | .put id body => match validateSchedule shown body with
    | some _ => s.answer (.put id body) 400 s.history.length
    | none => { s with handlers := s.handlers ++ [.selecting id body] }
  | .delete id => { s with handlers := s.handlers ++ [.deleting id] }

/-- A handler after its database call; an exception is an answer 500. -/
def resume (s : State) (r : Reply) : HandlerPc → State
  | .creating id body =>
    -- The id is the primary key.
    if id ∈ s.table.map Row.id then s.answer (.post id body) 500 s.history.length
    else
      let t := if r.applied then s.write (.created id body) else s
      t.answer (.post id body) (if r.raised then 500 else 201) s.history.length
  | .selecting id body =>
    if r.raised then s.answer (.put id body) 500 s.history.length
    else if id ∈ s.table.map Row.id then
      { s with handlers := s.handlers ++ [.updating id body s.history.length] }
    else s.answer (.put id body) 404 s.history.length
  | .updating id body seen =>
    let t := if r.applied then s.write (.updated id body) else s
    t.answer (.put id body) (if r.raised then 500 else 200) seen
  | .deleting id =>
    let t := if r.applied then s.write (.deleted id) else s
    t.answer (.delete id)
      (if r.raised then 500 else if id ∈ s.table.map Row.id then 200 else 404) s.history.length

/-- What is evaluated: the schedules, with the answers to the publishes made for them. -/
def fetchedOf (start stop : String → Reply) (schedules : List Schedule) : List Fetched :=
  schedules.map fun x ↦ ⟨x, start x.id, stop x.id⟩

/-- The rest of a poll, from the list on. -/
def State.evaluate (s : State) (now : Reading) (xs : List Fetched) (seen : ℕ) : State :=
  let manager := checkSchedules s.manager ⟨now, some xs⟩
  { s with
    poll := .resting
    manager := manager
    evaluations := s.evaluations ++ [⟨now, seen, s.manager.log.length, manager.log.length⟩] }

def step (s : State) : Action → Option State
  | .request q => some (beginRequest shown s q)
  | .handler i r => s.handlers[i]?.map fun pc ↦
    resume { s with handlers := s.handlers.eraseIdx i } r pc
  | .check now =>
    match s.poll with
    | .resting => if s.manager.failed then none else some { s with poll := .fetching now }
    | _ => none
  | .list r =>
    match s.poll with
    | .fetching now => some { s with
        poll := if r.raised then .resting
          else match s.table.mapM entryOf with
            | some schedules => .fetched now schedules s.history.length
            | none => .resting }
    | _ => none
  | .evaluate start stop =>
    match s.poll with
    | .fetched now schedules seen => some (s.evaluate now (fetchedOf start stop schedules) seen)
    | _ => none
  | .restart => some { s with poll := .resting, manager := { log := s.manager.log } }

/-- The gateway's handlers, its table and system-manager. -/
def system : TransitionSystem State Action where
  init s := s = {}
  step := step shown

variable {shown} {s t : State} {a : Action}

/-! ### Rows -/

/-- The days come back from the table. -/
theorem entryOf_rowOf (id : String) (body : ScheduleBody) :
    entryOf (rowOf id body) = some (listed id body) := by
  have hprintable : Json.Printable Json.Numerals.whole (daysJson body.dayOfWeek) := by
    refine .arr fun x hx ↦ ?_
    obtain ⟨d, -, rfl⟩ := List.mem_map.1 hx
    exact .num (Rat.den_intCast d)
  have hdays (days : List ℤ) : (days.map fun d : ℤ ↦ Json.num d).mapM dayOf = some days := by
    induction days with
    | nil => rfl
    | cons d days ih =>
      have hd : dayOf (.num d) = some d := by simp [dayOf]
      rw [List.map_cons, List.mapM_cons, hd, ih]
      rfl
  have henabled : decide ((rowOf id body).enabled ≠ 0) = body.enabled := by
    cases h : body.enabled <;> simp [rowOf, h]
  have hloads : Json.loads Json.Numerals.whole (rowOf id body).dayOfWeek =
      some (daysJson body.dayOfWeek) := Json.loads_dumps hprintable
  rw [entryOf, hloads, daysJson]
  simp only [hdays, Option.map_some]
  rw [henabled]
  rfl

/-- The body of the write was accepted. -/
def Write.Accepted (shown : String) : Write → Prop
  | .created _ body | .updated _ body => validateSchedule shown body = none
  | .deleted _ => True

theorem tableOf_append (history : List Write) (w : Write) :
    tableOf (history ++ [w]) = w.apply (tableOf history) :=
  List.foldl_append

/-- A row is of an accepted body. -/
theorem exists_body {history : List Write} (h : ∀ w ∈ history, w.Accepted shown) {r : Row}
    (hr : r ∈ tableOf history) :
    ∃ body, r = rowOf r.id body ∧ validateSchedule shown body = none := by
  induction history using List.reverseRecOn generalizing r with
  | nil => exact absurd hr List.not_mem_nil
  | append_singleton history w ih =>
    have hbefore := fun {r} ↦ ih (fun w hw ↦ h w (List.mem_append_left _ hw)) (r := r)
    have hw : w.Accepted shown := h w (List.mem_append_right _ (List.mem_singleton_self w))
    rw [tableOf_append] at hr
    cases w with
    | created id body =>
      rcases List.mem_append.1 hr with hr | hr
      · exact hbefore hr
      · obtain rfl := List.mem_singleton.1 hr
        exact ⟨body, rfl, hw⟩
    | updated id body =>
      obtain ⟨x, hx, rfl⟩ := List.mem_map.1 hr
      by_cases hid : x.id = id
      · rw [if_pos hid]
        exact ⟨body, rfl, hw⟩
      · rw [if_neg hid]
        exact hbefore hx
    | deleted id => exact hbefore (List.mem_of_mem_filter hr)

/-! ### Commands -/

/-- The payload of a command. -/
def commandOf (c : Command) (sched : Schedule) (now : Reading) : Dict :=
  match c with
  | .start => [("command", .str "start"), ("label", .str (Text.replace (sched.labelTemplate.getD "")
      "\x7bdate\x7d" (now.date.monthName ++ " " ++ Text.padded now.date.day))),
        ("scheduled", .bool true)]
  | .stop => [("command", .str "stop")]

/-- The schedule is to be fired. -/
structure Fires (c : Command) (sched : Schedule) (now : Reading) : Prop where
  runsOn : sched.runsOn now = true
  inWindow : withinWindow windowMinutes now.hhmm (sched.target c) = some true
  policy : c = .stop → sched.policy ≠ "soft"

/-- The log goes on with events that satisfy `P`. -/
def Logs (P : Event → Prop) (m m' : SystemManager.State) : Prop :=
  ∃ es, m'.log = m.log ++ es ∧ ∀ e ∈ es, P e

namespace Logs

variable {P Q : Event → Prop} {m m' m'' : SystemManager.State}

theorem of_eq (h : m'.log = m.log) : Logs P m m' :=
  ⟨[], by rw [h, List.append_nil], fun _ he ↦ absurd he List.not_mem_nil⟩

theorem mono (h : Logs P m m') (hPQ : ∀ e, P e → Q e) : Logs Q m m' := by
  obtain ⟨es, hlog, hes⟩ := h
  exact ⟨es, hlog, fun e he ↦ hPQ e (hes e he)⟩

theorem trans (h : Logs P m m') (h' : Logs P m' m'') : Logs P m m'' := by
  obtain ⟨es, hlog, hes⟩ := h
  obtain ⟨es', hlog', hes'⟩ := h'
  refine ⟨es ++ es', by rw [hlog', hlog, List.append_assoc], fun e he ↦ ?_⟩
  rcases List.mem_append.1 he with he | he
  · exact hes e he
  · exact hes' e he

/-- An event of the longer log is one of the shorter, or comes after it and satisfies `P`. -/
theorem getElem? (h : Logs P m m') {i : ℕ} {e : Event} (he : m'.log[i]? = some e) :
    m.log[i]? = some e ∨ m.log.length ≤ i ∧ P e := by
  obtain ⟨es, hlog, hes⟩ := h
  rw [hlog] at he
  by_cases hi : i < m.log.length
  · rw [List.getElem?_append_left hi] at he
    exact Or.inl he
  · rw [List.getElem?_append_right (Nat.not_lt.1 hi)] at he
    exact Or.inr ⟨Nat.not_lt.1 hi, hes e (List.mem_of_getElem? he)⟩

theorem length_le (h : Logs P m m') : m.log.length ≤ m'.log.length := by
  obtain ⟨es, hlog, -⟩ := h
  rw [hlog, List.length_append]
  exact Nat.le_add_right _ _

end Logs

/-- If the event is a command, it is one of a fetched schedule that is to be fired. -/
def Commanded (now : Reading) (xs : List Fetched) (e : Event) : Prop :=
  ∀ c id date payload, e = .published c id date payload → ∃ x ∈ xs, id = x.sched.id ∧
    date = now.date ∧ payload = commandOf c x.sched now ∧ Fires c x.sched now

/-- A publish logs its command, if it is stored. -/
theorem logs_publish {m : SystemManager.State} {c : Command} {x : Fetched} {now : Reading}
    {r : Reply} (hfires : Fires c x.sched now) :
    Logs (Commanded now [x]) m (publish m c x.sched now (commandOf c x.sched now) r) := by
  refine ⟨_, List.append_assoc _ _ _, fun e he c' id date payload heq ↦ ?_⟩
  rw [heq] at he
  rcases List.mem_append.1 he with he | he
  · split_ifs at he
    · obtain ⟨rfl, rfl, rfl, rfl⟩ := Event.published.inj (List.mem_singleton.1 he)
      exact ⟨x, List.mem_singleton_self x, rfl, rfl, rfl, hfires⟩
    · exact absurd he List.not_mem_nil
  · split_ifs at he
    · exact Event.noConfusion (List.mem_singleton.1 he)
    · exact absurd he List.not_mem_nil

/-- Firing a command that is due logs it, unless it is a stop that is left to the silence
timeout. -/
theorem logs_fire {m : SystemManager.State} {c : Command} {x : Fetched} {now : Reading}
    (hdue : Due m c x.sched now) : Logs (Commanded now [x]) m (fire m c x now) := by
  obtain ⟨hruns, hwindow, -⟩ := hdue
  cases c with
  | start => exact logs_publish ⟨hruns, hwindow, nofun⟩
  | stop =>
    rw [fire, fireStop]
    split_ifs with hsoft
    · refine ⟨_, rfl, fun e he c' id date payload heq ↦ ?_⟩
      rw [heq] at he
      exact Event.noConfusion (List.mem_singleton.1 he)
    · exact logs_publish ⟨hruns, hwindow, fun _ ↦ hsoft⟩

/-- A half of an evaluation publishes the command of its schedule, if it is to be fired. -/
theorem logs_evalHalf {m : SystemManager.State} {c : Command} {x : Fetched} {now : Reading}
    (hruns : x.sched.runsOn now = true) : Logs (Commanded now [x]) m (evalHalf m c x now) := by
  rcases evalHalf_cases m c now hruns with ⟨hdue, heq⟩ | ⟨-, heq | heq⟩
  · rw [heq]
    exact logs_fire hdue
  · rw [heq]
    exact Logs.of_eq rfl
  · rw [heq]
    exact Logs.of_eq rfl

/-- The evaluation of a schedule publishes its commands only. -/
theorem logs_evalSchedule {m : SystemManager.State} {x : Fetched} {now : Reading} :
    Logs (Commanded now [x]) m (evalSchedule m x now) := by
  rw [evalSchedule_eq]
  split_ifs with hruns hfailed
  · exact logs_evalHalf hruns
  · exact (logs_evalHalf hruns).trans (logs_evalHalf hruns)
  · exact Logs.of_eq rfl

theorem Commanded.mono {now : Reading} {xs ys : List Fetched} (h : xs ⊆ ys) {e : Event}
    (he : Commanded now xs e) : Commanded now ys e := by
  intro c id date payload heq
  obtain ⟨x, hx, hcommand⟩ := he c id date payload heq
  exact ⟨x, h hx, hcommand⟩

/-- **What an evaluation publishes** are commands of schedules of the list that are to be fired. -/
theorem logs_evalAll {now : Reading} (xs : List Fetched) (m : SystemManager.State) :
    Logs (Commanded now xs) m (evalAll now m xs) := by
  induction xs generalizing m with
  | nil => exact Logs.of_eq rfl
  | cons x xs ih =>
    have hone : Logs (Commanded now (x :: xs)) m (evalSchedule m x now) :=
      logs_evalSchedule.mono fun e he ↦ he.mono (by simp)
    rw [evalAll]
    split_ifs
    · exact hone
    · exact hone.trans ((ih _).mono fun e he ↦ he.mono (List.subset_cons_self x xs))

/-! ### The invariant -/

/-- The schedule was listed after `n` writes. -/
def ListedAt (shown : String) (history : List Write) (n : ℕ) (sched : Schedule) : Prop :=
  n ≤ history.length ∧ ∃ id body, sched = listed id body ∧
    rowOf id body ∈ tableOf (history.take n) ∧
    validateSchedule shown body = none

theorem ListedAt.append {history : List Write} {n : ℕ} {sched : Schedule}
    (h : ListedAt shown history n sched) (w : Write) : ListedAt shown (history ++ [w]) n sched := by
  obtain ⟨hn, id, body, hsched, hrow, hvalid⟩ := h
  refine ⟨?_, id, body, hsched, ?_, hvalid⟩
  · rw [List.length_append]
    omega
  · rwa [List.take_append_of_le_length hn]

/-- The bodies of a handler were accepted. -/
def HandlerPc.Accepted (shown : String) : HandlerPc → Prop
  | .creating _ body | .selecting _ body | .updating _ body _ => validateSchedule shown body = none
  | .deleting _ => True

/-- The event is one of the poll, and a command of its list. -/
structure Evaluation.Publishes (shown : String) (history : List Write) (p : Evaluation) (i : ℕ)
    (c : Command) (id : String) (date : Date) (payload : Dict) : Prop where
  before : p.before ≤ i
  after : i < p.after
  listed : ∃ sched, ListedAt shown history p.seen sched ∧ id = sched.id ∧ date = p.now.date ∧
    payload = commandOf c sched p.now ∧ Fires c sched p.now

theorem Evaluation.Publishes.append {history : List Write} {p : Evaluation} {i : ℕ} {c : Command}
    {id : String} {date : Date} {payload : Dict}
    (h : p.Publishes shown history i c id date payload) (w : Write) :
    p.Publishes shown (history ++ [w]) i c id date payload := by
  obtain ⟨hbefore, hafter, sched, hlisted, hfires⟩ := h
  exact ⟨hbefore, hafter, sched, hlisted.append w, hfires⟩

/-- Each poll goes by its own list, and has its own events: the later one by a list that was read
later, after the events of the other. -/
def Ordered (evaluations : List Evaluation) : Prop :=
  evaluations.Pairwise fun p p' ↦ p.after ≤ p'.before ∧ p.seen ≤ p'.seen

structure Entered (shown : String) (s : State) : Prop where
  table : s.table = tableOf s.history
  history : ∀ w ∈ s.history, w.Accepted shown
  handlers : ∀ pc ∈ s.handlers, pc.Accepted shown
  poll : ∀ now schedules n, s.poll = .fetched now schedules n → n ≤ s.history.length ∧
    (∀ p ∈ s.evaluations, p.seen ≤ n) ∧ ∀ sched ∈ schedules, ListedAt shown s.history n sched
  running : s.manager.failed = false
  ordered : Ordered s.evaluations
  evaluations : ∀ p ∈ s.evaluations, p.after ≤ s.manager.log.length ∧ p.seen ≤ s.history.length
  log : ∀ (i : ℕ) c id date payload, s.manager.log[i]? = some (.published c id date payload) →
    ∃ p ∈ s.evaluations, p.Publishes shown s.history i c id date payload

/-- An answer and a handler that goes on leave the table as it is. -/
theorem Entered.handler (h : Entered shown s) {handlers : List HandlerPc}
    (hhandlers : ∀ pc ∈ handlers, pc.Accepted shown) (answers : List Answer) :
    Entered shown { s with handlers := handlers, answers := answers } :=
  ⟨h.table, h.history, hhandlers, h.poll, h.running, h.ordered, h.evaluations, h.log⟩

/-- A write of an accepted body may be committed at any point between two polls. -/
theorem Entered.write (h : Entered shown s) {w : Write} (hw : w.Accepted shown) :
    Entered shown (s.write w) := by
  have hlength : s.history.length ≤ (s.history ++ [w]).length := by simp
  refine ⟨?_, fun w' hw' ↦ ?_, h.handlers, fun now schedules n hpoll ↦ ?_, h.running, h.ordered,
    fun p hp ↦ ⟨(h.evaluations p hp).1, (h.evaluations p hp).2.trans hlength⟩,
    fun i c id date payload hlog ↦ ?_⟩
  · show w.apply s.table = _
    rw [h.table]
    exact (tableOf_append s.history w).symm
  · rcases List.mem_append.1 hw' with hw' | hw'
    · exact h.history w' hw'
    · obtain rfl := List.mem_singleton.1 hw'
      exact hw
  · obtain ⟨hn, hseen, hlisted⟩ := h.poll now schedules n hpoll
    exact ⟨hn.trans hlength, hseen, fun sched hsched ↦ (hlisted sched hsched).append w⟩
  · obtain ⟨p, hp, hpublishes⟩ := h.log i c id date payload hlog
    exact ⟨p, hp, hpublishes.append w⟩

theorem Entered.answer (h : Entered shown s) (q : Request) (status seen : ℕ) :
    Entered shown (s.answer q status seen) :=
  h.handler h.handlers _

theorem Entered.writeIf (h : Entered shown s) {w : Write} (hw : w.Accepted shown) (b : Bool) :
    Entered shown (if b then s.write w else s) := by
  cases b with
  | true => exact h.write hw
  | false => exact h

theorem Entered.await (h : Entered shown s) {pc : HandlerPc} (hpc : pc.Accepted shown) :
    Entered shown { s with handlers := s.handlers ++ [pc] } := by
  refine h.handler (fun pc' hpc' ↦ ?_) s.answers
  rcases List.mem_append.1 hpc' with hpc' | hpc'
  · exact h.handlers pc' hpc'
  · obtain rfl := List.mem_singleton.1 hpc'
    exact hpc

/-- The body of a request is validated before the handler goes to the table. -/
theorem Entered.beginRequest (h : Entered shown s) (q : Request) :
    Entered shown (beginRequest shown s q) := by
  cases q with
  | post id body =>
    rw [ScheduleTable.beginRequest]
    split
    · exact h.answer _ _ _
    · rename_i hvalid
      exact h.await hvalid
  | put id body =>
    rw [ScheduleTable.beginRequest]
    split
    · exact h.answer _ _ _
    · rename_i hvalid
      exact h.await hvalid
  | delete id => exact h.await trivial

/-- A handler commits what it has validated. -/
theorem Entered.resume (h : Entered shown s) {pc : HandlerPc} (hpc : pc.Accepted shown)
    (r : Reply) : Entered shown (resume s r pc) := by
  cases pc with
  | creating id body =>
    rw [ScheduleTable.resume]
    split
    · exact h.answer _ _ _
    · exact (h.writeIf (w := .created id body) hpc r.applied).answer _ _ _
  | selecting id body =>
    rw [ScheduleTable.resume]
    split
    · exact h.answer _ _ _
    · split
      · exact h.await hpc
      · exact h.answer _ _ _
  | updating id body seen =>
    exact (h.writeIf (w := .updated id body) hpc r.applied).answer _ _ _
  | deleting id => exact (h.writeIf (w := .deleted id) trivial r.applied).answer _ _ _

theorem accepted_of_listedAt {history : List Write} {n : ℕ} {sched : Schedule}
    (h : ListedAt shown history n sched) : SystemManager.Accepted shown sched := by
  obtain ⟨-, id, body, hsched, -, hvalid⟩ := h
  exact ⟨id, body, hsched, hvalid⟩

/-- An entry of the list is of a row. -/
theorem exists_of_mem_mapM {α β : Type*} {f : α → Option β} {xs : List α} {ys : List β}
    (h : xs.mapM f = some ys) {y : β} (hy : y ∈ ys) : ∃ x ∈ xs, f x = some y := by
  induction xs generalizing ys with
  | nil =>
    obtain rfl : [] = ys := Option.some.inj h
    exact absurd hy List.not_mem_nil
  | cons x xs ih =>
    rw [List.mapM_cons] at h
    obtain ⟨z, hz, h⟩ := Option.bind_eq_some_iff.1 h
    obtain ⟨zs, hzs, h⟩ := Option.bind_eq_some_iff.1 h
    obtain rfl : z :: zs = ys := Option.some.inj h
    rcases List.mem_cons.1 hy with rfl | hy
    · exact ⟨x, List.mem_cons_self, hz⟩
    · obtain ⟨x', hx', hf⟩ := ih hzs hy
      exact ⟨x', List.mem_cons_of_mem _ hx', hf⟩

/-- The list that a poll reads is that of the writes so far. -/
theorem Entered.list (h : Entered shown s) (now : Reading) (r : Reply) :
    Entered shown { s with
      poll := if r.raised then .resting
        else match s.table.mapM entryOf with
          | some schedules => .fetched now schedules s.history.length
          | none => .resting } := by
  refine ⟨h.table, h.history, h.handlers, fun now' schedules n hpoll ↦ ?_, h.running, h.ordered,
    h.evaluations, h.log⟩
  replace hpoll : (if r.raised then PollPc.resting else match s.table.mapM entryOf with
    | some schedules => .fetched now schedules s.history.length
    | none => .resting) = .fetched now' schedules n := hpoll
  split_ifs at hpoll
  split at hpoll
  · rename_i schedules' hmap
    obtain ⟨rfl, rfl, rfl⟩ := PollPc.fetched.inj hpoll
    refine ⟨le_rfl, fun p hp ↦ (h.evaluations p hp).2, fun sched hsched ↦ ?_⟩
    obtain ⟨r, hr, hentry⟩ := exists_of_mem_mapM hmap hsched
    rw [h.table] at hr
    obtain ⟨body, hbody, hvalid⟩ := exists_body h.history hr
    rw [hbody, entryOf_rowOf] at hentry
    refine ⟨le_rfl, r.id, body, (Option.some.inj hentry).symm, ?_, hvalid⟩
    rw [List.take_length, ← hbody]
    exact hr
  · contradiction

/-- The evaluation of a list logs commands of its schedules, and ends no process. -/
theorem Entered.manager (h : Entered shown s) {now : Reading} {schedules : List Schedule} {n : ℕ}
    (hpoll : s.poll = .fetched now schedules n) (start stop : String → Reply) :
    (checkSchedules s.manager ⟨now, some (fetchedOf start stop schedules)⟩).failed = false ∧
      Logs (Commanded now (fetchedOf start stop schedules)) s.manager
        (checkSchedules s.manager ⟨now, some (fetchedOf start stop schedules)⟩) := by
  obtain ⟨-, -, hlisted⟩ := h.poll now schedules n hpoll
  have haccepted : ∀ x ∈ fetchedOf start stop schedules, SystemManager.Accepted shown x.sched := by
    intro x hx
    obtain ⟨sched, hsched, rfl⟩ := List.mem_map.1 hx
    exact accepted_of_listedAt (hlisted sched hsched)
  have hrunning : (evalAll now s.manager (fetchedOf start stop schedules)).failed = false :=
    failed_evalAll haccepted h.running
  have hmanager : checkSchedules s.manager ⟨now, some (fetchedOf start stop schedules)⟩ =
      prune (evalAll now s.manager (fetchedOf start stop schedules)) now := by
    show (if _ then _ else _) = _
    rw [if_neg (by simp [hrunning])]
  rw [hmanager]
  exact ⟨hrunning, logs_evalAll _ _⟩

/-- **One evaluation**: its commands are of its list, and it is the last of the polls. -/
theorem Entered.evaluate (h : Entered shown s) {now : Reading} {schedules : List Schedule} {n : ℕ}
    (hpoll : s.poll = .fetched now schedules n) (start stop : String → Reply) :
    Entered shown (s.evaluate now (fetchedOf start stop schedules) n) := by
  obtain ⟨hn, hseen, hlisted⟩ := h.poll now schedules n hpoll
  obtain ⟨hrunning, hlogs⟩ := h.manager hpoll start stop
  have hlast {p : Evaluation} (hp : p ∈ s.evaluations) :
      p.after ≤ s.manager.log.length ∧ p.seen ≤ n :=
    ⟨(h.evaluations p hp).1, hseen p hp⟩
  refine ⟨h.table, h.history, h.handlers, nofun, hrunning, ?_, fun p hp ↦ ?_,
    fun i c id date payload hlog ↦ ?_⟩
  · refine List.pairwise_append.2 ⟨h.ordered, List.pairwise_singleton _ _, fun p hp p' hp' ↦ ?_⟩
    obtain rfl := List.mem_singleton.1 hp'
    exact hlast hp
  · rcases List.mem_append.1 hp with hp | hp
    · exact ⟨(hlast hp).1.trans hlogs.length_le, (h.evaluations p hp).2⟩
    · obtain rfl := List.mem_singleton.1 hp
      exact ⟨le_rfl, hn⟩
  · rcases hlogs.getElem? hlog with hlog' | ⟨hi, hcommanded⟩
    · obtain ⟨p, hp, hpublishes⟩ := h.log i c id date payload hlog'
      exact ⟨p, List.mem_append_left _ hp, hpublishes⟩
    · obtain ⟨x, hx, hid, hdate, hpayload, hfires⟩ := hcommanded c id date payload rfl
      obtain ⟨sched, hsched, rfl⟩ := List.mem_map.1 hx
      obtain ⟨hlt, -⟩ := List.getElem?_eq_some_iff.1 hlog
      exact ⟨_, List.mem_append_right _ (List.mem_singleton_self _), hi, hlt, sched,
        hlisted sched hsched, hid, hdate, hpayload, hfires⟩

/-- A step of the requests, of the handlers or of the poll loop. -/
theorem Entered.step (h : Entered shown s) (ht : step shown s a = some t) : Entered shown t := by
  cases a with
  | request q =>
    obtain rfl := Option.some.inj ht
    exact h.beginRequest q
  | handler i r =>
    obtain ⟨pc, hpc, rfl⟩ := Option.map_eq_some_iff.1 ht
    have hrest : Entered shown { s with handlers := s.handlers.eraseIdx i } :=
      h.handler (fun pc' hpc' ↦ h.handlers pc' (List.mem_of_mem_eraseIdx hpc')) s.answers
    exact hrest.resume (h.handlers pc (List.mem_of_getElem? hpc)) r
  | check now =>
    rw [ScheduleTable.step] at ht
    split at ht
    · obtain ⟨-, ht⟩ := Option.ite_none_left_eq_some.1 ht
      obtain rfl := Option.some.inj ht
      exact ⟨h.table, h.history, h.handlers, nofun, h.running, h.ordered, h.evaluations, h.log⟩
    · contradiction
  | list r =>
    rw [ScheduleTable.step] at ht
    split at ht
    · obtain rfl := Option.some.inj ht
      exact h.list _ r
    · contradiction
  | evaluate start stop =>
    rw [ScheduleTable.step] at ht
    split at ht
    · rename_i hpoll
      obtain rfl := Option.some.inj ht
      exact h.evaluate hpoll start stop
    · contradiction
  | restart =>
    obtain rfl := Option.some.inj ht
    exact ⟨h.table, h.history, h.handlers, nofun, rfl, h.ordered, h.evaluations, h.log⟩

theorem entered_inductive : (system shown).Inductive always (Entered shown) where
  init := by
    rintro s rfl
    exact ⟨rfl, nofun, nofun, nofun, rfl, List.Pairwise.nil, nofun, nofun⟩
  step h _ ht := h.step ht

/-- The event is of a poll of the run, which has read its list when a row stood in the table, with
accepted values, that was to be fired at the poll's reading of the clock. -/
def Backed (shown : String) (s : State) (i : ℕ) (c : Command) (id : String) (date : Date)
    (payload : Dict) : Prop :=
  ∃ p ∈ s.evaluations, p.before ≤ i ∧ i < p.after ∧ p.seen ≤ s.history.length ∧
    ∃ body, rowOf id body ∈ tableOf (s.history.take p.seen) ∧ validateSchedule shown body = none ∧
      date = p.now.date ∧ payload = commandOf c (listed id body) p.now ∧
      Fires c (listed id body) p.now

/-- **Commands come from the table.** In every run, whatever requests come in between,
system-manager is not ended by a list; the polls have their own events, one after the other; and
each command that is published is an event of one of them, for a schedule that stood in the table,
with accepted values, when that poll read its list, and that was to be fired at its reading of the
clock. -/
theorem published_of_table (hs : (system shown).Reachable always s) :
    s.manager.failed = false ∧ Ordered s.evaluations ∧
      ∀ (i : ℕ) c id date payload, s.manager.log[i]? = some (.published c id date payload) →
        Backed shown s i c id date payload := by
  have h := entered_inductive.reachable hs
  refine ⟨h.running, h.ordered, fun i c id date payload hlog ↦ ?_⟩
  obtain ⟨p, hp, hbefore, hafter, sched, ⟨hn, id', body, rfl, hrow, hvalid⟩, hid, hdate, hpayload,
    hfires⟩ := h.log i c id date payload hlog
  obtain rfl : id = id' := hid
  exact ⟨p, hp, hbefore, hafter, hn, body, hrow, hvalid, hdate, hpayload, hfires⟩

/-- Every Sunday from half past nine. -/
def sundays : ScheduleBody where
  dayOfWeek := [0]
  startTime := "09:30"
  stopTime := "11:00"
  labelTemplate := "Service \x7bdate\x7d"

/-- The schedule is created and listed; it is Sunday, 09:31. -/
def fired : List Action :=
  [.request (.post "5f3a" sundays), .handler 0 .ok,
   .check ⟨SystemManager.sundayDate, 9, 31, by decide⟩, .list .ok,
     .evaluate (fun _ ↦ .ok) fun _ ↦ .ok]

/-- A command of the poll of that Sunday. -/
theorem published_of_table_fired : ∃ s : State, ∃ i c id date payload,
    (system "\x7b'hard', 'soft'\x7d").Reachable always s ∧
    s.evaluations.map (fun p ↦ (p.now.date, p.now.minutes, p.seen)) =
      [(SystemManager.sundayDate, 571, 1)] ∧
    s.manager.log[i]? = some (.published c id date payload) ∧
    Backed "\x7b'hard', 'soft'\x7d" s i c id date payload := by
  obtain ⟨s, hs, htest⟩ := exists_reachable_of_exec
    (M := system "\x7b'hard', 'soft'\x7d") (G := always) {} fired
    (fun s ↦ s.evaluations.map (fun p ↦ (p.now.date, p.now.minutes, p.seen)) =
      [(SystemManager.sundayDate, 571, 1)] ∧ s.manager.publications.isEmpty = false) rfl
    (by decide +kernel)
  obtain ⟨hevaluations, hone⟩ := of_decide_eq_true htest
  obtain ⟨p, hp⟩ := List.isEmpty_eq_false_iff_exists_mem.1 hone
  obtain ⟨e, he, hpublication⟩ := List.mem_filterMap.1 hp
  obtain ⟨i, hi⟩ := List.mem_iff_getElem?.1 he
  cases e with
  | published c id date payload =>
    exact ⟨s, i, c, id, date, payload, hs, hevaluations, hi,
      (published_of_table hs).2.2 i c id date payload hi⟩
  | publishFailed | stopSkipped => simp [SystemManager.Event.publication] at hpublication

/-! ### The answers -/

/-- The rows with an id after `n` writes. -/
def rowsAt (history : List Write) (n : ℕ) (id : String) : List Row :=
  (tableOf (history.take n)).filter fun r ↦ r.id = id

/-- **What an answer means.** A created schedule is there. A changed one was there at the select,
and has the values of the request at the answer, unless it has been deleted in between; one that is
not found was not there at the select. A deleted one was there and is not, and one that is not found
is not there. -/
def Agrees (history : List Write) (a : Answer) : Prop :=
  match a.request with
  | .post id body => a.status = 201 → rowsAt history a.answered id = [rowOf id body]
  | .put id body =>
    (a.status = 200 → rowsAt history a.seen id ≠ [] ∧
      (rowsAt history a.answered id = [rowOf id body] ∨ rowsAt history a.answered id = [] ∧
        ∃ i, a.seen ≤ i ∧ i < a.answered ∧ history[i]? = some (.deleted id))) ∧
    (a.status = 404 → rowsAt history a.seen id = [])
  | .delete id =>
    (a.status = 200 → rowsAt history (a.answered - 1) id ≠ [] ∧ rowsAt history a.answered id = []) ∧
    (a.status = 404 → rowsAt history a.answered id = [])

theorem rowsAt_append {history : List Write} {n : ℕ} (hn : n ≤ history.length) (w : Write)
    (id : String) : rowsAt (history ++ [w]) n id = rowsAt history n id := by
  rw [rowsAt, List.take_append_of_le_length hn, rowsAt]

/-- What comes later does not change what an answer said of its two moments. -/
theorem Agrees.append {history : List Write} {a : Answer} (h : Agrees history a)
    (hseen : a.seen ≤ history.length) (hanswered : a.answered ≤ history.length) (w : Write) :
    Agrees (history ++ [w]) a := by
  unfold Agrees at h ⊢
  split
  · rename_i id body hrequest
    rw [hrequest] at h
    rw [rowsAt_append hanswered]
    exact h
  · rename_i id body hrequest
    rw [hrequest] at h
    rw [rowsAt_append hseen, rowsAt_append hanswered]
    refine ⟨fun hstatus ↦ ⟨(h.1 hstatus).1, (h.1 hstatus).2.imp_right ?_⟩, h.2⟩
    rintro ⟨hnil, i, hi, hlt, hdeleted⟩
    exact ⟨hnil, i, hi, hlt, by rw [List.getElem?_append_left (by omega), hdeleted]⟩
  · rename_i id hrequest
    rw [hrequest] at h
    rw [rowsAt_append hanswered, rowsAt_append (by omega)]
    exact h

/-- The ids of the table. -/
def State.ids (s : State) : List String := s.table.map Row.id

/-- An update changes no id. -/
theorem ids_apply_updated (table : List Row) (id : String) (body : ScheduleBody) :
    ((Write.updated id body).apply table).map Row.id = table.map Row.id := by
  show (table.map _).map Row.id = _
  rw [List.map_map]
  refine List.map_congr_left fun r _ ↦ ?_
  show (if r.id = id then rowOf id body else r).id = r.id
  split
  · rename_i hid
    exact hid.symm
  · rfl

/-- There is one row an id. -/
structure Answering (s : State) : Prop where
  table : s.table = tableOf s.history
  nodup : s.ids.Nodup
  updating : ∀ id body seen, .updating id body seen ∈ s.handlers → seen ≤ s.history.length ∧
    rowsAt s.history seen id ≠ [] ∧
    (id ∈ s.ids ∨ ∃ i, seen ≤ i ∧ i < s.history.length ∧ s.history[i]? = some (.deleted id))
  answers : ∀ a ∈ s.answers, a.seen ≤ a.answered ∧ a.answered ≤ s.history.length ∧
    Agrees s.history a

theorem Answering.rowsAt (h : Answering s) (id : String) :
    rowsAt s.history s.history.length id = s.table.filter fun r ↦ r.id = id := by
  rw [ScheduleTable.rowsAt, List.take_length, h.table]

theorem Answering.rowsAt_eq_nil_iff (h : Answering s) {id : String} :
    ScheduleTable.rowsAt s.history s.history.length id = [] ↔ id ∉ s.ids := by
  rw [h.rowsAt, List.filter_eq_nil_iff, State.ids, List.mem_map]
  simp

theorem Answering.handler (h : Answering s) {handlers : List HandlerPc}
    (hhandlers : ∀ pc ∈ handlers, pc ∈ s.handlers) : Answering { s with handlers := handlers } :=
  ⟨h.table, h.nodup, fun id body seen hpc ↦ h.updating id body seen (hhandlers _ hpc), h.answers⟩

/-- A step that leaves the table, the handlers and the answers. -/
theorem Answering.of_eq (h : Answering s) (htable : t.table = s.table)
    (hhandlers : t.handlers = s.handlers) (hanswers : t.answers = s.answers)
    (hhistory : t.history = s.history) : Answering t := by
  refine ⟨?_, ?_, ?_, ?_⟩
  · rw [htable, hhistory, h.table]
  · rw [State.ids, htable]
    exact h.nodup
  · rw [hhandlers, hhistory, State.ids, htable]
    exact h.updating
  · rw [hanswers, hhistory]
    exact h.answers

/-- A handler that awaits its next call. -/
theorem Answering.await (h : Answering s) {pc : HandlerPc}
    (hpc : ∀ id body seen, pc = .updating id body seen → seen ≤ s.history.length ∧
      ScheduleTable.rowsAt s.history seen id ≠ [] ∧ id ∈ s.ids) :
    Answering { s with handlers := s.handlers ++ [pc] } := by
  refine ⟨h.table, h.nodup, fun id body seen hmem ↦ ?_, h.answers⟩
  rcases List.mem_append.1 hmem with hmem | hmem
  · exact h.updating id body seen hmem
  · obtain ⟨hseen, hrows, hid⟩ := hpc id body seen (List.mem_singleton.1 hmem).symm
    exact ⟨hseen, hrows, Or.inl hid⟩

/-- An answer joins the others if it agrees with the writes so far. -/
theorem Answering.answer (h : Answering s) {q : Request} {status seen : ℕ}
    (hseen : seen ≤ s.history.length)
    (hagrees : Agrees s.history ⟨q, status, seen, s.history.length⟩) :
    Answering (s.answer q status seen) := by
  refine ⟨h.table, h.nodup, h.updating, fun a ha ↦ ?_⟩
  rcases List.mem_append.1 ha with ha | ha
  · exact h.answers a ha
  · obtain rfl := List.mem_singleton.1 ha
    exact ⟨hseen, le_rfl, hagrees⟩

/-- A write keeps the answers, and takes a row from under an update by a delete only. -/
theorem Answering.write (h : Answering s) {w : Write}
    (hnew : ∀ id body, w = .created id body → id ∉ s.ids) : Answering (s.write w) := by
  have hids : ((w.apply s.table).map Row.id).Nodup ∧
      ∀ id ∈ s.ids, id ∈ (w.apply s.table).map Row.id ∨ w = .deleted id := by
    cases w with
    | created id body =>
      have happly : (Write.created id body).apply s.table = s.table ++ [rowOf id body] := rfl
      rw [happly, List.map_append]
      refine ⟨?_, fun id' hid' ↦ Or.inl (List.mem_append_left _ hid')⟩
      exact List.nodup_append.2 ⟨h.nodup, List.nodup_singleton _, by
        rintro x hx y hy rfl
        obtain rfl := List.mem_singleton.1 hy
        exact hnew _ body rfl hx⟩
    | updated id body =>
      rw [ids_apply_updated]
      exact ⟨h.nodup, fun id' hid' ↦ Or.inl hid'⟩
    | deleted id =>
      refine ⟨h.nodup.sublist (List.filter_sublist.map _), fun id' hid' ↦ ?_⟩
      by_cases heq : id' = id
      · rw [heq]
        exact Or.inr rfl
      · obtain ⟨r, hr, rfl⟩ := List.mem_map.1 hid'
        exact Or.inl (List.mem_map_of_mem (List.mem_filter.2 ⟨hr, by simpa using heq⟩))
  have hlength : (s.history ++ [w]).length = s.history.length + 1 := by simp
  refine ⟨?_, hids.1, fun id body seen hmem ↦ ?_, fun a ha ↦ ?_⟩
  · show w.apply s.table = _
    rw [h.table]
    exact (tableOf_append s.history w).symm
  · obtain ⟨hseen, hrows, hrow⟩ := h.updating id body seen hmem
    show seen ≤ (s.history ++ [w]).length ∧ ScheduleTable.rowsAt (s.history ++ [w]) seen id ≠ [] ∧
      (id ∈ (w.apply s.table).map Row.id ∨ ∃ i, seen ≤ i ∧ i < (s.history ++ [w]).length ∧
        (s.history ++ [w])[i]? = some (.deleted id))
    rw [rowsAt_append hseen, hlength]
    refine ⟨by omega, hrows, ?_⟩
    rcases hrow with hrow | ⟨i, hi, hlt, hdeleted⟩
    · rcases hids.2 id hrow with hrow | rfl
      · exact Or.inl hrow
      · exact Or.inr ⟨s.history.length, hseen, by omega, by simp⟩
    · exact Or.inr ⟨i, hi, by omega, by rw [List.getElem?_append_left hlt, hdeleted]⟩
  · obtain ⟨hseen, hanswered, hagrees⟩ := h.answers a ha
    refine ⟨hseen, ?_, hagrees.append (hseen.trans hanswered) hanswered w⟩
    show a.answered ≤ (s.history ++ [w]).length
    omega

theorem Answering.writeIf (h : Answering s) {w : Write}
    (hnew : ∀ id body, w = .created id body → id ∉ s.ids) (b : Bool) :
    Answering (if b then s.write w else s) := by
  cases b with
  | true => exact h.write hnew
  | false => exact h

theorem length_writeIf (w : Write) (b : Bool) :
    s.history.length ≤ (if b then s.write w else s).history.length := by
  cases b with
  | true =>
    show _ ≤ (s.history ++ [w]).length
    simp
  | false => exact le_rfl

/-- After an update of a row there is one with its id, with the values. -/
theorem filter_apply_updated {table : List Row} {id : String} {body : ScheduleBody}
    (hnodup : (table.map Row.id).Nodup) (hid : id ∈ table.map Row.id) :
    (((Write.updated id body).apply table).filter fun r ↦ r.id = id) = [rowOf id body] := by
  have hmap (rows : List Row) (h : id ∉ rows.map Row.id) :
      ((Write.updated id body).apply rows).filter (fun r ↦ r.id = id) = [] := by
    rw [List.filter_eq_nil_iff]
    intro r hr
    have hr : r.id ∈ rows.map Row.id := ids_apply_updated rows id body ▸ List.mem_map_of_mem hr
    have hne : r.id ≠ id := fun heq ↦ h (heq ▸ hr)
    simpa using hne
  induction table with
  | nil => exact absurd hid List.not_mem_nil
  | cons r rows ih =>
    obtain ⟨hnot, hrest⟩ := List.nodup_cons.1 hnodup
    have happly : (Write.updated id body).apply (r :: rows) =
        (if r.id = id then rowOf id body else r) :: (Write.updated id body).apply rows := rfl
    rw [happly]
    by_cases heq : r.id = id
    · rw [if_pos heq, List.filter_cons_of_pos (by simp [rowOf]), hmap rows (heq ▸ hnot)]
    · rw [if_neg heq, List.filter_cons_of_neg (by simpa using heq)]
      exact ih hrest ((List.mem_cons.1 hid).resolve_left (Ne.symm heq))

/-- A handler answers with a status of its own only if its call succeeds. -/
theorem eq_ok_of_status {r : Reply} {status k : ℕ}
    (hstatus : (if r.raised then 500 else status) = k) (hk : k ≠ 500) : r = .ok := by
  cases r with
  | ok => rfl
  | error => exact absurd hstatus.symm hk
  | lost => exact absurd hstatus.symm hk

/-- After the insert, the row is the only one with its id. -/
theorem Answering.creating (h : Answering s) (id : String) (body : ScheduleBody) (r : Reply) :
    Answering (ScheduleTable.resume s r (.creating id body)) := by
  rw [ScheduleTable.resume]
  split
  · exact h.answer le_rfl fun hstatus : 500 = 201 ↦ absurd hstatus (by decide)
  · rename_i hid
    have hnew : ∀ id' body', Write.created id body = .created id' body' → id' ∉ s.ids := by
      rintro id' body' heq
      obtain ⟨rfl, rfl⟩ := Write.created.inj heq
      exact hid
    have ht := h.writeIf hnew r.applied
    refine ht.answer (length_writeIf _ _) fun hstatus ↦ ?_
    obtain rfl := eq_ok_of_status hstatus (by decide)
    rw [ht.rowsAt]
    show (s.table ++ [rowOf id body]).filter _ = _
    have hnone : s.table.filter (fun r ↦ r.id = id) = [] := by
      rw [← h.rowsAt, h.rowsAt_eq_nil_iff]
      exact hid
    rw [List.filter_append, hnone, List.nil_append, List.filter_cons_of_pos (by simp [rowOf])]
    rfl

/-- The select finds the row, or there is none. -/
theorem Answering.selecting (h : Answering s) (id : String) (body : ScheduleBody) (r : Reply) :
    Answering (ScheduleTable.resume s r (.selecting id body)) := by
  rw [ScheduleTable.resume]
  split
  · exact h.answer le_rfl ⟨fun hstatus : 500 = 200 ↦ absurd hstatus (by decide),
      fun hstatus : 500 = 404 ↦ absurd hstatus (by decide)⟩
  · split
    · rename_i hid
      refine h.await fun id' body' seen heq ↦ ?_
      obtain ⟨rfl, rfl, rfl⟩ := HandlerPc.updating.inj heq
      refine ⟨le_rfl, ?_, hid⟩
      rw [Ne, h.rowsAt_eq_nil_iff, not_not]
      exact hid
    · rename_i hid
      refine h.answer le_rfl ⟨fun hstatus : 404 = 200 ↦ absurd hstatus (by decide), fun _ ↦ ?_⟩
      exact h.rowsAt_eq_nil_iff.2 hid

/-- An update leaves one row with the id, if there is one: the row of its values. -/
theorem Answering.rowsAt_updated (h : Answering s) {id : String} (body : ScheduleBody)
    (hid : id ∈ s.ids) :
    ScheduleTable.rowsAt (s.write (.updated id body)).history
      (s.write (.updated id body)).history.length id = [rowOf id body] := by
  have ht : Answering (s.write (.updated id body)) := h.write fun _ _ heq ↦ Write.noConfusion heq
  rw [ht.rowsAt]
  exact filter_apply_updated h.nodup hid

/-- And none, if there is none. -/
theorem Answering.rowsAt_updated_eq_nil (h : Answering s) {id : String} (body : ScheduleBody)
    (hid : id ∉ s.ids) :
    ScheduleTable.rowsAt (s.write (.updated id body)).history
      (s.write (.updated id body)).history.length id = [] := by
  have ht : Answering (s.write (.updated id body)) := h.write fun _ _ heq ↦ Write.noConfusion heq
  refine ht.rowsAt_eq_nil_iff.2 ?_
  show id ∉ ((Write.updated id body).apply s.table).map Row.id
  rw [ids_apply_updated]
  exact hid

/-- The update meets the row, unless a delete has come between the select and it. -/
theorem Answering.updating_resume (h : Answering s) {id : String} {body : ScheduleBody} {seen : ℕ}
    (hseen : seen ≤ s.history.length) (hrows : ScheduleTable.rowsAt s.history seen id ≠ [])
    (hrow : id ∈ s.ids ∨
      ∃ i, seen ≤ i ∧ i < s.history.length ∧ s.history[i]? = some (.deleted id)) (r : Reply) :
    Answering (ScheduleTable.resume s r (.updating id body seen)) := by
  have ht := h.writeIf (w := .updated id body) (fun _ _ heq ↦ Write.noConfusion heq) r.applied
  have hlength := hseen.trans (length_writeIf (.updated id body) r.applied)
  refine ht.answer hlength ⟨fun hstatus ↦ ?_, fun hstatus ↦ ?_⟩
  · obtain rfl := eq_ok_of_status hstatus (by decide)
    refine ⟨?_, ?_⟩
    · show ScheduleTable.rowsAt (s.history ++ [_]) seen id ≠ []
      rwa [rowsAt_append hseen]
    · by_cases hid : id ∈ s.ids
      · exact Or.inl (h.rowsAt_updated body hid)
      · obtain ⟨i, hi, hlt, hdeleted⟩ := hrow.resolve_left hid
        refine Or.inr ⟨h.rowsAt_updated_eq_nil body hid, i, hi, ?_, ?_⟩
        · exact hlt.trans_le (length_writeIf (.updated id body) true)
        · show (s.history ++ [_])[i]? = _
          rw [List.getElem?_append_left hlt, hdeleted]
  · obtain rfl := eq_ok_of_status hstatus (by decide)
    replace hstatus : 200 = 404 := hstatus
    exact absurd hstatus (by decide)

/-- After the delete there is no row with the id. -/
theorem Answering.deleting (h : Answering s) (id : String) (r : Reply) :
    Answering (ScheduleTable.resume s r (.deleting id)) := by
  have ht := h.writeIf (w := .deleted id) (fun _ _ heq ↦ Write.noConfusion heq) r.applied
  have hnone : ((Write.deleted id).apply s.table).filter (fun r ↦ r.id = id) = [] := by
    rw [List.filter_eq_nil_iff]
    intro x hx
    have hne := (List.mem_filter.1 hx).2
    simpa using hne
  refine ht.answer (length_writeIf _ _) ⟨fun hstatus ↦ ?_, fun hstatus ↦ ?_⟩
  · obtain rfl := eq_ok_of_status hstatus (by decide)
    have hid : id ∈ s.ids := by
      by_contra hnot
      replace hstatus : (if id ∈ s.ids then 200 else 404) = 200 := hstatus
      rw [if_neg hnot] at hstatus
      exact absurd hstatus (by decide)
    refine ⟨?_, ?_⟩
    · show ScheduleTable.rowsAt (s.history ++ [_]) ((s.history ++ [_]).length - 1) id ≠ []
      rw [List.length_append, List.length_singleton, Nat.add_sub_cancel, rowsAt_append le_rfl, Ne,
        h.rowsAt_eq_nil_iff, not_not]
      exact hid
    · rw [ht.rowsAt]
      exact hnone
  · obtain rfl := eq_ok_of_status hstatus (by decide)
    rw [ht.rowsAt]
    exact hnone

/-- **One handler goes on**: what it answers agrees with the writes so far. -/
theorem Answering.resume (h : Answering s) {pc : HandlerPc}
    (hpc : ∀ id body seen, pc = .updating id body seen → seen ≤ s.history.length ∧
      ScheduleTable.rowsAt s.history seen id ≠ [] ∧
      (id ∈ s.ids ∨ ∃ i, seen ≤ i ∧ i < s.history.length ∧ s.history[i]? = some (.deleted id)))
    (r : Reply) : Answering (resume s r pc) := by
  cases pc with
  | creating id body => exact h.creating id body r
  | selecting id body => exact h.selecting id body r
  | updating id body seen =>
    obtain ⟨hseen, hrows, hrow⟩ := hpc id body seen rfl
    exact h.updating_resume hseen hrows hrow r
  | deleting id => exact h.deleting id r

/-- A request is answered at once when its body is refused, else its handler begins. -/
theorem Answering.beginRequest (h : Answering s) (q : Request) :
    Answering (beginRequest shown s q) := by
  cases q with
  | post id body =>
    rw [ScheduleTable.beginRequest]
    split
    · exact h.answer le_rfl fun hstatus : 400 = 201 ↦ absurd hstatus (by decide)
    · exact h.await fun _ _ _ heq ↦ HandlerPc.noConfusion heq
  | put id body =>
    rw [ScheduleTable.beginRequest]
    split
    · exact h.answer le_rfl ⟨fun hstatus : 400 = 200 ↦ absurd hstatus (by decide),
        fun hstatus : 400 = 404 ↦ absurd hstatus (by decide)⟩
    · exact h.await fun _ _ _ heq ↦ HandlerPc.noConfusion heq
  | delete id => exact h.await fun _ _ _ heq ↦ HandlerPc.noConfusion heq

/-- Each handler is at its select or at its write, with the select behind it; a poll writes
nothing. -/
theorem Answering.step (h : Answering s) (ht : step shown s a = some t) : Answering t := by
  cases a with
  | request q =>
    obtain rfl := Option.some.inj ht
    exact h.beginRequest q
  | handler i r =>
    obtain ⟨pc, hpc, rfl⟩ := Option.map_eq_some_iff.1 ht
    have hrest : Answering { s with handlers := s.handlers.eraseIdx i } :=
      h.handler fun pc' hpc' ↦ List.mem_of_mem_eraseIdx hpc'
    refine hrest.resume (fun id body seen heq ↦ ?_) r
    exact h.updating id body seen (heq ▸ List.mem_of_getElem? hpc)
  | check now =>
    rw [ScheduleTable.step] at ht
    split at ht
    · obtain ⟨-, ht⟩ := Option.ite_none_left_eq_some.1 ht
      obtain rfl := Option.some.inj ht
      exact h.of_eq rfl rfl rfl rfl
    · contradiction
  | list r =>
    rw [ScheduleTable.step] at ht
    split at ht
    · obtain rfl := Option.some.inj ht
      exact h.of_eq rfl rfl rfl rfl
    · contradiction
  | evaluate start stop =>
    rw [ScheduleTable.step] at ht
    split at ht
    · obtain rfl := Option.some.inj ht
      exact h.of_eq rfl rfl rfl rfl
    · contradiction
  | restart =>
    obtain rfl := Option.some.inj ht
    exact h.of_eq rfl rfl rfl rfl

theorem answering_inductive : (system shown).Inductive always Answering where
  init := by
    rintro s rfl
    exact ⟨rfl, List.nodup_nil, nofun, nofun⟩
  step h _ ht := h.step ht

/-- **The answers agree with the table**, in every run and in every order in which the handlers go
on. -/
theorem answers_agree (hs : (system shown).Reachable always s) :
    ∀ a ∈ s.answers, a.seen ≤ a.answered ∧ a.answered ≤ s.history.length ∧ Agrees s.history a :=
  (answering_inductive.reachable hs).answers

/-- The schedule is deleted between the select and the update of a `PUT`. -/
def deletedBetween : List Action :=
  [.request (.post "5f3a" sundays), .handler 0 .ok, .request (.put "5f3a" sundays), .handler 0 .ok,
   .request (.delete "5f3a"), .handler 1 .ok, .handler 0 .ok]

/-- A put whose row is deleted between its select and its update is answered with success. -/
theorem answers_agree_deletedBetween : ∃ s : State, ∃ a ∈ s.answers,
    (system "\x7b'hard', 'soft'\x7d").Reachable always s ∧ s.table = [] ∧
    (∃ id body, a.request = .put id body) ∧ a.status = 200 ∧ a.seen ≤ a.answered ∧
    a.answered ≤ s.history.length ∧ Agrees s.history a := by
  obtain ⟨s, hs, hend⟩ := exists_reachable_of_exec
    (M := system "\x7b'hard', 'soft'\x7d") (G := always) {} deletedBetween
    (fun s ↦ s.table.isEmpty && s.answers.any fun a ↦ match a.request with
      | .put _ _ => a.status = 200
      | .post _ _ | .delete _ => false) rfl (by decide +kernel)
  rw [Bool.and_eq_true, List.isEmpty_iff, List.any_eq_true] at hend
  obtain ⟨htable, a, ha, hstatus⟩ := hend
  refine ⟨s, a, ha, hs, htable, ?_, ?_, answers_agree hs a ha⟩
  · split at hstatus
    · exact ⟨_, _, by assumption⟩
    · contradiction
    · contradiction
  · split at hstatus
    · exact of_decide_eq_true hstatus
    · contradiction
    · contradiction

end LiveSTT.ScheduleTable
