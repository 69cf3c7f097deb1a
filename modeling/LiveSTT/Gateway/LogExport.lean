import Mathlib.Data.List.Forall2
import LiveSTT.Gateway.StoredTimes
import LiveSTT.Lib.JsonText
import LiveSTT.Lib.Text
import LiveSTT.Lib.TransitionSystem
import LiveSTT.Messaging.Broker

/-!
# From a log record to a line of the export

The way of a log message through the system. `NatsLogHandler` encodes it as JSON and publishes it on
core NATS, which may lose it. `_on_global_log` decodes it and, if its level is one that is kept,
stores it under the time at which it was received. `_log_retention_loop` deletes what is too old,
and `GET /admin/logs/export` encodes what is left of the asked levels and service, one line each.

Which text `str` makes of a value, what `upper` makes of a text and what a column keeps of a value
are parameters, as is how numbers are written.

`exported_lines` says what a reader of the file gets: the file splits into lines and each decodes to
what a service has logged, with the level in capitals and the time at which it came; no record comes
twice, the lines are in the order of these times, and what is missing was cut off by the limit or is
not stored. What is stored is what was written and was not too old at any purge since
(`stored_iff`).
-/

namespace LiveSTT.LogExport

open Calendar TransitionSystem StoredTimes

/-- What Python and the database make of values. -/
structure Conversions where
  /-- `s.upper()`. -/
  upper : String → String
  /-- `str(x)`. -/
  text : Json → String
  /-- What a text column keeps of a value, `none` where the insert raises. -/
  column : Json → Option String
  text_str : ∀ s, text (.str s) = s
  column_str : ∀ s, column (.str s) = some s

/-- The parts of a log record that are stored. -/
structure Record where
  service : String
  level : String
  message : String

variable (P : Conversions) (N : Json.Numerals) (levels : List String) (days : ℤ)

/-! ### The functions -/

/-- `NatsLogHandler.emit`, the message. -/
def emit (r : Record) (timestamp : ℚ) : List Char :=
  Json.dumps N (.obj [("service", .str r.service), ("level", .str r.level),
    ("message", .str r.message), ("timestamp", .num timestamp)])

/-- `_on_global_log`, what it stores. Data that is no object, or whose level is no text, raises or
is returned from before; an insert that raises is swallowed. -/
def onGlobalLog (payload : List Char) : Option Record :=
  match Json.loads N payload with
  | some (.obj data) =>
    match Dict.getOr data "level" (.str "") with
    | .str level =>
      if P.upper level ∈ levels then
        (P.column (Dict.getOr data "service" (.str "unknown"))).map fun service ↦
          ⟨service, P.upper level, P.text (Dict.getOr data "message" (.str ""))⟩
      else none
    | _ => none
  | _ => none

/-- The conditions of `export_logs`, on the level and the service of a row. -/
def asked (level service : String) (r : Record) : Bool :=
  (level = "" ∨ r.level ∈ (level.toList.splitOn ',').map fun lv ↦
    P.upper (String.ofList (Text.strip lv))) ∧ (service = "" ∨ r.service = service)

/-- The record in a row. -/
def recordOf (e : LogEntry) : Record := ⟨e.service, e.level, e.message⟩

/-- The object of a line. -/
def lineOf (timestamp : String) (r : Record) : Json :=
  .obj [("timestamp", .str timestamp), ("service", .str r.service), ("level", .str r.level),
    ("message", .str r.message)]

/-- `export_logs`, the content, from the rows of its select. -/
def exportLogs (rows : List LogEntry) : List Char :=
  Json.joinLines ((exported rows).map fun e ↦
    Json.dumps N (lineOf e.timestamp (recordOf e)))

/-! ### The system -/

/-- A stored row. The gateway keeps `entry`; which record it is of, and when it came, no code
reads. -/
structure Row where
  number : ℕ
  time : DateTime
  entry : LogEntry

/-- What happened to the table. -/
inductive Event
  | stored (number : ℕ) (time : DateTime)
  | purged (cutoff : DateTime)

structure State where
  /-- All records so far. -/
  emitted : List Record := []
  /-- The messages under way, with the numbers of their records. -/
  flying : List (ℕ × List Char) := []
  /-- `_on_global_log` is at its transaction. -/
  handling : Option (ℕ × DateTime × Record) := none
  /-- The table `log_entries`. -/
  rows : List Row := []
  history : List Event := []

inductive Action
  /-- A service logs a record. -/
  | emit (r : Record) (timestamp : ℚ)
  /-- A message is lost. -/
  | lose (i : ℕ)
  /-- `_on_global_log` is called with a message. -/
  | deliver (i : ℕ) (now : DateTime)
  /-- It continues after its transaction. -/
  | persisted (r : Reply)
  /-- `_log_retention_loop` deletes. -/
  | purge (now cutoff : DateTime) (r : Reply)
  /-- The gateway is started again; a transaction under way took effect or not. -/
  | restart (applied : Bool)

/-- The id of the next row. -/
def nextId (rows : List Row) : ℕ := (rows.map fun x ↦ x.entry.id).foldr max 0 + 1

/-- The insert of `_on_global_log`. -/
def State.store (s : State) (number : ℕ) (time : DateTime) (r : Record) : State :=
  { s with
    rows := s.rows ++
      [⟨number, time, ⟨nextId s.rows, time.isoformat, r.service, r.level, r.message⟩⟩]
    history := s.history ++ [.stored number time] }

/-- The end of the transaction. -/
def State.finish (s : State) (applied : Bool) : State :=
  match s.handling with
  | some (number, time, r) =>
    if applied then { s.store number time r with handling := none } else { s with handling := none }
  | none => s

/-- The delete of `_log_retention_loop`. -/
def State.purge (s : State) (cutoff : DateTime) : State :=
  { s with
    rows := StoredTimes.purge Row.entry cutoff.isoformat s.rows
    history := s.history ++ [.purged cutoff] }

/-- A day, in microseconds. -/
def day : ℤ := 86400 * 1000000

def step (s : State) : Action → Option State
  | .emit r timestamp => some { s with
      emitted := s.emitted ++ [r]
      flying := s.flying ++ [(s.emitted.length, emit N r timestamp)] }
  | .lose i => if i < s.flying.length then some { s with flying := s.flying.eraseIdx i } else none
  | .deliver i now =>
    match s.handling, s.flying[i]? with
    | none, some (number, payload) => some { s with
        flying := s.flying.eraseIdx i
        handling := (onGlobalLog P N levels payload).map fun r ↦ (number, now, r) }
    | _, _ => none
  | .persisted r => if s.handling.isSome then some (s.finish r.applied) else none
  | .purge now cutoff r =>
    if (cutoff.instant : ℤ) + days * day = now.instant then
      some (if r.applied then s.purge cutoff else s)
    else none
  | .restart applied => some (s.finish applied)

/-- The services, the gateway and its table. -/
def system : TransitionSystem State Action where
  init s := s = {}
  step := step P N levels days

/-- The times of the services are numbers that are written. -/
def timed (_ : State) : Action → Prop
  | .emit _ timestamp => N.Written timestamp
  | _ => True

/-- What was stored at a time is still there. -/
def Kept (history : List Event) (number : ℕ) (time : DateTime) : Prop :=
  ∃ pre post, history = pre ++ .stored number time :: post ∧
    ∀ cutoff, .purged cutoff ∈ post → cutoff.instant ≤ time.instant

variable {P N levels days} {s t : State} {a : Action}

/-! ### From the service to the table -/

/-- **The gateway stores what the service logged**: the record in its way as JSON. -/
theorem onGlobalLog_emit {r : Record} {timestamp : ℚ} (h : N.Written timestamp) :
    onGlobalLog P N levels (emit N r timestamp) =
      if P.upper r.level ∈ levels then some ⟨r.service, P.upper r.level, r.message⟩ else none := by
  have hprintable : Json.Printable N (.obj [("service", .str r.service), ("level", .str r.level),
      ("message", .str r.message), ("timestamp", .num timestamp)]) := by
    refine .obj (by simp) fun b hb ↦ ?_
    simp only [List.mem_cons, List.not_mem_nil, or_false] at hb
    rcases hb with rfl | rfl | rfl | rfl
    · exact .str _
    · exact .str _
    · exact .str _
    · exact .num h
  rw [onGlobalLog, emit, Json.loads_dumps hprintable]
  simp [Dict.getOr, Dict.get, P.text_str, P.column_str]

/-! ### What a step does -/

/-- The numbers of the messages under way, of the one that is handled, and of the rows. -/
def State.numbers (s : State) : List ℕ :=
  s.flying.map Prod.fst ++ (s.handling.toList.map Prod.fst ++ s.rows.map Row.number)

/-- The record as it is stored. -/
def capital (P : Conversions) (r : Record) : Record := { r with level := P.upper r.level }

/-- The record is stored for the one that was logged with the number. -/
def Filed (P : Conversions) (levels : List String) (s : State) (number : ℕ) (r : Record) : Prop :=
  ∃ r', s.emitted[number]? = some r' ∧ P.upper r'.level ∈ levels ∧ r = capital P r'

/-- Everything under way and everything stored is of a record, each of another. -/
structure Traced (P : Conversions) (N : Json.Numerals) (levels : List String) (s : State) :
    Prop where
  flying : ∀ f ∈ s.flying, ∃ r timestamp, s.emitted[f.1]? = some r ∧ N.Written timestamp ∧
    f.2 = emit N r timestamp
  handling : ∀ h ∈ s.handling, Filed P levels s h.1 h.2.2
  rows : ∀ x ∈ s.rows, Filed P levels s x.number (recordOf x.entry) ∧
    x.entry.timestamp = x.time.isoformat
  nodup : s.numbers.Nodup

theorem Filed.append {number : ℕ} {r : Record} (h : Filed P levels s number r)
    (ht : s.emitted <+: t.emitted) : Filed P levels t number r := by
  obtain ⟨r', hr', hlevel, hr⟩ := h
  obtain ⟨rest, hrest⟩ := ht
  refine ⟨r', ?_, hlevel, hr⟩
  rw [← hrest, List.getElem?_append_left (List.getElem?_eq_some_iff.1 hr').1, hr']

/-- Numbers are places of records. -/
theorem Traced.lt_of_mem (h : Traced P N levels s) {k : ℕ} (hk : k ∈ s.numbers) :
    k < s.emitted.length := by
  have hplace {r : Record} (hr : s.emitted[k]? = some r) : k < s.emitted.length :=
    (List.getElem?_eq_some_iff.1 hr).1
  rcases List.mem_append.1 hk with hk | hk
  · obtain ⟨f, hf, rfl⟩ := List.mem_map.1 hk
    obtain ⟨r, _, hr, -⟩ := h.flying f hf
    exact hplace hr
  · rcases List.mem_append.1 hk with hk | hk
    · obtain ⟨x, hx, rfl⟩ := List.mem_map.1 hk
      obtain ⟨r, hr, -⟩ := h.handling x (Option.mem_toList.1 hx)
      exact hplace hr
    · obtain ⟨x, hx, rfl⟩ := List.mem_map.1 hk
      obtain ⟨⟨r, hr, -⟩, -⟩ := h.rows x hx
      exact hplace hr

/-- A record that is logged is under way, under the next number. -/
theorem Traced.emit (h : Traced P N levels s) (r : Record) {timestamp : ℚ}
    (hw : N.Written timestamp) :
    Traced P N levels { s with
      emitted := s.emitted ++ [r]
      flying := s.flying ++ [(s.emitted.length, LogExport.emit N r timestamp)] } := by
  have hprefix : s.emitted <+: s.emitted ++ [r] := List.prefix_append _ _
  refine ⟨fun f hf ↦ ?_, fun x hx ↦ (h.handling x hx).append hprefix,
    fun x hx ↦ ⟨(h.rows x hx).1.append hprefix, (h.rows x hx).2⟩, ?_⟩
  · rcases List.mem_append.1 hf with hf | hf
    · obtain ⟨r', timestamp', hr', hw', hpayload⟩ := h.flying f hf
      have hlt := (List.getElem?_eq_some_iff.1 hr').1
      exact ⟨r', timestamp', by rw [List.getElem?_append_left hlt, hr'], hw', hpayload⟩
    · obtain rfl := List.mem_singleton.1 hf
      exact ⟨r, timestamp, by simp, hw, rfl⟩
  · have hnew : s.emitted.length ∉ s.numbers := fun hmem ↦ (h.lt_of_mem hmem).false
    have hperm : (s.emitted.length :: s.numbers).Perm
        ((s.flying ++ [(s.emitted.length, LogExport.emit N r timestamp)]).map Prod.fst ++
          (s.handling.toList.map Prod.fst ++ s.rows.map Row.number)) := by
      rw [List.map_append, List.append_assoc]
      exact List.perm_middle.symm
    exact hperm.nodup_iff.1 (List.nodup_cons.2 ⟨hnew, h.nodup⟩)

theorem Traced.lose (h : Traced P N levels s) (i : ℕ) :
    Traced P N levels { s with flying := s.flying.eraseIdx i } := by
  refine ⟨fun f hf ↦ h.flying f (List.mem_of_mem_eraseIdx hf), h.handling, h.rows, ?_⟩
  exact h.nodup.sublist (((List.eraseIdx_sublist _ _).map _).append_right _)

/-- A call of the handler takes the message off, and has the record it is of. -/
theorem Traced.deliver (h : Traced P N levels s) (hidle : s.handling = none) {i number : ℕ}
    {payload : List Char} (hi : s.flying[i]? = some (number, payload)) (now : DateTime) :
    Traced P N levels { s with
      flying := s.flying.eraseIdx i
      handling := (onGlobalLog P N levels payload).map fun r ↦ (number, now, r) } := by
  obtain ⟨r, timestamp, hr, hw, hpayload⟩ := h.flying _ (List.mem_of_getElem? hi)
  rw [show payload = LogExport.emit N r timestamp from hpayload, onGlobalLog_emit hw]
  refine ⟨fun f hf ↦ h.flying f (List.mem_of_mem_eraseIdx hf), ?_, h.rows, ?_⟩
  · intro x hx
    split_ifs at hx with hlevel
    · obtain rfl := Option.some.inj hx
      exact ⟨r, hr, hlevel, rfl⟩
    · exact absurd hx (by simp)
  · obtain ⟨hlt, hget⟩ := List.getElem?_eq_some_iff.1 hi
    have hperm : (number :: ((s.flying.eraseIdx i).map Prod.fst ++ s.rows.map Row.number)).Perm
        s.numbers := by
      have hflying :
        (number :: (s.flying.eraseIdx i).map Prod.fst).Perm (s.flying.map Prod.fst) := by
        have herase := (List.getElem_cons_eraseIdx_perm hlt).map Prod.fst
        rwa [List.map_cons, hget] at herase
      rw [State.numbers, hidle]
      exact hflying.append_right _
    have hnodup := hperm.nodup_iff.2 h.nodup
    show ((s.flying.eraseIdx i).map Prod.fst ++ (_ ++ s.rows.map Row.number)).Nodup
    split_ifs
    · exact List.nodup_middle.2 hnodup
    · exact (List.nodup_cons.1 hnodup).2

/-- A record under way is stored, or lost with its call. -/
theorem Traced.finish (h : Traced P N levels s) (applied : Bool) :
    Traced P N levels (s.finish applied) := by
  rw [State.finish]
  cases hhandling : s.handling with
  | none => exact h
  | some x =>
    obtain ⟨number, time, r⟩ := x
    have hfiled : Filed P levels s number r := h.handling _ hhandling
    have hnodup := h.nodup
    rw [State.numbers, hhandling] at hnodup
    cases applied with
    | true =>
      refine ⟨h.flying, nofun, fun x hx ↦ ?_, ?_⟩
      · rcases List.mem_append.1 hx with hx | hx
        · exact h.rows x hx
        · obtain rfl := List.mem_singleton.1 hx
          exact ⟨hfiled, rfl⟩
      · show (s.flying.map Prod.fst ++ ([] ++ (s.rows ++ [_]).map Row.number)).Nodup
        have hlast :
          ((s.rows.map Row.number) ++ [number]).Perm ([number] ++ s.rows.map Row.number) :=
          List.perm_append_comm
        rw [List.nil_append, List.map_append]
        exact (hlast.append_left _).nodup_iff.2 hnodup
    | false =>
      refine ⟨h.flying, nofun, h.rows, ?_⟩
      exact hnodup.sublist ((List.sublist_append_right [number] _).append_left _)

theorem Traced.purge (h : Traced P N levels s) (cutoff : DateTime) :
    Traced P N levels (s.purge cutoff) := by
  refine ⟨h.flying, h.handling, fun x hx ↦ h.rows x (List.mem_of_mem_filter hx), ?_⟩
  exact h.nodup.sublist ((((List.filter_sublist).map _).append_left _).append_left _)

/-- Logging, delivery, the database task, the export and retention. -/
theorem Traced.step (h : Traced P N levels s) (ha : timed N s a)
    (ht : step P N levels days s a = some t) : Traced P N levels t := by
  cases a with
  | emit r timestamp =>
    obtain rfl := Option.some.inj ht
    exact h.emit r ha
  | lose i =>
    obtain ⟨-, hs⟩ := Option.ite_none_right_eq_some.1 ht
    obtain rfl := Option.some.inj hs
    exact h.lose i
  | deliver i now =>
    rw [LogExport.step] at ht
    split at ht
    · rename_i number payload hidle hi
      obtain rfl := Option.some.inj ht
      exact h.deliver hidle hi now
    · contradiction
  | persisted r =>
    obtain ⟨-, hs⟩ := Option.ite_none_right_eq_some.1 ht
    obtain rfl := Option.some.inj hs
    exact h.finish r.applied
  | purge now cutoff r =>
    obtain ⟨-, hs⟩ := Option.ite_none_right_eq_some.1 ht
    obtain rfl := Option.some.inj hs
    split_ifs
    · exact h.purge cutoff
    · exact h
  | restart applied =>
    obtain rfl := Option.some.inj ht
    exact h.finish applied

theorem traced_inductive : (system P N levels days).Inductive (timed N) (Traced P N levels) where
  init := by
    rintro s rfl
    exact ⟨nofun, nofun, nofun, List.nodup_nil⟩
  step h ha ht := h.step ha ht

/-! ### What is stored -/

/-- What is stored last is kept. -/
theorem kept_append_stored {history : List Event} {number number' : ℕ} {time time' : DateTime} :
    Kept (history ++ [.stored number' time']) number time ↔
      Kept history number time ∨ (number = number' ∧ time = time') := by
  constructor
  · rintro ⟨pre, post, heq, hpost⟩
    rcases List.eq_nil_or_concat post with rfl | ⟨post, e, rfl⟩
    · obtain ⟨-, he⟩ := List.append_inj' heq rfl
      obtain ⟨rfl, rfl⟩ := Event.stored.inj (List.singleton_injective he)
      exact Or.inr ⟨rfl, rfl⟩
    · rw [List.concat_eq_append, ← List.cons_append, ← List.append_assoc] at heq
      obtain ⟨rfl, -⟩ := List.append_inj' heq rfl
      refine Or.inl ⟨pre, post, rfl, fun cutoff hcutoff ↦ hpost cutoff ?_⟩
      rw [List.concat_eq_append]
      exact List.mem_append_left _ hcutoff
  · rintro (⟨pre, post, rfl, hpost⟩ | ⟨rfl, rfl⟩)
    · refine ⟨pre, post ++ [.stored number' time'], by simp, fun cutoff hcutoff ↦ hpost cutoff ?_⟩
      simpa using hcutoff
    · exact ⟨history, [], rfl, by simp⟩

/-- A purge keeps what is not older than the cutoff. -/
theorem kept_append_purged {history : List Event} {number : ℕ} {time cutoff : DateTime} :
    Kept (history ++ [.purged cutoff]) number time ↔
      Kept history number time ∧ cutoff.instant ≤ time.instant := by
  constructor
  · rintro ⟨pre, post, heq, hpost⟩
    rcases List.eq_nil_or_concat post with rfl | ⟨post, e, rfl⟩
    · obtain ⟨-, he⟩ := List.append_inj' heq rfl
      exact Event.noConfusion (List.singleton_injective he)
    · rw [List.concat_eq_append, ← List.cons_append, ← List.append_assoc] at heq
      obtain ⟨rfl, he⟩ := List.append_inj' heq rfl
      obtain rfl := List.singleton_injective he
      rw [List.concat_eq_append] at hpost
      refine ⟨⟨pre, post, rfl, fun c hc ↦ hpost c (List.mem_append_left _ hc)⟩, hpost cutoff ?_⟩
      exact List.mem_append_right _ (List.mem_singleton_self _)
  · rintro ⟨⟨pre, post, rfl, hpost⟩, hle⟩
    refine ⟨pre, post ++ [.purged cutoff], by simp, fun c hc ↦ ?_⟩
    rcases List.mem_append.1 hc with hc | hc
    · exact hpost c hc
    · obtain rfl := Event.purged.inj (List.mem_singleton.1 hc)
      exact hle

/-- The rows are what is kept of the history. -/
def Stores (s : State) : Prop :=
  ∀ number time, (∃ x ∈ s.rows, x.number = number ∧ x.time = time) ↔ Kept s.history number time

/-- The row of a record comes with the event that notes it. -/
theorem Stores.finish (h : Stores s) (applied : Bool) : Stores (s.finish applied) := by
  rw [State.finish]
  cases hhandling : s.handling with
  | none => exact h
  | some x =>
    obtain ⟨number', time', r⟩ := x
    cases applied with
    | true =>
      intro number time
      show (∃ x ∈ s.rows ++ [_], _) ↔ Kept (s.history ++ [_]) number time
      rw [kept_append_stored, ← h number time]
      constructor
      · rintro ⟨x, hx, hnumber, htime⟩
        rcases List.mem_append.1 hx with hx | hx
        · exact Or.inl ⟨x, hx, hnumber, htime⟩
        · obtain rfl := List.mem_singleton.1 hx
          exact Or.inr ⟨hnumber.symm, htime.symm⟩
      · rintro (⟨x, hx, hnumber, htime⟩ | ⟨rfl, rfl⟩)
        · exact ⟨x, List.mem_append_left _ hx, hnumber, htime⟩
        · exact ⟨_, List.mem_append_right _ (List.mem_singleton_self _), rfl, rfl⟩
    | false => exact h

/-- The rows that a purge leaves are those kept by it. -/
theorem Stores.purge (h : Stores s) (htraced : Traced P N levels s) (cutoff : DateTime) :
    Stores (s.purge cutoff) := by
  intro number time
  show (∃ x ∈ StoredTimes.purge Row.entry cutoff.isoformat s.rows, _) ↔
    Kept (s.history ++ [_]) number time
  rw [kept_append_purged, ← h number time]
  constructor
  · rintro ⟨x, hx, hnumber, rfl⟩
    have hmem := List.mem_of_mem_filter hx
    exact ⟨⟨x, hmem, hnumber, rfl⟩, ((mem_purge_iff (htraced.rows x hmem).2).1 hx).2⟩
  · rintro ⟨⟨x, hx, hnumber, rfl⟩, hle⟩
    exact ⟨x, (mem_purge_iff (htraced.rows x hx).2).2 ⟨hx, hle⟩, hnumber, rfl⟩

/-- In every run. -/
theorem stores_of_reachable (hs : (system P N levels days).Reachable (timed N) s) : Stores s := by
  refine hs.induct ?_ fun {s a t} hreach h _ ht ↦ ?_
  · rintro s rfl number time
    refine iff_of_false (by simp) ?_
    rintro ⟨pre, post, heq, -⟩
    simp at heq
  · cases a with
    | emit r timestamp =>
      obtain rfl := Option.some.inj ht
      exact h
    | lose i =>
      obtain ⟨-, hs⟩ := Option.ite_none_right_eq_some.1 ht
      obtain rfl := Option.some.inj hs
      exact h
    | deliver i now =>
      replace ht : LogExport.step P N levels days s (.deliver i now) = some t := ht
      rw [LogExport.step] at ht
      split at ht
      · obtain rfl := Option.some.inj ht
        exact h
      · contradiction
    | persisted r =>
      obtain ⟨-, hs⟩ := Option.ite_none_right_eq_some.1 ht
      obtain rfl := Option.some.inj hs
      exact h.finish r.applied
    | purge now cutoff r =>
      obtain ⟨-, hs⟩ := Option.ite_none_right_eq_some.1 ht
      obtain rfl := Option.some.inj hs
      split_ifs
      · exact h.purge (traced_inductive.reachable hreach) cutoff
      · exact h
    | restart applied =>
      obtain rfl := Option.some.inj ht
      exact h.finish applied

/-! ### The file -/

/-- A list that is a rearrangement of images is the image of a rearrangement. -/
theorem exists_perm_map {α β : Type*} {f : α → β} {ys : List β} {xs : List α}
    (h : ys.Perm (xs.map f)) : ∃ xs' : List α, xs'.Perm xs ∧ ys = xs'.map f := by
  have hall : List.Forall₂ (fun y x ↦ y = f x) (xs.map f) xs :=
    List.forall₂_map_left_iff.2 (List.forall₂_same.2 fun _ _ ↦ rfl)
  obtain ⟨xs', hxs', hperm⟩ := List.perm_comp_forall₂ h hall
  refine ⟨xs', hperm, ?_⟩
  rw [← List.forall₂_eq_eq_eq, List.forall₂_map_right_iff]
  exact hxs'

/-- A line of the file: the record it is of, and when this came. -/
structure Line where
  number : ℕ
  time : DateTime
  record : Record

/-- What a file tells its reader, for what was asked. -/
structure Tells (P : Conversions) (N : Json.Numerals) (levels : List String) (s : State)
    (level service : String) (limit : ℤ) (content : List Char) (lines : List Line) : Prop where
  empty : lines = [] → content = []
  /-- The file splits into lines, and each decodes. -/
  decoded : lines ≠ [] → (Json.splitLines content).map (Json.loads N) =
    lines.map fun l ↦ some (lineOf l.time.isoformat (capital P l.record))
  /-- A line is of a record that was logged, whose level is kept and asked for, and which is
  stored. -/
  logged : ∀ l ∈ lines, s.emitted[l.number]? = some l.record ∧ P.upper l.record.level ∈ levels ∧
    asked P level service (capital P l.record) = true ∧ Kept s.history l.number l.time
  nodup : (lines.map Line.number).Nodup
  ordered : lines.Pairwise fun l l' ↦ l.time.instant ≤ l'.time.instant
  /-- What is stored, is asked for and is not in the file is not later than any line, and there are
  as many as the limit allows. -/
  complete : ∀ number time r, Kept s.history number time → s.emitted[number]? = some r →
    asked P level service (capital P r) = true → number ∈ lines.map Line.number ∨
      ((lines.length : ℤ) = limit ∧ ∀ l ∈ lines, time.instant ≤ l.time.instant)

theorem printable_lineOf (timestamp : String) (r : Record) :
    Json.Printable N (lineOf timestamp r) := by
  refine .obj (by simp) fun b hb ↦ ?_
  simp only [List.mem_cons, List.not_mem_nil, or_false] at hb
  rcases hb with rfl | rfl | rfl | rfl <;> exact .str _

/-- A time of day on a Sunday. -/
def noon (second : ℕ) (h : second < 60) : DateTime :=
  ⟨⟨2026, 5, 17, by decide⟩, 12, 0, second, 0, ⟨by decide, by decide, by decide, h, by decide⟩⟩

/-- The time that is written in the entry of a row is when its record came. -/
theorem Traced.exists_logged (h : Traced P N levels s) : ∃ logged : LogEntry → DateTime,
    (∀ e ∈ s.rows.map Row.entry, e.timestamp = (logged e).isoformat) ∧
      ∀ x ∈ s.rows, logged x.entry = x.time := by
  have hdated : ∀ e : LogEntry, ∃ d : DateTime, e ∈ s.rows.map Row.entry →
      e.timestamp = d.isoformat := by
    intro e
    by_cases he : e ∈ s.rows.map Row.entry
    · obtain ⟨x, hx, rfl⟩ := List.mem_map.1 he
      exact ⟨x.time, fun _ ↦ (h.rows x hx).2⟩
    · exact ⟨noon 0 (by decide), fun he' ↦ absurd he' he⟩
  choose logged hlogged using hdated
  refine ⟨logged, hlogged, fun x hx ↦ DateTime.isoformat_inj.1 ?_⟩
  rw [← hlogged x.entry (List.mem_map_of_mem hx)]
  exact (h.rows x hx).2

/-- The rows of an export are rows of the table, the latest first, and what the limit leaves out is
not later than any of them. -/
theorem exists_rows {level service : String} {limit : ℤ} {rows : List LogEntry}
    (h : Traced P N levels s)
    (hsel : Selected (s.rows.map Row.entry) (fun e ↦
      asked P level service (recordOf e)) limit rows) :
    ∃ xs rest : List Row, rows = xs.map Row.entry ∧
      (xs ++ rest).Perm (s.rows.filter fun x ↦ asked P level service (recordOf x.entry)) ∧
      (xs ++ rest).Pairwise (fun x y ↦ y.time.instant ≤ x.time.instant) ∧
      (rest ≠ [] → (xs.length : ℤ) = limit) := by
  obtain ⟨logged, hlogged, htime⟩ := h.exists_logged
  obtain ⟨rest, hperm, hdated, hlimit⟩ := hsel.exists_left_out hlogged
  rw [List.filter_map] at hperm
  obtain ⟨zs, hzs, heq⟩ := exists_perm_map hperm
  rw [heq, List.pairwise_map] at hdated
  obtain ⟨xs, ys, rfl, rfl, rfl⟩ := List.map_eq_append_iff.1 heq.symm
  refine ⟨xs, ys, rfl, hzs, hdated.imp_of_mem fun {x y} hx hy hle ↦ ?_, fun hne ↦ ?_⟩
  · have hmem {x : Row} (hx : x ∈ xs ++ ys) : logged x.entry = x.time :=
      htime x (List.mem_of_mem_filter (hzs.mem_iff.1 hx))
    rwa [hmem hx, hmem hy] at hle
  · rw [← hlimit (by simpa using hne), List.length_map]

/-- **What the export tells.** In every run the content of an export, for any levels, service and
limit, splits into lines that decode to records as they were logged, each once, in the order in
which they came; what is stored and missing was cut off by the limit. -/
theorem exported_lines (hs : (system P N levels days).Reachable (timed N) s)
    {level service : String}
    {limit : ℤ} {rows : List LogEntry}
    (hsel : Selected (s.rows.map Row.entry) (fun e ↦
      asked P level service (recordOf e)) limit rows) :
    ∃ lines, Tells P N levels s level service limit (exportLogs N rows) lines := by
  have htraced : Traced P N levels s := traced_inductive.reachable hs
  have hstores := stores_of_reachable hs
  obtain ⟨xs, rest, rfl, hperm, hdated, hlimit⟩ := exists_rows htraced hsel
  have hmem {x : Row} (hx : x ∈ xs ++ rest) :
      x ∈ s.rows ∧ asked P level service (recordOf x.entry) = true :=
    List.mem_filter.1 (hperm.mem_iff.1 hx)
  -- The line of a row.
  have hline (x : Row) : ∃ l : Line, l.number = x.number ∧ l.time = x.time ∧ (x ∈ xs →
      s.emitted[l.number]? = some l.record ∧ P.upper l.record.level ∈ levels ∧
        recordOf x.entry = capital P l.record) := by
    by_cases hx : x ∈ xs
    · obtain ⟨⟨r, hr, hlevel, hrecord⟩, -⟩ := htraced.rows x (hmem (List.mem_append_left _ hx)).1
      exact ⟨⟨x.number, x.time, r⟩, rfl, rfl, fun _ ↦ ⟨hr, hlevel, hrecord⟩⟩
    · exact ⟨⟨x.number, x.time, ⟨"", "", ""⟩⟩, rfl, rfl, fun hx' ↦ absurd hx' hx⟩
  choose line hnumber htime hlogged using hline
  have hnumbers : (xs.reverse.map line).map Line.number = (xs.map Row.number).reverse := by
    rw [List.map_map, ← List.map_reverse]
    exact List.map_congr_left fun x _ ↦ hnumber x
  have hcontent : exportLogs N (xs.map Row.entry) =
      Json.joinLines ((xs.reverse.map fun x ↦
        lineOf x.time.isoformat (capital P (line x).record)).map
        (Json.dumps N)) := by
    rw [exportLogs, exported, ← List.map_reverse, List.map_map, List.map_map]
    refine congrArg Json.joinLines (List.map_congr_left fun x hx ↦ ?_)
    have hx := List.mem_reverse.1 hx
    show Json.dumps N (lineOf x.entry.timestamp (recordOf x.entry)) = _
    rw [(htraced.rows x (hmem (List.mem_append_left _ hx)).1).2, (hlogged x hx).2.2]
    rfl
  refine ⟨xs.reverse.map line, ?_, fun hne ↦ ?_, fun l hl ↦ ?_, ?_, ?_,
    fun number time r hkept hr hasked ↦ ?_⟩
  · intro hnil
    rw [List.map_eq_nil_iff, List.reverse_eq_nil_iff] at hnil
    rw [hcontent, hnil]
    rfl
  · rw [hcontent, Json.loads_lines, List.map_map, List.map_map]
    · refine List.map_congr_left fun x _ ↦ ?_
      show some (lineOf x.time.isoformat _) = some (lineOf (line x).time.isoformat _)
      rw [htime]
    · intro j hj
      obtain ⟨x, -, rfl⟩ := List.mem_map.1 hj
      exact printable_lineOf _ _
    · simpa using hne
  · obtain ⟨x, hx, rfl⟩ := List.mem_map.1 hl
    have hx := List.mem_reverse.1 hx
    obtain ⟨hrow, hasked⟩ := hmem (List.mem_append_left _ hx)
    obtain ⟨hr, hlevel, hrecord⟩ := hlogged x hx
    refine ⟨hr, hlevel, hrecord ▸ hasked, ?_⟩
    rw [hnumber, htime]
    exact (hstores _ _).1 ⟨x, hrow, rfl, rfl⟩
  · rw [hnumbers, List.nodup_reverse]
    have hrows : (s.rows.map Row.number).Nodup :=
      (htraced.nodup.sublist (List.sublist_append_right _ _)).sublist
        (List.sublist_append_right _ _)
    have hfiltered : ((xs ++ rest).map Row.number).Nodup :=
      (hperm.map Row.number).nodup_iff.2 (hrows.sublist (List.filter_sublist.map _))
    exact hfiltered.sublist ((List.sublist_append_left xs rest).map _)
  · rw [List.pairwise_map, List.pairwise_reverse]
    refine (List.pairwise_append.1 hdated).1.imp fun {x y} hle ↦ ?_
    rwa [htime, htime]
  · obtain ⟨x, hx, rfl, rfl⟩ := (hstores _ _).2 hkept
    obtain ⟨⟨r', hr', -, hrecord⟩, -⟩ := htraced.rows x hx
    obtain rfl := Option.some.inj (hr.symm.trans hr')
    have hsplit : x ∈ xs ++ rest := hperm.mem_iff.2 (List.mem_filter.2 ⟨hx, hrecord ▸ hasked⟩)
    rcases List.mem_append.1 hsplit with hfirst | hrest
    · refine Or.inl ?_
      rw [hnumbers, List.mem_reverse]
      exact List.mem_map_of_mem hfirst
    · refine Or.inr ⟨?_, fun l hl ↦ ?_⟩
      · rw [List.length_map, List.length_reverse]
        exact hlimit (List.ne_nil_of_mem hrest)
      · obtain ⟨y, hy, rfl⟩ := List.mem_map.1 hl
        rw [htime]
        exact (List.pairwise_append.1 hdated).2.2 y (List.mem_reverse.1 hy) x hrest

/-! ### A run -/

/-- Conversions as they are for capital letters and texts. -/
def plain : Conversions where
  upper s := s
  text | .str s => s | _ => ""
  column | .str s => some s | _ => none
  text_str _ := rfl
  column_str _ := rfl

/-- An error in two lines, and a warning, which is not kept. -/
def twoRecords : List Action :=
  [.emit ⟨"stt-provider", "ERROR", "connection lost:\n\"timeout\""⟩ 3,
   .emit ⟨"identifier", "WARNING", "slow"⟩ 4,
   .deliver 1 (noon 4 (by decide)), .deliver 0 (noon 5 (by decide)), .persisted .ok]

instance (s : State) (a : Action) : Decidable (timed Json.Numerals.whole s a) :=
  match a with
  | .emit _ q => inferInstanceAs (Decidable (q.den = 1))
  | .lose _ | .deliver _ _ | .persisted _ | .purge _ _ _ | .restart _ =>
    inferInstanceAs (Decidable True)

/-- Two services log, one of them with a level in lower case, and both lines are exported. -/
theorem exported_lines_twoRecords : ∃ s row,
    (system plain Json.Numerals.whole ["ERROR", "CRITICAL"] 30).Reachable
      (timed Json.Numerals.whole) s ∧
    ∃ lines, Tells plain Json.Numerals.whole ["ERROR", "CRITICAL"] s "" "" 1000
      (exportLogs Json.Numerals.whole [row]) lines := by
  obtain ⟨s, hs, hone⟩ := exists_reachable_of_exec
    (M := system plain Json.Numerals.whole ["ERROR", "CRITICAL"] 30)
      (G := timed Json.Numerals.whole)
    {} twoRecords (fun s ↦ s.rows.length = 1) rfl (by decide +kernel)
  obtain ⟨x, hx⟩ := List.length_eq_one_iff.1 (of_decide_eq_true hone)
  refine ⟨s, x.entry, hs, exported_lines hs ⟨[x.entry], ?_, List.pairwise_singleton _ _, rfl⟩⟩
  rw [hx, List.filter_eq_self.2 fun e _ ↦ by simp [asked]]
  rfl

end LiveSTT.LogExport
