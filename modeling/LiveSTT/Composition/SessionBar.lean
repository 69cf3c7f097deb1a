import LiveSTT.Composition.StartParameters
import LiveSTT.Lib.Markup
import LiveSTT.Lib.Text

/-!
# The label in the session bar

Anybody may start a session, with a label of one's choice. The label goes through the start command,
the KV entry and the lifecycle event into the status payload, and from there into the session bar of
every viewer, where `applySessionStatus` puts it into a template and assigns that to `innerHTML`.
The templates of the admin page escape such values with `_escHtml`. This one does not, so that a
label with a tag in it puts the tag into the page (`label_injects`).

A label is shown as the text it is, and nothing else of the bar depends on it, exactly if no `<` in
it is followed by a letter, `/`, `!` or `?` (`onlyText_label_iff`); what `_escHtml` returns is
always such a text (`plain_escHtml`).

The route is followed with the functions of the three services, one lemma for each hop, so that the
label in the page is the one of the request. How a browser reads the bar is the tokenizer of the
library, run on the template with the label in it.
-/

namespace LiveSTT.SessionBar

open Markup (tokens emitted after text markup Plain)
open AudioProducer (Stamp KvEntry)

/-! ### From the request to the status payload -/

/-- The command that `session_start` publishes. -/
def startCommand (label : String) : Dict :=
  [("command", .str "start"), ("label", .str label)]

/-- The JSON of the KV entry. -/
def stateData (entry : KvEntry) : Dict :=
  [("session_id", .str entry.sessionId.val), ("started_at", .str entry.startedAt),
    ("state", .str entry.state), ("label", entry.label)]

/-- `_build_status_payload`, with what the two buckets hold. -/
def buildStatusPayload (entry : Option Dict) (silenceTimeoutS : ℤ) : Dict :=
  let data := entry.getD [("state", .str "idle")]
  [("state", Dict.getOr data "state" (.str "idle")), ("silence_timeout_s", .num silenceTimeoutS)] ++
    if (Dict.getOr data "state" .null).isStr "active" then
      [("session_id", Dict.getOr data "session_id" .null),
        ("label", Dict.getOr data "label" (.str "")),
        ("started_at", Dict.getOr data "started_at" .null)]
    else []

/-- What `_on_session_event` broadcasts for a `started` event. -/
def startingPayload (event : Dict) : Dict :=
  [("state", .str "starting"), ("session_id", Dict.getOr event "session_id" .null),
    ("label", Dict.getOr event "label" (.str "")),
      ("started_at", Dict.getOr event "started_at" .null),
    ("silence_timeout_s", .num 300)]

/-- `session_start` publishes it. -/
theorem commands_publishCommand (s : SessionAdmin.State) (label : String) :
    (SessionAdmin.publishCommand s label .ok).commands =
      s.commands ++ [.obj (startCommand label)] :=
  rfl

/-- audio-producer, idle and connected, puts the entry of its session with the label. -/
theorem current_handleControlMessage {s : AudioProducer.State} (hidle : s.mem.isActive = false)
    (hkv : s.mem.sessionKv = true) (label : String) (now : Stamp) :
    (AudioProducer.handleControlMessage s
      (some (.obj (startCommand label))) now .ok).broker.current =
      some (AudioProducer.entryOf now (StartParameters.labelOf (startCommand label))) := by
  have hstart : AudioProducer.handleControlMessage s (some (.obj (startCommand label))) now .ok =
      AudioProducer.beginStart s now (.str label) .ok := by
    simp [AudioProducer.handleControlMessage, startCommand, Dict.getOr, Dict.get_cons, Json.isStr,
      hidle]
  rw [hstart, AudioProducer.beginStart_of_kv s now (.str label) .ok hkv]
  rfl

/-! ### The page -/

/-- What the page takes from the browser. -/
structure Browser where
  /-- `formatTimeHHMM`. -/
  formatTime : Option Json → String
  /-- The seconds since a time, rounded down; none if that is not a number. -/
  seconds : Json → Option ℤ
  /-- How a template renders a value that is no string. -/
  rendered : Json → String

/-- `_lastSessionPayload`, the text of the state, and the `innerHTML` of the details. -/
structure Page where
  lastSessionPayload : Dict := []
  stateText : String := ""
  details : String := ""

/-- A value counts as true. -/
def truthy : Option Json → Bool
  | none | some .null => false
  | some (.bool b) => b
  | some (.num q) => q ≠ 0
  | some (.str s) => s ≠ ""
  | some (.arr _) | some (.obj _) => true

/-- `String(v).padStart(2, '0')` -/
def padStart (v : ℤ) : String :=
  if (toString v).length < 2 then "0" ++ toString v else toString v

/-- `formatElapsed` -/
def formatElapsed (secs : Option ℤ) : String :=
  match secs with
  | some n =>
    padStart (n / 3600) ++ ":" ++ padStart (n.tmod 3600 / 60) ++ ":" ++ padStart (n.tmod 60)
  | none => "NaN:NaN:NaN"

/-- A value in a template. -/
def Browser.template (browser : Browser) : Json → String
  | .str s => s
  | v => browser.rendered v

/-- What is assigned for an active session. -/
def activeDetails (browser : Browser) (p : Dict) : String :=
  browser.formatTime (Dict.get p "started_at") ++
    (if truthy (Dict.get p "started_at") then
      " &nbsp;<span id=\"session-elapsed\">(" ++
        formatElapsed (browser.seconds (Dict.getOr p "started_at" .null)) ++ ")</span>"
    else "") ++
    if truthy (Dict.get p "label") then
      " &nbsp;\"" ++ browser.template (Dict.getOr p "label" .null) ++ "\""
    else ""

/-- `{...a, ...b}`: what `b` has is found first. -/
def spread (a b : Dict) : Dict := b ++ a

/-- `applySessionStatus`. -/
def applySessionStatus (browser : Browser) (page : Page) (payload : Dict) : Page :=
  let state :=
    if truthy (Dict.get payload "state") then Dict.getOr payload "state" .null else .str "idle"
  let merged := spread page.lastSessionPayload payload
  if state.isStr "starting" then ⟨merged, "STARTING", "Processing pre-roll…"⟩
  else if state.isStr "active" then ⟨merged, "RECORDING", activeDetails browser merged⟩
  else ⟨[], "IDLE", ""⟩

/-- `onFirstTranscript`. -/
def onFirstTranscript (browser : Browser) (page : Page) : Page :=
  if page.stateText = "STARTING" then
    applySessionStatus browser page (spread page.lastSessionPayload [("state", .str "active")])
  else page

/-! ### A session in the bar -/

/-- A session, but for its label. -/
structure Session where
  stamp : Stamp
  silenceTimeoutS : ℤ

/-- The broadcast of its `started` event, if it was started with the label. -/
def Session.starting (session : Session) (label : String) : Dict :=
  startingPayload (StartParameters.payload
    (.started session.stamp.id session.stamp.iso (StartParameters.labelOf (startCommand label))))

/-- Its status while it is active. -/
def Session.status (session : Session) (label : String) : Dict :=
  buildStatusPayload
    (some (stateData (AudioProducer.entryOf session.stamp
      (StartParameters.labelOf (startCommand label)))))
    session.silenceTimeoutS

/-- What a page is told about a session. -/
inductive Notice
  | starting
  | status
  | transcript

def receive (browser : Browser) (session : Session) (label : String) (page : Page) : Notice → Page
  | .starting => applySessionStatus browser page (session.starting label)
  | .status => applySessionStatus browser page (session.status label)
  | .transcript => onFirstTranscript browser page

/-- How a page comes to show the session as active: by its status, or by the first text after the
broadcast of its start. -/
inductive Shown
  | byStatus
  | byTranscript

def Shown.notices : Shown → List Notice
  | byStatus => [.status]
  | byTranscript => [.starting, .transcript]

/-- The session bar of a page that was told some notices and then shows the session as active. -/
def bar (browser : Browser) (page : Page) (session : Session) (notices : List Notice)
    (shown : Shown) (label : String) : String :=
  ((notices ++ shown.notices).foldl (receive browser session label) page).details

/-- The two bars differ only in text: that with the label has the same tags, attributes and
comments, and in addition the label in quotes, as text. -/
structure OnlyText (bare labelled label : String) : Prop where
  markup : markup (tokens .data labelled.toList) = markup (tokens .data bare.toList)
  text : text (tokens .data labelled.toList) = text (tokens .data bare.toList) ++
    if label = "" then [] else (" &nbsp;\"" ++ label ++ "\"").toList

section

variable {browser : Browser} {page : Page} {session : Session} {notices : List Notice}
  {shown : Shown} {label : String}

/-- What stands before the label. -/
def heading (browser : Browser) (session : Session) : String :=
  browser.formatTime (some (.str session.stamp.iso)) ++
    if session.stamp.iso ≠ "" then
      " &nbsp;<span id=\"session-elapsed\">(" ++
        formatElapsed (browser.seconds (.str session.stamp.iso)) ++ ")</span>"
    else ""

/-- The details are the heading and the label, once a payload has both. -/
theorem activeDetails_of_payload {p : Dict} (hlabel : Dict.get p "label" = some (.str label))
    (hstarted : Dict.get p "started_at" = some (.str session.stamp.iso)) :
    activeDetails browser p =
      heading browser session ++ if label ≠ "" then " &nbsp;\"" ++ label ++ "\"" else "" := by
  simp [activeDetails, heading, Dict.getOr, hlabel, hstarted, truthy, Browser.template]

theorem applySessionStatus_of_active {payload : Dict}
    (h : Dict.get payload "state" = some (.str "active")) :
    (applySessionStatus browser page payload).details =
      activeDetails browser (spread page.lastSessionPayload payload) := by
  simp [applySessionStatus, Dict.getOr, h, truthy, Json.isStr]

theorem applySessionStatus_of_starting {payload : Dict}
    (h : Dict.get payload "state" = some (.str "starting")) :
    applySessionStatus browser page payload =
      ⟨spread page.lastSessionPayload payload, "STARTING", "Processing pre-roll…"⟩ := by
  simp [applySessionStatus, Dict.getOr, h, truthy, Json.isStr]

/-- The bar is the heading and the label, whatever the page was told before. -/
theorem bar_eq : bar browser page session notices shown label =
    heading browser session ++ if label ≠ "" then " &nbsp;\"" ++ label ++ "\"" else "" := by
  have hstarting : session.starting label =
      [("state", .str "starting"), ("session_id", .str session.stamp.id.val), ("label", .str label),
        ("started_at", .str session.stamp.iso), ("silence_timeout_s", .num 300)] := rfl
  have hstatus : session.status label =
      [("state", .str "active"), ("silence_timeout_s", .num session.silenceTimeoutS),
        ("session_id", .str session.stamp.id.val), ("label", .str label),
        ("started_at", .str session.stamp.iso)] := rfl
  rw [bar, List.foldl_append]
  generalize notices.foldl (receive browser session label) page = page'
  cases shown with
  | byStatus =>
    show (applySessionStatus browser page' (session.status label)).details = _
    rw [hstatus, applySessionStatus_of_active (by simp [Dict.get_cons])]
    refine activeDetails_of_payload ?_ ?_
    · simp [spread, Dict.get_cons]
    · simp [spread, Dict.get_cons]
  | byTranscript =>
    -- the page has kept the payload of the start, and shows it
    show (onFirstTranscript browser
      (applySessionStatus browser page' (session.starting label))).details = _
    rw [hstarting, applySessionStatus_of_starting (by simp [Dict.get_cons]), onFirstTranscript,
      if_pos rfl, applySessionStatus_of_active (by simp [spread, Dict.get_cons])]
    refine activeDetails_of_payload ?_ ?_
    · simp [spread, Dict.get_cons]
    · simp [spread, Dict.get_cons]

/-! ### The heading -/

/-- What `padStart` shows of a number opens no tag. -/
theorem not_mem_padStart (v : ℤ) : '<' ∉ (padStart v).toList := by
  have hdigits (n : ℕ) : '<' ∉ (toString n).toList := fun h ↦
    absurd (Text.isDigit_of_mem_toString h) (by decide)
  have hint : '<' ∉ (toString v).toList := by
    cases v with
    | ofNat n => exact hdigits n
    | negSucc n =>
      show '<' ∉ ("-" ++ toString (n + 1)).toList
      rw [String.toList_append, List.mem_append]
      exact fun h ↦ h.elim (by decide) (hdigits (n + 1))
  rw [padStart]
  split
  · rw [String.toList_append, List.mem_append]
    exact fun h ↦ h.elim (by decide) hint
  · exact hint

theorem not_mem_formatElapsed (secs : Option ℤ) : '<' ∉ (formatElapsed secs).toList := by
  cases secs with
  | none => decide
  | some n =>
    simp only [formatElapsed, String.toList_append, List.mem_append, not_or]
    have hcolon : '<' ∉ ":".toList := by decide
    exact ⟨⟨⟨⟨not_mem_padStart _, hcolon⟩, not_mem_padStart _⟩, hcolon⟩, not_mem_padStart _⟩

/-- Behind the heading the tokenizer reads text. -/
theorem after_heading (htime : ∀ v, '<' ∉ (browser.formatTime v).toList) :
    after .data (heading browser session).toList = .data := by
  have htext {cs : List Char} (h : '<' ∉ cs) (ds : List Char) :
      after .data (cs ++ ds) = after .data ds := by
    rw [Markup.after_append, (Markup.read_of_not_mem h).1]
  have hopened (ds : List Char) :
      after .data (" &nbsp;<span id=\"session-elapsed\">(".toList ++ ds) = after .data ds := by
    rw [Markup.after_append]
    exact congrArg (fun s ↦ after s ds) (by decide +kernel)
  rw [heading, String.toList_append, htext (htime _)]
  split
  · rw [String.toList_append, String.toList_append, List.append_assoc, hopened,
      htext (not_mem_formatElapsed _)]
    decide +kernel
  · rfl

/-! ### Escaping -/

/-- `s.replace(/c/g, by)` -/
def replaceAll (c : Char) (new : String) (s : List Char) : List Char :=
  s.flatMap fun x ↦ if x = c then new.toList else [x]

/-- `_escHtml` -/
def escHtml (s : List Char) : List Char :=
  replaceAll '"' "&quot;" (replaceAll '>' "&gt;" (replaceAll '<' "&lt;" (replaceAll '&' "&amp;" s)))

/-- What replaces a character brings none that it does not have. -/
theorem not_mem_replaceAll {c d : Char} {new : String} {s : List Char} (hnew : d ∉ new.toList)
    (hs : d = c ∨ d ∉ s) : d ∉ replaceAll c new s := by
  intro hmem
  obtain ⟨x, hx, hd⟩ := List.mem_flatMap.1 hmem
  split at hd
  · exact hnew hd
  · rename_i hxc
    obtain rfl := List.mem_singleton.1 hd
    exact hs.elim hxc fun hnot ↦ hnot hx

/-- What is escaped is plain, whatever it was. -/
theorem plain_escHtml (s : List Char) : Plain (escHtml s) := by
  have hless : '<' ∉ replaceAll '<' "&lt;" (replaceAll '&' "&amp;" s) :=
    not_mem_replaceAll (by decide) (Or.inl rfl)
  have hgreater : '<' ∉ replaceAll '>' "&gt;" (replaceAll '<' "&lt;" (replaceAll '&' "&amp;" s)) :=
    not_mem_replaceAll (by decide) (Or.inr hless)
  exact Markup.plain_of_not_mem (not_mem_replaceAll (by decide) (Or.inr hgreater))

/-! ### The label -/

theorem opens_quote : Markup.opens '"' = false := by
  decide

/-- A label is only text in the bar if and only if it is plain. -/
theorem onlyText_bar_iff (htime : ∀ v, '<' ∉ (browser.formatTime v).toList) :
    OnlyText (bar browser page session notices shown "")
      (bar browser page session notices shown label)
      label ↔ Plain label.toList := by
  have hbare : bar browser page session notices shown "" = heading browser session := by
    simp [bar_eq]
  have hheading : after .data (heading browser session).toList = .data := after_heading htime
  have hbaretokens : tokens .data (heading browser session).toList =
      emitted .data (heading browser session).toList := by
    rw [tokens, hheading]
    exact List.append_nil _
  rw [hbare]
  by_cases hlabel : label = ""
  · subst hlabel
    rw [hbare]
    exact iff_of_true ⟨rfl, by simp⟩ Markup.plain_nil
  · -- the quote before the label is text, too
    have hquote : '<' ∉ " &nbsp;\"".toList := by decide
    obtain ⟨hafter, hemitted⟩ := Markup.read_of_not_mem hquote
    have hpre : after .data ((heading browser session).toList ++ " &nbsp;\"".toList) = .data := by
      rw [Markup.after_append, hheading, hafter]
    have hiff := Markup.onlyText_iff label.toList hpre opens_quote
    rw [Markup.emitted_append, hheading, hemitted, Markup.markup_append, Markup.text_append,
      Markup.markup_map_char, Markup.text_map_char, List.append_nil, List.append_assoc,
      List.append_assoc] at hiff
    have hlabelled : (bar browser page session notices shown label).toList =
        (heading browser session).toList ++ (" &nbsp;\"".toList ++ (label.toList ++ ['"'])) := by
      rw [bar_eq, if_pos hlabel]
      simp [String.toList_append]
    have hshown : (" &nbsp;\"" ++ label ++ "\"").toList =
        " &nbsp;\"".toList ++ (label.toList ++ ['"']) := by
      simp [String.toList_append]
    rw [← hiff, ← hlabelled]
    constructor
    · rintro ⟨hmarkup, htext⟩
      rw [hbaretokens] at hmarkup htext
      rw [if_neg hlabel, hshown] at htext
      exact ⟨hmarkup, htext⟩
    · rintro ⟨hmarkup, htext⟩
      refine ⟨?_, ?_⟩
      · rw [hbaretokens]
        exact hmarkup
      · rw [hbaretokens, if_neg hlabel, hshown]
        exact htext

end

/-- **A label is only text** in the bars of viewers if and only if no `<` in it is followed by a
letter, `/`, `!` or `?`. Two labels that are differ in text alone. -/
theorem onlyText_label_iff (browser : Browser)
    (htime : ∀ v, '<' ∉ (browser.formatTime v).toList) (page : Page) (session : Session)
    (notices : List Notice) (shown : Shown) :
    (∀ label, OnlyText (bar browser page session notices shown "")
        (bar browser page session notices shown label) label ↔ Plain label.toList) ∧
      ∀ label label', Plain label.toList → Plain label'.toList →
        markup (tokens .data (bar browser page session notices shown label).toList) =
          markup (tokens .data (bar browser page session notices shown label').toList) := by
  refine ⟨fun label ↦ onlyText_bar_iff htime, fun label label' h h' ↦ ?_⟩
  exact ((onlyText_bar_iff htime).2 h).markup.trans ((onlyText_bar_iff htime).2 h').markup.symm

/-- A browser on March 1, 2026, one minute past ten. -/
def tenPastTen : Browser where
  formatTime _ := "10:00 AM"
  seconds _ := some 60
  rendered _ := ""

/-- The session of ten o'clock. -/
def tenOClock : Session := ⟨AudioProducer.first, 300⟩

/-- A label with a sign in it is shown as it is. -/
theorem onlyText_label_iff_less : OnlyText (bar tenPastTen {} tenOClock [.starting] .byStatus "")
    (bar tenPastTen {} tenOClock [.starting] .byStatus "1 < 2 & \"so\"") "1 < 2 & \"so\"" := by
  refine ((onlyText_label_iff tenPastTen (fun _ ↦ ?_) {} tenOClock [.starting] .byStatus).1 _).2 ?_
  · show '<' ∉ "10:00 AM".toList
    decide +kernel
  · decide +kernel

/-- A label with an image in it puts the image into the page, with its attributes. -/
theorem label_injects :
    markup (tokens .data (bar tenPastTen {} tenOClock [.starting] .byStatus "Mass").toList) =
        [.startTag "span".toList [("id".toList, "session-elapsed".toList)] false,
          .endTag "span".toList] ∧
      markup (tokens .data (bar tenPastTen {} tenOClock [.starting] .byStatus
          "<img src=x onerror=alert(1)>").toList) =
        [.startTag "span".toList [("id".toList, "session-elapsed".toList)] false,
          .endTag "span".toList, .startTag "img".toList
            [("src".toList, ['x']), ("onerror".toList, "alert(1)".toList)] false] := by
  decide +kernel

end LiveSTT.SessionBar
