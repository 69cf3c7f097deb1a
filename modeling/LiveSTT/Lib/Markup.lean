import Mathlib.Data.List.Infix

/-!
# Reading markup

The tokenizer of HTML, as a machine that reads one character after the other: text, tags with their
attributes, comments and document types. It is what an assignment to `innerHTML` begins with.
Character references and line ends are left as they are, since what they stand for is text or part
of a value; that an element such as `script` lets the characters behind it be read in another way is
left out too.

A character is read as text unless a `<` opens markup, and that depends on the character behind it
alone. So of a text that is put where the tokenizer reads text, all characters are read as text
exactly if no `<` in it is followed by one that opens markup (`onlyText_iff`).

The machine has its states as constructors, one for each state of the tokenizer that it models, and
the rules are stated on a state and the characters to come. `pending` counts what a state still
holds back: a `<` that may turn out to be text.
-/

namespace Markup

/-! ### Tokens -/

/-- A tag that is being read. -/
structure Tag where
  isEnd : Bool
  name : List Char := []
  attributes : List (List Char × List Char) := []
  deriving DecidableEq

inductive Token
  | char (c : Char)
  | startTag (name : List Char) (attributes : List (List Char × List Char)) (selfClosing : Bool)
  | endTag (name : List Char)
  | comment (data : List Char)
  | doctype
  deriving DecidableEq

/-- The tag is complete. -/
def Tag.token (tag : Tag) (selfClosing : Bool) : Token :=
  if tag.isEnd then .endTag tag.name else .startTag tag.name tag.attributes selfClosing

/-- An attribute is complete; of two with one name the first counts. -/
def Tag.add (tag : Tag) (name value : List Char) : Tag :=
  if name ∈ tag.attributes.map Prod.fst then tag
  else { tag with attributes := tag.attributes ++ [(name, value)] }

/-- The characters that are text. -/
def text (ts : List Token) : List Char :=
  ts.filterMap fun
    | .char c => some c
    | _ => none

/-- The tokens that are not. -/
def markup (ts : List Token) : List Token :=
  ts.filter fun
    | .char _ => false
    | _ => true

/-! ### The machine -/

inductive State
  | data
  | tagOpen
  | endTagOpen
  | tagName (tag : Tag)
  | beforeAttributeName (tag : Tag)
  | attributeName (tag : Tag) (name : List Char)
  | afterAttributeName (tag : Tag) (name : List Char)
  | beforeAttributeValue (tag : Tag) (name : List Char)
  /-- In a value, between quotes or without them. -/
  | attributeValue (tag : Tag) (name value : List Char) (quote : Option Char)
  | afterAttributeValue (tag : Tag)
  | selfClosingStartTag (tag : Tag)
  /-- Behind `<!`, as long as a comment or a document type may begin. -/
  | markupDeclaration (buffer : List Char)
  | bogusComment (data : List Char)
  | comment (data : List Char)
  | doctype
  deriving DecidableEq

def isSpace (c : Char) : Bool :=
  c = '\t' || c = '\n' || c.toNat = 12 || c = ' '

/-- A character in a value or a comment. -/
def valueChar (c : Char) : Char :=
  if c.toNat = 0 then Char.ofNat 0xfffd else c

/-- A character in a name. -/
def nameChar (c : Char) : Char :=
  (valueChar c).toLower

/-- In the data state. -/
def readData (c : Char) : State × List Token :=
  if c = '<' then (.tagOpen, []) else (.data, [.char c])

/-- In the tag name state. -/
def readTagName (tag : Tag) (c : Char) : State × List Token :=
  if isSpace c then (.beforeAttributeName tag, [])
  else if c = '/' then (.selfClosingStartTag tag, [])
  else if c = '>' then (.data, [tag.token false])
  else (.tagName { tag with name := tag.name ++ [nameChar c] }, [])

/-- In the before attribute name state. -/
def readBeforeAttributeName (tag : Tag) (c : Char) : State × List Token :=
  if isSpace c then (.beforeAttributeName tag, [])
  else if c = '/' then (.selfClosingStartTag tag, [])
  else if c = '>' then (.data, [tag.token false])
  else (.attributeName tag [nameChar c], [])

/-- In an attribute value state. -/
def readAttributeValue (tag : Tag) (name value : List Char) (quote : Option Char) (c : Char) :
    State × List Token :=
  match quote with
  | some q =>
    if c = q then (.afterAttributeValue (tag.add name value), [])
    else (.attributeValue tag name (value ++ [valueChar c]) quote, [])
  | none =>
    if isSpace c then (.beforeAttributeName (tag.add name value), [])
    else if c = '>' then (.data, [(tag.add name value).token false])
    else (.attributeValue tag name (value ++ [valueChar c]) none, [])

/-- In the bogus comment state. -/
def readBogusComment (data : List Char) (c : Char) : State × List Token :=
  if c = '>' then (.data, [.comment data]) else (.bogusComment (data ++ [valueChar c]), [])

/-- What a comment has read when a `>` ends it. -/
def commentEnd (data : List Char) : Option (List Char) :=
  if data = [] ∨ data = ['-'] then some []
  else if ['-', '-'].isSuffixOf data then some (data.take (data.length - 2))
  else if ['-', '-', '!'].isSuffixOf data then some (data.take (data.length - 3))
  else none

/-- What it has read when the input ends. -/
def unfinished (data : List Char) : List Char :=
  if ['-', '-', '!'].isSuffixOf data then data.take (data.length - 3)
  else if ['-', '-'].isSuffixOf data then data.take (data.length - 2)
  else if ['-'].isSuffixOf data then data.take (data.length - 1)
  else data

/-- In the comment states. -/
def readComment (data : List Char) (c : Char) : State × List Token :=
  match if c = '>' then commentEnd data else none with
  | some data => (.data, [.comment data])
  | none => (.comment (data ++ [valueChar c]), [])

/-- In the markup declaration open state. -/
def readMarkupDeclaration (buffer : List Char) (c : Char) : State × List Token :=
  let read := buffer ++ [c]
  if read = ['-', '-'] then (.comment [], [])
  else if read.map Char.toLower = "doctype".toList then (.doctype, [])
  else if read.isPrefixOf ['-', '-'] ∨ (read.map Char.toLower).isPrefixOf "doctype".toList then
    (.markupDeclaration read, [])
  else readBogusComment buffer c

/-- One character. -/
def step (s : State) (c : Char) : State × List Token :=
  match s with
  | .data => readData c
  | .tagOpen =>
    if c = '!' then (.markupDeclaration [], [])
    else if c = '/' then (.endTagOpen, [])
    else if c.isAlpha then readTagName { isEnd := false } c
    else if c = '?' then readBogusComment [] c
    else ((readData c).1, .char '<' :: (readData c).2)
  | .endTagOpen =>
    if c.isAlpha then readTagName { isEnd := true } c
    else if c = '>' then (.data, [])
    else readBogusComment [] c
  | .tagName tag => readTagName tag c
  | .beforeAttributeName tag => readBeforeAttributeName tag c
  | .attributeName tag name =>
    if isSpace c then (.afterAttributeName tag name, [])
    else if c = '/' then (.selfClosingStartTag (tag.add name []), [])
    else if c = '>' then (.data, [(tag.add name []).token false])
    else if c = '=' then (.beforeAttributeValue tag name, [])
    else (.attributeName tag (name ++ [nameChar c]), [])
  | .afterAttributeName tag name =>
    if isSpace c then (.afterAttributeName tag name, [])
    else if c = '/' then (.selfClosingStartTag (tag.add name []), [])
    else if c = '=' then (.beforeAttributeValue tag name, [])
    else if c = '>' then (.data, [(tag.add name []).token false])
    else (.attributeName (tag.add name []) [nameChar c], [])
  | .beforeAttributeValue tag name =>
    if isSpace c then (.beforeAttributeValue tag name, [])
    else if c = '"' ∨ c = '\'' then (.attributeValue tag name [] (some c), [])
    else readAttributeValue tag name [] none c
  | .attributeValue tag name value quote => readAttributeValue tag name value quote c
  | .afterAttributeValue tag => readBeforeAttributeName tag c
  | .selfClosingStartTag tag =>
    if c = '>' then (.data, [tag.token true]) else readBeforeAttributeName tag c
  | .markupDeclaration buffer => readMarkupDeclaration buffer c
  | .bogusComment data => readBogusComment data c
  | .comment data => readComment data c
  | .doctype => if c = '>' then (.data, [.doctype]) else (.doctype, [])

/-- The end of the input. A tag that is not complete is dropped. -/
def eof : State → List Token
  | .tagOpen => [.char '<']
  | .endTagOpen => [.char '<', .char '/']
  | .markupDeclaration buffer => [.comment buffer]
  | .bogusComment data => [.comment data]
  | .comment data => [.comment (unfinished data)]
  | .doctype => [.doctype]
  | _ => []

/-- The state behind a text. -/
def after (s : State) (cs : List Char) : State :=
  cs.foldl (fun s c ↦ (step s c).1) s

/-- The tokens that are complete with a text. -/
def emitted (s : State) : List Char → List Token
  | [] => []
  | c :: cs => (step s c).2 ++ emitted (step s c).1 cs

/-- The tokens of a text that ends the input. -/
def tokens (s : State) (cs : List Char) : List Token :=
  emitted s cs ++ eof (after s cs)

/-! ### Reading on -/

section

variable {s : State} {c q : Char} {cs ds : List Char}

theorem text_append (ts us : List Token) : text (ts ++ us) = text ts ++ text us :=
  List.filterMap_append

theorem markup_append (ts us : List Token) : markup (ts ++ us) = markup ts ++ markup us :=
  List.filter_append _ _

theorem text_map_char (cs : List Char) : text (cs.map .char) = cs := by
  rw [text, List.filterMap_map]
  exact List.filterMap_some

theorem markup_map_char (cs : List Char) : markup (cs.map .char) = [] := by
  refine List.filter_eq_nil_iff.2 fun t ht ↦ ?_
  obtain ⟨c, -, rfl⟩ := List.mem_map.1 ht
  simp

theorem tokens_cons (s : State) (c : Char) (cs : List Char) :
    tokens s (c :: cs) = (step s c).2 ++ tokens (step s c).1 cs := by
  rw [tokens, emitted, List.append_assoc]
  rfl

theorem emitted_append (s : State) (cs ds : List Char) :
    emitted s (cs ++ ds) = emitted s cs ++ emitted (after s cs) ds := by
  induction cs generalizing s with
  | nil => rfl
  | cons c cs ih =>
    rw [List.cons_append, emitted, emitted, ih, List.append_assoc]
    rfl

theorem after_append (s : State) (cs ds : List Char) :
    after s (cs ++ ds) = after (after s cs) ds :=
  List.foldl_append

theorem tokens_append (s : State) (cs ds : List Char) :
    tokens s (cs ++ ds) = emitted s cs ++ tokens (after s cs) ds := by
  rw [tokens, emitted_append, after_append, List.append_assoc]
  rfl

/-- Without a `<`, text is read. -/
theorem read_of_not_mem (h : '<' ∉ cs) :
    after .data cs = .data ∧ emitted .data cs = cs.map .char := by
  induction cs with
  | nil => exact ⟨rfl, rfl⟩
  | cons c cs ih =>
    rw [List.mem_cons, not_or] at h
    obtain ⟨hafter, hemitted⟩ := ih h.2
    have hstep : step .data c = (.data, [.char c]) := if_neg (Ne.symm h.1)
    constructor
    · show after (step .data c).1 cs = .data
      rw [hstep]
      exact hafter
    · rw [emitted, hstep, hemitted]
      rfl

/-! ### How much of it is text -/

/-- The characters that the machine has read and may still take as text. -/
def pending : State → ℕ
  | .tagOpen => 1
  | .endTagOpen => 2
  | _ => 0

@[simp] theorem text_nil : text [] = [] := rfl

@[simp] theorem text_token (tag : Tag) (selfClosing : Bool) :
    text [tag.token selfClosing] = [] := by
  rw [Tag.token]
  split
  · rfl
  · rfl

@[simp] theorem text_comment (data : List Char) : text [.comment data] = [] := rfl

theorem length_text_readData (c : Char) :
    (text (readData c).2).length + pending (readData c).1 = 1 := by
  rw [readData]
  split
  · rfl
  · rfl

/-- Behind an opened markup no character is text before it ends. -/
theorem text_readTagName (tag : Tag) (c : Char) :
    text (readTagName tag c).2 = [] ∧ pending (readTagName tag c).1 = 0 := by
  rw [readTagName]
  repeat' split
  all_goals simp [pending]

theorem text_readBeforeAttributeName (tag : Tag) (c : Char) :
    text (readBeforeAttributeName tag c).2 = [] ∧
      pending (readBeforeAttributeName tag c).1 = 0 := by
  rw [readBeforeAttributeName]
  repeat' split
  all_goals simp [pending]

theorem text_readAttributeValue (tag : Tag) (name value : List Char) (quote : Option Char)
    (c : Char) :
    text (readAttributeValue tag name value quote c).2 = [] ∧
      pending (readAttributeValue tag name value quote c).1 = 0 := by
  rw [readAttributeValue.eq_def]
  repeat' split
  all_goals simp [pending]

theorem text_readBogusComment (data : List Char) (c : Char) :
    text (readBogusComment data c).2 = [] ∧ pending (readBogusComment data c).1 = 0 := by
  rw [readBogusComment]
  split
  all_goals simp [pending]

theorem text_readComment (data : List Char) (c : Char) :
    text (readComment data c).2 = [] ∧ pending (readComment data c).1 = 0 := by
  rw [readComment]
  split
  all_goals simp [pending]

/-- A markup declaration gives no text. -/
theorem text_readMarkupDeclaration (buffer : List Char) (c : Char) :
    text (readMarkupDeclaration buffer c).2 = [] ∧
      pending (readMarkupDeclaration buffer c).1 = 0 := by
  simp only [readMarkupDeclaration]
  repeat' split
  · simp [pending]
  · simp [pending]
  · simp [pending]
  · exact text_readBogusComment buffer c

/-- **One character.** No more is read as text than has come in. -/
theorem length_text_step (s : State) (c : Char) :
    (text (step s c).2).length + pending (step s c).1 ≤ pending s + 1 := by
  -- inside of markup nothing is text; only behind a `<` may what was read still become text
  have hnone {r : State × List Token} (n : ℕ) (h : text r.2 = [] ∧ pending r.1 = 0) :
      (text r.2).length + pending r.1 ≤ n := by
    rw [h.1, h.2]
    exact Nat.zero_le n
  cases s with
  | data => exact (length_text_readData c).le
  | tagOpen =>
    simp only [step]
    split
    · simp [pending]
    · split
      · simp [pending]
      · split
        · exact hnone _ (text_readTagName _ c)
        · split
          · exact hnone _ (text_readBogusComment _ c)
          · have hdata := length_text_readData c
            show (text (readData c).2).length + 1 + pending (readData c).1 ≤ 1 + 1
            omega
  | endTagOpen =>
    simp only [step]
    split
    · exact hnone _ (text_readTagName _ c)
    · split
      · simp [pending]
      · exact hnone _ (text_readBogusComment _ c)
  | tagName tag => exact hnone _ (text_readTagName tag c)
  | beforeAttributeName tag => exact hnone _ (text_readBeforeAttributeName tag c)
  | attributeName tag name =>
    simp only [step]
    repeat' split
    all_goals simp [pending]
  | afterAttributeName tag name =>
    simp only [step]
    repeat' split
    all_goals simp [pending]
  | beforeAttributeValue tag name =>
    simp only [step]
    split
    · simp [pending]
    · split
      · simp [pending]
      · exact hnone _ (text_readAttributeValue tag name [] none c)
  | attributeValue tag name value quote =>
    exact hnone _ (text_readAttributeValue tag name value quote c)
  | afterAttributeValue tag => exact hnone _ (text_readBeforeAttributeName tag c)
  | selfClosingStartTag tag =>
    simp only [step]
    split
    · simp [pending]
    · exact hnone _ (text_readBeforeAttributeName tag c)
  | markupDeclaration buffer => exact hnone _ (text_readMarkupDeclaration buffer c)
  | bogusComment data => exact hnone _ (text_readBogusComment data c)
  | comment data => exact hnone _ (text_readComment data c)
  | doctype =>
    simp only [step]
    split
    · simp [pending, text]
    · simp [pending]

/-- There is no more text than there are characters. -/
theorem length_text_tokens (s : State) (cs : List Char) :
    (text (tokens s cs)).length ≤ pending s + cs.length := by
  induction cs generalizing s with
  | nil =>
    show (text (eof s)).length ≤ pending s
    cases s with
    | tagOpen => exact Nat.le_refl 1
    | endTagOpen => exact Nat.le_refl 2
    | _ => exact Nat.zero_le _
  | cons c cs ih =>
    have hstep := length_text_step s c
    have hrest := ih (step s c).1
    rw [tokens_cons, text_append, List.length_append, List.length_cons]
    omega

/-! ### Plain text -/

/-- The characters that open markup behind a `<`. -/
def opens (c : Char) : Bool :=
  c.isAlpha || c = '/' || c = '!' || c = '?'

/-- No `<` is followed by a character that opens markup. -/
def Plain (cs : List Char) : Prop :=
  ∀ c, opens c = true → ¬ ['<', c] <:+: cs

theorem plain_of_not_mem (h : '<' ∉ cs) : Plain cs := by
  intro c _ hsub
  exact h (hsub.subset List.mem_cons_self)

theorem plain_nil : Plain [] := plain_of_not_mem List.not_mem_nil

/-- A string is plain if its first character opens no tag and the rest is plain. -/
theorem plain_cons_iff :
    Plain (c :: cs) ↔ (c = '<' → ∀ d ∈ cs.head?, opens d = false) ∧ Plain cs := by
  constructor
  · intro h
    refine ⟨?_, fun d hd hsub ↦ h d hd (hsub.trans (List.suffix_cons c cs).isInfix)⟩
    rintro rfl d hd
    obtain ⟨rest, rfl⟩ := List.head?_eq_some_iff.1 hd
    refine Bool.eq_false_iff.2 fun hopens ↦ h d hopens ?_
    exact (List.prefix_append ['<', d] rest).isInfix
  · rintro ⟨hhead, h⟩ d hd hsub
    rcases List.infix_cons_iff.1 hsub with hpre | hsub
    · rw [List.cons_prefix_cons] at hpre
      obtain ⟨rfl, rest, rfl⟩ := hpre
      exact absurd hd (by simp [hhead rfl d rfl])
    · exact h d hd hsub

instance decidablePlain : (cs : List Char) → Decidable (Plain cs)
  | [] => isTrue plain_nil
  | c :: cs =>
    have := decidablePlain cs
    decidable_of_iff ((c = '<' → cs.head?.any opens = false) ∧ Plain cs)
      (by cases cs <;> simp [plain_cons_iff])

/-- A character that opens no markup can be read behind a text that is plain. -/
theorem plain_append_singleton (h : Plain cs) (hq : opens q = false) : Plain (cs ++ [q]) := by
  induction cs with
  | nil =>
    refine plain_cons_iff.2 ⟨fun _ d hd ↦ ?_, plain_nil⟩
    simp at hd
  | cons c cs ih =>
    obtain ⟨hhead, hrest⟩ := plain_cons_iff.1 h
    refine plain_cons_iff.2 ⟨fun hc d hd ↦ ?_, ih hrest⟩
    cases cs with
    | nil =>
      obtain rfl : q = d := by simpa using hd
      exact hq
    | cons c' cs => exact hhead hc d hd

/-- What no markup opens behind a `<` is read as text, the `<` too. -/
theorem step_tagOpen (h : opens c = false) :
    step .tagOpen c = ((readData c).1, .char '<' :: (readData c).2) := by
  simp only [opens, Bool.or_eq_false_iff, decide_eq_false_iff_not] at h
  obtain ⟨⟨⟨halpha, hslash⟩, hbang⟩, hquestion⟩ := h
  simp [step, halpha, hslash, hbang, hquestion]

/-- Plain text is read as text. -/
theorem tokens_of_plain :
    (Plain cs → tokens .data cs = cs.map .char) ∧
      (Plain ('<' :: cs) → tokens .tagOpen cs = .char '<' :: cs.map .char) := by
  -- for both states at once: a `<` leads from the one to the other
  induction cs with
  | nil => exact ⟨fun _ ↦ rfl, fun _ ↦ rfl⟩
  | cons c cs ih =>
    obtain ⟨ihdata, ihopen⟩ := ih
    have hdata (h : Plain (c :: cs)) :
        (readData c).2 ++ tokens (readData c).1 cs = .char c :: cs.map .char := by
      rw [readData]
      split
      · rename_i hc
        rw [hc] at h ⊢
        exact ihopen h
      · exact congrArg _ (ihdata (plain_cons_iff.1 h).2)
    constructor
    · intro h
      rw [tokens_cons]
      exact hdata h
    · intro h
      obtain ⟨hhead, hrest⟩ := plain_cons_iff.1 h
      rw [tokens_cons, step_tagOpen (hhead rfl c rfl), List.cons_append, hdata hrest]
      rfl

/-- Neither the `<` nor the character that opens markup behind it is read as text. -/
theorem length_text_of_opens (h : opens c = true) (hds : ds ≠ []) :
    (text ((step .tagOpen c).2 ++ tokens (step .tagOpen c).1 ds)).length ≤ ds.length := by
  have hnone {r : State × List Token} (h : text r.2 = [] ∧ pending r.1 = 0) :
      (text (r.2 ++ tokens r.1 ds)).length ≤ ds.length := by
    have hrest := length_text_tokens r.1 ds
    rw [text_append, h.1, List.nil_append]
    omega
  simp only [opens, Bool.or_eq_true, decide_eq_true_eq] at h
  simp only [step]
  split
  · exact hnone ⟨rfl, rfl⟩
  · split
    · -- an end tag: the character behind the slash decides, and is there
      obtain ⟨d, ds, rfl⟩ := List.exists_cons_of_ne_nil hds
      have hd : text (step .endTagOpen d).2 = [] ∧ pending (step .endTagOpen d).1 = 0 := by
        simp only [step]
        split
        · exact text_readTagName _ d
        · split
          · exact ⟨rfl, rfl⟩
          · exact text_readBogusComment _ d
      have hrest := length_text_tokens (step .endTagOpen d).1 ds
      show (text (tokens .endTagOpen (d :: ds))).length ≤ (d :: ds).length
      rw [tokens_cons, text_append, hd.1, List.nil_append, List.length_cons]
      omega
    · split
      · exact hnone (text_readTagName _ c)
      · split
        · exact hnone (text_readBogusComment _ c)
        · simp_all

/-- Where a `<` opens markup, something is not read as text. -/
theorem length_text_of_not_plain (q : Char) :
    (¬ Plain cs → (text (tokens .data (cs ++ [q]))).length < cs.length + 1) ∧
      (¬ Plain ('<' :: cs) → (text (tokens .tagOpen (cs ++ [q]))).length < cs.length + 2) := by
  induction cs with
  | nil =>
    refine ⟨fun h ↦ absurd plain_nil h, fun h ↦ absurd ?_ h⟩
    refine plain_cons_iff.2 ⟨fun _ d hd ↦ ?_, plain_nil⟩
    simp at hd
  | cons c cs ih =>
    obtain ⟨ihdata, ihopen⟩ := ih
    have hdata (h : ¬ Plain (c :: cs)) :
        (text ((readData c).2 ++ tokens (readData c).1 (cs ++ [q]))).length < cs.length + 2 := by
      rw [readData]
      split
      · rename_i hc
        rw [hc] at h
        exact ihopen h
      · rename_i hc
        have hrest : ¬ Plain cs :=
          fun hplain ↦ h (plain_cons_iff.2 ⟨fun hc' ↦ absurd hc' hc, hplain⟩)
        have hlt := ihdata hrest
        show (text (tokens .data (cs ++ [q]))).length + 1 < cs.length + 2
        omega
    constructor
    · intro h
      rw [List.cons_append, tokens_cons]
      exact hdata h
    · intro h
      rw [List.cons_append, tokens_cons]
      rcases hopens : opens c with - | -
      · -- the `<` is text, and the markup opens behind it
        have hrest : ¬ Plain (c :: cs) := by
          refine fun hplain ↦ h (plain_cons_iff.2 ⟨fun _ d hd ↦ ?_, hplain⟩)
          obtain rfl : c = d := Option.some.inj hd
          exact hopens
        have hlt := hdata hrest
        rw [step_tagOpen hopens]
        show (text ((readData c).2 ++ tokens (readData c).1 (cs ++ [q]))).length + 1 < _
        rw [List.length_cons]
        omega
      · have hne : cs ++ [q] ≠ [] := by simp
        have hle := length_text_of_opens hopens hne
        rw [List.length_append, List.length_singleton] at hle
        rw [List.length_cons]
        omega

/-- **A text is read as text if and only if it is plain**: put where text is read, and before a
character that opens no markup, all its characters are text, and nothing else is read. -/
theorem onlyText_iff {pre : List Char} (cs : List Char) (hpre : after .data pre = .data)
    (hq : opens q = false) :
    (markup (tokens .data (pre ++ (cs ++ [q]))) = markup (emitted .data pre) ∧
      text (tokens .data (pre ++ (cs ++ [q]))) = text (emitted .data pre) ++ (cs ++ [q])) ↔
    Plain cs := by
  rw [tokens_append, hpre, markup_append, text_append]
  constructor
  · rintro ⟨-, htext⟩
    by_contra hplain
    have hlength := congrArg List.length (List.append_cancel_left htext)
    rw [List.length_append, List.length_singleton] at hlength
    have hlt := (length_text_of_not_plain q).1 hplain
    omega
  · intro hplain
    rw [tokens_of_plain.1 (plain_append_singleton hplain hq), text_map_char, markup_map_char,
      List.append_nil]
    exact ⟨rfl, rfl⟩

end

end Markup
