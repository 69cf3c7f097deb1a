import Mathlib.Tactic.Ring
import LiveSTT.Lib.Json

/-!
# JSON as text

`json.dumps` with its default options and `json.loads`, on the characters of a text. All that is not
printable ASCII is escaped, characters beyond `U+FFFF` as a pair of surrogates, so the bytes of a
printed value are its characters and none of them ends a line (`isAscii_dumps`).

How numbers are printed and read is a parameter. The reader takes any white space between tokens; of
two bindings of a key it keeps the later, at the place of the earlier. A surrogate without its
partner is no character here, and a text that escapes one is not read; neither are `NaN` and the
infinities, which are no numbers here.

What is printed is read back (`loads_dumps`): the reader, standing at a printed value, comes to its
end and returns it, whatever follows. This is an induction on the value, with a number on the
outside the only place where what follows matters.
-/

namespace Json

/-! ### Strings, printed -/

/-- A hexadecimal digit. -/
def hexDigit (d : ℕ) : Char :=
  if d < 10 then Char.ofNat (0x30 + d) else Char.ofNat (0x61 + (d - 10))

/-- `\\u{0:04x}`. -/
def unicodeEscape (n : ℕ) : List Char :=
  ['\\', 'u', hexDigit (n / 4096 % 16), hexDigit (n / 256 % 16), hexDigit (n / 16 % 16),
    hexDigit (n % 16)]

/-- The letter after the backslash, for the characters that have one. -/
def shortEscape (c : Char) : Option Char :=
  if c = '\\' then some '\\'
  else if c = '"' then some '"'
  else if c = '\n' then some 'n'
  else if c = '\r' then some 'r'
  else if c = '\t' then some 't'
  else if c.toNat = 8 then some 'b'
  else if c.toNat = 12 then some 'f'
  else none

/-- The first and the second surrogate of a character beyond `U+FFFF`. -/
def surrogates (n : ℕ) : ℕ × ℕ := (0xd800 + (n - 0x10000) / 1024, 0xdc00 + (n - 0x10000) % 1024)

/-- `py_encode_basestring_ascii`, on one character. -/
def escapeChar (c : Char) : List Char :=
  match shortEscape c with
  | some e => ['\\', e]
  | none =>
    if 0x20 ≤ c.toNat ∧ c.toNat ≤ 0x7e then [c]
    else if c.toNat < 0x10000 then unicodeEscape c.toNat
    else unicodeEscape (surrogates c.toNat).1 ++ unicodeEscape (surrogates c.toNat).2

/-- A string in its quotes. -/
def quoted (s : String) : List Char := '"' :: (s.toList.flatMap escapeChar ++ ['"'])

/-! ### Strings, read -/

/-- A piece of a string that is read: a character, or the code unit of an escape. -/
inductive Piece
  | char (c : Char)
  | unit (n : ℕ)

/-- The value of a hexadecimal digit. -/
def hexValue (c : Char) : Option ℕ :=
  if '0' ≤ c ∧ c ≤ '9' then some (c.toNat - 0x30)
  else if 'a' ≤ c ∧ c ≤ 'f' then some (c.toNat - 0x61 + 10)
  else if 'A' ≤ c ∧ c ≤ 'F' then some (c.toNat - 0x41 + 10)
  else none

/-- `_decode_uXXXX`, on the four characters. -/
def codeUnit (a b c d : Char) : Option ℕ := do
  let a ← hexValue a
  let b ← hexValue b
  let c ← hexValue c
  let d ← hexValue d
  return a * 4096 + b * 256 + c * 16 + d

/-- The character a letter after the backslash stands for. -/
def shortValue (e : Char) : Option Char :=
  if e = '"' then some '"'
  else if e = '\\' then some '\\'
  else if e = '/' then some '/'
  else if e = 'b' then some (Char.ofNat 8)
  else if e = 'f' then some (Char.ofNat 12)
  else if e = 'n' then some '\n'
  else if e = 'r' then some '\r'
  else if e = 't' then some '\t'
  else none

/-- The pieces up to the closing quote, and what is behind it. Control characters are refused. -/
def scan : List Char → Option (List Piece × List Char)
  | [] => none
  | c :: cs =>
    if c = '"' then some ([], cs)
    else if c = '\\' then
      match cs with
      | [] => none
      | e :: cs =>
        if e = 'u' then
          match cs with
          | a :: b :: c :: d :: cs =>
            (codeUnit a b c d).bind fun n ↦ (scan cs).map fun p ↦ (.unit n :: p.1, p.2)
          | _ => none
        else (shortValue e).bind fun x ↦ (scan cs).map fun p ↦ (.char x :: p.1, p.2)
    else if c.toNat < 0x20 then none
    else (scan cs).map fun p ↦ (.char c :: p.1, p.2)

/-- A code unit that is half of a character. -/
def isSurrogate (n : ℕ) : Bool := 0xd800 ≤ n ∧ n ≤ 0xdfff

/-- The unit is a first surrogate, and the next one a second. -/
def isPair (hi lo : ℕ) : Bool := (0xd800 ≤ hi ∧ hi ≤ 0xdbff) ∧ (0xdc00 ≤ lo ∧ lo ≤ 0xdfff)

/-- The characters of the pieces: two units that are a pair make one character. -/
def combine : List Piece → Option (List Char)
  | [] => some []
  | .char c :: ps => (combine ps).map (c :: ·)
  | .unit hi :: .unit lo :: ps =>
    if isPair hi lo then
      (combine ps).map (Char.ofNat (0x10000 + ((hi - 0xd800) * 1024 + (lo - 0xdc00))) :: ·)
    else if isSurrogate hi then none
    else (combine (.unit lo :: ps)).map (Char.ofNat hi :: ·)
  | .unit n :: ps => if isSurrogate n then none else (combine ps).map (Char.ofNat n :: ·)

/-- `scanstring`, behind the opening quote. -/
def string (cs : List Char) : Option (String × List Char) :=
  (scan cs).bind fun p ↦ (combine p.1).map fun x ↦ (String.ofList x, p.2)

/-! ### Values, printed -/

/-- A character that may stand in a number. -/
def isNumeral (c : Char) : Bool := c.isDigit || c ∈ ['-', '+', '.', 'e', 'E']

/-- How numbers are written. -/
structure Numerals where
  /-- The numbers that are written. -/
  Written : ℚ → Prop
  repr : ℚ → List Char
  read : List Char → Option ℚ
  read_repr : ∀ q, Written q → read (repr q) = some q
  isNumeral_of_mem : ∀ q, Written q → ∀ c ∈ repr q, isNumeral c = true
  read_nil : read [] = none

mutual

/-- `json.dumps`. -/
def dumps (N : Numerals) : Json → List Char
  | .null => ['n', 'u', 'l', 'l']
  | .bool true => ['t', 'r', 'u', 'e']
  | .bool false => ['f', 'a', 'l', 's', 'e']
  | .num q => N.repr q
  | .str s => quoted s
  | .arr xs => '[' :: (dumpsItems N xs ++ [']'])
  | .obj kvs => '\x7b' :: (dumpsMembers N kvs ++ ['\x7d'])

/-- The items of an array, after `", "` but the first. -/
def dumpsItems (N : Numerals) : List Json → List Char
  | [] => []
  | [x] => dumps N x
  | x :: xs => dumps N x ++ (',' :: ' ' :: dumpsItems N xs)

/-- The bindings of an object. -/
def dumpsMembers (N : Numerals) : List (String × Json) → List Char
  | [] => []
  | [(k, x)] => quoted k ++ (':' :: ' ' :: dumps N x)
  | (k, x) :: kvs => quoted k ++ (':' :: ' ' :: (dumps N x ++ (',' :: ' ' :: dumpsMembers N kvs)))

end

/-! ### Values, read -/

/-- White space between tokens. -/
def isBlank (c : Char) : Bool := c ∈ [' ', '\t', '\n', '\r']

def skipBlank (cs : List Char) : List Char := cs.dropWhile isBlank

/-- What is behind the rest of a keyword. -/
def keyword (word cs : List Char) : Option (List Char) :=
  if word.isPrefixOf cs then some (cs.drop word.length) else none

/-- `d[k] = v`, for a binding of a list of pairs. -/
def bind (d : Dict) (b : String × Json) : Dict :=
  if b.1 ∈ d.map Prod.fst then d.map fun x ↦ if x.1 = b.1 then b else x else d ++ [b]

/-- `dict(pairs)`. -/
def ofPairs (pairs : List (String × Json)) : Dict := pairs.foldl bind []

mutual

/-- `scan_once`. Of two calls, one in the other, at least one takes a character, so twice the length
of the text is as deep as the calls can go. -/
def value (N : Numerals) : ℕ → List Char → Option (Json × List Char)
  | 0, _ => none
  | _ + 1, [] => none
  | n + 1, c :: cs =>
    if c = '"' then (string cs).map fun p ↦ (.str p.1, p.2)
    else if c = '[' then
      match skipBlank cs with
      | ']' :: cs => some (.arr [], cs)
      | cs => (items N n cs).map fun p ↦ (.arr p.1, p.2)
    else if c = '\x7b' then
      match skipBlank cs with
      | '\x7d' :: cs => some (.obj [], cs)
      | cs => (members N n cs).map fun p ↦ (.obj (ofPairs p.1), p.2)
    else if c = 'n' then (keyword ['u', 'l', 'l'] cs).map fun cs ↦ (.null, cs)
    else if c = 't' then (keyword ['r', 'u', 'e'] cs).map fun cs ↦ (.bool true, cs)
    else if c = 'f' then (keyword ['a', 'l', 's', 'e'] cs).map fun cs ↦ (.bool false, cs)
    else (N.read ((c :: cs).takeWhile isNumeral)).map fun q ↦
      (.num q, (c :: cs).dropWhile isNumeral)

/-- The items of an array up to its end. -/
def items (N : Numerals) : ℕ → List Char → Option (List Json × List Char)
  | 0, _ => none
  | n + 1, cs => (value N n cs).bind fun p ↦
    match skipBlank p.2 with
    | ']' :: cs => some ([p.1], cs)
    | ',' :: cs => (items N n (skipBlank cs)).map fun q ↦ (p.1 :: q.1, q.2)
    | _ => none

/-- The bindings of an object up to its end. -/
def members (N : Numerals) : ℕ → List Char → Option (List (String × Json) × List Char)
  | 0, _ => none
  | _ + 1, [] => none
  | n + 1, c :: cs =>
    if c = '"' then (string cs).bind fun k ↦
      match skipBlank k.2 with
      | ':' :: cs => (value N n (skipBlank cs)).bind fun p ↦
        match skipBlank p.2 with
        | '\x7d' :: cs => some ([(k.1, p.1)], cs)
        | ',' :: cs => (members N n (skipBlank cs)).map fun q ↦ ((k.1, p.1) :: q.1, q.2)
        | _ => none
      | _ => none
    else none

end

/-- `json.loads`, `none` where it raises. -/
def loads (N : Numerals) (cs : List Char) : Option Json :=
  (value N (2 * cs.length) (skipBlank cs)).bind fun p ↦
    if skipBlank p.2 = [] then some p.1 else none

/-! ### Strings are read back -/

theorem scan_quote (cs : List Char) : scan ('"' :: cs) = some ([], cs) := by
  rw [scan.eq_def]
  rfl

theorem scan_short {e : Char} (he : e ≠ 'u') (cs : List Char) :
    scan ('\\' :: e :: cs) = (shortValue e).bind fun x ↦ (scan cs).map fun p ↦
      (.char x :: p.1, p.2) := by
  rw [scan.eq_def]
  simp [he]

theorem scan_char {c : Char} (hquote : c ≠ '"') (hslash : c ≠ '\\') (hcontrol : 0x20 ≤ c.toNat)
    (cs : List Char) : scan (c :: cs) = (scan cs).map fun p ↦ (.char c :: p.1, p.2) := by
  rw [scan.eq_def]
  simp [hquote, hslash, Nat.not_lt.2 hcontrol]

theorem hexValue_hexDigit {d : ℕ} (h : d < 16) : hexValue (hexDigit d) = some d := by
  have hall : ∀ d < 16, hexValue (hexDigit d) = some d := by decide
  exact hall d h

/-- An escape of four digits is read as its unit. -/
theorem scan_unicodeEscape {n : ℕ} (h : n < 0x10000) (cs : List Char) :
    scan (unicodeEscape n ++ cs) = (scan cs).map fun p ↦ (.unit n :: p.1, p.2) := by
  have hunit :
    codeUnit (hexDigit (n / 4096 % 16)) (hexDigit (n / 256 % 16)) (hexDigit (n / 16 % 16))
      (hexDigit (n % 16)) = some n := by
    have hvalue (m : ℕ) : hexValue (hexDigit (m % 16)) = some (m % 16) :=
      hexValue_hexDigit (Nat.mod_lt m (by decide))
    simp only [codeUnit, hvalue, Option.bind_eq_bind, Option.bind_some, Option.pure_def,
      Option.some.injEq]
    omega
  simp [unicodeEscape, scan, hunit]

/-- A short escape is read as its character. -/
theorem shortValue_of_shortEscape {c e : Char} (h : shortEscape c = some e) :
    shortValue e = some c ∧ e ≠ 'u' := by
  have hchar {n : ℕ} (hn : c.toNat = n) : Char.ofNat n = c := by
    rw [← hn, Char.ofNat_toNat]
  unfold shortEscape at h
  split_ifs at h with h₁ h₂ h₃ h₄ h₅ h₆ h₇
  · obtain rfl := Option.some.inj h
    exact ⟨by rw [h₁]; rfl, by decide⟩
  · obtain rfl := Option.some.inj h
    exact ⟨by rw [h₂]; rfl, by decide⟩
  · obtain rfl := Option.some.inj h
    exact ⟨by rw [h₃]; rfl, by decide⟩
  · obtain rfl := Option.some.inj h
    exact ⟨by rw [h₄]; rfl, by decide⟩
  · obtain rfl := Option.some.inj h
    exact ⟨by rw [h₅]; rfl, by decide⟩
  · obtain rfl := Option.some.inj h
    exact ⟨by rw [← hchar h₆]; rfl, by decide⟩
  · obtain rfl := Option.some.inj h
    exact ⟨by rw [← hchar h₇]; rfl, by decide⟩

theorem ne_of_shortEscape {c : Char} (h : shortEscape c = none) : c ≠ '"' ∧ c ≠ '\\' := by
  constructor
  · rintro rfl
    simp [shortEscape] at h
  · rintro rfl
    simp [shortEscape] at h

/-- The pieces an escaped character is read as. -/
def pieces (c : Char) : List Piece :=
  match shortEscape c with
  | some _ => [.char c]
  | none =>
    if 0x20 ≤ c.toNat ∧ c.toNat ≤ 0x7e then [.char c]
    else if c.toNat < 0x10000 then [.unit c.toNat]
    else [.unit (surrogates c.toNat).1, .unit (surrogates c.toNat).2]

theorem toNat_lt (c : Char) : c.toNat < 0x110000 := by
  have h : c.toNat.isValidChar := c.valid
  rcases h with h | h <;> omega

/-- What is written for a character is read as its pieces. -/
theorem scan_escapeChar (c : Char) (cs : List Char) :
    scan (escapeChar c ++ cs) = (scan cs).map fun p ↦ (pieces c ++ p.1, p.2) := by
  rw [escapeChar, pieces]
  cases hshort : shortEscape c with
  | some e =>
    obtain ⟨hvalue, hu⟩ := shortValue_of_shortEscape hshort
    show scan ('\\' :: e :: cs) = _
    rw [scan_short hu, hvalue]
    rfl
  | none =>
    obtain ⟨hquote, hslash⟩ := ne_of_shortEscape hshort
    have hlt := toNat_lt c
    show scan ((if _ then _ else _) ++ cs) = _
    split_ifs with hascii hbasic
    · exact scan_char hquote hslash hascii.1 cs
    · rw [scan_unicodeEscape hbasic]
      rfl
    · have hfirst : (surrogates c.toNat).1 < 0x10000 := by
        show 0xd800 + (c.toNat - 0x10000) / 1024 < 0x10000
        omega
      have hsecond : (surrogates c.toNat).2 < 0x10000 := by
        show 0xdc00 + (c.toNat - 0x10000) % 1024 < 0x10000
        omega
      rw [List.append_assoc, scan_unicodeEscape hfirst, scan_unicodeEscape hsecond, Option.map_map]
      rfl

theorem isPair_iff {hi lo : ℕ} :
    isPair hi lo = true ↔ (0xd800 ≤ hi ∧ hi ≤ 0xdbff) ∧ (0xdc00 ≤ lo ∧ lo ≤ 0xdfff) :=
  decide_eq_true_iff

theorem not_isSurrogate (c : Char) : isSurrogate c.toNat = false := by
  have h : c.toNat.isValidChar := c.valid
  have hrange : ¬ (0xd800 ≤ c.toNat ∧ c.toNat ≤ 0xdfff) := by
    rcases h with h | h <;> omega
  simpa [isSurrogate] using hrange

/-- A unit that is a character on its own is read as this character. -/
theorem combine_unit (c : Char) (ps : List Piece) :
    combine (.unit c.toNat :: ps) = (combine ps).map (c :: ·) := by
  have hpair (lo : ℕ) : ¬ isPair c.toNat lo = true := by
    have h : ¬ (0xd800 ≤ c.toNat ∧ c.toNat ≤ 0xdfff) := of_decide_eq_false (not_isSurrogate c)
    rw [isPair_iff]
    omega
  rcases ps with - | ⟨x | lo, ps⟩
  · simp [combine, not_isSurrogate, Char.ofNat_toNat]
  · simp [combine, not_isSurrogate, Char.ofNat_toNat]
  · rw [combine, if_neg (hpair lo), if_neg (by simp [not_isSurrogate]), Char.ofNat_toNat]

/-- The two units of a character beyond the first plane make that character. -/
theorem combine_surrogates {c : Char} (h : 0x10000 ≤ c.toNat) (ps : List Piece) :
    combine (.unit (surrogates c.toNat).1 :: .unit (surrogates c.toNat).2 :: ps) =
      (combine ps).map (c :: ·) := by
  have hlt := toNat_lt c
  have hpair : isPair (surrogates c.toNat).1 (surrogates c.toNat).2 = true := by
    refine isPair_iff.2 ?_
    show (0xd800 ≤ 0xd800 + (c.toNat - 0x10000) / 1024 ∧
      0xd800 + (c.toNat - 0x10000) / 1024 ≤ 0xdbff) ∧
      (0xdc00 ≤ 0xdc00 + (c.toNat - 0x10000) % 1024 ∧ 0xdc00 + (c.toNat - 0x10000) % 1024 ≤ 0xdfff)
    omega
  have hcode :
    0x10000 + (((surrogates c.toNat).1 - 0xd800) * 1024 + ((surrogates c.toNat).2 - 0xdc00)) =
      c.toNat := by
    show 0x10000 + ((0xd800 + (c.toNat - 0x10000) / 1024 - 0xd800) * 1024 +
      (0xdc00 + (c.toNat - 0x10000) % 1024 - 0xdc00)) = c.toNat
    omega
  rw [combine, if_pos hpair, hcode, Char.ofNat_toNat]

/-- The pieces of a character make that character. -/
theorem combine_pieces (c : Char) (ps : List Piece) :
    combine (pieces c ++ ps) = (combine ps).map (c :: ·) := by
  rw [pieces]
  cases shortEscape c with
  | some e => rfl
  | none =>
    show combine ((if _ then _ else _) ++ ps) = _
    split_ifs with hascii hbasic
    · rfl
    · exact combine_unit c ps
    · exact combine_surrogates (by omega) ps

/-- A printed string is read back, behind its opening quote. -/
theorem string_quoted (s : String) (cs : List Char) :
    string (s.toList.flatMap escapeChar ++ ('"' :: cs)) = some (s, cs) := by
  have hscan (xs : List Char) :
      scan (xs.flatMap escapeChar ++ ('"' :: cs)) = some (xs.flatMap pieces, cs) := by
    induction xs with
    | nil => exact scan_quote cs
    | cons x xs ih =>
      rw [List.flatMap_cons, List.append_assoc, scan_escapeChar, ih]
      rfl
  have hcombine (xs : List Char) : combine (xs.flatMap pieces) = some xs := by
    induction xs with
    | nil => rfl
    | cons x xs ih =>
      rw [List.flatMap_cons, combine_pieces, ih]
      rfl
  simp [string, hscan, hcombine]

/-! ### Values are read back -/

variable {N : Numerals} {j : Json} {q : ℚ} {n : ℕ} {c : Char} {cs : List Char}

/-- Every number in the value is written, and its objects have one binding for a key. -/
inductive Printable (N : Numerals) : Json → Prop
  | null : Printable N .null
  | bool (b : Bool) : Printable N (.bool b)
  | num {q : ℚ} (h : N.Written q) : Printable N (.num q)
  | str (s : String) : Printable N (.str s)
  | arr {xs : List Json} (h : ∀ x ∈ xs, Printable N x) : Printable N (.arr xs)
  | obj {kvs : List (String × Json)} (hkeys : (kvs.map Prod.fst).Nodup)
      (h : ∀ b ∈ kvs, Printable N b.2) : Printable N (.obj kvs)

/-- No number goes on here. -/
def Closed (cs : List Char) : Prop := ∀ c ∈ cs.head?, isNumeral c = false

/-- A value may begin with the character. -/
def opens (c : Char) : Bool := c ∈ ['"', '[', '\x7b', 'n', 't', 'f'] || isNumeral c

/-- A value begins neither with a blank nor with a closing bracket. -/
theorem isBlank_of_opens (h : opens c = true) : isBlank c = false ∧ c ≠ ']' := by
  have hnumeral : isNumeral c = true → isBlank c = false ∧ c ≠ ']' := by
    intro hc
    constructor
    · by_contra hblank
      have hmem : c ∈ [' ', '\t', '\n', '\r'] := of_decide_eq_true (eq_true_of_ne_false hblank)
      have hall : ∀ x ∈ [' ', '\t', '\n', '\r'], isNumeral x = false := by
        simp [isNumeral]
      simp [hall c hmem] at hc
    · rintro rfl
      simp [isNumeral] at hc
  rcases Bool.or_eq_true_iff.1 h with hmem | hc
  · have hall : ∀ x ∈ ['"', '[', '\x7b', 'n', 't', 'f'], isBlank x = false ∧ x ≠ ']' := by
      simp [isBlank]
    exact hall c (of_decide_eq_true hmem)
  · exact hnumeral hc

theorem Numerals.repr_ne_nil (h : N.Written q) : N.repr q ≠ [] := by
  intro hnil
  have hread := N.read_repr q h
  rw [hnil, N.read_nil] at hread
  contradiction

theorem skipBlank_of_opens (h : opens c = true) : skipBlank (c :: cs) = c :: cs :=
  List.dropWhile_cons_of_neg (by simp [(isBlank_of_opens h).1])

/-- A printed value has something in it, and begins as a value does. -/
theorem exists_cons_dumps (h : Printable N j) : ∃ c cs, dumps N j = c :: cs ∧ opens c = true := by
  cases h with
  | null => exact ⟨_, _, dumps.eq_1 N, by decide⟩
  | bool b =>
    cases b with
    | true => exact ⟨_, _, dumps.eq_2 N, by decide⟩
    | false => exact ⟨_, _, dumps.eq_3 N, by decide⟩
  | @num q hq =>
    obtain ⟨c, cs, hrepr⟩ := List.exists_cons_of_ne_nil (Numerals.repr_ne_nil hq)
    refine ⟨c, cs, (dumps.eq_4 N q).trans hrepr, ?_⟩
    have hc := N.isNumeral_of_mem q hq c (by simp [hrepr])
    simp [opens, hc]
  | str s => exact ⟨_, _, dumps.eq_5 N s, by decide⟩
  | @arr xs => exact ⟨_, _, dumps.eq_6 N xs, by decide⟩
  | @obj kvs => exact ⟨_, _, dumps.eq_7 N kvs, by decide⟩

/-! #### The steps of the reader -/

theorem value_str (s : String) : value N (n + 1) (quoted s ++ cs) = some (.str s, cs) := by
  show value N (n + 1) ('"' :: (_ ++ cs)) = _
  rw [value, if_pos rfl, List.append_assoc, List.singleton_append, string_quoted]
  rfl

/-- A number that is written is read, up to where it is closed. -/
theorem value_num (h : N.Written q) (hcs : Closed cs) :
    value N (n + 1) (N.repr q ++ cs) = some (.num q, cs) := by
  have hall := N.isNumeral_of_mem q h
  have htake : (N.repr q ++ cs).takeWhile isNumeral = N.repr q := by
    rw [List.takeWhile_append_of_pos hall]
    cases cs with
    | nil => simp
    | cons c cs => simp [hcs c rfl]
  have hdrop : (N.repr q ++ cs).dropWhile isNumeral = cs := by
    rw [List.dropWhile_append_of_pos hall]
    cases cs with
    | nil => rfl
    | cons c cs => simp [hcs c rfl]
  obtain ⟨c, rest, hrepr⟩ := List.exists_cons_of_ne_nil (Numerals.repr_ne_nil h)
  have hc : isNumeral c = true := hall c (by simp [hrepr])
  have hother : ∀ x ∈ ['"', '[', '\x7b', 'n', 't', 'f'], c ≠ x := by
    rintro x hx rfl
    have hnot : ∀ x ∈ ['"', '[', '\x7b', 'n', 't', 'f'], isNumeral x = false := by
      simp [isNumeral]
    simp [hnot c hx] at hc
  simp only [List.mem_cons, List.not_mem_nil, or_false, forall_eq_or_imp, forall_eq] at hother
  obtain ⟨h₁, h₂, h₃, h₄, h₅, h₆⟩ := hother
  rw [hrepr, List.cons_append] at htake hdrop ⊢
  rw [value, if_neg h₁, if_neg h₂, if_neg h₃, if_neg h₄, if_neg h₅, if_neg h₆, htake, hdrop,
    ← hrepr, N.read_repr q h]
  rfl

theorem value_arr (h : opens c = true) :
    value N (n + 1) ('[' :: c :: cs) = (items N n (c :: cs)).map fun p ↦ (.arr p.1, p.2) := by
  rw [value, if_neg (by decide), if_pos rfl, skipBlank_of_opens h]
  split
  · rename_i heq
    exact absurd (List.cons.inj heq).1 (isBlank_of_opens h).2
  · rfl

theorem value_obj :
    value N (n + 1) ('\x7b' :: '"' :: cs) =
      (members N n ('"' :: cs)).map fun p ↦ (.obj (ofPairs p.1), p.2) := by
  rw [value, if_neg (by decide), if_neg (by decide), if_pos rfl, skipBlank_of_opens (by decide)]
  rfl

/-- The pairs of a dictionary make it again. -/
theorem ofPairs_eq_self {kvs : List (String × Json)} (h : (kvs.map Prod.fst).Nodup) :
    ofPairs kvs = kvs := by
  have hfold (d : Dict) (hd : ((d ++ kvs).map Prod.fst).Nodup) : kvs.foldl bind d = d ++ kvs := by
    clear h
    induction kvs generalizing d with
    | nil => simp
    | cons b kvs ih =>
      have hnot : b.1 ∉ d.map Prod.fst := by
        intro hmem
        rw [List.map_append, List.map_cons, List.nodup_append] at hd
        exact hd.2.2 b.1 hmem b.1 (by simp) rfl
      have happend : d ++ b :: kvs = (d ++ [b]) ++ kvs := by simp
      rw [List.foldl_cons, bind, if_neg hnot, happend]
      exact ih (d ++ [b]) (happend ▸ hd)
  exact hfold [] (by simpa using h)

theorem dumpsItems_cons (x y : Json) (xs : List Json) :
    dumpsItems N (x :: y :: xs) = dumps N x ++ ',' :: ' ' :: dumpsItems N (y :: xs) := by
  rw [dumpsItems]
  simp

theorem dumpsMembers_cons (k : String) (x : Json) (b : String × Json) (kvs : List (String × Json)) :
    dumpsMembers N ((k, x) :: b :: kvs) =
      quoted k ++ ':' :: ' ' :: (dumps N x ++ ',' :: ' ' :: dumpsMembers N (b :: kvs)) := by
  rw [dumpsMembers]
  simp

/-- The reader, standing at the printed value, comes to its end, whatever follows. -/
def Reads (N : Numerals) (j : Json) : Prop :=
  ∀ n cs, 2 * (dumps N j).length ≤ n → Closed cs → value N n (dumps N j ++ cs) = some (j, cs)

theorem closed_of_isNumeral (h : isNumeral c = false) : Closed (c :: cs) := by
  rintro x hx
  obtain rfl := Option.some.inj hx
  exact h

/-- **Arrays**, by induction on the items. -/
theorem items_dumpsItems {x : Json} {xs : List Json} (hp : ∀ y ∈ x :: xs, Printable N y)
    (hr : ∀ y ∈ x :: xs, Reads N y) (hn : 2 * (dumpsItems N (x :: xs)).length + 1 ≤ n) :
    items N n (dumpsItems N (x :: xs) ++ ']' :: cs) = some (x :: xs, cs) := by
  induction xs generalizing x n with
  | nil =>
    rw [dumpsItems] at hn ⊢
    obtain ⟨n, rfl⟩ : ∃ m, n = m + 1 := ⟨n - 1, by omega⟩
    rw [items, hr x (by simp) n _ (by omega) (closed_of_isNumeral (by decide))]
    rfl
  | cons y xs ih =>
    have hlength : (dumpsItems N (x :: y :: xs)).length =
        (dumps N x).length + (dumpsItems N (y :: xs)).length + 2 := by
      rw [dumpsItems_cons, List.length_append, List.length_cons, List.length_cons]
      omega
    obtain ⟨n, rfl⟩ : ∃ m, n = m + 1 := ⟨n - 1, by omega⟩
    obtain ⟨c, rest, hfirst, hopens⟩ := exists_cons_dumps (hp y (by simp))
    have hskip : skipBlank (' ' :: (dumpsItems N (y :: xs) ++ ']' :: cs)) =
        dumpsItems N (y :: xs) ++ ']' :: cs := by
      obtain ⟨rest', hrest'⟩ : ∃ rest', dumpsItems N (y :: xs) = c :: rest' := by
        cases xs with
        | nil => exact ⟨rest, by rw [dumpsItems, hfirst]⟩
        | cons z xs => exact ⟨_, by rw [dumpsItems_cons, hfirst, List.cons_append]⟩
      rw [hrest']
      exact skipBlank_of_opens hopens
    have htail := ih (x := y) (n := n) (fun z hz ↦ hp z (List.mem_cons_of_mem _ hz))
      (fun z hz ↦ hr z (List.mem_cons_of_mem _ hz)) (by omega)
    have htext : dumpsItems N (x :: y :: xs) ++ ']' :: cs =
        dumps N x ++ ',' :: ' ' :: (dumpsItems N (y :: xs) ++ ']' :: cs) := by
      rw [dumpsItems_cons, List.append_assoc, List.cons_append, List.cons_append]
    rw [htext, items, hr x (by simp) n _ (by omega) (closed_of_isNumeral (by decide))]
    show (items N n (skipBlank (' ' :: _))).map _ = _
    rw [hskip, htail]
    rfl

/-- **Objects**, by induction on the bindings. -/
theorem members_dumpsMembers {b : String × Json} {kvs : List (String × Json)}
    (hp : ∀ x ∈ b :: kvs, Printable N x.2) (hr : ∀ x ∈ b :: kvs, Reads N x.2)
    (hn : 2 * (dumpsMembers N (b :: kvs)).length + 1 ≤ n) :
    members N n (dumpsMembers N (b :: kvs) ++ '\x7d' :: cs) = some (b :: kvs, cs) := by
  -- The reader at a binding: its key and its value, up to what follows.
  have hbinding {k : String} {x : Json} {m : ℕ} {rest : List Char} (hx : Printable N x)
      (hread : Reads N x) (hm : 2 * (dumps N x).length ≤ m) (hrest : Closed rest) :
      members N (m + 1) (quoted k ++ ':' :: ' ' :: (dumps N x ++ rest)) =
        match skipBlank rest with
        | '\x7d' :: cs => some ([(k, x)], cs)
        | ',' :: cs => (members N m (skipBlank cs)).map fun q ↦ ((k, x) :: q.1, q.2)
        | _ => none := by
    obtain ⟨c, tail, hfirst, hopens⟩ := exists_cons_dumps hx
    have hskip : skipBlank (' ' :: (dumps N x ++ rest)) = dumps N x ++ rest := by
      rw [hfirst]
      exact skipBlank_of_opens hopens
    show members N (m + 1) ('"' :: (_ ++ _)) = _
    rw [members, if_pos rfl, List.append_assoc, List.singleton_append, string_quoted]
    show (value N m (skipBlank (' ' :: _))).bind _ = _
    rw [hskip, hread m rest hm hrest]
    rfl
  induction kvs generalizing b n with
  | nil =>
    obtain ⟨k, x⟩ := b
    have htext : dumpsMembers N [(k, x)] ++ '\x7d' :: cs =
        quoted k ++ ':' :: ' ' :: (dumps N x ++ '\x7d' :: cs) := by
      rw [dumpsMembers]
      simp
    have hlength : (dumps N x).length ≤ (dumpsMembers N [(k, x)]).length := by
      rw [dumpsMembers, List.length_append, List.length_cons, List.length_cons]
      omega
    obtain ⟨n, rfl⟩ : ∃ m, n = m + 1 := ⟨n - 1, by omega⟩
    have hm : 2 * (dumps N x).length ≤ n := by omega
    rw [htext, hbinding (hp (k, x) (by simp)) (hr (k, x) (by simp)) hm
      (closed_of_isNumeral (by decide))]
    rfl
  | cons b' kvs ih =>
    obtain ⟨k, x⟩ := b
    have htext : dumpsMembers N ((k, x) :: b' :: kvs) ++ '\x7d' :: cs =
        quoted k ++ ':' :: ' ' :: (dumps N x ++
          ',' :: ' ' :: (dumpsMembers N (b' :: kvs) ++ '\x7d' :: cs)) := by
      rw [dumpsMembers_cons]
      simp
    have hlength : (dumps N x).length + (dumpsMembers N (b' :: kvs)).length + 2 ≤
        (dumpsMembers N ((k, x) :: b' :: kvs)).length := by
      rw [dumpsMembers_cons]
      simp only [List.length_append, List.length_cons]
      omega
    have hskip : skipBlank (' ' :: (dumpsMembers N (b' :: kvs) ++ '\x7d' :: cs)) =
        dumpsMembers N (b' :: kvs) ++ '\x7d' :: cs := by
      obtain ⟨k', x'⟩ := b'
      obtain ⟨rest, hrest⟩ : ∃ rest, dumpsMembers N ((k', x') :: kvs) = '"' :: rest := by
        cases kvs with
        | nil => exact ⟨_, by rw [dumpsMembers, quoted, List.cons_append]⟩
        | cons b'' kvs => exact ⟨_, by rw [dumpsMembers_cons, quoted, List.cons_append]⟩
      rw [hrest]
      exact skipBlank_of_opens (c := '"') (by decide)
    obtain ⟨n, rfl⟩ : ∃ m, n = m + 1 := ⟨n - 1, by omega⟩
    have htail := ih (b := b') (n := n) (fun z hz ↦ hp z (List.mem_cons_of_mem _ hz))
      (fun z hz ↦ hr z (List.mem_cons_of_mem _ hz)) (by omega)
    have hm : 2 * (dumps N x).length ≤ n := by omega
    rw [htext, hbinding (hp (k, x) (by simp)) (hr (k, x) (by simp)) hm
      (closed_of_isNumeral (by decide))]
    show (members N n (skipBlank (' ' :: _))).map _ = _
    rw [hskip, htail]
    rfl

/-- **The reader reads what is printed**, by induction on the value. -/
theorem reads_of_printable (h : Printable N j) : Reads N j := by
  induction h with
  | null =>
    intro n cs hn hcs
    obtain ⟨n, rfl⟩ : ∃ m, n = m + 1 := ⟨n - 1, by simp [dumps] at hn; omega⟩
    rfl
  | bool b =>
    intro n cs hn hcs
    cases b with
    | true =>
      obtain ⟨n, rfl⟩ : ∃ m, n = m + 1 := ⟨n - 1, by simp [dumps] at hn; omega⟩
      rfl
    | false =>
      obtain ⟨n, rfl⟩ : ∃ m, n = m + 1 := ⟨n - 1, by simp [dumps] at hn; omega⟩
      rfl
  | @num q hq =>
    intro n cs hn hcs
    have hpos := List.length_pos_of_ne_nil (Numerals.repr_ne_nil hq)
    rw [dumps] at hn ⊢
    obtain ⟨n, rfl⟩ : ∃ m, n = m + 1 := ⟨n - 1, by omega⟩
    exact value_num hq hcs
  | str s =>
    intro n cs hn hcs
    rw [dumps, quoted, List.length_cons] at hn
    obtain ⟨n, rfl⟩ : ∃ m, n = m + 1 := ⟨n - 1, by omega⟩
    rw [dumps]
    exact value_str s
  | @arr xs hp ih =>
    intro n cs hn hcs
    rw [dumps, List.length_cons, List.length_append, List.length_singleton] at hn
    obtain ⟨n, rfl⟩ : ∃ m, n = m + 1 := ⟨n - 1, by omega⟩
    rw [dumps, List.cons_append, List.append_assoc, List.singleton_append]
    cases xs with
    | nil => rfl
    | cons x xs =>
      obtain ⟨c, rest, hfirst, hopens⟩ := exists_cons_dumps (hp x (by simp))
      have hitems : items N n (dumpsItems N (x :: xs) ++ ']' :: cs) = some (x :: xs, cs) :=
        items_dumpsItems hp ih (by omega)
      obtain ⟨rest', hrest'⟩ : ∃ rest', dumpsItems N (x :: xs) ++ ']' :: cs = c :: rest' := by
        cases xs with
        | nil => exact ⟨_, by rw [dumpsItems, hfirst, List.cons_append]⟩
        | cons z xs =>
          exact ⟨_, by rw [dumpsItems_cons, hfirst, List.cons_append, List.cons_append]⟩
      rw [hrest'] at hitems ⊢
      rw [value_arr hopens, hitems]
      rfl
  | @obj kvs hkeys hp ih =>
    intro n cs hn hcs
    rw [dumps, List.length_cons, List.length_append, List.length_singleton] at hn
    obtain ⟨n, rfl⟩ : ∃ m, n = m + 1 := ⟨n - 1, by omega⟩
    rw [dumps, List.cons_append, List.append_assoc, List.singleton_append]
    cases kvs with
    | nil => rfl
    | cons b kvs =>
      have hmembers : members N n (dumpsMembers N (b :: kvs) ++ '\x7d' :: cs) =
          some (b :: kvs, cs) := members_dumpsMembers hp ih (by omega)
      obtain ⟨rest', hrest'⟩ : ∃ rest',
        dumpsMembers N (b :: kvs) ++ '\x7d' :: cs = '"' :: rest' := by
        obtain ⟨k, x⟩ := b
        cases kvs with
        | nil => exact ⟨_, by rw [dumpsMembers, quoted, List.cons_append, List.cons_append]⟩
        | cons b' kvs =>
          exact ⟨_, by rw [dumpsMembers_cons, quoted, List.cons_append, List.cons_append]⟩
      rw [hrest'] at hmembers ⊢
      rw [value_obj, hmembers]
      show some (Json.obj (ofPairs (b :: kvs)), cs) = _
      rw [ofPairs_eq_self hkeys]

/-- **The round trip**: what is printed is read back. -/
theorem loads_dumps (h : Printable N j) : loads N (dumps N j) = some j := by
  obtain ⟨c, cs, hfirst, hopens⟩ := exists_cons_dumps h
  have hread := reads_of_printable h (2 * (dumps N j).length) [] le_rfl (by simp [Closed])
  rw [List.append_nil] at hread
  have hskip : skipBlank (dumps N j) = dumps N j := by
    rw [hfirst]
    exact skipBlank_of_opens hopens
  rw [loads, hskip, hread]
  rfl

/-! ### What is printed -/

/-- Printable ASCII. -/
def isAscii (c : Char) : Bool := 0x20 ≤ c.toNat ∧ c.toNat ≤ 0x7e

theorem isAscii_of_isNumeral (h : isNumeral c = true) : isAscii c = true := by
  rcases Bool.or_eq_true_iff.1 h with hdigit | hmem
  · obtain ⟨hle, hge⟩ : 48 ≤ c.toNat ∧ c.toNat ≤ 57 := by
      simpa [Char.isDigit, UInt32.le_iff_toNat_le] using hdigit
    exact decide_eq_true ⟨by omega, by omega⟩
  · have hall : ∀ x ∈ ['-', '+', '.', 'e', 'E'], isAscii x = true := by simp [isAscii]
    exact hall c (of_decide_eq_true hmem)

/-- An escape is of ASCII characters. -/
theorem isAscii_unicodeEscape (n : ℕ) (h : c ∈ unicodeEscape n) : isAscii c = true := by
  have hhex (m : ℕ) : isAscii (hexDigit (m % 16)) = true := by
    have hall : ∀ d < 16, isAscii (hexDigit d) = true := by decide
    exact hall _ (Nat.mod_lt m (by decide))
  simp only [unicodeEscape, List.mem_cons, List.not_mem_nil, or_false] at h
  rcases h with rfl | rfl | rfl | rfl | rfl | rfl
  · rfl
  · rfl
  · exact hhex _
  · exact hhex _
  · exact hhex _
  · exact hhex n

/-- So is whatever is written for a character. -/
theorem isAscii_escapeChar {x : Char} (h : c ∈ escapeChar x) : isAscii c = true := by
  rw [escapeChar] at h
  cases hshort : shortEscape x with
  | some e =>
    have he : isAscii e = true := by
      unfold shortEscape at hshort
      split_ifs at hshort <;> (obtain rfl := Option.some.inj hshort; rfl)
    rw [hshort] at h
    rcases List.mem_cons.1 h with rfl | h
    · rfl
    · obtain rfl := List.mem_singleton.1 h
      exact he
  | none =>
    rw [hshort] at h
    replace h : c ∈ if _ then _ else _ := h
    split_ifs at h with hascii hbasic
    · obtain rfl := List.mem_singleton.1 h
      exact decide_eq_true hascii
    · exact isAscii_unicodeEscape _ h
    · exact (List.mem_append.1 h).elim (isAscii_unicodeEscape _) (isAscii_unicodeEscape _)

theorem isAscii_quoted {s : String} (h : c ∈ quoted s) : isAscii c = true := by
  rw [quoted, List.mem_cons, List.mem_append, List.mem_flatMap, List.mem_singleton] at h
  rcases h with rfl | ⟨x, -, h⟩ | rfl
  · rfl
  · exact isAscii_escapeChar h
  · rfl

/-- An array is in ASCII if its items are. -/
theorem isAscii_dumpsItems {xs : List Json} (h : ∀ x ∈ xs, ∀ c ∈ dumps N x, isAscii c = true) :
    ∀ c ∈ dumpsItems N xs, isAscii c = true := by
  induction xs with
  | nil => simp [dumpsItems]
  | cons x xs ih =>
    have htail := ih fun y hy ↦ h y (List.mem_cons_of_mem _ hy)
    intro c hc
    cases xs with
    | nil =>
      rw [dumpsItems] at hc
      exact h x (by simp) c hc
    | cons y xs =>
      rw [dumpsItems_cons, List.mem_append, List.mem_cons, List.mem_cons] at hc
      rcases hc with hc | rfl | rfl | hc
      · exact h x (by simp) c hc
      · rfl
      · rfl
      · exact htail c hc

/-- An object is in ASCII if its values are; its names are strings. -/
theorem isAscii_dumpsMembers {kvs : List (String × Json)}
    (h : ∀ b ∈ kvs, ∀ c ∈ dumps N b.2, isAscii c = true) :
    ∀ c ∈ dumpsMembers N kvs, isAscii c = true := by
  induction kvs with
  | nil => simp [dumpsMembers]
  | cons b kvs ih =>
    obtain ⟨k, x⟩ := b
    have htail := ih fun y hy ↦ h y (List.mem_cons_of_mem _ hy)
    intro c hc
    cases kvs with
    | nil =>
      rw [dumpsMembers, List.mem_append, List.mem_cons, List.mem_cons] at hc
      rcases hc with hc | rfl | rfl | hc
      · exact isAscii_quoted hc
      · rfl
      · rfl
      · exact h (k, x) (by simp) c hc
    | cons b' kvs =>
      rw [dumpsMembers_cons, List.mem_append, List.mem_cons, List.mem_cons, List.mem_append,
        List.mem_cons, List.mem_cons] at hc
      rcases hc with hc | rfl | rfl | hc | rfl | rfl | hc
      · exact isAscii_quoted hc
      · rfl
      · rfl
      · exact h (k, x) (by simp) c hc
      · rfl
      · rfl
      · exact htail c hc

/-- **The text is printable ASCII**, by induction on the value. -/
theorem isAscii_dumps (h : Printable N j) : ∀ c ∈ dumps N j, isAscii c = true := by
  induction h with
  | null => simp [dumps, isAscii]
  | bool b => cases b <;> simp [dumps, isAscii]
  | @num q hq =>
    intro c hc
    rw [dumps] at hc
    exact isAscii_of_isNumeral (N.isNumeral_of_mem q hq c hc)
  | str s =>
    intro c hc
    rw [dumps] at hc
    exact isAscii_quoted hc
  | @arr xs _ ih =>
    intro c hc
    rw [dumps, List.mem_cons, List.mem_append, List.mem_singleton] at hc
    rcases hc with rfl | hc | rfl
    · rfl
    · exact isAscii_dumpsItems ih c hc
    · rfl
  | @obj kvs _ _ ih =>
    intro c hc
    rw [dumps, List.mem_cons, List.mem_append, List.mem_singleton] at hc
    rcases hc with rfl | hc | rfl
    · rfl
    · exact isAscii_dumpsMembers ih c hc
    · rfl

/-- So it is one line. -/
theorem newline_notMem_dumps (h : Printable N j) : '\n' ∉ dumps N j := by
  intro hmem
  have hascii := isAscii_dumps h _ hmem
  revert hascii
  decide

/-! ### Lines -/

/-- `"\n".join(lines)`. -/
def joinLines (lines : List (List Char)) : List Char := ['\n'].intercalate lines

/-- `text.split("\n")`. -/
def splitLines (text : List Char) : List (List Char) := text.splitOn '\n'

/-- **A file of lines is read back**: printed values, one a line. -/
theorem loads_lines {js : List Json} (hp : ∀ j ∈ js, Printable N j) (hne : js ≠ []) :
    (splitLines (joinLines (js.map (dumps N)))).map (loads N) = js.map some := by
  have hsplit : splitLines (joinLines (js.map (dumps N))) = js.map (dumps N) := by
    refine List.splitOn_intercalate '\n' (fun l hl ↦ ?_) (by simpa using hne)
    obtain ⟨j, hj, rfl⟩ := List.mem_map.1 hl
    exact newline_notMem_dumps (hp j hj)
  rw [hsplit, List.map_map]
  exact List.map_congr_left fun j hj ↦ loads_dumps (hp j hj)

/-! ### Whole numbers -/

/-- A whole number in decimal digits. -/
def wholeRepr (q : ℚ) : List Char :=
  match q.num with
  | .ofNat n => Nat.toDigits 10 n
  | .negSucc n => '-' :: Nat.toDigits 10 (n + 1)

/-- The whole number in these digits. -/
def wholeValue : List Char → ℚ
  | '-' :: cs => -(Nat.ofDigitChars 10 cs 0 : ℚ)
  | cs => (Nat.ofDigitChars 10 cs 0 : ℚ)

/-- Whole numbers are written in decimal, and read as they are written. -/
def Numerals.whole : Numerals where
  Written q := q.den = 1
  repr := wholeRepr
  read cs := if cs ≠ [] ∧ wholeRepr (wholeValue cs) = cs then some (wholeValue cs) else none
  read_repr q hq := by
    have hdigits (n : ℕ) : Nat.ofDigitChars 10 (Nat.toDigits 10 n) 0 = n :=
      Nat.ofDigitChars_toDigits (by decide) (by decide)
    have hvalue : wholeRepr q ≠ [] ∧ wholeValue (wholeRepr q) = q := by
      have hnum : (q.num : ℚ) = q := Rat.coe_int_num_of_den_eq_one hq
      rw [wholeRepr]
      split
      · rename_i n hn
        obtain ⟨c, cs, hcs⟩ := List.exists_cons_of_ne_nil (Nat.toDigits_ne_nil (n := n) (b := 10))
        have hc : c.isDigit = true :=
          Nat.isDigit_of_mem_toDigits (n := n) (b := 10) (by decide) (by decide) (by simp [hcs])
        have hminus : c ≠ '-' := by
          rintro rfl
          contradiction
        refine ⟨Nat.toDigits_ne_nil, ?_⟩
        rw [wholeValue.eq_2, hdigits, ← hnum, hn]
        · rfl
        · intro cs' hcs'
          exact hminus (List.cons.inj (hcs.symm.trans hcs')).1
      · rename_i n hn
        refine ⟨by simp, ?_⟩
        rw [wholeValue, hdigits, ← hnum, hn, Int.negSucc_eq]
        push_cast
        ring
    rw [hvalue.2, if_pos ⟨hvalue.1, rfl⟩]
  isNumeral_of_mem q hq c hc := by
    have hdigit {n : ℕ} (h : c ∈ Nat.toDigits 10 n) : isNumeral c = true := by
      rw [isNumeral, Nat.isDigit_of_mem_toDigits (by decide) (by decide) h, Bool.true_or]
    rw [wholeRepr] at hc
    split at hc
    · exact hdigit hc
    · rcases List.mem_cons.1 hc with rfl | hc
      · rfl
      · exact hdigit hc
  read_nil := rfl

end Json
