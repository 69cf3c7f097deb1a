import Mathlib.Data.List.Basic

/-!
# Subjects and their filters

A message broker routes a message by its subject, which is made of tokens with dots between them. A
filter has the same form; in it `*` stands for one token, and `>` in the last place for one or more.
So a filter `a.>` covers `a.b` and `a.b.c`, and does not cover `a`.

`covers` is the matching. A subject made of tokens has these tokens again (`tokens_join`), so what
covers it can be read off its tokens.
-/

namespace Subject

/-- The tokens of a subject or a filter. -/
def tokens (s : String) : List String := (s.toList.splitOn '.').map String.ofList

/-- The subject with the tokens. -/
def join (ts : List String) : String :=
  String.ofList (['.'].intercalate (ts.map String.toList))

/-- The tokens of a filter cover those of a subject. -/
def coversTokens : List String → List String → Bool
  | [], ts => ts.isEmpty
  | _ :: _, [] => false
  | p :: ps, t :: ts => (p = ">" && ps.isEmpty) || ((p = "*" || p = t) && coversTokens ps ts)

/-- A filter covers a subject. -/
def covers (filter subject : String) : Bool := coversTokens (tokens filter) (tokens subject)

/-- A token of a subject: not empty, and without dots and wildcards. -/
structure IsToken (t : String) : Prop where
  nonempty : t ≠ ""
  noDot : '.' ∉ t.toList
  noStar : '*' ∉ t.toList
  noTail : '>' ∉ t.toList

/-- The tokens of a subject are read back. -/
theorem tokens_join {ts : List String} (hts : ts ≠ []) (hdots : ∀ t ∈ ts, '.' ∉ t.toList) :
    tokens (join ts) = ts := by
  have hsplit : (['.'].intercalate (ts.map String.toList)).splitOn '.' = ts.map String.toList := by
    refine List.splitOn_intercalate '.' (fun l hl ↦ ?_) (by simpa using hts)
    obtain ⟨t, ht, rfl⟩ := List.mem_map.1 hl
    exact hdots t ht
  rw [tokens, join, String.toList_ofList, hsplit, List.map_map]
  have hid : String.ofList ∘ String.toList = id := funext fun _ ↦ String.ofList_toList
  rw [hid, List.map_id]

/-- A dot between two texts parts their tokens. -/
theorem tokens_append (s t : String) : tokens (s ++ "." ++ t) = tokens s ++ tokens t := by
  have hlist : (s ++ "." ++ t).toList = s.toList ++ '.' :: t.toList := by
    rw [String.toList_append, String.toList_append, List.append_assoc]
    rfl
  rw [tokens, hlist, List.splitOn_append_cons_self, List.map_append, tokens, tokens]

theorem tokens_ne_nil (s : String) : tokens s ≠ [] := by
  rw [tokens, ne_eq, List.map_eq_nil_iff]
  exact List.splitOn_ne_nil _ _

/-- A filter that ends in `>` covers the subjects with its tokens in front and at least one more. -/
theorem coversTokens_tail {ps ts : List String} (hps : ∀ p ∈ ps, p ≠ ">" ∧ p ≠ "*") :
    coversTokens (ps ++ [">"]) ts = true ↔ ∃ rest, rest ≠ [] ∧ ts = ps ++ rest := by
  induction ps generalizing ts with
  | nil => cases ts <;> simp [coversTokens]
  | cons p ps ih =>
    obtain ⟨⟨htail, hstar⟩, hps⟩ := List.forall_mem_cons.1 hps
    cases ts with
    | nil => simp [coversTokens]
    | cons t ts =>
      simp only [List.cons_append, coversTokens, htail, hstar, decide_false, Bool.false_and,
        Bool.false_or, Bool.and_eq_true, decide_eq_true_eq, ih hps, List.cons.injEq]
      constructor
      · rintro ⟨rfl, rest, hrest, rfl⟩
        exact ⟨rest, hrest, rfl, rfl⟩
      · rintro ⟨rest, hrest, rfl, rfl⟩
        exact ⟨rfl, rest, hrest, rfl⟩

/-- A filter without wildcards covers itself only. -/
theorem coversTokens_plain {ps ts : List String} (hps : ∀ p ∈ ps, p ≠ ">" ∧ p ≠ "*") :
    coversTokens ps ts = true ↔ ts = ps := by
  induction ps generalizing ts with
  | nil => simp [coversTokens]
  | cons p ps ih =>
    obtain ⟨⟨htail, hstar⟩, hps⟩ := List.forall_mem_cons.1 hps
    cases ts with
    | nil => simp [coversTokens]
    | cons t ts =>
      simp only [coversTokens, htail, hstar, decide_false, Bool.false_and, Bool.false_or,
        Bool.and_eq_true, decide_eq_true_eq, ih hps, List.cons.injEq]
      exact and_congr_left fun _ ↦ eq_comm

end Subject
