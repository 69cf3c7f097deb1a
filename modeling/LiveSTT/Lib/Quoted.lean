import Mathlib.Data.List.Basic

/-!
# String literals in quotes

A literal of a query language stands between single quotes and ends at the first quote that is not
doubled. So a text becomes a literal when its quotes are doubled (`escape`), and is then read back
(`closing_escape`). A text without quotes is its own escape, and only such a text can be put between
the quotes as it is.
-/

namespace Quoted

/-- The single quote. -/
def quote : Char := Char.ofNat 39

/-- The text with its quotes doubled. -/
def escape (cs : List Char) : List Char :=
  cs.flatMap fun c ↦ if c = quote then [quote, quote] else [c]

/-- Reads a literal after its opening quote, if its closing quote ends the text. -/
def closing : List Char → Option (List Char)
  | [] => none
  | [c] => if c = quote then some [] else none
  | c :: d :: cs =>
    if c = quote then if d = quote then (closing cs).map (quote :: ·) else none
    else (closing (d :: cs)).map (c :: ·)

theorem closing_cons {c : Char} {cs : List Char} (hc : c ≠ quote) (hcs : cs ≠ []) :
    closing (c :: cs) = (closing cs).map (c :: ·) := by
  cases cs with
  | nil => contradiction
  | cons d cs => rw [closing, if_neg hc]

/-- **An escaped text is read back.** -/
theorem closing_escape (cs : List Char) : closing (escape cs ++ [quote]) = some cs := by
  induction cs with
  | nil => rfl
  | cons c cs ih =>
    by_cases hc : c = quote
    · have hescape : escape (c :: cs) = quote :: quote :: escape cs := by
        simp [escape, hc]
      rw [hescape, List.cons_append, List.cons_append, closing, if_pos rfl, if_pos rfl, ih, hc]
      rfl
    · have hescape : escape (c :: cs) = c :: escape cs := by
        simp [escape, hc]
      rw [hescape, List.cons_append, closing_cons hc (by simp), ih]
      rfl

/-- A text without quotes is its own escape. -/
theorem escape_eq_self {cs : List Char} (h : quote ∉ cs) : escape cs = cs := by
  induction cs with
  | nil => rfl
  | cons c cs ih =>
    rw [List.mem_cons, not_or] at h
    have hc : c ≠ quote := fun hc ↦ h.1 hc.symm
    have hescape : escape (c :: cs) = c :: escape cs := by
      simp [escape, hc]
    rw [hescape, ih h.2]

end Quoted
