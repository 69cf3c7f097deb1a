import Mathlib.Data.List.Basic
import Mathlib.Data.List.Infix

/-!
# Text as Python has it

Numbers with leading zeros as `strftime` prints them, `int(s)`, `s.replace(old, new)` and `t in s`,
on the characters of a string.

`int` takes white space around the number, a sign, single underscores between digits, and any
decimal digits of Unicode (here those of Unicode 15). What a printed number relies on is that it is
read back (`int_padded`), so that different numbers are printed differently (`padded_injective`).
-/

namespace Text

/-! ### Characters -/

/-- `c.isspace()`. -/
def isSpace (c : Char) : Bool :=
  let n := c.toNat
  (9 ≤ n ∧ n ≤ 13) ∨ (28 ≤ n ∧ n ≤ 32) ∨ n ∈ [0x85, 0xa0, 0x1680] ∨ (0x2000 ≤ n ∧ n ≤ 0x200a) ∨
    n ∈ [0x2028, 0x2029, 0x202f, 0x205f, 0x3000]

/-- The digits zero of Unicode; the others follow them. -/
def zeros : List ℕ :=
  [0x30, 0x660, 0x6f0, 0x7c0, 0x966, 0x9e6, 0xa66, 0xae6, 0xb66, 0xbe6, 0xc66, 0xce6, 0xd66, 0xde6,
    0xe50, 0xed0, 0xf20, 0x1040, 0x1090, 0x17e0, 0x1810, 0x1946, 0x19d0, 0x1a80, 0x1a90, 0x1b50,
    0x1bb0, 0x1c40, 0x1c50, 0xa620, 0xa8d0, 0xa900, 0xa9d0, 0xa9f0, 0xaa50, 0xabf0, 0xff10, 0x104a0,
    0x10d30, 0x11066, 0x110f0, 0x11136, 0x111d0, 0x112f0, 0x11450, 0x114d0, 0x11650, 0x116c0,
    0x11730, 0x118e0, 0x11950, 0x11c50, 0x11d50, 0x11da0, 0x11f50, 0x16a60, 0x16ac0, 0x16b50,
    0x1d7ce, 0x1d7d8, 0x1d7e2, 0x1d7ec, 0x1d7f6, 0x1e140, 0x1e2f0, 0x1e4f0, 0x1e950, 0x1fbf0]

/-- The value of a decimal digit, what `\d` of a regular expression matches. -/
def decimal (c : Char) : Option ℕ :=
  (zeros.find? fun z ↦ z ≤ c.toNat ∧ c.toNat < z + 10).map fun z ↦ c.toNat - z

/-- A digit is no white space and no sign. -/
theorem code_of_decimal {c : Char} (h : (decimal c).isSome = true) :
    isSpace c = false ∧ c ≠ '+' ∧ c ≠ '-' := by
  have hcode : ∀ z ∈ zeros, ∀ k < 10, (isSpace (Char.ofNat (z + k)) = false ∧
      Char.ofNat (z + k) ≠ '+' ∧ Char.ofNat (z + k) ≠ '-') := by
    decide +kernel
  rw [decimal, Option.isSome_map, List.find?_isSome] at h
  obtain ⟨z, hz, hrange⟩ := h
  obtain ⟨hle, hlt⟩ := of_decide_eq_true hrange
  have hc := hcode z hz (c.toNat - z) (by omega)
  rwa [Nat.add_sub_cancel' hle, Char.ofNat_toNat] at hc

/-! ### `int` -/

/-- The digits after the first. -/
def digits : ℕ → List Char → Option ℕ
  | acc, [] => some acc
  | acc, '_' :: c :: cs => (decimal c).bind fun d ↦ digits (acc * 10 + d) cs
  | acc, c :: cs => (decimal c).bind fun d ↦ digits (acc * 10 + d) cs

/-- An unsigned number. -/
def number : List Char → Option ℕ
  | [] => none
  | c :: cs => (decimal c).bind fun d ↦ digits d cs

/-- `s.strip()`. -/
def strip (cs : List Char) : List Char :=
  ((cs.dropWhile isSpace).reverse.dropWhile isSpace).reverse

/-- `int(s)`, `none` where it raises. -/
def int (cs : List Char) : Option ℤ :=
  match strip cs with
  | '+' :: cs => (number cs).map fun n ↦ (n : ℤ)
  | '-' :: cs => (number cs).map fun n ↦ -(n : ℤ)
  | cs => (number cs).map fun n ↦ (n : ℤ)

/-- Two digits are a number, also before a line feed. -/
theorem int_digits {a b : Char} {x y : ℕ} (ha : decimal a = some x) (hb : decimal b = some y) :
    int [a, b] = some ((x * 10 + y : ℕ) : ℤ) ∧ int [a, b, '\n'] = some ((x * 10 + y : ℕ) : ℤ) := by
  obtain ⟨hspace, hplus, hminus⟩ := code_of_decimal (Option.isSome_of_eq_some ha)
  have hspace' := (code_of_decimal (Option.isSome_of_eq_some hb)).1
  have hstrip : strip [a, b] = [a, b] ∧ strip [a, b, '\n'] = [a, b] := by
    have hnl : isSpace '\n' = true := by decide
    simp [strip, hspace, hspace', hnl]
  have hnumber : number [a, b] = some (x * 10 + y) := by
    simp [number, ha, digits, hb]
  have hint (cs : List Char) (h : strip cs = [a, b]) :
      int cs = some ((x * 10 + y : ℕ) : ℤ) := by
    rw [int, h]
    split
    · simp_all
    · simp_all
    · rw [hnumber]
      rfl
  exact ⟨hint _ hstrip.1, hint _ hstrip.2⟩

/-! ### Printed numbers -/

/-- `%d` with two digits. -/
def padded (n : ℕ) : String :=
  if n < 10 then "0" ++ toString n else toString n

theorem int_padded {n : ℕ} (h : n < 100) : int (padded n).toList = some (n : ℤ) := by
  have hall : ∀ n < 100, int (padded n).toList = some (n : ℤ) := by decide +kernel
  exact hall n h

theorem length_padded {n : ℕ} (h : n < 100) : (padded n).toList.length = 2 := by
  have hall : ∀ n < 100, (padded n).toList.length = 2 := by decide +kernel
  exact hall n h

theorem padded_injective {m n : ℕ} (hm : m < 100) (hn : n < 100)
    (h : (padded m).toList = (padded n).toList) : m = n := by
  have hint := int_padded hm
  rw [h, int_padded hn, Option.some.injEq, Int.natCast_inj] at hint
  exact hint.symm

theorem toString_injective {m n : ℕ} (h : (toString m).toList = (toString n).toList) : m = n := by
  have hdigits : Nat.toDigits 10 m = Nat.toDigits 10 n := by
    rwa [Nat.toString_eq_ofList_toDigits, Nat.toString_eq_ofList_toDigits, String.toList_ofList,
      String.toList_ofList] at h
  have hvalue := Nat.ofDigitChars_toDigits (n := m) (b := 10) (by decide) (by decide)
  rw [hdigits, Nat.ofDigitChars_toDigits (by decide) (by decide)] at hvalue
  exact hvalue.symm

/-- A printed number has digits only. -/
theorem isDigit_of_mem_toString {n : ℕ} {c : Char} (h : c ∈ (toString n).toList) :
    c.isDigit = true := by
  rw [Nat.toString_eq_ofList_toDigits, String.toList_ofList] at h
  exact Nat.isDigit_of_mem_toDigits (by decide) (by decide) h

/-- A padded number is of digits. -/
theorem isDigit_of_mem_padded {n : ℕ} {c : Char} (h : c ∈ (padded n).toList) :
    c.isDigit = true := by
  unfold padded at h
  split at h
  · rw [String.toList_append, List.mem_append] at h
    rcases h with h | h
    · obtain rfl := List.mem_singleton.1 h
      rfl
    · exact isDigit_of_mem_toString h
  · exact isDigit_of_mem_toString h

/-! ### Searching and replacing -/

/-- A text is split at the last occurrence of a character in one way. -/
theorem split_last {c : Char} {xs ys xs' ys' : List Char} (hys : c ∉ ys) (hys' : c ∉ ys')
    (h : xs ++ c :: ys = xs' ++ c :: ys') : xs = xs' ∧ ys = ys' := by
  rcases List.append_eq_append_iff.1 h with ⟨zs, rfl, hzs⟩ | ⟨zs, rfl, hzs⟩
  · cases zs with
    | nil => simpa using hzs
    | cons z zs =>
      obtain ⟨rfl, rfl⟩ := List.cons.inj hzs
      exact absurd (by simp) hys
  · cases zs with
    | nil => simpa [eq_comm] using hzs
    | cons z zs =>
      obtain ⟨rfl, rfl⟩ := List.cons.inj hzs
      exact absurd (by simp) hys'

/-- `sub in s`. -/
def contains (s sub : String) : Bool :=
  decide (sub.toList <:+: s.toList)

/-- `s.replace(old, new)` for a nonempty `old`; `skip` characters of an occurrence are still to be
left out. -/
def replaceFrom (old new : List Char) : ℕ → List Char → List Char
  | _, [] => []
  | skip + 1, _ :: cs => replaceFrom old new skip cs
  | 0, c :: cs =>
    if old.isPrefixOf (c :: cs) then new ++ replaceFrom old new (old.length - 1) cs
    else c :: replaceFrom old new 0 cs

/-- `s.replace(old, new)`. -/
def replace (s old new : String) : String :=
  String.ofList (replaceFrom old.toList new.toList 0 s.toList)

example : replace "Service — \x7bdate\x7d" "\x7bdate\x7d" "March 29" = "Service — March 29" := by
  decide +kernel

end Text
