import Mathlib.Algebra.Group.Nat.Defs
import Mathlib.Data.List.Basic

/-!
# Numbers printed with leading zeros

`%0wd` prints a number of at most `w` digits with exactly `w` characters. Texts of one length are
compared position by position, so what follows them matters only where they are equal
(`append_lt_append_iff`), and the printed numbers are ordered as the numbers are
(`zeroPadded_lt_iff`). Texts built of such fields, each after the same separator, are then ordered
field by field.
-/

namespace FixedWidth

/-! ### The order of texts -/

/-- Of two texts of one length, with anything behind them, the difference comes first. -/
theorem append_lt_append_iff {α : Type*} [LT α] {xs xs' ys ys' : List α}
    (h : xs.length = xs'.length) : xs ++ ys < xs' ++ ys' ↔ xs < xs' ∨ xs = xs' ∧ ys < ys' := by
  induction xs generalizing xs' with
  | nil =>
    obtain rfl := List.length_eq_zero_iff.1 h.symm
    simp
  | cons x xs ih =>
    obtain ⟨x', xs', rfl⟩ := List.exists_cons_of_length_eq_add_one h.symm
    have hlength : xs.length = xs'.length := by simpa using h
    rw [List.cons_append, List.cons_append, List.cons_lt_cons_iff, List.cons_lt_cons_iff,
      ih hlength, List.cons.injEq]
    tauto

/-! ### Digits -/

theorem digitChar_lt_iff {m n : ℕ} (hm : m < 10) (hn : n < 10) :
    Nat.digitChar m < Nat.digitChar n ↔ m < n := by
  have hall : ∀ m < 10, ∀ n < 10, (Nat.digitChar m < Nat.digitChar n ↔ m < n) := by decide
  exact hall m hm n hn

/-- The last `w` digits of a number. -/
def digits : ℕ → ℕ → List Char
  | 0, _ => []
  | w + 1, n => digits w (n / 10) ++ [Nat.digitChar (n % 10)]

@[simp] theorem length_digits (w n : ℕ) : (digits w n).length = w := by
  induction w generalizing n with
  | zero => rfl
  | succ w ih => simp [digits, ih]

/-- Numbers with the same digits are the same. -/
theorem digits_injective {w m n : ℕ} (hm : m < 10 ^ w) (hn : n < 10 ^ w)
    (h : digits w m = digits w n) : m = n := by
  induction w generalizing m n with
  | zero => omega
  | succ w ih =>
    rw [Nat.pow_succ] at hm hn
    obtain ⟨hfront, hlast⟩ := List.append_inj' h rfl
    have hdiv : m / 10 = n / 10 := ih (by omega) (by omega) hfront
    have hmod : m % 10 = n % 10 := by
      have hchar : Nat.digitChar (m % 10) = Nat.digitChar (n % 10) := by simpa using hlast
      have hm := digitChar_lt_iff (Nat.mod_lt m (by omega)) (Nat.mod_lt n (by omega))
      have hn := digitChar_lt_iff (Nat.mod_lt n (by omega)) (Nat.mod_lt m (by omega))
      simp only [hchar, Char.lt_irrefl, false_iff] at hm hn
      omega
    omega

/-- The digits are ordered as the numbers: by what stands before the last digit, then by it. -/
theorem digits_lt_iff {w m n : ℕ} (hm : m < 10 ^ w) (hn : n < 10 ^ w) :
    digits w m < digits w n ↔ m < n := by
  induction w generalizing m n with
  | zero =>
    rw [Nat.pow_zero] at hm hn
    simp [digits]
    omega
  | succ w ih =>
    rw [Nat.pow_succ] at hm hn
    have hfront : digits w (m / 10) = digits w (n / 10) ↔ m / 10 = n / 10 :=
      ⟨digits_injective (by omega) (by omega), fun h ↦ by rw [h]⟩
    have hlast : [Nat.digitChar (m % 10)] < [Nat.digitChar (n % 10)] ↔ m % 10 < n % 10 := by
      rw [List.cons_lt_cons_iff,
        digitChar_lt_iff (Nat.mod_lt m (by omega)) (Nat.mod_lt n (by omega))]
      simp
    rw [digits, digits, append_lt_append_iff (by simp), ih (by omega) (by omega), hfront, hlast]
    omega

/-! ### The format -/

/-- `"%0wd" % n`. -/
def zeroPadded (w n : ℕ) : List Char :=
  (Nat.toDigits 10 n).leftpad w '0'

/-- A number that fits is printed with its last `w` digits. -/
theorem zeroPadded_eq {w n : ℕ} (hw : 0 < w) (h : n < 10 ^ w) : zeroPadded w n = digits w n := by
  have hpad : ∀ w n, n < 10 ^ (w + 1) →
      List.replicate (w + 1 - (Nat.toDigits 10 n).length) '0' ++ Nat.toDigits 10 n =
        digits (w + 1) n := by
    intro w
    -- on the width: without its last digit, the number is padded to one digit less
    induction w with
    | zero =>
      intro n h
      have hlt : n < 10 := by simpa using h
      rw [Nat.toDigits_of_lt_base hlt, digits, Nat.mod_eq_of_lt hlt]
      rfl
    | succ w ih =>
      intro n h
      rw [Nat.pow_succ] at h
      rw [digits, ← ih (n / 10) (by omega)]
      rcases Nat.lt_or_ge n 10 with hlt | hge
      · rw [Nat.toDigits_of_lt_base hlt, Nat.div_eq_of_lt hlt, Nat.mod_eq_of_lt hlt,
          Nat.toDigits_zero]
        simp [← List.replicate_succ']
      · rw [Nat.toDigits_of_base_le (by decide) hge, List.length_append, List.length_singleton,
          Nat.add_sub_add_right, List.append_assoc]
  obtain ⟨w, rfl⟩ := Nat.exists_eq_add_one.2 hw
  exact hpad w n h

theorem length_zeroPadded {w n : ℕ} (hw : 0 < w) (h : n < 10 ^ w) :
    (zeroPadded w n).length = w := by
  rw [zeroPadded_eq hw h, length_digits]

theorem zeroPadded_inj {w m n : ℕ} (hw : 0 < w) (hm : m < 10 ^ w) (hn : n < 10 ^ w) :
    zeroPadded w m = zeroPadded w n ↔ m = n := by
  rw [zeroPadded_eq hw hm, zeroPadded_eq hw hn]
  exact ⟨digits_injective hm hn, fun h ↦ by rw [h]⟩

theorem zeroPadded_lt_iff {w m n : ℕ} (hw : 0 < w) (hm : m < 10 ^ w) (hn : n < 10 ^ w) :
    zeroPadded w m < zeroPadded w n ↔ m < n := by
  rw [zeroPadded_eq hw hm, zeroPadded_eq hw hn, digits_lt_iff hm hn]

/-- A field and what follows it: the field decides, unless the numbers are equal. -/
theorem field_lt_iff {w m n : ℕ} {ys ys' : List Char} (hw : 0 < w) (hm : m < 10 ^ w)
    (hn : n < 10 ^ w) :
    zeroPadded w m ++ ys < zeroPadded w n ++ ys' ↔ m < n ∨ m = n ∧ ys < ys' := by
  rw [append_lt_append_iff ((length_zeroPadded hw hm).trans (length_zeroPadded hw hn).symm),
    zeroPadded_lt_iff hw hm hn, zeroPadded_inj hw hm hn]

end FixedWidth
