import Mathlib.Data.List.Basic
import Mathlib.Data.Rat.Defs

/-!
# JSON values and dictionaries

The values a JSON parser returns, with the operations programs apply to them: lookup in an object
with a default, the update `{**d, k: v}`, and truthiness. Objects are association lists; a parser
produces at most one binding for a key, and lookup reads the first.

Nothing here parses text. Programs exchange *decoded* values, and a payload that does not decode is
`none` at the use site.
-/

/-- A JSON value. Numbers are exact rationals. -/
inductive Json
  | null
  | bool (b : Bool)
  | num (q : ℚ)
  | str (s : String)
  | arr (xs : List Json)
  | obj (kvs : List (String × Json))

namespace Json

/-- Truthiness of a decoded value: `None`, `False`, `0`, `""`, `[]` and `{}` are false. -/
def truthy : Json → Bool
  | null => false
  | bool b => b
  | num q => q ≠ 0
  | str s => s ≠ ""
  | arr xs => xs.length ≠ 0
  | obj kvs => kvs.length ≠ 0

/-- Equality with a string constant: only the same string is equal to it. -/
def isStr (s : String) : Json → Bool
  | str t => t = s
  | _ => false

theorem isStr_iff {s : String} {j : Json} : j.isStr s = true ↔ j = str s := by
  cases j <;> simp [isStr]

end Json

/-- An object: bindings of keys to values. -/
abbrev Dict := List (String × Json)

namespace Dict

/-- `d.get(k)`: the value bound to `k`, if there is one. -/
def get (d : Dict) (k : String) : Option Json :=
  (d.find? fun b ↦ b.1 = k).map Prod.snd

/-- `d.get(k, default)`. -/
def getOr (d : Dict) (k : String) (default : Json) : Json :=
  (get d k).getD default

/-- `{**d, k: v}`: the same bindings, except that `k` is bound to `v`. -/
def set (d : Dict) (k : String) (v : Json) : Dict :=
  d.filter (fun b ↦ b.1 ≠ k) ++ [(k, v)]

@[simp] theorem get_nil (k : String) : get [] k = none := rfl

theorem get_cons (b : String × Json) (d : Dict) (k : String) :
    get (b :: d) k = if b.1 = k then some b.2 else get d k := by
  by_cases h : b.1 = k <;> simp [get, h]

end Dict
