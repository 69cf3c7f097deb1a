import LiveSTT.Lib.Quoted

/-!
# The voiceprint store

`LanceDBVoiceprintStore` keeps voiceprints in a table of LanceDB. To enroll a name it deletes the
rows with the name and adds a new one; whatever the delete raises is suppressed. The filter of a
delete is `id = '<name>'`, with the name as it is.

A name with a quote ends the literal early. Then the filter may not parse, so that the name gets a
second row and can never be deleted (`enrolled_twice`), or be true of other rows. The store is keyed
by name exactly as far as the filters of its names are true of the rows with the name, or do not
parse where there are none; the filter of a name without quotes always is (`keyed_iff`).

The engine's reading of a filter is a parameter, with what it documents of the filters that the code
can build. The condition is on the table and the name before the call, and so it can be asked of
every step of a run; what the search returns for a name plays no part.
-/

namespace LiveSTT.Voiceprints

open Quoted

/-- A row of `voiceprints`. -/
structure Row (V : Type*) where
  id : String
  vector : V
  enrolledAt : String
  deriving DecidableEq

/-- How a filter on the id begins. -/
def opening : List Char := "id = ".toList ++ [quote]

/-- A filter on the id, with its literal between the quotes. -/
def idFilter (literal : List Char) : String := String.ofList (opening ++ literal ++ [quote])

/-- The filters of LanceDB: what is read of one that parses. A literal has its quotes doubled. -/
structure Filters (V : Type*) where
  parse : String → Option (Row V → Bool)
  literal : ∀ s : String,
    parse (idFilter (escape s.toList)) = some fun row : Row V ↦ decide (row.id = s)

section Store

variable {E V : Type*}

/-- `self._table.delete`; nothing if it raises. -/
def deleteRows (db : Filters V) (table : List (Row V)) (filter : String) : Option (List (Row V)) :=
  (db.parse filter).map fun p ↦ table.filter fun row ↦ !p row

/-- The filter of `enroll` and `delete`. -/
def nameFilter (name : String) : String := idFilter name.toList

/-- `enroll`; `astype` is the conversion of the embedding. -/
def enroll (db : Filters V) (astype : E → V) (table : List (Row V)) (name : String) (embedding : E)
    (now : String) : List (Row V) :=
  (deleteRows db table (nameFilter name)).getD table ++ [⟨name, astype embedding, now⟩]

/-- `delete`, with whether it raises. The compaction after it leaves the rows as they are. -/
def delete (db : Filters V) (table : List (Row V)) (name : String) : List (Row V) × Bool :=
  match deleteRows db table (nameFilter name) with
  | some table => (table, false)
  | none => (table, true)

/-! ### What is asked of the store -/

/-- The rows with the name. -/
def own (name : String) (table : List (Row V)) : List (Row V) :=
    table.filter fun row ↦ row.id = name

/-- The other rows. -/
def others (name : String) (table : List (Row V)) : List (Row V) :=
  table.filter fun row ↦ row.id ≠ name

/-- After it is enrolled, a name has one row, which holds its embedding; after it is deleted it has
none. The other rows stay as they are. -/
structure Keyed (db : Filters V) (astype : E → V) (table : List (Row V)) (name : String)
    (embedding : E)
    (now : String) : Prop where
  enrolled : ∃ row, own name (enroll db astype table name embedding now) = [row] ∧
    row.vector = astype embedding
  kept : others name (enroll db astype table name embedding now) = others name table
  deleted : own name (delete db table name).1 = []
  left : others name (delete db table name).1 = others name table

/-- The filter of the name is true of the rows with the name, or does not parse and there are
none. -/
def Hits (db : Filters V) (table : List (Row V)) (name : String) : Prop :=
  match db.parse (nameFilter name) with
  | some p => ∀ row ∈ table, p row = true ↔ row.id = name
  | none => ∀ row ∈ table, row.id ≠ name

variable {db : Filters V} {astype : E → V} {table : List (Row V)} {name : String} {embedding : E}
  {now : String}

/-- What a delete leaves, whether it raises or not. -/
theorem delete_fst :
    (delete db table name).1 = (deleteRows db table (nameFilter name)).getD table := by
  rw [delete]
  cases deleteRows db table (nameFilter name) with
  | none => rfl
  | some table => rfl

theorem own_eq_nil_iff : own name table = [] ↔ ∀ row ∈ table, row.id ≠ name := by
  simp [own]

/-- **A delete is one of the name exactly if its filter hits.** -/
theorem hits_iff : Hits db table name ↔ own name (delete db table name).1 = [] ∧
    others name (delete db table name).1 = others name table := by
  rw [delete_fst, deleteRows, Hits]
  cases db.parse (nameFilter name) with
  | none =>
    -- The delete raises, and the table stays as it is.
    exact own_eq_nil_iff.symm.trans (and_iff_left rfl).symm
  | some p =>
    have hown : own name (table.filter fun row ↦ !p row) = [] ↔
        ∀ row ∈ table, row.id = name → p row = true := by
      rw [own_eq_nil_iff]
      simp only [List.mem_filter, Bool.not_eq_true', and_imp]
      constructor
      · intro h row hrow hid
        by_contra hp
        exact h row hrow (Bool.eq_false_iff.2 hp) hid
      · intro h row hrow hp hid
        rw [h row hrow hid] at hp
        contradiction
    have hothers : others name (table.filter fun row ↦ !p row) = others name table ↔
        ∀ row ∈ table, p row = true → row.id = name := by
      rw [others, others, List.filter_filter]
      constructor
      · intro h row hrow hp
        by_contra hid
        have hmem : row ∈ table.filter fun row ↦ decide (row.id ≠ name) :=
          List.mem_filter.2 ⟨hrow, decide_eq_true hid⟩
        rw [← h, List.mem_filter, hp, Bool.not_true, Bool.and_false] at hmem
        exact absurd hmem.2 Bool.false_ne_true
      · intro h
        refine List.filter_congr fun row hrow ↦ ?_
        by_cases hp : p row = true
        · rw [h row hrow hp, hp]
          simp
        · rw [Bool.eq_false_iff.2 hp, Bool.not_false, Bool.and_true]
    show (∀ row ∈ table, p row = true ↔ row.id = name) ↔ _
    rw [Option.map_some, Option.getD_some, hown, hothers]
    constructor
    · exact fun h ↦ ⟨fun row hrow ↦ (h row hrow).2, fun row hrow ↦ (h row hrow).1⟩
    · exact fun h row hrow ↦ ⟨h.2 row hrow, h.1 row hrow⟩

/-- An enrollment leaves what a delete leaves, and adds its row. -/
theorem enroll_eq : enroll db astype table name embedding now =
    (delete db table name).1 ++ [⟨name, astype embedding, now⟩] := by
  rw [enroll, delete_fst]

theorem own_enroll : own name (enroll db astype table name embedding now) =
    own name (delete db table name).1 ++ [⟨name, astype embedding, now⟩] := by
  rw [enroll_eq, own, List.filter_append, own]
  simp

theorem others_enroll : others name (enroll db astype table name embedding now) =
    others name (delete db table name).1 := by
  rw [enroll_eq, others, List.filter_append, others]
  simp

/-- The filter of a name without quotes is true of the rows with the name. -/
theorem hits_of_plain (hname : quote ∉ name.toList) : Hits db table name := by
  have hparse : db.parse (nameFilter name) = some fun row : Row V ↦ decide (row.id = name) := by
    rw [nameFilter, ← escape_eq_self hname]
    exact db.literal name
  rw [Hits, hparse]
  exact fun row _ ↦ decide_eq_true_iff

/-- **The store is keyed by name exactly as far as the filters of the names hit**, and that of a
name without quotes always does. -/
theorem keyed_iff (db : Filters V) (astype : E → V) (table : List (Row V)) (name : String)
    (embedding : E) (now : String) :
    (Keyed db astype table name embedding now ↔ Hits db table name) ∧
      (quote ∉ name.toList → Hits db table name) := by
  refine ⟨?_, hits_of_plain⟩
  rw [hits_iff]
  constructor
  · exact fun h ↦ ⟨h.deleted, h.left⟩
  · rintro ⟨hdeleted, hleft⟩
    refine ⟨⟨⟨name, astype embedding, now⟩, ?_, rfl⟩, ?_, hdeleted, hleft⟩
    · rw [own_enroll, hdeleted]
      rfl
    · rw [others_enroll, hleft]

end Store

/-! ### A name with a quote -/

/-- Filters that compare the id with one literal. Nothing else parses. -/
def comparisons (V : Type*) : Filters V where
  parse s := if opening <+: s.toList then
    (closing (s.toList.drop opening.length)).map fun literal row ↦
      decide (row.id = String.ofList literal)
    else none
  literal s := by
    have hfilter :
      (idFilter (escape s.toList)).toList = opening ++ (escape s.toList ++ [quote]) := by
      rw [idFilter, String.toList_ofList, List.append_assoc]
    rw [hfilter, if_pos (List.prefix_append _ _), List.drop_left, closing_escape, Option.map_some,
      String.ofList_toList]

def obrien : String := "O" ++ String.singleton quote ++ "Brien"

/-- The name is enrolled for the second time. It has two rows then, and a delete raises. -/
theorem enrolled_twice :
    (enroll (comparisons ℕ) id (enroll (comparisons ℕ) id [] obrien 1 "10:00") obrien 2 "11:00").map
        Row.vector = [1, 2] ∧
      (delete (comparisons ℕ) [⟨obrien, 1, "10:00"⟩] obrien).2 = true ∧
      ¬ Keyed (comparisons ℕ) id [⟨obrien, 1, "10:00"⟩] obrien 2 "11:00" := by
  refine ⟨by decide +kernel, by decide +kernel, fun h ↦ ?_⟩
  have hdeleted := h.deleted
  revert hdeleted
  decide +kernel

end LiveSTT.Voiceprints
