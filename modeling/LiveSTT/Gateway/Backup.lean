import LiveSTT.Lib.FileTree
import LiveSTT.Messaging.Audio
import Mathlib.Data.List.Basic

/-!
# api-gateway: backup and restore

`create_backup` archives the files directly in `_DB_DIR` and all files below `_LANCEDB_DIR`;
`_extract_backup` writes the files of an archive back to where they were. It deletes nothing, so a
restore lays the archived files over what is there: each of them has its bytes again, and every
other file is as it was before (`restore_overlays`). A newer file stays (`newer_wal_survives`). An
archive name with two dots in a row is skipped for fear of path traversal, also one like `a..b`.

The two traversals meet in the archive names: `destination` of the name a file is archived under is
where the file was.

Both directions are stated on the file trees of the library: the archive is a list of members with
their bytes (`mem_dbMembers`, `mem_lancedbMembers`), what a restore writes is that list read back
(`mem_writes`), and `FileTree.file_putAll` says what a list of puts leaves. A restore succeeds
exactly if there is room for the files, which is a condition on what is there when it begins.
-/

namespace LiveSTT.Backup

/-! ### Paths -/

/-- A name in a directory. -/
def FileName := { s : String // s ≠ "" ∧ s ≠ "." ∧ s ≠ ".." ∧ '/' ∉ s.toList }
  deriving DecidableEq

abbrev Path := List FileName

abbrev FileSystem := FileTree FileName Bytes

def FileName.ofString? (s : String) : Option FileName :=
  if h : s ≠ "" ∧ s ≠ "." ∧ s ≠ ".." ∧ '/' ∉ s.toList then some ⟨s, h⟩ else none

/-- `str` of a relative path. -/
def posix (p : Path) : String :=
    String.ofList (['/'].intercalate (p.map fun name ↦ name.val.toList))

/-- The names of a path, as `pathlib` reads it. It drops empty names and `.`; a `..` never gets
here. -/
def names (s : String) : Path :=
  (s.toList.splitOn '/').filterMap fun cs ↦ FileName.ofString? (String.ofList cs)

/-- `base / s`. -/
def joinpath (base : Path) (s : String) : Path :=
  if s.toList.head? = some '/' then names s else base ++ names s

/-! ### Strings -/

def startswith (s pre : String) : Bool := pre.toList <+: s.toList

def endswith (s suf : String) : Bool := suf.toList <:+ s.toList

def removePrefix (s pre : String) : String :=
  if startswith s pre then String.ofList (s.toList.drop pre.toList.length) else s

/-- `".." in s`. -/
def hasDotDot (s : String) : Bool := ['.', '.'] <:+: s.toList

/-! ### The archive -/

/-- A member of a tar archive. `content` is what `extractfile` gives, which is nothing for a
directory or a device. -/
structure Member where
  name : String
  isDir : Bool := false
  content : Option Bytes

/-- `_LANCEDB_DIR`. -/
def lancedbDir : Path := [⟨"data", by decide⟩, ⟨"lancedb", by decide⟩]

section Backup

-- `_DB_DIR`, the directory of `DB_PATH`.
variable (dbDir : Path)

/-- The files directly in `_DB_DIR`. -/
def dbMembers (fs : FileSystem) : List Member :=
  fs.files.filterMap fun (p, b) ↦
    if p.dropLast = dbDir then p.getLast?.map fun name ↦ ⟨"db/" ++ name.val, false, some b⟩
    else none

/-- The files below `_LANCEDB_DIR`. -/
def lancedbMembers (fs : FileSystem) : List Member :=
  fs.files.filterMap fun (p, b) ↦
    if lancedbDir <+: p then
      some ⟨"lancedb/" ++ posix (p.drop lancedbDir.length), false, some b⟩
    else none

/-- `create_backup`; without `_DB_DIR` it answers 404, No data directory found. -/
def createBackup (fs : FileSystem) : Option (List Member) :=
  if fs.isDir dbDir then
    some (dbMembers dbDir fs ++ if fs.isDir lancedbDir then lancedbMembers fs else [])
  else none

/-- Where a member is extracted to, if it is. -/
def destination (name : String) : Option Path :=
  -- Absolute paths and path traversal are rejected.
  if startswith name "/" ∨ hasDotDot name then none
  else if startswith name "db/" then some (joinpath dbDir (removePrefix name "db/"))
  else if startswith name "lancedb/" then some (joinpath lancedbDir (removePrefix name "lancedb/"))
  -- The flat format before v0.14.
  else if endswith name ".db" ∨ endswith name ".db-wal" ∨ endswith name ".db-shm" then
    some (joinpath dbDir name)
  else none

/-- `restored`: how many files were written. -/
structure Restored where
  db : ℕ := 0
  lancedb : ℕ := 0
  deriving DecidableEq

def Restored.count (restored : Restored) (name : String) : Restored :=
  if startswith name "lancedb/" then { restored with lancedb := restored.lancedb + 1 }
  else { restored with db := restored.db + 1 }

/-- `_extract_backup`, with what it returns unless it raises. -/
def extractBackup (fs : FileSystem) (restored : Restored) :
    List Member → FileSystem × Option Restored
  | [] => (fs, some restored)
  | m :: ms =>
    match if m.isDir then none else destination dbDir m.name with
    | none => extractBackup fs restored ms
    | some dest =>
      match m.content with
      | some b =>
        match fs.put dest b with
        | some fs => extractBackup fs (restored.count m.name) ms
        | none => (fs, none)
      | none =>
        match fs.mkdirs dest.dropLast with
        | some fs => extractBackup fs restored ms
        | none => (fs, none)

/-- The body of a restore request. -/
inductive Body
  | empty
  | notTar
  | archive (members : List Member)

inductive Response
  /-- 400: Empty request body. -/
  | emptyBody
  /-- 400: Invalid tar.gz archive. -/
  | invalidArchive
  | ok (restored : Restored)
  /-- 500: an exception left the handler. -/
  | failed
  deriving DecidableEq

/-- `restore_backup`. -/
def restoreBackup (fs : FileSystem) : Body → FileSystem × Response
  | .empty => (fs, .emptyBody)
  | .notTar => (fs, .invalidArchive)
  | .archive members =>
    match extractBackup dbDir fs {} members with
    | (fs, some restored) => (fs, .ok restored)
    | (fs, none) => (fs, .failed)

end Backup

/-! ### Archive names -/

section Names

variable (dbDir : Path)

theorem ofString?_val (name : FileName) : FileName.ofString? name.val = some name :=
  dif_pos name.2

/-- The names of a relative path are read back. -/
theorem names_posix {p : Path} (hp : p ≠ []) : names (posix p) = p := by
  have hsplit : (['/'].intercalate (p.map fun name ↦ name.val.toList)).splitOn '/' =
      p.map fun name ↦ name.val.toList := by
    refine List.splitOn_intercalate '/' (fun l hl ↦ ?_) (by simpa using hp)
    obtain ⟨name, -, rfl⟩ := List.mem_map.1 hl
    exact name.2.2.2.2
  rw [names, posix, String.toList_ofList, hsplit, List.filterMap_map]
  have hname : ((fun cs ↦ FileName.ofString? (String.ofList cs)) ∘ fun name : FileName ↦
      name.val.toList) = some := by
    funext name
    rw [Function.comp_apply, String.ofList_toList, ofString?_val]
  rw [hname, List.filterMap_some]

/-- A relative path does not begin with a slash. -/
theorem head?_posix (p : Path) : (posix p).toList.head? ≠ some '/' := by
  cases p with
  | nil => simp [posix]
  | cons name p =>
    obtain ⟨c, cs, hcs⟩ : ∃ c cs, name.val.toList = c :: cs := by
      cases h : name.val.toList with
      | nil => exact absurd (String.toList_eq_nil_iff.1 h) name.2.1
      | cons c cs => exact ⟨c, cs, rfl⟩
    have hslash : c ≠ '/' := by
      rintro rfl
      exact name.2.2.2.2 (by rw [hcs]; exact List.mem_cons_self)
    cases p with
    | nil => simpa [posix, hcs] using hslash
    | cons => simpa [posix, hcs, List.intercalate] using hslash

theorem joinpath_posix {p : Path} (base : Path) (hp : p ≠ []) :
    joinpath base (posix p) = base ++ p := by
  rw [joinpath, if_neg (head?_posix p), names_posix hp]

theorem posix_singleton (name : FileName) : posix [name] = name.val := by
  simp [posix]

theorem removePrefix_append (pre s : String) : removePrefix (pre ++ s) pre = s := by
  have hpre : startswith (pre ++ s) pre = true := by
    simp [startswith]
  rw [removePrefix, if_pos hpre, String.toList_append, List.drop_left, String.ofList_toList]

/-- **Where an archived file of `_DB_DIR` goes.** -/
theorem destination_db (name : FileName) (h : hasDotDot ("db/" ++ name.val) = false) :
    destination dbDir ("db/" ++ name.val) = some (dbDir ++ [name]) := by
  have habs : startswith ("db/" ++ name.val) "/" = false := by
    simp [startswith]
  have hdb : startswith ("db/" ++ name.val) "db/" = true := by
    simp [startswith]
  rw [destination, if_neg (by simp [habs, h]), if_pos hdb, removePrefix_append,
    ← posix_singleton name, joinpath_posix dbDir (List.cons_ne_nil _ _)]

/-- **Where an archived file of `_LANCEDB_DIR` goes.** -/
theorem destination_lancedb {p : Path} (hp : p ≠ [])
    (h : hasDotDot ("lancedb/" ++ posix p) = false) :
    destination dbDir ("lancedb/" ++ posix p) = some (lancedbDir ++ p) := by
  have habs : startswith ("lancedb/" ++ posix p) "/" = false := by
    simp [startswith]
  have hdb : startswith ("lancedb/" ++ posix p) "db/" = false := by
    simp [startswith]
  have hlancedb : startswith ("lancedb/" ++ posix p) "lancedb/" = true := by
    simp [startswith]
  rw [destination, if_neg (by simp [habs, h]), if_neg (by simp [hdb]), if_pos hlancedb,
    removePrefix_append, joinpath_posix lancedbDir hp]

/-- A path, and the name it is archived under. -/
inductive Archived : Path → String → Prop
  | db (name : FileName) : Archived (dbDir ++ [name]) ("db/" ++ name.val)
  | lancedb {p : Path} (hp : p ≠ []) : Archived (lancedbDir ++ p) ("lancedb/" ++ posix p)

variable {dbDir}

/-- **A file goes back to where it was archived from**, unless its name has two dots in a row. -/
theorem destination_archived {p : Path} {name : String} (h : Archived dbDir p name) :
    destination dbDir name = if hasDotDot name then none else some p := by
  split
  · rename_i hdots
    rw [destination, if_pos (Or.inr hdots)]
  · rename_i hdots
    rw [Bool.not_eq_true] at hdots
    cases h with
    | db name => exact destination_db dbDir name hdots
    | lancedb hp => exact destination_lancedb dbDir hp hdots

end Names

/-! ### The archive of a backup -/

section Archive

variable {dbDir : Path} {fs : FileSystem} {m : Member} {archive : List Member}

/-- The members under `db/` are the files of the database directory. -/
theorem mem_dbMembers : m ∈ dbMembers dbDir fs ↔
    ∃ name b, fs.file (dbDir ++ [name]) = some b ∧ m = ⟨"db/" ++ name.val, false, some b⟩ := by
  rw [dbMembers, List.mem_filterMap]
  constructor
  · rintro ⟨⟨p, b⟩, hmem, hm⟩
    have hfile : fs.file p = some b := FileTree.mem_files.1 hmem
    dsimp only at hm
    split at hm
    · rename_i hp
      obtain ⟨name, hname, rfl⟩ := Option.map_eq_some_iff.1 hm
      refine ⟨name, b, ?_, rfl⟩
      rwa [← hp, List.dropLast_append_getLast? name hname]
    · contradiction
  · rintro ⟨name, b, hfile, rfl⟩
    refine ⟨_, FileTree.mem_files.2 hfile, ?_⟩
    simp

/-- The members under `lancedb/` are the files below that directory. -/
theorem mem_lancedbMembers (hdir : fs.isDir lancedbDir = true) : m ∈ lancedbMembers fs ↔
    ∃ p b, p ≠ [] ∧ fs.file (lancedbDir ++ p) = some b ∧
      m = ⟨"lancedb/" ++ posix p, false, some b⟩ := by
  rw [lancedbMembers, List.mem_filterMap]
  constructor
  · rintro ⟨⟨q, b⟩, hmem, hm⟩
    have hfile : fs.file q = some b := FileTree.mem_files.1 hmem
    dsimp only at hm
    split at hm
    · rename_i hq
      obtain ⟨p, rfl⟩ := hq
      rw [List.drop_left] at hm
      refine ⟨p, b, ?_, hfile, (Option.some.inj hm).symm⟩
      rintro rfl
      -- `_LANCEDB_DIR` itself is no file.
      rw [List.append_nil, FileTree.file_eq_some_iff] at hfile
      cases hfile.symm.trans (FileTree.isDir_iff.1 hdir)
    · contradiction
  · rintro ⟨p, b, -, hfile, rfl⟩
    refine ⟨_, FileTree.mem_files.2 hfile, ?_⟩
    simp

/-- The directory of a file is a directory. -/
theorem isDir_of_file {p q : Path} {b : Bytes} (h : fs.file (p ++ q) = some b) (hq : q ≠ []) :
    fs.isDir p = true := by
  refine FileTree.isDir_iff.2 (fs.closed p (p ++ q) ?_ (List.prefix_append p q) ?_)
  · rw [← AList.lookup_isSome]
    rw [show fs.nodes.lookup (p ++ q) = _ from FileTree.file_eq_some_iff.1 h]
    rfl
  · simpa using hq.symm

/-- **What a backup archives.** -/
theorem mem_createBackup (h : createBackup dbDir fs = some archive) : m ∈ archive ↔
    ∃ p name b, Archived dbDir p name ∧ fs.file p = some b ∧ m = ⟨name, false, some b⟩ := by
  rw [createBackup] at h
  split at h
  · obtain rfl := Option.some.inj h
    rw [List.mem_append, mem_dbMembers]
    constructor
    · rintro (⟨name, b, hfile, rfl⟩ | hmem)
      · exact ⟨_, _, b, .db name, hfile, rfl⟩
      · split at hmem
        · rename_i hlancedb
          obtain ⟨p, b, hp, hfile, rfl⟩ := (mem_lancedbMembers hlancedb).1 hmem
          exact ⟨_, _, b, .lancedb hp, hfile, rfl⟩
        · contradiction
    · rintro ⟨p, name, b, harchived, hfile, rfl⟩
      cases harchived with
      | db name => exact Or.inl ⟨name, b, hfile, rfl⟩
      | @lancedb p hp =>
        have hlancedb : fs.isDir lancedbDir = true := isDir_of_file hfile hp
        rw [if_pos hlancedb, mem_lancedbMembers hlancedb]
        exact Or.inr ⟨p, b, hp, hfile, rfl⟩
  · contradiction

end Archive

/-! ### The extraction -/

section Extract

variable {dbDir : Path} {S : FileSystem} {archive : List Member}

/-- What a member of an archive writes. -/
def writes (dbDir : Path) (m : Member) : Option (Path × Bytes) :=
  (destination dbDir m.name).bind fun dest ↦ m.content.map fun b ↦ (dest, b)

/-- Regular files are extracted by putting one after the other. -/
theorem extractBackup_regular (dbDir : Path) {ms : List Member}
    (hms : ∀ m ∈ ms, m.isDir = false ∧ m.content.isSome = true) (fs : FileSystem)
    (restored : Restored) :
    (extractBackup dbDir fs restored ms).1 = (fs.putAll (ms.filterMap (writes dbDir))).1 ∧
    (extractBackup dbDir fs restored ms).2.isSome =
      (fs.putAll (ms.filterMap (writes dbDir))).2 := by
  induction ms generalizing fs restored with
  | nil => exact ⟨rfl, rfl⟩
  | cons m ms ih =>
    obtain ⟨hm, htail⟩ := List.forall_mem_cons.1 hms
    obtain ⟨b, hb⟩ := Option.isSome_iff_exists.1 hm.2
    cases hdest : destination dbDir m.name with
    | none =>
      have hwrites : writes dbDir m = none := by
        rw [writes, hdest, Option.bind_none]
      rw [List.filterMap_cons_none hwrites]
      simpa [extractBackup, hm.1, hdest] using ih htail fs restored
    | some dest =>
      have hwrites : writes dbDir m = some (dest, b) := by
        rw [writes, hdest, Option.bind_some, hb, Option.map_some]
      rw [List.filterMap_cons_some hwrites]
      cases hput : fs.put dest b with
      | none => simp [extractBackup, FileTree.putAll, hm.1, hdest, hb, hput]
      | some u =>
        simpa [extractBackup, FileTree.putAll, hm.1, hdest, hb, hput] using
          ih htail u (restored.count m.name)

variable (dbDir S) in
/-- A file in the backup that a restore takes out again: its archive name has no two dots in a
row. -/
def BackedUp (p : Path) (b : Bytes) : Prop :=
  S.file p = some b ∧ ∃ name, Archived dbDir p name ∧ hasDotDot name = false

/-- What a restore of the archive writes is what was backed up. -/
theorem mem_writes (h : createBackup dbDir S = some archive) {p : Path} {b : Bytes} :
    (p, b) ∈ archive.filterMap (writes dbDir) ↔ BackedUp dbDir S p b := by
  rw [List.mem_filterMap]
  constructor
  · rintro ⟨m, hm, hwrites⟩
    obtain ⟨q, name, c, harchived, hfile, rfl⟩ := (mem_createBackup h).1 hm
    rw [writes, destination_archived harchived] at hwrites
    split at hwrites
    · contradiction
    · rename_i hdots
      cases hwrites
      exact ⟨hfile, name, harchived, Bool.eq_false_iff.2 hdots⟩
  · rintro ⟨hfile, name, harchived, hdots⟩
    refine ⟨_, (mem_createBackup h).2 ⟨p, name, b, harchived, hfile, rfl⟩, ?_⟩
    rw [writes, destination_archived harchived, if_neg (by simp [hdots])]
    rfl

/-- The backed-up files are files of one tree. -/
theorem apart_writes (h : createBackup dbDir S = some archive) :
    FileTree.Apart (archive.filterMap (writes dbDir)) :=
  fun _ hw _ hw' hpre ↦ FileTree.eq_of_prefix ((mem_writes h).1 hw).1 ((mem_writes h).1 hw').1 hpre

/-- A restore writes the members in turn, and succeeds if all of them can be written. -/
theorem restoreBackup_archive (h : createBackup dbDir S = some archive) (S' : FileSystem) :
    (restoreBackup dbDir S' (.archive archive)).1 =
      (S'.putAll (archive.filterMap (writes dbDir))).1 ∧
    ((∃ restored, (restoreBackup dbDir S' (.archive archive)).2 = .ok restored) ↔
      (S'.putAll (archive.filterMap (writes dbDir))).2 = true) := by
  have hregular : ∀ m ∈ archive, m.isDir = false ∧ m.content.isSome = true := by
    intro m hm
    obtain ⟨-, -, -, -, -, rfl⟩ := (mem_createBackup h).1 hm
    exact ⟨rfl, rfl⟩
  obtain ⟨htree, hok⟩ := extractBackup_regular dbDir hregular S' {}
  rw [← htree, ← hok, restoreBackup]
  split
  · rename_i hextract
    rw [hextract]
    exact ⟨rfl, by simp⟩
  · rename_i hextract
    rw [hextract]
    exact ⟨rfl, by simp⟩

/-- **A restore lays the backup over what is there.** It succeeds if and only if no backed-up file
has a directory in its place or a file in place of one of its parents. Then each has its bytes
again. All other files stay as they were. -/
theorem restore_overlays (h : createBackup dbDir S = some archive) (S' : FileSystem) :
    ((∃ restored, (restoreBackup dbDir S' (.archive archive)).2 = .ok restored) ↔
      ∀ p b, BackedUp dbDir S p b → S'.Clear p) ∧
    ((∃ restored, (restoreBackup dbDir S' (.archive archive)).2 = .ok restored) →
      ∀ p b, BackedUp dbDir S p b →
        (restoreBackup dbDir S' (.archive archive)).1.file p = some b) ∧
    ∀ p, (∀ b, ¬ BackedUp dbDir S p b) →
      (restoreBackup dbDir S' (.archive archive)).1.file p = S'.file p := by
  obtain ⟨htree, hok⟩ := restoreBackup_archive h S'
  rw [htree, hok]
  refine ⟨?_, fun hall p b hp ↦ ?_, fun p hp ↦ ?_⟩
  · rw [FileTree.putAll_succeeds (apart_writes h)]
    constructor
    · exact fun hclear p b hp ↦ hclear (p, b) ((mem_writes h).2 hp)
    · exact fun hclear w hw ↦ hclear w.1 w.2 ((mem_writes h).1 hw)
  · refine FileTree.file_putAll hall ((mem_writes h).2 hp) fun c hc ↦ ?_
    have hfile := ((mem_writes h).1 hc).1
    rw [hp.1] at hfile
    exact (Option.some.inj hfile).symm
  · exact FileTree.file_putAll_of_not_mem fun b hb ↦ hp b ((mem_writes h).1 hb)

/-! ### A newer log -/

/-- `/data/db`. -/
def dataDb : Path := [⟨"data", by decide⟩, ⟨"db", by decide⟩]

def livesttDb : Path := dataDb ++ [⟨"livestt.db", by decide⟩]

def livesttWal : Path := dataDb ++ [⟨"livestt.db-wal", by decide⟩]

/-- A database without a log. -/
def checkpointed : FileSystem := (FileTree.empty.putAll [(livesttDb, [1])]).1

/-- A newer database with a log. -/
def logged : FileSystem := (FileTree.empty.putAll [(livesttDb, [2]), (livesttWal, [3])]).1

/-- The database is the backed-up one again. -/
theorem restore_overlays_logged : (restoreBackup dataDb logged
    (.archive [⟨"db/livestt.db", false, some [1]⟩])).1.file livesttDb = some [1] :=
  (restore_overlays (S := checkpointed) rfl logged).2.1 ⟨⟨1, 0⟩, by decide +kernel⟩ livesttDb [1]
    ⟨by decide +kernel, "db/livestt.db", .db ⟨"livestt.db", by decide⟩, by decide +kernel⟩

/-- The newer log is still beside it. -/
theorem newer_wal_survives : ∃ archive, createBackup dataDb checkpointed = some archive ∧
    (restoreBackup dataDb logged (.archive archive)).2 = .ok ⟨1, 0⟩ ∧
    checkpointed.file livesttWal = none ∧
    (restoreBackup dataDb logged (.archive archive)).1.file livesttWal = some [3] :=
  ⟨_, rfl, by decide +kernel, by decide +kernel, by decide +kernel⟩

end Extract

end LiveSTT.Backup
