import Mathlib.Data.List.AList
import Mathlib.Data.List.Infix

/-!
# File trees

Directories and files by their paths, a path being the list of its names from the root down. The
parents of whatever is there are directories, which the type carries (`closed`).

* `mkdirs` makes a directory with its parents, `write` writes a file into a directory that is there,
  `put` does one after the other, and `putAll` puts files until one fails.
* A put fails exactly where a directory is in place of the file, or a file in place of a parent
  (`isSome_put`); it changes the file it puts and no other (`file_put`).
* Files none of which is a parent of another do not get into each other's way
  (`putAll_succeeds`, `file_putAll`).

The rules for `mkdirs`, `write` and `put` are all of the form "what is found at `q` afterwards";
with them a list of puts is an induction and needs no second look at how a tree is stored.
-/

/-- What is at a path. -/
inductive FileTree.Node (β : Type*)
  | file (data : β)
  | dir

/-- A file tree with names in `α` and contents in `β`. -/
structure FileTree (α β : Type*) [DecidableEq α] where
  nodes : AList fun _ : List α ↦ FileTree.Node β
  closed : ∀ p q, q ∈ nodes → p <+: q → p ≠ q → nodes.lookup p = some .dir

namespace FileTree

variable {α β : Type*} [DecidableEq α]

/-- Nothing is there. -/
def empty : FileTree α β := ⟨∅, fun _ _ hq ↦ absurd hq (AList.notMem_empty _)⟩

section Read

variable (t : FileTree α β)

def lookup (p : List α) : Option (Node β) := t.nodes.lookup p

/-- The contents of a file. -/
def file (p : List α) : Option β :=
  match t.lookup p with
  | some (.file b) => some b
  | _ => none

def isDir (p : List α) : Bool :=
  match t.lookup p with
  | some .dir => true
  | _ => false

/-- All files, in the order of the tree. -/
def files : List (List α × β) :=
  t.nodes.entries.filterMap fun e ↦
    match e.2 with
    | .file b => some (e.1, b)
    | .dir => none

variable {t} {p q : List α} {b : β}

theorem file_eq_some_iff : t.file p = some b ↔ t.lookup p = some (.file b) := by
  rw [file]
  split
  · rename_i b' hp
    rw [hp, Option.some.injEq, Option.some.injEq, Node.file.injEq]
  · rename_i hp
    exact ⟨fun h ↦ (by contradiction), fun h ↦ absurd h (hp b)⟩

theorem isDir_iff : t.isDir p = true ↔ t.lookup p = some .dir := by
  rw [isDir]
  split
  · rename_i hp
    exact ⟨fun _ ↦ hp, fun _ ↦ rfl⟩
  · rename_i hp
    exact ⟨fun h ↦ (by contradiction), fun h ↦ absurd h hp⟩

/-- The files of a tree, listed, are those found by their paths. -/
theorem mem_files : (p, b) ∈ t.files ↔ t.file p = some b := by
  rw [file_eq_some_iff, lookup, ← Option.mem_def, AList.mem_lookup_iff, files, List.mem_filterMap]
  constructor
  · rintro ⟨⟨q, n⟩, hmem, hn⟩
    cases n with
    | dir => cases hn
    | file c =>
      cases hn
      exact hmem
  · exact fun hmem ↦ ⟨_, hmem, rfl⟩

/-- A file is no parent. -/
theorem eq_of_prefix {c : β} (hp : t.file p = some b) (hq : t.file q = some c) (h : p <+: q) :
    p = q := by
  by_contra hne
  have hmem : q ∈ t.nodes := AList.lookup_isSome.1 (by
    rw [show t.nodes.lookup q = _ from file_eq_some_iff.1 hq]
    rfl)
  cases (file_eq_some_iff.1 hp).symm.trans (t.closed p q hmem h hne)

end Read

/-! ### Directories -/

section Mkdirs

/-- Make a directory unless there is something. -/
def addDir (nodes : AList fun _ : List α ↦ Node β) (p : List α) : AList fun _ : List α ↦ Node β :=
  if p ∈ nodes then nodes else nodes.insert p .dir

/-- A directory is added where nothing was. -/
theorem lookup_addDir (nodes : AList fun _ : List α ↦ Node β) (p q : List α) :
    (addDir nodes p).lookup q = (nodes.lookup q).or (if q = p then some .dir else none) := by
  rw [addDir]
  split
  · rename_i hp
    split
    · rename_i heq
      subst heq
      obtain ⟨n, hn⟩ := Option.isSome_iff_exists.1 (AList.lookup_isSome.2 hp)
      rw [hn]
      rfl
    · exact (Option.or_none).symm
  · rename_i hp
    split
    · rename_i heq
      subst heq
      rw [AList.lookup_insert, AList.lookup_eq_none.2 hp]
      rfl
    · rename_i hne
      rw [AList.lookup_insert_ne hne, Option.or_none]

/-- The same for a list of directories. -/
theorem lookup_addDirs (ps : List (List α)) (nodes : AList fun _ : List α ↦ Node β) (q : List α) :
    (ps.foldl addDir nodes).lookup q =
      (nodes.lookup q).or (if q ∈ ps then some .dir else none) := by
  induction ps generalizing nodes with
  | nil => simp
  | cons p ps ih =>
    rw [List.foldl_cons, ih, lookup_addDir, Option.or_assoc]
    congr 1
    by_cases hqp : q = p
    · simp [hqp]
    · simp [hqp]

variable (t : FileTree α β) (p : List α)

/-- No file is on the path. -/
def Passable : Prop := ∀ q ∈ p.inits, t.file q = none

instance : Decidable (t.Passable p) := inferInstanceAs (Decidable (∀ q ∈ p.inits, t.file q = none))

variable {t p}

/-- No file is in the way of a passable path. -/
theorem lookup_of_passable (h : t.Passable p) {q : List α} (hq : q <+: p) :
    (t.lookup q).or (some .dir) = some .dir := by
  have hfile := h q (List.mem_inits q p |>.2 hq)
  cases hlookup : t.lookup q with
  | none => rfl
  | some n =>
    cases n with
    | dir => rfl
    | file b => cases hfile.symm.trans (file_eq_some_iff.2 hlookup)

/-- With the directories above it a passable path is closed. -/
theorem closed_addDirs (h : t.Passable p) (q r : List α) (hr : r ∈ p.inits.foldl addDir t.nodes)
    (hqr : q <+: r) (hne : q ≠ r) : (p.inits.foldl addDir t.nodes).lookup q = some .dir := by
  rw [lookup_addDirs]
  by_cases hrp : r <+: p
  · have hqp : q <+: p := hqr.trans hrp
    rw [if_pos ((List.mem_inits q p).2 hqp)]
    exact lookup_of_passable h hqp
  · have hold : r ∈ t.nodes := by
      rw [← AList.lookup_isSome, lookup_addDirs,
        if_neg (fun hmem ↦ hrp ((List.mem_inits r p).1 hmem)),
        Option.or_none] at hr
      exact AList.lookup_isSome.1 hr
    rw [t.closed q r hold hqr hne]
    rfl

variable (t p)

/-- Make a directory with its parents, where no file is in the way. -/
def mkdirs : Option (FileTree α β) :=
  if h : t.Passable p then some ⟨p.inits.foldl addDir t.nodes, closed_addDirs h⟩ else none

variable {t p}

/-- `mkdirs` adds the missing directories of the path and changes nothing else. -/
theorem lookup_mkdirs {u : FileTree α β} (h : t.mkdirs p = some u) (q : List α) :
    u.lookup q = (t.lookup q).or (if q <+: p then some .dir else none) := by
  rw [mkdirs] at h
  split at h
  · obtain rfl := Option.some.inj h
    rw [lookup, lookup_addDirs]
    simp only [List.mem_inits]
    rfl
  · contradiction

theorem isSome_mkdirs : (t.mkdirs p).isSome = true ↔ t.Passable p := by
  rw [mkdirs]
  split
  · rename_i h
    exact ⟨fun _ ↦ h, fun _ ↦ rfl⟩
  · rename_i h
    exact ⟨fun hs ↦ (by contradiction), fun hp ↦ absurd hp h⟩

end Mkdirs

/-! ### Parents -/

omit [DecidableEq α] in
/-- A parent of a path is a prefix of the directory it is in. -/
theorem prefix_dropLast {p q : List α} (h : q <+: p) (hne : q ≠ p) : q <+: p.dropLast := by
  obtain ⟨s, rfl⟩ := h
  have hs : s ≠ [] := by
    rintro rfl
    exact hne (List.append_nil _).symm
  rw [List.dropLast_append_of_ne_nil hs]
  exact List.prefix_append _ _

omit [DecidableEq α] in
theorem not_prefix_dropLast {p : List α} (hp : p ≠ []) : ¬ p <+: p.dropLast := by
  intro h
  have hle := h.length_le
  rw [List.length_dropLast] at hle
  have hpos := List.length_pos_of_ne_nil hp
  omega

/-! ### Files -/

section Write

variable (t : FileTree α β) (p : List α) (b : β)

/-- A file may be put in a directory that is there, where none of its name is. -/
theorem closed_insert (hp : p ≠ []) (hparent : t.isDir p.dropLast = true) (hdir : t.isDir p = false)
    (q r : List α) (hr : r ∈ t.nodes.insert p (.file b)) (hqr : q <+: r) (hne : q ≠ r) :
    (t.nodes.insert p (.file b)).lookup q = some .dir := by
  have hkept : t.nodes.lookup q = some .dir →
    (t.nodes.insert p (.file b)).lookup q = some .dir := by
    intro hq
    have hqp : q ≠ p := by
      rintro rfl
      cases hdir.symm.trans (isDir_iff.2 hq)
    rwa [AList.lookup_insert_ne hqp]
  refine hkept ?_
  rcases (AList.mem_insert _).1 hr with rfl | hold
  · -- A parent of the file is the directory it is in, or a parent of that.
    have hdrop : q <+: r.dropLast := prefix_dropLast hqr hne
    by_cases heq : q = r.dropLast
    · rw [heq]
      exact isDir_iff.1 hparent
    · refine t.closed q r.dropLast (AList.lookup_isSome.1 ?_) hdrop heq
      rw [show t.nodes.lookup r.dropLast = _ from isDir_iff.1 hparent]
      rfl
  · exact t.closed q r hold hqr hne

/-- Write a file into a directory that is there. -/
def write : Option (FileTree α β) :=
  if h : p ≠ [] ∧ t.isDir p.dropLast = true ∧ t.isDir p = false then
    some ⟨t.nodes.insert p (.file b), closed_insert t p b h.1 h.2.1 h.2.2⟩
  else none

/-- Write a file, and make the directory it is in. -/
def put : Option (FileTree α β) := (t.mkdirs p.dropLast).bind fun u ↦ u.write p b

/-- There is no directory at the path, and no file on it. -/
def Clear : Prop := p ≠ [] ∧ t.isDir p = false ∧ t.Passable p.dropLast

variable {t p b} {u : FileTree α β}

/-- A write changes what is found at its path, and nothing else. -/
theorem lookup_write (h : t.write p b = some u) (q : List α) :
    u.lookup q = if q = p then some (.file b) else t.lookup q := by
  rw [write] at h
  split at h
  · obtain rfl := Option.some.inj h
    split
    · rename_i heq
      rw [heq]
      exact AList.lookup_insert _
    · rename_i hne
      exact AList.lookup_insert_ne hne
  · contradiction

/-- A put changes its file, and makes directories above it. -/
theorem lookup_put (h : t.put p b = some u) (q : List α) : u.lookup q =
    if q = p then some (.file b)
    else (t.lookup q).or (if q <+: p.dropLast then some .dir else none) := by
  obtain ⟨v, hv, hu⟩ := Option.bind_eq_some_iff.1 h
  rw [lookup_write hu, lookup_mkdirs hv]

/-- **When a put succeeds.** -/
theorem isSome_put : (t.put p b).isSome = true ↔ t.Clear p := by
  constructor
  · intro h
    obtain ⟨u, hu⟩ := Option.isSome_iff_exists.1 h
    obtain ⟨v, hv, hwrite⟩ := Option.bind_eq_some_iff.1 hu
    have hpassable : t.Passable p.dropLast := isSome_mkdirs.1 (by rw [hv]; rfl)
    rw [write] at hwrite
    split at hwrite
    · rename_i hw
      refine ⟨hw.1, ?_, hpassable⟩
      have hsame : v.lookup p = t.lookup p := by
        rw [lookup_mkdirs hv, if_neg (not_prefix_dropLast hw.1), Option.or_none]
      rw [isDir, ← hsame]
      exact hw.2.2
    · contradiction
  · rintro ⟨hp, hdir, hpassable⟩
    obtain ⟨v, hv⟩ := Option.isSome_iff_exists.1 (isSome_mkdirs.2 hpassable)
    have hparent : v.isDir p.dropLast = true := by
      rw [isDir_iff, lookup_mkdirs hv, if_pos (List.prefix_refl _)]
      exact lookup_of_passable hpassable (List.prefix_refl _)
    have hfree : v.isDir p = false := by
      rw [isDir, lookup_mkdirs hv, if_neg (not_prefix_dropLast hp), Option.or_none]
      exact hdir
    rw [put, hv, Option.bind_some, write, dif_pos ⟨hp, hparent, hfree⟩]
    rfl

/-- **What a put changes.** -/
theorem file_put (h : t.put p b = some u) (q : List α) :
    u.file q = if q = p then some b else t.file q := by
  have hclear : t.Clear p := isSome_put.1 (by rw [h]; rfl)
  rw [file, lookup_put h]
  by_cases hqp : q = p
  · rw [if_pos hqp, if_pos hqp]
  · rw [if_neg hqp, if_neg hqp]
    by_cases hparent : q <+: p.dropLast
    · -- A directory made, or there already.
      rw [if_pos hparent, lookup_of_passable hclear.2.2 hparent]
      exact (hclear.2.2 q ((List.mem_inits q _).2 hparent)).symm
    · rw [if_neg hparent, Option.or_none, file]

/-- A file that is put changes no directory that is not above it. -/
theorem isDir_put (h : t.put p b = some u) {q : List α} (hqp : q <+: p → q = p) :
    u.isDir q = t.isDir q := by
  have hclear : t.Clear p := isSome_put.1 (by rw [h]; rfl)
  rw [isDir, lookup_put h]
  by_cases heq : q = p
  · rw [if_pos heq, heq]
    exact hclear.2.1.symm
  · have hparent : ¬ q <+: p.dropLast := fun hpre ↦
      heq (hqp (hpre.trans (List.dropLast_prefix p)))
    rw [if_neg heq, if_neg hparent, Option.or_none, isDir]

/-- Files that are no parents of each other do not get into each other's way. -/
theorem clear_put (h : t.put p b = some u) {q : List α} (hpq : p <+: q → p = q)
    (hqp : q <+: p → q = p) : u.Clear q ↔ t.Clear q := by
  rw [Clear, Clear, isDir_put h hqp]
  refine and_congr_right fun hq ↦ and_congr_right fun _ ↦ forall_congr' fun r ↦
    imp_congr_right fun hr ↦ ?_
  have hrq : r <+: q.dropLast := (List.mem_inits r _).1 hr
  have hrp : r ≠ p := by
    rintro rfl
    obtain rfl := hpq (hrq.trans (List.dropLast_prefix q))
    exact not_prefix_dropLast hq hrq
  rw [file_put h, if_neg hrp]

end Write

/-! ### Many files -/

section PutAll

/-- Put files one after the other, up to the first that fails; with whether none did. -/
def putAll (t : FileTree α β) : List (List α × β) → FileTree α β × Bool
  | [] => (t, true)
  | (p, b) :: ws =>
    match t.put p b with
    | some u => u.putAll ws
    | none => (t, false)

/-- No file is a parent of another. -/
def Apart (ws : List (List α × β)) : Prop :=
  ∀ w ∈ ws, ∀ w' ∈ ws, w.1 <+: w'.1 → w.1 = w'.1

variable {t : FileTree α β} {ws : List (List α × β)} {p : List α} {b : β}

omit [DecidableEq α] in
theorem Apart.tail {w : List α × β} (h : Apart (w :: ws)) : Apart ws :=
  fun v hv v' hv' ↦ h v (List.mem_cons_of_mem _ hv) v' (List.mem_cons_of_mem _ hv')

/-- **When all puts succeed.** -/
theorem putAll_succeeds (hws : Apart ws) :
    (t.putAll ws).2 = true ↔ ∀ w ∈ ws, t.Clear w.1 := by
  induction ws generalizing t with
  | nil => simp [putAll]
  | cons w ws ih =>
    obtain ⟨p, b⟩ := w
    rw [List.forall_mem_cons, ← isSome_put (b := b), putAll]
    cases hput : t.put p b with
    | none => simp
    | some u =>
      rw [ih hws.tail]
      have hclear : ∀ w ∈ ws, u.Clear w.1 ↔ t.Clear w.1 := fun w hw ↦
        clear_put hput (hws _ List.mem_cons_self _ (List.mem_cons_of_mem _ hw))
          (hws _ (List.mem_cons_of_mem _ hw) _ List.mem_cons_self)
      exact ⟨fun h ↦ ⟨rfl, fun w hw ↦ (hclear w hw).1 (h w hw)⟩,
        fun h w hw ↦ (hclear w hw).2 (h.2 w hw)⟩

/-- A file that is not put stays as it was. -/
theorem file_putAll_of_not_mem (hp : ∀ b, (p, b) ∉ ws) : (t.putAll ws).1.file p = t.file p := by
  induction ws generalizing t with
  | nil => rfl
  | cons w ws ih =>
    obtain ⟨q, c⟩ := w
    rw [putAll]
    cases hput : t.put q c with
    | none => rfl
    | some u =>
      have hne : p ≠ q := by
        rintro rfl
        exact hp c List.mem_cons_self
      rw [ih fun b hb ↦ hp b (List.mem_cons_of_mem _ hb), file_put hput, if_neg hne]

/-- **What all puts leave**: each file with what was put there, if that is the same wherever it is
put twice. -/
theorem file_putAll (hall : (t.putAll ws).2 = true) (hmem : (p, b) ∈ ws)
    (hsame : ∀ c, (p, c) ∈ ws → c = b) : (t.putAll ws).1.file p = some b := by
  induction ws generalizing t with
  | nil => contradiction
  | cons w ws ih =>
    obtain ⟨q, c⟩ := w
    rw [putAll] at hall ⊢
    cases hput : t.put q c with
    | none =>
      rw [hput] at hall
      contradiction
    | some u =>
      rw [hput] at hall
      by_cases hlater : (p, b) ∈ ws
      · exact ih hall hlater fun c hc ↦ hsame c (List.mem_cons_of_mem _ hc)
      · obtain ⟨rfl, rfl⟩ : p = q ∧ b = c := by
          rcases List.mem_cons.1 hmem with heq | htail
          · exact Prod.mk.inj heq
          · exact absurd htail hlater
        have hnot : ∀ c, (p, c) ∉ ws := by
          intro c hc
          obtain rfl := hsame c (List.mem_cons_of_mem _ hc)
          exact hlater hc
        show (u.putAll ws).1.file p = some b
        rw [file_putAll_of_not_mem hnot, file_put hput, if_pos rfl]

end PutAll

end FileTree
