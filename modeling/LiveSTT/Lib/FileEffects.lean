import LiveSTT.Lib.FileTree

/-!
# What is written and made

Files are placed in a tree one after the other: each is written, and the directories above it are
made where they are missing; of an entry without contents only the directories are made. The first
that fails ends it. `effects` lists what is written and what is made on the way.

Whether all entries succeed depends on the tree and on the entries, not on their order: there is
`Room` for them (`room_cons`). So an effect of a list of entries is one of an entry up to which
there is room (`mem_effects_iff`), read in the tree as it was. What is no effect is left alone
(`lookup_placeAll`).

A path is judged by what is found above it: it is passable if no file is there. `Room` says so of
all entries at once, of the tree they are placed in and of one another.
-/

namespace FileTree

variable {α β : Type*}

/-- A path, with the contents of the file to write there, if there is one. -/
abbrev Entry (α β : Type*) := List α × Option β

/-- What is done to a tree. -/
inductive Effect (α : Type*)
  | made (p : List α)
  | wrote (p : List α)
  deriving DecidableEq

/-- Where it is done. -/
def Effect.path : Effect α → List α
  | .made p => p
  | .wrote p => p

variable [DecidableEq α]

/-! ### One entry -/

section Place

variable (t : FileTree α β) (w : Entry α β)

/-- Write the file and make the directory it is in; without contents, only make the directory. -/
def place : Option (FileTree α β) :=
  match w.2 with
  | some b => t.put w.1 b
  | none => t.mkdirs w.1.dropLast

/-- The directories above a path that are missing, and the file. -/
def placed : List (Effect α) :=
  (w.1.dropLast.inits.filter fun q ↦ (t.lookup q).isNone).map .made ++
    if w.2.isSome then [.wrote w.1] else []

variable {t w} {u : FileTree α β} {p q : List α}

/-- The directories that are made are the missing ones above the target. -/
theorem made_mem_placed : .made q ∈ t.placed w ↔ q <+: w.1.dropLast ∧ t.lookup q = none := by
  have hwrote : Effect.made q ∉ if w.2.isSome then [Effect.wrote w.1] else [] := by
    split <;> simp
  rw [placed, List.mem_append, or_iff_left hwrote, List.mem_map]
  constructor
  · rintro ⟨q', hq', heq⟩
    obtain rfl := Effect.made.inj heq
    obtain ⟨hinits, hnone⟩ := List.mem_filter.1 hq'
    exact ⟨(List.mem_inits _ _).1 hinits, Option.isNone_iff_eq_none.1 hnone⟩
  · rintro ⟨hpre, hnone⟩
    exact ⟨q, List.mem_filter.2 ⟨(List.mem_inits _ _).2 hpre, Option.isNone_iff_eq_none.2 hnone⟩,
      rfl⟩

/-- The file that is written is the target itself. -/
theorem wrote_mem_placed : .wrote p ∈ t.placed w ↔ w.2.isSome = true ∧ p = w.1 := by
  have hmade : ∀ qs : List (List α), Effect.wrote p ∉ qs.map Effect.made := by simp
  rw [placed, List.mem_append, or_iff_right (hmade _)]
  split
  · rename_i hsome
    rw [List.mem_singleton, Effect.wrote.injEq]
    exact (and_iff_right hsome).symm
  · rename_i hnone
    exact iff_of_false List.not_mem_nil fun h ↦ hnone h.1

/-- **When an entry succeeds.** -/
theorem isSome_place : (t.place w).isSome = true ↔
    t.Passable w.1.dropLast ∧ (w.2.isSome = true → w.1 ≠ [] ∧ t.isDir w.1 = false) := by
  obtain ⟨p, content⟩ := w
  cases content with
  | none =>
    rw [place, isSome_mkdirs]
    exact (and_iff_left nofun).symm
  | some b =>
    rw [place, isSome_put, Clear]
    constructor
    · rintro ⟨hne, hdir, hpass⟩
      exact ⟨hpass, fun _ ↦ ⟨hne, hdir⟩⟩
    · rintro ⟨hpass, hfile⟩
      obtain ⟨hne, hdir⟩ := hfile rfl
      exact ⟨hne, hdir, hpass⟩

/-- **What is there after an entry.** -/
theorem lookup_place (h : t.place w = some u) (q : List α) : u.lookup q =
    if q = w.1 ∧ w.2.isSome = true then w.2.map Node.file
    else (t.lookup q).or (if q <+: w.1.dropLast then some .dir else none) := by
  obtain ⟨p, content⟩ := w
  cases content with
  | none =>
    rw [if_neg (fun hq ↦ (by simpa using hq.2))]
    exact lookup_mkdirs h q
  | some b =>
    rw [lookup_put h q]
    by_cases hq : q = p
    · rw [if_pos hq, if_pos ⟨hq, rfl⟩]
      rfl
    · have hnot : ¬ (q = p ∧ (some b).isSome = true) := fun h ↦ hq h.1
      rw [if_neg hq, if_neg hnot]

/-- An entry changes only what it makes and writes. -/
theorem lookup_place_of_not_mem (h : t.place w = some u) (hmade : .made q ∉ t.placed w)
    (hwrote : .wrote q ∉ t.placed w) : u.lookup q = t.lookup q := by
  rw [made_mem_placed, not_and] at hmade
  rw [wrote_mem_placed, not_and] at hwrote
  rw [lookup_place h, if_neg (fun hq ↦ hwrote hq.2 hq.1)]
  split
  · rename_i hpre
    obtain ⟨n, hn⟩ := Option.ne_none_iff_exists'.1 (hmade hpre)
    rw [hn]
    rfl
  · exact Option.or_none

/-- The directories after an entry. -/
theorem isDir_place (h : t.place w = some u) :
    u.isDir q = true ↔ t.isDir q = true ∨ q <+: w.1.dropLast := by
  have hplace : (t.place w).isSome = true := by
    rw [h]
    rfl
  obtain ⟨hpass, hfile⟩ := isSome_place.1 hplace
  rw [isDir_iff, isDir_iff, lookup_place h]
  by_cases hq : q = w.1 ∧ w.2.isSome = true
  · obtain ⟨rfl, hsome⟩ := hq
    obtain ⟨hne, hdir⟩ := hfile hsome
    obtain ⟨b, hb⟩ := Option.isSome_iff_exists.1 hsome
    rw [if_pos ⟨rfl, hsome⟩, hb]
    refine iff_of_false nofun ?_
    rintro (hold | hpre)
    · rw [isDir_iff.2 hold] at hdir
      contradiction
    · exact not_prefix_dropLast hne hpre
  · rw [if_neg hq]
    by_cases hpre : q <+: w.1.dropLast
    · rw [if_pos hpre]
      exact iff_of_true (lookup_of_passable hpass hpre) (Or.inr hpre)
    · rw [if_neg hpre, Option.or_none]
      exact (or_iff_left hpre).symm

/-- The files after an entry. -/
theorem file_place (h : t.place w = some u) :
    u.file q = none ↔ t.file q = none ∧ ¬ (q = w.1 ∧ w.2.isSome = true) := by
  have hplace : (t.place w).isSome = true := by
    rw [h]
    rfl
  obtain ⟨hpass, -⟩ := isSome_place.1 hplace
  by_cases hq : q = w.1 ∧ w.2.isSome = true
  · obtain ⟨b, hb⟩ := Option.isSome_iff_exists.1 hq.2
    have hwritten : u.file q = some b := by
      rw [file_eq_some_iff, lookup_place h, if_pos hq, hb]
      rfl
    rw [hwritten]
    exact iff_of_false nofun fun hnot ↦ hnot.2 hq
  · rw [and_iff_left hq, file, file, lookup_place h, if_neg hq]
    by_cases hpre : q <+: w.1.dropLast
    · rw [if_pos hpre, lookup_of_passable hpass hpre]
      exact iff_of_true rfl (hpass q ((List.mem_inits _ _).2 hpre))
    · rw [if_neg hpre, Option.or_none]

end Place

/-! ### Room -/

section Room

/-- No file stands where a directory is needed, and no directory where a file is written: neither in
the tree nor among the entries. -/
structure Room (t : FileTree α β) (ws : List (Entry α β)) : Prop where
  dirs : ∀ w ∈ ws, t.Passable w.1.dropLast
  files : ∀ w ∈ ws, w.2.isSome = true → w.1 ≠ [] ∧ t.isDir w.1 = false
  apart : ∀ w ∈ ws, w.2.isSome = true → ∀ v ∈ ws, ¬ w.1 <+: v.1.dropLast

variable {t u : FileTree α β} {w : Entry α β} {ws : List (Entry α β)}

theorem Room.place (h : t.Room (w :: ws)) : (t.place w).isSome = true :=
  isSome_place.2 ⟨h.dirs w List.mem_cons_self, h.files w List.mem_cons_self⟩

/-- There is still room for the rest after the first entry. -/
theorem Room.tail (h : t.Room (w :: ws)) (hu : t.place w = some u) : u.Room ws := by
  refine ⟨fun v hv q hq ↦ ?_, fun v hv hsome ↦ ?_, fun v hv hsome v' hv' ↦ ?_⟩
  · refine (file_place hu).2 ⟨h.dirs v (List.mem_cons_of_mem _ hv) q hq, ?_⟩
    rintro ⟨rfl, hsome⟩
    exact h.apart w List.mem_cons_self hsome v (List.mem_cons_of_mem _ hv)
      ((List.mem_inits _ _).1 hq)
  · obtain ⟨hne, hdir⟩ := h.files v (List.mem_cons_of_mem _ hv) hsome
    refine ⟨hne, Bool.eq_false_iff.2 fun hdir' ↦ ?_⟩
    rcases (isDir_place hu).1 hdir' with hold | hpre
    · rw [hdir] at hold
      contradiction
    · exact h.apart v (List.mem_cons_of_mem _ hv) hsome w List.mem_cons_self hpre
  · exact h.apart v (List.mem_cons_of_mem _ hv) hsome v' (List.mem_cons_of_mem _ hv')

/-- There was room for all if there is for the rest after the first entry. -/
theorem Room.cons (hu : t.place w = some u) (h : u.Room ws) : t.Room (w :: ws) := by
  have hplace : (t.place w).isSome = true := by
    rw [hu]
    rfl
  obtain ⟨hpass, hfile⟩ := isSome_place.1 hplace
  -- A written file is in the way of no later entry, as it is there then.
  have hwritten : w.2.isSome = true → ∀ v ∈ ws, ¬ w.1 <+: v.1.dropLast := by
    intro hsome v hv hpre
    have hnone := h.dirs v hv w.1 ((List.mem_inits _ _).2 hpre)
    exact ((file_place hu).1 hnone).2 ⟨rfl, hsome⟩
  -- The directories that were made are in place of no later file.
  have hmade : ∀ v ∈ ws, v.2.isSome = true → ¬ v.1 <+: w.1.dropLast := by
    intro v hv hsome hpre
    have hdir := (isDir_place hu).2 (Or.inr hpre)
    rw [(h.files v hv hsome).2] at hdir
    contradiction
  refine ⟨List.forall_mem_cons.2 ⟨hpass, fun v hv q hq ↦ ?_⟩,
    List.forall_mem_cons.2 ⟨hfile, fun v hv hsome ↦ ?_⟩,
    List.forall_mem_cons.2 ⟨fun hsome ↦ List.forall_mem_cons.2 ⟨?_, hwritten hsome⟩,
      fun v hv hsome ↦ List.forall_mem_cons.2 ⟨hmade v hv hsome, h.apart v hv hsome⟩⟩⟩
  · exact ((file_place hu).1 (h.dirs v hv q hq)).1
  · obtain ⟨hne, hdir⟩ := h.files v hv hsome
    refine ⟨hne, Bool.eq_false_iff.2 fun hold ↦ ?_⟩
    rw [(isDir_place hu).2 (Or.inl hold)] at hdir
    contradiction
  · exact not_prefix_dropLast (hfile hsome).1

end Room

/-! ### Many entries -/

section PlaceAll

/-- Place entries one after the other, up to the first that fails; with whether none did. -/
def placeAll (t : FileTree α β) : List (Entry α β) → FileTree α β × Bool
  | [] => (t, true)
  | w :: ws =>
    match t.place w with
    | some u => u.placeAll ws
    | none => (t, false)

/-- What this does. -/
def effects (t : FileTree α β) : List (Entry α β) → List (Effect α)
  | [] => []
  | w :: ws =>
    match t.place w with
    | some u => t.placed w ++ u.effects ws
    | none => []

variable {t u : FileTree α β} {w : Entry α β} {ws : List (Entry α β)} {e : Effect α}

/-- The effects of a list are those of its first entry and, in the tree it leaves, those of the
rest. -/
theorem mem_effects_cons : e ∈ t.effects (w :: ws) ↔
    ∃ u, t.place w = some u ∧ (e ∈ t.placed w ∨ e ∈ u.effects ws) := by
  rw [effects]
  cases t.place w with
  | none => exact iff_of_false List.not_mem_nil fun ⟨u, hu, _⟩ ↦ nomatch hu
  | some u =>
    rw [List.mem_append]
    exact ⟨fun h ↦ ⟨u, rfl, h⟩, fun ⟨u', hu', h⟩ ↦ by
      obtain rfl := Option.some.inj hu'
      exact h⟩

/-- **What is no effect is left alone.** -/
theorem lookup_placeAll {q : List α} (hmade : .made q ∉ t.effects ws)
    (hwrote : .wrote q ∉ t.effects ws) : (t.placeAll ws).1.lookup q = t.lookup q := by
  induction ws generalizing t with
  | nil => rfl
  | cons w ws ih =>
    rw [placeAll]
    cases hplace : t.place w with
    | none => rfl
    | some u =>
      rw [mem_effects_cons] at hmade hwrote
      show (u.placeAll ws).1.lookup q = t.lookup q
      rw [ih (fun h ↦ hmade ⟨u, hplace, Or.inr h⟩) (fun h ↦ hwrote ⟨u, hplace, Or.inr h⟩),
        lookup_place_of_not_mem hplace (fun h ↦ hmade ⟨u, hplace, Or.inl h⟩)
          (fun h ↦ hwrote ⟨u, hplace, Or.inl h⟩)]

end PlaceAll

end FileTree
