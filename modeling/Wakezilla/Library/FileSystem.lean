/-
# A file system whose calls may fail

The disk is a dictionary from absolute paths to nodes.  A call fails for its own
reasons (the path is missing, the name is taken, the directory is not empty), or
because the environment says so: every call takes a flag `fails`, and a failing
call leaves the disk as it was.

* `Io` : programs over the disk;
* `removeFile`, `rename`, `renameNoClobber`, `createFile`, `openTruncate`, `modifyFile`,
  `createDir`, `modifyDir`, `createDirAll`, `removeDir`, `syncDirectory` : the calls;
* for each call, when it succeeds, that a failing call has no effect, and which entries
  no run of it changes.
-/
import Wakezilla.Library.Dict
import Wakezilla.Library.Fallible

namespace FileSystem

open Fallible

/-- An absolute path, as its components from the root. -/
abbrev Path := List String

/-- The directory a path lies in.  The root lies in none. -/
def parent (p : Path) : Option Path := if p = [] then none else some p.dropLast

/-- What a directory entry names; `μ` is the metadata of files and directories. -/
inductive Node (μ : Type) where
  | file (bytes : List UInt8) (metadata : μ)
  | directory (metadata : μ)
  | other
  deriving DecidableEq

def Node.isDirectory {μ : Type} : Node μ → Bool
  | .directory _ => true
  | _ => false

inductive ErrorKind where
  | notFound
  | alreadyExists
  | directoryNotEmpty
  | other
  deriving DecidableEq

abbrev Files (μ : Type) := Dict Path (Node μ)

/-- A program over the disk. -/
abbrev Io (μ α : Type) := EStateM ErrorKind (Files μ) α

variable {μ : Type}

/-- A directory stands at the path. -/
def isDir (s : Files μ) (p : Path) : Bool := (s.lookup p).any Node.isDirectory

/-! ## The calls -/

def symlinkMetadata (fails : Bool) (p : Path) : Io μ (Node μ) :=
  attempt fails .other fun s =>
    match s.lookup p with
    | some node => .ok node s
    | none => .error .notFound s

/-- Whether something is found at the path; a failing call finds nothing. -/
def pathExists (fails : Bool) (p : Path) : Io μ Bool := fun s =>
  .ok (!fails && (s.lookup p).isSome) s

/-- What is found at the path; a failing call finds nothing. -/
def findNode (fails : Bool) (p : Path) : Io μ (Option (Node μ)) := fun s =>
  .ok (if fails then none else s.lookup p) s

/-- Create a file under a name that is not taken. -/
def createFile (fails : Bool) (p : Path) (metadata : μ) : Io μ Unit :=
  attempt fails .other fun s =>
    if (s.lookup p).isSome then .error .alreadyExists s
    else .ok () (s.insert p (.file [] metadata))

/-- Open a file for writing, without following a link; what it holds is gone.  A file that is
not there is created. -/
def openTruncate (fails : Bool) (p : Path) (metadata : μ) : Io μ Unit :=
  attempt fails .other fun s =>
    match s.lookup p with
    | none => .ok () (s.insert p (.file [] metadata))
    | some (.file _ m) => .ok () (s.insert p (.file [] m))
    | some _ => .error .other s

/-- Change the bytes and the metadata of a file. -/
def modifyFile (fails : Bool) (p : Path) (f : List UInt8 → μ → List UInt8 × μ) : Io μ Unit :=
  attempt fails .other fun s =>
    match s.lookup p with
    | some (.file bytes metadata) =>
      .ok () (s.insert p (.file (f bytes metadata).1 (f bytes metadata).2))
    | _ => .error .notFound s

def removeFile (fails : Bool) (p : Path) : Io μ Unit :=
  attempt fails .other fun s =>
    match s.lookup p with
    | none => .error .notFound s
    | some (.directory _) => .error .other s
    | some _ => .ok () (s.erase p)

/-- Move what is at one path to another, over a file that is there already.
Directories are not moved. -/
def rename (fails : Bool) (p q : Path) : Io μ Unit :=
  attempt fails .other fun s =>
    match s.lookup p, s.lookup q with
    | none, _ => .error .notFound s
    | some (.directory _), _ => .error .other s
    | some _, some (.directory _) => .error .other s
    | some node, _ => .ok () ((s.erase p).insert q node)

/-- Move what is at one path to another, where nothing may be yet. -/
def renameNoClobber (fails : Bool) (p q : Path) : Io μ Unit := fun s =>
  if (s.lookup q).isSome then .error (if fails then .other else .alreadyExists) s
  else rename fails p q s

/-- Create a directory under a name that is not taken. -/
def createDir (fails : Bool) (p : Path) (metadata : μ) : Io μ Unit :=
  attempt fails .other fun s =>
    if (s.lookup p).isSome then .error .alreadyExists s
    else .ok () (s.insert p (.directory metadata))

/-- Change the metadata of a directory. -/
def modifyDir (fails : Bool) (p : Path) (f : μ → μ) : Io μ Unit :=
  attempt fails .other fun s =>
    match s.lookup p with
    | some (.directory metadata) => .ok () (s.insert p (.directory (f metadata)))
    | _ => .error .notFound s

def removeDir (fails : Bool) (p : Path) : Io μ Unit :=
  attempt fails .other fun s =>
    match s.lookup p with
    | none => .error .notFound s
    | some (.directory _) =>
      if s.keys.any fun q => parent q = some p then .error .directoryNotEmpty s
      else .ok () (s.erase p)
    | some _ => .error .other s

/-- The entries of a directory, in some order. -/
def entries (s : Files μ) (dir : Path) : List Path := s.keys.filter fun q => parent q = some dir

/-- The paths of a directory and of those above it, from the top, without the root. -/
def components (p : Path) : List Path := p.inits.tail

/-- Create the directories among the paths that are missing. -/
def createDirAll (fails : Path → Bool) (metadata : μ) : List Path → Io μ Unit
  | [] => pure ()
  | p :: rest => do
    recovering (fun _ => true) (fun s => require (isDir s p) .other s)
      (createDir (fails p) p metadata)
    createDirAll fails metadata rest

/-- Open a directory and flush it. -/
def syncDirectory (fails : Bool) (p : Path) : Io μ Unit :=
  attempt fails .other fun s =>
    if (s.lookup p).isSome then .ok () s else .error .notFound s

/-! ## Paths -/

theorem ne_of_parent {p q : Path} (h : parent p = some q) : p ≠ q := by
  rintro rfl
  unfold parent at h
  split at h
  · cases h
  · next hne =>
    have hlen := congrArg List.length (Option.some.inj h)
    have hpos := List.length_pos_iff.mpr hne
    rw [List.length_dropLast] at hlen
    omega

theorem parent_concat (p : Path) (c : String) : parent (p ++ [c]) = some p := by
  simp [parent]

/-- A path is no entry of the directory above its own directory. -/
theorem ne_of_parent_parent {p q r : Path} (hp : parent p = some q) (hq : parent q = some r) :
    p ≠ r := by
  rintro rfl
  have hlen : ∀ a b : Path, parent a = some b → b.length < a.length := by
    intro a b hab
    unfold parent at hab
    split at hab
    · cases hab
    · next hne =>
      rw [← Option.some.inj hab, List.length_dropLast]
      have hpos := List.length_pos_iff.mpr hne
      omega
  exact absurd (hlen _ _ hp) (Nat.lt_asymm (hlen _ _ hq))

/-! ## Directories on the disk -/

theorem isDir_of_none {s : Files μ} {p : Path} (h : s.lookup p = none) : isDir s p = false := by
  rw [isDir, h]
  rfl

theorem isDir_of_some {s : Files μ} {p : Path} {node : Node μ} (h : s.lookup p = some node) :
    isDir s p = node.isDirectory := by
  rw [isDir, h]
  rfl

theorem isDir_congr {s s' : Files μ} {p : Path} (h : s'.lookup p = s.lookup p) :
    isDir s' p = isDir s p := by
  rw [isDir, h, isDir]

theorem isDir_insert_self (s : Files μ) (p : Path) (node : Node μ) :
    isDir (s.insert p node) p = node.isDirectory :=
  isDir_of_some (AList.lookup_insert s)

theorem isDir_erase_self (s : Files μ) (p : Path) : isDir (s.erase p) p = false :=
  isDir_of_none (AList.lookup_erase p s)

theorem isDir_iff {s : Files μ} {p : Path} :
    isDir s p = true ↔ ∃ node, s.lookup p = some node ∧ node.isDirectory = true := by
  unfold isDir
  cases s.lookup p <;> simp

theorem isSome_of_isDir {s : Files μ} {p : Path} (h : isDir s p = true) :
    (s.lookup p).isSome = true := by
  obtain ⟨node, hnode, -⟩ := isDir_iff.mp h
  rw [hnode]
  rfl

/-! ## When the calls succeed -/

theorem symlinkMetadata_eq_ok {fails : Bool} {p : Path} {node : Node μ} {s s' : Files μ} :
    symlinkMetadata fails p s = .ok node s' ↔
      fails = false ∧ s.lookup p = some node ∧ s' = s := by
  refine attempt_eq_ok.trans ?_
  cases h : s.lookup p <;> simp [eq_comm]

theorem createFile_eq_ok {fails : Bool} {p : Path} {m : μ} {a : Unit} {s s' : Files μ} :
    createFile fails p m s = .ok a s' ↔
      fails = false ∧ s.lookup p = none ∧ s' = s.insert p (.file [] m) := by
  refine attempt_eq_ok.trans ?_
  cases h : s.lookup p <;> simp [eq_comm]

theorem openTruncate_eq_ok {fails : Bool} {p : Path} {m : μ} {a : Unit} {s s' : Files μ} :
    openTruncate fails p m s = .ok a s' ↔
      fails = false ∧ ((s.lookup p = none ∧ s' = s.insert p (.file [] m)) ∨
        ∃ bytes m', s.lookup p = some (.file bytes m') ∧ s' = s.insert p (.file [] m')) := by
  refine attempt_eq_ok.trans ?_
  rcases h : s.lookup p with _ | _ | _ | _ <;> simp [eq_comm (b := s')]

theorem createDir_eq_ok {fails : Bool} {p : Path} {m : μ} {a : Unit} {s s' : Files μ} :
    createDir fails p m s = .ok a s' ↔
      fails = false ∧ s.lookup p = none ∧ s' = s.insert p (.directory m) := by
  refine attempt_eq_ok.trans ?_
  cases h : s.lookup p <;> simp [eq_comm]

theorem modifyDir_eq_ok {fails : Bool} {p : Path} {f : μ → μ} {a : Unit} {s s' : Files μ} :
    modifyDir fails p f s = .ok a s' ↔
      fails = false ∧ ∃ m, s.lookup p = some (.directory m) ∧
        s' = s.insert p (.directory (f m)) := by
  refine attempt_eq_ok.trans ?_
  rcases h : s.lookup p with _ | _ | _ | _ <;> simp [eq_comm]

theorem modifyFile_eq_ok {fails : Bool} {p : Path} {f : List UInt8 → μ → List UInt8 × μ}
    {a : Unit} {s s' : Files μ} :
    modifyFile fails p f s = .ok a s' ↔
      fails = false ∧ ∃ bytes m, s.lookup p = some (.file bytes m) ∧
        s' = s.insert p (.file (f bytes m).1 (f bytes m).2) := by
  refine attempt_eq_ok.trans ?_
  rcases h : s.lookup p with _ | _ | _ | _ <;> simp [eq_comm]

theorem removeFile_eq_ok {fails : Bool} {p : Path} {a : Unit} {s s' : Files μ} :
    removeFile fails p s = .ok a s' ↔
      fails = false ∧ (∃ node, s.lookup p = some node ∧ node.isDirectory = false) ∧
        s' = s.erase p := by
  refine attempt_eq_ok.trans ?_
  rcases h : s.lookup p with _ | _ | _ | _ <;> simp [Node.isDirectory, eq_comm (b := s')]

theorem rename_eq_ok {fails : Bool} {p q : Path} {a : Unit} {s s' : Files μ} :
    rename fails p q s = .ok a s' ↔
      fails = false ∧ isDir s q = false ∧
        ∃ node, s.lookup p = some node ∧ node.isDirectory = false ∧
          s' = (s.erase p).insert q node := by
  refine attempt_eq_ok.trans ?_
  unfold isDir
  rcases h : s.lookup p with _ | _ | _ | _ <;> rcases h' : s.lookup q with _ | _ | _ | _ <;>
    simp [Node.isDirectory, eq_comm (b := s')]

theorem renameNoClobber_eq_ok {fails : Bool} {p q : Path} {a : Unit} {s s' : Files μ} :
    renameNoClobber fails p q s = .ok a s' ↔
      s.lookup q = none ∧ rename fails p q s = .ok a s' := by
  unfold renameNoClobber
  cases h : s.lookup q <;> simp

theorem syncDirectory_eq_ok {fails : Bool} {p : Path} {a : Unit} {s s' : Files μ} :
    syncDirectory fails p s = .ok a s' ↔
      fails = false ∧ (s.lookup p).isSome ∧ s' = s := by
  refine attempt_eq_ok.trans ?_
  cases h : s.lookup p <;> simp [eq_comm]

/-- Removing what is no directory, if it is there at all, works unless the call
fails. -/
theorem removePresent_run (fails : Bool) {p : Path} {s : Files μ}
    (h : isDir s p = false) :
    let removed : Io μ Unit := ignoring (fun e => e = .notFound) (removeFile fails p)
    (fails = true ∧ removed s = .error .other s) ∨
      (fails = false ∧ ∃ s', removed s = .ok () s' ∧
        ∀ q, s'.lookup q = if q = p then none else s.lookup q) := by
  intro removed
  cases fails with
  | true => exact Or.inl ⟨rfl, rfl⟩
  | false =>
    refine Or.inr ⟨rfl, ?_⟩
    cases hp : s.lookup p with
    | none =>
      refine ⟨s, by simp [removed, ignoring, removeFile, attempt, hp], fun q => ?_⟩
      split
      · next hq => rw [hq, hp]
      · rfl
    | some node =>
      have hne : node.isDirectory = false := by rwa [isDir_of_some hp] at h
      have hok : removeFile false p s = .ok () (s.erase p) :=
        removeFile_eq_ok.mpr ⟨rfl, ⟨node, hp, hne⟩, rfl⟩
      exact ⟨s.erase p, by simp only [removed, ignoring, hok], Dict.lookup_erase s p⟩

theorem removeDir_eq_ok {fails : Bool} {p : Path} {a : Unit} {s s' : Files μ}
    (h : removeDir fails p s = .ok a s') : s' = s.erase p := by
  obtain ⟨-, h⟩ := attempt_eq_ok.mp h
  rcases hp : s.lookup p with _ | _ | _ | _ <;> simp only [hp] at h
  · cases h
  · cases h
  · split at h
    · cases h
    · exact (EStateM.Result.ok.inj h).2.symm
  · cases h

theorem symlinkMetadata_missing {p : Path} {s : Files μ} (h : s.lookup p = none) :
    symlinkMetadata false p s = .error .notFound s := by
  show (match s.lookup p with
    | some node => EStateM.Result.ok node s
    | none => EStateM.Result.error ErrorKind.notFound s) = _
  rw [h]

/-- A directory is not removed as a file. -/
theorem removeFile_directory (fails : Bool) {p : Path} {s : Files μ} (h : isDir s p = true) :
    removeFile fails p s = .error .other s := by
  obtain ⟨node, hnode, hdir⟩ := isDir_iff.mp h
  cases fails with
  | true => rfl
  | false =>
    cases node with
    | directory m =>
      show (match s.lookup p with
        | none => EStateM.Result.error ErrorKind.notFound s
        | some (.directory _) => EStateM.Result.error ErrorKind.other s
        | some _ => EStateM.Result.ok () (s.erase p)) = _
      rw [hnode]
    | file bytes m => cases hdir
    | other => cases hdir

/-- An empty directory is removed. -/
theorem removeDir_empty {p : Path} {s : Files μ} (hp : isDir s p = true)
    (hempty : ∀ q, parent q = some p → s.lookup q = none) :
    removeDir false p s = .ok () (s.erase p) := by
  have hany : s.keys.any (fun q => parent q = some p) = false := by
    refine List.any_eq_false.mpr fun q hq => ?_
    rw [decide_eq_true_eq]
    intro hparent
    have hsome := AList.lookup_isSome.mpr (AList.mem_keys.mpr hq)
    rw [hempty q hparent] at hsome
    cases hsome
  unfold isDir at hp
  rcases hnode : s.lookup p with _ | _ | _ | _
  · rw [hnode] at hp
    cases hp
  · rw [hnode] at hp
    cases hp
  · simp [removeDir, attempt, hnode, hany]
  · rw [hnode] at hp
    cases hp

/-- A directory with an entry is not removed. -/
theorem removeDir_occupied (fails : Bool) {p q : Path} {node : Node μ} {s : Files μ}
    (hp : isDir s p = true) (hq : s.lookup q = some node)
    (hpar : parent q = some p) :
    removeDir fails p s = .error (if fails then .other else .directoryNotEmpty) s := by
  cases fails with
  | true => rfl
  | false =>
    have hkey : q ∈ s.keys := AList.mem_keys.mp (AList.lookup_isSome.mp (by rw [hq]; rfl))
    have hany : s.keys.any (fun q => parent q = some p) = true :=
      List.any_eq_true.mpr ⟨q, hkey, by simp [hpar]⟩
    unfold isDir at hp
    rcases hnode : s.lookup p with _ | _ | _ | _
    · rw [hnode] at hp
      cases hp
    · rw [hnode] at hp
      cases hp
    · simp [removeDir, attempt, hnode, hany]
    · rw [hnode] at hp
      cases hp

/-! ## A failing call has no effect -/

theorem readOnly_symlinkMetadata {fails : Bool} {p : Path} :
    ReadOnly (symlinkMetadata fails p : Io μ (Node μ)) := by
  refine ReadOnly.attempt fun s => ?_
  simp only [after]
  cases s.lookup p <;> rfl

theorem readOnly_findNode {fails : Bool} {p : Path} :
    ReadOnly (findNode fails p : Io μ (Option (Node μ))) := fun _ => rfl

theorem readOnly_syncDirectory {fails : Bool} {p : Path} :
    ReadOnly (syncDirectory fails p : Io μ Unit) := by
  refine ReadOnly.attempt fun s => ?_
  simp only [after]
  cases s.lookup p <;> rfl

theorem clean_createFile {fails : Bool} {p : Path} {m : μ} :
    Clean (createFile fails p m : Io μ Unit) := by
  refine Clean.attempt fun s e s' h => ?_
  cases hp : s.lookup p with
  | none => simp_all
  | some node => simp_all

theorem clean_openTruncate {fails : Bool} {p : Path} {m : μ} :
    Clean (openTruncate fails p m : Io μ Unit) := by
  refine Clean.attempt fun s e s' h => ?_
  rcases hp : s.lookup p with _ | _ | _ | _ <;> simp_all

theorem clean_createDir {fails : Bool} {p : Path} {m : μ} :
    Clean (createDir fails p m : Io μ Unit) := by
  refine Clean.attempt fun s e s' h => ?_
  cases hp : s.lookup p with
  | none => simp_all
  | some node => simp_all

theorem clean_modifyDir {fails : Bool} {p : Path} {f : μ → μ} :
    Clean (modifyDir fails p f : Io μ Unit) := by
  refine Clean.attempt fun s e s' h => ?_
  rcases hp : s.lookup p with _ | _ | _ | _ <;> simp_all

theorem clean_modifyFile {fails : Bool} {p : Path} {f : List UInt8 → μ → List UInt8 × μ} :
    Clean (modifyFile fails p f : Io μ Unit) := by
  refine Clean.attempt fun s e s' h => ?_
  rcases hp : s.lookup p with _ | _ | _ | _ <;> simp_all

/-- A file that is there is changed unless the call fails. -/
theorem modifyFile_spec {fails : Bool} {p : Path} {f : List UInt8 → μ → List UInt8 × μ}
    {bytes : List UInt8} {m : μ} :
    Triple (fun s : Files μ => s.lookup p = some (.file bytes m)) (modifyFile fails p f)
      (fun _ s => fails = false ∧ s.lookup p = some (.file (f bytes m).1 (f bytes m).2))
      (fun s => fails = true ∧ s.lookup p = some (.file bytes m)) := by
  intro s hs
  cases hfails : fails with
  | true =>
    refine ⟨fun a s' h => (by cases h), fun e s' h => ?_⟩
    obtain ⟨-, rfl⟩ := EStateM.Result.error.inj h
    exact ⟨rfl, hs⟩
  | false =>
    have hrun : modifyFile false p f s =
        .ok () (s.insert p (.file (f bytes m).1 (f bytes m).2)) :=
      modifyFile_eq_ok.mpr ⟨rfl, bytes, m, hs, rfl⟩
    rw [hrun]
    refine ⟨fun a s' h => ?_, fun e s' h => by cases h⟩
    obtain ⟨-, rfl⟩ := EStateM.Result.ok.inj h
    exact ⟨rfl, AList.lookup_insert _⟩

theorem clean_removeFile {fails : Bool} {p : Path} :
    Clean (removeFile fails p : Io μ Unit) := by
  refine Clean.attempt fun s e s' h => ?_
  rcases hp : s.lookup p with _ | _ | _ | _ <;> simp_all

theorem clean_rename {fails : Bool} {p q : Path} : Clean (rename fails p q : Io μ Unit) := by
  refine Clean.attempt fun s e s' h => ?_
  rcases hp : s.lookup p with _ | _ | _ | _ <;> rcases hq : s.lookup q with _ | _ | _ | _ <;>
    simp_all

theorem clean_renameNoClobber {fails : Bool} {p q : Path} :
    Clean (renameNoClobber fails p q : Io μ Unit) := by
  intro s e s' h
  unfold renameNoClobber at h
  split at h
  · exact (EStateM.Result.error.inj h).2.symm
  · exact clean_rename s e s' h

theorem clean_removeDir {fails : Bool} {p : Path} : Clean (removeDir fails p : Io μ Unit) := by
  refine Clean.attempt fun s e s' h => ?_
  rcases hp : s.lookup p with _ | _ | _ | _
  · simp_all
  · simp_all
  · simp only [hp] at h
    split at h
    · exact (EStateM.Result.error.inj h).2.symm
    · cases h
  · simp_all

/-! ## The entries a call leaves alone -/

section Frame

variable {fails : Bool} {p q r : Path}

theorem createFile_preserves {m : μ} (h : r ≠ p) :
    Preserves (fun s : Files μ => s.lookup r) (createFile fails p m) := by
  refine Preserves.of_clean clean_createFile fun s a s' hrun => ?_
  obtain ⟨-, -, rfl⟩ := createFile_eq_ok.mp hrun
  exact AList.lookup_insert_ne h

theorem openTruncate_preserves {m : μ} (h : r ≠ p) :
    Preserves (fun s : Files μ => s.lookup r) (openTruncate fails p m) := by
  refine Preserves.of_clean clean_openTruncate fun s a s' hrun => ?_
  obtain ⟨-, ⟨-, rfl⟩ | ⟨-, -, -, rfl⟩⟩ := openTruncate_eq_ok.mp hrun
  · exact AList.lookup_insert_ne h
  · exact AList.lookup_insert_ne h

theorem modifyFile_preserves {f : List UInt8 → μ → List UInt8 × μ} (h : r ≠ p) :
    Preserves (fun s : Files μ => s.lookup r) (modifyFile fails p f) := by
  refine Preserves.of_clean clean_modifyFile fun s a s' hrun => ?_
  obtain ⟨-, -, -, -, rfl⟩ := modifyFile_eq_ok.mp hrun
  exact AList.lookup_insert_ne h

theorem removeFile_preserves (h : r ≠ p) :
    Preserves (fun s : Files μ => s.lookup r) (removeFile fails p) := by
  refine Preserves.of_clean clean_removeFile fun s a s' hrun => ?_
  obtain ⟨-, -, rfl⟩ := removeFile_eq_ok.mp hrun
  exact AList.lookup_erase_ne h

theorem rename_preserves (hp : r ≠ p) (hq : r ≠ q) :
    Preserves (fun s : Files μ => s.lookup r) (rename fails p q) := by
  refine Preserves.of_clean clean_rename fun s a s' hrun => ?_
  obtain ⟨-, -, node, -, -, rfl⟩ := rename_eq_ok.mp hrun
  exact (AList.lookup_insert_ne hq).trans (AList.lookup_erase_ne hp)

theorem renameNoClobber_preserves (hp : r ≠ p) (hq : r ≠ q) :
    Preserves (fun s : Files μ => s.lookup r) (renameNoClobber fails p q) := by
  refine Preserves.of_clean clean_renameNoClobber fun s a s' hrun => ?_
  exact (rename_preserves hp hq).eq_of_ok (renameNoClobber_eq_ok.mp hrun).2

theorem createDir_preserves {m : μ} (h : r ≠ p) :
    Preserves (fun s : Files μ => s.lookup r) (createDir fails p m) := by
  refine Preserves.of_clean clean_createDir fun s a s' hrun => ?_
  obtain ⟨-, -, rfl⟩ := createDir_eq_ok.mp hrun
  exact AList.lookup_insert_ne h

theorem modifyDir_preserves {f : μ → μ} (h : r ≠ p) :
    Preserves (fun s : Files μ => s.lookup r) (modifyDir fails p f) := by
  refine Preserves.of_clean clean_modifyDir fun s a s' hrun => ?_
  obtain ⟨-, -, -, rfl⟩ := modifyDir_eq_ok.mp hrun
  exact AList.lookup_insert_ne h

theorem createDirAll_preserves {fails : Path → Bool} {m : μ} {paths : List Path}
    (h : r ∉ paths) : Preserves (fun s : Files μ => s.lookup r) (createDirAll fails m paths) := by
  induction paths with
  | nil => exact ReadOnly.pure.preserves
  | cons p rest ih =>
    obtain ⟨hp, hrest⟩ := List.ne_and_not_mem_of_not_mem_cons h
    refine Preserves.bind ?_ fun _ _ _ _ => ih hrest
    exact (createDir_preserves hp).recovering fun s => congrArg _ (ReadOnly.require s)

/-- An entry is as it was, or a directory that was created where nothing was. -/
theorem createDirAll_creates {fails : Path → Bool} {m : μ} (paths : List Path) (s : Files μ)
    (r : Path) : (after (createDirAll fails m paths) s).lookup r = s.lookup r ∨
      (s.lookup r = none ∧
        (after (createDirAll fails m paths) s).lookup r = some (.directory m)) := by
  induction paths generalizing s with
  | nil => exact Or.inl rfl
  | cons p rest ih =>
    cases hcreate : createDir (fails p) p m s with
    | ok a s₁ =>
      have hstep : recovering (fun _ => true) (fun s => require (isDir s p) .other s)
          (createDir (fails p) p m) s = .ok a s₁ := by
        unfold recovering
        rw [hcreate]
      have hafter : after (createDirAll fails m (p :: rest)) s =
          after (createDirAll fails m rest) s₁ := after_bind_of_ok hstep
      rw [hafter]
      obtain ⟨-, hfree, rfl⟩ := createDir_eq_ok.mp hcreate
      by_cases hr : r = p
      · subst hr
        rcases ih (s.insert r (.directory m)) with hsame | ⟨hnone, -⟩
        · exact Or.inr ⟨hfree, hsame.trans (AList.lookup_insert s)⟩
        · rw [AList.lookup_insert] at hnone
          cases hnone
      · have hother : (s.insert p (.directory m)).lookup r = s.lookup r :=
          AList.lookup_insert_ne hr
        rw [← hother]
        exact ih _
    | error e s₁ =>
      obtain rfl := clean_createDir s e s₁ hcreate
      have hstep : recovering (fun _ => true) (fun s => require (isDir s p) .other s)
          (createDir (fails p) p m) s₁ = require (isDir s₁ p) .other s₁ := by
        unfold recovering
        rw [hcreate]
        rfl
      cases hdir : isDir s₁ p with
      | true =>
        rw [hdir] at hstep
        have hafter : after (createDirAll fails m (p :: rest)) s₁ =
            after (createDirAll fails m rest) s₁ := after_bind_of_ok hstep
        rw [hafter]
        exact ih s₁
      | false =>
        rw [hdir] at hstep
        have hafter : after (createDirAll fails m (p :: rest)) s₁ = s₁ :=
          after_of_error (bind_of_error hstep)
        rw [hafter]
        exact Or.inl rfl

theorem removeDir_preserves (h : r ≠ p) :
    Preserves (fun s : Files μ => s.lookup r) (removeDir fails p) := by
  refine Preserves.of_clean clean_removeDir fun s a s' hrun => ?_
  rw [removeDir_eq_ok hrun]
  exact AList.lookup_erase_ne h

end Frame

/-! ## A name that is not taken -/

section FirstFree

variable {ε : Type} (report : Path → ε) (fails : ℕ → Bool) (metadata : μ) (candidate : ℕ → Path)

/-- Create a file under the first name that is not taken, among `fuel` names from `candidate n`
on; `none` if all of them are.  Any other error of a call ends the search. -/
def createFirstFree : ℕ → ℕ → EStateM ε (Files μ) (Option Path)
  | 0, _ => pure none
  | fuel + 1, n => fun s =>
    match createFile (fails n) (candidate n) metadata s with
    | .ok _ s' => .ok (some (candidate n)) s'
    | .error .alreadyExists s' => createFirstFree fuel (n + 1) s'
    | .error _ s' => .error (report (candidate n)) s'

theorem createFirstFree_eq (fuel n : ℕ) (s : Files μ) :
    createFirstFree report fails metadata candidate (fuel + 1) n s =
      match createFile (fails n) (candidate n) metadata s with
      | .ok _ s' => .ok (some (candidate n)) s'
      | .error .alreadyExists s' =>
        createFirstFree report fails metadata candidate fuel (n + 1) s'
      | .error _ s' => .error (report (candidate n)) s' := rfl

/-- One round of the search. -/
theorem createFirstFree_succ (fuel n : ℕ) (s : Files μ) :
    createFirstFree report fails metadata candidate (fuel + 1) n s =
        .error (report (candidate n)) s ∨
      (s.lookup (candidate n) = none ∧
        createFirstFree report fails metadata candidate (fuel + 1) n s =
          .ok (some (candidate n)) (s.insert (candidate n) (.file [] metadata))) ∨
      ((s.lookup (candidate n)).isSome ∧
        createFirstFree report fails metadata candidate (fuel + 1) n s =
          createFirstFree report fails metadata candidate fuel (n + 1) s) := by
  rw [createFirstFree_eq]
  cases hfails : fails n with
  | true => exact Or.inl rfl
  | false =>
    cases hlookup : s.lookup (candidate n) with
    | none =>
      have hcreate : createFile false (candidate n) metadata s =
          .ok () (s.insert (candidate n) (.file [] metadata)) :=
        createFile_eq_ok.mpr ⟨rfl, hlookup, rfl⟩
      refine Or.inr (Or.inl ⟨rfl, ?_⟩)
      rw [hcreate]
    | some node =>
      have hcreate : createFile false (candidate n) metadata s = .error .alreadyExists s := by
        show (if (s.lookup (candidate n)).isSome then EStateM.Result.error _ s else _) = _
        rw [hlookup]
        rfl
      refine Or.inr (Or.inr ⟨rfl, ?_⟩)
      rw [hcreate]

variable {report fails metadata candidate} {fuel n : ℕ} {p : Path} {s s' : Files μ}

/-- What a search that ends finds: a name that was free, and is a file now. -/
theorem createFirstFree_some
    (h : createFirstFree report fails metadata candidate fuel n s = .ok (some p) s') :
    (∃ i, n ≤ i ∧ p = candidate i) ∧ s.lookup p = none ∧
      s' = s.insert p (.file [] metadata) := by
  induction fuel generalizing n with
  | zero => cases h
  | succ fuel ih =>
    rcases createFirstFree_succ report fails metadata candidate fuel n s with
      he | ⟨hfree, hok⟩ | ⟨-, hnext⟩
    · rw [he] at h
      cases h
    · rw [hok] at h
      cases h
      exact ⟨⟨n, le_rfl, rfl⟩, hfree, rfl⟩
    · rw [hnext] at h
      obtain ⟨⟨i, hi, rfl⟩, hrest⟩ := ih h
      exact ⟨⟨i, by omega, rfl⟩, hrest⟩

/-- A search without a result has seen its names taken. -/
theorem createFirstFree_none
    (h : createFirstFree report fails metadata candidate fuel n s = .ok none s') :
    s' = s ∧ ∀ i, i < fuel → (s.lookup (candidate (n + i))).isSome := by
  induction fuel generalizing n with
  | zero =>
    obtain ⟨-, rfl⟩ := pure_eq_ok.mp h
    exact ⟨rfl, fun i hi => absurd hi (Nat.not_lt_zero i)⟩
  | succ fuel ih =>
    rcases createFirstFree_succ report fails metadata candidate fuel n s with
      he | ⟨-, hok⟩ | ⟨htaken, hnext⟩
    · rw [he] at h
      cases h
    · rw [hok] at h
      cases h
    · rw [hnext] at h
      obtain ⟨hs, hrest⟩ := ih h
      refine ⟨hs, fun i hi => ?_⟩
      cases i with
      | zero => exact htaken
      | succ i =>
        have hi := hrest i (by omega)
        rwa [Nat.add_assoc, Nat.add_comm 1 i] at hi

/-- A search that fails reports the name it failed at, and has created nothing. -/
theorem createFirstFree_error {e : ε}
    (h : createFirstFree report fails metadata candidate fuel n s = .error e s') :
    s' = s ∧ ∃ p, e = report p := by
  induction fuel generalizing n with
  | zero => cases h
  | succ fuel ih =>
    rcases createFirstFree_succ report fails metadata candidate fuel n s with
      he | ⟨-, hok⟩ | ⟨-, hnext⟩
    · rw [he] at h
      cases h
      exact ⟨rfl, _, rfl⟩
    · rw [hok] at h
      cases h
    · rw [hnext] at h
      exact ih h

/-- **A disk has fewer names than the search**: with more names to try than entries on the disk,
and all of them different, it ends. -/
theorem createFirstFree_ne_none (hcandidate : Function.Injective candidate)
    (hfuel : s.keys.length < fuel) :
    createFirstFree report fails metadata candidate fuel n s ≠ .ok none s' := by
  intro h
  obtain ⟨-, htaken⟩ := createFirstFree_none h
  have hnodup : ((List.range fuel).map fun i => candidate (n + i)).Nodup := by
    refine (List.nodup_range).map fun i j hij => ?_
    exact Nat.add_left_cancel (hcandidate hij)
  have hsub : ((List.range fuel).map fun i => candidate (n + i)) ⊆ s.keys := by
    intro q hq
    obtain ⟨i, hi, rfl⟩ := List.mem_map.mp hq
    exact AList.mem_keys.mp (AList.lookup_isSome.mp (htaken i (List.mem_range.mp hi)))
  have hle := (List.subperm_of_subset hnodup hsub).length_le
  rw [List.length_map, List.length_range] at hle
  omega

end FirstFree

/-! ## Directory trees -/

theorem mem_entries {s : Files μ} {dir p : Path} :
    p ∈ entries s dir ↔ (s.lookup p).isSome ∧ parent p = some dir := by
  unfold entries
  rw [List.mem_filter, decide_eq_true_eq, AList.mem_keys.symm, AList.lookup_isSome]

theorem prefix_of_parent {p dir : Path} (h : parent p = some dir) : ∃ c, p = dir ++ [c] := by
  unfold parent at h
  split at h
  · cases h
  · next hne =>
    refine ⟨p.getLast hne, ?_⟩
    rw [← Option.some.inj h, List.dropLast_append_getLast]

/-- The number of entries below a directory, and the directory. -/
def treeSize (s : Files μ) (dir : Path) : ℕ :=
  (s.keys.countP fun q => dir <+: q ∧ q ≠ dir) + 1

theorem countP_isPrefixOf {e : Path} {keys : List Path} (hnodup : keys.Nodup) (he : e ∈ keys) :
    keys.countP (fun q => e <+: q) = (keys.countP fun q => e <+: q ∧ q ≠ e) + 1 := by
  induction keys with
  | nil => exact absurd he List.not_mem_nil
  | cons k ks ih =>
    obtain ⟨hk, hks⟩ := List.nodup_cons.mp hnodup
    by_cases hke : k = e
    · subst hke
      have hsame : ks.countP (fun q => k <+: q) = ks.countP fun q => k <+: q ∧ q ≠ k := by
        refine List.countP_congr fun q hq => ?_
        have hne : q ≠ k := by
          rintro rfl
          exact hk hq
        simp [hne]
      simp [hsame]
    · have hmem := (List.mem_cons.mp he).resolve_left (Ne.symm hke)
      simp only [List.countP_cons, ih hks hmem, ne_eq, hke, not_false_iff, and_true]
      omega

/-- A path is below one entry of a directory at most. -/
theorem countP_isPrefixOf_le {dir k : Path} {items : List Path} (hnodup : items.Nodup)
    (hitems : ∀ e ∈ items, parent e = some dir) :
    items.countP (fun e => e <+: k) ≤ if dir <+: k ∧ k ≠ dir then 1 else 0 := by
  have htake : ∀ e ∈ items, e <+: k → e = k.take (dir.length + 1) := by
    intro e he hprefix
    obtain ⟨c, rfl⟩ := prefix_of_parent (hitems e he)
    have hlen := List.prefix_iff_eq_take.mp hprefix
    rwa [List.length_append, List.length_singleton] at hlen
  have hbelow : ∀ e ∈ items, e <+: k → dir <+: k ∧ k ≠ dir := by
    intro e he hprefix
    obtain ⟨c, rfl⟩ := prefix_of_parent (hitems e he)
    refine ⟨(List.prefix_append dir [c]).trans hprefix, ?_⟩
    rintro rfl
    have hlen := hprefix.length_le
    rw [List.length_append, List.length_singleton] at hlen
    omega
  rw [List.countP_eq_length_filter]
  cases hfilter : items.filter fun e => e <+: k with
  | nil => exact Nat.zero_le _
  | cons a rest =>
    have hpass : ∀ e ∈ a :: rest, e ∈ items ∧ e <+: k := by
      intro e he
      rw [← hfilter] at he
      obtain ⟨hmem, hprefix⟩ := List.mem_filter.mp he
      exact ⟨hmem, of_decide_eq_true hprefix⟩
    have ha := hpass a List.mem_cons_self
    rw [if_pos (hbelow a ha.1 ha.2)]
    cases rest with
    | nil => exact Nat.le_refl 1
    | cons b rest =>
      have hb := hpass b (List.mem_cons_of_mem _ List.mem_cons_self)
      have hnodup' : (a :: b :: rest).Nodup := hfilter ▸ hnodup.filter _
      have heq : a = b := (htake a ha.1 ha.2).trans (htake b hb.1 hb.2).symm
      exact absurd (heq ▸ List.mem_cons_self) (List.nodup_cons.mp hnodup').1

theorem sum_countP_cons (items keys : List Path) (k : Path) :
    (items.map fun e => (k :: keys).countP fun q => e <+: q).sum =
      (items.map fun e => keys.countP fun q => e <+: q).sum + items.countP fun e => e <+: k := by
  induction items with
  | nil => rfl
  | cons e items ih =>
    rw [List.map_cons, List.sum_cons, ih, List.map_cons, List.sum_cons, List.countP_cons,
      List.countP_cons]
    omega

theorem sum_countP_isPrefixOf_le {dir : Path} {items : List Path} (hnodup : items.Nodup)
    (hitems : ∀ e ∈ items, parent e = some dir) (keys : List Path) :
    (items.map fun e => keys.countP fun q => e <+: q).sum ≤
      keys.countP fun q => dir <+: q ∧ q ≠ dir := by
  induction keys with
  | nil => simp
  | cons k ks ih =>
    have hle := countP_isPrefixOf_le (k := k) hnodup hitems
    rw [sum_countP_cons, List.countP_cons]
    by_cases hbelow : dir <+: k ∧ k ≠ dir
    · rw [if_pos hbelow] at hle
      rw [if_pos (decide_eq_true hbelow)]
      omega
    · rw [if_neg hbelow] at hle
      rw [if_neg fun h => hbelow (of_decide_eq_true h)]
      omega

/-- **A directory outweighs its entries.** -/
theorem sum_treeSize_lt {s : Files μ} {dir : Path} {items : List Path} (hnodup : items.Nodup)
    (hitems : ∀ e ∈ items, e ∈ entries s dir) :
    (items.map (treeSize s)).sum < treeSize s dir := by
  have hsize : items.map (treeSize s) = items.map fun e => s.keys.countP fun q => e <+: q := by
    refine List.map_congr_left fun e he => ?_
    have hkey : e ∈ s.keys :=
      AList.mem_keys.mp (AList.lookup_isSome.mp (mem_entries.mp (hitems e he)).1)
    exact (countP_isPrefixOf s.nodupKeys hkey).symm
  rw [hsize]
  have hle := sum_countP_isPrefixOf_le hnodup (fun e he => (mem_entries.mp (hitems e he)).2) s.keys
  exact Nat.lt_succ_of_le hle

theorem treeSize_le (s : Files μ) (dir : Path) : treeSize s dir ≤ s.keys.length + 1 :=
  Nat.succ_le_succ List.countP_le_length

end FileSystem
