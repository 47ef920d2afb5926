/-
# An update inside a longer installation

Between the beginning of an update of the protected binary and its end an installation
writes elsewhere, and it may fail before the update has begun.  This file says which
entries of the disk an update never touches (`Outside`), that an update that does not come
into being leaves the destination as it was, and that a rollback which answers success
restores the destination on any disk where its backup is still there (`Restorable`).
-/
import Wakezilla.ProtectedBinary

namespace Wakezilla

open FileSystem Fallible

/-- The entry `r` is neither in the directory of the destination nor that directory. -/
structure Outside (destination r : Path) : Prop where
  parent_ne : parent r ≠ parent destination
  ne_parent : parent destination ≠ some r

namespace Outside

variable {destination dir r : Path} (h : Outside destination r)

include h

theorem ne_destination : r ≠ destination := by
  rintro rfl
  exact h.parent_ne rfl

theorem ne_of_parent {p : Path} (hdir : parent destination = some dir)
    (hp : parent p = some dir) : r ≠ p := by
  rintro rfl
  exact h.parent_ne (hp.trans hdir.symm)

end Outside

/-- No step of an update writes the entry `r`. -/
structure Unwritten (env : UpdateEnv) (destination r : Path) : Prop where
  ne_destination : r ≠ destination
  ne_parent : parent destination ≠ some r
  ne_stage : ∀ dir, parent destination = some dir → r ≠ stagePath env dir
  ne_backup : ∀ dir, parent destination = some dir → r ≠ backupPath env dir

theorem Outside.unwritten {env : UpdateEnv} {destination r : Path} (h : Outside destination r) :
    Unwritten env destination r :=
  ⟨h.ne_destination, h.ne_parent, fun _ hdir => h.ne_of_parent hdir (parent_concat _ _),
    fun _ hdir => h.ne_of_parent hdir (parent_concat _ _)⟩

/-! ## What an update leaves alone -/

theorem require_preserves {γ : Type} {g : Disk → γ} {c : Bool} :
    Preserves g (require c ErrorKind.other : DiskIo Unit) :=
  ReadOnly.require.preserves

section Invariant

variable {I : Disk → Prop} {env : UpdateEnv} {u : UnixProtectedBinaryUpdate} {s : Disk}

theorem drop_keeps {fails : RollbackStep → Bool} (hinner : Keeps I (u.rollbackInner fails))
    (hs : I s) : I (u.drop fails s) := by
  unfold UnixProtectedBinaryUpdate.drop
  split
  · exact hs
  · exact hinner s hs

/-- What every rollback keeps, `rollback` keeps, with the `Drop` after it. -/
theorem rollback_keeps (hinner : ∀ fails, Keeps I (u.rollbackInner fails)) (hs : I s) :
    I (u.rollback env s).disk := by
  unfold UnixProtectedBinaryUpdate.rollback
  cases hrun : u.rollbackInner env.rollbackFails s with
  | ok a s' => exact (hinner env.rollbackFails).of_ok hs hrun
  | error e s' => exact drop_keeps (hinner env.dropFails) ((hinner _).of_error hs hrun)

/-- What every rollback and the removal of the backup keep, `commit` keeps. -/
theorem commit_keeps (hinner : ∀ fails, Keeps I (u.rollbackInner fails))
    (hbackup : ∀ b, u.backup = some b → Keeps I (removeFile (env.commitFails .removeBackup) b))
    (hs : I s) : I (u.commit env s).disk := by
  unfold UnixProtectedBinaryUpdate.commit
  have hsync : ∀ fails : Bool, Keeps I (syncParentDirectory fails u.destination) :=
    fun _ => readOnly_syncParentDirectory.keeps
  cases hpublished : syncParentDirectory (env.commitFails .syncPublished) u.destination s with
  | error e s₁ => exact drop_keeps (hinner env.dropFails) ((hsync _).of_error hs hpublished)
  | ok a s₁ =>
    have hs₁ : I s₁ := (hsync _).of_ok hs hpublished
    cases hb : u.backup with
    | none => exact hs₁
    | some b =>
      dsimp only
      cases hremoved : removeFile (env.commitFails .removeBackup) b s₁ with
      | error e s₂ =>
        exact drop_keeps (hinner env.dropFails) ((hbackup b hb).of_error hs₁ hremoved)
      | ok a s₂ =>
        have hs₂ : I s₂ := (hbackup b hb).of_ok hs₁ hremoved
        dsimp only
        cases hremoval : syncParentDirectory (env.commitFails .syncRemoval) u.destination s₂ with
        | error e s₃ => exact (hsync _).of_error hs₂ hremoval
        | ok a s₃ => exact (hsync _).of_ok hs₂ hremoval

end Invariant

section Frame

variable {env : UpdateEnv} {req : UpdateRequest} {dir r : Path}

/-- Filling the stage changes the stage alone. -/
theorem fillStage_preserves {stage : Path} {bytes : List UInt8} (hr : r ≠ stage) :
    Preserves (fun s : Disk => s.lookup r) (fillStage env req stage bytes) := by
  refine Preserves.of_triple fun found => fillStage_keeps fun s node hs => ?_
  exact (AList.lookup_insert_ne hr).trans hs

theorem moveToBackup_preserves (hdest : r ≠ req.destination) (hbackup : r ≠ backupPath env dir) :
    Preserves (fun s : Disk => s.lookup r) (moveToBackup env req dir) := by
  unfold moveToBackup
  refine Preserves.bind (fun s => rfl) fun found _ _ _ => ?_
  cases found with
  | false => exact ReadOnly.pure.preserves
  | true =>
    refine (createFile_preserves hbackup).bind fun _ _ _ _ => ?_
    refine (removeFile_preserves hbackup).ignoring.bind fun _ _ _ _ => ?_
    exact (rename_preserves hdest hbackup).bind fun _ _ _ _ => ReadOnly.pure.preserves

theorem publishStage_preserves {stage : Path} {backup : Option Path} (hdest : r ≠ req.destination)
    (hstage : r ≠ stage) (hbackup : ∀ b, backup = some b → r ≠ b) :
    Preserves (fun s : Disk => s.lookup r) (publishStage env req stage backup) := by
  unfold publishStage
  refine (renameNoClobber_preserves hstage hdest).onError ?_
  cases backup with
  | none => exact ReadOnly.pure.preserves
  | some b => exact rename_preserves (hbackup b rfl) hdest

/-- The backup that a binary is moved to has one name. -/
theorem moveToBackup_eq_ok {backup : Option Path} {s s' : Disk}
    (h : moveToBackup env req dir s = .ok backup s') :
    ∀ b, backup = some b → b = backupPath env dir := by
  rintro b rfl
  obtain ⟨found, s₁, -, h₁⟩ := bind_eq_ok.mp h
  cases found with
  | false =>
    obtain ⟨hnone, -⟩ := pure_eq_ok.mp h₁
    cases hnone
  | true =>
    obtain ⟨_, _, -, h₂⟩ := bind_eq_ok.mp h₁
    obtain ⟨_, _, -, h₃⟩ := bind_eq_ok.mp h₂
    obtain ⟨_, _, -, h₄⟩ := bind_eq_ok.mp h₃
    obtain ⟨hsome, -⟩ := pure_eq_ok.mp h₄
    exact (Option.some.inj hsome).symm

/-- A publication writes the destination, its stage and its backup only. -/
theorem publishUpdate_preserves_of_ne (hdest : r ≠ req.destination)
    (hstage : ∀ dir, parent req.destination = some dir → r ≠ stagePath env dir)
    (hbackup : ∀ dir, parent req.destination = some dir → r ≠ backupPath env dir) :
    Preserves (fun s : Disk => s.lookup r) (publishUpdate env req) := by
  unfold publishUpdate
  refine readOnly_inspectPaths.preserves.bind fun found _ _ hpaths => ?_
  have hdir : parent req.destination = some found := (inspectPaths_eq_ok.mp hpaths).2.1
  refine readOnly_openSource.preserves.bind fun bytes _ _ _ => ?_
  refine (createFile_preserves (hstage found hdir)).bind fun _ _ _ _ => ?_
  refine Preserves.onError ?_ (removeFile_preserves (hstage found hdir))
  refine (fillStage_preserves (hstage found hdir)).bind fun _ _ _ _ => ?_
  refine (moveToBackup_preserves hdest (hbackup found hdir)).bind fun backup _ _ hmove => ?_
  refine (publishStage_preserves hdest (hstage found hdir) fun b hb => ?_).bind
    fun _ _ _ _ => ReadOnly.pure.preserves
  rw [moveToBackup_eq_ok hmove b hb]
  exact hbackup found hdir

/-- A publication writes in the directory of the destination only. -/
theorem publishUpdate_preserves_of_parent_ne (hr : parent r ≠ parent req.destination) :
    Preserves (fun s : Disk => s.lookup r) (publishUpdate env req) := by
  have hne : ∀ p, parent p = parent req.destination → r ≠ p := by
    rintro p hp rfl
    exact hr hp
  exact publishUpdate_preserves_of_ne (hne _ rfl)
    (fun dir hdir => hne _ ((parent_concat _ _).trans hdir.symm))
    fun dir hdir => hne _ ((parent_concat _ _).trans hdir.symm)

variable {u : UnixProtectedBinaryUpdate}

theorem rollbackInner_preserves {fails : RollbackStep → Bool} (hr : Unwritten env u.destination r)
    (hbackup : ∀ b, u.backup = some b → r ≠ b) :
    Preserves (fun s : Disk => s.lookup r) (u.rollbackInner fails) := by
  have hsettle : Preserves (fun s : Disk => s.lookup r) (u.settleDirectory fails) :=
    UnixProtectedBinaryUpdate.settleDirectory_keeps hr.ne_parent
  rw [UnixProtectedBinaryUpdate.rollbackInner_eq]
  refine (removeFile_preserves hr.ne_destination).ignoring.bind fun _ _ _ _ => ?_
  refine Preserves.bind ?_ fun _ _ _ _ => hsettle
  cases hb : u.backup with
  | none => exact ReadOnly.pure.preserves
  | some b => exact rename_preserves (hbackup b hb) hr.ne_destination

theorem rollback_lookup (hr : Unwritten env u.destination r)
    (hbackup : ∀ b, u.backup = some b → r ≠ b) (s : Disk) :
    (u.rollback env s).disk.lookup r = s.lookup r :=
  rollback_keeps (I := fun s' => s'.lookup r = s.lookup r)
    (fun _ => (rollbackInner_preserves hr hbackup).keeps fun _ _ h hs => h.trans hs) rfl

theorem commit_lookup (hr : Unwritten env u.destination r)
    (hbackup : ∀ b, u.backup = some b → r ≠ b) (s : Disk) :
    (u.commit env s).disk.lookup r = s.lookup r :=
  commit_keeps (fun _ => (rollbackInner_preserves hr hbackup).keeps fun _ _ h hs => h.trans hs)
    (fun b hb => (removeFile_preserves (hbackup b hb)).keeps fun _ _ h hs => h.trans hs) rfl

end Frame

/-! ## An update that does not come into being -/

section Refused

variable {env : UpdateEnv} {req : UpdateRequest} {dir : Path} {found : Option (Node FileMetadata)}

/-- What was found at the destination is still there, or it was moved to the backup and the
destination is free. -/
def MovedAside (env : UpdateEnv) (req : UpdateRequest) (dir : Path)
    (found : Option (Node FileMetadata)) (backup : Option Path) (s : Disk) : Prop :=
  (backup = none ∧ s.lookup req.destination = found) ∨
    ∃ node, backup = some (backupPath env dir) ∧ found = some node ∧ node.isDirectory = false ∧
      req.destination ≠ backupPath env dir ∧ s.lookup (backupPath env dir) = some node ∧
      s.lookup req.destination = none

theorem moveToBackup_movesAside :
    Triple (fun s => s.lookup req.destination = found) (moveToBackup env req dir)
      (MovedAside env req dir found) (fun s => s.lookup req.destination = found) := by
  unfold moveToBackup
  refine Triple.bind (R := fun there s => (there = true → found.isSome = true) ∧
    s.lookup req.destination = found) ?_ fun there => ?_
  · intro s hs
    refine ⟨fun there s' h => ?_, fun e s' h => by cases h⟩
    obtain ⟨rfl, rfl⟩ := EStateM.Result.ok.inj h
    refine ⟨fun hthere => ?_, hs⟩
    rw [← hs]
    exact (Bool.and_eq_true_iff.mp hthere).2
  cases there with
  | false => exact Triple.pure fun s hs => Or.inl ⟨rfl, hs.2⟩
  | true =>
    refine Triple.bind (R := fun _ s => req.destination ≠ backupPath env dir ∧
      s.lookup req.destination = found) ?_ fun _ => Triple.of_and fun hne => ?_
    · refine Triple.of_clean clean_createFile (fun s hs => hs.2) fun s a s' hs h => ?_
      obtain ⟨-, hfree, rfl⟩ := createFile_eq_ok.mp h
      have hne : req.destination ≠ backupPath env dir := by
        intro heq
        have hthere := hs.1 rfl
        rw [← hs.2, heq, hfree] at hthere
        cases hthere
      exact ⟨hne, (AList.lookup_insert_ne hne).trans hs.2⟩
    refine Triple.bind (R := fun _ s => s.lookup req.destination = found)
      ((removeFile_preserves hne).triple found).ignoring fun _ => ?_
    refine Triple.bind (R := fun _ => MovedAside env req dir found (some (backupPath env dir))) ?_
      fun _ => Triple.pure fun s hs => hs
    refine Triple.of_clean clean_rename (fun s hs => hs) fun s a s' hs h => ?_
    obtain ⟨-, -, node, hnode, hfile, rfl⟩ := rename_eq_ok.mp h
    refine Or.inr ⟨node, rfl, hs.symm.trans hnode, hfile, hne, AList.lookup_insert _, ?_⟩
    rw [Dict.lookup_insert, if_neg hne, Dict.lookup_erase, if_pos rfl]

/-- When the stage cannot be published, and the backup can be moved back, it is. -/
theorem publishStage_movesBack (hmoveBack : env.beginFails .moveBack = false) {stage : Path}
    (backup : Option Path) :
    Triple (MovedAside env req dir found backup) (publishStage env req stage backup)
      (fun _ _ => True) (fun s => s.lookup req.destination = found) := by
  refine Triple.onError (F := MovedAside env req dir found backup)
    (Triple.of_clean clean_renameNoClobber (fun s hs => hs) fun _ _ _ _ _ => trivial) ?_
  cases backup with
  | none =>
    refine Triple.pure fun s hs => ?_
    rcases hs with ⟨-, hthere⟩ | ⟨node, hbackup, -⟩
    · exact hthere
    · cases hbackup
  | some backup =>
    intro s hs
    rcases hs with ⟨hnone, -⟩ | ⟨node, hbackup, rfl, hfile, hne, hkept, hfree⟩
    · cases hnone
    · obtain rfl := Option.some.inj hbackup
      have hback : rename (env.beginFails .moveBack) (backupPath env dir) req.destination s =
          .ok () ((s.erase (backupPath env dir)).insert req.destination node) :=
        rename_eq_ok.mpr ⟨hmoveBack, isDir_of_none hfree, node, hkept, hfile, rfl⟩
      dsimp only
      rw [hback]
      refine ⟨fun a s' h => ?_, fun e s' h => by cases h⟩
      obtain ⟨-, rfl⟩ := EStateM.Result.ok.inj h
      exact AList.lookup_insert _

/-- **An update that does not come into being leaves the destination alone**, if the backup can
be moved back. -/
theorem publishUpdate_error (hmoveBack : env.beginFails .moveBack = false)
    (hdir : parent req.destination = some dir) (hstage : req.destination ≠ stagePath env dir) :
    Triple (fun s => s.lookup req.destination = found) (publishUpdate env req) (fun _ _ => True)
      (fun s => s.lookup req.destination = found) := by
  unfold publishUpdate
  refine Triple.bind (R := fun d s => d = dir ∧ s.lookup req.destination = found) ?_
    fun d => Triple.of_and ?_
  · refine Triple.of_clean readOnly_inspectPaths.clean (fun s hs => hs) fun s a s' hs h => ?_
    obtain ⟨rfl, hparent, -⟩ := inspectPaths_eq_ok.mp h
    exact ⟨Option.some.inj (hparent.symm.trans hdir), hs⟩
  rintro rfl
  refine Triple.bind (readOnly_openSource.preserves.triple found) fun bytes => ?_
  refine Triple.bind ((createFile_preserves hstage).triple found) fun _ => ?_
  refine Triple.onError (F := fun s => s.lookup req.destination = found) ?_
    ((removeFile_preserves hstage).triple found)
  refine Triple.bind ((fillStage_preserves hstage).triple found) fun _ => ?_
  refine Triple.bind moveToBackup_movesAside fun backup => ?_
  exact Triple.bind (R := fun _ _ => True) (publishStage_movesBack hmoveBack backup)
    fun _ => Triple.pure fun _ _ => trivial

/-- The published binary has the bytes of the source, the protected owner and mode `0755`. -/
theorem publishUpdate_published {u : UnixProtectedBinaryUpdate} {s s' : Disk}
    (h : publishUpdate env req s = .ok u s') :
    ∃ bytes m, s.lookup req.source = some (.file bytes m) ∧
      s'.lookup req.destination = some (.file bytes ⟨req.ownerUid, req.ownerGid, 0o755⟩) := by
  obtain ⟨dir, _, hpaths, h₁⟩ := bind_eq_ok.mp h
  obtain ⟨rfl, hdir, -⟩ := inspectPaths_eq_ok.mp hpaths
  obtain ⟨bytes, _, hopen, h₂⟩ := bind_eq_ok.mp h₁
  obtain ⟨rfl, -, -, m, hsource⟩ := openSource_eq_ok.mp hopen
  obtain ⟨_, _, hcreate, h₃⟩ := bind_eq_ok.mp h₂
  obtain ⟨-, hfree, rfl⟩ := createFile_eq_ok.mp hcreate
  obtain ⟨_, _, hfill, h₄⟩ := bind_eq_ok.mp (onError_eq_ok.mp h₃)
  obtain ⟨-, rfl⟩ := (fillStage_eq_ok (AList.lookup_insert _)).mp hfill
  obtain ⟨backup, s₁, hmove, h₅⟩ := bind_eq_ok.mp h₄
  obtain ⟨_, _, hpublish, hlast⟩ := bind_eq_ok.mp h₅
  obtain ⟨-, rfl⟩ := pure_eq_ok.mp hlast
  obtain ⟨hfreeDest, hpublish⟩ := renameNoClobber_eq_ok.mp (onError_eq_ok.mp hpublish)
  obtain ⟨-, -, node, hnode, -, rfl⟩ := rename_eq_ok.mp hpublish
  have hne : stagePath env dir ≠ req.destination := by
    intro heq
    rw [heq, hfreeDest] at hnode
    cases hnode
  -- moving the prior binary aside leaves the stage alone
  have hmoved : Preserves (fun s : Disk => s.lookup (stagePath env dir))
      (moveToBackup env req dir) :=
    moveToBackup_preserves hne (stagePath_ne_backupPath env dir)
  have hstaged := hmoved.eq_of_ok hmove
  rw [AList.lookup_insert] at hstaged
  refine ⟨bytes, m, hsource, ?_⟩
  rw [AList.lookup_insert, ← Option.some.inj (hstaged.symm.trans hnode)]

end Refused

/-! ## Rolling back on any disk -/

section Rollback

variable {env : UpdateEnv} {u : UnixProtectedBinaryUpdate} {prior : Option (Node FileMetadata)}
  {s s' : Disk}

/-- A rollback has all it needs to put back what was at the destination. -/
def Restorable (u : UnixProtectedBinaryUpdate) (prior : Option (Node FileMetadata)) (s : Disk) :
    Prop :=
  (prior = none ∧ u.backup = none ∧ isDir s u.destination = false) ∨
    ∃ node backup dir, prior = some node ∧ node.isDirectory = false ∧ Layout u backup dir ∧
      BackedUp u backup dir node s

/-- An update that came into being can be rolled back, whoever created its directory. -/
theorem restorable_of_publishUpdate {req : UpdateRequest} {dir : Path}
    (hdir : parent req.destination = some dir) (h : publishUpdate env req s = .ok u s') :
    u.destination = req.destination ∧ (∀ b, u.backup = some b → b = backupPath env dir) ∧
      u.finished = false ∧ ∀ createdParent,
        Restorable { u with createdParent } (s.lookup req.destination) s' := by
  cases hprior : s.lookup req.destination with
  | none =>
    obtain ⟨hdest, hbackup, hremovable⟩ := publishUpdate_absent hprior h
    have hfinished : u.finished = false := by
      obtain ⟨_, _, -, h₁⟩ := bind_eq_ok.mp h
      obtain ⟨_, _, -, h₂⟩ := bind_eq_ok.mp h₁
      obtain ⟨_, _, -, h₃⟩ := bind_eq_ok.mp h₂
      obtain ⟨_, _, -, h₄⟩ := bind_eq_ok.mp (onError_eq_ok.mp h₃)
      obtain ⟨_, _, -, h₅⟩ := bind_eq_ok.mp h₄
      obtain ⟨_, _, -, h₆⟩ := bind_eq_ok.mp h₅
      rw [← (pure_eq_ok.mp h₆).1]
    refine ⟨hdest, fun b hb => ?_, hfinished, fun createdParent => Or.inl ⟨rfl, hbackup, ?_⟩⟩
    · rw [hbackup] at hb
      cases hb
    · rw [← hdest] at hremovable
      exact hremovable
  | some node =>
    obtain ⟨rfl, hd, hpublished⟩ := (publishUpdate_spec hdir hprior s rfl).1 u s' h
    obtain ⟨node', hnode', hprotected⟩ := ((publishUpdate_ok_iff hprior).mp ⟨_, _, h⟩).prior
    obtain rfl := Option.some.inj (hnode'.symm.trans hprior)
    have hfile : node'.isDirectory = false := by
      cases node' with
      | file bytes m => rfl
      | directory m => cases hprotected
      | other => rfl
    refine ⟨rfl, fun b hb => (Option.some.inj hb).symm, rfl, fun createdParent => ?_⟩
    obtain ⟨hL, hB⟩ := hpublished.layout hdir hd createdParent
    exact Or.inr ⟨node', _, _, rfl, hfile, hL, hB⟩

/-- Only three entries matter to a rollback. -/
theorem Restorable.congr (h : Restorable u prior s)
    (hdest : s'.lookup u.destination = s.lookup u.destination)
    (hbackup : ∀ b, u.backup = some b → s'.lookup b = s.lookup b)
    (hdir : ∀ dir, parent u.destination = some dir → s'.lookup dir = s.lookup dir) :
    Restorable u prior s' := by
  rcases h with ⟨hnone, hno, hremovable⟩ | ⟨node, backup, dir, hprior, hfile, hL, hB⟩
  · exact Or.inl ⟨hnone, hno, (isDir_congr hdest).trans hremovable⟩
  · refine Or.inr ⟨node, backup, dir, hprior, hfile, hL, ?_, ?_, ?_⟩
    · exact (hbackup backup hL.backup_eq).trans hB.kept
    · exact (isDir_congr hdest).trans hB.removable
    · exact (isDir_congr (hdir dir hL.parent_destination)).trans hB.directory

/-- **A rollback that succeeds restores the destination.** -/
theorem Restorable.rollbackInner (h : Restorable u prior s) {fails : RollbackStep → Bool}
    {a : Unit} (hrun : u.rollbackInner fails s = .ok a s') :
    s'.lookup u.destination = prior := by
  rcases h with ⟨rfl, hno, hremovable⟩ | ⟨node, backup, dir, rfl, hfile, hL, hB⟩
  · exact UnixProtectedBinaryUpdate.rollbackInner_absent hno hremovable hrun
  · by_cases hstops : fails .removeDestination = true ∨ fails .restoreBackup = true
    · obtain ⟨e, s₁, herror, -⟩ := UnixProtectedBinaryUpdate.rollbackInner_stops hL hB hstops
      rw [hrun] at herror
      cases herror
    · obtain ⟨hremoves, hrestores⟩ := not_or.mp hstops
      have hrestored := (UnixProtectedBinaryUpdate.rollbackInner_restores hL hB hfile
        (Bool.eq_false_iff.mpr hremoves) (Bool.eq_false_iff.mpr hrestores)).1
      rw [after_of_ok hrun] at hrestored
      exact hrestored.back

theorem Restorable.rollback (h : Restorable u prior s)
    (hok : (u.rollback env s).answer = .ok ()) :
    (u.rollback env s).disk.lookup u.destination = prior := by
  unfold UnixProtectedBinaryUpdate.rollback at hok ⊢
  cases hrun : u.rollbackInner env.rollbackFails s with
  | ok a s' => exact h.rollbackInner hrun
  | error e s' =>
    rw [hrun] at hok
    cases hok

end Rollback

/-! ## The rollback of a failed `commit` -/

namespace UnixProtectedBinaryUpdate

/-- The answer of `rollback_inner`, which `Drop` ignores. -/
def rollbackAnswer (fails : RollbackStep → Bool) (u : UnixProtectedBinaryUpdate) (s : Disk) :
    Except ErrorKind Unit :=
  match u.rollbackInner fails s with
  | .ok _ _ => .ok ()
  | .error e _ => .error e

/-- The answer of the rollback in the `Drop` after a `commit` that failed, if one runs. -/
def commitRollback (env : UpdateEnv) (u : UnixProtectedBinaryUpdate) (s : Disk) :
    Option (Except ErrorKind Unit) :=
  match syncParentDirectory (env.commitFails .syncPublished) u.destination s with
  | .error _ s₁ => some (u.rollbackAnswer env.dropFails s₁)
  | .ok _ s₁ =>
    match u.backup with
    | some backup =>
      match removeFile (env.commitFails .removeBackup) backup s₁ with
      | .error _ s₂ => some (u.rollbackAnswer env.dropFails s₂)
      | .ok _ _ => none
    | none => none

/-- `commit` gets past the removal of the backup. -/
def DropsBackup (env : UpdateEnv) (u : UnixProtectedBinaryUpdate) (s : Disk) : Prop :=
  ∃ backup s₁ s₂, u.backup = some backup ∧
    syncParentDirectory (env.commitFails .syncPublished) u.destination s = .ok () s₁ ∧
    removeFile (env.commitFails .removeBackup) backup s₁ = .ok () s₂

end UnixProtectedBinaryUpdate

/-! ## Beginning and ending -/

/-- An update that was begun on `s₀` and has not ended on `s`: it can be rolled back, and the
bytes of the source stand at the destination. -/
structure Pending (req : UpdateRequest) (dir : Path) (s₀ s : Disk) (u : UnixProtectedBinaryUpdate) :
    Prop where
  destination_eq : u.destination = req.destination
  backup_parent : ∀ b, u.backup = some b → parent b = some dir
  unfinished : u.finished = false
  restorable : Restorable u (s₀.lookup req.destination) s
  published : ∃ bytes m, s₀.lookup req.source = some (.file bytes m) ∧
    s.lookup req.destination = some (.file bytes ⟨req.ownerUid, req.ownerGid, 0o755⟩)

/-- What the beginning of an update leaves: an update, or the destination as it was, unless the
rollback failed. -/
def Begun.Settled (req : UpdateRequest) (dir : Path) (s₀ : Disk) (begun : Begun) (s : Disk) :
    Prop :=
  match begun with
  | .update u => ∀ createdParent, Pending req dir s₀ s { u with createdParent }
  | .refused _ => s.lookup req.destination = s₀.lookup req.destination
  | .rolledBack _ answer =>
    answer = .ok () → s.lookup req.destination = s₀.lookup req.destination

section Begin

variable {env : UpdateEnv} {req : UpdateRequest} {dir r : Path} {s₀ s s' : Disk}
  {u : UnixProtectedBinaryUpdate}

/-- What a publication and every rollback after it keep, the beginning of an update keeps. -/
theorem beginUnixProtectedBinaryUpdateAt_keeps {I : Disk → Prop}
    (hdir : parent req.destination = some dir) (hpublish : Keeps I (publishUpdate env req))
    (hinner : ∀ u : UnixProtectedBinaryUpdate, u.destination = req.destination →
      (∀ b, u.backup = some b → b = backupPath env dir) → ∀ fails, Keeps I (u.rollbackInner fails))
    (hs : I s) : I (beginUnixProtectedBinaryUpdateAt env req s).2 := by
  rcases beginUnixProtectedBinaryUpdateAt_cases env req s with
    ⟨e, s₁, hpub, hbegin⟩ | ⟨u, s₁, hpub, hbegin⟩
  · rw [hbegin]
    exact hpublish.of_error hs hpub
  · have hs₁ : I s₁ := hpublish.of_ok hs hpub
    obtain ⟨hdest, hbackup, -⟩ := restorable_of_publishUpdate hdir hpub
    rcases hbegin with hbegin | ⟨e, hbegin⟩
    · rw [hbegin]
      exact hs₁
    · rw [hbegin]
      exact rollback_keeps (hinner u hdest hbackup) hs₁

theorem beginUnixProtectedBinaryUpdateAt_lookup (hdir : parent req.destination = some dir)
    (hr : Unwritten env req.destination r) (s : Disk) :
    (beginUnixProtectedBinaryUpdateAt env req s).2.lookup r = s.lookup r := by
  refine beginUnixProtectedBinaryUpdateAt_keeps (I := fun s' => s'.lookup r = s.lookup r) hdir ?_
    (fun u hdest hbackup fails => ?_) rfl
  · exact (publishUpdate_preserves_of_ne hr.ne_destination hr.ne_stage hr.ne_backup).keeps
      fun _ _ h hs => h.trans hs
  · refine (rollbackInner_preserves (hdest ▸ hr) fun b hb => ?_).keeps fun _ _ h hs => h.trans hs
    rw [hbackup b hb]
    exact hr.ne_backup dir hdir

/-- An update that was begun was published. -/
theorem publishUpdate_of_begun (h : beginUnixProtectedBinaryUpdateAt env req s = (.update u, s')) :
    publishUpdate env req s = .ok u s' := by
  rcases beginUnixProtectedBinaryUpdateAt_cases env req s with
    ⟨e, s₁, -, hbegin⟩ | ⟨u', s₁, hpub, hbegin | ⟨e, hbegin⟩⟩
  all_goals
    rw [hbegin] at h
    cases h
  exact hpub

/-- The paths of an update that was begun. -/
theorem beginUnixProtectedBinaryUpdateAt_paths (hdir : parent req.destination = some dir)
    (h : beginUnixProtectedBinaryUpdateAt env req s = (.update u, s')) :
    u.destination = req.destination ∧ ∀ b, u.backup = some b → b = backupPath env dir := by
  obtain ⟨hdest, hbackup, -⟩ := restorable_of_publishUpdate hdir (publishUpdate_of_begun h)
  exact ⟨hdest, hbackup⟩

/-- **The beginning of an update leaves the destination alone or can be undone.** -/
theorem beginUnixProtectedBinaryUpdateAt_settled (hmoveBack : env.beginFails .moveBack = false)
    (hdir : parent req.destination = some dir) (hstage : req.destination ≠ stagePath env dir)
    (s : Disk) :
    (beginUnixProtectedBinaryUpdateAt env req s).1.Settled req dir s
      (beginUnixProtectedBinaryUpdateAt env req s).2 := by
  rcases beginUnixProtectedBinaryUpdateAt_cases env req s with
    ⟨e, s₁, hpub, hbegin⟩ | ⟨u, s₁, hpub, hbegin⟩
  · rw [hbegin]
    exact (publishUpdate_error hmoveBack hdir hstage s rfl).2 e s₁ hpub
  · obtain ⟨hdest, hbackup, hfinished, hrestorable⟩ := restorable_of_publishUpdate hdir hpub
    rcases hbegin with hbegin | ⟨e, hbegin⟩
    · rw [hbegin]
      refine fun createdParent => ⟨hdest, fun b hb => ?_, hfinished, hrestorable createdParent,
        publishUpdate_published hpub⟩
      rw [hbackup b hb]
      exact parent_concat _ _
    · rw [hbegin]
      intro hok
      have hback : (u.rollback env s₁).disk.lookup u.destination = s.lookup req.destination :=
        (hrestorable u.createdParent).rollback hok
      rw [hdest] at hback
      exact hback

/-- What came before an update is not seen if it left the destination and the files alone. -/
theorem Begun.Settled.of_start {begun : Begun} (h : begun.Settled req dir s₀ s')
    (hdest : s₀.lookup req.destination = s.lookup req.destination)
    (hfile : ∀ bytes m, s₀.lookup req.source = some (.file bytes m) →
      s.lookup req.source = some (.file bytes m)) : begun.Settled req dir s s' := by
  cases begun with
  | update u =>
    intro createdParent
    obtain ⟨hd, hb, hf, hr, bytes, m, hsource, hnew⟩ := h createdParent
    exact ⟨hd, hb, hf, hdest ▸ hr, bytes, m, hfile bytes m hsource, hnew⟩
  | refused e => exact Eq.trans h hdest
  | rolledBack e answer => exact fun hok => (h hok).trans hdest

/-- An update stays pending while nothing is written in its directory. -/
theorem Pending.congr (h : Pending req dir s₀ s u) (hdir : parent req.destination = some dir)
    (hsame : ∀ p, parent p = some dir ∨ p = dir → s'.lookup p = s.lookup p) :
    Pending req dir s₀ s' u := by
  have hdest := hsame _ (Or.inl hdir)
  refine ⟨h.destination_eq, h.backup_parent, h.unfinished, h.restorable.congr ?_ ?_ ?_, ?_⟩
  · rw [h.destination_eq, hdest]
  · exact fun b hb => hsame b (Or.inl (h.backup_parent b hb))
  · intro d hd
    rw [h.destination_eq, hdir] at hd
    exact hsame d (Or.inr (Option.some.inj hd).symm)
  · rw [hdest]
    exact h.published

theorem Pending.rollback (h : Pending req dir s₀ s u)
    (hok : (u.rollback env s).answer = .ok ()) :
    (u.rollback env s).disk.lookup req.destination = s₀.lookup req.destination := by
  have hback := h.restorable.rollback hok
  rw [h.destination_eq] at hback
  exact hback

/-- A `commit` that deletes the backup leaves the new binary. -/
theorem Pending.commit_dropsBackup (h : Pending req dir s₀ s u) (hdrops : u.DropsBackup env s) :
    (u.commit env s).disk.lookup req.destination = s.lookup req.destination := by
  obtain ⟨backup, s₁, s₂, hb, hsync, hremove⟩ := hdrops
  obtain rfl := readOnly_syncParentDirectory.eq_of_ok hsync
  have hne : req.destination ≠ backup := by
    rcases h.restorable with ⟨-, hnone, -⟩ | ⟨node, b, d, -, -, hL, -⟩
    · rw [hnone] at hb
      cases hb
    · obtain rfl := Option.some.inj (hb.symm.trans hL.backup_eq)
      rw [← h.destination_eq]
      exact hL.ne
  have hremoved := (removeFile_preserves hne).eq_of_ok hremove
  unfold UnixProtectedBinaryUpdate.commit
  rw [hsync]
  dsimp only
  rw [hb]
  dsimp only
  rw [hremove]
  dsimp only
  cases hlast : syncParentDirectory (env.commitFails .syncRemoval) u.destination s₂ with
  | ok a s₃ =>
    obtain rfl := readOnly_syncParentDirectory.eq_of_ok hlast
    exact hremoved
  | error e s₃ =>
    obtain rfl := readOnly_syncParentDirectory.clean _ _ _ hlast
    exact hremoved

/-- The rollback in the `Drop` of an update, if it succeeds. -/
theorem Pending.drop (h : Pending req dir s₀ s u) {fails : RollbackStep → Bool}
    (hok : ∀ e, u.rollbackAnswer fails s ≠ .error e) :
    (u.drop fails s).lookup req.destination = s₀.lookup req.destination := by
  unfold UnixProtectedBinaryUpdate.drop UnixProtectedBinaryUpdate.rollbackAnswer at *
  rw [h.unfinished]
  cases hrun : u.rollbackInner fails s with
  | error e s₁ =>
    rw [hrun] at hok
    exact absurd rfl (hok e)
  | ok a s₁ =>
    have hback := h.restorable.rollbackInner hrun
    rw [h.destination_eq] at hback
    rw [if_neg Bool.false_ne_true, after_of_ok hrun]
    exact hback

/-- A `commit` that fails before it deletes the backup restores the destination, if the rollback
succeeds. -/
theorem Pending.commit_error (h : Pending req dir s₀ s u) (hkeeps : ¬u.DropsBackup env s)
    {e : ErrorKind} (herror : (u.commit env s).answer = .error e)
    (hok : ∀ e, u.commitRollback env s ≠ some (.error e)) :
    (u.commit env s).disk.lookup req.destination = s₀.lookup req.destination := by
  unfold UnixProtectedBinaryUpdate.commit UnixProtectedBinaryUpdate.commitRollback at *
  cases hsync : syncParentDirectory (env.commitFails .syncPublished) u.destination s with
  | error e s₁ =>
    obtain rfl := readOnly_syncParentDirectory.clean _ _ _ hsync
    rw [hsync] at hok
    exact h.drop fun e he => hok e (congrArg some he)
  | ok a s₁ =>
    obtain rfl := readOnly_syncParentDirectory.eq_of_ok hsync
    rw [hsync] at hok herror
    dsimp only at hok herror ⊢
    cases hb : u.backup with
    | none =>
      rw [hb] at herror
      cases herror
    | some backup =>
      rw [hb] at hok herror
      dsimp only at hok herror ⊢
      cases hremove : removeFile (env.commitFails .removeBackup) backup s₁ with
      | error e s₂ =>
        obtain rfl := clean_removeFile _ _ _ hremove
        rw [hremove] at hok
        exact h.drop fun e he => hok e (congrArg some he)
      | ok a s₂ => exact absurd ⟨backup, _, s₂, hb, hsync, hremove⟩ hkeeps

end Begin

end Wakezilla
