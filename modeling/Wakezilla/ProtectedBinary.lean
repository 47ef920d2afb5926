/-
# The protected service binary

Installing the service copies the executable to a protected directory.  The
update moves a prior binary aside to a backup, publishes the new one, and then
ends with `commit`, which deletes the backup, with `rollback`, which restores it,
or by being dropped, which rolls back as well.  An update that is not finished
when it goes out of scope runs `rollbackInner` in its `Drop`, also after a
`rollback` that failed.

Every call may fail (`BeginStep`, `CommitStep`, `RollbackStep`; the environment
of a run says which).  `rollbackInner` removes the destination first, whatever is
there.  When the restoring rename succeeded and a later step failed, the `Drop`
therefore deletes the restored prior binary, of which no copy is left
(`restored_binary_removed`).  This is the only way to lose it
(`prior_binary_survives`).
-/
import Wakezilla.Library.FileSystem

namespace Wakezilla

open FileSystem Fallible

/-! ## The update -/

/-- Owner and permission bits of a file. -/
structure FileMetadata where
  uid : ℕ
  gid : ℕ
  mode : ℕ
  deriving DecidableEq

/-- The fallible steps of `begin_unix_protected_binary_update_at`. -/
inductive BeginStep where
  | inspectSource | inspectParent | inspectDestination | openSource | inspectOpened
  | createStage | copy | syncStage | rewind | verifyHash | setPermissions | chown | syncMetadata
  | findExisting | createBackup | dropTemporary | moveToBackup | publish | moveBack | dropStage
  | syncPublished
  deriving DecidableEq

/-- The fallible steps of `commit`. -/
inductive CommitStep where
  | syncPublished | removeBackup | syncRemoval
  deriving DecidableEq

/-- The fallible steps of `rollback_inner`. -/
inductive RollbackStep where
  | removeDestination | restoreBackup | syncRestored | removeParent | syncRemoval
  deriving DecidableEq

structure UnixProtectedBinaryUpdate where
  destination : Path
  backup : Option Path
  createdParent : Bool
  finished : Bool
  deriving DecidableEq

/-- What an installation asks for. -/
structure UpdateRequest where
  source : Path
  destination : Path
  ownerUid : ℕ
  ownerGid : ℕ

/-- What the environment chooses: the steps that fail, at each execution, and the
names and metadata of temporary files. -/
structure UpdateEnv where
  beginFails : BeginStep → Bool
  commitFails : CommitStep → Bool
  rollbackFails : RollbackStep → Bool
  dropFails : RollbackStep → Bool
  stageSuffix : String
  backupSuffix : String
  temporary : FileMetadata

abbrev Disk := Files FileMetadata

abbrev DiskIo (α : Type) := Io FileMetadata α

def syncParentDirectory (fails : Bool) (path : Path) : DiskIo Unit :=
  match parent path with
  | none => throw .other
  | some dir => syncDirectory fails dir

namespace UnixProtectedBinaryUpdate

def rollbackInner (fails : RollbackStep → Bool) (u : UnixProtectedBinaryUpdate) :
    DiskIo Unit := do
  ignoring (fun e => e = .notFound) (removeFile (fails .removeDestination) u.destination)
  match u.backup with
  | some backup => rename (fails .restoreBackup) backup u.destination
  | none => pure ()
  syncParentDirectory (fails .syncRestored) u.destination
  if u.createdParent then
    match parent u.destination with
    | some dir =>
      ignoring (fun e => e = .notFound || e = .directoryNotEmpty)
        (removeDir (fails .removeParent) dir)
      syncParentDirectory (fails .syncRemoval) dir
    | none => pure ()

/-- The `Drop` of the update. -/
def drop (fails : RollbackStep → Bool) (u : UnixProtectedBinaryUpdate) (s : Disk) : Disk :=
  if u.finished then s else after (u.rollbackInner fails) s

/-- How a consuming method ends: its answer, and the disk once the update is gone. -/
structure Ended where
  answer : Except ErrorKind Unit
  disk : Disk

/-- `rollback`, and the `Drop` of the update it consumed. -/
def rollback (env : UpdateEnv) (u : UnixProtectedBinaryUpdate) (s : Disk) : Ended :=
  match u.rollbackInner env.rollbackFails s with
  | .ok _ s' => ⟨.ok (), { u with finished := true }.drop env.dropFails s'⟩
  | .error e s' => ⟨.error e, u.drop env.dropFails s'⟩

/-- `commit`, and the `Drop` of the update it consumed. -/
def commit (env : UpdateEnv) (u : UnixProtectedBinaryUpdate) (s : Disk) : Ended :=
  match syncParentDirectory (env.commitFails .syncPublished) u.destination s with
  | .error e s₁ => ⟨.error e, u.drop env.dropFails s₁⟩
  | .ok _ s₁ =>
    match u.backup with
    | some backup =>
      match removeFile (env.commitFails .removeBackup) backup s₁ with
      | .error e s₂ => ⟨.error e, u.drop env.dropFails s₂⟩
      | .ok _ s₂ =>
        let u' := { u with backup := none, finished := true }
        match syncParentDirectory (env.commitFails .syncRemoval) u.destination s₂ with
        | .error e s₃ => ⟨.error e, u'.drop env.dropFails s₃⟩
        | .ok _ s₃ => ⟨.ok (), u'.drop env.dropFails s₃⟩
    | none => ⟨.ok (), { u with finished := true }.drop env.dropFails s₁⟩

end UnixProtectedBinaryUpdate

/-! ## Beginning an update -/

def stagePath (env : UpdateEnv) (dir : Path) : Path :=
  dir ++ [".wakezilla-service-stage-" ++ env.stageSuffix]

def backupPath (env : UpdateEnv) (dir : Path) : Path :=
  dir ++ [".wakezilla-service-backup-" ++ env.backupSuffix]

def Node.isFile : Node FileMetadata → Bool
  | .file _ _ => true
  | _ => false

/-- A regular file with the protected owner and mode `0755`. -/
def Node.isProtected (req : UpdateRequest) : Node FileMetadata → Bool
  | .file _ m => m.uid = req.ownerUid ∧ m.gid = req.ownerGid ∧ m.mode &&& 0o777 = 0o755
  | _ => false

/-- The checks of source, directory and destination; answers the directory. -/
def inspectPaths (env : UpdateEnv) (req : UpdateRequest) : DiskIo Path := do
  let source ← symlinkMetadata (env.beginFails .inspectSource) req.source
  require (Node.isFile source) .other
  match parent req.destination with
  | none => throw .other
  | some dir => do
    let inspected ← symlinkMetadata (env.beginFails .inspectParent) dir
    require inspected.isDirectory .other
    ignoring (fun e => e = .notFound) do
      let existing ← symlinkMetadata (env.beginFails .inspectDestination) req.destination
      require (Node.isProtected req existing) .other
    pure dir

/-- Open the source without following a link, and read it. -/
def openSource (env : UpdateEnv) (req : UpdateRequest) : DiskIo (List UInt8) := do
  let opened ← symlinkMetadata (env.beginFails .openSource) req.source
  require (!env.beginFails .inspectOpened) .other
  match opened with
  | .file bytes _ => pure bytes
  | _ => throw .other

/-- Copy the binary to the stage, check the copy, set its mode and owner. -/
def fillStage (env : UpdateEnv) (req : UpdateRequest) (stage : Path) (bytes : List UInt8) :
    DiskIo Unit := do
  modifyFile (env.beginFails .copy) stage fun _ m => (bytes, m)
  require (!env.beginFails .syncStage) .other
  require (!env.beginFails .rewind) .other
  -- the hashes of source and copy differ only when a read fails or the source changes
  require (!env.beginFails .verifyHash) .other
  modifyFile (env.beginFails .setPermissions) stage fun b m => (b, { m with mode := 0o755 })
  modifyFile (env.beginFails .chown) stage fun b m =>
    (b, { m with uid := req.ownerUid, gid := req.ownerGid })
  require (!env.beginFails .syncMetadata) .other

/-- Move a prior binary aside, to a name that a temporary file reserved. -/
def moveToBackup (env : UpdateEnv) (req : UpdateRequest) (dir : Path) :
    DiskIo (Option Path) := do
  let found ← pathExists (env.beginFails .findExisting) req.destination
  if found then do
    let backup := backupPath env dir
    createFile (env.beginFails .createBackup) backup env.temporary
    ignoring (fun _ => true) (removeFile (env.beginFails .dropTemporary) backup)
    rename (env.beginFails .moveToBackup) req.destination backup
    pure (some backup)
  else pure none

/-- Move the stage to the destination; when that fails, move the backup back. -/
def publishStage (env : UpdateEnv) (req : UpdateRequest) (stage : Path) (backup : Option Path) :
    DiskIo Unit :=
  onError
    (match backup with
      | some backup => rename (env.beginFails .moveBack) backup req.destination
      | none => pure ())
    (renameNoClobber (env.beginFails .publish) stage req.destination)

/-- Everything up to the new binary standing at the destination.  The stage is
removed when a step fails. -/
def publishUpdate (env : UpdateEnv) (req : UpdateRequest) : DiskIo UnixProtectedBinaryUpdate := do
  let dir ← inspectPaths env req
  let bytes ← openSource env req
  let stage := stagePath env dir
  createFile (env.beginFails .createStage) stage env.temporary
  onError (removeFile (env.beginFails .dropStage) stage) do
    fillStage env req stage bytes
    let backup ← moveToBackup env req dir
    publishStage env req stage backup
    pure { destination := req.destination, backup, createdParent := false, finished := false }

/-- How `begin_unix_protected_binary_update_at` ends: with an update, with an
error before anything was published, or with an error after rolling back, and
then with the answer of that rollback. -/
inductive Begun where
  | update (u : UnixProtectedBinaryUpdate)
  | refused (e : ErrorKind)
  | rolledBack (e : ErrorKind) (answer : Except ErrorKind Unit)

def beginUnixProtectedBinaryUpdateAt (env : UpdateEnv) (req : UpdateRequest) (s : Disk) :
    Begun × Disk :=
  match publishUpdate env req s with
  | .error e s₁ => (.refused e, s₁)
  | .ok u s₁ =>
    match syncParentDirectory (env.beginFails .syncPublished) req.destination s₁ with
    | .error e s₂ => (.rolledBack e (u.rollback env s₂).answer, (u.rollback env s₂).disk)
    | .ok _ s₂ => (.update u, s₂)

/-! ## A whole update -/

/-- The three ways to end an update. -/
inductive Ending where
  | commit | rollback | drop
  deriving DecidableEq

/-- What is left when the update is gone: the disk, the answer of the rollback
that ran, and whether `commit` reached the removal of the backup. -/
structure Outcome where
  disk : Disk
  rollback : Option (Except ErrorKind Unit)
  reachedRemoval : Bool

/-- Whether `commit` gets past the flush of the published rename to a backup. -/
def UnixProtectedBinaryUpdate.reachesRemoval (env : UpdateEnv) (u : UnixProtectedBinaryUpdate)
    (s : Disk) : Bool :=
  match syncParentDirectory (env.commitFails .syncPublished) u.destination s with
  | .error _ _ => false
  | .ok _ _ => u.backup.isSome

/-- Begin an update, record whether its directory was created for it, and end it. -/
def runUpdate (env : UpdateEnv) (req : UpdateRequest) (createdParent : Bool) (ending : Ending)
    (s : Disk) : Outcome :=
  match beginUnixProtectedBinaryUpdateAt env req s with
  | (.refused _, s₁) => ⟨s₁, none, false⟩
  | (.rolledBack _ answer, s₁) => ⟨s₁, some answer, false⟩
  | (.update u, s₁) =>
    let u := { u with createdParent }
    match ending with
    | .commit => ⟨(u.commit env s₁).disk, none, u.reachesRemoval env s₁⟩
    | .rollback => ⟨(u.rollback env s₁).disk, some (u.rollback env s₁).answer, false⟩
    | .drop => ⟨u.drop env.dropFails s₁, none, false⟩

/-! ## Rolling back -/

namespace UnixProtectedBinaryUpdate

/-- The steps of `rollbackInner` after the backup was moved back. -/
def settleDirectory (fails : RollbackStep → Bool) (u : UnixProtectedBinaryUpdate) :
    DiskIo Unit := do
  syncParentDirectory (fails .syncRestored) u.destination
  if u.createdParent then
    match parent u.destination with
    | some dir =>
      ignoring (fun e => e = .notFound || e = .directoryNotEmpty)
        (removeDir (fails .removeParent) dir)
      syncParentDirectory (fails .syncRemoval) dir
    | none => pure ()

theorem rollbackInner_eq (fails : RollbackStep → Bool) (u : UnixProtectedBinaryUpdate) :
    u.rollbackInner fails =
      ignoring (fun e => e = .notFound) (removeFile (fails .removeDestination) u.destination) >>=
        fun _ => (match u.backup with
          | some backup => rename (fails .restoreBackup) backup u.destination
          | none => pure ()) >>= fun _ => u.settleDirectory fails := by
  obtain ⟨destination, backup, createdParent, finished⟩ := u
  cases backup with
  | none => rfl
  | some backup => rfl

end UnixProtectedBinaryUpdate

/-- The destination and the backup of an update: two entries of one directory. -/
structure Layout (u : UnixProtectedBinaryUpdate) (backup dir : Path) : Prop where
  unfinished : u.finished = false
  backup_eq : u.backup = some backup
  parent_destination : parent u.destination = some dir
  parent_backup : parent backup = some dir
  ne : u.destination ≠ backup

/-- The prior binary is at the backup, and the destination can be removed. -/
structure BackedUp (u : UnixProtectedBinaryUpdate) (backup dir : Path)
    (prior : Node FileMetadata) (s : Disk) : Prop where
  kept : s.lookup backup = some prior
  removable : isDir s u.destination = false
  directory : isDir s dir = true

/-- The prior binary is back at the destination, and the backup is gone. -/
structure Restored (u : UnixProtectedBinaryUpdate) (backup : Path)
    (prior : Node FileMetadata) (s : Disk) : Prop where
  back : s.lookup u.destination = some prior
  gone : s.lookup backup = none

/-- A step of the rollback after the restoring rename fails: a flush, or the
removal of a directory that was created for the update. -/
def LaterStepFails (fails : RollbackStep → Bool) (destination : Path) (createdParent : Bool)
    (s : Disk) : Prop :=
  fails .syncRestored = true ∨ createdParent = true ∧
    (fails .removeParent = true ∨ fails .syncRemoval = true ∨
      ¬ ∃ dir top, parent destination = some dir ∧ parent dir = some top ∧
        (s.lookup top).isSome = true)

/-- Two disks with the same entry for the directory above agree on which later
steps fail. -/
theorem laterStepFails_congr {fails : RollbackStep → Bool} {destination dir : Path}
    {createdParent : Bool} {s s' : Disk} (hdir : parent destination = some dir)
    (h : ∀ top, parent dir = some top → s'.lookup top = s.lookup top) :
    LaterStepFails fails destination createdParent s' ↔
      LaterStepFails fails destination createdParent s := by
  unfold LaterStepFails
  refine or_congr_right (and_congr_right fun _ => or_congr_right (or_congr_right ?_))
  refine not_congr (exists_congr fun dir' => exists_congr fun top => ?_)
  refine and_congr_right fun hdir' => and_congr_right fun htop => ?_
  obtain rfl := Option.some.inj (hdir'.symm.trans hdir)
  rw [h top htop]

/-- A rollback restores the prior binary, a later step of it fails, and its `Drop`
manages to remove the destination again. -/
structure RemovesRestored (env : UpdateEnv) (destination : Path) (createdParent : Bool)
    (s : Disk) : Prop where
  removes : env.rollbackFails .removeDestination = false
  restores : env.rollbackFails .restoreBackup = false
  laterFails : LaterStepFails env.rollbackFails destination createdParent s
  removesAgain : env.dropFails .removeDestination = false

theorem syncParentDirectory_eq_ok {fails : Bool} {path : Path} {a : Unit} {s s' : Disk} :
    syncParentDirectory fails path s = .ok a s' ↔
      fails = false ∧ (∃ dir, parent path = some dir ∧ (s.lookup dir).isSome = true) ∧
        s' = s := by
  unfold syncParentDirectory
  cases parent path with
  | none =>
    refine ⟨fun h => (by cases h), fun h => ?_⟩
    obtain ⟨-, ⟨dir, hdir, -⟩, -⟩ := h
    cases hdir
  | some dir =>
    refine syncDirectory_eq_ok.trans ?_
    simp

theorem readOnly_syncParentDirectory {fails : Bool} {path : Path} :
    ReadOnly (syncParentDirectory fails path) := by
  unfold syncParentDirectory
  cases parent path with
  | none => exact ReadOnly.throw
  | some dir => exact readOnly_syncDirectory

namespace UnixProtectedBinaryUpdate

variable {fails : RollbackStep → Bool} {u : UnixProtectedBinaryUpdate} {backup dir : Path}
  {prior : Node FileMetadata} {s : Disk}

/-- Nothing but the directory itself is touched after the restoring rename. -/
theorem settleDirectory_keeps {q : Path} (hq : parent u.destination ≠ some q) :
    Preserves (fun s : Disk => s.lookup q) (u.settleDirectory fails) := by
  unfold settleDirectory
  refine readOnly_syncParentDirectory.preserves.bind fun _ _ _ _ => ?_
  split
  · split
    · next dir hdir =>
      have hne : q ≠ dir := by
        rintro rfl
        exact hq hdir
      refine (removeDir_preserves hne).ignoring.bind fun _ _ _ _ => ?_
      exact readOnly_syncParentDirectory.preserves
    · exact ReadOnly.pure.preserves
  · exact ReadOnly.pure.preserves

/-- With the prior binary restored, the directory is occupied, and the remaining
steps succeed unless one of them fails on its own. -/
theorem settleDirectory_ok_iff (hdir : parent u.destination = some dir)
    (hback : s.lookup u.destination = some prior) (hd : isDir s dir = true) :
    (∃ s', u.settleDirectory fails s = .ok () s') ↔
      ¬ LaterStepFails fails u.destination u.createdParent s := by
  -- the restored binary occupies the directory, so its removal is refused without an error
  have hremove : ignoring (fun e => e = .notFound || e = .directoryNotEmpty)
      (removeDir (fails .removeParent) dir) s =
      if fails .removeParent then .error .other s else .ok () s := by
    unfold ignoring
    rw [removeDir_occupied _ hd hback hdir]
    cases fails .removeParent <;> rfl
  have hsync : syncParentDirectory (fails .syncRestored) u.destination s = .ok () s ↔
      fails .syncRestored = false := by
    rw [syncParentDirectory_eq_ok]
    exact ⟨fun h => h.1, fun h => ⟨h, ⟨dir, hdir, isSome_of_isDir hd⟩, rfl⟩⟩
  unfold settleDirectory LaterStepFails
  constructor
  · rintro ⟨s', h⟩
    obtain ⟨_, s₁, h₁, h₂⟩ := bind_eq_ok.mp h
    obtain ⟨hflush, -, rfl⟩ := syncParentDirectory_eq_ok.mp h₁
    rintro (hfail | ⟨hcreated, hfail⟩)
    · rw [hflush] at hfail
      cases hfail
    · simp only [hcreated, if_true, hdir] at h₂
      obtain ⟨_, s₂, h₃, h₄⟩ := bind_eq_ok.mp h₂
      rw [hremove] at h₃
      obtain ⟨hlast, ⟨top, htop, hsome⟩, -⟩ := syncParentDirectory_eq_ok.mp h₄
      split at h₃
      · cases h₃
      · next hrm =>
        obtain ⟨-, rfl⟩ := EStateM.Result.ok.inj h₃
        rcases hfail with hfail | hfail | hfail
        · exact hrm hfail
        · rw [hlast] at hfail
          cases hfail
        · exact hfail ⟨dir, top, hdir, htop, hsome⟩
  · intro hno
    have hflush : fails .syncRestored = false :=
      Bool.eq_false_iff.mpr fun hfail => hno (Or.inl hfail)
    refine ⟨s, bind_eq_ok.mpr ⟨(), s, hsync.mpr hflush, ?_⟩⟩
    cases hcreated : u.createdParent with
    | false => rfl
    | true =>
      have hrest := not_or.mp fun hfail => hno (Or.inr ⟨hcreated, hfail⟩)
      obtain ⟨hlast, htop⟩ := not_or.mp hrest.2
      obtain ⟨dir', top, hdir', htop, hsome⟩ := not_not.mp htop
      obtain rfl := Option.some.inj (hdir'.symm.trans hdir)
      simp only [if_true, hdir]
      refine bind_eq_ok.mpr ⟨(), s, ?_, ?_⟩
      · rw [hremove, if_neg hrest.1]
      · exact syncParentDirectory_eq_ok.mpr
          ⟨Bool.eq_false_iff.mpr hlast, ⟨top, htop, hsome⟩, rfl⟩

/-- While the prior binary is at the backup, a rollback that cannot remove the
destination or move the backup fails, and the backup stays. -/
theorem rollbackInner_stops (hL : Layout u backup dir) (hB : BackedUp u backup dir prior s)
    (h : fails .removeDestination = true ∨ fails .restoreBackup = true) :
    ∃ e s', u.rollbackInner fails s = .error e s' ∧ BackedUp u backup dir prior s' := by
  rw [rollbackInner_eq]
  rcases removePresent_run (fails .removeDestination) hB.removable with
    ⟨-, hrun⟩ | ⟨hrm, s₁, hrun, hs₁⟩
  · exact ⟨_, s, bind_of_error hrun, hB⟩
  · have hrestore : fails .restoreBackup = true := h.resolve_left (by rw [hrm]; simp)
    refine ⟨.other, s₁, ?_, ?_, ?_, ?_⟩
    · rw [bind_of_ok hrun, hL.backup_eq, hrestore]
      rfl
    · rw [hs₁, if_neg hL.ne.symm]
      exact hB.kept
    · exact isDir_of_none (by rw [hs₁, if_pos rfl])
    · have hsame : s₁.lookup dir = s.lookup dir := by
        rw [hs₁, if_neg (ne_of_parent hL.parent_destination).symm]
      rw [isDir_congr hsame]
      exact hB.directory

/-- Otherwise the prior binary is restored, whatever the remaining steps do. -/
theorem rollbackInner_restores (hL : Layout u backup dir) (hB : BackedUp u backup dir prior s)
    (hprior : prior.isDirectory = false) (hrm : fails .removeDestination = false)
    (hrestore : fails .restoreBackup = false) :
    Restored u backup prior (after (u.rollbackInner fails) s) ∧
      ((∃ s', u.rollbackInner fails s = .ok () s') ↔
        ¬ LaterStepFails fails u.destination u.createdParent s) := by
  rcases removePresent_run (fails .removeDestination) hB.removable with
    ⟨hfail, -⟩ | ⟨-, s₁, hrun, hs₁⟩
  · rw [hrm] at hfail
    cases hfail
  · have hmove : rename (fails .restoreBackup) backup u.destination s₁ =
        .ok () ((s₁.erase backup).insert u.destination prior) := by
      refine rename_eq_ok.mpr ⟨hrestore, ?_, prior, ?_, hprior, rfl⟩
      · exact isDir_of_none (by rw [hs₁, if_pos rfl])
      · rw [hs₁, if_neg hL.ne.symm]
        exact hB.kept
    have hstep : u.rollbackInner fails s =
        u.settleDirectory fails ((s₁.erase backup).insert u.destination prior) := by
      rw [rollbackInner_eq, bind_of_ok hrun, hL.backup_eq]
      exact bind_of_ok hmove
    have hs₂ : ∀ q, ((s₁.erase backup).insert u.destination prior).lookup q =
        if q = u.destination then some prior else if q = backup then none else s.lookup q := by
      intro q
      rw [Dict.lookup_insert, Dict.lookup_erase, hs₁]
      split_ifs <;> rfl
    -- from here on only the entries of the new disk matter
    generalize (s₁.erase backup).insert u.destination prior = s₂ at hstep hs₂
    have hback : s₂.lookup u.destination = some prior := by rw [hs₂, if_pos rfl]
    have hafter : after (u.rollbackInner fails) s = after (u.settleDirectory fails) s₂ := by
      unfold after
      rw [hstep]
    refine ⟨⟨?_, ?_⟩, ?_⟩
    · rw [hafter]
      exact (settleDirectory_keeps (fun h => ne_of_parent h rfl) s₂).trans hback
    · rw [hafter]
      have hgone : s₂.lookup backup = none := by rw [hs₂, if_neg hL.ne.symm, if_pos rfl]
      refine (settleDirectory_keeps (fun h => ?_) s₂).trans hgone
      exact ne_of_parent hL.parent_backup (Option.some.inj (h.symm.trans hL.parent_destination))
    · have hdir : isDir s₂ dir = true := by
        have hsame : s₂.lookup dir = s.lookup dir := by
          rw [hs₂, if_neg (ne_of_parent hL.parent_destination).symm,
            if_neg (ne_of_parent hL.parent_backup).symm]
        rw [isDir_congr hsame]
        exact hB.directory
      rw [hstep, settleDirectory_ok_iff hL.parent_destination hback hdir]
      refine not_congr (laterStepFails_congr hL.parent_destination fun top htop => ?_)
      rw [hs₂, if_neg (ne_of_parent_parent hL.parent_destination htop).symm,
        if_neg (ne_of_parent_parent hL.parent_backup htop).symm]

/-- A rollback over a restored binary removes it, and there is nothing to restore
any more. -/
theorem rollbackInner_removes (hL : Layout u backup dir) (hR : Restored u backup prior s)
    (hprior : prior.isDirectory = false) (hrm : fails .removeDestination = false) :
    (after (u.rollbackInner fails) s).lookup u.destination = none ∧
      (after (u.rollbackInner fails) s).lookup backup = none := by
  have hremovable : isDir s u.destination = false := by
    rwa [isDir_of_some hR.back]
  rcases removePresent_run (fails .removeDestination) hremovable with
    ⟨hfail, -⟩ | ⟨-, s₁, hrun, hs₁⟩
  · rw [hrm] at hfail
    cases hfail
  · -- the first rollback moved the backup away, so the rename finds nothing
    have hgone : s₁.lookup backup = none := by
      rw [hs₁, if_neg hL.ne.symm]
      exact hR.gone
    cases hmove : rename (fails .restoreBackup) backup u.destination s₁ with
    | ok a s₂ =>
      obtain ⟨-, -, node, hnode, -⟩ := rename_eq_ok.mp hmove
      rw [hgone] at hnode
      cases hnode
    | error e s₂ =>
      have hs₂ := clean_rename s₁ e s₂ hmove
      have hstep : u.rollbackInner fails s = .error e s₂ := by
        rw [rollbackInner_eq, bind_of_ok hrun, hL.backup_eq]
        exact bind_of_error hmove
      rw [after_of_error hstep, hs₂]
      exact ⟨by rw [hs₁, if_pos rfl], hgone⟩

/-- A rollback that cannot remove the restored binary leaves everything. -/
theorem rollbackInner_blocked (hR : Restored u backup prior s) (hprior : prior.isDirectory = false)
    (hrm : fails .removeDestination = true) : after (u.rollbackInner fails) s = s := by
  have hremovable : isDir s u.destination = false := by
    rwa [isDir_of_some hR.back]
  rcases removePresent_run (fails .removeDestination) hremovable with ⟨-, hrun⟩ | ⟨hok, -⟩
  · refine after_of_error (e := .other) ?_
    rw [rollbackInner_eq]
    exact bind_of_error hrun
  · rw [hrm] at hok
    cases hok

/-- Without a backup, a rollback that succeeds leaves no binary. -/
theorem rollbackInner_absent (hb : u.backup = none)
    (hremovable : isDir s u.destination = false) {s' : Disk}
    (h : u.rollbackInner fails s = .ok () s') : s'.lookup u.destination = none := by
  rw [rollbackInner_eq, hb] at h
  obtain ⟨_, s₁, h₁, h₂⟩ := bind_eq_ok.mp h
  obtain ⟨_, s₂, h₃, h₄⟩ := bind_eq_ok.mp h₂
  obtain ⟨-, rfl⟩ := pure_eq_ok.mp h₃
  rcases removePresent_run (fails .removeDestination) hremovable with
    ⟨-, hrun⟩ | ⟨-, s₁', hrun, hs₁⟩
  · rw [hrun] at h₁
    cases h₁
  · rw [hrun] at h₁
    obtain ⟨-, rfl⟩ := EStateM.Result.ok.inj h₁
    have hkeep : Preserves (fun s : Disk => s.lookup u.destination) (u.settleDirectory fails) :=
      settleDirectory_keeps fun h => ne_of_parent h rfl
    have hgone : s₁'.lookup u.destination = none := by rw [hs₁, if_pos rfl]
    exact (hkeep.eq_of_ok h₄).trans hgone

/-! ## Ending an update -/

/-- The prior binary stands at the destination or at the backup. -/
def Kept (u : UnixProtectedBinaryUpdate) (backup : Path) (prior : Node FileMetadata)
    (s : Disk) : Prop :=
  s.lookup u.destination = some prior ∨ s.lookup backup = some prior

/-- One rollback over a backed up binary never loses it. -/
theorem rollbackInner_kept (hL : Layout u backup dir) (hB : BackedUp u backup dir prior s)
    (hprior : prior.isDirectory = false) :
    Kept u backup prior (after (u.rollbackInner fails) s) := by
  by_cases h : fails .removeDestination = true ∨ fails .restoreBackup = true
  · obtain ⟨e, s', hrun, hB'⟩ := rollbackInner_stops hL hB h
    rw [after_of_error hrun]
    exact Or.inr hB'.kept
  · obtain ⟨hrm, hrestore⟩ := not_or.mp h
    exact Or.inl (rollbackInner_restores hL hB hprior (Bool.eq_false_iff.mpr hrm)
      (Bool.eq_false_iff.mpr hrestore)).1.back

theorem drop_kept (hL : Layout u backup dir) (hB : BackedUp u backup dir prior s)
    (hprior : prior.isDirectory = false) : Kept u backup prior (u.drop fails s) := by
  rw [drop, hL.unfinished]
  exact rollbackInner_kept hL hB hprior

variable {env : UpdateEnv}

/-- A commit that does not reach the removal of the backup never loses the prior
binary. -/
theorem commit_kept (hL : Layout u backup dir) (hB : BackedUp u backup dir prior s)
    (hprior : prior.isDirectory = false) (hreach : u.reachesRemoval env s = false) :
    Kept u backup prior (u.commit env s).disk := by
  unfold commit
  unfold reachesRemoval at hreach
  cases hsync : syncParentDirectory (env.commitFails .syncPublished) u.destination s with
  | ok a s₁ =>
    rw [hsync, hL.backup_eq] at hreach
    cases hreach
  | error e s₁ =>
    have hs₁ := readOnly_syncParentDirectory.clean s e s₁ hsync
    rw [hs₁]
    exact drop_kept hL hB hprior

/-- After a rollback over a backed up binary, the binary is still there, and at
the destination if the rollback succeeded, unless a restored binary is removed. -/
theorem rollback_kept (hL : Layout u backup dir) (hB : BackedUp u backup dir prior s)
    (hprior : prior.isDirectory = false)
    (hno : ¬ RemovesRestored env u.destination u.createdParent s) :
    Kept u backup prior (u.rollback env s).disk ∧
      ((u.rollback env s).answer = .ok () →
        (u.rollback env s).disk.lookup u.destination = some prior) := by
  unfold rollback
  by_cases h : env.rollbackFails .removeDestination = true ∨ env.rollbackFails .restoreBackup = true
  · obtain ⟨e, s', hrun, hB'⟩ := rollbackInner_stops hL hB h
    rw [hrun]
    exact ⟨drop_kept hL hB' hprior, fun hok => by cases hok⟩
  · obtain ⟨hrm, hrestore⟩ := not_or.mp h
    obtain ⟨hR, hiff⟩ := rollbackInner_restores hL hB hprior (Bool.eq_false_iff.mpr hrm)
      (Bool.eq_false_iff.mpr hrestore)
    cases hrun : u.rollbackInner env.rollbackFails s with
    | ok a s' =>
      rw [after_of_ok hrun] at hR
      exact ⟨Or.inl hR.back, fun _ => hR.back⟩
    | error e s' =>
      rw [after_of_error hrun] at hR
      -- the binary is back, so a later step failed, and the second rollback must be blocked
      have hlater : LaterStepFails env.rollbackFails u.destination u.createdParent s := by
        by_contra hlater
        obtain ⟨s₂, hok⟩ := hiff.mpr hlater
        rw [hrun] at hok
        cases hok
      have hblocked : env.dropFails .removeDestination = true := by
        by_contra hagain
        exact hno ⟨Bool.eq_false_iff.mpr hrm, Bool.eq_false_iff.mpr hrestore, hlater,
          Bool.eq_false_iff.mpr hagain⟩
      refine ⟨Or.inl ?_, fun hok => by cases hok⟩
      show (u.drop env.dropFails s').lookup _ = _
      rw [drop, hL.unfinished, if_neg (by simp), rollbackInner_blocked hR hprior hblocked]
      exact hR.back

/-- When a restored binary is removed, nothing is left of it. -/
theorem rollback_lost (hL : Layout u backup dir) (hB : BackedUp u backup dir prior s)
    (hprior : prior.isDirectory = false) (h : RemovesRestored env u.destination u.createdParent s) :
    (u.rollback env s).disk.lookup u.destination = none ∧
      (u.rollback env s).disk.lookup backup = none := by
  obtain ⟨hR, hiff⟩ := rollbackInner_restores hL hB hprior h.removes h.restores
  unfold rollback
  cases hrun : u.rollbackInner env.rollbackFails s with
  | ok a s' => exact absurd h.laterFails (hiff.mp ⟨s', hrun⟩)
  | error e s' =>
    rw [after_of_error hrun] at hR
    show (u.drop env.dropFails s').lookup _ = _ ∧ (u.drop env.dropFails s').lookup _ = _
    rw [drop, hL.unfinished, if_neg (by simp)]
    exact rollbackInner_removes hL hR hprior h.removesAgain

end UnixProtectedBinaryUpdate

/-! ## Publishing -/

variable {env : UpdateEnv} {req : UpdateRequest} {dir : Path} {s s' : Disk}

theorem stagePath_ne_backupPath (env : UpdateEnv) (dir : Path) :
    stagePath env dir ≠ backupPath env dir := by
  intro h
  have hname := List.singleton_injective (List.append_cancel_left h)
  -- the two names differ within their first twenty characters
  have hchars := congrArg (fun name => name.toList.take 20) hname
  simp only [String.toList_append] at hchars
  rw [List.take_append_of_le_length (by decide), List.take_append_of_le_length (by decide)]
    at hchars
  exact absurd hchars (by decide)

/-- The check of the destination passes when nothing is there, or a protected binary. -/
theorem inspectDestination_eq_ok {a : Unit} :
    ignoring (fun e => e = .notFound) (do
      let existing ← symlinkMetadata (env.beginFails .inspectDestination) req.destination
      require (Node.isProtected req existing) .other) s = .ok a s' ↔
    s' = s ∧ env.beginFails .inspectDestination = false ∧
      ∀ node, s.lookup req.destination = some node → Node.isProtected req node = true := by
  cases hfail : env.beginFails .inspectDestination with
  | true =>
    refine ⟨fun h => (by cases h), fun h => absurd h.2.1 (by simp)⟩
  | false =>
    unfold ignoring
    cases hd : s.lookup req.destination with
    | none =>
      -- a missing destination is the one error that is ignored
      have hmissing : symlinkMetadata false req.destination s = .error .notFound s := by
        simp [symlinkMetadata, attempt, hd]
      rw [bind_of_error hmissing]
      show EStateM.Result.ok () s = .ok a s' ↔ _
      simp [eq_comm (b := s)]
    | some node =>
      have hfound : symlinkMetadata false req.destination s = .ok node s :=
        symlinkMetadata_eq_ok.mpr ⟨rfl, hd, rfl⟩
      rw [bind_of_ok hfound]
      cases hnode : Node.isProtected req node with
      | false =>
        refine ⟨fun h => (by cases h), fun h => ?_⟩
        rw [h.2.2 node rfl] at hnode
        cases hnode
      | true =>
        show EStateM.Result.ok () s = .ok a s' ↔ _
        simp [eq_comm (b := s), hnode]

theorem inspectPaths_eq_ok :
    inspectPaths env req s = .ok dir s' ↔ s' = s ∧ parent req.destination = some dir ∧
      (env.beginFails .inspectSource = false ∧
        ∃ node, s.lookup req.source = some node ∧ Node.isFile node = true) ∧
      (env.beginFails .inspectParent = false ∧ isDir s dir = true) ∧
      env.beginFails .inspectDestination = false ∧
        ∀ node, s.lookup req.destination = some node → Node.isProtected req node = true := by
  unfold inspectPaths
  cases parent req.destination with
  | none =>
    simp only [bind_eq_ok]
    refine ⟨fun h => ?_, fun h => absurd h.2.1 (by simp)⟩
    obtain ⟨_, _, -, _, _, -, hthrow⟩ := h
    cases hthrow
  | some found =>
    simp only [bind_eq_ok, symlinkMetadata_eq_ok, require_eq_ok, inspectDestination_eq_ok,
      pure_eq_ok]
    constructor
    · rintro ⟨node, _, ⟨hsource, hnode, rfl⟩, _, _, ⟨hfile, rfl⟩, directory, _,
        ⟨hparent, hfound, rfl⟩, _, _, ⟨hdir, rfl⟩, _, _, ⟨rfl, hdestination⟩, rfl, rfl⟩
      exact ⟨rfl, rfl, ⟨hsource, node, hnode, hfile⟩,
        ⟨hparent, isDir_iff.mpr ⟨directory, hfound, hdir⟩⟩, hdestination⟩
    · rintro ⟨rfl, hfound, ⟨hsource, node, hnode, hfile⟩, ⟨hparent, hdir⟩, hdestination⟩
      obtain rfl := Option.some.inj hfound
      obtain ⟨directory, hfound, hdir⟩ := isDir_iff.mp hdir
      exact ⟨node, _, ⟨hsource, hnode, rfl⟩, (), _, ⟨hfile, rfl⟩, directory, _,
        ⟨hparent, hfound, rfl⟩, (), _, ⟨hdir, rfl⟩, (), _, ⟨rfl, hdestination⟩, rfl, rfl⟩

theorem readOnly_inspectPaths : ReadOnly (inspectPaths env req) := by
  unfold inspectPaths
  refine ReadOnly.bind readOnly_symlinkMetadata fun _ => ReadOnly.bind ReadOnly.require fun _ => ?_
  cases parent req.destination with
  | none => exact ReadOnly.throw
  | some dir =>
    refine ReadOnly.bind readOnly_symlinkMetadata fun _ => ReadOnly.bind ReadOnly.require
      fun _ => ReadOnly.bind (ReadOnly.ignoring ?_) fun _ => ReadOnly.pure
    exact ReadOnly.bind readOnly_symlinkMetadata fun _ => ReadOnly.require

theorem readOnly_openSource : ReadOnly (openSource env req) := by
  unfold openSource
  refine ReadOnly.bind readOnly_symlinkMetadata fun node => ReadOnly.bind ReadOnly.require
    fun _ => ?_
  cases node with
  | file bytes m => exact ReadOnly.pure
  | directory => exact ReadOnly.throw
  | other => exact ReadOnly.throw

theorem openSource_eq_ok {bytes : List UInt8} :
    openSource env req s = .ok bytes s' ↔ s' = s ∧ env.beginFails .openSource = false ∧
      env.beginFails .inspectOpened = false ∧
      ∃ m, s.lookup req.source = some (.file bytes m) := by
  unfold openSource
  simp only [bind_eq_ok, symlinkMetadata_eq_ok, require_eq_ok]
  constructor
  · rintro ⟨node, _, ⟨hopen, hnode, rfl⟩, _, _, ⟨hinspect, rfl⟩, hread⟩
    cases node with
    | file b m =>
      obtain ⟨rfl, rfl⟩ := pure_eq_ok.mp hread
      exact ⟨rfl, hopen, by simpa using hinspect, m, hnode⟩
    | directory => cases hread
    | other => cases hread
  · rintro ⟨rfl, hopen, hinspect, m, hnode⟩
    exact ⟨_, _, ⟨hopen, hnode, rfl⟩, (), _, ⟨by simp [hinspect], rfl⟩, rfl⟩

theorem fillStage_eq_ok {stage : Path} {bytes : List UInt8} {m : FileMetadata} {a : Unit}
    (h : s.lookup stage = some (.file [] m)) :
    fillStage env req stage bytes s = .ok a s' ↔
      (∀ step ∈ [.copy, .syncStage, .rewind, .verifyHash, .setPermissions, .chown, .syncMetadata],
        env.beginFails step = false) ∧
      s' = s.insert stage (.file bytes ⟨req.ownerUid, req.ownerGid, 0o755⟩) := by
  unfold fillStage
  simp only [bind_eq_ok, modifyFile_eq_ok, require_eq_ok]
  constructor
  · rintro ⟨_, _, ⟨hcopy, b, m₁, -, rfl⟩, _, _, ⟨hsync, rfl⟩, _, _, ⟨hrewind, rfl⟩, _, _,
      ⟨hhash, rfl⟩, _, _, ⟨hmode, b₁, m₂, hm₂, rfl⟩, _, _, ⟨hown, b₂, m₃, hm₃, rfl⟩, hlast, rfl⟩
    rw [AList.lookup_insert] at hm₂ hm₃
    obtain ⟨rfl, rfl⟩ := Node.file.inj (Option.some.inj hm₂)
    obtain ⟨rfl, rfl⟩ := Node.file.inj (Option.some.inj hm₃)
    simp only [Bool.not_eq_true'] at hsync hrewind hhash hlast
    refine ⟨?_, by rw [AList.insert_insert, AList.insert_insert]⟩
    simp [hcopy, hsync, hrewind, hhash, hmode, hown, hlast]
  · rintro ⟨hsteps, rfl⟩
    simp only [List.forall_mem_cons] at hsteps
    obtain ⟨hcopy, hsync, hrewind, hhash, hmode, hown, hlast, -⟩ := hsteps
    refine ⟨(), _, ⟨hcopy, [], m, h, rfl⟩, (), _, ⟨by simp [hsync], rfl⟩, (), _,
      ⟨by simp [hrewind], rfl⟩, (), _, ⟨by simp [hhash], rfl⟩, (), _,
      ⟨hmode, bytes, m, AList.lookup_insert _, rfl⟩, (), _,
      ⟨hown, bytes, _, AList.lookup_insert _, rfl⟩, by simp [hlast], ?_⟩
    rw [AList.insert_insert, AList.insert_insert]

/-! ## The prior binary while the new one is published -/

/-- Only entries of `dir` differ. -/
def SameOutside (dir : Path) (s₀ s : Disk) : Prop :=
  ∀ q, parent q ≠ some dir → s.lookup q = s₀.lookup q

theorem SameOutside.insert {s₀ : Disk} {p : Path} {node : Node FileMetadata}
    (h : SameOutside dir s₀ s) (hp : parent p = some dir) :
    SameOutside dir s₀ (s.insert p node) := by
  intro q hq
  have hne : q ≠ p := by
    rintro rfl
    exact hq hp
  rw [Dict.lookup_insert, if_neg hne, h q hq]

theorem SameOutside.erase {s₀ : Disk} {p : Path} (h : SameOutside dir s₀ s)
    (hp : parent p = some dir) : SameOutside dir s₀ (s.erase p) := by
  intro q hq
  have hne : q ≠ p := by
    rintro rfl
    exact hq hp
  rw [Dict.lookup_erase, if_neg hne, h q hq]

/-- Filling the stage changes the stage alone. -/
theorem fillStage_keeps {I : Disk → Prop} {stage : Path} {bytes : List UInt8}
    (hI : ∀ s node, I s → I (s.insert stage node)) :
    Triple I (fillStage env req stage bytes) (fun _ => I) I := by
  have hmodify : ∀ fails f, Triple I (modifyFile fails stage f) (fun _ => I) I := by
    intro fails f
    refine Triple.of_clean clean_modifyFile (fun s hs => hs) fun s a s' hs h => ?_
    obtain ⟨-, b, m, -, rfl⟩ := modifyFile_eq_ok.mp h
    exact hI s _ hs
  have hrequire : ∀ c, Triple I (require c ErrorKind.other) (fun _ => I) I := by
    intro c
    refine Triple.of_clean ReadOnly.require.clean (fun s hs => hs) fun s a s' hs h => ?_
    rwa [ReadOnly.require.eq_of_ok h]
  unfold fillStage
  exact (hmodify _ _).bind fun _ => (hrequire _).bind fun _ => (hrequire _).bind fun _ =>
    (hrequire _).bind fun _ => (hmodify _ _).bind fun _ => (hmodify _ _).bind fun _ => hrequire _

section Prior

variable (env req) (dir : Path) (prior : Node FileMetadata) (s₀ : Disk)

/-- Nothing happened to the prior binary yet. -/
structure Untouched (s : Disk) : Prop where
  outside : SameOutside dir s₀ s
  standing : s.lookup req.destination = some prior

/-- The prior binary was moved to the backup, if there is one. -/
structure Moved (backup : Option Path) (s : Disk) : Prop where
  outside : SameOutside dir s₀ s
  place : (backup = none ∧ s.lookup req.destination = some prior) ∨
    (backup = some (backupPath env dir) ∧ req.destination ≠ backupPath env dir ∧
      s.lookup (backupPath env dir) = some prior ∧ s.lookup req.destination = none)

/-- The new binary stands at the destination, the prior one at the backup. -/
structure Published (backup : Option Path) (s : Disk) : Prop where
  outside : SameOutside dir s₀ s
  backup_eq : backup = some (backupPath env dir)
  ne : req.destination ≠ backupPath env dir
  kept : s.lookup (backupPath env dir) = some prior
  removable : isDir s req.destination = false

/-- The prior binary stands at the destination or at the backup. -/
def StillThere (s : Disk) : Prop :=
  s.lookup req.destination = some prior ∨ s.lookup (backupPath env dir) = some prior

end Prior

variable {prior : Node FileMetadata} {s₀ : Disk}

theorem moveToBackup_spec (hdir : parent req.destination = some dir) :
    Triple (Untouched req dir prior s₀) (moveToBackup env req dir) (Moved env req dir prior s₀)
      (Untouched req dir prior s₀) := by
  have hb : parent (backupPath env dir) = some dir := parent_concat _ _
  unfold moveToBackup
  refine Triple.bind (R := fun _ => Untouched req dir prior s₀) ?_ fun found => ?_
  · intro s hs
    refine ⟨fun a s' h => ?_, fun e s' h => by cases h⟩
    exact (EStateM.Result.ok.inj h).2 ▸ hs
  cases found with
  | false => exact Triple.pure fun s hs => ⟨hs.outside, Or.inl ⟨rfl, hs.standing⟩⟩
  | true =>
    refine Triple.bind (R := fun _ s => Untouched req dir prior s₀ s ∧
      req.destination ≠ backupPath env dir) ?_ fun _ => ?_
    · refine Triple.of_clean clean_createFile (fun s hs => hs) fun s a s' hs h => ?_
      obtain ⟨-, hfree, rfl⟩ := createFile_eq_ok.mp h
      have hne : req.destination ≠ backupPath env dir := by
        intro heq
        rw [← heq, hs.standing] at hfree
        cases hfree
      refine ⟨⟨hs.outside.insert hb, ?_⟩, hne⟩
      rw [Dict.lookup_insert, if_neg hne]
      exact hs.standing
    refine Triple.bind (R := fun _ s => Untouched req dir prior s₀ s ∧
      req.destination ≠ backupPath env dir) ?_ fun _ => ?_
    · refine Triple.weaken (Triple.ignoring (I := fun s => Untouched req dir prior s₀ s ∧
        req.destination ≠ backupPath env dir) ?_) (fun s hs => hs) (fun _ s hs => hs)
        fun s hs => hs.1
      refine Triple.of_clean clean_removeFile (fun s hs => hs) fun s a s' hs h => ?_
      obtain ⟨-, -, rfl⟩ := removeFile_eq_ok.mp h
      refine ⟨⟨hs.1.outside.erase hb, ?_⟩, hs.2⟩
      rw [Dict.lookup_erase, if_neg hs.2]
      exact hs.1.standing
    refine Triple.bind (R := fun _ => Moved env req dir prior s₀ (some (backupPath env dir))) ?_
      fun _ => Triple.pure fun s hs => hs
    refine Triple.of_clean clean_rename (fun s hs => hs.1) fun s a s' hs h => ?_
    obtain ⟨-, -, node, hnode, -, rfl⟩ := rename_eq_ok.mp h
    obtain rfl := Option.some.inj (hnode.symm.trans hs.1.standing)
    refine ⟨(hs.1.outside.erase hdir).insert hb, Or.inr ⟨rfl, hs.2, ?_, ?_⟩⟩
    · rw [Dict.lookup_insert, if_pos rfl]
    · rw [Dict.lookup_insert, if_neg hs.2, Dict.lookup_erase, if_pos rfl]

theorem publishStage_spec (hdir : parent req.destination = some dir) (backup : Option Path) :
    Triple (Moved env req dir prior s₀ backup)
      (publishStage env req (stagePath env dir) backup)
      (fun _ => Published env req dir prior s₀ backup) (StillThere env req dir prior) := by
  refine Triple.onError (F := Moved env req dir prior s₀ backup) ?_ ?_
  · refine Triple.of_clean clean_renameNoClobber (fun s hs => hs) fun s a s' hs h => ?_
    obtain ⟨habsent, h⟩ := renameNoClobber_eq_ok.mp h
    obtain ⟨-, -, node, hnode, hfile, rfl⟩ := rename_eq_ok.mp h
    rcases hs.place with ⟨-, hstanding⟩ | ⟨hbackup, hne, hkept, -⟩
    · rw [habsent] at hstanding
      cases hstanding
    · refine ⟨(hs.outside.erase (parent_concat _ _)).insert hdir, hbackup, hne, ?_, ?_⟩
      · rw [Dict.lookup_insert, if_neg hne.symm, Dict.lookup_erase,
          if_neg (stagePath_ne_backupPath env dir).symm]
        exact hkept
      · rwa [isDir_insert_self]
  · cases backup with
    | none =>
      refine Triple.pure fun s hs => ?_
      rcases hs.place with ⟨-, hstanding⟩ | ⟨hbackup, -⟩
      · exact Or.inl hstanding
      · cases hbackup
    | some backup =>
      refine Triple.of_clean clean_rename (fun s hs => ?_) fun s a s' hs h => ?_
      · rcases hs.place with ⟨hnone, -⟩ | ⟨-, -, hkept, -⟩
        · cases hnone
        · exact Or.inr hkept
      · obtain ⟨-, -, node, hnode, -, rfl⟩ := rename_eq_ok.mp h
        rcases hs.place with ⟨hnone, -⟩ | ⟨hbackup, -, hkept, -⟩
        · cases hnone
        · obtain rfl := Option.some.inj hbackup
          obtain rfl := Option.some.inj (hnode.symm.trans hkept)
          exact Or.inl (by rw [Dict.lookup_insert, if_pos rfl])

/-- Until the update value exists, the prior binary is at the destination or at
the backup; when it exists, at the backup. -/
theorem publishUpdate_spec (hdir : parent req.destination = some dir)
    (hstanding : s₀.lookup req.destination = some prior) :
    Triple (fun s => s = s₀) (publishUpdate env req)
      (fun u s => u = ⟨req.destination, some (backupPath env dir), false, false⟩ ∧
        isDir s₀ dir = true ∧
        Published env req dir prior s₀ (some (backupPath env dir)) s)
      (StillThere env req dir prior) := by
  unfold publishUpdate
  refine Triple.bind (R := fun found s => (found = dir ∧ isDir s₀ dir = true) ∧
    s = s₀) ?_ fun found => Triple.of_and ?_
  · refine Triple.of_clean readOnly_inspectPaths.clean (fun s hs => ?_) fun s a s' hs h => ?_
    · rw [hs]
      exact Or.inl hstanding
    · obtain ⟨rfl, hfound, -, ⟨-, hd⟩, -⟩ := inspectPaths_eq_ok.mp h
      obtain rfl := Option.some.inj (hfound.symm.trans hdir)
      exact ⟨⟨rfl, hs ▸ hd⟩, hs⟩
  rintro ⟨rfl, hd⟩
  refine Triple.bind (R := fun _ s => s = s₀) ?_ fun bytes => ?_
  · refine Triple.of_clean readOnly_openSource.clean (fun s hs => ?_) fun s a s' hs h => ?_
    · rw [hs]
      exact Or.inl hstanding
    · rw [readOnly_openSource.eq_of_ok h]
      exact hs
  refine Triple.bind (R := fun _ s => req.destination ≠ stagePath env found ∧
    Untouched req found prior s₀ s) ?_ fun _ => Triple.of_and fun hne => ?_
  · refine Triple.of_clean clean_createFile (fun s hs => ?_) fun s a s' hs h => ?_
    · rw [hs]
      exact Or.inl hstanding
    · obtain ⟨-, hfree, rfl⟩ := createFile_eq_ok.mp h
      have hne : req.destination ≠ stagePath env found := by
        intro heq
        rw [hs, ← heq, hstanding] at hfree
        cases hfree
      refine ⟨hne, SameOutside.insert (fun q _ => by rw [hs]) (parent_concat _ _), ?_⟩
      rw [Dict.lookup_insert, if_neg hne, hs]
      exact hstanding
  refine Triple.onError (F := StillThere env req found prior) ?_ ?_
  · refine Triple.bind (R := fun _ => Untouched req found prior s₀) ?_ fun _ => ?_
    · refine (fillStage_keeps fun s node hs => ⟨hs.outside.insert (parent_concat _ _), ?_⟩).weaken
        (fun s hs => hs) (fun _ s hs => hs) fun s hs => Or.inl hs.standing
      rw [Dict.lookup_insert, if_neg hne]
      exact hs.standing
    refine Triple.bind (R := fun backup => Moved env req found prior s₀ backup) ?_ fun backup => ?_
    · exact (moveToBackup_spec hdir).weaken (fun s hs => hs) (fun _ s hs => hs)
        fun s hs => Or.inl hs.standing
    refine Triple.bind (publishStage_spec hdir backup) fun _ => Triple.pure fun s hs => ?_
    obtain rfl := hs.backup_eq
    exact ⟨rfl, hd, hs⟩
  · refine Triple.of_clean clean_removeFile (fun s hs => hs) fun s a s' hs h => ?_
    obtain ⟨-, -, rfl⟩ := removeFile_eq_ok.mp h
    unfold StillThere
    rw [Dict.lookup_erase, Dict.lookup_erase, if_neg hne,
      if_neg (stagePath_ne_backupPath env found).symm]
    exact hs

/-! ## When the new binary is published over a prior one -/

/-- A prior binary is replaced: it and the source are as the checks want them, the
temporary names are free, and none of the steps up to the publication fails. -/
structure PublishesOver (env : UpdateEnv) (req : UpdateRequest) (s : Disk) : Prop where
  runs : ∀ step, step ∉ [BeginStep.dropTemporary, .moveBack, .dropStage, .syncPublished] →
    env.beginFails step = false
  source : ∃ bytes m, s.lookup req.source = some (.file bytes m)
  directory : ∃ dir, parent req.destination = some dir ∧ isDir s dir = true ∧
    s.lookup (stagePath env dir) = none ∧ s.lookup (backupPath env dir) = none
  prior : ∃ node, s.lookup req.destination = some node ∧ Node.isProtected req node = true

/-- Moving a prior binary aside, when no step of it fails. -/
theorem moveToBackup_run (hprior : s.lookup req.destination = some prior)
    (hfile : prior.isDirectory = false) (hfree : s.lookup (backupPath env dir) = none)
    (hfind : env.beginFails .findExisting = false) (hcreate : env.beginFails .createBackup = false)
    (hmove : env.beginFails .moveToBackup = false) :
    ∃ s', moveToBackup env req dir s = .ok (some (backupPath env dir)) s' ∧
      s'.lookup req.destination = none ∧
      ∀ q, q ≠ req.destination → q ≠ backupPath env dir → s'.lookup q = s.lookup q := by
  have hne : req.destination ≠ backupPath env dir := by
    intro heq
    rw [← heq, hprior] at hfree
    cases hfree
  have hfound : pathExists (env.beginFails .findExisting) req.destination s = .ok true s := by
    simp [pathExists, hfind, hprior]
  have hcreated : createFile (env.beginFails .createBackup) (backupPath env dir) env.temporary s =
      .ok () (s.insert (backupPath env dir) (.file [] env.temporary)) :=
    createFile_eq_ok.mpr ⟨hcreate, hfree, rfl⟩
  -- the name stays reserved when the temporary file cannot be removed
  have hreserved : ∀ s', after (removeFile (env.beginFails .dropTemporary) (backupPath env dir))
      (s.insert (backupPath env dir) (.file [] env.temporary)) = s' →
      isDir s' (backupPath env dir) = false ∧
        ∀ q, q ≠ backupPath env dir → s'.lookup q = s.lookup q := by
    rintro s' rfl
    refine Triple.after (Triple.of_clean (P := fun s' => isDir s' (backupPath env dir) = false ∧
      ∀ q, q ≠ backupPath env dir → s'.lookup q = s.lookup q) clean_removeFile
      (fun s hs => hs) fun s₁ a s₂ hs h => ?_) ⟨isDir_insert_self _ _ _, fun q hq => ?_⟩
    · obtain ⟨-, -, rfl⟩ := removeFile_eq_ok.mp h
      refine ⟨isDir_erase_self _ _, fun q hq => ?_⟩
      rw [Dict.lookup_erase, if_neg hq, hs.2 q hq]
    · rw [Dict.lookup_insert, if_neg hq]
  obtain ⟨hnodir, hrest⟩ := hreserved _ rfl
  have hmoved : rename (env.beginFails .moveToBackup) req.destination (backupPath env dir) _ =
      .ok () _ :=
    rename_eq_ok.mpr ⟨hmove, hnodir, prior, (hrest _ hne).trans hprior, hfile, rfl⟩
  have hrun := (bind_of_ok (f := fun _ : Unit => rename (env.beginFails .moveToBackup)
    req.destination (backupPath env dir) >>= fun _ => pure (some (backupPath env dir)))
    ignoring_all).trans
    (bind_of_ok (f := fun _ : Unit => pure (some (backupPath env dir))) hmoved)
  refine ⟨_, (bind_of_ok hfound).trans ((bind_of_ok hcreated).trans hrun), ?_, fun q hq hqb => ?_⟩
  · rw [Dict.lookup_insert, if_neg hne, Dict.lookup_erase, if_pos rfl]
  · rw [Dict.lookup_insert, if_neg hqb, Dict.lookup_erase, if_neg hq, hrest q hqb]

/-- What an update value over a prior binary says about the steps and the paths. -/
theorem publishesOver_of_publishUpdate (hprior : s.lookup req.destination = some prior)
    {u : UnixProtectedBinaryUpdate} {s' : Disk} (h : publishUpdate env req s = .ok u s') :
    PublishesOver env req s := by
  obtain ⟨dir, _, hpaths, h₁⟩ := bind_eq_ok.mp h
  obtain ⟨rfl, hdir, ⟨hsource, -⟩, ⟨hparent, hd⟩, hdest, hprotected⟩ :=
    inspectPaths_eq_ok.mp hpaths
  obtain ⟨bytes, _, hopen, h₂⟩ := bind_eq_ok.mp h₁
  obtain ⟨rfl, hopened, hinspected, m, hnode⟩ := openSource_eq_ok.mp hopen
  obtain ⟨_, _, hstage, h₃⟩ := bind_eq_ok.mp h₂
  obtain ⟨hcreate, hfree, rfl⟩ := createFile_eq_ok.mp hstage
  obtain ⟨_, _, hfill, h₄⟩ := bind_eq_ok.mp (onError_eq_ok.mp h₃)
  obtain ⟨hfilled, rfl⟩ := (fillStage_eq_ok (AList.lookup_insert _)).mp hfill
  rw [AList.insert_insert] at h₄
  obtain ⟨backup, s₁, hbackup, h₅⟩ := bind_eq_ok.mp h₄
  obtain ⟨_, _, hpublish, -⟩ := bind_eq_ok.mp h₅
  obtain ⟨habsent, hpublish⟩ := renameNoClobber_eq_ok.mp (onError_eq_ok.mp hpublish)
  have hpublished := (rename_eq_ok.mp hpublish).1
  have hne : req.destination ≠ stagePath env dir := by
    intro heq
    rw [← heq, hprior] at hfree
    cases hfree
  obtain ⟨found, s₂, hfound, hbackup⟩ := bind_eq_ok.mp hbackup
  obtain ⟨rfl, rfl⟩ := EStateM.Result.ok.inj hfound
  rw [Dict.lookup_insert, if_neg hne, hprior] at hbackup
  cases hfind : env.beginFails .findExisting with
  | true =>
    -- the prior binary is overlooked, and the publication refuses to replace it
    rw [hfind] at hbackup
    obtain ⟨-, rfl⟩ := pure_eq_ok.mp hbackup
    rw [Dict.lookup_insert, if_neg hne, hprior] at habsent
    cases habsent
  | false =>
    rw [hfind] at hbackup
    obtain ⟨_, _, hreserve, hbackup⟩ := bind_eq_ok.mp hbackup
    obtain ⟨hreserved, hname, rfl⟩ := createFile_eq_ok.mp hreserve
    rw [Dict.lookup_insert, if_neg (stagePath_ne_backupPath env dir).symm] at hname
    obtain ⟨_, _, -, hbackup⟩ := bind_eq_ok.mp hbackup
    obtain ⟨_, _, hmove, -⟩ := bind_eq_ok.mp hbackup
    have hmoved := (rename_eq_ok.mp hmove).1
    simp only [List.forall_mem_cons] at hfilled
    obtain ⟨hcopy, hsync, hrewind, hhash, hmode, hown, hmeta, -⟩ := hfilled
    refine ⟨fun step hstep => ?_, ⟨bytes, m, hnode⟩, ⟨dir, hdir, hd, hfree, hname⟩, prior,
      hprior, hprotected prior hprior⟩
    cases step <;> first | assumption | exact absurd hstep (by simp)

/-- When no step fails, the update value over a prior binary comes into being. -/
theorem PublishesOver.publishUpdate (h : PublishesOver env req s) :
    ∃ u s', Wakezilla.publishUpdate env req s = .ok u s' := by
  obtain ⟨hruns, ⟨bytes, m, hsource⟩, ⟨dir, hdir, hd, hstage, hbackup⟩, node, hnode, hprotected⟩ :=
    h
  have hpaths : inspectPaths env req s = .ok dir s := by
    refine inspectPaths_eq_ok.mpr ⟨rfl, hdir, ⟨hruns _ (by simp), _, hsource, rfl⟩,
      ⟨hruns _ (by simp), hd⟩, hruns _ (by simp), fun node' hnode' => ?_⟩
    rwa [Option.some.inj (hnode'.symm.trans hnode)]
  have hopen : openSource env req s = .ok bytes s :=
    openSource_eq_ok.mpr ⟨rfl, hruns _ (by simp), hruns _ (by simp), m, hsource⟩
  have hcreate : createFile (env.beginFails .createStage) (stagePath env dir) env.temporary s =
      .ok () _ := createFile_eq_ok.mpr ⟨hruns _ (by simp), hstage, rfl⟩
  have hsteps : ∀ step ∈ [BeginStep.copy, .syncStage, .rewind, .verifyHash, .setPermissions,
      .chown, .syncMetadata], env.beginFails step = false := by
    intro step hstep
    refine hruns step ?_
    revert hstep
    cases step <;> simp
  have hfill : fillStage env req (stagePath env dir) bytes
      (s.insert (stagePath env dir) (.file [] env.temporary)) = .ok () _ :=
    (fillStage_eq_ok (AList.lookup_insert _)).mpr ⟨hsteps, rfl⟩
  have hne : req.destination ≠ stagePath env dir := by
    intro heq
    rw [← heq, hnode] at hstage
    cases hstage
  have hfile : node.isDirectory = false := by
    cases node with
    | file bytes m => rfl
    | directory m => cases hprotected
    | other => rfl
  have hother : ∀ q, q ≠ stagePath env dir → ∀ n n' : Node FileMetadata,
      ((s.insert (stagePath env dir) n).insert (stagePath env dir) n').lookup q =
        s.lookup q := by
    intro q hq n n'
    rw [Dict.lookup_insert, if_neg hq, Dict.lookup_insert, if_neg hq]
  obtain ⟨s₁, hmove, habsent, hrest⟩ := moveToBackup_run
    ((hother _ hne (.file [] env.temporary)
      (.file bytes ⟨req.ownerUid, req.ownerGid, 0o755⟩)).trans hnode) hfile
    ((hother _ (stagePath_ne_backupPath env dir).symm _ _).trans hbackup)
    (hruns .findExisting (by simp)) (hruns .createBackup (by simp))
    (hruns .moveToBackup (by simp))
  have hstaged := hrest _ hne.symm (stagePath_ne_backupPath env dir)
  rw [AList.lookup_insert] at hstaged
  have hpublish : renameNoClobber (env.beginFails .publish) (stagePath env dir)
      req.destination s₁ = .ok () _ := renameNoClobber_eq_ok.mpr ⟨habsent, rename_eq_ok.mpr
    ⟨hruns .publish (by simp), isDir_of_none habsent, _, hstaged, rfl, rfl⟩⟩
  refine ⟨_, _, bind_eq_ok.mpr ⟨_, _, hpaths, bind_eq_ok.mpr ⟨_, _, hopen, bind_eq_ok.mpr
    ⟨_, _, hcreate, onError_eq_ok.mpr (bind_eq_ok.mpr ⟨_, _, hfill, bind_eq_ok.mpr
    ⟨_, _, hmove, bind_eq_ok.mpr ⟨_, _, onError_eq_ok.mpr hpublish, rfl⟩⟩⟩)⟩⟩⟩⟩

/-- Over a prior binary, the update value comes into being exactly when
`PublishesOver` holds. -/
theorem publishUpdate_ok_iff (hprior : s.lookup req.destination = some prior) :
    (∃ u s', publishUpdate env req s = .ok u s') ↔ PublishesOver env req s :=
  ⟨fun ⟨_, _, h⟩ => publishesOver_of_publishUpdate hprior h, fun h => h.publishUpdate⟩

/-- Without a prior binary, the update value has no backup. -/
theorem publishUpdate_absent (habsent : s.lookup req.destination = none)
    {u : UnixProtectedBinaryUpdate} (h : publishUpdate env req s = .ok u s') :
    u.destination = req.destination ∧ u.backup = none ∧
      isDir s' req.destination = false := by
  obtain ⟨dir, _, hpaths, h₁⟩ := bind_eq_ok.mp h
  obtain ⟨rfl, -⟩ := inspectPaths_eq_ok.mp hpaths
  obtain ⟨bytes, _, hopen, h₂⟩ := bind_eq_ok.mp h₁
  obtain ⟨rfl, -⟩ := openSource_eq_ok.mp hopen
  obtain ⟨_, _, hstage, h₃⟩ := bind_eq_ok.mp h₂
  obtain ⟨-, -, rfl⟩ := createFile_eq_ok.mp hstage
  obtain ⟨_, _, hfill, h₄⟩ := bind_eq_ok.mp (onError_eq_ok.mp h₃)
  obtain ⟨-, rfl⟩ := (fillStage_eq_ok (AList.lookup_insert _)).mp hfill
  obtain ⟨backup, s₁, hbackup, h₅⟩ := bind_eq_ok.mp h₄
  obtain ⟨_, _, hpublish, hupdate⟩ := bind_eq_ok.mp h₅
  obtain ⟨rfl, rfl⟩ := pure_eq_ok.mp hupdate
  obtain ⟨hfree, hpublish⟩ := renameNoClobber_eq_ok.mp (onError_eq_ok.mp hpublish)
  obtain ⟨-, -, node, hnode, hfile, rfl⟩ := rename_eq_ok.mp hpublish
  have hne : req.destination ≠ stagePath env dir := by
    intro heq
    rw [heq, hnode] at hfree
    cases hfree
  obtain ⟨found, s₂, hfound, hbackup⟩ := bind_eq_ok.mp hbackup
  obtain ⟨rfl, rfl⟩ := EStateM.Result.ok.inj hfound
  rw [Dict.lookup_insert, if_neg hne, Dict.lookup_insert, if_neg hne, habsent,
    Option.isSome_none, Bool.and_false] at hbackup
  obtain ⟨rfl, -⟩ := pure_eq_ok.mp hbackup
  refine ⟨rfl, rfl, ?_⟩
  rwa [isDir_insert_self]

/-! ## The prior binary survives -/

def HoldsBytes (s : Disk) (p : Path) (bytes : List UInt8) : Prop :=
  ∃ m, s.lookup p = some (.file bytes m)

/-- Unless `commit` reached the removal of the backup, the bytes that stood at the
destination are at the destination or at the backup. -/
def PriorKept (env : UpdateEnv) (req : UpdateRequest) (s : Disk) (o : Outcome) : Prop :=
  ∀ bytes m, s.lookup req.destination = some (.file bytes m) → o.reachedRemoval = false →
    HoldsBytes o.disk req.destination bytes ∨
      ∃ dir, parent req.destination = some dir ∧ HoldsBytes o.disk (backupPath env dir) bytes

/-- A rollback that succeeded left the destination as it was before the update. -/
def RollbackExact (req : UpdateRequest) (s : Disk) (o : Outcome) : Prop :=
  o.rollback = some (.ok ()) → o.disk.lookup req.destination = s.lookup req.destination

/-- The one way to lose the prior binary: the new one is published over it, a
rollback runs (because the flush of the publication failed, or because it was
asked for) and removes the binary it restored. -/
structure RestoredThenRemoved (env : UpdateEnv) (req : UpdateRequest) (createdParent : Bool)
    (ending : Ending) (s : Disk) : Prop where
  publishes : PublishesOver env req s
  rollsBack : env.beginFails .syncPublished = true ∨ ending = .rollback
  removes : RemovesRestored env req.destination
    (createdParent && !env.beginFails .syncPublished) s

section Outcome

variable {u : UnixProtectedBinaryUpdate} {s₁ : Disk}

theorem holdsBytes_of_stillThere {bytes : List UInt8} {m : FileMetadata}
    (hdir : parent req.destination = some dir) (h : StillThere env req dir (.file bytes m) s₁) :
    HoldsBytes s₁ req.destination bytes ∨
      ∃ dir, parent req.destination = some dir ∧ HoldsBytes s₁ (backupPath env dir) bytes := by
  rcases h with hback | hkept
  · exact Or.inl ⟨m, hback⟩
  · exact Or.inr ⟨dir, hdir, m, hkept⟩

theorem priorKept_of_holdsBytes {bytes : List UInt8} {m : FileMetadata} {o : Outcome}
    (hprior : s.lookup req.destination = some (.file bytes m))
    (h : o.reachedRemoval = false → HoldsBytes o.disk req.destination bytes ∨
      ∃ dir, parent req.destination = some dir ∧ HoldsBytes o.disk (backupPath env dir) bytes) :
    PriorKept env req s o := by
  intro bytes' m' hfile hreach
  obtain ⟨rfl, rfl⟩ := Node.file.inj (Option.some.inj (hprior.symm.trans hfile))
  exact h hreach

theorem syncParentDirectory_run {fails : Bool} {path : Path} (hdir : parent path = some dir)
    (hd : isDir s dir = true) :
    syncParentDirectory fails path s = if fails then .error .other s else .ok () s := by
  cases fails with
  | true =>
    unfold syncParentDirectory
    rw [hdir]
    rfl
  | false => exact syncParentDirectory_eq_ok.mpr ⟨rfl, ⟨dir, hdir, isSome_of_isDir hd⟩, rfl⟩

/-- What publishing leaves is laid out for a rollback, whoever created the directory. -/
theorem Published.layout (hdir : parent req.destination = some dir)
    (h : Published env req dir prior s (some (backupPath env dir)) s₁)
    (hd : isDir s dir = true) (createdParent : Bool) :
    Layout ⟨req.destination, some (backupPath env dir), createdParent, false⟩
        (backupPath env dir) dir ∧
      BackedUp ⟨req.destination, some (backupPath env dir), createdParent, false⟩
        (backupPath env dir) dir prior s₁ := by
  refine ⟨⟨rfl, rfl, hdir, parent_concat _ _, h.ne⟩, h.kept, h.removable, ?_⟩
  rw [isDir_congr (h.outside dir fun hpar => ne_of_parent hpar rfl)]
  exact hd

/-- Which later steps fail does not depend on what happened inside the directory. -/
theorem laterStepFails_outside {fails : RollbackStep → Bool} {createdParent : Bool}
    (hdir : parent req.destination = some dir) (h : SameOutside dir s s₁) :
    LaterStepFails fails req.destination createdParent s₁ ↔
      LaterStepFails fails req.destination createdParent s := by
  refine laterStepFails_congr hdir fun top htop => h top fun hcycle => ?_
  exact ne_of_parent_parent htop hcycle rfl

/-- A rollback over a published update keeps its promises unless it removes the
binary it restored. -/
theorem rollback_iff (hdir : parent req.destination = some dir) {bytes : List UInt8}
    {m : FileMetadata} (hprior : s.lookup req.destination = some (.file bytes m))
    (hd : isDir s dir = true)
    (h : Published env req dir (.file bytes m) s (some (backupPath env dir)) s₁)
    (createdParent : Bool) :
    let u : UnixProtectedBinaryUpdate :=
      ⟨req.destination, some (backupPath env dir), createdParent, false⟩
    let o : Outcome := ⟨(u.rollback env s₁).disk, some (u.rollback env s₁).answer, false⟩
    (PriorKept env req s o ∧ RollbackExact req s o) ↔
      ¬ RemovesRestored env req.destination createdParent s := by
  intro u o
  obtain ⟨hL, hB⟩ := h.layout hdir hd createdParent
  have hiff : RemovesRestored env req.destination createdParent s₁ ↔
      RemovesRestored env req.destination createdParent s :=
    ⟨fun hr => ⟨hr.removes, hr.restores, (laterStepFails_outside hdir h.outside).mp hr.laterFails,
      hr.removesAgain⟩, fun hr => ⟨hr.removes, hr.restores,
      (laterStepFails_outside hdir h.outside).mpr hr.laterFails, hr.removesAgain⟩⟩
  rw [← hiff]
  constructor
  · rintro ⟨hkept, -⟩ hlost
    obtain ⟨hdest, hbackup⟩ := UnixProtectedBinaryUpdate.rollback_lost hL hB rfl hlost
    rcases hkept bytes m hprior rfl with ⟨m', hm'⟩ | ⟨dir', hdir', m', hm'⟩
    · rw [hdest] at hm'
      cases hm'
    · obtain rfl := Option.some.inj (hdir'.symm.trans hdir)
      rw [hbackup] at hm'
      cases hm'
  · intro hno
    obtain ⟨hkept, hexact⟩ := UnixProtectedBinaryUpdate.rollback_kept hL hB rfl hno
    refine ⟨priorKept_of_holdsBytes hprior fun _ => holdsBytes_of_stillThere hdir hkept,
      fun hok => ?_⟩
    rw [hprior]
    exact hexact (Option.some.inj hok)

/-- Without a backup, a rollback that answers success leaves no binary. -/
theorem rollback_absent (hbackup : u.backup = none)
    (hremovable : isDir s u.destination = false)
    (hok : (u.rollback env s).answer = .ok ()) :
    (u.rollback env s).disk.lookup u.destination = none := by
  unfold UnixProtectedBinaryUpdate.rollback at hok ⊢
  cases hrun : u.rollbackInner env.rollbackFails s with
  | ok a s' => exact UnixProtectedBinaryUpdate.rollbackInner_absent hbackup hremovable hrun
  | error e s' =>
    rw [hrun] at hok
    cases hok

end Outcome

/-- An update whose paths are refused ends before anything is written. -/
theorem publishUpdate_of_inspectPaths_error {e : ErrorKind} {s₁ : Disk}
    (hpaths : inspectPaths env req s = .error e s₁) : publishUpdate env req s = .error e s := by
  obtain rfl := readOnly_inspectPaths.clean s e s₁ hpaths
  exact bind_of_error hpaths

/-- A path without a directory is refused before anything is written. -/
theorem publishUpdate_error_clean (hdir : parent req.destination = none) {e : ErrorKind} {s₁ : Disk}
    (hpub : publishUpdate env req s = .error e s₁) : s₁ = s := by
  cases hpaths : inspectPaths env req s with
  | ok dir s₂ =>
    rw [(inspectPaths_eq_ok.mp hpaths).2.1] at hdir
    cases hdir
  | error e' s₂ =>
    rw [publishUpdate_of_inspectPaths_error hpaths] at hpub
    exact (EStateM.Result.error.inj hpub).2.symm

/-- **What the beginning of an update can do**: it refuses what cannot be published, and what was
published is an update or, if the last flush fails, rolled back. -/
theorem beginUnixProtectedBinaryUpdateAt_cases (env : UpdateEnv) (req : UpdateRequest)
    (s : Disk) :
    (∃ e s₁, publishUpdate env req s = .error e s₁ ∧
        beginUnixProtectedBinaryUpdateAt env req s = (.refused e, s₁)) ∨
      ∃ u s₁, publishUpdate env req s = .ok u s₁ ∧
        (beginUnixProtectedBinaryUpdateAt env req s = (.update u, s₁) ∨
          ∃ e, beginUnixProtectedBinaryUpdateAt env req s =
            (.rolledBack e (u.rollback env s₁).answer, (u.rollback env s₁).disk)) := by
  unfold beginUnixProtectedBinaryUpdateAt
  cases hpub : publishUpdate env req s with
  | error e s₁ => exact Or.inl ⟨e, s₁, rfl, rfl⟩
  | ok u s₁ =>
    refine Or.inr ⟨u, s₁, rfl, ?_⟩
    dsimp only
    cases hsync : syncParentDirectory (env.beginFails .syncPublished) req.destination s₁ with
    | error e s₂ =>
      obtain rfl := readOnly_syncParentDirectory.clean s₁ e s₂ hsync
      exact Or.inr ⟨e, rfl⟩
    | ok a s₂ =>
      obtain rfl := readOnly_syncParentDirectory.eq_of_ok hsync
      exact Or.inl rfl

/-- A publication that fails leaves the prior binary. -/
theorem priorKept_of_publishUpdate_error {bytes : List UInt8} {m : FileMetadata} {e : ErrorKind}
    {s₁ : Disk} (hprior : s.lookup req.destination = some (.file bytes m))
    (hpub : publishUpdate env req s = .error e s₁) : PriorKept env req s ⟨s₁, none, false⟩ := by
  cases hdir : parent req.destination with
  | some dir =>
    exact priorKept_of_holdsBytes hprior fun _ =>
      holdsBytes_of_stillThere hdir ((publishUpdate_spec hdir hprior s rfl).2 e s₁ hpub)
  | none =>
    obtain rfl := publishUpdate_error_clean hdir hpub
    intro bytes' m' hfile _
    exact Or.inl ⟨m', hfile⟩

/-- The promises about an update over a prior binary. -/
theorem update_over_iff (createdParent : Bool) (ending : Ending) {bytes : List UInt8}
    {m : FileMetadata} (hprior : s.lookup req.destination = some (.file bytes m)) :
    (PriorKept env req s (runUpdate env req createdParent ending s) ∧
      RollbackExact req s (runUpdate env req createdParent ending s)) ↔
      ¬ RestoredThenRemoved env req createdParent ending s := by
  unfold runUpdate beginUnixProtectedBinaryUpdateAt
  cases hpub : publishUpdate env req s with
  | error e s₁ =>
    have hno : ¬ PublishesOver env req s := by
      intro hover
      obtain ⟨u, s', hok⟩ := (publishUpdate_ok_iff hprior).mpr hover
      rw [hpub] at hok
      cases hok
    exact ⟨fun _ h => hno h.publishes,
      fun _ => ⟨priorKept_of_publishUpdate_error hprior hpub, fun h => by cases h⟩⟩
  | ok u s₁ =>
    have hover : PublishesOver env req s := (publishUpdate_ok_iff hprior).mp ⟨u, s₁, hpub⟩
    obtain ⟨dir, hdir, hd, -⟩ := hover.directory
    obtain ⟨rfl, -, hpublished⟩ := (publishUpdate_spec hdir hprior s rfl).1 u s₁ hpub
    have hd₁ := (hpublished.layout hdir hd false).2.directory
    simp only [syncParentDirectory_run hdir hd₁]
    cases hsync : env.beginFails .syncPublished with
    | true =>
      refine (rollback_iff hdir hprior hd hpublished false).trans (not_congr ?_)
      refine ⟨fun h => ⟨hover, Or.inl hsync, ?_⟩, fun h => ?_⟩
      · rwa [hsync, Bool.not_true, Bool.and_false]
      · have hr := h.removes
        rwa [hsync, Bool.not_true, Bool.and_false] at hr
    | false =>
      obtain ⟨hL, hB⟩ := hpublished.layout hdir hd createdParent
      have hnot : ending ≠ .rollback → ¬ RestoredThenRemoved env req createdParent ending s := by
        intro hne h
        rcases h.rollsBack with hfail | hending
        · rw [hsync] at hfail
          cases hfail
        · exact hne hending
      cases ending with
      | commit =>
        refine ⟨fun _ => hnot (by simp), fun _ => ⟨priorKept_of_holdsBytes hprior fun hreach => ?_,
          fun h => by cases h⟩⟩
        exact holdsBytes_of_stillThere hdir
          (UnixProtectedBinaryUpdate.commit_kept hL hB rfl hreach)
      | rollback =>
        refine (rollback_iff hdir hprior hd hpublished createdParent).trans (not_congr ?_)
        refine ⟨fun h => ⟨hover, Or.inr rfl, ?_⟩, fun h => ?_⟩
        · rwa [hsync, Bool.not_false, Bool.and_true]
        · have hr := h.removes
          rwa [hsync, Bool.not_false, Bool.and_true] at hr
      | drop =>
        refine ⟨fun _ => hnot (by simp), fun _ => ⟨priorKept_of_holdsBytes hprior fun _ => ?_,
          fun h => by cases h⟩⟩
        exact holdsBytes_of_stillThere hdir (UnixProtectedBinaryUpdate.drop_kept hL hB rfl)

/-- Where no binary was, a rollback that succeeds leaves none. -/
theorem update_absent (createdParent : Bool) (ending : Ending)
    (habsent : s.lookup req.destination = none) :
    RollbackExact req s (runUpdate env req createdParent ending s) := by
  unfold runUpdate
  rcases beginUnixProtectedBinaryUpdateAt_cases env req s with
    ⟨e, s₁, -, hbegin⟩ | ⟨u, s₁, hpub, hbegin⟩
  · rw [hbegin]
    intro h
    cases h
  · obtain ⟨hdest, hbackup, hremovable⟩ := publishUpdate_absent habsent hpub
    rw [← hdest] at hremovable
    unfold RollbackExact
    rw [habsent]
    rcases hbegin with hbegin | ⟨e, hbegin⟩
    · rw [hbegin, ← hdest]
      cases ending with
      | commit =>
        intro h
        cases h
      | rollback =>
        exact fun h => rollback_absent (u := { u with createdParent }) hbackup hremovable
          (Option.some.inj h)
      | drop =>
        intro h
        cases h
    · rw [hbegin, ← hdest]
      exact fun h => rollback_absent hbackup hremovable (Option.some.inj h)

/-- **A prior binary survives every update, and a successful rollback brings it
back exactly, unless a rollback removes the binary it has just restored.** -/
theorem prior_binary_survives (env : UpdateEnv) (req : UpdateRequest) (createdParent : Bool)
    (ending : Ending) (s : Disk) :
    (PriorKept env req s (runUpdate env req createdParent ending s) ∧
      RollbackExact req s (runUpdate env req createdParent ending s)) ↔
      ¬ RestoredThenRemoved env req createdParent ending s := by
  by_cases hfile : ∃ bytes m, s.lookup req.destination = some (.file bytes m)
  · obtain ⟨bytes, m, hprior⟩ := hfile
    exact update_over_iff createdParent ending hprior
  · have hno : ¬ RestoredThenRemoved env req createdParent ending s := by
      intro h
      obtain ⟨node, hnode, hprotected⟩ := h.publishes.prior
      cases node with
      | file bytes m => exact hfile ⟨bytes, m, hnode⟩
      | directory => cases hprotected
      | other => cases hprotected
    refine ⟨fun _ => hno, fun _ => ⟨fun bytes m h => absurd ⟨bytes, m, h⟩ hfile, ?_⟩⟩
    cases hnode : s.lookup req.destination with
    | none => exact update_absent createdParent ending hnode
    | some node =>
      -- anything but a protected file at the destination is refused
      unfold runUpdate
      rcases beginUnixProtectedBinaryUpdateAt_cases env req s with
        ⟨e, s₁, -, hbegin⟩ | ⟨u, s₁, hpub, -⟩
      · rw [hbegin]
        intro h
        cases h
      · obtain ⟨dir, s₂, hpaths, -⟩ := bind_eq_ok.mp hpub
        have hprotected := (inspectPaths_eq_ok.mp hpaths).2.2.2.2.2 node hnode
        cases node with
        | file bytes m => exact absurd ⟨bytes, m, hnode⟩ hfile
        | directory => cases hprotected
        | other => cases hprotected

/-! ### A rollback that loses the prior binary -/

/-- A new client binary is installed over the one in the protected directory. -/
def clientUpgrade : UpdateRequest where
  source := ["home", "wakezilla"]
  destination := ["opt", "wakezilla", "wakezilla-client"]
  ownerUid := 0
  ownerGid := 0

def installedDisk : Disk :=
  ([(["home", "wakezilla"], .file [2] ⟨1000, 1000, 0o755⟩), (["opt"], .directory ⟨0, 0, 0o755⟩),
    (["opt", "wakezilla"], .directory ⟨0, 0, 0o755⟩),
    (["opt", "wakezilla", "wakezilla-client"], .file [1] ⟨0, 0, 0o755⟩)] :
    List (Path × Node FileMetadata)).foldr (fun entry s => s.insert entry.1 entry.2) ∅

/-- Nothing fails but the flush after the restoring rename. -/
def restoredFlushFails : UpdateEnv where
  beginFails := fun _ => false
  commitFails := fun _ => false
  rollbackFails := fun step => step = .syncRestored
  dropFails := fun _ => false
  stageSuffix := "a1b2c3"
  backupSuffix := "d4e5f6"
  temporary := ⟨0, 0, 0o600⟩

/-- The rollback restores the prior binary, its flush fails, and the `Drop` of the
update removes the restored binary: it is neither at the destination nor at the
backup. -/
theorem restored_binary_removed :
    ¬ ∀ env req createdParent ending s,
      PriorKept env req s (runUpdate env req createdParent ending s) ∧
        RollbackExact req s (runUpdate env req createdParent ending s) := by
  intro h
  rcases (h restoredFlushFails clientUpgrade false .rollback installedDisk).1 [1] ⟨0, 0, 0o755⟩
    (by decide) (by decide) with ⟨m, hm⟩ | ⟨dir, hdir, m, hm⟩
  · have hgone : (runUpdate restoredFlushFails clientUpgrade false .rollback
        installedDisk).disk.lookup clientUpgrade.destination = none := by decide
    rw [hgone] at hm
    cases hm
  · obtain rfl : ["opt", "wakezilla"] = dir := Option.some.inj hdir
    have hgone : (runUpdate restoredFlushFails clientUpgrade false .rollback
        installedDisk).disk.lookup (backupPath restoredFlushFails ["opt", "wakezilla"]) = none := by
      decide
    rw [hgone] at hm
    cases hm

end Wakezilla
