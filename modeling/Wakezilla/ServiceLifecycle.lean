/-
# Managing the installed services on Linux

Besides `install`, `src/service.rs` starts, stops, restarts and removes the service of a
mode.  Starting and restarting first ask whether the unit is the canonical one and the
binary is protected; removing takes the unit and the binary away and leaves everything else.

* `uninstall_takes_its_own` : what a removal does to the disk, and when it succeeds;
* `others_untouched` : over whole runs, what is done to one mode leaves the other alone;
* `installed_starts` : an installed service can be started and removed after any such run;
* `uninstallAll_ok` : nothing is left of either mode, and the modes that were found are named.
-/
import Wakezilla.ProtectedPath
import Wakezilla.Setup
import Wakezilla.Library.Run

namespace Wakezilla

open FileSystem Fallible Run

namespace Lifecycle

/-! ## Removing a service -/

/-- The fallible steps of `uninstall` on Linux. -/
inductive RemovalStep
  | removeDescriptor | inspectDirectory | inspectBinary | removeBinary | removeDirectory
  deriving DecidableEq

/-- What the environment chooses for a removal.  The calls of `systemctl` other than
`daemon-reload` are made without a look at their outcome. -/
structure RemovalEnv where
  fails : RemovalStep → Bool
  daemonReloadFails : Option String

/-- `remove_file_if_exists`. -/
def removeFileIfExists (fails : Bool) (path : Path) : Setup Unit :=
  mapError (fun _ => ["removing " ++ displayPath path])
    (ignoring (fun e => e = .notFound) (removeFile fails path : DiskIo Unit))

/-- `symlink_metadata`, where nothing being there is no error. -/
def probe (fails : Bool) (path : Path) : DiskIo (Option (Node FileMetadata)) :=
  recovering (fun e => e = .notFound) (pure none)
    (do
      let node ← symlinkMetadata fails path
      pure (some node))

/-- The removal of the binary in `remove_unix_protected_binary_at`. -/
def removeBinaryFile (env : RemovalEnv) (binary : Path) (ownerUid ownerGid : ℕ) :
    Setup Unit := do
  let found ← mapError (fun _ => ["inspecting service binary " ++ displayPath binary])
    (probe (env.fails .inspectBinary) binary)
  match found with
  | some node => do
    require (Node.isProtected ⟨[], binary, ownerUid, ownerGid⟩ node)
      ["refusing to remove unsafe or foreign protected service binary " ++ displayPath binary]
    mapError (fun _ => ["removing protected service binary " ++ displayPath binary])
      (removeFile (env.fails .removeBinary) binary : DiskIo Unit)
  | none => pure ()

/-- The removal of an empty directory in `remove_unix_protected_binary_at`. -/
def removeEmptyDirectory (env : RemovalEnv) (dir : Path) : Setup Unit :=
  mapError (fun _ => ["removing empty service directory " ++ displayPath dir])
    (ignoring (fun e => e = .notFound || e = .directoryNotEmpty)
      (removeDir (env.fails .removeDirectory) dir : DiskIo Unit))

/-- `remove_unix_protected_binary_at`. -/
def removeUnixProtectedBinaryAt (env : RemovalEnv) (binary : Path) (removeParentIfEmpty : Bool)
    (ownerUid ownerGid : ℕ) : Setup Unit := do
  removeBinaryFile env binary ownerUid ownerGid
  if removeParentIfEmpty then
    match parent binary with
    | some dir => removeEmptyDirectory env dir
    | none => pure ()

/-- `remove_protected_service_binary`. -/
def removeProtectedServiceBinary (env : RemovalEnv) (mode : Mode) : Setup Unit := do
  let found ← mapError
    (fun _ => ["inspecting protected service directory " ++ displayPath serviceDirectory])
    (probe (env.fails .inspectDirectory) serviceDirectory)
  match found with
  | none => pure ()
  | some node => do
    require node.isDirectory
      ["protected service directory " ++ displayPath serviceDirectory ++
        " must be a real directory"]
    removeUnixProtectedBinaryAt env (linuxServiceBinaryPath mode) true 0 0

/-- `run` for a call of `systemctl`; `failure` is the text of its error. -/
def runSystemctl (failure : Option String) : Setup Unit :=
  match failure with
  | some text => throw [text]
  | none => pure ()

/-- `uninstall`.  On Linux `remove_firewall` has nothing to do. -/
def uninstall (env : RemovalEnv) (mode : Mode) : Setup Unit := do
  removeFileIfExists (env.fails .removeDescriptor) (descriptorPath mode)
  runSystemctl env.daemonReloadFails
  removeProtectedServiceBinary env mode

/-- `is_installed`.  `Path::exists` counts a descriptor as missing if it cannot be read, or if it
is a link that leads nowhere; `fails` says whether that is so. -/
def isInstalled (fails : Bool) (mode : Mode) : Setup Bool :=
  mapError (fun _ => []) (pathExists fails (descriptorPath mode) : DiskIo Bool)

/-- `managed_modes`. -/
def managedModes : List Mode := [.proxy, .client]

/-- The loop of `uninstall_all`. -/
def uninstallModes (env : Mode → RemovalEnv) (probeFails : Mode → Bool) :
    List Mode → List Mode → Setup (List Mode)
  | [], removed => pure removed
  | mode :: rest, removed => do
    let wasInstalled ← isInstalled (probeFails mode) mode
    mapError (fun contexts => ("failed to uninstall " ++ mode.subcommand) :: contexts)
      (uninstall (env mode) mode)
    uninstallModes env probeFails rest (if wasInstalled then removed ++ [mode] else removed)

/-- `uninstall_all`: the modes that were installed. -/
def uninstallAll (env : Mode → RemovalEnv) (probeFails : Mode → Bool) : Setup (List Mode) :=
  uninstallModes env probeFails managedModes []

/-! ## Starting and stopping -/

/-- `ensure_service_uses_protected_binary`. -/
def ensureServiceUsesProtectedBinary (env : InstallEnv) (mode : Mode) : Setup Unit :=
  mapError (fun _ => ["run `wakezilla setup --mode " ++ mode.serviceArg ++
    " --port <port> --yes` to migrate " ++ mode.subcommand ++ " to the protected binary"])
    (validateUnixServiceFilesAt env mode)

/-- `start`. -/
def start (env : InstallEnv) (mode : Mode) (failure : Option String) : Setup Unit := do
  ensureServiceUsesProtectedBinary env mode
  runSystemctl failure

/-- `stop`. -/
def stop (failure : Option String) : Setup Unit := runSystemctl failure

/-! ## What a removal does -/

section Removal

variable {env : RemovalEnv} {mode : Mode} {s s' : Disk} {r : Path}

theorem probe_run (fails : Bool) (path : Path) (s : Disk) :
    probe fails path s = if fails then .error .other s else .ok (s.lookup path) s := by
  cases fails with
  | true => rfl
  | false =>
    unfold probe recovering
    cases hlookup : s.lookup path with
    | none =>
      rw [bind_of_error (symlinkMetadata_missing hlookup)]
      rfl
    | some node =>
      rw [bind_of_ok (symlinkMetadata_eq_ok.mpr ⟨rfl, hlookup, rfl⟩)]
      rfl

theorem probe_eq_ok {fails : Bool} {path : Path} {found : Option (Node FileMetadata)} :
    probe fails path s = .ok found s' ↔ fails = false ∧ s.lookup path = found ∧ s' = s := by
  rw [probe_run]
  cases fails <;> simp [eq_comm]

theorem readOnly_probe {fails : Bool} {path : Path} : ReadOnly (probe fails path) := by
  intro s
  rw [after, probe_run]
  cases fails <;> rfl

theorem readOnly_runSystemctl {failure : Option String} : ReadOnly (runSystemctl failure) := by
  cases failure with
  | none => exact ReadOnly.pure
  | some text => exact ReadOnly.throw

theorem runSystemctl_eq_ok {failure : Option String} {a : Unit} :
    runSystemctl failure s = .ok a s' ↔ failure = none ∧ s' = s := by
  cases failure with
  | none => exact pure_eq_ok.trans (by simp)
  | some text => exact ⟨fun h => (by cases h), fun h => (by cases h.1)⟩

/-- The removal of what is no directory. -/
theorem removeFileIfExists_eq_ok {fails : Bool} {path : Path} {a : Unit}
    (h : removeFileIfExists fails path s = .ok a s') :
    fails = false ∧ isDir s path = false ∧
      ∀ q, s'.lookup q = if q = path then none else s.lookup q := by
  have hrun := mapError_eq_ok.mp h
  cases hdir : isDir s path with
  | true =>
    rw [ignoring, removeFile_directory fails hdir] at hrun
    cases hrun
  | false =>
    rcases removePresent_run fails hdir with ⟨-, herror⟩ | ⟨hfails, s₁, hok, hlookup⟩
    · rw [herror] at hrun
      cases hrun
    · rw [hok] at hrun
      obtain ⟨-, rfl⟩ := EStateM.Result.ok.inj hrun
      exact ⟨hfails, rfl, hlookup⟩

theorem removeFileIfExists_preserves {fails : Bool} {path : Path} (h : r ≠ path) :
    Preserves (fun s : Disk => s.lookup r) (removeFileIfExists fails path) :=
  (removeFile_preserves h).ignoring.mapError

/-- The binary is removed only if it is protected. -/
theorem removeBinaryFile_eq_ok {binary : Path} {a : Unit}
    (h : removeBinaryFile env binary 0 0 s = .ok a s') :
    (s.lookup binary = none ∧ s' = s) ∨
      ∃ node, s.lookup binary = some node ∧
        Node.isProtected ⟨[], binary, 0, 0⟩ node = true ∧ s' = s.erase binary := by
  obtain ⟨found, s₁, hprobe, hrest⟩ := bind_eq_ok.mp h
  obtain ⟨-, hfound, rfl⟩ := probe_eq_ok.mp (mapError_eq_ok.mp hprobe)
  cases found with
  | none =>
    obtain ⟨-, rfl⟩ := pure_eq_ok.mp hrest
    exact Or.inl ⟨hfound, rfl⟩
  | some node =>
    obtain ⟨_, s₂, hrequire, hremove⟩ := bind_eq_ok.mp hrest
    obtain ⟨hprotected, rfl⟩ := require_eq_ok.mp hrequire
    obtain ⟨-, -, rfl⟩ := removeFile_eq_ok.mp (mapError_eq_ok.mp hremove)
    exact Or.inr ⟨node, hfound, hprotected, rfl⟩

theorem removeBinaryFile_preserves {binary : Path} {ownerUid ownerGid : ℕ} (h : r ≠ binary) :
    Preserves (fun s : Disk => s.lookup r) (removeBinaryFile env binary ownerUid ownerGid) := by
  unfold removeBinaryFile
  refine readOnly_probe.mapError.preserves.bind fun found _ _ _ => ?_
  cases found with
  | none => exact ReadOnly.pure.preserves
  | some node =>
    exact ReadOnly.require.preserves.bind fun _ _ _ _ => (removeFile_preserves h).mapError

theorem clean_removeBinaryFile {binary : Path} {ownerUid ownerGid : ℕ} :
    Clean (removeBinaryFile env binary ownerUid ownerGid) := by
  refine Clean.bind_readOnly readOnly_probe.mapError fun found => ?_
  cases found with
  | none => exact ReadOnly.pure.clean
  | some node => exact Clean.bind_readOnly ReadOnly.require fun _ => clean_removeFile.mapError

/-- A binary that is not protected stays. -/
theorem removeBinaryFile_keeps {binary : Path} {node : Node FileMetadata}
    (hforeign : Node.isProtected ⟨[], binary, 0, 0⟩ node = false) :
    Keeps (fun s : Disk => s.lookup binary = some node) (removeBinaryFile env binary 0 0) := by
  intro s hs
  cases hrun : removeBinaryFile env binary 0 0 s with
  | ok a s' =>
    rw [after_of_ok hrun]
    rcases removeBinaryFile_eq_ok hrun with ⟨hnone, -⟩ | ⟨node', hnode, hprotected, -⟩
    · rw [hs] at hnone
      cases hnone
    · rw [hs] at hnode
      rw [← Option.some.inj hnode, hforeign] at hprotected
      cases hprotected
  | error contexts s' =>
    rw [after_of_error hrun, clean_removeBinaryFile s contexts s' hrun]
    exact hs

/-- Whether a directory holds anything. -/
def Occupied (dir : Path) (s : Disk) : Prop := ∃ q, parent q = some dir ∧ (s.lookup q).isSome

/-- An empty directory is removed, another one stays. -/
theorem removeEmptyDirectory_eq_ok {dir : Path} {a : Unit} (hdir : isDir s dir = true)
    (h : removeEmptyDirectory env dir s = .ok a s') :
    (Occupied dir s → s' = s) ∧ (¬ Occupied dir s → s' = s.erase dir) := by
  have hrun := mapError_eq_ok.mp h
  constructor
  · rintro ⟨q, hparent, hq⟩
    obtain ⟨node, hnode⟩ := Option.isSome_iff_exists.mp hq
    rw [ignoring, removeDir_occupied (env.fails .removeDirectory) hdir hnode hparent] at hrun
    cases hfails : env.fails .removeDirectory <;> rw [hfails] at hrun
    · exact (EStateM.Result.ok.inj hrun).2.symm
    · cases hrun
  · intro hempty
    have hnone : ∀ q, parent q = some dir → s.lookup q = none := fun q hq =>
      Option.not_isSome_iff_eq_none.mp fun hsome => hempty ⟨q, hq, hsome⟩
    cases hfails : env.fails .removeDirectory <;> rw [hfails] at hrun
    · rw [ignoring, removeDir_empty hdir hnone] at hrun
      exact (EStateM.Result.ok.inj hrun).2.symm
    · cases hrun

theorem removeEmptyDirectory_preserves {dir : Path} (h : r ≠ dir) :
    Preserves (fun s : Disk => s.lookup r) (removeEmptyDirectory env dir) :=
  (removeDir_preserves h).ignoring.mapError

theorem parent_descriptorPath_ne (mode : Mode) :
    parent (descriptorPath mode) ≠ some serviceDirectory := by
  rw [parent_descriptorPath]
  decide

theorem descriptorPath_ne_linuxServiceBinaryPath (mode mode' : Mode) :
    descriptorPath mode ≠ linuxServiceBinaryPath mode' := by
  intro h
  have hparent := congrArg parent h
  rw [parent_descriptorPath, parent_linuxServiceBinaryPath] at hparent
  exact absurd hparent (by decide)

theorem descriptorPath_ne_serviceDirectory (mode : Mode) :
    descriptorPath mode ≠ serviceDirectory := by
  cases mode <;> decide

theorem linuxServiceBinaryPath_ne_serviceDirectory (mode : Mode) :
    linuxServiceBinaryPath mode ≠ serviceDirectory :=
  ne_of_parent (parent_linuxServiceBinaryPath mode)

/-- The part of a removal after the descriptor is gone. -/
theorem removeProtectedServiceBinary_preserves (hbinary : r ≠ linuxServiceBinaryPath mode)
    (hdir : r ≠ serviceDirectory) :
    Preserves (fun s : Disk => s.lookup r) (removeProtectedServiceBinary env mode) := by
  unfold removeProtectedServiceBinary removeUnixProtectedBinaryAt
  rw [parent_linuxServiceBinaryPath]
  refine readOnly_probe.mapError.preserves.bind fun found _ _ _ => ?_
  cases found with
  | none => exact ReadOnly.pure.preserves
  | some node =>
    refine ReadOnly.require.preserves.bind fun _ _ _ _ => ?_
    exact (removeBinaryFile_preserves hbinary).bind fun _ _ _ _ =>
      removeEmptyDirectory_preserves hdir

theorem uninstall_preserves (hdescriptor : r ≠ descriptorPath mode)
    (hbinary : r ≠ linuxServiceBinaryPath mode) (hdir : r ≠ serviceDirectory) :
    Preserves (fun s : Disk => s.lookup r) (uninstall env mode) :=
  (removeFileIfExists_preserves hdescriptor).bind fun _ _ _ _ =>
    readOnly_runSystemctl.preserves.bind fun _ _ _ _ =>
      removeProtectedServiceBinary_preserves hbinary hdir

/-- A binary that is not protected stays, whatever fails. -/
theorem uninstall_keeps_foreign {node : Node FileMetadata}
    (hforeign : Node.isProtected ⟨[], linuxServiceBinaryPath mode, 0, 0⟩ node = false) :
    Keeps (fun s : Disk => s.lookup (linuxServiceBinaryPath mode) = some node)
      (uninstall env mode) := by
  have hsame : ∀ s s' : Disk, s'.lookup (linuxServiceBinaryPath mode) =
      s.lookup (linuxServiceBinaryPath mode) → s.lookup (linuxServiceBinaryPath mode) = some node →
      s'.lookup (linuxServiceBinaryPath mode) = some node := fun s s' h hs => h.trans hs
  refine Keeps.bind ?_ fun _ => readOnly_runSystemctl.keeps.bind fun _ => ?_
  · exact (removeFileIfExists_preserves
      (descriptorPath_ne_linuxServiceBinaryPath mode mode).symm).keeps hsame
  unfold removeProtectedServiceBinary removeUnixProtectedBinaryAt
  rw [parent_linuxServiceBinaryPath]
  refine readOnly_probe.mapError.keeps.bind fun found => ?_
  cases found with
  | none => exact ReadOnly.pure.keeps
  | some dir =>
    refine ReadOnly.require.keeps.bind fun _ => (removeBinaryFile_keeps hforeign).bind fun _ => ?_
    exact (removeEmptyDirectory_preserves
      (linuxServiceBinaryPath_ne_serviceDirectory mode)).keeps hsame

theorem occupied_congr {dir : Path} (h : ∀ q, s'.lookup q = s.lookup q) :
    Occupied dir s' ↔ Occupied dir s :=
  exists_congr fun q => by rw [h q]

/-- After the binary is gone, its directory goes if nothing else is in it. -/
theorem removeProtectedServiceBinary_ok {a : Unit}
    (h : removeProtectedServiceBinary env mode s = .ok a s')
    (hdirectory : s.lookup serviceDirectory = none →
      s.lookup (linuxServiceBinaryPath mode) = none) :
    s'.lookup (linuxServiceBinaryPath mode) = none ∧
      (Occupied serviceDirectory (s.erase (linuxServiceBinaryPath mode)) →
        s'.lookup serviceDirectory = s.lookup serviceDirectory) ∧
      (¬ Occupied serviceDirectory (s.erase (linuxServiceBinaryPath mode)) →
        s'.lookup serviceDirectory = none) := by
  obtain ⟨found, s₁, hprobe, hfound⟩ := bind_eq_ok.mp h
  obtain ⟨-, hlookup, rfl⟩ := probe_eq_ok.mp (mapError_eq_ok.mp hprobe)
  cases found with
  | none =>
    obtain ⟨-, rfl⟩ := pure_eq_ok.mp hfound
    exact ⟨hdirectory hlookup, fun _ => rfl, fun _ => hlookup⟩
  | some node =>
    obtain ⟨_, s₂, hrequire, hremove⟩ := bind_eq_ok.mp hfound
    obtain ⟨hisdir, rfl⟩ := require_eq_ok.mp hrequire
    unfold removeUnixProtectedBinaryAt at hremove
    rw [parent_linuxServiceBinaryPath] at hremove
    obtain ⟨_, s₃, hfile, hempty⟩ := bind_eq_ok.mp hremove
    have hs₃ : ∀ q, s₃.lookup q = (s₂.erase (linuxServiceBinaryPath mode)).lookup q := by
      intro q
      rcases removeBinaryFile_eq_ok hfile with ⟨hnone, rfl⟩ | ⟨_, -, -, rfl⟩
      · rw [Dict.lookup_erase]
        split
        · next hq => rw [hq, hnone]
        · rfl
      · rfl
    have hne := linuxServiceBinaryPath_ne_serviceDirectory mode
    have hdir : s₃.lookup serviceDirectory = s₂.lookup serviceDirectory := by
      rw [hs₃, AList.lookup_erase_ne hne.symm]
    have hisdir₃ : isDir s₃ serviceDirectory = true := by
      rw [isDir_congr hdir, isDir_of_some hlookup, hisdir]
    have hbinary : s'.lookup (linuxServiceBinaryPath mode) = none := by
      have hkept := (removeEmptyDirectory_preserves hne).eq_of_ok hempty
      rw [hkept, hs₃, AList.lookup_erase]
    obtain ⟨hstays, hgoes⟩ := removeEmptyDirectory_eq_ok hisdir₃ hempty
    rw [occupied_congr hs₃] at hstays hgoes
    refine ⟨hbinary, fun hocc => ?_, fun hocc => ?_⟩
    · rw [hstays hocc, hdir]
    · rw [hgoes hocc, AList.lookup_erase]

/-- The descriptor does not count for the directory of the binaries. -/
theorem occupied_of_descriptor_removed {q₀ : Path}
    (h : ∀ q, s'.lookup q = if q = descriptorPath mode then none else s.lookup q) :
    Occupied serviceDirectory (s'.erase q₀) ↔ Occupied serviceDirectory (s.erase q₀) := by
  refine exists_congr fun q => and_congr_right fun hparent => ?_
  have hq : q ≠ descriptorPath mode := by
    rintro rfl
    exact parent_descriptorPath_ne mode hparent
  rw [Dict.lookup_erase, Dict.lookup_erase, h q, if_neg hq]

/-- What is left after a removal that succeeds. -/
theorem uninstall_ok {a : Unit} (h : uninstall env mode s = .ok a s')
    (hdirectory : s.lookup serviceDirectory = none →
      s.lookup (linuxServiceBinaryPath mode) = none) :
    s'.lookup (descriptorPath mode) = none ∧ s'.lookup (linuxServiceBinaryPath mode) = none ∧
      (Occupied serviceDirectory (s.erase (linuxServiceBinaryPath mode)) →
        s'.lookup serviceDirectory = s.lookup serviceDirectory) ∧
      (¬ Occupied serviceDirectory (s.erase (linuxServiceBinaryPath mode)) →
        s'.lookup serviceDirectory = none) := by
  obtain ⟨_, s₁, hdescriptor, hrest⟩ := bind_eq_ok.mp h
  obtain ⟨_, s₂, hreload, hbinary⟩ := bind_eq_ok.mp hrest
  obtain ⟨-, rfl⟩ := runSystemctl_eq_ok.mp hreload
  obtain ⟨-, -, hlookup⟩ := removeFileIfExists_eq_ok hdescriptor
  have hdir : s₂.lookup serviceDirectory = s.lookup serviceDirectory := by
    rw [hlookup, if_neg (descriptorPath_ne_serviceDirectory mode).symm]
  have hbin : s₂.lookup (linuxServiceBinaryPath mode) =
      s.lookup (linuxServiceBinaryPath mode) := by
    rw [hlookup, if_neg (descriptorPath_ne_linuxServiceBinaryPath mode mode).symm]
  have hgone : s'.lookup (descriptorPath mode) = s₂.lookup (descriptorPath mode) :=
    (removeProtectedServiceBinary_preserves (descriptorPath_ne_linuxServiceBinaryPath mode mode)
      (descriptorPath_ne_serviceDirectory mode)).eq_of_ok hbinary
  have hspec := removeProtectedServiceBinary_ok hbinary (by rw [hdir, hbin]; exact hdirectory)
  rw [occupied_of_descriptor_removed hlookup, hdir] at hspec
  exact ⟨by rw [hgone, hlookup, if_pos rfl], hspec⟩

/-- No step of a removal fails on its own. -/
def RemovalEnv.Undisturbed (env : RemovalEnv) : Prop :=
  (∀ step, env.fails step = false) ∧ env.daemonReloadFails = none

/-- The directory of the binaries is missing, or it is one and holds no foreign binary. -/
def BinaryRemovable (mode : Mode) (s : Disk) : Prop :=
  s.lookup serviceDirectory = none ∨
    isDir s serviceDirectory = true ∧
      ∀ node, s.lookup (linuxServiceBinaryPath mode) = some node →
        Node.isProtected ⟨[], linuxServiceBinaryPath mode, 0, 0⟩ node = true

/-- What a removal asks of the disk. -/
def Removable (mode : Mode) (s : Disk) : Prop :=
  isDir s (descriptorPath mode) = false ∧ BinaryRemovable mode s

theorem Node.isDirectory_of_isProtected {req : UpdateRequest} {node : Node FileMetadata}
    (h : Node.isProtected req node = true) : node.isDirectory = false := by
  cases node with
  | file bytes m => rfl
  | directory m => cases h
  | other => rfl

theorem removeEmptyDirectory_succeeds {dir : Path} (hfails : env.fails .removeDirectory = false)
    (hdir : isDir s dir = true) : ∃ s', removeEmptyDirectory env dir s = .ok () s' := by
  by_cases hocc : Occupied dir s
  · obtain ⟨q, hparent, hq⟩ := hocc
    obtain ⟨node, hnode⟩ := Option.isSome_iff_exists.mp hq
    refine ⟨s, mapError_eq_ok.mpr ?_⟩
    rw [ignoring, removeDir_occupied _ hdir hnode hparent, hfails]
    rfl
  · have hnone : ∀ q, parent q = some dir → s.lookup q = none := fun q hq =>
      Option.not_isSome_iff_eq_none.mp fun hsome => hocc ⟨q, hq, hsome⟩
    refine ⟨s.erase dir, mapError_eq_ok.mpr ?_⟩
    rw [ignoring, hfails, removeDir_empty hdir hnone]

theorem removeBinaryFile_succeeds {binary : Path} (hfails : ∀ step, env.fails step = false)
    (hprotected : ∀ node, s.lookup binary = some node →
      Node.isProtected ⟨[], binary, 0, 0⟩ node = true) :
    ∃ s', removeBinaryFile env binary 0 0 s = .ok () s' := by
  have hprobe : mapError (fun _ => ["inspecting service binary " ++ displayPath binary])
      (probe (env.fails .inspectBinary) binary) s = .ok (s.lookup binary) s :=
    mapError_eq_ok.mpr (probe_eq_ok.mpr ⟨hfails _, rfl, rfl⟩)
  unfold removeBinaryFile
  rw [bind_of_ok hprobe]
  cases hlookup : s.lookup binary with
  | none => exact ⟨s, rfl⟩
  | some node =>
    refine ⟨s.erase binary, bind_eq_ok.mpr
      ⟨(), s, require_eq_ok.mpr ⟨hprotected node hlookup, rfl⟩, mapError_eq_ok.mpr ?_⟩⟩
    exact removeFile_eq_ok.mpr ⟨hfails _,
      ⟨node, hlookup, Node.isDirectory_of_isProtected (hprotected node hlookup)⟩, rfl⟩

/-- Of the binary a removal touches no other entry than the file. -/
theorem removeBinaryFile_isDir {a : Unit}
    (h : removeBinaryFile env (linuxServiceBinaryPath mode) 0 0 s = .ok a s') :
    isDir s' serviceDirectory = isDir s serviceDirectory :=
  isDir_congr ((removeBinaryFile_preserves
    (linuxServiceBinaryPath_ne_serviceDirectory mode).symm).eq_of_ok h)

theorem removeProtectedServiceBinary_succeeds (hfails : ∀ step, env.fails step = false)
    (h : BinaryRemovable mode s) :
    ∃ s', removeProtectedServiceBinary env mode s = .ok () s' := by
  have hprobe : mapError
      (fun _ => ["inspecting protected service directory " ++ displayPath serviceDirectory])
      (probe (env.fails .inspectDirectory) serviceDirectory) s =
        .ok (s.lookup serviceDirectory) s :=
    mapError_eq_ok.mpr (probe_eq_ok.mpr ⟨hfails _, rfl, rfl⟩)
  unfold removeProtectedServiceBinary
  rw [bind_of_ok hprobe]
  rcases h with hnone | ⟨hdir, hprotected⟩
  · rw [hnone]
    exact ⟨s, rfl⟩
  · obtain ⟨node, hnode, hisdir⟩ := isDir_iff.mp hdir
    obtain ⟨s₁, hfile⟩ := removeBinaryFile_succeeds hfails hprotected
    obtain ⟨s₂, hempty⟩ := removeEmptyDirectory_succeeds (hfails .removeDirectory)
      ((removeBinaryFile_isDir hfile).trans hdir)
    rw [hnode]
    refine ⟨s₂, bind_eq_ok.mpr ⟨(), s, require_eq_ok.mpr ⟨hisdir, rfl⟩, ?_⟩⟩
    unfold removeUnixProtectedBinaryAt
    rw [parent_linuxServiceBinaryPath]
    exact bind_eq_ok.mpr ⟨(), s₁, hfile, hempty⟩

theorem binaryRemovable_of_ok {a : Unit}
    (h : removeProtectedServiceBinary env mode s = .ok a s') : BinaryRemovable mode s := by
  obtain ⟨found, s₁, hprobe, hfound⟩ := bind_eq_ok.mp h
  obtain ⟨-, hlookup, rfl⟩ := probe_eq_ok.mp (mapError_eq_ok.mp hprobe)
  cases found with
  | none => exact Or.inl hlookup
  | some dir =>
    obtain ⟨_, s₂, hrequire, hremove⟩ := bind_eq_ok.mp hfound
    obtain ⟨hisdir, rfl⟩ := require_eq_ok.mp hrequire
    refine Or.inr ⟨(isDir_of_some hlookup).trans hisdir, fun node hnode => ?_⟩
    unfold removeUnixProtectedBinaryAt at hremove
    rw [parent_linuxServiceBinaryPath] at hremove
    obtain ⟨_, s₃, hfile, -⟩ := bind_eq_ok.mp hremove
    rcases removeBinaryFile_eq_ok hfile with ⟨hnone, -⟩ | ⟨node', hnode', hprotected, -⟩
    · rw [hnode] at hnone
      cases hnone
    · rw [← Option.some.inj (hnode'.symm.trans hnode)]
      exact hprotected

theorem binaryRemovable_congr (hdir : s'.lookup serviceDirectory = s.lookup serviceDirectory)
    (hbinary : s'.lookup (linuxServiceBinaryPath mode) = s.lookup (linuxServiceBinaryPath mode)) :
    BinaryRemovable mode s' ↔ BinaryRemovable mode s := by
  unfold BinaryRemovable
  rw [hdir, hbinary, isDir_congr hdir]

/-- The unit goes first, which the directory of the binaries does not notice. -/
theorem binaryRemovable_of_descriptor_removed
    (h : ∀ q, s'.lookup q = if q = descriptorPath mode then none else s.lookup q) :
    BinaryRemovable mode s' ↔ BinaryRemovable mode s := by
  apply binaryRemovable_congr
  · rw [h, if_neg (descriptorPath_ne_serviceDirectory mode).symm]
  · rw [h, if_neg (descriptorPath_ne_linuxServiceBinaryPath mode mode).symm]

/-- **When a removal succeeds**, if no step fails on its own. -/
theorem uninstall_succeeds_iff (henv : env.Undisturbed) :
    (∃ s', uninstall env mode s = .ok () s') ↔ Removable mode s := by
  constructor
  · rintro ⟨s', h⟩
    obtain ⟨_, s₁, hdescriptor, hrest⟩ := bind_eq_ok.mp h
    obtain ⟨_, s₂, hreload, hbinary⟩ := bind_eq_ok.mp hrest
    obtain ⟨-, rfl⟩ := runSystemctl_eq_ok.mp hreload
    obtain ⟨-, hnodir, hlookup⟩ := removeFileIfExists_eq_ok hdescriptor
    exact ⟨hnodir, (binaryRemovable_of_descriptor_removed hlookup).mp
      (binaryRemovable_of_ok hbinary)⟩
  · rintro ⟨hnodir, hbinary⟩
    rcases removePresent_run (env.fails .removeDescriptor) hnodir with
      ⟨hfails, -⟩ | ⟨-, s₁, hremoved, hlookup⟩
    · rw [henv.1] at hfails
      cases hfails
    · obtain ⟨s₂, hrest⟩ := removeProtectedServiceBinary_succeeds henv.1
        ((binaryRemovable_of_descriptor_removed hlookup).mpr hbinary)
      refine ⟨s₂, bind_eq_ok.mpr ⟨(), s₁, mapError_eq_ok.mpr hremoved, ?_⟩⟩
      exact bind_eq_ok.mpr ⟨(), s₁, runSystemctl_eq_ok.mpr ⟨henv.2, rfl⟩, hrest⟩

/-- **A removal takes the unit and the protected binary of its mode, and nothing else.**  The
files are those that the program itself touches; the service manager has its own. -/
theorem uninstall_takes_its_own (env : RemovalEnv) (mode : Mode) (s : Disk) :
    (∀ r, r ≠ descriptorPath mode → r ≠ linuxServiceBinaryPath mode → r ≠ serviceDirectory →
      (after (uninstall env mode) s).lookup r = s.lookup r) ∧
    (∀ node, s.lookup (linuxServiceBinaryPath mode) = some node →
      Node.isProtected ⟨[], linuxServiceBinaryPath mode, 0, 0⟩ node = false →
      (after (uninstall env mode) s).lookup (linuxServiceBinaryPath mode) = some node) ∧
    (∀ s', uninstall env mode s = .ok () s' →
      (s.lookup serviceDirectory = none → s.lookup (linuxServiceBinaryPath mode) = none) →
      s'.lookup (descriptorPath mode) = none ∧ s'.lookup (linuxServiceBinaryPath mode) = none ∧
        (Occupied serviceDirectory (s.erase (linuxServiceBinaryPath mode)) →
          s'.lookup serviceDirectory = s.lookup serviceDirectory) ∧
        (¬ Occupied serviceDirectory (s.erase (linuxServiceBinaryPath mode)) →
          s'.lookup serviceDirectory = none)) ∧
    (env.Undisturbed → ((∃ s', uninstall env mode s = .ok () s') ↔ Removable mode s)) := by
  refine ⟨fun r hdescriptor hbinary hdir => uninstall_preserves hdescriptor hbinary hdir s,
    fun node hnode hforeign => uninstall_keeps_foreign hforeign s hnode,
    fun s' hok hdirectory => uninstall_ok hok hdirectory, fun henv => ?_⟩
  exact uninstall_succeeds_iff henv

end Removal

/-! ## Two services on one host -/

/-- What is done to the services of a host, with what the environment chooses. -/
inductive ServiceEvent
  | install (env : InstallEnv) (mode : Mode) (source : Path) (port : UInt16)
  | uninstall (env : RemovalEnv) (mode : Mode)
  | start (env : InstallEnv) (mode : Mode) (failure : Option String)
  | stop (failure : Option String)
  | restart (env : InstallEnv) (mode : Mode)

namespace ServiceEvent

/-- The disk after an event, however it ended. -/
def run (s : Disk) : ServiceEvent → Disk
  | install env mode source port => (Wakezilla.install env mode source port s).disk
  | uninstall env mode => after (Lifecycle.uninstall env mode) s
  | start env mode failure => after (Lifecycle.start env mode failure) s
  | stop failure => after (Lifecycle.stop failure) s
  | restart env mode => after (restartService env mode) s

/-- The mode whose files an event is about to write. -/
def target : ServiceEvent → Option Mode
  | install _ mode _ _ => some mode
  | uninstall _ mode => some mode
  | start .. => none
  | stop _ => none
  | restart .. => none

end ServiceEvent

/-- The files of an installed service. -/
def serviceFiles (mode : Mode) : List Path := [descriptorPath mode, linuxServiceBinaryPath mode]

section Isolation

variable {α : Type} {mode mode' : Mode} {s s' : Disk} {r : Path}

theorem descriptorPath_injective : Function.Injective descriptorPath := by
  intro mode mode' h
  cases mode <;> cases mode' <;> first | rfl | exact absurd h (by decide)

theorem linuxServiceBinaryPath_injective : Function.Injective linuxServiceBinaryPath := by
  intro mode mode' h
  cases mode <;> cases mode' <;> first | rfl | exact absurd h (by decide)

theorem linuxServiceBinaryPath_ne_backupPath (env : UpdateEnv) (mode : Mode) :
    linuxServiceBinaryPath mode ≠ backupPath env serviceDirectory := by
  refine concat_ne_of_head ?_
  cases mode <;> simp [Mode.serviceName, String.toList_append]

/-- Neither the temporary names of an update nor its destination are the other binary. -/
theorem unwritten_linuxServiceBinaryPath (env : UpdateEnv) (hne : mode ≠ mode') :
    Unwritten env (linuxServiceBinaryPath mode') (linuxServiceBinaryPath mode) where
  ne_destination h := hne (linuxServiceBinaryPath_injective h)
  ne_parent h := linuxServiceBinaryPath_ne_serviceDirectory mode
    (Option.some.inj (h.symm.trans (parent_linuxServiceBinaryPath mode')))
  ne_stage dir hdir := by
    obtain rfl := Option.some.inj (hdir.symm.trans (parent_linuxServiceBinaryPath mode'))
    exact linuxServiceBinaryPath_ne_stagePath env mode
  ne_backup dir hdir := by
    obtain rfl := Option.some.inj (hdir.symm.trans (parent_linuxServiceBinaryPath mode'))
    exact linuxServiceBinaryPath_ne_backupPath env mode

theorem unwritten_descriptorPath (env : UpdateEnv) (mode mode' : Mode) :
    Unwritten env (linuxServiceBinaryPath mode') (descriptorPath mode) := by
  refine Outside.unwritten ⟨?_, fun h => descriptorPath_ne_serviceDirectory mode ?_⟩
  · rw [parent_linuxServiceBinaryPath]
    exact parent_descriptorPath_ne mode
  · exact Option.some.inj (h.symm.trans (parent_linuxServiceBinaryPath mode'))

theorem linuxServiceBinaryPath_ne_descriptorStage (env : InstallEnv) (mode : Mode) :
    linuxServiceBinaryPath mode ≠ descriptorStage env unitDirectory := by
  intro h
  have hparent := congrArg parent h
  rw [parent_linuxServiceBinaryPath, descriptorStage, parent_concat] at hparent
  exact absurd hparent (by decide)

/-- An installation does not write the files of the other mode. -/
theorem install_other (env : InstallEnv) (source : Path) (port : UInt16) (hne : mode ≠ mode')
    (hr : r ∈ serviceFiles mode) (s : Disk) :
    (Wakezilla.install env mode' source port s).disk.lookup r = s.lookup r := by
  simp only [serviceFiles, List.mem_cons, List.not_mem_nil, or_false] at hr
  rcases hr with rfl | rfl
  · exact install_preserves (unwritten_descriptorPath env.update mode mode')
      (descriptorPath_not_mem mode) (fun h => hne (descriptorPath_injective h))
      (descriptorPath_ne_descriptorStage env mode) s
  · exact install_preserves (unwritten_linuxServiceBinaryPath env.update hne)
      (linuxServiceBinaryPath_not_mem mode)
      (descriptorPath_ne_linuxServiceBinaryPath mode' mode).symm
      (linuxServiceBinaryPath_ne_descriptorStage env mode) s

theorem uninstall_other (env : RemovalEnv) (hne : mode ≠ mode') (hr : r ∈ serviceFiles mode) :
    Preserves (fun s : Disk => s.lookup r) (uninstall env mode') := by
  simp only [serviceFiles, List.mem_cons, List.not_mem_nil, or_false] at hr
  rcases hr with rfl | rfl
  · exact uninstall_preserves (fun h => hne (descriptorPath_injective h))
      (descriptorPath_ne_linuxServiceBinaryPath mode mode')
      (descriptorPath_ne_serviceDirectory mode)
  · exact uninstall_preserves (descriptorPath_ne_linuxServiceBinaryPath mode' mode).symm
      (fun h => hne (linuxServiceBinaryPath_injective h))
      (linuxServiceBinaryPath_ne_serviceDirectory mode)

theorem readOnly_ensureServiceUsesProtectedBinary {env : InstallEnv} :
    ReadOnly (ensureServiceUsesProtectedBinary env mode) :=
  readOnly_validateUnixServiceFilesAt.mapError

theorem readOnly_start {env : InstallEnv} {failure : Option String} :
    ReadOnly (start env mode failure) :=
  readOnly_ensureServiceUsesProtectedBinary.bind fun _ => readOnly_runSystemctl

theorem readOnly_restartService {env : InstallEnv} : ReadOnly (restartService env mode) :=
  readOnly_ensureServiceUsesProtectedBinary.bind fun _ => readOnly_runCommand

/-- Only an event with a target writes. -/
theorem ServiceEvent.run_of_target_none {e : ServiceEvent} (h : e.target = none) (s : Disk) :
    ServiceEvent.run s e = s := by
  cases e with
  | install env mode source port => cases h
  | uninstall env mode => cases h
  | start env mode failure => exact readOnly_start s
  | stop failure => exact readOnly_runSystemctl s
  | restart env mode => exact readOnly_restartService s

theorem ServiceEvent.run_other {e : ServiceEvent} (h : e.target ≠ some mode)
    (hr : r ∈ serviceFiles mode) (s : Disk) :
    (ServiceEvent.run s e).lookup r = s.lookup r := by
  cases htarget : e.target with
  | none => rw [ServiceEvent.run_of_target_none htarget]
  | some mode' =>
    have hne : mode ≠ mode' := by
      rintro rfl
      exact h htarget
    cases e with
    | install env m source port =>
      obtain rfl := Option.some.inj htarget
      exact install_other env source port hne hr s
    | uninstall env m =>
      obtain rfl := Option.some.inj htarget
      exact uninstall_other env hne hr s
    | start env m failure => cases htarget
    | stop failure => cases htarget
    | restart env m => cases htarget

/-- What is neither in the directory of the binaries nor in that of the units, nor leads to the
binaries. -/
def Elsewhere (r : Path) : Prop :=
  parent r ≠ some serviceDirectory ∧ parent r ≠ some unitDirectory ∧
    r ∉ components serviceDirectory

theorem ServiceEvent.run_elsewhere (e : ServiceEvent) (hr : Elsewhere r) (s : Disk) :
    (ServiceEvent.run s e).lookup r = s.lookup r := by
  obtain ⟨hbinary, hunit, hnot⟩ := hr
  have hdir : r ≠ serviceDirectory := by
    rintro rfl
    exact hnot (by decide)
  cases htarget : e.target with
  | none => rw [ServiceEvent.run_of_target_none htarget]
  | some mode =>
    cases e with
    | install env m source port =>
      refine install_elsewhere ⟨?_, fun h => hdir ?_⟩ hnot hunit s
      · rw [parent_linuxServiceBinaryPath]
        exact hbinary
      · exact Option.some.inj (h.symm.trans (parent_linuxServiceBinaryPath m))
    | uninstall env m =>
      refine uninstall_preserves ?_ ?_ hdir s
      · rintro rfl
        exact hunit (parent_descriptorPath m)
      · rintro rfl
        exact hbinary (parent_linuxServiceBinaryPath m)
    | start env m failure => cases htarget
    | stop failure => cases htarget
    | restart env m => cases htarget

/-! ### The directories above -/

/-- A directory that leads to the one of the binaries. -/
def Leads (r : Path) : Prop := r ∈ components serviceDirectory ∧ r ≠ serviceDirectory

/-- The entry is as it was, or a directory has come where nothing was. -/
def Grown (found : Option (Node FileMetadata)) (r : Path) (s : Disk) : Prop :=
  s.lookup r = found ∨ (found = none ∧ isDir s r = true)

theorem Grown.of_eq {found : Option (Node FileMetadata)} (h : Grown found r s)
    (hr : s'.lookup r = s.lookup r) : Grown found r s' :=
  h.imp (fun h => hr.trans h) fun h => ⟨h.1, (isDir_congr hr).trans h.2⟩

theorem preserves_keeps_grown {m : DiskIo α} {found : Option (Node FileMetadata)}
    (hm : Preserves (fun s : Disk => s.lookup r) m) : Keeps (Grown found r) m :=
  hm.keeps fun _ _ hr hs => hs.of_eq hr

/-- A directory of the path is made where nothing is, and changed only after it was made. -/
theorem ensureUnixServiceDirectoryAt_keeps_grown {fails : DirectoryStep → Bool}
    {created : FileMetadata} {uid gid : ℕ} (found : Option (Node FileMetadata)) (r p : Path) :
    Keeps (Grown found r) (ensureUnixServiceDirectoryAt fails created p uid gid) := by
  by_cases hp : r = p
  · subst hp
    cases found with
    | some node =>
      intro s hs
      have hthere : s.lookup r = some node := hs.resolve_right fun h => by cases h.1
      rw [ensureUnixServiceDirectoryAt_of_some hthere]
      exact hs
    | none =>
      refine ensureUnixServiceDirectoryAt_keeps ⟨fun fails m s hs => ?_, fun fails f s hs => ?_⟩
      · cases hrun : createDir fails r m s with
        | ok a s' =>
          obtain ⟨-, -, rfl⟩ := createDir_eq_ok.mp hrun
          rw [after_of_ok hrun]
          exact Or.inr ⟨rfl, isDir_insert_self s _ _⟩
        | error e s' =>
          rw [after_of_error hrun, clean_createDir s e s' hrun]
          exact hs
      · cases hrun : modifyDir fails r f s with
        | ok a s' =>
          obtain ⟨-, m, -, rfl⟩ := modifyDir_eq_ok.mp hrun
          rw [after_of_ok hrun]
          exact Or.inr ⟨rfl, isDir_insert_self s _ _⟩
        | error e s' =>
          rw [after_of_error hrun, clean_modifyDir s e s' hrun]
          exact hs
  · exact preserves_keeps_grown
      (ensureUnixServiceDirectoryAt_preserves (ignoresDirectory_of_ne hp))

theorem Leads.outside (hr : Leads r) : Outside (linuxServiceBinaryPath mode) r := by
  refine ⟨?_, fun h => hr.2 (Option.some.inj (h.symm.trans (parent_linuxServiceBinaryPath mode)))⟩
  rw [parent_linuxServiceBinaryPath]
  have hall : ∀ r ∈ components serviceDirectory, parent r ≠ some serviceDirectory := by decide
  exact hall r hr.1

theorem Leads.parent_ne (hr : Leads r) : parent r ≠ some unitDirectory := by
  have hall : ∀ r ∈ components serviceDirectory, parent r ≠ some unitDirectory := by decide
  exact hall r hr.1

/-- An installation makes the directories that are missing. -/
theorem install_grown (env : InstallEnv) (source : Path) (port : UInt16) (hr : Leads r)
    {found : Option (Node FileMetadata)} (hs : Grown found r s) :
    Grown found r (Wakezilla.install env mode source port s).disk := by
  have hprepare : Keeps (Grown found r) (prepareUnixServiceDirectory env serviceDirectory) :=
    prepareUnixServiceDirectory_keeps (by decide) fun p _ _ =>
      ensureUnixServiceDirectoryAt_keeps_grown found r p
  have hbegun : Grown found r (beginProtectedBinaryUpdate env mode source s).2 := by
    rcases beginProtectedBinaryUpdate_cases env mode source s with
      ⟨e, s₁, hrun, hbegin⟩ | ⟨createdParent, s₁, begun, s₂, hrun, hpublish, hbegin⟩
    · rw [hbegin]
      exact hprepare.of_error hs hrun
    · have hkept : (beginUnixProtectedBinaryUpdateAt env.update (serviceRequest mode source)
          s₁).2.lookup r = s₁.lookup r :=
        beginUnixProtectedBinaryUpdateAt_lookup (parent_linuxServiceBinaryPath mode)
          hr.outside.unwritten s₁
      rw [hpublish] at hkept
      have hs₂ : Grown found r s₂ := (hprepare.of_ok hs hrun).of_eq hkept
      rcases hbegin with ⟨u, -, hbegin⟩ | ⟨-, s₃, hbegin, hother⟩
      · rw [hbegin]
        exact hs₂
      · rw [hbegin]
        exact hs₂.of_eq (hother r hr.2)
  have hsteps : Grown found r (diskAfterSteps env mode source port s) := by
    unfold diskAfterSteps
    rcases hbegin : beginProtectedBinaryUpdate env mode source s with ⟨u | e | ⟨e, answer⟩, s₁⟩
    all_goals rw [hbegin] at hbegun
    · exact hbegun.of_eq (installSteps_preserves hr.parent_ne s₁)
    · exact hbegun
    · exact hbegun
  exact hsteps.of_eq (install_lookup hr.outside.unwritten s)

theorem ServiceEvent.run_grown (e : ServiceEvent) (hr : Leads r)
    {found : Option (Node FileMetadata)} (hs : Grown found r s) :
    Grown found r (ServiceEvent.run s e) := by
  cases htarget : e.target with
  | none => rwa [ServiceEvent.run_of_target_none htarget]
  | some mode =>
    cases e with
    | install env m source port => exact install_grown env source port hr hs
    | uninstall env m =>
      refine hs.of_eq (uninstall_preserves ?_ ?_ hr.2 s)
      · rintro rfl
        exact hr.parent_ne (parent_descriptorPath m)
      · rintro rfl
        exact linuxServiceBinaryPath_not_mem m hr.1
    | start env m failure => cases htarget
    | stop failure => cases htarget
    | restart env m => cases htarget

/-- **The services of the two modes do not touch each other**: over any run of installations,
removals, starts, stops and restarts, whatever fails in it, the files of a mode change only by
what is done to that mode, and nothing changes away from the two directories, but that missing
directories on the way to the binaries may be made. -/
theorem others_untouched (mode : Mode) (es : List ServiceEvent) (s : Disk) :
    ((∀ e ∈ es, e.target ≠ some mode) → ∀ r ∈ serviceFiles mode,
      (exec ServiceEvent.run s es).lookup r = s.lookup r) ∧
    (∀ r, Elsewhere r → (exec ServiceEvent.run s es).lookup r = s.lookup r) ∧
    ∀ r, Leads r → Grown (s.lookup r) r (exec ServiceEvent.run s es) := by
  refine ⟨?_, ?_, fun r hr => ?_⟩
  · induction es generalizing s with
    | nil => exact fun _ _ _ => rfl
    | cons e es ih =>
      intro hother r hr
      have hlater : ∀ e ∈ es, e.target ≠ some mode := fun e he =>
        hother e (List.mem_cons_of_mem _ he)
      have hrest := ih (ServiceEvent.run s e) hlater r hr
      exact hrest.trans (ServiceEvent.run_other (hother e List.mem_cons_self) hr s)
  · induction es generalizing s with
    | nil => exact fun _ _ => rfl
    | cons e es ih =>
      exact fun r hr => (ih (ServiceEvent.run s e) r hr).trans (ServiceEvent.run_elsewhere e hr s)
  · exact exec_invariant_of_forall (P := Grown (s.lookup r) r) es (Or.inl rfl)
      fun _ e h => ServiceEvent.run_grown e hr h

end Isolation

/-! ## A service that was installed -/

section Installed

variable {α : Type} {mode mode' : Mode} {node : Node FileMetadata} {s s' : Disk} {r : Path}

/-- An entry that stands in the directory of the binaries. -/
def Housed (r : Path) (node : Node FileMetadata) (s : Disk) : Prop :=
  isDir s serviceDirectory = true ∧ s.lookup r = some node

theorem keeps_housed {m : DiskIo α}
    (hdir : Preserves (fun s : Disk => s.lookup serviceDirectory) m)
    (hr : Preserves (fun s : Disk => s.lookup r) m) : Keeps (Housed r node) m :=
  fun s hs => ⟨(isDir_congr (hdir s)).trans hs.1, (hr s).trans hs.2⟩

/-- What it stands in cannot be removed. -/
theorem removeDir_keeps_housed (hparent : parent r = some serviceDirectory) (fails : Bool) :
    Keeps (Housed r node) (removeDir fails serviceDirectory : DiskIo Unit) := by
  intro s hs
  rw [after_of_error (removeDir_occupied fails hs.1 hs.2 hparent)]
  exact hs

theorem keptByDirectory_housed {p : Path} (hr : r ≠ p) : KeptByDirectory (Housed r node) p := by
  by_cases hp : p = serviceDirectory
  · subst hp
    refine ⟨fun fails m s hs => ?_, fun fails f s hs => ?_⟩
    · cases hrun : createDir fails serviceDirectory m s with
      | ok a s' =>
        have hfree : s.lookup serviceDirectory = none := (createDir_eq_ok.mp hrun).2.1
        rw [Housed, isDir_of_none hfree] at hs
        exact absurd hs.1 Bool.false_ne_true
      | error e s' =>
        rw [after_of_error hrun, clean_createDir s e s' hrun]
        exact hs
    · cases hrun : modifyDir fails serviceDirectory f s with
      | ok a s' =>
        obtain ⟨-, m, -, rfl⟩ := modifyDir_eq_ok.mp hrun
        rw [after_of_ok hrun]
        exact ⟨isDir_insert_self s _ _, (AList.lookup_insert_ne hr).trans hs.2⟩
      | error e s' =>
        rw [after_of_error hrun, clean_modifyDir s e s' hrun]
        exact hs
  · have hne : serviceDirectory ≠ p := fun h => hp h.symm
    exact ⟨fun fails m => keeps_housed (createDir_preserves hne) (createDir_preserves hr),
      fun fails f => keeps_housed (modifyDir_preserves hne) (modifyDir_preserves hr)⟩

theorem serviceDirectory_ne_stagePath (env : UpdateEnv) :
    serviceDirectory ≠ stagePath env serviceDirectory :=
  (ne_of_parent (parent_concat _ _)).symm

theorem serviceDirectory_ne_backupPath (env : UpdateEnv) :
    serviceDirectory ≠ backupPath env serviceDirectory :=
  (ne_of_parent (parent_concat _ _)).symm

/-- The directory of the binaries is there during a publication as it was before. -/
theorem publishUpdate_preserves_directory (env : UpdateEnv) (source : Path) (mode : Mode) :
    Preserves (fun s : Disk => s.lookup serviceDirectory)
      (publishUpdate env (serviceRequest mode source)) := by
  refine publishUpdate_preserves_of_ne (linuxServiceBinaryPath_ne_serviceDirectory mode).symm
    (fun dir hdir => ?_) fun dir hdir => ?_
  · obtain rfl := Option.some.inj (hdir.symm.trans (parent_linuxServiceBinaryPath mode))
    exact serviceDirectory_ne_stagePath env
  · obtain rfl := Option.some.inj (hdir.symm.trans (parent_linuxServiceBinaryPath mode))
    exact serviceDirectory_ne_backupPath env

theorem installSteps_keeps_housed (env : InstallEnv) (mode' : Mode) (port : UInt16)
    (hr : parent r = some serviceDirectory) :
    ∀ s, Housed r node s → Housed r node (after (installSteps env mode' port) s) := by
  have hdir : Preserves (fun s : Disk => s.lookup serviceDirectory) (installSteps env mode' port) :=
    installSteps_preserves (by decide)
  have hfile : Preserves (fun s : Disk => s.lookup r) (installSteps env mode' port) := by
    apply installSteps_preserves
    rw [hr]
    decide
  exact fun s hs => ⟨(isDir_congr (hdir s)).trans hs.1, (hfile s).trans hs.2⟩

/-- A rollback of the other binary leaves a binary where it stands. -/
theorem rollbackInner_keeps_housed {env : UpdateEnv} {u : UnixProtectedBinaryUpdate}
    {fails : RollbackStep → Bool} (hne : mode ≠ mode')
    (hdest : u.destination = linuxServiceBinaryPath mode')
    (hbackup : ∀ b, u.backup = some b → b = backupPath env serviceDirectory) :
    Keeps (Housed (linuxServiceBinaryPath mode) node) (u.rollbackInner fails) := by
  have hother : linuxServiceBinaryPath mode ≠ u.destination := by
    rw [hdest]
    exact fun h => hne (linuxServiceBinaryPath_injective h)
  have hdir : serviceDirectory ≠ u.destination := by
    rw [hdest]
    exact (linuxServiceBinaryPath_ne_serviceDirectory mode').symm
  rw [UnixProtectedBinaryUpdate.rollbackInner_eq]
  refine Keeps.bind ?_ fun _ => Keeps.bind ?_ fun _ => ?_
  · exact keeps_housed (removeFile_preserves hdir).ignoring (removeFile_preserves hother).ignoring
  · cases hb : u.backup with
    | none => exact ReadOnly.pure.keeps
    | some b =>
      obtain rfl := hbackup b hb
      exact keeps_housed (rename_preserves (serviceDirectory_ne_backupPath env) hdir)
        (rename_preserves (linuxServiceBinaryPath_ne_backupPath env mode) hother)
  · unfold UnixProtectedBinaryUpdate.settleDirectory
    rw [hdest, parent_linuxServiceBinaryPath]
    refine readOnly_syncParentDirectory.keeps.bind fun _ => ?_
    cases u.createdParent with
    | false => exact ReadOnly.pure.keeps
    | true =>
      exact (removeDir_keeps_housed (parent_linuxServiceBinaryPath mode) _).ignoring.bind
        fun _ => readOnly_syncParentDirectory.keeps

/-- So does the whole installation of the other mode. -/
theorem install_keeps_housed (env : InstallEnv) (source : Path) (port : UInt16)
    (hne : mode ≠ mode') (hs : Housed (linuxServiceBinaryPath mode) node s) :
    Housed (linuxServiceBinaryPath mode) node (Wakezilla.install env mode' source port s).disk := by
  have hparent := parent_linuxServiceBinaryPath mode
  have hbegun : Housed (linuxServiceBinaryPath mode) node
      (beginProtectedBinaryUpdate env mode' source s).2 := by
    have hprepare : Keeps (Housed (linuxServiceBinaryPath mode) node)
        (prepareUnixServiceDirectory env serviceDirectory) := by
      refine prepareUnixServiceDirectory_keeps (by decide) fun p hp _ => ?_
      apply ensureUnixServiceDirectoryAt_keeps
      apply keptByDirectory_housed
      rintro rfl
      exact linuxServiceBinaryPath_not_mem mode hp
    unfold beginProtectedBinaryUpdate
    cases hrun : prepareUnixServiceDirectory env serviceDirectory s with
    | error e s₁ => exact hprepare.of_error hs hrun
    | ok createdParent s₁ =>
      have hpublish : Keeps (Housed (linuxServiceBinaryPath mode) node)
          (publishUpdate env.update (serviceRequest mode' source)) :=
        have hunwritten := unwritten_linuxServiceBinaryPath env.update hne
        keeps_housed (publishUpdate_preserves_directory env.update source mode')
          (publishUpdate_preserves_of_ne hunwritten.ne_destination hunwritten.ne_stage
            hunwritten.ne_backup)
      have hs₂ : Housed (linuxServiceBinaryPath mode) node
          (beginUnixProtectedBinaryUpdateAt env.update (serviceRequest mode' source) s₁).2 :=
        beginUnixProtectedBinaryUpdateAt_keeps (parent_linuxServiceBinaryPath mode') hpublish
          (fun u hdest hbackup fails => rollbackInner_keeps_housed hne hdest hbackup)
          (hprepare.of_ok hs hrun)
      have hremoved : Keeps (Housed (linuxServiceBinaryPath mode) node) _ :=
        removeDir_keeps_housed hparent env.removeDirectoryFails
      dsimp only
      rcases hbegin : beginUnixProtectedBinaryUpdateAt env.update (serviceRequest mode' source) s₁
        with ⟨u | e | ⟨e, answer⟩, s₂⟩
      all_goals rw [hbegin] at hs₂
      · exact hs₂
      all_goals
        cases createdParent with
        | true => exact hremoved s₂ hs₂
        | false => exact hs₂
  unfold Wakezilla.install
  rcases hbegin : beginProtectedBinaryUpdate env mode' source s with ⟨u | e | ⟨e, answer⟩, s₁⟩
  all_goals rw [hbegin] at hbegun
  · obtain ⟨hdest, hbackup⟩ := beginProtectedBinaryUpdate_paths hbegin
    have hinner : ∀ fails, Keeps (Housed (linuxServiceBinaryPath mode) node)
        (u.rollbackInner fails) := fun _ => rollbackInner_keeps_housed hne hdest hbackup
    have hsteps := installSteps_keeps_housed env mode' port hparent s₁ hbegun
    dsimp only
    cases hrun : installSteps env mode' port s₁ with
    | ok a s₂ =>
      rw [after_of_ok hrun] at hsteps
      refine commit_keeps hinner (fun b hb => ?_) hsteps
      obtain rfl := hbackup b hb
      exact keeps_housed (removeFile_preserves (serviceDirectory_ne_backupPath env.update))
        (removeFile_preserves (linuxServiceBinaryPath_ne_backupPath env.update mode))
    | error contexts s₂ =>
      rw [after_of_error hrun] at hsteps
      exact rollback_keeps hinner hsteps
  · exact hbegun
  · exact hbegun

/-- A removal of the other mode leaves a binary where it stands. -/
theorem uninstall_keeps_housed {env : RemovalEnv} (hne : mode ≠ mode') :
    Keeps (Housed (linuxServiceBinaryPath mode) node) (uninstall env mode') := by
  have hother : linuxServiceBinaryPath mode ≠ linuxServiceBinaryPath mode' :=
    fun h => hne (linuxServiceBinaryPath_injective h)
  refine Keeps.bind ?_ fun _ => readOnly_runSystemctl.keeps.bind fun _ => ?_
  · exact fun s hs => ⟨(isDir_congr (removeFileIfExists_preserves
      (descriptorPath_ne_serviceDirectory mode').symm s)).trans hs.1,
      (removeFileIfExists_preserves
        (descriptorPath_ne_linuxServiceBinaryPath mode' mode).symm s).trans hs.2⟩
  unfold removeProtectedServiceBinary removeUnixProtectedBinaryAt
  rw [parent_linuxServiceBinaryPath]
  refine readOnly_probe.mapError.keeps.bind fun found => ?_
  cases found with
  | none => exact ReadOnly.pure.keeps
  | some dir =>
    refine ReadOnly.require.keeps.bind fun _ => Keeps.bind ?_ fun _ => ?_
    · exact fun s hs => ⟨(isDir_congr (removeBinaryFile_preserves
        (linuxServiceBinaryPath_ne_serviceDirectory mode').symm s)).trans hs.1,
        (removeBinaryFile_preserves hother s).trans hs.2⟩
    · exact (removeDir_keeps_housed (parent_linuxServiceBinaryPath mode) _).ignoring.mapError

/-- The service of `mode` stands as an installation left it, with the bytes of its binary. -/
structure Standing (mode : Mode) (bytes : List UInt8) (s : Disk) : Prop where
  housed : Housed (linuxServiceBinaryPath mode) (.file bytes ⟨0, 0, 0o755⟩) s
  unit : s.lookup (descriptorPath mode) = some (canonicalUnit mode)

theorem ServiceEvent.run_standing {bytes : List UInt8} {e : ServiceEvent}
    (h : e.target ≠ some mode) (hs : Standing mode bytes s) :
    Standing mode bytes (ServiceEvent.run s e) := by
  have hunit : (ServiceEvent.run s e).lookup (descriptorPath mode) = some (canonicalUnit mode) :=
    (ServiceEvent.run_other h (by simp [serviceFiles]) s).trans hs.unit
  refine ⟨?_, hunit⟩
  cases htarget : e.target with
  | none =>
    rw [ServiceEvent.run_of_target_none htarget]
    exact hs.housed
  | some mode' =>
    have hne : mode ≠ mode' := by
      rintro rfl
      exact h htarget
    cases e with
    | install env m source port =>
      obtain rfl := Option.some.inj htarget
      exact install_keeps_housed env source port hne hs.housed
    | uninstall env m =>
      obtain rfl := Option.some.inj htarget
      exact uninstall_keeps_housed hne s hs.housed
    | start env m failure => cases htarget
    | stop failure => cases htarget
    | restart env m => cases htarget

theorem run_standing {bytes : List UInt8} {es : List ServiceEvent}
    (hother : ∀ e ∈ es, e.target ≠ some mode) (hs : Standing mode bytes s) :
    Standing mode bytes (exec ServiceEvent.run s es) := by
  induction es generalizing s with
  | nil => exact hs
  | cons e es ih =>
    exact ih (fun e' he => hother e' (List.mem_cons_of_mem _ he))
      (ServiceEvent.run_standing (hother e List.mem_cons_self) hs)

/-- A `commit` that succeeds does not roll back. -/
theorem commit_ok_keeps {I : Disk → Prop} {env : UpdateEnv} {u : UnixProtectedBinaryUpdate}
    (hbackup : ∀ b, u.backup = some b → Keeps I (removeFile (env.commitFails .removeBackup) b))
    (hok : (u.commit env s).answer = .ok ()) (hs : I s) : I (u.commit env s).disk := by
  unfold UnixProtectedBinaryUpdate.commit at hok ⊢
  have hsync : ∀ fails : Bool, Keeps I (syncParentDirectory fails u.destination) :=
    fun _ => readOnly_syncParentDirectory.keeps
  cases hpublished : syncParentDirectory (env.commitFails .syncPublished) u.destination s with
  | error e s₁ =>
    rw [hpublished] at hok
    cases hok
  | ok a s₁ =>
    have hs₁ : I s₁ := (hsync _).of_ok hs hpublished
    rw [hpublished] at hok
    dsimp only at hok ⊢
    cases hb : u.backup with
    | none => exact hs₁
    | some b =>
      rw [hb] at hok
      dsimp only at hok ⊢
      cases hremoved : removeFile (env.commitFails .removeBackup) b s₁ with
      | error e s₂ =>
        rw [hremoved] at hok
        cases hok
      | ok a s₂ =>
        have hs₂ : I s₂ := (hbackup b hb).of_ok hs₁ hremoved
        dsimp only
        cases hremoval : syncParentDirectory (env.commitFails .syncRemoval) u.destination s₂ with
        | error e s₃ => exact (hsync _).of_error hs₂ hremoval
        | ok a s₃ => exact (hsync _).of_ok hs₂ hremoval

/-- **What an installation that succeeds leaves.** -/
theorem install_ok {env : InstallEnv} {source : Path} {port : UInt16}
    (h : (Wakezilla.install env mode source port s).answer = .ok ()) :
    ∃ bytes m, s.lookup source = some (.file bytes m) ∧
      Standing mode bytes (Wakezilla.install env mode source port s).disk := by
  have hpublished : PublishesUnit env mode source s → _ := (install_unit mode source port s).1
  unfold Wakezilla.install at h hpublished ⊢
  rcases hbegin : beginProtectedBinaryUpdate env mode source s with ⟨u | e | ⟨e, answer⟩, s₁⟩
  · rw [hbegin] at h hpublished
    dsimp only at h hpublished ⊢
    cases hrun : installSteps env mode port s₁ with
    | error contexts s₂ =>
      rw [hrun] at h
      cases h
    | ok a s₂ =>
      rw [hrun] at h hpublished
      dsimp only at h hpublished ⊢
      obtain ⟨_, s₃, hwrite, -⟩ := bind_eq_ok.mp hrun
      obtain ⟨_, s₄, hpublish, -⟩ := bind_eq_ok.mp (mapError_eq_ok.mp hwrite)
      obtain ⟨-, hname⟩ := beginProtectedBinaryUpdate_paths hbegin
      obtain ⟨createdParent, s₀, u', hprepare, hbegun, rfl⟩ :=
        begun_of_beginProtectedBinaryUpdate hbegin
      obtain ⟨bytes, m, hsource, hnew⟩ := publishUpdate_published (publishUpdate_of_begun hbegun)
      have hfile : fileAt source s = some (.file bytes m) :=
        ((prepare_preserves_files env source).eq_of_ok hprepare).symm.trans
          (fileAt_eq_some.mpr ⟨hsource, rfl⟩)
      refine ⟨bytes, m, (fileAt_eq_some.mp hfile).1, ?_,
        hpublished ⟨_, s₁, s₄, hbegin, hpublish⟩⟩
      -- the directory was inspected before the publication
      obtain ⟨dir, _, hpaths, -⟩ := bind_eq_ok.mp (publishUpdate_of_begun hbegun)
      obtain ⟨rfl, hdir, -, ⟨-, hisdir⟩, -⟩ := inspectPaths_eq_ok.mp hpaths
      obtain rfl := Option.some.inj (hdir.symm.trans (parent_linuxServiceBinaryPath mode))
      have hdirectory := (publishUpdate_preserves_directory env.update source mode).eq_of_ok
        (publishUpdate_of_begun hbegun)
      have hs₁ : Housed (linuxServiceBinaryPath mode) (.file bytes ⟨0, 0, 0o755⟩) s₁ :=
        ⟨(isDir_congr hdirectory).trans hisdir, hnew⟩
      have hs₂ :=
        installSteps_keeps_housed env mode port (parent_linuxServiceBinaryPath mode) s₁ hs₁
      rw [after_of_ok hrun] at hs₂
      refine commit_ok_keeps (fun b hb => ?_) ?_ hs₂
      · obtain rfl := hname b hb
        exact keeps_housed (removeFile_preserves (serviceDirectory_ne_backupPath env.update))
          (removeFile_preserves (linuxServiceBinaryPath_ne_backupPath env.update mode))
      · cases hanswer : ({ u' with createdParent }.commit env.update s₂).answer with
        | ok a => rfl
        | error e =>
          rw [hanswer] at h
          cases h
  · rw [hbegin] at h
    cases h
  · rw [hbegin] at h
    cases h

/-- When a service may be started: the binary is protected and the unit is the canonical one. -/
theorem validateUnixServiceFilesAt_eq_ok {env : InstallEnv} {a : Unit} :
    validateUnixServiceFilesAt env mode s = .ok a s' ↔ s' = s ∧ (∀ c, env.checkFails c = false) ∧
      (∃ node, s.lookup (linuxServiceBinaryPath mode) = some node ∧
        Node.isProtected (serviceRequest mode []) node = true) ∧
      ∃ m, s.lookup (descriptorPath mode) = some (.file (asBytes (generateSystemdUnit mode)) m) ∧
        m.uid = 0 ∧ m.gid = 0 ∧ m.mode &&& 0o022 = 0 := by
  constructor
  · intro h
    obtain ⟨node, _, hbinary, h₁⟩ := bind_eq_ok.mp h
    obtain ⟨hinspect, hnode, rfl⟩ := symlinkMetadata_eq_ok.mp hbinary
    obtain ⟨_, _, hrequire, h₂⟩ := bind_eq_ok.mp h₁
    obtain ⟨hprotected, rfl⟩ := require_eq_ok.mp hrequire
    obtain ⟨descriptor, _, hdescriptor, h₃⟩ := bind_eq_ok.mp h₂
    obtain ⟨hinspected, hfile, rfl⟩ := symlinkMetadata_eq_ok.mp hdescriptor
    obtain ⟨_, _, hread, h₄⟩ := bind_eq_ok.mp h₃
    obtain ⟨hreads, rfl⟩ := require_eq_ok.mp hread
    cases descriptor with
    | directory m => cases h₄
    | other => cases h₄
    | file bytes m =>
      obtain ⟨_, _, howner, hlast⟩ := bind_eq_ok.mp h₄
      obtain ⟨howned, rfl⟩ := require_eq_ok.mp howner
      obtain ⟨hbytes, rfl⟩ := require_eq_ok.mp hlast
      refine ⟨rfl, fun c => ?_, ⟨node, hnode, hprotected⟩, m, ?_, of_decide_eq_true howned⟩
      · cases c with
        | inspectBinary => exact hinspect
        | inspectDescriptor => exact hinspected
        | readDescriptor => exact (Bool.not_eq_true' _).mp hreads
      · rw [hfile, of_decide_eq_true hbytes]
  · rintro ⟨rfl, hchecks, ⟨node, hnode, hprotected⟩, m, hfile, howned⟩
    refine bind_eq_ok.mpr ⟨node, s', symlinkMetadata_eq_ok.mpr ⟨hchecks _, hnode, rfl⟩, ?_⟩
    refine bind_eq_ok.mpr ⟨(), s', require_eq_ok.mpr ⟨hprotected, rfl⟩, ?_⟩
    refine bind_eq_ok.mpr ⟨_, s', symlinkMetadata_eq_ok.mpr ⟨hchecks _, hfile, rfl⟩, ?_⟩
    refine bind_eq_ok.mpr ⟨(), s', require_eq_ok.mpr ⟨by rw [hchecks]; rfl, rfl⟩, ?_⟩
    refine bind_eq_ok.mpr ⟨(), s', require_eq_ok.mpr ⟨decide_eq_true howned, rfl⟩, ?_⟩
    exact require_eq_ok.mpr ⟨decide_eq_true rfl, rfl⟩

theorem isProtected_published (req : UpdateRequest) (huid : req.ownerUid = 0)
    (hgid : req.ownerGid = 0) (bytes : List UInt8) :
    Node.isProtected req (.file bytes ⟨0, 0, 0o755⟩) = true := by
  simp [Node.isProtected, huid, hgid]

theorem Standing.start {bytes : List UInt8} (h : Standing mode bytes s) {env : InstallEnv}
    (hchecks : ∀ c, env.checkFails c = false) : start env mode none s = .ok () s := by
  refine bind_eq_ok.mpr ⟨(), s, mapError_eq_ok.mpr ?_, rfl⟩
  exact validateUnixServiceFilesAt_eq_ok.mpr ⟨rfl, hchecks,
    ⟨_, h.housed.2, isProtected_published _ rfl rfl bytes⟩, _, h.unit, rfl, rfl, by decide⟩

theorem Standing.removable {bytes : List UInt8} (h : Standing mode bytes s) :
    Removable mode s := by
  refine ⟨(isDir_of_some h.unit).trans rfl, Or.inr ⟨h.housed.1, fun node hnode => ?_⟩⟩
  rw [h.housed.2] at hnode
  rw [← Option.some.inj hnode]
  exact isProtected_published _ rfl rfl bytes

/-- Without its binary a service is not started. -/
theorem start_refused {env : InstallEnv} {failure : Option String}
    (h : s.lookup (linuxServiceBinaryPath mode) = none) :
    start env mode failure s = .error ["run `wakezilla setup --mode " ++ mode.serviceArg ++
      " --port <port> --yes` to migrate " ++ mode.subcommand ++ " to the protected binary"] s := by
  have hmissing : ∃ e, symlinkMetadata (env.checkFails .inspectBinary)
      (linuxServiceBinaryPath mode) s = .error e s := by
    cases env.checkFails .inspectBinary with
    | true => exact ⟨_, rfl⟩
    | false => exact ⟨_, symlinkMetadata_missing h⟩
  obtain ⟨e, hmissing⟩ := hmissing
  have hvalidate : validateUnixServiceFilesAt env mode s = .error e s := bind_of_error hmissing
  refine bind_of_error ?_
  rw [ensureServiceUsesProtectedBinary, mapError, hvalidate]

/-- **An installed service can be started and removed**, whatever is done to the other mode in
between, and once it is removed it is not started any more. -/
theorem installed_starts {env : InstallEnv} {source : Path} {port : UInt16}
    (hinstall : (Wakezilla.install env mode source port s).answer = .ok ())
    {es : List ServiceEvent} (hother : ∀ e ∈ es, e.target ≠ some mode)
    (hs' : exec ServiceEvent.run (Wakezilla.install env mode source port s).disk es = s') :
    (∃ bytes m, s.lookup source = some (.file bytes m) ∧
      s'.lookup (linuxServiceBinaryPath mode) = some (.file bytes ⟨0, 0, 0o755⟩)) ∧
    (∀ checks : InstallEnv, (∀ c, checks.checkFails c = false) →
      start checks mode none s' = .ok () s') ∧
    ∀ removal : RemovalEnv, removal.Undisturbed → ∃ s'', uninstall removal mode s' = .ok () s'' ∧
      ∀ (checks : InstallEnv) failure, start checks mode failure s'' =
        .error ["run `wakezilla setup --mode " ++ mode.serviceArg ++
          " --port <port> --yes` to migrate " ++ mode.subcommand ++ " to the protected binary"]
          s'' := by
  obtain ⟨bytes, m, hsource, hleft⟩ := install_ok hinstall
  have hstanding : Standing mode bytes s' := hs' ▸ run_standing hother hleft
  refine ⟨⟨bytes, m, hsource, hstanding.housed.2⟩, fun checks hchecks => hstanding.start hchecks,
    fun removal hremoval => ?_⟩
  obtain ⟨s'', hok⟩ := (uninstall_succeeds_iff hremoval).mpr hstanding.removable
  have hdirectory : s'.lookup serviceDirectory = none →
      s'.lookup (linuxServiceBinaryPath mode) = none := by
    intro hnone
    have hdir := hstanding.housed.1
    rw [isDir_of_none hnone] at hdir
    cases hdir
  exact ⟨s'', hok, fun checks failure => start_refused (uninstall_ok hok hdirectory).2.1⟩

/-- The client is installed, then the proxy is installed and removed again. -/
theorem client_beside_proxy :
    ∃ s', exec ServiceEvent.run
        (Wakezilla.install (hostInstall (fun _ => none) none) .client ["home", "wakezilla"] 3001
          (configuredHost [])).disk
        [.install (hostInstall (fun _ => none) none) .proxy ["home", "wakezilla"] 3000,
          .uninstall ⟨fun _ => false, none⟩ .proxy] = s' ∧
      start (hostInstall (fun _ => none) none) .client none s' = .ok () s' :=
  ⟨_, rfl, (installed_starts (by decide +kernel)
    (by simp [ServiceEvent.target]) rfl).2.1 _ fun _ => rfl⟩

end Installed

/-! ## Removing every service -/

section UninstallAll

variable {env : Mode → RemovalEnv} {probeFails : Mode → Bool} {mode : Mode} {s s' : Disk}

/-- A binary is not there without its directory. -/
def WellPlaced (s : Disk) : Prop :=
  s.lookup serviceDirectory = none → ∀ mode, s.lookup (linuxServiceBinaryPath mode) = none

/-- The directory goes only when no binary is left in it. -/
theorem uninstall_wellPlaced {env : RemovalEnv} {a : Unit}
    (h : uninstall env mode s = .ok a s') (hs : WellPlaced s) : WellPlaced s' := by
  obtain ⟨-, hbinary, hstays, -⟩ := uninstall_ok h fun hnone => hs hnone mode
  intro hnone mode'
  by_cases hmode : mode' = mode
  · rw [hmode, hbinary]
  have hkept : s'.lookup (linuxServiceBinaryPath mode') = s.lookup (linuxServiceBinaryPath mode') :=
    (uninstall_other env hmode (by simp [serviceFiles])).eq_of_ok h
  rw [hkept]
  by_contra hthere
  have hne : linuxServiceBinaryPath mode' ≠ linuxServiceBinaryPath mode :=
    fun heq => hmode (linuxServiceBinaryPath_injective heq)
  have hoccupied : Occupied serviceDirectory (s.erase (linuxServiceBinaryPath mode)) := by
    refine ⟨_, parent_linuxServiceBinaryPath mode', ?_⟩
    rw [AList.lookup_erase_ne hne]
    exact Option.isSome_iff_ne_none.mpr hthere
  rw [hstays hoccupied] at hnone
  exact hthere (hs hnone mode')

theorem isInstalled_eq_ok {fails found : Bool} :
    isInstalled fails mode s = .ok found s' ↔
      found = (!fails && (s.lookup (descriptorPath mode)).isSome) ∧ s' = s := by
  unfold isInstalled
  rw [mapError_eq_ok, pathExists]
  simp [eq_comm]

/-- Each mode of the list loses its files, and is reported if its unit was there. -/
theorem uninstallModes_ok {modes removed answer : List Mode} (hnodup : modes.Nodup)
    (h : uninstallModes env probeFails modes removed s = .ok answer s') (hs : WellPlaced s) :
    answer = removed ++ modes.filter (fun mode =>
        !probeFails mode && (s.lookup (descriptorPath mode)).isSome) ∧
      (∀ mode ∈ modes, ∀ r ∈ serviceFiles mode, s'.lookup r = none) ∧
      ∀ mode ∉ modes, ∀ r ∈ serviceFiles mode, s'.lookup r = s.lookup r := by
  induction modes generalizing removed s with
  | nil =>
    obtain ⟨rfl, rfl⟩ := pure_eq_ok.mp h
    exact ⟨(List.append_nil _).symm, fun _ hmem => absurd hmem List.not_mem_nil,
      fun _ _ _ _ => rfl⟩
  | cons mode rest ih =>
    obtain ⟨hfresh, hnodup⟩ := List.nodup_cons.mp hnodup
    obtain ⟨found, s₀, hprobe, h₁⟩ := bind_eq_ok.mp h
    obtain ⟨rfl, rfl⟩ := isInstalled_eq_ok.mp hprobe
    obtain ⟨_, s₁, hremove, hrest⟩ := bind_eq_ok.mp h₁
    have hremove := mapError_eq_ok.mp hremove
    obtain ⟨hunit, hbinary, -⟩ := uninstall_ok hremove fun hnone => hs hnone mode
    obtain ⟨hanswer, hgone, hkept⟩ := ih hnodup hrest (uninstall_wellPlaced hremove hs)
    have hothers : ∀ mode' ≠ mode, ∀ r ∈ serviceFiles mode', s₁.lookup r = s₀.lookup r :=
      fun mode' hne r hr => (uninstall_other (env mode) hne hr).eq_of_ok hremove
    refine ⟨?_, ?_, ?_⟩
    · have hsame : rest.filter (fun mode =>
          !probeFails mode && (s₁.lookup (descriptorPath mode)).isSome) =
          rest.filter (fun mode =>
            !probeFails mode && (s₀.lookup (descriptorPath mode)).isSome) := by
        refine List.filter_congr fun mode' hmem => ?_
        have hne : mode' ≠ mode := by
          rintro rfl
          exact hfresh hmem
        rw [hothers mode' hne _ (by simp [serviceFiles])]
      rw [hanswer, hsame, List.filter_cons]
      split <;> simp
    · intro mode' hmem r hr
      rcases List.mem_cons.mp hmem with rfl | hmem
      · rw [hkept _ hfresh r hr]
        simp only [serviceFiles, List.mem_cons, List.not_mem_nil, or_false] at hr
        rcases hr with rfl | rfl
        · exact hunit
        · exact hbinary
      · exact hgone mode' hmem r hr
    · intro mode' hmem r hr
      obtain ⟨hne, hmem⟩ := not_or.mp (List.mem_cons.not.mp hmem)
      exact (hkept mode' hmem r hr).trans (hothers mode' hne r hr)

/-- **`uninstall_all` removes both services and names those that `is_installed` had found**: the
modes whose unit was there and could be read. -/
theorem uninstallAll_ok {removed : List Mode}
    (h : uninstallAll env probeFails s = .ok removed s')
    (hs : s.lookup serviceDirectory = none →
      ∀ mode, s.lookup (linuxServiceBinaryPath mode) = none) :
    (∀ mode, ∀ r ∈ serviceFiles mode, s'.lookup r = none) ∧
      removed = [Mode.proxy, Mode.client].filter fun mode =>
        !probeFails mode && (s.lookup (descriptorPath mode)).isSome := by
  obtain ⟨hanswer, hgone, -⟩ := uninstallModes_ok (by decide) h hs
  refine ⟨fun mode => hgone mode ?_, hanswer⟩
  cases mode <;> decide

/-- A host on which only the client is installed. -/
theorem client_named :
    ∃ s', uninstallAll (fun _ => ⟨fun _ => false, none⟩) (fun _ => false) installedHost =
        .ok [.client] s' ∧
      ∀ mode, ∀ r ∈ serviceFiles mode, s'.lookup r = none := by
  have hanswer : uninstallAll (fun _ => ⟨fun _ => false, none⟩) (fun _ => false) installedHost =
      .ok [.client] (after (uninstallAll (fun _ => ⟨fun _ => false, none⟩) (fun _ => false))
        installedHost) := by
    rfl
  exact ⟨_, hanswer, (uninstallAll_ok hanswer fun h => absurd h (by decide +kernel)).1⟩

end UninstallAll

end Lifecycle

end Wakezilla
