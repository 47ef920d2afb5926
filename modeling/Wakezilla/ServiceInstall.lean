/-
# Installing the service on Linux

`install` of `src/service.rs` publishes the protected binary, writes the systemd unit, has
systemd reload, enable and restart the service, and waits until the service accepts
connections.  When one of these steps fails, the update of the binary is rolled back;
nothing is done about the unit.

A failing I/O call is reported by the contexts that `anyhow` adds to it, outermost first.
`install_unit` and `install_binary` say what a failing installation leaves.
-/
import Wakezilla.BinaryUpdate
import Wakezilla.ShutdownAuth

namespace Wakezilla

open FileSystem Fallible

/-! ## Modes and paths -/

/-- `Mode`. -/
inductive Mode
  | proxy
  | client
  deriving DecidableEq, Repr

namespace Mode

/-- `subcommand`. -/
def subcommand : Mode → String
  | .proxy => "proxy-server"
  | .client => "client-server"

/-- `service_name`. -/
def serviceName : Mode → String
  | .proxy => "wakezilla-proxy"
  | .client => "wakezilla-client"

/-- `service_arg`. -/
def serviceArg : Mode → String
  | .proxy => "proxy"
  | .client => "client"

end Mode

/-- The text of an absolute path. -/
def displayPath (path : Path) : String := String.join (path.map fun name => "/" ++ name)

/-- The directory of the protected binaries. -/
def serviceDirectory : Path := ["usr", "local", "libexec", "wakezilla"]

/-- `linux_service_binary_path`. -/
def linuxServiceBinaryPath (mode : Mode) : Path := serviceDirectory ++ [mode.serviceName]

/-- The directory of the systemd units. -/
def unitDirectory : Path := ["etc", "systemd", "system"]

/-- `descriptor_path` on Linux. -/
def descriptorPath (mode : Mode) : Path := unitDirectory ++ [mode.serviceName ++ ".service"]

/-- `service_program_args`. -/
def serviceProgramArgs (mode : Mode) : String × String := ("--no-update-check", mode.subcommand)

/-- `generate_systemd_unit`. -/
def generateSystemdUnit (mode : Mode) : String :=
  "[Unit]\nDescription=Wakezilla " ++ mode.subcommand ++
    "\nAfter=network-online.target\nWants=network-online.target\n\n[Service]\n" ++
    "Type=simple\nExecStart=" ++ displayPath (linuxServiceBinaryPath mode) ++ " " ++
    (serviceProgramArgs mode).1 ++ " " ++ (serviceProgramArgs mode).2 ++
    "\nRestart=on-failure\nRestartSec=5\n\n[Install]\nWantedBy=multi-user.target\n"

/-- The unit file that an installation leaves. -/
def canonicalUnit (mode : Mode) : Node FileMetadata :=
  .file (asBytes (generateSystemdUnit mode)) ⟨0, 0, 0o644⟩

/-! ## The environment of an installation -/

/-- The fallible steps of `ensure_unix_service_directory_at`, and the look at a path component
before it. -/
inductive DirectoryStep
  | probe | inspect | create | openDirectory | chown | setPermissions | sync | inspectAgain
  deriving DecidableEq

/-- The fallible steps of `write_unix_service_descriptor`. -/
inductive DescriptorStep
  | inspectParent | inspectExisting | stage | write | setPermissions | chown | sync | persist
  | dropStage | syncParent
  deriving DecidableEq

/-- The fallible steps of `validate_unix_service_files_at`. -/
inductive FileCheck
  | inspectBinary | inspectDescriptor | readDescriptor
  deriving DecidableEq

/-- The calls of `systemctl`. -/
inductive ServiceCommand
  | daemonReload | enable | restart
  deriving DecidableEq

/-- What the environment chooses.  A command that fails and a service that is not reachable
come with the text of their error. -/
structure InstallEnv where
  update : UpdateEnv
  directoryFails : Path → DirectoryStep → Bool
  lastDirectoryFails : DirectoryStep → Bool
  removeDirectoryFails : Bool
  created : FileMetadata
  descriptorFails : DescriptorStep → Bool
  descriptorSuffix : String
  checkFails : FileCheck → Bool
  commandFails : ServiceCommand → Option String
  unreachable : Option String

/-! ## The protected directory -/

/-- A real directory with the protected owner and mode `0755`. -/
def Node.isProtectedDirectory (uid gid : ℕ) : Node FileMetadata → Bool
  | .directory m => m.uid = uid ∧ m.gid = gid ∧ m.mode &&& 0o777 = 0o755
  | _ => false

/-- `ensure_unix_service_directory_at`: whether it created the directory. -/
def ensureUnixServiceDirectoryAt (fails : DirectoryStep → Bool) (created : FileMetadata)
    (path : Path) (uid gid : ℕ) : DiskIo Bool := do
  let isNew ← recovering (fun e => e = .notFound)
    (do
      createDir (fails .create) path created
      pure true)
    (do
      let node ← symlinkMetadata (fails .inspect) path
      require (Node.isProtectedDirectory uid gid node) .other
      pure false)
  let opened ← symlinkMetadata (fails .openDirectory) path
  require opened.isDirectory .other
  if isNew then do
    modifyDir (fails .chown) path fun m => { m with uid, gid }
    modifyDir (fails .setPermissions) path fun m => { m with mode := 0o755 }
  require (!fails .sync) .other
  let node ← symlinkMetadata (fails .inspectAgain) path
  require (Node.isProtectedDirectory uid gid node) .other
  pure isNew

/-- The loop of `prepare_unix_service_directory` over the components of a path. -/
def prepareComponents (env : InstallEnv) (path : Path) : List Path → Bool → DiskIo Bool
  | [], finalCreated => pure finalCreated
  | current :: rest, finalCreated => do
    let missing ← recovering (fun e => e = .notFound) (pure true)
      (do
        let _ ← symlinkMetadata (env.directoryFails current .probe) current
        pure false)
    let _ ← ensureUnixServiceDirectoryAt (env.directoryFails current) env.created current 0 0
    prepareComponents env path rest (finalCreated || (missing && current = path))

/-- `prepare_unix_service_directory`: whether it created the last directory. -/
def prepareUnixServiceDirectory (env : InstallEnv) (path : Path) : DiskIo Bool := do
  let finalCreated ← prepareComponents env path (components path) false
  if finalCreated then pure true
  else do
    let _ ← ensureUnixServiceDirectoryAt env.lastDirectoryFails env.created path 0 0
    pure false

/-- What `install` asks of the update of the binary. -/
def serviceRequest (mode : Mode) (source : Path) : UpdateRequest :=
  ⟨source, linuxServiceBinaryPath mode, 0, 0⟩

/-- `begin_protected_binary_update`. -/
def beginProtectedBinaryUpdate (env : InstallEnv) (mode : Mode) (source : Path) (s : Disk) :
    Begun × Disk :=
  match prepareUnixServiceDirectory env serviceDirectory s with
  | .error e s₁ => (.refused e, s₁)
  | .ok createdParent s₁ =>
    match beginUnixProtectedBinaryUpdateAt env.update (serviceRequest mode source) s₁ with
    | (.update u, s₂) => (.update { u with createdParent }, s₂)
    | (failed, s₂) =>
      if createdParent then
        (failed, after (removeDir env.removeDirectoryFails serviceDirectory : DiskIo Unit) s₂)
      else (failed, s₂)

/-! ## The descriptor -/

/-- The name under which a descriptor is staged. -/
def descriptorStage (env : InstallEnv) (dir : Path) : Path :=
  dir ++ [".wakezilla-descriptor-" ++ env.descriptorSuffix]

/-- Fill the staged descriptor and move it to its path. -/
def fillDescriptor (env : InstallEnv) (staged path : Path) (contents : String) : DiskIo Unit := do
  modifyFile (env.descriptorFails .write) staged fun _ m => (asBytes contents, m)
  modifyFile (env.descriptorFails .setPermissions) staged fun b m => (b, { m with mode := 0o644 })
  modifyFile (env.descriptorFails .chown) staged fun b m => (b, { m with uid := 0, gid := 0 })
  require (!env.descriptorFails .sync) .other
  rename (env.descriptorFails .persist) staged path

/-- `write_unix_service_descriptor`, up to the descriptor standing at its path.  The stage is
removed when a step fails. -/
def publishServiceDescriptor (env : InstallEnv) (path : Path) (contents : String) :
    DiskIo Unit :=
  match parent path with
  | none => throw .other
  | some dir => do
    let inspected ← symlinkMetadata (env.descriptorFails .inspectParent) dir
    require inspected.isDirectory .other
    -- an existing descriptor that cannot be inspected is not looked at
    let existing ← findNode (env.descriptorFails .inspectExisting) path
    require (existing.all Node.isFile) .other
    createFile (env.descriptorFails .stage) (descriptorStage env dir) env.update.temporary
    onError (removeFile (env.descriptorFails .dropStage) (descriptorStage env dir))
      (fillDescriptor env (descriptorStage env dir) path contents)

/-- `write_unix_service_descriptor`. -/
def writeUnixServiceDescriptor (env : InstallEnv) (path : Path) (contents : String) :
    DiskIo Unit := do
  publishServiceDescriptor env path contents
  syncParentDirectory (env.descriptorFails .syncParent) path

/-! ## The service manager -/

/-- A step of the setup; an error is the list of its contexts. -/
abbrev Setup (α : Type) := EStateM (List String) Disk α

/-- `run` for one of the calls of `systemctl`. -/
def runCommand (env : InstallEnv) (command : ServiceCommand) : Setup Unit :=
  match env.commandFails command with
  | some text => throw [text]
  | none => pure ()

/-- `validate_unix_service_files_at` for the installed service. -/
def validateUnixServiceFilesAt (env : InstallEnv) (mode : Mode) : DiskIo Unit := do
  let binary ← symlinkMetadata (env.checkFails .inspectBinary) (linuxServiceBinaryPath mode)
  require (Node.isProtected (serviceRequest mode []) binary) .other
  let descriptor ← symlinkMetadata (env.checkFails .inspectDescriptor) (descriptorPath mode)
  require (!env.checkFails .readDescriptor) .other
  match descriptor with
  | .file bytes m => do
    require (m.uid = 0 ∧ m.gid = 0 ∧ m.mode &&& 0o022 = 0) .other
    require (bytes = asBytes (generateSystemdUnit mode)) .other
  | _ => throw .other

/-- `restart`, which first asks whether the service runs the protected binary. -/
def restartService (env : InstallEnv) (mode : Mode) : Setup Unit := do
  mapError (fun _ => ["run `wakezilla setup --mode " ++ mode.serviceArg ++
    " --port <port> --yes` to migrate " ++ mode.subcommand ++ " to the protected binary"])
    (validateUnixServiceFilesAt env mode)
  runCommand env .restart

/-- `validate`, with ten attempts. -/
def validateService (env : InstallEnv) (port : UInt16) : Setup Unit :=
  match env.unreachable with
  | some text => throw ["service installed but did not become reachable",
      "service did not accept connections on 127.0.0.1:" ++ toString port.toNat ++
        " after 10 attempts: " ++ text]
  | none => pure ()

/-- The steps of `install` after the descriptor has been written. -/
def startService (env : InstallEnv) (mode : Mode) (port : UInt16) : Setup Unit := do
  runCommand env .daemonReload
  runCommand env .enable
  restartService env mode
  validateService env port

/-- The steps of `install` between the beginning and the end of the update.  The firewall needs
no rule on Linux. -/
def installSteps (env : InstallEnv) (mode : Mode) (port : UInt16) : Setup Unit := do
  mapError (fun _ => ["writing " ++ displayPath (descriptorPath mode)])
    (writeUnixServiceDescriptor env (descriptorPath mode) (generateSystemdUnit mode))
  startService env mode port

/-! ## Installing -/

/-- How an installation ends: its answer, the disk, and the answer of the rollback that ran, if
one did. -/
structure Installed where
  answer : Except (List String) Unit
  disk : Disk
  rollback : Option (Except ErrorKind Unit)

/-- `install` on Linux. -/
def install (env : InstallEnv) (mode : Mode) (source : Path) (port : UInt16) (s : Disk) :
    Installed :=
  match beginProtectedBinaryUpdate env mode source s with
  | (.refused _, s₁) => ⟨.error [], s₁, none⟩
  | (.rolledBack _ answer, s₁) => ⟨.error [], s₁, some answer⟩
  | (.update u, s₁) =>
    match installSteps env mode port s₁ with
    | .ok _ s₂ =>
      let ended := u.commit env.update s₂
      ⟨ended.answer.mapError fun _ => ["committing protected service binary"], ended.disk,
        match ended.answer with
        | .ok _ => none
        | .error _ => u.commitRollback env.update s₂⟩
    | .error contexts s₂ =>
      let ended := u.rollback env.update s₂
      ⟨.error (match ended.answer with
        | .ok _ => contexts
        | .error _ => [String.intercalate ": " contexts ++
            "; additionally failed to restore the prior protected service binary"]),
        ended.disk, some ended.answer⟩

/-! ## Names -/

theorem parent_linuxServiceBinaryPath (mode : Mode) :
    parent (linuxServiceBinaryPath mode) = some serviceDirectory := parent_concat _ _

theorem parent_descriptorPath (mode : Mode) : parent (descriptorPath mode) = some unitDirectory :=
  parent_concat _ _

/-- A temporary name starts with a dot, so a service is not called so. -/
theorem concat_ne_of_head {dir : Path} {name name' : String}
    (h : name.toList.head? ≠ name'.toList.head?) : dir ++ [name] ≠ dir ++ [name'] := by
  intro heq
  have hname : name = name' := List.singleton_injective (List.append_cancel_left heq)
  exact h (by rw [hname])

theorem linuxServiceBinaryPath_ne_stagePath (env : UpdateEnv) (mode : Mode) :
    linuxServiceBinaryPath mode ≠ stagePath env serviceDirectory := by
  refine concat_ne_of_head ?_
  cases mode <;> simp [Mode.serviceName, String.toList_append]

theorem descriptorPath_ne_descriptorStage (env : InstallEnv) (mode : Mode) :
    descriptorPath mode ≠ descriptorStage env unitDirectory := by
  refine concat_ne_of_head ?_
  cases mode <;> simp [Mode.serviceName, String.toList_append]

theorem linuxServiceBinaryPath_not_mem (mode : Mode) :
    linuxServiceBinaryPath mode ∉ components serviceDirectory := by
  cases mode <;> decide

theorem descriptorPath_not_mem (mode : Mode) :
    descriptorPath mode ∉ components serviceDirectory := by
  cases mode <;> decide

/-- The unit is outside the directory of the protected binaries. -/
theorem outside_descriptorPath (mode : Mode) :
    Outside (linuxServiceBinaryPath mode) (descriptorPath mode) := by
  refine ⟨?_, ?_⟩
  · rw [parent_descriptorPath, parent_linuxServiceBinaryPath]
    decide
  · rw [parent_linuxServiceBinaryPath]
    cases mode <;> decide

/-! ## The directory -/

section Directory

variable {γ : Type} {g : Disk → γ} {env : InstallEnv} {r : Path}

/-- An observation that the calls on the directory `path` do not change. -/
structure IgnoresDirectory (g : Disk → γ) (path : Path) : Prop where
  create : ∀ fails m, Preserves g (createDir fails path m)
  modify : ∀ fails f, Preserves g (modifyDir fails path f)

/-- Another entry. -/
theorem ignoresDirectory_of_ne {path : Path} (h : r ≠ path) :
    IgnoresDirectory (fun s : Disk => s.lookup r) path :=
  ⟨fun _ _ => createDir_preserves h, fun _ _ => modifyDir_preserves h⟩

/-- The file that an entry is, if it is one. -/
def fileAt (r : Path) (s : Disk) : Option (Node FileMetadata) := (s.lookup r).filter Node.isFile

theorem fileAt_eq_some {s : Disk} {node : Node FileMetadata} :
    fileAt r s = some node ↔ s.lookup r = some node ∧ Node.isFile node = true :=
  Option.filter_eq_some_iff

/-- The calls on a directory change no file. -/
theorem ignoresDirectory_fileAt (path : Path) : IgnoresDirectory (fileAt r) path := by
  refine ⟨fun fails m => ?_, fun fails f => ?_⟩
  · refine Preserves.of_clean clean_createDir fun s a s' hrun => ?_
    obtain ⟨-, hfree, rfl⟩ := createDir_eq_ok.mp hrun
    unfold fileAt
    rw [Dict.lookup_insert]
    split
    · next heq =>
      rw [heq, hfree]
      rfl
    · rfl
  · refine Preserves.of_clean clean_modifyDir fun s a s' hrun => ?_
    obtain ⟨-, m, hthere, rfl⟩ := modifyDir_eq_ok.mp hrun
    unfold fileAt
    rw [Dict.lookup_insert]
    split
    · next heq =>
      rw [heq, hthere]
      rfl
    · rfl

/-- An invariant that the calls on the directory `path` keep. -/
structure KeptByDirectory (I : Disk → Prop) (path : Path) : Prop where
  create : ∀ fails m, Keeps I (createDir fails path m)
  modify : ∀ fails f, Keeps I (modifyDir fails path f)

theorem IgnoresDirectory.kept {path : Path} (h : IgnoresDirectory g path) (v : γ) :
    KeptByDirectory (fun s => g s = v) path :=
  ⟨fun fails m => (h.create fails m).keeps fun _ _ hg hs => hg.trans hs,
    fun fails f => (h.modify fails f).keeps fun _ _ hg hs => hg.trans hs⟩

theorem ensureUnixServiceDirectoryAt_keeps {I : Disk → Prop} {fails : DirectoryStep → Bool}
    {created : FileMetadata} {path : Path} {uid gid : ℕ} (h : KeptByDirectory I path) :
    Keeps I (ensureUnixServiceDirectoryAt fails created path uid gid) := by
  unfold ensureUnixServiceDirectoryAt
  refine Keeps.bind ?_ fun isNew => ?_
  · refine Keeps.recovering ?_ ?_
    · exact readOnly_symlinkMetadata.keeps.bind fun _ =>
        ReadOnly.require.keeps.bind fun _ => ReadOnly.pure.keeps
    · exact (h.create _ _).bind fun _ => ReadOnly.pure.keeps
  have hsettled : Keeps I (do
      require (!fails .sync) .other
      let node ← symlinkMetadata (fails .inspectAgain) path
      require (Node.isProtectedDirectory uid gid node) .other
      pure isNew : DiskIo Bool) :=
    ReadOnly.require.keeps.bind fun _ => readOnly_symlinkMetadata.keeps.bind fun _ =>
      ReadOnly.require.keeps.bind fun _ => ReadOnly.pure.keeps
  refine readOnly_symlinkMetadata.keeps.bind fun _ => ReadOnly.require.keeps.bind fun _ => ?_
  cases isNew with
  | true => exact (h.modify _ _).bind fun _ => (h.modify _ _).bind fun _ => hsettled
  | false => exact hsettled

theorem ensureUnixServiceDirectoryAt_preserves {fails : DirectoryStep → Bool}
    {created : FileMetadata} {path : Path} {uid gid : ℕ} (h : IgnoresDirectory g path) :
    Preserves g (ensureUnixServiceDirectoryAt fails created path uid gid) :=
  Preserves.of_keeps fun v => ensureUnixServiceDirectoryAt_keeps (h.kept v)

theorem prepareComponents_keeps {I : Disk → Prop} {path : Path} {paths : List Path}
    (h : ∀ p ∈ paths, ∀ fails, Keeps I (ensureUnixServiceDirectoryAt fails env.created p 0 0))
    (finalCreated : Bool) : Keeps I (prepareComponents env path paths finalCreated) := by
  induction paths generalizing finalCreated with
  | nil => exact ReadOnly.pure.keeps
  | cons current rest ih =>
    refine Keeps.bind ?_ fun missing => ?_
    · refine Keeps.recovering ?_ ReadOnly.pure.keeps
      exact readOnly_symlinkMetadata.keeps.bind fun _ => ReadOnly.pure.keeps
    refine (h current List.mem_cons_self _).bind fun _ => ?_
    exact ih (fun p hp => h p (List.mem_cons_of_mem current hp)) _

theorem prepareComponents_preserves {path : Path} {paths : List Path}
    (h : ∀ p ∈ paths, IgnoresDirectory g p) (finalCreated : Bool) :
    Preserves g (prepareComponents env path paths finalCreated) :=
  Preserves.of_keeps fun v => prepareComponents_keeps
    (fun p hp _ => ensureUnixServiceDirectoryAt_keeps ((h p hp).kept v)) finalCreated

theorem prepareUnixServiceDirectory_keeps {I : Disk → Prop} {path : Path} (hpath : path ≠ [])
    (h : ∀ p ∈ components path, ∀ fails,
      Keeps I (ensureUnixServiceDirectoryAt fails env.created p 0 0)) :
    Keeps I (prepareUnixServiceDirectory env path) := by
  have hlast : path ∈ components path := by
    obtain ⟨name, rest, rfl⟩ := List.exists_cons_of_ne_nil hpath
    have hinits : name :: rest ∈ (name :: rest).inits := (List.mem_inits _ _).mpr List.prefix_rfl
    rw [List.inits_cons] at hinits
    exact (List.mem_cons.mp hinits).resolve_left (List.cons_ne_nil _ _)
  refine (prepareComponents_keeps h false).bind fun finalCreated => ?_
  cases finalCreated with
  | true => exact ReadOnly.pure.keeps
  | false =>
    exact (h path hlast _).bind fun _ => ReadOnly.pure.keeps

theorem prepareUnixServiceDirectory_preserves {path : Path} (hpath : path ≠ [])
    (h : ∀ p ∈ components path, IgnoresDirectory g p) :
    Preserves g (prepareUnixServiceDirectory env path) :=
  Preserves.of_keeps fun v => prepareUnixServiceDirectory_keeps hpath fun p hp _ =>
    ensureUnixServiceDirectoryAt_keeps ((h p hp).kept v)

end Directory

/-! ## The descriptor of the service -/

section Descriptor

variable {env : InstallEnv} {path dir r : Path} {contents : String}
  {found : Option (Node FileMetadata)}

/-- Filling the stage of a descriptor reaches its path only by the last rename. -/
theorem fillDescriptor_spec {staged : Path} (hne : path ≠ staged) {m : FileMetadata} :
    Triple (fun s => s.lookup staged = some (.file [] m) ∧ s.lookup path = found)
      (fillDescriptor env staged path contents)
      (fun _ s => s.lookup path = some (.file (asBytes contents) ⟨0, 0, 0o644⟩))
      (fun s => s.lookup path = found) := by
  have hmodify : ∀ {fails : Bool} {f : List UInt8 → FileMetadata → List UInt8 × FileMetadata}
      {bytes : List UInt8} {m : FileMetadata},
      Triple (fun s => s.lookup staged = some (.file bytes m) ∧ s.lookup path = found)
        (modifyFile fails staged f)
        (fun _ s => s.lookup staged = some (.file (f bytes m).1 (f bytes m).2) ∧
          s.lookup path = found)
        (fun s => s.lookup path = found) := fun {_ _ _ _} =>
    (modifyFile_spec.frame (modifyFile_preserves hne) found).weaken (fun s hs => hs)
      (fun a s hs => ⟨hs.1.2, hs.2⟩) fun s hs => hs.2
  unfold fillDescriptor
  refine Triple.bind hmodify fun _ => Triple.bind hmodify fun _ => Triple.bind hmodify fun _ => ?_
  refine Triple.bind (R := fun _ s => s.lookup staged =
    some (.file (asBytes contents) ⟨0, 0, 0o644⟩) ∧ s.lookup path = found) ?_ fun _ => ?_
  · refine Triple.of_clean ReadOnly.require.clean (fun s hs => hs.2) fun s a s' hs h => ?_
    obtain ⟨-, rfl⟩ := require_eq_ok.mp h
    exact hs
  refine Triple.of_clean clean_rename (fun s hs => hs.2) fun s a s' hs h => ?_
  obtain ⟨-, -, node, hnode, -, rfl⟩ := rename_eq_ok.mp h
  rw [AList.lookup_insert, ← Option.some.inj (hs.1.symm.trans hnode)]

/-- **The descriptor is published whole or not at all.** -/
theorem publishServiceDescriptor_spec (hdir : parent path = some dir)
    (hne : path ≠ descriptorStage env dir) :
    Triple (fun s => s.lookup path = found) (publishServiceDescriptor env path contents)
      (fun _ s => s.lookup path = some (.file (asBytes contents) ⟨0, 0, 0o644⟩))
      (fun s => s.lookup path = found) := by
  unfold publishServiceDescriptor
  rw [hdir]
  refine Triple.bind (readOnly_symlinkMetadata.preserves.triple found) fun _ => ?_
  refine Triple.bind (require_preserves.triple found) fun _ => ?_
  refine Triple.bind (readOnly_findNode.preserves.triple found) fun _ => ?_
  refine Triple.bind (require_preserves.triple found) fun _ => ?_
  refine Triple.bind (R := fun _ s => s.lookup (descriptorStage env dir) =
    some (.file [] env.update.temporary) ∧ s.lookup path = found) ?_ fun _ => ?_
  · refine Triple.of_clean clean_createFile (fun s hs => hs) fun s a s' hs h => ?_
    obtain ⟨-, -, rfl⟩ := createFile_eq_ok.mp h
    exact ⟨AList.lookup_insert _, (AList.lookup_insert_ne hne).trans hs⟩
  exact Triple.onError (fillDescriptor_spec hne) ((removeFile_preserves hne).triple found)

/-- Only the descriptor and its stage are written. -/
theorem publishServiceDescriptor_preserves_of_ne (hdir : parent path = some dir) (hpath : r ≠ path)
    (hstage : r ≠ descriptorStage env dir) :
    Preserves (fun s : Disk => s.lookup r) (publishServiceDescriptor env path contents) := by
  have hfill : Preserves (fun s : Disk => s.lookup r)
      (fillDescriptor env (descriptorStage env dir) path contents) := by
    unfold fillDescriptor
    refine (modifyFile_preserves hstage).bind fun _ _ _ _ => ?_
    refine (modifyFile_preserves hstage).bind fun _ _ _ _ => ?_
    refine (modifyFile_preserves hstage).bind fun _ _ _ _ => ?_
    exact require_preserves.bind fun _ _ _ _ => rename_preserves hstage hpath
  unfold publishServiceDescriptor
  rw [hdir]
  refine readOnly_symlinkMetadata.preserves.bind fun _ _ _ _ => ?_
  refine require_preserves.bind fun _ _ _ _ => readOnly_findNode.preserves.bind fun _ _ _ _ => ?_
  refine require_preserves.bind fun _ _ _ _ => ?_
  refine (createFile_preserves hstage).bind fun _ _ _ _ => ?_
  exact hfill.onError (removeFile_preserves hstage)

end Descriptor

/-! ## The steps of an installation -/

section Steps

variable {env : InstallEnv} {mode : Mode} {port : UInt16} {source r : Path} {s s₁ : Disk}

theorem readOnly_runCommand {command : ServiceCommand} : ReadOnly (runCommand env command) := by
  unfold runCommand
  cases env.commandFails command with
  | none => exact ReadOnly.pure
  | some text => exact ReadOnly.throw

theorem readOnly_validateUnixServiceFilesAt : ReadOnly (validateUnixServiceFilesAt env mode) := by
  unfold validateUnixServiceFilesAt
  refine readOnly_symlinkMetadata.bind fun _ => ReadOnly.require.bind fun _ => ?_
  refine readOnly_symlinkMetadata.bind fun descriptor => ReadOnly.require.bind fun _ => ?_
  cases descriptor with
  | file bytes m => exact ReadOnly.require.bind fun _ => ReadOnly.require
  | directory m => exact ReadOnly.throw
  | other => exact ReadOnly.throw

/-- The service manager leaves the files alone. -/
theorem readOnly_startService : ReadOnly (startService env mode port) := by
  unfold startService restartService
  refine readOnly_runCommand.bind fun _ => readOnly_runCommand.bind fun _ => ?_
  refine ReadOnly.bind ?_ fun _ => ?_
  · exact readOnly_validateUnixServiceFilesAt.mapError.bind fun _ => readOnly_runCommand
  · unfold validateService
    cases env.unreachable with
    | none => exact ReadOnly.pure
    | some text => exact ReadOnly.throw

/-- Of the steps of an installation only the publication of the unit writes. -/
theorem after_installSteps (s : Disk) :
    after (installSteps env mode port) s =
      after (publishServiceDescriptor env (descriptorPath mode) (generateSystemdUnit mode)) s := by
  unfold installSteps writeUnixServiceDescriptor
  rw [after_bind_of_readOnly fun _ => readOnly_startService, after_mapError,
    after_bind_of_readOnly fun _ => readOnly_syncParentDirectory]

theorem installSteps_preserves_of_ne (hunit : r ≠ descriptorPath mode)
    (hstage : r ≠ descriptorStage env unitDirectory) :
    Preserves (fun s : Disk => s.lookup r) (installSteps env mode port) := by
  intro s
  rw [after_installSteps]
  exact publishServiceDescriptor_preserves_of_ne (parent_descriptorPath mode) hunit hstage s

/-- Nothing is written outside the directory of the units. -/
theorem installSteps_preserves (hr : parent r ≠ some unitDirectory) :
    Preserves (fun s : Disk => s.lookup r) (installSteps env mode port) := by
  have hne : ∀ p, parent p = some unitDirectory → r ≠ p := by
    rintro p hp rfl
    exact hr hp
  exact installSteps_preserves_of_ne (hne _ (parent_descriptorPath mode))
    (hne _ (parent_concat _ _))

end Steps

/-! ## What a failing installation leaves -/

section Install

variable {env : InstallEnv} {mode : Mode} {port : UInt16} {source r : Path}

/-- The update is begun and the unit is published. -/
def PublishesUnit (env : InstallEnv) (mode : Mode) (source : Path) (s : Disk) : Prop :=
  ∃ u s₁ s₂, beginProtectedBinaryUpdate env mode source s = (.update u, s₁) ∧
    publishServiceDescriptor env (descriptorPath mode) (generateSystemdUnit mode) s₁ = .ok () s₂

/-- Every step succeeds, and `commit` deletes the prior binary. -/
def DropsPriorBinary (env : InstallEnv) (mode : Mode) (source : Path) (port : UInt16)
    (s : Disk) : Prop :=
  ∃ u s₁ s₂, beginProtectedBinaryUpdate env mode source s = (.update u, s₁) ∧
    installSteps env mode port s₁ = .ok () s₂ ∧ u.DropsBackup env.update s₂

/-- **What the beginning of an update can do**, with the preparation of its directory: a failure
may remove the directory that was created. -/
theorem beginProtectedBinaryUpdate_cases (env : InstallEnv) (mode : Mode) (source : Path)
    (s : Disk) :
    (∃ e s₁, prepareUnixServiceDirectory env serviceDirectory s = .error e s₁ ∧
        beginProtectedBinaryUpdate env mode source s = (.refused e, s₁)) ∨
      ∃ createdParent s₁ begun s₂,
        prepareUnixServiceDirectory env serviceDirectory s = .ok createdParent s₁ ∧
        beginUnixProtectedBinaryUpdateAt env.update (serviceRequest mode source) s₁ =
          (begun, s₂) ∧
        ((∃ u, begun = .update u ∧
            beginProtectedBinaryUpdate env mode source s = (.update { u with createdParent }, s₂)) ∨
          (∀ u, begun ≠ .update u) ∧ ∃ s₃,
            beginProtectedBinaryUpdate env mode source s = (begun, s₃) ∧
              ∀ r, r ≠ serviceDirectory → s₃.lookup r = s₂.lookup r) := by
  unfold beginProtectedBinaryUpdate
  cases hprepare : prepareUnixServiceDirectory env serviceDirectory s with
  | error e s₁ => exact Or.inl ⟨e, s₁, rfl, rfl⟩
  | ok createdParent s₁ =>
    have hremove : ∀ (failed : Begun) (s₂ : Disk), ∃ s₃,
        (if createdParent then
          (failed, after (removeDir env.removeDirectoryFails serviceDirectory : DiskIo Unit) s₂)
        else (failed, s₂)) = (failed, s₃) ∧
          ∀ r, r ≠ serviceDirectory → s₃.lookup r = s₂.lookup r := by
      intro failed s₂
      cases createdParent with
      | false => exact ⟨s₂, rfl, fun r _ => rfl⟩
      | true => exact ⟨_, rfl, fun r hne => removeDir_preserves hne s₂⟩
    dsimp only
    rcases hbegin : beginUnixProtectedBinaryUpdateAt env.update (serviceRequest mode source) s₁
      with ⟨u | e | ⟨e, answer⟩, s₂⟩
    · exact Or.inr ⟨createdParent, s₁, .update u, s₂, rfl, hbegin, Or.inl ⟨u, rfl, rfl⟩⟩
    · exact Or.inr ⟨createdParent, s₁, .refused e, s₂, rfl, hbegin,
        Or.inr ⟨nofun, hremove (.refused e) s₂⟩⟩
    · exact Or.inr ⟨createdParent, s₁, .rolledBack e answer, s₂, rfl, hbegin,
        Or.inr ⟨nofun, hremove (.rolledBack e answer) s₂⟩⟩

theorem beginProtectedBinaryUpdate_lookup
    (hr : Unwritten env.update (linuxServiceBinaryPath mode) r)
    (hnot : r ∉ components serviceDirectory) (s : Disk) :
    (beginProtectedBinaryUpdate env mode source s).2.lookup r = s.lookup r := by
  have hprepare : Preserves (fun s : Disk => s.lookup r)
      (prepareUnixServiceDirectory env serviceDirectory) :=
    prepareUnixServiceDirectory_preserves (by decide) fun p hp =>
      ignoresDirectory_of_ne fun heq => hnot (heq ▸ hp)
  rcases beginProtectedBinaryUpdate_cases env mode source s with
    ⟨e, s₁, hrun, hbegin⟩ | ⟨createdParent, s₁, begun, s₂, hrun, hbegun, hbegin⟩
  · rw [hbegin]
    exact hprepare.eq_of_error hrun
  · have hs₂ : s₂.lookup r = s.lookup r := by
      have hkept : (beginUnixProtectedBinaryUpdateAt env.update (serviceRequest mode source)
          s₁).2.lookup r = s₁.lookup r :=
        beginUnixProtectedBinaryUpdateAt_lookup (parent_linuxServiceBinaryPath mode) hr s₁
      rw [hbegun] at hkept
      exact hkept.trans (hprepare.eq_of_ok hrun)
    rcases hbegin with ⟨u, rfl, hbegin⟩ | ⟨-, s₃, hbegin, hkept⟩
    · rw [hbegin]
      exact hs₂
    · rw [hbegin]
      have hne : r ≠ serviceDirectory := by
        rintro rfl
        exact hr.ne_parent (parent_linuxServiceBinaryPath mode)
      exact (hkept r hne).trans hs₂

/-- The preparation of the directory does not reach the binary. -/
theorem prepare_preserves_destination (env : InstallEnv) (mode : Mode) :
    Preserves (fun s : Disk => s.lookup (linuxServiceBinaryPath mode))
      (prepareUnixServiceDirectory env serviceDirectory) := by
  refine prepareUnixServiceDirectory_preserves (by decide) fun p hp => ?_
  apply ignoresDirectory_of_ne
  rintro rfl
  exact linuxServiceBinaryPath_not_mem mode hp

/-- The preparation of the directory changes no file. -/
theorem prepare_preserves_files (env : InstallEnv) (r : Path) :
    Preserves (fileAt r) (prepareUnixServiceDirectory env serviceDirectory) :=
  prepareUnixServiceDirectory_preserves (by decide) fun p _ => ignoresDirectory_fileAt p

/-- The beginning of an update, with the preparation of its directory. -/
theorem beginProtectedBinaryUpdate_settled (hmoveBack : env.update.beginFails .moveBack = false)
    (s : Disk) :
    (beginProtectedBinaryUpdate env mode source s).1.Settled (serviceRequest mode source)
      serviceDirectory s (beginProtectedBinaryUpdate env mode source s).2 := by
  have hdest := prepare_preserves_destination env mode
  have hsource := prepare_preserves_files env source
  rcases beginProtectedBinaryUpdate_cases env mode source s with
    ⟨e, s₁, hrun, hbegin⟩ | ⟨createdParent, s₁, begun, s₂, hrun, hbegun, hbegin⟩
  · rw [hbegin]
    exact hdest.eq_of_error hrun
  · have hprepared : (beginUnixProtectedBinaryUpdateAt env.update (serviceRequest mode source)
        s₁).1.Settled (serviceRequest mode source) serviceDirectory s₁
          (beginUnixProtectedBinaryUpdateAt env.update (serviceRequest mode source) s₁).2 :=
      beginUnixProtectedBinaryUpdateAt_settled hmoveBack (parent_linuxServiceBinaryPath mode)
        (linuxServiceBinaryPath_ne_stagePath env.update mode) s₁
    have hsettled := hprepared.of_start (hdest.eq_of_ok hrun) fun bytes m hfile =>
      (fileAt_eq_some.mp ((hsource.eq_of_ok hrun).symm.trans
        (fileAt_eq_some.mpr ⟨hfile, rfl⟩))).1
    rw [hbegun] at hsettled
    rcases hbegin with ⟨u, rfl, hbegin⟩ | ⟨hnot, s₃, hbegin, hkept⟩
    · rw [hbegin]
      exact fun created => hsettled created
    · have hremoved : s₃.lookup (linuxServiceBinaryPath mode) =
          s₂.lookup (linuxServiceBinaryPath mode) :=
        hkept _ (ne_of_parent (parent_linuxServiceBinaryPath mode))
      rw [hbegin]
      cases begun with
      | update u => exact absurd rfl (hnot u)
      | refused e => exact hremoved.trans hsettled
      | rolledBack e answer => exact fun hok => hremoved.trans (hsettled hok)

/-- The disk when the update of the binary is about to end, if it was begun. -/
def diskAfterSteps (env : InstallEnv) (mode : Mode) (source : Path) (port : UInt16) (s : Disk) :
    Disk :=
  match beginProtectedBinaryUpdate env mode source s with
  | (.update _, s₁) => after (installSteps env mode port) s₁
  | (_, s₁) => s₁

/-- An update that an installation has begun, without the mark of its directory. -/
theorem begun_of_beginProtectedBinaryUpdate {u : UnixProtectedBinaryUpdate} {s s' : Disk}
    (h : beginProtectedBinaryUpdate env mode source s = (.update u, s')) :
    ∃ createdParent s₁ u', prepareUnixServiceDirectory env serviceDirectory s =
        .ok createdParent s₁ ∧
      beginUnixProtectedBinaryUpdateAt env.update (serviceRequest mode source) s₁ =
        (.update u', s') ∧
      u = { u' with createdParent } := by
  rcases beginProtectedBinaryUpdate_cases env mode source s with
    ⟨e, s₁, -, hbegin⟩ | ⟨createdParent, s₁, begun, s₂, hrun, hbegun, hbegin⟩
  · rw [hbegin] at h
    cases h
  · rcases hbegin with ⟨u', rfl, hbegin⟩ | ⟨hnot, s₃, hbegin, -⟩
    · rw [hbegin] at h
      cases h
      exact ⟨createdParent, s₁, u', hrun, hbegun, rfl⟩
    · rw [hbegin] at h
      cases h
      exact absurd rfl (hnot u)

/-- The paths of the update that an installation has begun. -/
theorem beginProtectedBinaryUpdate_paths {u : UnixProtectedBinaryUpdate} {s s' : Disk}
    (h : beginProtectedBinaryUpdate env mode source s = (.update u, s')) :
    u.destination = linuxServiceBinaryPath mode ∧
      ∀ b, u.backup = some b → b = backupPath env.update serviceDirectory := by
  obtain ⟨createdParent, s₁, u', -, hbegun, rfl⟩ := begun_of_beginProtectedBinaryUpdate h
  exact beginUnixProtectedBinaryUpdateAt_paths (parent_linuxServiceBinaryPath mode) hbegun

/-- The end of the update leaves everything else alone. -/
theorem install_lookup (hr : Unwritten env.update (linuxServiceBinaryPath mode) r) (s : Disk) :
    (install env mode source port s).disk.lookup r =
      (diskAfterSteps env mode source port s).lookup r := by
  unfold install diskAfterSteps
  rcases hbegin : beginProtectedBinaryUpdate env mode source s with ⟨u | e | ⟨e, answer⟩, s₁⟩
  · obtain ⟨hdest, hname⟩ := beginProtectedBinaryUpdate_paths hbegin
    have hout : Unwritten env.update u.destination r := by
      rw [hdest]
      exact hr
    have hbackup : ∀ b, u.backup = some b → r ≠ b := by
      intro b hb
      rw [hname b hb]
      exact hr.ne_backup serviceDirectory (parent_linuxServiceBinaryPath mode)
    dsimp only
    cases hsteps : installSteps env mode port s₁ with
    | ok a s₂ =>
      rw [after_of_ok hsteps]
      exact commit_lookup hout hbackup s₂
    | error contexts s₂ =>
      rw [after_of_error hsteps]
      exact rollback_lookup hout hbackup s₂
  · rfl
  · rfl

/-- What an installation does not write. -/
theorem install_preserves (hr : Unwritten env.update (linuxServiceBinaryPath mode) r)
    (hnot : r ∉ components serviceDirectory) (hunit : r ≠ descriptorPath mode)
    (hstage : r ≠ descriptorStage env unitDirectory) (s : Disk) :
    (install env mode source port s).disk.lookup r = s.lookup r := by
  rw [install_lookup hr]
  have hbegun : (beginProtectedBinaryUpdate env mode source s).2.lookup r = s.lookup r :=
    beginProtectedBinaryUpdate_lookup hr hnot s
  unfold diskAfterSteps
  rcases hbegin : beginProtectedBinaryUpdate env mode source s with ⟨u | e | ⟨e, answer⟩, s₁⟩
  all_goals rw [hbegin] at hbegun
  · exact (installSteps_preserves_of_ne hunit hstage s₁).trans hbegun
  · exact hbegun
  · exact hbegun

/-- An installation writes below the directories of the binary and of the unit only. -/
theorem install_elsewhere (hr : Outside (linuxServiceBinaryPath mode) r)
    (hnot : r ∉ components serviceDirectory)
    (hunit : parent r ≠ some unitDirectory) (s : Disk) :
    (install env mode source port s).disk.lookup r = s.lookup r := by
  have hne : ∀ p, parent p = some unitDirectory → r ≠ p := by
    rintro p hp rfl
    exact hunit hp
  exact install_preserves hr.unwritten hnot (hne _ (parent_descriptorPath mode))
    (hne _ (parent_concat _ _)) s

/-- **An installation that publishes its unit keeps it**, and otherwise keeps the prior one. -/
theorem install_unit (mode : Mode) (source : Path) (port : UInt16) (s : Disk) :
    (PublishesUnit env mode source s → (install env mode source port s).disk.lookup
      (descriptorPath mode) = some (canonicalUnit mode)) ∧
    (¬PublishesUnit env mode source s → (install env mode source port s).disk.lookup
      (descriptorPath mode) = s.lookup (descriptorPath mode)) := by
  rw [install_lookup (outside_descriptorPath mode).unwritten]
  have hbegun : (beginProtectedBinaryUpdate env mode source s).2.lookup (descriptorPath mode) =
      s.lookup (descriptorPath mode) :=
    beginProtectedBinaryUpdate_lookup (outside_descriptorPath mode).unwritten
      (descriptorPath_not_mem mode) s
  unfold diskAfterSteps PublishesUnit
  rcases hbegin : beginProtectedBinaryUpdate env mode source s with ⟨u | e | ⟨e, answer⟩, s₁⟩
  · rw [hbegin] at hbegun
    dsimp only
    rw [after_installSteps]
    have hspec : Triple (fun s' => s'.lookup (descriptorPath mode) =
          s.lookup (descriptorPath mode))
        (publishServiceDescriptor env (descriptorPath mode) (generateSystemdUnit mode))
        (fun _ s' => s'.lookup (descriptorPath mode) = some (canonicalUnit mode))
        (fun s' => s'.lookup (descriptorPath mode) = s.lookup (descriptorPath mode)) :=
      publishServiceDescriptor_spec (parent_descriptorPath mode)
        (descriptorPath_ne_descriptorStage env mode)
    obtain ⟨hok, herror⟩ := hspec s₁ hbegun
    cases hpublish : publishServiceDescriptor env (descriptorPath mode)
        (generateSystemdUnit mode) s₁ with
    | ok a s₂ =>
      rw [after_of_ok hpublish]
      exact ⟨fun _ => hok a s₂ hpublish, fun hno => absurd ⟨u, s₁, s₂, rfl, hpublish⟩ hno⟩
    | error e s₂ =>
      rw [after_of_error hpublish]
      refine ⟨?_, fun _ => herror e s₂ hpublish⟩
      rintro ⟨u', s₁', s₂', heq, hpublished⟩
      obtain ⟨-, rfl⟩ := Prod.mk.inj heq
      rw [hpublish] at hpublished
      cases hpublished
  · rw [hbegin] at hbegun
    refine ⟨?_, fun _ => hbegun⟩
    rintro ⟨u', s₁', s₂', heq, -⟩
    cases heq
  · rw [hbegin] at hbegun
    refine ⟨?_, fun _ => hbegun⟩
    rintro ⟨u', s₁', s₂', heq, -⟩
    cases heq

/-- The steps after the update was begun write in the directory of the units. -/
theorem Pending.after_installSteps {s s₁ : Disk} {u : UnixProtectedBinaryUpdate}
    (h : Pending (serviceRequest mode source) serviceDirectory s s₁ u) :
    Pending (serviceRequest mode source) serviceDirectory s
      (after (installSteps env mode port) s₁) u := by
  refine h.congr (parent_linuxServiceBinaryPath mode) fun p hp => ?_
  refine installSteps_preserves ?_ s₁
  rcases hp with hp | rfl
  · rw [hp]
    decide
  · decide

/-- A rollback that does not answer an error succeeds. -/
theorem answer_eq_ok {ε : Type} {answer : Except ε Unit}
    (h : ∀ e, some answer ≠ some (.error e)) : answer = .ok () := by
  cases answer with
  | ok a => rfl
  | error e => exact absurd rfl (h e)

/-- **A failing installation restores the prior binary**, if the rollback succeeds, unless
`commit` has deleted it. -/
theorem install_binary (hmoveBack : env.update.beginFails .moveBack = false) {s : Disk}
    {contexts : List String} (herror : (install env mode source port s).answer = .error contexts)
    (hrollback : ∀ e, (install env mode source port s).rollback ≠ some (.error e)) :
    (DropsPriorBinary env mode source port s → ∃ bytes m, s.lookup source = some (.file bytes m) ∧
      (install env mode source port s).disk.lookup (linuxServiceBinaryPath mode) =
        some (.file bytes ⟨0, 0, 0o755⟩)) ∧
    (¬DropsPriorBinary env mode source port s → (install env mode source port s).disk.lookup
      (linuxServiceBinaryPath mode) = s.lookup (linuxServiceBinaryPath mode)) := by
  have hsettled : (beginProtectedBinaryUpdate env mode source s).1.Settled
      (serviceRequest mode source) serviceDirectory s _ :=
    beginProtectedBinaryUpdate_settled hmoveBack s
  unfold install DropsPriorBinary at *
  rcases hbegin : beginProtectedBinaryUpdate env mode source s with ⟨u | e | ⟨e, answer⟩, s₁⟩
  · rw [hbegin] at hsettled herror hrollback
    have hbegun : Pending (serviceRequest mode source) serviceDirectory s s₁ u :=
      hsettled u.createdParent
    dsimp only at herror hrollback ⊢
    have hpending : Pending (serviceRequest mode source) serviceDirectory s
        (after (installSteps env mode port) s₁) u := hbegun.after_installSteps
    cases hsteps : installSteps env mode port s₁ with
    | ok a s₂ =>
      rw [after_of_ok hsteps] at hpending
      rw [hsteps] at herror hrollback
      dsimp only at herror hrollback ⊢
      obtain ⟨e, hfailed⟩ : ∃ e, (u.commit env.update s₂).answer = .error e := by
        cases hanswer : (u.commit env.update s₂).answer with
        | ok a =>
          rw [hanswer] at herror
          cases herror
        | error e => exact ⟨e, rfl⟩
      rw [hfailed] at hrollback
      refine ⟨?_, fun hno => ?_⟩
      · rintro ⟨u', s₁', s₂', heq, hok, hdrops⟩
        obtain ⟨hu, rfl⟩ := Prod.mk.inj heq
        obtain rfl := Begun.update.inj hu
        rw [hsteps] at hok
        obtain ⟨-, rfl⟩ := EStateM.Result.ok.inj hok
        obtain ⟨bytes, m, hsource, hnew⟩ := hpending.published
        exact ⟨bytes, m, hsource, (hpending.commit_dropsBackup hdrops).trans hnew⟩
      · exact hpending.commit_error (fun hdrops => hno ⟨u, s₁, s₂, rfl, hsteps, hdrops⟩) hfailed
          hrollback
    | error steps s₂ =>
      rw [after_of_error hsteps] at hpending
      rw [hsteps] at hrollback
      dsimp only at hrollback ⊢
      refine ⟨?_, fun _ => hpending.rollback (answer_eq_ok hrollback)⟩
      rintro ⟨u', s₁', s₂', heq, hok, -⟩
      obtain ⟨-, rfl⟩ := Prod.mk.inj heq
      rw [hsteps] at hok
      cases hok
  · rw [hbegin] at hsettled
    refine ⟨?_, fun _ => hsettled⟩
    rintro ⟨u', s₁', s₂', heq, -⟩
    cases heq
  · rw [hbegin] at hsettled hrollback
    refine ⟨?_, fun _ => hsettled (answer_eq_ok hrollback)⟩
    rintro ⟨u', s₁', s₂', heq, -⟩
    cases heq

end Install

end Wakezilla
