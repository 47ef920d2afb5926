/-
# Setting up a host

`apply_with_key` of `src/setup.rs` on Linux: it saves the configuration with the chosen port
and installs the service.  When the installation fails, its rollback covers the protected
binary.  The configuration stays as it was saved and the unit as it was published, so a failing
setup leaves the host as it was only if there was nothing to undo
(`setup_all_or_nothing_iff`).
-/
import Wakezilla.Config
import Wakezilla.ServiceInstall
import Wakezilla.Storage

namespace Wakezilla

open FileSystem Fallible

/-- `config_path` on Linux. -/
def configPath : Path := ["etc", "wakezilla", "config.toml"]

/-- What the environment chooses.  `linkedConfig` is what stands behind a configuration path that
is neither a file nor a directory. -/
structure SetupEnv where
  currentExe : Option Path
  crate : ConfigCrate
  environment : Environment
  base64 : Base64Engine
  configUnreadable : Bool
  linkedConfig : Option (List UInt8)
  mkdirFails : Path → Bool
  saveFault : SaveFault
  newDirectory : FileMetadata
  newFile : FileMetadata
  install : InstallEnv

/-! ## The configuration to save -/

namespace Config

/-- The chosen port goes to the server of the mode. -/
def setPort (cfg : Config) (mode : Mode) (port : UInt16) : Config :=
  match mode with
  | .proxy => { cfg with server := { cfg.server with proxyPort := port } }
  | .client => { cfg with server := { cfg.server with clientPort := port } }

/-- Relative default paths become paths in the data directory. -/
def settlePaths (cfg : Config) : Config :=
  { cfg with
    storage := { cfg.storage with
      machinesDbPath :=
        if cfg.storage.machinesDbPath = defaultMachinesDbPath then dataPath defaultMachinesDbPath
        else cfg.storage.machinesDbPath
      accessHistoryPath :=
        if cfg.storage.accessHistoryPath = defaultAccessHistoryPath then
          dataPath defaultAccessHistoryPath
        else cfg.storage.accessHistoryPath } }

end Config

/-- `build_config`. -/
def buildConfig (mode : Mode) (port : UInt16) : Config :=
  let cfg := Config.default.setPort mode port
  { cfg with
    storage := { cfg.storage with
      machinesDbPath := dataPath defaultMachinesDbPath
      accessHistoryPath := dataPath defaultAccessHistoryPath } }

/-- The configuration that a setup starts from. -/
def existingConfig (env : SetupEnv) (mode : Mode) (port : UInt16) (s : Disk) : Config :=
  let reload (file : Option (List UInt8)) : Config :=
    match Config.loadFrom env.crate file env.environment with
    | .ok cfg => cfg
    | .error _ => buildConfig mode port
  if env.configUnreadable then buildConfig mode port
  else
    match s.lookup configPath with
    | none => buildConfig mode port
    | some (.file bytes _) => reload (some bytes)
    -- the `config` crate reads files, and the file need not exist
    | some (.directory _) => reload none
    | some .other =>
      match env.linkedConfig with
      | none => buildConfig mode port
      | some bytes => reload (some bytes)

/-- The configuration that `apply_with_key` saves. -/
def targetConfig (env : SetupEnv) (mode : Mode) (port : UInt16) (clientKey : Option String)
    (s : Disk) : Except (List String) Config :=
  let cfg := (existingConfig env mode port s).setPort mode port
  match mode, clientKey with
  | .client, some key =>
    match validateKey env.base64 key with
    | .error e => .error ["invalid client shutdown key", e]
    | .ok _ => .ok (Config.settlePaths { cfg with security := { clientShutdownKey := some key } })
  | _, _ => .ok cfg.settlePaths

/-! ## Saving it -/

/-- The beginning of `write_secret_file`: the file is open, and what it held is gone. -/
def openSecretFile (env : SetupEnv) (path : Path) : DiskIo Unit := do
  createDirAll (fun dir => env.saveFault = .createDirAll && env.mkdirFails dir) env.newDirectory
    ((parent path).elim [] components)
  openTruncate (env.saveFault = .openFile) path env.newFile

/-- `write_all`. -/
def writeSecret (env : SetupEnv) (path : Path) (contents : List UInt8) : DiskIo Unit :=
  match env.saveFault with
  | .writeAll written => do
    modifyFile false path fun _ m => (contents.take written, m)
    throw .other
  | _ => modifyFile false path fun _ m => (contents, m)

/-- The rest of `write_secret_file`. -/
def fillSecretFile (env : SetupEnv) (path : Path) (contents : List UInt8) : DiskIo Unit := do
  modifyFile (env.saveFault = .setPermissions) path fun b m => (b, { m with mode := 0o600 })
  writeSecret env path contents
  require (env.saveFault ≠ .syncAll) .other

/-- `save_to`. -/
def Config.saveTo (env : SetupEnv) (cfg : Config) (path : Path) : Setup Unit :=
  match env.crate.toStringPretty cfg with
  | .error e => throw [e]
  | .ok text => mapError (fun _ => []) do
    openSecretFile env path
    fillSecretFile env path text

/-! ## The setup -/

/-- `apply_with_key`, up to the installation; answers the path of the executable. -/
def configure (env : SetupEnv) (mode : Mode) (port : UInt16) (clientKey : Option String) :
    Setup Path := fun s =>
  match env.currentExe with
  | none => .error ["failed to resolve current executable path"] s
  | some exe =>
    match targetConfig env mode port clientKey s with
    | .error contexts => .error contexts s
    | .ok cfg =>
      match cfg.saveTo env configPath s with
      | .error contexts s₁ =>
        .error (("failed to write config to " ++ displayPath configPath) :: contexts) s₁
      | .ok _ s₁ => .ok exe s₁

/-- How a setup ends: its answer, the disk, and the answer of the rollback that ran, if one
did. -/
structure SetUp where
  answer : Except (List String) Path
  disk : Disk
  rollback : Option (Except ErrorKind Unit)

/-- `apply_with_key`. -/
def applyWithKey (env : SetupEnv) (mode : Mode) (port : UInt16) (clientKey : Option String)
    (s : Disk) : SetUp :=
  match configure env mode port clientKey s with
  | .error contexts s₁ => ⟨.error contexts, s₁, none⟩
  | .ok exe s₁ =>
    let installed := install env.install mode exe port s₁
    ⟨match installed.answer with
      | .ok _ => .ok configPath
      | .error contexts => .error ("failed to install system service" :: contexts),
      installed.disk, installed.rollback⟩

/-! ## When there is nothing to undo -/

/-- The files that a setup is about. -/
def setupFiles (mode : Mode) : List Path :=
  [configPath, descriptorPath mode, linuxServiceBinaryPath mode]

/-- What a save leaves in the file that it has opened. -/
def SaveFault.leaves (fault : SaveFault) (contents : List UInt8) (m : FileMetadata) :
    Node FileMetadata :=
  match fault with
  | .setPermissions => .file [] m
  | .writeAll written => .file (contents.take written) { m with mode := 0o600 }
  | _ => .file contents { m with mode := 0o600 }

/-- Owner and mode of the configuration file once it is open. -/
def openedMetadata (env : SetupEnv) (s : Disk) : FileMetadata :=
  match s.lookup configPath with
  | some (.file _ m) => m
  | _ => env.newFile

/-- The setup opens the configuration file to write `contents`. -/
def OpensConfig (env : SetupEnv) (mode : Mode) (port : UInt16) (clientKey : Option String)
    (contents : List UInt8) (s : Disk) : Prop :=
  env.currentExe.isSome = true ∧ ∃ cfg s₁, targetConfig env mode port clientKey s = .ok cfg ∧
    env.crate.toStringPretty cfg = .ok contents ∧ openSecretFile env configPath s = .ok () s₁

/-- What a setup writes and does not undo was there before. -/
structure NothingToUndo (env : SetupEnv) (mode : Mode) (port : UInt16) (clientKey : Option String)
    (s : Disk) : Prop where
  /-- If the configuration is opened, it was what the save leaves. -/
  config : ∀ contents, OpensConfig env mode port clientKey contents s →
    s.lookup configPath = some (env.saveFault.leaves contents (openedMetadata env s))
  /-- If the unit is published, it was the unit of the mode. -/
  unit : ∀ exe s₁, configure env mode port clientKey s = .ok exe s₁ →
    PublishesUnit env.install mode exe s₁ →
      s.lookup (descriptorPath mode) = some (canonicalUnit mode)
  /-- If the prior binary is deleted, it was the executable. -/
  binary : ∀ exe s₁, configure env mode port clientKey s = .ok exe s₁ →
    DropsPriorBinary env.install mode exe port s₁ →
      ∃ bytes m, s₁.lookup exe = some (.file bytes m) ∧
        s.lookup (linuxServiceBinaryPath mode) = some (.file bytes ⟨0, 0, 0o755⟩)

/-! ## What a save leaves -/

section Save

variable {env : SetupEnv} {mode : Mode} {port : UInt16} {clientKey : Option String} {r : Path}
  {contents : List UInt8}

theorem configPath_not_mem : configPath ∉ (parent configPath).elim [] components := by decide

/-- An entry that is neither the configuration nor a directory above it. -/
structure OutsideConfig (r : Path) : Prop where
  ne : r ≠ configPath
  not_mem : r ∉ (parent configPath).elim [] components

theorem outsideConfig_descriptorPath (mode : Mode) : OutsideConfig (descriptorPath mode) := by
  cases mode <;> exact ⟨by decide, by decide⟩

theorem outsideConfig_linuxServiceBinaryPath (mode : Mode) :
    OutsideConfig (linuxServiceBinaryPath mode) := by
  cases mode <;> exact ⟨by decide, by decide⟩

/-- Opening truncates the configuration or leaves it. -/
theorem openSecretFile_spec (env : SetupEnv) {found : Option (Node FileMetadata)} :
    Triple (fun s => s.lookup configPath = found) (openSecretFile env configPath)
      (fun _ s => s.lookup configPath = some (.file [] (match found with
        | some (.file _ m) => m
        | _ => env.newFile)))
      (fun s => s.lookup configPath = found) := by
  unfold openSecretFile
  refine Triple.bind ((createDirAll_preserves configPath_not_mem).triple found) fun _ => ?_
  refine Triple.of_clean clean_openTruncate (fun s hs => hs) fun s a s' hs h => ?_
  obtain ⟨-, ⟨hfree, rfl⟩ | ⟨bytes, m, hthere, rfl⟩⟩ := openTruncate_eq_ok.mp h
  · rw [AList.lookup_insert, ← hs, hfree]
  · rw [AList.lookup_insert, ← hs, hthere]

/-- `write_all` writes everything, or what its fault lets through. -/
theorem writeSecret_spec {path : Path} {m : FileMetadata} :
    Triple (fun s => s.lookup path = some (.file [] m)) (writeSecret env path contents)
      (fun _ s => (∀ written, env.saveFault ≠ .writeAll written) ∧
        s.lookup path = some (.file contents m))
      (fun s => ∃ written, env.saveFault = .writeAll written ∧
        s.lookup path = some (.file (contents.take written) m)) := by
  unfold writeSecret
  split
  · next written hfault =>
    refine Triple.bind (R := fun _ s => s.lookup path = some (.file (contents.take written) m))
      (modifyFile_spec.weaken (fun s hs => hs) (fun a s hs => hs.2) fun s hs => ?_) fun _ => ?_
    · cases hs.1
    · intro s hs
      refine ⟨fun a s' h => (by cases h), fun e s' h => ?_⟩
      obtain ⟨-, rfl⟩ := EStateM.Result.error.inj h
      exact ⟨written, hfault, hs⟩
  · next hfault =>
    refine modifyFile_spec.weaken (fun s hs => hs) (fun a s hs => ⟨hfault, hs.2⟩) fun s hs => ?_
    cases hs.1

/-- However the rest of a save ends, it leaves what its fault says. -/
theorem fillSecretFile_spec (contents : List UInt8) {path : Path} {m : FileMetadata} :
    Triple (fun s => s.lookup path = some (.file [] m)) (fillSecretFile env path contents)
      (fun _ s => env.saveFault.BeforeTruncate ∧
        s.lookup path = some (env.saveFault.leaves contents m))
      (fun s => ¬env.saveFault.BeforeTruncate ∧
        s.lookup path = some (env.saveFault.leaves contents m)) := by
  unfold fillSecretFile
  refine Triple.bind (modifyFile_spec.weaken (fun s hs => hs) (fun a s hs => hs) fun s hs => ?_)
    fun _ => Triple.of_and fun hpermitted => ?_
  · rw [of_decide_eq_true hs.1]
    exact ⟨not_false, hs.2⟩
  refine Triple.bind (writeSecret_spec.weaken (fun s hs => hs) (fun a s hs => hs) fun s hs => ?_)
    fun _ => Triple.of_and fun hwritten => ?_
  · obtain ⟨written, hfault, hleft⟩ := hs
    rw [hfault]
    exact ⟨not_false, hleft⟩
  -- what is left to fail is the flush, and it changes nothing
  have hfault := of_decide_eq_false hpermitted
  intro s hs
  cases hcase : env.saveFault with
  | setPermissions => exact absurd hcase hfault
  | writeAll written => exact absurd hcase (hwritten written)
  | syncAll =>
    refine ⟨fun a s' h => (by cases h), fun e s' h => ?_⟩
    obtain ⟨-, rfl⟩ := EStateM.Result.error.inj h
    exact ⟨not_false, hs⟩
  | noFault | createDirAll | openFile =>
    refine ⟨fun a s' h => ?_, fun e s' h => by cases h⟩
    obtain ⟨-, rfl⟩ := EStateM.Result.ok.inj h
    exact ⟨trivial, hs⟩

/-- Nothing else is written by a save. -/
theorem saveTo_preserves (hr : OutsideConfig r) (cfg : Config) :
    Preserves (fun s : Disk => s.lookup r) (cfg.saveTo env configPath) := by
  have hopen : Preserves (fun s : Disk => s.lookup r) (openSecretFile env configPath) :=
    (createDirAll_preserves hr.not_mem).bind fun _ _ _ _ => openTruncate_preserves hr.ne
  have hwrite : ∀ text, Preserves (fun s : Disk => s.lookup r)
      (writeSecret env configPath text) := by
    intro text
    unfold writeSecret
    split
    · exact (modifyFile_preserves hr.ne).bind fun _ _ _ _ => ReadOnly.throw.preserves
    · exact modifyFile_preserves hr.ne
  unfold Config.saveTo
  cases env.crate.toStringPretty cfg with
  | error e => exact ReadOnly.throw.preserves
  | ok text =>
    refine Preserves.mapError (hopen.bind fun _ _ _ _ => ?_)
    refine (modifyFile_preserves hr.ne).bind fun _ _ _ _ => ?_
    exact (hwrite text).bind fun _ _ _ _ => require_preserves

theorem configure_preserves (hr : OutsideConfig r) :
    Preserves (fun s : Disk => s.lookup r) (configure env mode port clientKey) := by
  intro s
  unfold after configure
  cases env.currentExe with
  | none => rfl
  | some exe =>
    cases targetConfig env mode port clientKey s with
    | error contexts => rfl
    | ok cfg =>
      have hsave : Preserves (fun s : Disk => s.lookup r) (cfg.saveTo env configPath) :=
        saveTo_preserves hr cfg
      dsimp only
      cases hrun : cfg.saveTo env configPath s with
      | error contexts s₁ => exact hsave.eq_of_error hrun
      | ok a s₁ => exact hsave.eq_of_ok hrun

/-- A save that opens the configuration leaves what its fault says, and otherwise the
configuration stays. -/
theorem saveTo_config {cfg : Config} {text : List UInt8}
    (htext : env.crate.toStringPretty cfg = .ok text) (s : Disk) :
    ((∃ s₁, openSecretFile env configPath s = .ok () s₁) →
      (after (cfg.saveTo env configPath) s).lookup configPath =
        some (env.saveFault.leaves text (openedMetadata env s))) ∧
    ((¬∃ s₁, openSecretFile env configPath s = .ok () s₁) →
      (after (cfg.saveTo env configPath) s).lookup configPath = s.lookup configPath) := by
  obtain ⟨hok, herror⟩ := openSecretFile_spec env s rfl
  unfold Config.saveTo
  rw [htext, after_mapError]
  cases hopen : openSecretFile env configPath s with
  | ok a s₁ =>
    refine ⟨fun _ => ?_, fun hno => absurd ⟨s₁, rfl⟩ hno⟩
    rw [after_bind_of_ok hopen]
    exact ((fillSecretFile_spec text).weaken (fun s hs => hs) (fun a s hs => hs.2)
      fun s hs => hs.2).after (hok a s₁ hopen)
  | error e s₁ =>
    refine ⟨?_, fun _ => ?_⟩
    · rintro ⟨s₁', h⟩
      cases h
    · rw [after_of_error (bind_of_error hopen)]
      exact herror e s₁ hopen

/-- The bytes of a file. -/
def bytesAt (path : Path) (s : Disk) : Database :=
  match s.lookup path with
  | some (.file bytes _) => some bytes
  | _ => none

/-- A save on the disk is one of the runs of `writeSecretFile`. -/
theorem saveTo_refines {cfg : Config} {text : List UInt8}
    (htext : env.crate.toStringPretty cfg = .ok text) (s : Disk) :
    ∃ fault, ((∃ s', cfg.saveTo env configPath s = .ok () s') ↔
        (writeSecretFile fault text (bytesAt configPath s)).1 = true) ∧
      bytesAt configPath (after (cfg.saveTo env configPath) s) =
        (writeSecretFile fault text (bytesAt configPath s)).2 := by
  obtain ⟨hok, herror⟩ := openSecretFile_spec env s rfl
  unfold Config.saveTo
  rw [htext, after_mapError]
  simp only [mapError_eq_ok]
  cases hopen : openSecretFile env configPath s with
  | error e s₁ =>
    refine ⟨.openFile, ⟨?_, fun h => by cases h⟩, ?_⟩
    · rintro ⟨s', h⟩
      rw [bind_of_error hopen] at h
      cases h
    · rw [after_of_error (bind_of_error hopen)]
      unfold bytesAt
      rw [herror e s₁ hopen]
      rfl
  | ok a s₁ =>
    rw [bind_of_ok hopen]
    rw [after_bind_of_ok hopen]
    obtain ⟨hfilled, hstopped⟩ := fillSecretFile_spec text s₁ (hok a s₁ hopen)
    cases hfill : fillSecretFile env configPath text s₁ with
    | ok a s₂ =>
      obtain ⟨hbefore, hleft⟩ := hfilled a s₂ hfill
      refine ⟨.noFault, ⟨fun _ => rfl, fun _ => ⟨s₂, rfl⟩⟩, ?_⟩
      rw [after_of_ok hfill]
      unfold bytesAt
      rw [hleft]
      cases hfault : env.saveFault with
      | noFault | createDirAll | openFile => rfl
      | setPermissions | writeAll | syncAll =>
        rw [hfault] at hbefore
        exact hbefore.elim
    | error e s₂ =>
      obtain ⟨hbefore, hleft⟩ := hstopped e s₂ hfill
      rw [after_of_error hfill]
      unfold bytesAt
      rw [hleft]
      cases hfault : env.saveFault with
      | noFault | createDirAll | openFile =>
        rw [hfault] at hbefore
        exact absurd trivial hbefore
      | setPermissions => exact ⟨.setPermissions, ⟨fun h => (by cases h.choose_spec),
          fun h => (by cases h)⟩, rfl⟩
      | writeAll written => exact ⟨.writeAll written, ⟨fun h => (by cases h.choose_spec),
          fun h => (by cases h)⟩, rfl⟩
      | syncAll => exact ⟨.syncAll, ⟨fun h => (by cases h.choose_spec),
          fun h => (by cases h)⟩, rfl⟩

/-- **A configuration that is opened stays as saved**, and otherwise as it was. -/
theorem configure_config (env : SetupEnv) (mode : Mode) (port : UInt16)
    (clientKey : Option String) (s : Disk) :
    (∀ contents, OpensConfig env mode port clientKey contents s →
      (after (configure env mode port clientKey) s).lookup configPath =
        some (env.saveFault.leaves contents (openedMetadata env s))) ∧
    ((∀ contents, ¬OpensConfig env mode port clientKey contents s) →
      (after (configure env mode port clientKey) s).lookup configPath = s.lookup configPath) := by
  unfold OpensConfig
  cases hexe : env.currentExe with
  | none =>
    refine ⟨fun contents h => (by cases h.1), fun _ => ?_⟩
    unfold after configure
    rw [hexe]
  | some exe =>
    cases htarget : targetConfig env mode port clientKey s with
    | error contexts =>
      refine ⟨?_, fun _ => ?_⟩
      · rintro contents ⟨-, cfg, s₁, hcfg, -⟩
        cases hcfg
      · simp only [after, configure, hexe, htarget]
    | ok cfg =>
      have hafter : after (configure env mode port clientKey) s =
          after (cfg.saveTo env configPath) s := by
        simp only [after, configure, hexe, htarget]
        cases cfg.saveTo env configPath s <;> rfl
      rw [hafter]
      cases htext : env.crate.toStringPretty cfg with
      | error e =>
        refine ⟨?_, fun _ => ?_⟩
        · rintro contents ⟨-, cfg', s₁, hcfg, htext', -⟩
          obtain rfl := Except.ok.inj hcfg
          rw [htext] at htext'
          cases htext'
        · unfold Config.saveTo
          rw [htext]
          rfl
      | ok text =>
        obtain ⟨hopened, hclosed⟩ := saveTo_config htext s
        refine ⟨?_, fun hno => hclosed ?_⟩
        · rintro contents ⟨-, cfg', s₁, hcfg, htext', hopen⟩
          obtain rfl := Except.ok.inj hcfg
          obtain rfl := Except.ok.inj (htext.symm.trans htext')
          exact hopened ⟨s₁, hopen⟩
        · rintro ⟨s₁, hopen⟩
          exact hno text ⟨rfl, cfg, s₁, rfl, htext, hopen⟩

end Save

/-! ## All or nothing -/

section Setup

variable {env : SetupEnv} {mode : Mode} {port : UInt16} {clientKey : Option String} {s : Disk}

/-- What happens when `p` holds, and what otherwise, decide together when nothing changes. -/
theorem unchanged_iff {α : Type} {p : Prop} {left prior final : α} (h : p → final = left)
    (hno : ¬p → final = prior) : final = prior ↔ (p → prior = left) := by
  by_cases hp : p
  · rw [h hp]
    exact ⟨fun heq _ => heq.symm, fun heq => (heq hp).symm⟩
  · exact ⟨fun _ h => absurd h hp, fun _ => hno hp⟩

/-- After the configuration the installation writes on. -/
theorem applyWithKey_lookup {r : Path} (hr : Outside (linuxServiceBinaryPath mode) r)
    (hnot : r ∉ components serviceDirectory) (hunit : parent r ≠ some unitDirectory) (s : Disk) :
    (applyWithKey env mode port clientKey s).disk.lookup r =
      (after (configure env mode port clientKey) s).lookup r := by
  unfold applyWithKey after
  cases configure env mode port clientKey s with
  | error contexts s₁ => rfl
  | ok exe s₁ => exact install_elsewhere hr hnot hunit s₁

theorem outside_configPath (mode : Mode) : Outside (linuxServiceBinaryPath mode) configPath := by
  cases mode <;> exact ⟨by decide, by decide⟩

theorem setup_config (env : SetupEnv) (mode : Mode) (port : UInt16) (clientKey : Option String)
    (s : Disk) :
    (applyWithKey env mode port clientKey s).disk.lookup configPath = s.lookup configPath ↔
      ∀ contents, OpensConfig env mode port clientKey contents s →
        s.lookup configPath = some (env.saveFault.leaves contents (openedMetadata env s)) := by
  rw [applyWithKey_lookup (outside_configPath mode) (by decide) (by decide)]
  obtain ⟨hopened, hclosed⟩ := configure_config env mode port clientKey s
  by_cases hopens : ∃ contents, OpensConfig env mode port clientKey contents s
  · obtain ⟨contents, hcontents⟩ := hopens
    rw [hopened contents hcontents]
    refine ⟨fun heq contents' h => ?_, fun h => (h contents hcontents).symm⟩
    rw [← heq, ← hopened contents' h, hopened contents hcontents]
  · have hno := not_exists.mp hopens
    exact ⟨fun _ contents h => absurd h (hno contents), fun _ => hclosed hno⟩

theorem setup_unit (env : SetupEnv) (mode : Mode) (port : UInt16) (clientKey : Option String)
    (s : Disk) :
    (applyWithKey env mode port clientKey s).disk.lookup (descriptorPath mode) =
        s.lookup (descriptorPath mode) ↔
      ∀ exe s₁, configure env mode port clientKey s = .ok exe s₁ →
        PublishesUnit env.install mode exe s₁ →
          s.lookup (descriptorPath mode) = some (canonicalUnit mode) := by
  have hkeep : Preserves (fun s : Disk => s.lookup (descriptorPath mode))
      (configure env mode port clientKey) :=
    configure_preserves (outsideConfig_descriptorPath mode)
  unfold applyWithKey
  cases hconfigure : configure env mode port clientKey s with
  | error contexts s₁ =>
    exact ⟨fun _ exe s₁' h => (by cases h), fun _ => hkeep.eq_of_error hconfigure⟩
  | ok exe s₁ =>
    have hs₁ := hkeep.eq_of_ok hconfigure
    obtain ⟨hpublished, hkept⟩ := install_unit mode exe port s₁
    rw [hs₁] at hkept
    refine (unchanged_iff hpublished hkept).trans ⟨fun h exe' s₁' heq => ?_, fun h => h exe s₁ rfl⟩
    obtain ⟨rfl, rfl⟩ := EStateM.Result.ok.inj heq
    exact h

theorem setup_binary (hmoveBack : env.install.update.beginFails .moveBack = false)
    {contexts : List String}
    (herror : (applyWithKey env mode port clientKey s).answer = .error contexts)
    (hrollback : ∀ e, (applyWithKey env mode port clientKey s).rollback ≠ some (.error e)) :
    (applyWithKey env mode port clientKey s).disk.lookup (linuxServiceBinaryPath mode) =
        s.lookup (linuxServiceBinaryPath mode) ↔
      ∀ exe s₁, configure env mode port clientKey s = .ok exe s₁ →
        DropsPriorBinary env.install mode exe port s₁ →
          ∃ bytes m, s₁.lookup exe = some (.file bytes m) ∧
            s.lookup (linuxServiceBinaryPath mode) = some (.file bytes ⟨0, 0, 0o755⟩) := by
  have hkeep : Preserves (fun s : Disk => s.lookup (linuxServiceBinaryPath mode))
      (configure env mode port clientKey) :=
    configure_preserves (outsideConfig_linuxServiceBinaryPath mode)
  unfold applyWithKey at *
  cases hconfigure : configure env mode port clientKey s with
  | error contexts s₁ =>
    exact ⟨fun _ exe s₁' h => (by cases h), fun _ => hkeep.eq_of_error hconfigure⟩
  | ok exe s₁ =>
    have hs₁ := hkeep.eq_of_ok hconfigure
    rw [hconfigure] at herror hrollback
    dsimp only at herror hrollback ⊢
    obtain ⟨steps, hfailed⟩ : ∃ steps, (install env.install mode exe port s₁).answer =
        .error steps := by
      cases hanswer : (install env.install mode exe port s₁).answer with
      | ok a =>
        rw [hanswer] at herror
        cases herror
      | error steps => exact ⟨steps, rfl⟩
    obtain ⟨hdropped, hkept⟩ := install_binary hmoveBack hfailed hrollback
    rw [← hs₁]
    constructor
    · intro hsame exe' s₁' heq hdrops
      obtain ⟨rfl, rfl⟩ := EStateM.Result.ok.inj heq
      obtain ⟨bytes, m, hsource, hnew⟩ := hdropped hdrops
      exact ⟨bytes, m, hsource, hsame.symm.trans hnew⟩
    · intro h
      by_cases hdrops : DropsPriorBinary env.install mode exe port s₁
      · obtain ⟨bytes, m, hsource, hnew⟩ := hdropped hdrops
        obtain ⟨bytes', m', hsource', hprior⟩ := h exe s₁ rfl hdrops
        cases hsource.symm.trans hsource'
        exact hnew.trans hprior.symm
      · exact hkept hdrops

/-- **A failing setup leaves the host as it was iff there was nothing to undo.**  The rollback of
the binary, which includes the move of the backup back, is taken to succeed. -/
theorem setup_all_or_nothing_iff (env : SetupEnv) (mode : Mode) (port : UInt16)
    (clientKey : Option String) (s : Disk) (contexts : List String)
    (herror : (applyWithKey env mode port clientKey s).answer = .error contexts)
    (hmoveBack : env.install.update.beginFails .moveBack = false)
    (hrollback : ∀ e, (applyWithKey env mode port clientKey s).rollback ≠ some (.error e)) :
    (∀ path ∈ setupFiles mode,
      (applyWithKey env mode port clientKey s).disk.lookup path = s.lookup path) ↔
      NothingToUndo env mode port clientKey s := by
  have hconfig := setup_config env mode port clientKey s
  have hunit := setup_unit env mode port clientKey s
  have hbinary := setup_binary hmoveBack herror hrollback
  unfold setupFiles
  constructor
  · intro hsame
    exact ⟨hconfig.mp (hsame _ (by simp)), hunit.mp (hsame _ (by simp)),
      hbinary.mp (hsame _ (by simp))⟩
  · intro hnothing path hpath
    rcases List.mem_cons.mp hpath with rfl | hpath
    · exact hconfig.mpr hnothing.config
    rcases List.mem_cons.mp hpath with rfl | hpath
    · exact hunit.mpr hnothing.unit
    · obtain rfl := List.mem_singleton.mp hpath
      exact hbinary.mpr hnothing.binary

/-! ### A migration that is not undone -/

/-- The lines of the configuration file of a host whose client server listens on `port`. -/
def configLines (port : UInt16) : List String :=
  ["[server]", "proxy_port = 3000", "client_port = " ++ toString port.toNat,
    "health_timeout_secs = 5", "", "[wol]", "default_port = 9",
    "default_broadcast_ip = \"255.255.255.255\"", "default_packet_count = 3",
    "packet_sleeptime_ms = 50", "default_wait_secs = 90", "default_poll_interval_ms = 1000",
    "default_connect_timeout_ms = 700", "", "[network]", "scan_duration_secs = 5",
    "read_timeout_secs = 2", "", "[storage]",
    "machines_db_path = \"/var/lib/wakezilla/machines.json\"",
    "access_history_path = \"/var/lib/wakezilla/access_history.json\"",
    "max_access_records = 2000", "", "[health]", "check_interval_ms = 30000",
    "proxy_connect_timeout_ms = 1000", "proxy_wol_wait_secs = 60",
    "system_shutdown_sleep_secs = 5", "rate_limit_sample_interval_secs = 1", "", "[security]"]

/-- The file itself. -/
def savedConfig (port : UInt16) : List UInt8 :=
  (configLines port).flatMap fun line => asBytes line ++ asBytes "\n"

/-- The crates on these files. -/
def hostCrate : ConfigCrate where
  build file _ :=
    if file = some (savedConfig 3001) then .ok (buildConfig .client 3001)
    else .error "missing configuration file"
  toStringPretty cfg :=
    if cfg = buildConfig .client cfg.server.clientPort then .ok (savedConfig cfg.server.clientPort)
    else .error "unsupported value"
  fileKey _ := none
  envKey _ := none

/-- An installation in which nothing fails but what the two arguments say. -/
def hostInstall (commandFails : ServiceCommand → Option String) (unreachable : Option String) :
    InstallEnv where
  update := {
    beginFails := fun _ => false
    commitFails := fun _ => false
    rollbackFails := fun _ => false
    dropFails := fun _ => false
    stageSuffix := "a1b2c3"
    backupSuffix := "d4e5f6"
    temporary := ⟨0, 0, 0o600⟩ }
  directoryFails := fun _ _ => false
  lastDirectoryFails := fun _ => false
  removeDirectoryFails := false
  created := ⟨0, 0, 0o755⟩
  descriptorFails := fun _ => false
  descriptorSuffix := "f6e5d4"
  checkFails := fun _ => false
  commandFails := commandFails
  unreachable := unreachable

/-- A setup in which nothing fails but its installation. -/
def hostSetup (install : InstallEnv) : SetupEnv where
  currentExe := some ["home", "wakezilla"]
  crate := hostCrate
  environment := []
  base64 := urlSafeNoPad
  configUnreadable := false
  linkedConfig := none
  mkdirFails := fun _ => false
  saveFault := .noFault
  newDirectory := ⟨0, 0, 0o755⟩
  newFile := ⟨0, 0, 0o600⟩
  install := install

/-- The files of a host that has a configuration. -/
def hostFiles : List (Path × Node FileMetadata) :=
  [(["home"], .directory ⟨0, 0, 0o755⟩), (["home", "wakezilla"], .file [1] ⟨1000, 1000, 0o755⟩),
    (["etc"], .directory ⟨0, 0, 0o755⟩), (["etc", "wakezilla"], .directory ⟨0, 0, 0o755⟩),
    (configPath, .file (savedConfig 3001) ⟨0, 0, 0o600⟩),
    (["etc", "systemd"], .directory ⟨0, 0, 0o755⟩), (unitDirectory, .directory ⟨0, 0, 0o755⟩),
    (["usr"], .directory ⟨0, 0, 0o755⟩), (["usr", "local"], .directory ⟨0, 0, 0o755⟩)]

/-- Such a host with more files. -/
def configuredHost (files : List (Path × Node FileMetadata)) : Disk :=
  (files ++ hostFiles).foldr (fun entry s => s.insert entry.1 entry.2) ∅

/-- A unit that runs the binary from a home directory. -/
def legacyUnit : Node FileMetadata :=
  .file (asBytes "[Service]\nExecStart=/home/wakezilla client-server\n") ⟨0, 0, 0o644⟩

/-- A host that runs the client server under such a unit. -/
def legacyHost : Disk := configuredHost [(descriptorPath .client, legacyUnit)]

/-- The migrated service does not come up. -/
def failedMigration : SetupEnv :=
  hostSetup (hostInstall (fun _ => none) (some "Connection refused (os error 111)"))

theorem failedMigration_rollback :
    (applyWithKey failedMigration .client 4001 none legacyHost).rollback = some (.ok ()) := by
  decide +kernel

/-- **A failed migration of a legacy service is not undone.**  The binary is rolled back, but the
new configuration and the new unit, whose binary is gone, stay. -/
theorem failed_migration_not_undone :
    ¬ ∀ (env : SetupEnv) mode port clientKey s contexts,
      (applyWithKey env mode port clientKey s).answer = .error contexts →
      env.install.update.beginFails .moveBack = false →
      (∀ e, (applyWithKey env mode port clientKey s).rollback ≠ some (.error e)) →
      ∀ path ∈ setupFiles mode,
        (applyWithKey env mode port clientKey s).disk.lookup path = s.lookup path := by
  intro h
  have hanswer : (applyWithKey failedMigration .client 4001 none legacyHost).answer =
      .error ["failed to install system service", "service installed but did not become reachable",
        "service did not accept connections on 127.0.0.1:4001 after 10 attempts: " ++
          "Connection refused (os error 111)"] := by decide +kernel
  have hunit := h failedMigration .client 4001 none legacyHost _ hanswer rfl
    (fun e he => by rw [failedMigration_rollback] at he; cases he)
    (descriptorPath .client) (by decide)
  exact absurd hunit (by decide +kernel)

/-- The same setup, run again on a host that has it, whose service does not come up. -/
def repeatedSetup : SetupEnv :=
  hostSetup (hostInstall (fun command => if command = .restart then some "job failed" else none)
    none)

/-- A host that is set up. -/
def installedHost : Disk :=
  configuredHost [(["usr", "local", "libexec"], .directory ⟨0, 0, 0o755⟩),
    (serviceDirectory, .directory ⟨0, 0, 0o755⟩),
    (linuxServiceBinaryPath .client, .file [2] ⟨0, 0, 0o755⟩),
    (descriptorPath .client, canonicalUnit .client)]

/-- A setup that is run again and fails leaves the host as it was. -/
theorem repeatedSetup_nothingToUndo :
    NothingToUndo repeatedSetup .client 3001 none installedHost := by
  have hrollback : (applyWithKey repeatedSetup .client 3001 none installedHost).rollback =
      some (.ok ()) := by decide +kernel
  have hanswer : (applyWithKey repeatedSetup .client 3001 none installedHost).answer =
      .error ["failed to install system service", "job failed"] := by decide +kernel
  exact (setup_all_or_nothing_iff repeatedSetup .client 3001 none installedHost _ hanswer rfl
    (fun e he => by rw [hrollback] at he; cases he)).mp (by decide +kernel)

end Setup

end Wakezilla
