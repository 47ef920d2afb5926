/-
# Setting up again

`apply_with_key` on a host that has a configuration: it promises to keep the other settings.
It saves what `load_from` makes of the file and the environment, though, and the defaults when
that fails, so a setting can come from a `WAKEZILLA__` variable, and all of them are lost when a
variable or the file does not fit (`malformed_variable_drops_key`).

`SameSettings` is what the file has to keep, `SettingsKept` the condition on the file and the
environment under which it does (`settings_preserved_iff`).
-/
import Wakezilla.Setup

namespace Wakezilla

open FileSystem Fallible

/-- The configuration file that a setup finds. -/
def configFile (env : SetupEnv) (s : Disk) : Option (List UInt8) :=
  match s.lookup configPath with
  | some (.file bytes _) => some bytes
  | some .other => env.linkedConfig
  | _ => none

/-- What a file says by itself, with no variable set. -/
def Config.parse (crate : ConfigCrate) (file : List UInt8) : Except String Config :=
  crate.build (some file) []

/-- The settings that a setup does not replace: all but the port of the mode, the key that is
supplied to a client, and paths that had their relative default. -/
structure SameSettings (mode : Mode) (clientKey : Option String) (old new : Config) : Prop where
  proxyPort : mode ≠ .proxy → new.server.proxyPort = old.server.proxyPort
  clientPort : mode ≠ .client → new.server.clientPort = old.server.clientPort
  healthTimeoutSecs : new.server.healthTimeoutSecs = old.server.healthTimeoutSecs
  wol : new.wol = old.wol
  network : new.network = old.network
  machinesDbPath : old.storage.machinesDbPath ≠ defaultMachinesDbPath →
    new.storage.machinesDbPath = old.storage.machinesDbPath
  accessHistoryPath : old.storage.accessHistoryPath ≠ defaultAccessHistoryPath →
    new.storage.accessHistoryPath = old.storage.accessHistoryPath
  maxAccessRecords : new.storage.maxAccessRecords = old.storage.maxAccessRecords
  health : new.health = old.health
  security : ¬ (mode = .client ∧ clientKey.isSome = true) → new.security = old.security

/-- The file and the environment leave the settings of the file as they are: no variable changes
one of them, or the two do not load together and the file has the defaults. -/
def SettingsKept (env : SetupEnv) (mode : Mode) (clientKey : Option String) (file : List UInt8)
    (old : Config) : Prop :=
  match Config.loadFrom env.crate (some file) env.environment with
  | .ok merged =>
    if env.configUnreadable then SameSettings mode clientKey old Config.default.settlePaths
    else SameSettings mode clientKey old merged.settlePaths
  | .error _ => SameSettings mode clientKey old Config.default.settlePaths

/-! ## What is saved -/

section Saved

variable {env : SetupEnv} {mode : Mode} {port : UInt16} {clientKey : Option String} {s : Disk}
  {old cfg : Config}

/-- The port of the mode is not among the kept settings. -/
theorem sameSettings_setPort :
    SameSettings mode clientKey old (cfg.setPort mode port).settlePaths ↔
      SameSettings mode clientKey old cfg.settlePaths := by
  cases mode with
  | proxy =>
    constructor
    · exact fun h => { h with proxyPort := fun hne => absurd rfl hne }
    · exact fun h => { h with proxyPort := fun hne => absurd rfl hne }
  | client =>
    constructor
    · exact fun h => { h with clientPort := fun hne => absurd rfl hne }
    · exact fun h => { h with clientPort := fun hne => absurd rfl hne }

/-- Neither is the key that is supplied to a client. -/
theorem sameSettings_key {key : String} :
    SameSettings .client (some key) old
        (Config.settlePaths { cfg with security := { clientShutdownKey := some key } }) ↔
      SameSettings .client (some key) old cfg.settlePaths := by
  constructor
  · exact fun h => { h with security := fun hnone => absurd ⟨rfl, rfl⟩ hnone }
  · exact fun h => { h with security := fun hnone => absurd ⟨rfl, rfl⟩ hnone }

/-- The defaults of a setup are the defaults with settled paths. -/
theorem settlePaths_buildConfig (mode : Mode) (port : UInt16) :
    (buildConfig mode port).settlePaths = (Config.default.setPort mode port).settlePaths := by
  have hmachines : ¬ dataPath defaultMachinesDbPath = defaultMachinesDbPath := by decide
  have hhistory : ¬ dataPath defaultAccessHistoryPath = defaultAccessHistoryPath := by decide
  cases mode <;>
    simp [buildConfig, Config.settlePaths, Config.setPort, Config.default, hmachines, hhistory]

/-- What is saved keeps the settings when what the setup starts from does. -/
theorem sameSettings_targetConfig (h : targetConfig env mode port clientKey s = .ok cfg) :
    SameSettings mode clientKey old cfg ↔
      SameSettings mode clientKey old (existingConfig env mode port s).settlePaths := by
  unfold targetConfig at h
  dsimp only at h
  split at h
  · split at h
    · cases h
    · rw [← Except.ok.inj h, sameSettings_key, sameSettings_setPort]
  · rw [← Except.ok.inj h, sameSettings_setPort]

/-- A setup starts from what the file and the environment load, or from the defaults. -/
theorem sameSettings_existingConfig {bytes : List UInt8} {m : FileMetadata}
    (hfile : s.lookup configPath = some (.file bytes m)) :
    SameSettings mode clientKey old (existingConfig env mode port s).settlePaths ↔
      SettingsKept env mode clientKey bytes old := by
  have hdefaults : SameSettings mode clientKey old (buildConfig mode port).settlePaths ↔
      SameSettings mode clientKey old Config.default.settlePaths := by
    rw [settlePaths_buildConfig, sameSettings_setPort]
  unfold existingConfig SettingsKept
  rw [hfile]
  dsimp only
  cases hload : Config.loadFrom env.crate (some bytes) env.environment with
  | ok merged => cases env.configUnreadable <;> simp [hdefaults]
  | error e => cases env.configUnreadable <;> simp [hdefaults]

/-- A configuration that was written stands in a plain file, and stood in one if it existed. -/
theorem saveTo_eq_ok {a : Unit} {s' : Disk} (h : cfg.saveTo env configPath s = .ok a s') :
    ∃ text m, env.crate.toStringPretty cfg = .ok text ∧
      s'.lookup configPath = some (.file text m) ∧ s.lookup configPath ≠ some .other := by
  unfold Config.saveTo at h
  cases htext : env.crate.toStringPretty cfg with
  | error e =>
    rw [htext] at h
    cases h
  | ok text =>
    rw [htext] at h
    obtain ⟨a, s₁, hopen, hfill⟩ := bind_eq_ok.mp (mapError_eq_ok.mp h)
    have hopened := (openSecretFile_spec env s rfl).1 a s₁ hopen
    obtain ⟨hbefore, hleft⟩ := (fillSecretFile_spec text s₁ hopened).1 _ _ hfill
    obtain ⟨m, hleft⟩ : ∃ m, s'.lookup configPath = some (env.saveFault.leaves text m) :=
      ⟨_, hleft⟩
    refine ⟨text, { m with mode := 0o600 }, rfl, ?_, ?_⟩
    · rw [hleft]
      cases hfault : env.saveFault with
      | noFault | createDirAll | openFile => rfl
      | setPermissions | writeAll | syncAll =>
        rw [hfault] at hbefore
        exact hbefore.elim
    · -- `O_NOFOLLOW`: what is no plain file is not opened
      obtain ⟨_, s₂, hcreate, htruncate⟩ := bind_eq_ok.mp hopen
      have hkept : s₂.lookup configPath = s.lookup configPath :=
        (createDirAll_preserves configPath_not_mem).eq_of_ok hcreate
      rw [← hkept]
      obtain ⟨-, ⟨hfree, -⟩ | ⟨bytes, m, hplain, -⟩⟩ := openTruncate_eq_ok.mp htruncate
      · simp [hfree]
      · simp [hplain]

theorem configure_eq_ok {exe : Path} {s' : Disk}
    (h : configure env mode port clientKey s = .ok exe s') :
    ∃ cfg text m, targetConfig env mode port clientKey s = .ok cfg ∧
      env.crate.toStringPretty cfg = .ok text ∧ s'.lookup configPath = some (.file text m) ∧
      s.lookup configPath ≠ some .other := by
  unfold configure at h
  cases hexe : env.currentExe with
  | none =>
    rw [hexe] at h
    cases h
  | some exe =>
    cases htarget : targetConfig env mode port clientKey s with
    | error contexts =>
      simp only [hexe, htarget] at h
      cases h
    | ok cfg =>
      simp only [hexe, htarget] at h
      cases hsave : cfg.saveTo env configPath s with
      | error contexts s₁ =>
        rw [hsave] at h
        cases h
      | ok a s₁ =>
        rw [hsave] at h
        cases h
        obtain ⟨text, m, hsaved⟩ := saveTo_eq_ok hsave
        exact ⟨cfg, text, m, rfl, hsaved⟩

end Saved

/-! ## What the next start reads -/

/-- **When the other settings are preserved.**  After a setup that succeeds, the file parses by
itself, and it has the settings that the file before it had by itself exactly when the file and
the environment left them as they were.  What the writer writes is taken to be read back. -/
theorem settings_preserved_iff (env : SetupEnv) (mode : Mode) (port : UInt16)
    (clientKey : Option String) (s : Disk) (file : List UInt8) (path : Path)
    (hround : ∀ cfg text, env.crate.toStringPretty cfg = .ok text →
      env.crate.build (some text) [] = .ok cfg)
    (hfile : configFile env s = some file)
    (hok : (applyWithKey env mode port clientKey s).answer = .ok path) :
    ∃ written new,
      configFile env (applyWithKey env mode port clientKey s).disk = some written ∧
      Config.parse env.crate written = .ok new ∧
      ∀ old, Config.parse env.crate file = .ok old →
        (SameSettings mode clientKey old new ↔ SettingsKept env mode clientKey file old) := by
  have hlookup : (applyWithKey env mode port clientKey s).disk.lookup configPath =
      (after (configure env mode port clientKey) s).lookup configPath :=
    applyWithKey_lookup (outside_configPath mode) (by decide) (by decide) s
  obtain ⟨exe, s₁, hconfigure⟩ : ∃ exe s₁, configure env mode port clientKey s = .ok exe s₁ := by
    cases hconfigure : configure env mode port clientKey s with
    | ok exe s₁ => exact ⟨exe, s₁, rfl⟩
    | error contexts s₁ =>
      rw [applyWithKey, hconfigure] at hok
      cases hok
  obtain ⟨cfg, text, m, htarget, htext, hwritten, hplain⟩ := configure_eq_ok hconfigure
  rw [after_of_ok hconfigure, hwritten] at hlookup
  obtain ⟨m', hthere⟩ : ∃ m', s.lookup configPath = some (.file file m') := by
    unfold configFile at hfile
    split at hfile
    · rename_i bytes m' hthere
      rw [hthere, Option.some.inj hfile]
      exact ⟨m', rfl⟩
    · rename_i hother
      exact absurd hother hplain
    · cases hfile
  refine ⟨text, cfg, ?_, hround cfg text htext, fun old _ => ?_⟩
  · rw [configFile, hlookup]
  · rw [sameSettings_targetConfig htarget, sameSettings_existingConfig hthere]

/-! ### A key that is dropped -/

/-- The configuration of a host that runs both servers. -/
def keyedConfig : Config :=
  { buildConfig .proxy 3000 with
    security := { clientShutdownKey := some "AQEBAQEBAQEBAQEBAQEBAQEBAQEBAQEBAQEBAQEBAQE" } }

/-- Its file. -/
def keyedFile : List UInt8 :=
  savedConfig 3001 ++
    asBytes "client_shutdown_key = \"AQEBAQEBAQEBAQEBAQEBAQEBAQEBAQEBAQEBAQEBAQE\"\n"

/-- A port that is no number. -/
def malformedPort : String × String := ("WAKEZILLA__SERVER__PROXY_PORT", "abc")

/-- The crates on this configuration and on the defaults of a setup. -/
def keyedCrate : ConfigCrate where
  build file env :=
    if malformedPort ∈ env then .error "invalid type: string \"abc\", expected u16"
    else if file = some keyedFile then .ok keyedConfig
    else if file = some (savedConfig 3001) then .ok (buildConfig .proxy 3000)
    else .error "configuration file not found"
  toStringPretty cfg :=
    if cfg = keyedConfig then .ok keyedFile
    else if cfg = buildConfig .proxy 3000 then .ok (savedConfig 3001)
    else .error "unsupported value"
  fileKey file := if file = keyedFile then keyedConfig.security.clientShutdownKey else none
  envKey _ := none

theorem keyedFile_ne : savedConfig 3001 ≠ keyedFile := by
  intro heq
  have hlength := congrArg List.length heq
  rw [keyedFile, List.length_append] at hlength
  exact absurd hlength (by decide +kernel)

theorem keyedCrate_round (cfg : Config) (text : List UInt8)
    (h : keyedCrate.toStringPretty cfg = .ok text) :
    keyedCrate.build (some text) [] = .ok cfg := by
  unfold keyedCrate at h ⊢
  dsimp only at h ⊢
  rw [if_neg (List.not_mem_nil)]
  split at h
  · rename_i hcfg
    rw [← Except.ok.inj h, if_pos rfl, hcfg]
  · split at h
    · rename_i hcfg
      rw [← Except.ok.inj h, if_neg (fun heq => keyedFile_ne (Option.some.inj heq)), if_pos rfl,
        hcfg]
    · cases h

/-- The host, with its proxy server not installed yet. -/
def keyedHost : Disk :=
  configuredHost [(configPath, .file keyedFile ⟨0, 0, 0o600⟩),
    (["usr", "local", "libexec"], .directory ⟨0, 0, 0o755⟩),
    (serviceDirectory, .directory ⟨0, 0, 0o755⟩)]

/-- A setup on it under the given variables, in which nothing fails. -/
def keyedSetup (environment : Environment) : SetupEnv :=
  { hostSetup (hostInstall (fun _ => none) none) with crate := keyedCrate, environment }

theorem keyedFile_parse (environment : Environment) :
    Config.parse (keyedSetup environment).crate keyedFile = .ok keyedConfig := by
  refine keyedCrate_round keyedConfig keyedFile ?_
  unfold keyedCrate
  dsimp only
  rw [if_pos rfl]

/-- With no variable set, the proxy server is set up and the key stays. -/
theorem keyedHost_settings_preserved :
    ∃ written new,
      configFile (keyedSetup []) (applyWithKey (keyedSetup []) .proxy 3000 none keyedHost).disk =
        some written ∧
      Config.parse keyedCrate written = .ok new ∧ SameSettings .proxy none keyedConfig new := by
  obtain ⟨written, new, hwritten, hnew, hiff⟩ := settings_preserved_iff (keyedSetup []) .proxy 3000
    none keyedHost keyedFile configPath keyedCrate_round rfl (by decide +kernel)
  refine ⟨written, new, hwritten, hnew, (hiff keyedConfig (keyedFile_parse [])).mpr ?_⟩
  have hload : Config.loadFrom (keyedSetup []).crate (some keyedFile) (keyedSetup []).environment =
      .ok keyedConfig := keyedFile_parse []
  unfold SettingsKept
  rw [hload]
  exact ⟨fun _ => rfl, fun _ => rfl, rfl, rfl, rfl, fun _ => by decide, fun _ => by decide, rfl,
    rfl, fun _ => rfl⟩

/-- **A malformed variable drops the key.**  The file parses by itself, but not with the variable;
the setup succeeds and leaves a file without the key. -/
theorem malformed_variable_drops_key :
    ¬ ∀ (env : SetupEnv) mode port clientKey s file old path,
      (∀ cfg text, env.crate.toStringPretty cfg = .ok text →
        env.crate.build (some text) [] = .ok cfg) →
      configFile env s = some file → Config.parse env.crate file = .ok old →
      (applyWithKey env mode port clientKey s).answer = .ok path →
      ∃ written new,
        configFile env (applyWithKey env mode port clientKey s).disk = some written ∧
        Config.parse env.crate written = .ok new ∧ SameSettings mode clientKey old new := by
  intro h
  obtain ⟨written, new, hwritten, hnew, hsame⟩ := h (keyedSetup [malformedPort]) .proxy 3000 none
    keyedHost keyedFile keyedConfig configPath keyedCrate_round rfl
    (keyedFile_parse [malformedPort]) (by decide +kernel)
  have hdefaults : configFile (keyedSetup [malformedPort])
      (applyWithKey (keyedSetup [malformedPort]) .proxy 3000 none keyedHost).disk =
        some (savedConfig 3001) := by decide +kernel
  rw [hdefaults] at hwritten
  cases hwritten
  have hparse : Config.parse (keyedSetup [malformedPort]).crate (savedConfig 3001) =
      .ok (buildConfig .proxy 3000) := by
    refine keyedCrate_round _ _ ?_
    unfold keyedCrate
    dsimp only
    rw [if_neg (by decide +kernel), if_pos rfl]
  cases hparse.symm.trans hnew
  exact absurd (hsame.security (by decide)) (by decide)

end Wakezilla
