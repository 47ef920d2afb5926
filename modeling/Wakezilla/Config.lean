/-
# The configuration

`Config` of `src/config.rs`, its defaults, and the two ways to load it.  `load_from` gives
the file and the `WAKEZILLA__*` environment variables to the `config` crate, a later source
over an earlier one; `load` falls back to the defaults when that fails.

The crates `config` and `toml` are libraries: `ConfigCrate` holds what the program calls.
-/
import Wakezilla.Library.Dict

namespace Wakezilla

/-! ## The record -/

/-- `ServerConfig`, with its defaults. -/
structure ServerConfig where
  proxyPort : UInt16 := 3000
  clientPort : UInt16 := 3001
  healthTimeoutSecs : UInt64 := 5
  deriving DecidableEq, Repr

/-- `WolConfig`. -/
structure WolConfig where
  defaultPort : UInt16 := 9
  defaultBroadcastIp : String := "255.255.255.255"
  defaultPacketCount : UInt32 := 3
  packetSleeptimeMs : UInt64 := 50
  defaultWaitSecs : UInt64 := 90
  defaultPollIntervalMs : UInt64 := 1000
  defaultConnectTimeoutMs : UInt64 := 700
  deriving DecidableEq, Repr

/-- `NetworkConfig`. -/
structure NetworkConfig where
  scanDurationSecs : UInt64 := 5
  readTimeoutSecs : UInt64 := 2
  deriving DecidableEq, Repr

/-- `DEFAULT_MACHINES_DB_PATH`. -/
def defaultMachinesDbPath : String := "machines.json"

/-- `DEFAULT_ACCESS_HISTORY_PATH`. -/
def defaultAccessHistoryPath : String := "access_history.json"

/-- `StorageConfig`. -/
structure StorageConfig where
  machinesDbPath : String := defaultMachinesDbPath
  accessHistoryPath : String := defaultAccessHistoryPath
  maxAccessRecords : UInt64 := 2000
  deriving DecidableEq, Repr

/-- `HealthConfig`. -/
structure HealthConfig where
  checkIntervalMs : UInt64 := 30000
  proxyConnectTimeoutMs : UInt64 := 1000
  proxyWolWaitSecs : UInt64 := 60
  systemShutdownSleepSecs : UInt64 := 5
  rateLimitSampleIntervalSecs : UInt64 := 1
  deriving DecidableEq, Repr

/-- `SecurityConfig`. -/
structure SecurityConfig where
  clientShutdownKey : Option String := none
  deriving DecidableEq, Repr

/-- `Config`; `Config.default` is `Config::default`. -/
structure Config where
  server : ServerConfig := {}
  wol : WolConfig := {}
  network : NetworkConfig := {}
  storage : StorageConfig := {}
  health : HealthConfig := {}
  security : SecurityConfig := {}
  deriving DecidableEq, Repr

def Config.default : Config := {}

/-- `data_path` on Linux. -/
def dataPath (fileName : String) : String := "/var/lib/wakezilla/" ++ fileName

/-! ## Loading -/

/-- The environment variables of the process. -/
abbrev Environment := List (String × String)

/-- What the program calls of the crates `config` and `toml`: the builder of `load_from`, over
the bytes of the file, and the TOML writer.  `fileKey` and `envKey` are the values, as texts, that
the two sources have for `security.client_shutdown_key`.  That of the environment is what
`try_parsing` has made of the variable: a variable that reads as a number is one, and the text of
this number need not be the text of the variable. -/
structure ConfigCrate where
  build : Option (List UInt8) → Environment → Except String Config
  toStringPretty : Config → Except String (List UInt8)
  fileKey : List UInt8 → Option String
  envKey : Environment → Option String

/-- A merged record has the key of the environment source, and that of the file if the environment
source has none. -/
def ConfigCrate.MergesKey (crate : ConfigCrate) : Prop :=
  ∀ file env config, crate.build (some file) env = .ok config →
    config.security.clientShutdownKey = (crate.envKey env).or (crate.fileKey file)

namespace Config

/-- `load_from`; the file need not exist. -/
def loadFrom (crate : ConfigCrate) (file : Option (List UInt8)) (env : Environment) :
    Except String Config :=
  crate.build file env

/-- `load`: the defaults on any error. -/
def load (crate : ConfigCrate) (file : Option (List UInt8)) (env : Environment) : Config :=
  match loadFrom crate file env with
  | .ok config => config
  | .error _ => .default

end Config

end Wakezilla
