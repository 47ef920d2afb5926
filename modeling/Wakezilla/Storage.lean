/-
# The machine database file

`save_machines_to_path` and `load_machines_from_path` (`src/web.rs`) over
`write_secret_file` (`src/config.rs`).  The file is rewritten in place: it is opened
with `truncate(true)`, its mode is set, the text is written and synced, and any of
these steps can fail.  `SaveFault` says which one does; `writeSecretFile` says what
the failing run leaves in the file.

`serde_json` is a library, so the text format is a parameter: `MachinesCodec` carries
the law that parsing inverts its own output.
-/
import Wakezilla.Machine

namespace Wakezilla

/-- `serde_json::to_string_pretty` and `read_to_string` followed by `serde_json::from_str`,
at the type of the registry. -/
structure MachinesCodec where
  toStringPretty : List Machine → List UInt8
  fromStr : List UInt8 → Option (List Machine)
  fromStr_toStringPretty : ∀ machines, fromStr (toStringPretty machines) = some machines

/-- The content of the database file, or `none` while there is no file. -/
abbrev Database := Option (List UInt8)

/-- The step of a save that fails, if one does.  `writeAll n` fails after `n` bytes. -/
inductive SaveFault
  | noFault
  | createDirAll
  | openFile
  | setPermissions
  | writeAll (written : ℕ)
  | syncAll
  deriving DecidableEq, Repr

/-- The save fails, if at all, before `open` has truncated the file. -/
def SaveFault.BeforeTruncate : SaveFault → Prop
  | .noFault | .createDirAll | .openFile => True
  | .setPermissions | .writeAll _ | .syncAll => False

instance : DecidablePred SaveFault.BeforeTruncate := fun fault => by
  cases fault <;> unfold SaveFault.BeforeTruncate <;> infer_instance

/-- `write_secret_file`: whether it returns `Ok`, and the file it leaves. -/
def writeSecretFile (fault : SaveFault) (contents : List UInt8) (file : Database) :
    Bool × Database :=
  match fault with
  | .createDirAll => (false, file)
  | .openFile => (false, file)
  | .setPermissions => (false, some [])
  | .writeAll written => (false, some (contents.take written))
  | .syncAll => (false, some contents)
  | .noFault => (true, some contents)

/-- `save_machines_with_config`. -/
def saveMachines (codec : MachinesCodec) (fault : SaveFault) (machines : List Machine)
    (file : Database) : Bool × Database :=
  writeSecretFile fault (codec.toStringPretty machines) file

/-- The two contexts in which `load_machines_from_path` fails. -/
inductive LoadError
  | failedToRead
  | failedToParse
  deriving DecidableEq, Repr

/-- `load_machines_with_config`. -/
def loadMachines (codec : MachinesCodec) (file : Database) : Except LoadError (List Machine) :=
  match file with
  | none => .error .failedToRead
  | some data =>
    match codec.fromStr data with
    | none => .error .failedToParse
    | some machines => .ok machines

/-- The registry `start_with_shutdown` begins with: a file that cannot be read or parsed
becomes an empty registry. -/
def initialMachines (codec : MachinesCodec) (file : Database) : List Machine :=
  match loadMachines codec file with
  | .ok machines => machines
  | .error _ => []

/-- A save that fails before the truncation leaves the file alone. -/
theorem saveMachines_of_beforeTruncate (codec : MachinesCodec) {fault : SaveFault}
    (hfault : fault.BeforeTruncate) (hne : fault ≠ .noFault) (machines : List Machine)
    (file : Database) : (saveMachines codec fault machines file).2 = file := by
  cases fault with
  | noFault => exact absurd rfl hne
  | createDirAll => rfl
  | openFile => rfl
  | setPermissions => exact hfault.elim
  | writeAll written => exact hfault.elim
  | syncAll => exact hfault.elim

end Wakezilla
