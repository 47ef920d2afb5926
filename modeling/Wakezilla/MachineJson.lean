/-
# Machines as JSON

What the derived `Serialize` and `Deserialize` of `web::Machine`, `web::PortForward`
and `MachineType` do, on JSON values: which members a record has, which may be left
out, and what stands for a missing one.  `serdeJson` puts them together with the text
of JSON documents and meets the law of `MachinesCodec`: a saved registry is read
back (`decodeMachines_encodeMachines`).

A record written as a JSON array, which serde accepts too, is refused here.
-/
import Wakezilla.Library.Json
import Wakezilla.Storage

namespace Wakezilla

/-! ## Members of an object -/

/-- The value of a member; a repeated member is an error. -/
def member (name : String) (members : List (String × Json)) : Option (Option Json) :=
  match members.filter fun m => m.1 = name with
  | [] => some none
  | [m] => some (some m.2)
  | _ => none

/-- A member that must be there. -/
def required {α : Type} (decode : Json → Option α) (name : String)
    (members : List (String × Json)) : Option α :=
  match member name members with
  | some (some v) => decode v
  | _ => none

/-- A member with a default value. -/
def defaulted {α : Type} (decode : Json → Option α) (default : α) (name : String)
    (members : List (String × Json)) : Option α :=
  match member name members with
  | some (some v) => decode v
  | some none => some default
  | none => none

/-- `null` or a value. -/
def nullable {α : Type} (decode : Json → Option α) : Json → Option (Option α)
  | .null => some none
  | v => (decode v).map some

def decodeString : Json → Option String
  | .string s => some s
  | _ => none

def decodeBool : Json → Option Bool
  | .bool b => some b
  | _ => none

def decodeU16 : Json → Option UInt16
  | .number n => if 0 ≤ n ∧ n < 2 ^ 16 then some (UInt16.ofNat n.toNat) else none
  | _ => none

def decodeU32 : Json → Option UInt32
  | .number n => if 0 ≤ n ∧ n < 2 ^ 32 then some (UInt32.ofNat n.toNat) else none
  | _ => none

/-- The elements of an array, each decoded. -/
def decodeItems {α : Type} (decode : Json → Option α) : List Json → Option (List α)
  | [] => some []
  | v :: vs => do
    let a ← decode v
    let as ← decodeItems decode vs
    some (a :: as)

def decodeArray {α : Type} (decode : Json → Option α) : Json → Option (List α)
  | .array vs => decodeItems decode vs
  | _ => none

/-! ## The records -/

/-- `rename_all = "snake_case"`. -/
def MachineType.text : MachineType → String
  | .server => "server"
  | .nas => "nas"
  | .computer => "computer"
  | .miniPc => "mini_pc"
  | .raspberryPi => "raspberry_pi"
  | .notebook => "notebook"

def decodeMachineType : Json → Option MachineType
  | .string "server" => some .server
  | .string "nas" => some .nas
  | .string "computer" => some .computer
  | .string "mini_pc" => some .miniPc
  | .string "raspberry_pi" => some .raspberryPi
  | .string "notebook" => some .notebook
  | _ => none

/-- `deserialize_ipv4addr`. -/
def decodeIpv4 : Json → Option Ipv4Addr
  | .string s => parseIpv4 s
  | _ => none

def encodePortForward (pf : PortForward) : Json :=
  .object [("name", .string pf.name), ("local_port", .number pf.localPort.toNat),
    ("target_port", .number pf.targetPort.toNat)]

def decodePortForward : Json → Option PortForward
  | .object members => do
    let name ← required decodeString "name" members
    let localPort ← required decodeU16 "local_port" members
    let targetPort ← required decodeU16 "target_port" members
    some { name, localPort, targetPort }
  | _ => none

/-- The members of a machine, in the order of its fields.  The key is left out when there
is none. -/
def encodeMachine (m : Machine) : Json :=
  .object ([("mac", .string m.mac), ("ip", .string m.ip.toString), ("name", .string m.name),
    ("machine_type", .string m.machineType.text),
    ("description", (m.description.map Json.string).getD .null),
    ("turn_off_port", (m.turnOffPort.map fun p => Json.number p.toNat).getD .null),
    ("can_be_turned_off", .bool m.canBeTurnedOff)] ++
    (match m.shutdownAuthKey with
      | some key => [("shutdown_auth_key", .string key)]
      | none => []) ++
    [("shutdown_auth_verified", .bool m.shutdownAuthVerified),
      ("inactivity_period", .number m.inactivityPeriod.toNat),
      ("port_forwards", .array (m.portForwards.map encodePortForward))])

def decodeMachine : Json → Option Machine
  | .object members => do
    let mac ← required decodeString "mac" members
    let ip ← required decodeIpv4 "ip" members
    let name ← required decodeString "name" members
    let machineType ← defaulted decodeMachineType .server "machine_type" members
    let description ← defaulted (nullable decodeString) none "description" members
    let turnOffPort ← defaulted (nullable decodeU16) none "turn_off_port" members
    let canBeTurnedOff ← required decodeBool "can_be_turned_off" members
    let shutdownAuthKey ← defaulted (nullable decodeString) none "shutdown_auth_key" members
    let shutdownAuthVerified ← defaulted decodeBool false "shutdown_auth_verified" members
    let inactivityPeriod ←
      defaulted decodeU32 getDefaultInactivityPeriod "inactivity_period" members
    let portForwards ← required (decodeArray decodePortForward) "port_forwards" members
    some ⟨mac, ip, name, machineType, description, turnOffPort, canBeTurnedOff,
      shutdownAuthKey, shutdownAuthVerified, inactivityPeriod, portForwards⟩
  | _ => none

def encodeMachines (machines : List Machine) : Json := .array (machines.map encodeMachine)

def decodeMachines : Json → Option (List Machine) := decodeArray decodeMachine

/-! ## Reading back what was written -/

theorem decodeItems_map {α : Type} {encode : α → Json} {decode : Json → Option α}
    (h : ∀ a, decode (encode a) = some a) (as : List α) :
    decodeItems decode (as.map encode) = some as := by
  induction as with
  | nil => rfl
  | cons a as ih =>
    rw [List.map_cons, decodeItems, h, ih]
    rfl

theorem decodeU16_number (p : UInt16) : decodeU16 (.number p.toNat) = some p := by
  have hp := p.toNat_lt
  rw [decodeU16, if_pos (by omega)]
  simp

theorem decodeU32_number (p : UInt32) : decodeU32 (.number p.toNat) = some p := by
  have hp := p.toNat_lt
  rw [decodeU32, if_pos (by omega)]
  simp

theorem decodeMachineType_text (t : MachineType) :
    decodeMachineType (.string t.text) = some t := by
  cases t <;> rfl

/-- A missing value is written as `null`, and `null` is read as a missing value. -/
theorem nullable_getD {α : Type} {encode : α → Json} {decode : Json → Option α}
    (h : ∀ a, decode (encode a) = some a) (hnull : ∀ a, encode a ≠ .null) (o : Option α) :
    nullable decode ((o.map encode).getD .null) = some o := by
  cases o with
  | none => rfl
  | some a =>
    show nullable decode (encode a) = some (some a)
    unfold nullable
    split
    · next heq => exact absurd heq (hnull a)
    · rw [h]
      rfl

theorem decodePortForward_encodePortForward (pf : PortForward) :
    decodePortForward (encodePortForward pf) = some pf := by
  obtain ⟨name, localPort, targetPort⟩ := pf
  have hlocal := decodeU16_number localPort
  have htarget := decodeU16_number targetPort
  simp [decodePortForward, encodePortForward, required, member, decodeString, hlocal, htarget]

/-- What each member of an object has to be read as for the object to be read as `m`. -/
structure MachineMembers (members : List (String × Json)) (m : Machine) : Prop where
  mac : required decodeString "mac" members = some m.mac
  ip : required decodeIpv4 "ip" members = some m.ip
  name : required decodeString "name" members = some m.name
  machineType : defaulted decodeMachineType .server "machine_type" members = some m.machineType
  description : defaulted (nullable decodeString) none "description" members = some m.description
  turnOffPort : defaulted (nullable decodeU16) none "turn_off_port" members = some m.turnOffPort
  canBeTurnedOff : required decodeBool "can_be_turned_off" members = some m.canBeTurnedOff
  shutdownAuthKey : defaulted (nullable decodeString) none "shutdown_auth_key" members =
    some m.shutdownAuthKey
  shutdownAuthVerified : defaulted decodeBool false "shutdown_auth_verified" members =
    some m.shutdownAuthVerified
  inactivityPeriod : defaulted decodeU32 getDefaultInactivityPeriod "inactivity_period" members =
    some m.inactivityPeriod
  portForwards : required (decodeArray decodePortForward) "port_forwards" members =
    some m.portForwards

theorem MachineMembers.decodeMachine {members : List (String × Json)} {m : Machine}
    (h : MachineMembers members m) : decodeMachine (.object members) = some m := by
  simp only [Wakezilla.decodeMachine, h.mac, h.ip, h.name, h.machineType, h.description,
    h.turnOffPort, h.canBeTurnedOff, h.shutdownAuthKey, h.shutdownAuthVerified,
    h.inactivityPeriod, h.portForwards, Option.bind_eq_bind, Option.bind_some]

/-- The members that an encoded machine has. -/
theorem encodeMachine_members (m : Machine) :
    ∃ members, encodeMachine m = .object members ∧ MachineMembers members m := by
  refine ⟨_, rfl, ?_⟩
  obtain ⟨mac, ip, name, machineType, description, turnOffPort, canBeTurnedOff, key, verified,
    period, portForwards⟩ := m
  have hip : decodeIpv4 (.string ip.toString) = some ip := parseIpv4_toString ip
  have htype := decodeMachineType_text machineType
  have hdescription : nullable decodeString ((description.map Json.string).getD .null) =
      some description :=
    nullable_getD (fun a => (rfl : decodeString (.string a) = some a)) (by simp) description
  have hport : nullable decodeU16 ((turnOffPort.map fun p => Json.number p.toNat).getD .null) =
      some turnOffPort := nullable_getD decodeU16_number (by simp) turnOffPort
  have hperiod := decodeU32_number period
  have hservices := decodeItems_map decodePortForward_encodePortForward portForwards
  have hkey : ∀ key, nullable decodeString (.string key) = some (some key) := fun _ => rfl
  cases key <;> constructor <;>
    simp [required, defaulted, member, decodeString, decodeBool, decodeArray, hip, htype,
      hdescription, hport, hkey, hperiod, hservices]

theorem decodeMachine_encodeMachine (m : Machine) : decodeMachine (encodeMachine m) = some m := by
  obtain ⟨members, hencoded, hmembers⟩ := encodeMachine_members m
  rw [hencoded]
  exact hmembers.decodeMachine

/-- **A written registry is read back.** -/
theorem decodeMachines_encodeMachines (machines : List Machine) :
    decodeMachines (encodeMachines machines) = some machines :=
  decodeItems_map decodeMachine_encodeMachine machines

/-- `serde_json` at the type of the registry. -/
def serdeJson : MachinesCodec where
  toStringPretty machines := Json.toStringPretty (encodeMachines machines)
  fromStr bytes := (Json.fromStr bytes).bind decodeMachines
  fromStr_toStringPretty machines := by
    rw [Json.fromStr_toStringPretty, Option.bind_some, decodeMachines_encodeMachines]

end Wakezilla
