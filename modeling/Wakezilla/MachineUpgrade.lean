/-
# Databases of older versions

Four members of a machine came later than the others and have a default: a record
without them still decodes.  Whatever subset of them a record lacks, the machine that is
read is the one that was written with the defaults in their place
(`database_read_back`).
-/
import Wakezilla.MachineJson

namespace Wakezilla

/-- The members of `web::Machine` that carry `#[serde(default)]`. -/
inductive OptionalMember
  | machineType
  | shutdownAuthKey
  | shutdownAuthVerified
  | inactivityPeriod
  deriving DecidableEq, Repr

/-- The name of the member in a record. -/
def OptionalMember.text : OptionalMember → String
  | .machineType => "machine_type"
  | .shutdownAuthKey => "shutdown_auth_key"
  | .shutdownAuthVerified => "shutdown_auth_verified"
  | .inactivityPeriod => "inactivity_period"

/-- The member `name` is one of those that `removed` selects. -/
def isRemoved (removed : OptionalMember → Bool) (name : String) : Bool :=
  [OptionalMember.machineType, .shutdownAuthKey, .shutdownAuthVerified, .inactivityPeriod].any
    fun o => removed o && name = o.text

/-- A record without the members that `removed` selects. -/
def withoutMembers (removed : OptionalMember → Bool) : Json → Json
  | .object members => .object (members.filter fun m => !isRemoved removed m.1)
  | v => v

/-- The machine with the defaults in the place of the members that `removed` selects. -/
def Machine.upgraded (removed : OptionalMember → Bool) (m : Machine) : Machine :=
  { m with
    machineType := if removed .machineType then .server else m.machineType
    shutdownAuthKey := if removed .shutdownAuthKey then none else m.shutdownAuthKey
    shutdownAuthVerified := if removed .shutdownAuthVerified then false else m.shutdownAuthVerified
    inactivityPeriod := if removed .inactivityPeriod then 60 else m.inactivityPeriod }

/-! ## Members that are left out -/

theorem member_filter (keep : String → Bool) (name : String) (members : List (String × Json)) :
    member name (members.filter fun m => keep m.1) =
      if keep name then member name members else some none := by
  have hfilter : (members.filter fun m => keep m.1).filter (fun m => m.1 = name) =
      if keep name then members.filter fun m => m.1 = name else [] := by
    rw [List.filter_filter]
    split
    · rename_i hkeep
      apply List.filter_congr
      intro m _
      by_cases hname : m.1 = name <;> simp [hname, hkeep]
    · rename_i hdrop
      rw [List.filter_eq_nil_iff]
      intro m _
      by_cases hname : m.1 = name <;> simp [hname, hdrop]
  unfold member
  rw [hfilter]
  cases keep name <;> rfl

section Removed

variable {α : Type} {decode : Json → Option α} {default a : α} {name : String}
  {members : List (String × Json)} {m : Machine} (removed : OptionalMember → Bool)

theorem isRemoved_text (o : OptionalMember) : isRemoved removed o.text = removed o := by
  cases o <;> simp [isRemoved, OptionalMember.text]

theorem isRemoved_eq_false (h : ∀ o : OptionalMember, name ≠ o.text) :
    isRemoved removed name = false := by
  simp [isRemoved, h]

/-- The other members stay. -/
theorem required_without (hname : ∀ o : OptionalMember, name ≠ o.text)
    (h : required decode name members = some a) :
    required decode name (members.filter fun m => !isRemoved removed m.1) = some a := by
  unfold required
  rw [member_filter fun name => !isRemoved removed name, isRemoved_eq_false removed hname]
  exact h

/-- A member with a default is read as it was or, if it is left out, as the default. -/
theorem defaulted_without (h : defaulted decode default name members = some a) :
    defaulted decode default name (members.filter fun m => !isRemoved removed m.1) =
      some (if isRemoved removed name then default else a) := by
  unfold defaulted
  rw [member_filter fun name => !isRemoved removed name]
  cases isRemoved removed name with
  | false => exact h
  | true => rfl

theorem defaulted_optional (o : OptionalMember)
    (h : defaulted decode default o.text members = some a) :
    defaulted decode default o.text (members.filter fun m => !isRemoved removed m.1) =
      some (if removed o then default else a) := by
  rw [defaulted_without removed h, isRemoved_text]

theorem MachineMembers.without (h : MachineMembers members m) :
    MachineMembers (members.filter fun member => !isRemoved removed member.1)
      (m.upgraded removed) := by
  constructor
  · exact required_without removed (by rintro (_ | _ | _ | _) <;> decide) h.mac
  · exact required_without removed (by rintro (_ | _ | _ | _) <;> decide) h.ip
  · exact required_without removed (by rintro (_ | _ | _ | _) <;> decide) h.name
  · exact defaulted_optional removed .machineType h.machineType
  · rw [defaulted_without removed h.description, isRemoved_eq_false removed]
    · rfl
    · rintro (_ | _ | _ | _) <;> decide
  · rw [defaulted_without removed h.turnOffPort, isRemoved_eq_false removed]
    · rfl
    · rintro (_ | _ | _ | _) <;> decide
  · exact required_without removed (by rintro (_ | _ | _ | _) <;> decide) h.canBeTurnedOff
  · exact defaulted_optional removed .shutdownAuthKey h.shutdownAuthKey
  · exact defaulted_optional removed .shutdownAuthVerified h.shutdownAuthVerified
  · exact defaulted_optional removed .inactivityPeriod h.inactivityPeriod
  · exact required_without removed (by rintro (_ | _ | _ | _) <;> decide) h.portForwards

end Removed

theorem decodeMachine_without (m : Machine) (removed : OptionalMember → Bool) :
    decodeMachine (withoutMembers removed (encodeMachine m)) = some (m.upgraded removed) := by
  obtain ⟨members, hencoded, hmembers⟩ := encodeMachine_members m
  rw [hencoded]
  exact (hmembers.without removed).decodeMachine

/-! ## The database -/

/-- **The database is read back**, and so is one whose records lack members with a default: then
these members have their defaults.  A record has no key member when the machine has no key; its
address is text, and its machine type a name in snake case. -/
theorem database_read_back :
    (∀ machines : List Machine, decodeMachines (encodeMachines machines) = some machines) ∧
      (∀ records : List (Machine × (OptionalMember → Bool)),
        decodeMachines (.array (records.map fun r => withoutMembers r.2 (encodeMachine r.1))) =
          some (records.map fun r => r.1.upgraded r.2)) ∧
      ∀ m : Machine, ∃ members, encodeMachine m = .object members ∧
        (m.shutdownAuthKey = none → member "shutdown_auth_key" members = some none) ∧
        member "ip" members = some (some (.string m.ip.toString)) ∧
        member "machine_type" members = some (some (.string m.machineType.text)) := by
  refine ⟨decodeMachines_encodeMachines, fun records => ?_, fun m => ⟨_, rfl, ?_⟩⟩
  · show decodeItems decodeMachine (records.map _) = _
    induction records with
    | nil => rfl
    | cons r records ih =>
      rw [List.map_cons, decodeItems, decodeMachine_without, ih]
      rfl
  · cases hkey : m.shutdownAuthKey <;> simp [member]

end Wakezilla
