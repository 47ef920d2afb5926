/-
# Saving a machine as it is

The dashboard reads a machine through `machine_to_api_machine` and saves it by sending
all its members back.  The record passes through two lossy conversions on the way: the
address becomes text, a blank service name becomes a missing one, and the key does not
leave the proxy.  `apply_shutdown_security` has to put back what was dropped.

In a valid registry whose keys fit their machines, such an update is accepted and
leaves every record where it was and as it was, except that blank service names become
empty (`unchanged_update_keeps_registry`).
-/
import Wakezilla.AuthState
import Wakezilla.RegistryValidity

namespace Wakezilla

/-! ## From the registry to the API -/

/-- `web::internal_port_forward_to_api`: a blank name becomes a missing one. -/
def internalPortForwardToApi (pf : PortForward) : Api.PortForward where
  name := if isBlank pf.name then none else some pf.name
  localPort := pf.localPort
  targetPort := pf.targetPort

/-- `web::machine_to_api_machine`. -/
def machineToApiMachine (machine : Machine) : Api.Machine where
  name := machine.name
  machineType := machine.machineType
  mac := machine.mac
  ip := machine.ip.toString
  description := machine.description
  turnOffPort := machine.turnOffPort
  canBeTurnedOff := machine.canBeTurnedOff
  inactivityPeriod := machine.inactivityPeriod
  portForwards := machine.portForwards.map internalPortForwardToApi

/-- The payload that the dashboard sends to save `api`: every member is present. -/
def Api.Machine.toPayload (api : Api.Machine) : Api.MachinePayload where
  machineType := some api.machineType
  mac := api.mac
  ip := api.ip
  name := api.name
  description := api.description
  turnOffPort := api.turnOffPort
  canBeTurnedOff := api.canBeTurnedOff
  inactivityPeriod := some api.inactivityPeriod
  portForwards := some api.portForwards

/-- The record with its blank service names emptied. -/
def Machine.emptyBlankNames (m : Machine) : Machine :=
  { m with
    portForwards := m.portForwards.map fun pf =>
      { pf with name := if isBlank pf.name then "" else pf.name } }

theorem toMachine_toPayload (api : Api.Machine) (machineType : MachineType) :
    api.toPayload.toMachine machineType = api := rfl

theorem apiPortForwardToInternal_internalPortForwardToApi (pf : PortForward) :
    apiPortForwardToInternal (internalPortForwardToApi pf) =
      { pf with name := if isBlank pf.name then "" else pf.name } := by
  unfold apiPortForwardToInternal internalPortForwardToApi
  by_cases hblank : isBlank pf.name <;> simp [hblank]

/-- What is left of a record after the way there and back: everything but the key. -/
theorem apiMachineToInternal_machineToApiMachine (m : Machine) :
    apiMachineToInternal (machineToApiMachine m) =
      .ok { m.emptyBlankNames with shutdownAuthKey := none, shutdownAuthVerified := false } := by
  have hservices : (m.portForwards.map internalPortForwardToApi).map apiPortForwardToInternal =
      m.emptyBlankNames.portForwards := by
    rw [List.map_map]
    apply List.map_congr_left
    intro pf _
    exact apiPortForwardToInternal_internalPortForwardToApi pf
  unfold apiMachineToInternal
  simp only [machineToApiMachine, parseIpv4_toString, hservices]
  rfl

/-! ## The validator accepts it -/

theorem ValidMachine.emptyBlankNames {m : Machine} {others : List Machine}
    (h : ValidMachine m others) : ValidMachine m.emptyBlankNames others := by
  have hports : m.emptyBlankNames.portForwards.map PortForward.localPort =
      m.portForwards.map PortForward.localPort := by
    show (m.portForwards.map _).map _ = _
    rw [List.map_map]
    rfl
  refine ⟨h.name, h.mac, h.port, h.turnOff, fun pf hpf => ?_, ?_, h.macFree, ?_⟩
  · obtain ⟨old, hold, rfl⟩ := List.mem_map.mp hpf
    exact h.servicePorts old hold
  · rw [hports]
    exact h.localPorts
  · rw [hports]
    exact h.portsFree

/-- A registered machine is valid next to the machines with another MAC. -/
theorem ValidRegistry.validMachine_others {machines : List Machine} (h : ValidRegistry machines)
    {m : Machine} (hm : m ∈ machines) :
    ValidMachine m (machines.filter fun existing => some existing.mac ≠ some m.mac) := by
  refine validMachine_iff_alone.mpr ⟨h.each m hm, fun existing he => ?_⟩
  obtain ⟨hexisting, hmac⟩ := List.mem_filter.mp he
  refine h.apart.forall hexisting hm fun heq => ?_
  rw [heq] at hmac
  simp at hmac

/-! ## The key is put back -/

/-- `apply_shutdown_security` rebuilds the key and the flag of a consistent machine whose
connection details did not change. -/
theorem applyShutdownSecurity_unchanged (engine : Base64Engine) (random : Vector UInt8 32)
    {old new : Machine} (hold : old.AuthConsistent) (hmac : new.mac = old.mac)
    (hip : new.ip = old.ip) (hport : new.turnOffPort = old.turnOffPort)
    (hon : new.canBeTurnedOff = old.canBeTurnedOff) :
    applyShutdownSecurity engine random (some old) new =
      { new with
        shutdownAuthKey := old.shutdownAuthKey
        shutdownAuthVerified := old.shutdownAuthVerified } := by
  obtain ⟨hkeyOn, hverifiedKey⟩ := hold
  have henabled : new.shutdownEnabled = old.shutdownEnabled := by
    rw [Machine.shutdownEnabled, Machine.shutdownEnabled, hport, hon]
  unfold applyShutdownSecurity
  rw [henabled]
  cases hcase : old.shutdownEnabled with
  | false =>
    -- a machine that is not enabled has no key, so it is not verified either
    have hkey : old.shutdownAuthKey = none := by
      by_contra hsome
      obtain ⟨hcan, hhas⟩ := hkeyOn (Option.isSome_iff_ne_none.mpr hsome)
      simp [Machine.shutdownEnabled, hcan, hhas] at hcase
    have hverified : old.shutdownAuthVerified = false := by
      by_contra htrue
      have hsome := hverifiedKey (by simpa using htrue)
      simp [hkey] at hsome
    simp [hkey, hverified]
  | true =>
    cases hkey : old.shutdownAuthKey with
    | none =>
      have hverified : old.shutdownAuthVerified = false := by
        by_contra htrue
        have hsome := hverifiedKey (by simpa using htrue)
        simp [hkey] at hsome
      simp [Option.filter_some, hcase, hkey, hverified]
    | some key => simp [Option.filter_some, hcase, hkey, hmac, hip, hport]

/-! ## The update -/

/-- In a registry with different MACs a registered machine is found under its own. -/
theorem position_of_mem {machines : List Machine} (hdistinct : (machines.map Machine.mac).Nodup)
    {m : Machine} (hm : m ∈ machines) : ∃ i, position m.mac machines = some (i, m) := by
  have hfound : ∃ found, position m.mac machines = some found := by
    induction machines with
    | nil => cases hm
    | cons first machines ih =>
      rw [position]
      split
      · exact ⟨_, rfl⟩
      · rename_i hne
        rcases List.mem_cons.mp hm with rfl | hm
        · exact absurd rfl hne
        · obtain ⟨found, hfound⟩ := ih (List.nodup_cons.mp hdistinct).2 hm
          exact ⟨_, by rw [hfound]; rfl⟩
  obtain ⟨⟨i, m'⟩, hfound⟩ := hfound
  obtain ⟨hget, hmac⟩ := position_eq_some hfound
  have hsame : m' = m :=
    List.inj_on_of_nodup_map hdistinct (List.mem_of_getElem? hget) hm hmac
  exact ⟨i, by rw [hfound, hsame]⟩

/-- An update that passes the checks and whose save succeeds. -/
theorem updateMachineApi_accepted (libs : Externals) {s : Proxy} {api : Api.Machine}
    {m received new : Machine} {i : ℕ} {random : Vector UInt8 32} (now : Instant)
    (hposition : position m.mac s.machines = some (i, m))
    (haccepted : validateMachineConfig api s.machines (some m.mac) = .ok ())
    (hconverted : apiMachineToInternal api = .ok received)
    (hsecured : applyShutdownSecurity libs.base64 random (some m) received = new) :
    let update := updateMachineApi libs m.mac api.toPayload random .noFault now s
    update.1.code = 200 ∧ update.2.machines = s.machines.set i new := by
  intro update
  have hupdate : update = (⟨200, .status "Machine updated"⟩, update.2) ∧
      update.2.machines = s.machines.set i new := by
    simp only [update, updateMachineApi, hposition, toMachine_toPayload, haccepted, hconverted,
      hsecured]
    exact ⟨rfl, rfl⟩
  exact ⟨by rw [hupdate.1], hupdate.2⟩

/-- **Saving a machine as it is keeps the registry.**  When every member of a registered machine
is sent back under its MAC and the save succeeds, the update is accepted, and each record is what
and where it was, but for blank service names of this machine, which become empty. -/
theorem unchanged_update_keeps_registry (libs : Externals) (s : Proxy)
    (hrules : RegistryRules s.machines) (hauth : ∀ m ∈ s.machines, m.AuthConsistent)
    (m : Machine) (hm : m ∈ s.machines) (random : Vector UInt8 32) (now : Instant) :
    let update := updateMachineApi libs m.mac (machineToApiMachine m).toPayload random .noFault
      now s
    update.1.code = 200 ∧
      ∃ i, s.machines[i]? = some m ∧ update.2.machines = s.machines.set i m.emptyBlankNames := by
  intro update
  have hvalid := validRegistry_iff_rules.mpr hrules
  obtain ⟨i, hposition⟩ := position_of_mem hvalid.distinct hm
  have hconverted := apiMachineToInternal_machineToApiMachine m
  have haccepted : validateMachineConfig (machineToApiMachine m) s.machines (some m.mac) =
      .ok () := by
    rw [validateMachineConfig_eq_ok, validCandidate_iff_validMachine hconverted]
    exact (hvalid.validMachine_others hm).emptyBlankNames.withKey none false
  have hsecured : applyShutdownSecurity libs.base64 random (some m)
      { m.emptyBlankNames with shutdownAuthKey := none, shutdownAuthVerified := false } =
        m.emptyBlankNames :=
    applyShutdownSecurity_unchanged libs.base64 random (hauth m hm) rfl rfl rfl rfl
  obtain ⟨hcode, hmachines⟩ :=
    updateMachineApi_accepted libs now hposition haccepted hconverted hsecured
  exact ⟨hcode, i, (position_eq_some hposition).1, hmachines⟩

/-- A machine with a pending key and a service whose name is blank. -/
theorem workstation_saved_as_it_is :
    let m := { workstation with portForwards := [⟨" ", 2222, 22⟩] }
    let s := startMachines [m] none fun _ => 0
    (updateMachineApi libraries m.mac (machineToApiMachine m).toPayload sampleBytes .noFault 5
        s).1.code = 200 ∧
      (updateMachineApi libraries m.mac (machineToApiMachine m).toPayload sampleBytes .noFault 5
        s).2.machines = [{ workstation with portForwards := [⟨"", 2222, 22⟩] }] := by
  intro m s
  have hrules : RegistryRules s.machines :=
    ⟨by decide, by decide, by decide, by decide, by decide, by decide, by decide, by decide⟩
  have hauth : ∀ m ∈ s.machines, m.AuthConsistent := by
    intro m' hm'
    rw [List.mem_singleton.mp hm']
    exact ⟨fun _ => ⟨rfl, rfl⟩, fun h => by cases h⟩
  obtain ⟨hcode, i, hi, hmachines⟩ := unchanged_update_keeps_registry libraries s hrules hauth m
    (List.mem_singleton_self m) sampleBytes 5
  refine ⟨hcode, ?_⟩
  rw [hmachines]
  cases i with
  | zero => decide +kernel
  | succ i => cases hi

end Wakezilla
