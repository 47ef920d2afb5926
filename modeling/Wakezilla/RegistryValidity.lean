/-
# What a valid registry is, and that the validator decides it

`RegistryRules` states the rules of the registry one by one, over the registry as a
whole: no validator, no candidate and no order of checks occurs in it.

* `validRegistry_iff_rules` : these rules are `ValidRegistry`, which the handlers keep;
* `validCandidate_iff_append`, `validCandidate_iff_set` : next to the machines of a
  valid registry, the demands on a candidate are the rules of the registry with the
  candidate in it;
* `registry_validity` : the handlers keep the rules, and the validator accepts exactly
  the candidates that leave them intact.
-/
import Wakezilla.Registry

namespace Wakezilla

/-- The rules of the registry.  A local port names one service of the whole registry, and a
MAC, up to its separators and the case of its letters, one machine. -/
structure RegistryRules (machines : List Machine) : Prop where
  macs : ∀ m ∈ machines, validateMac m.mac = true
  macsDiffer : (machines.map fun m => normalizeMac m.mac).Nodup
  localPorts : ∀ m ∈ machines, ∀ pf ∈ m.portForwards, pf.localPort ≠ 0
  localPortsDiffer : (machines.flatMap fun m => m.portForwards.map PortForward.localPort).Nodup
  targetPorts : ∀ m ∈ machines, ∀ pf ∈ m.portForwards, pf.targetPort ≠ 0
  names : ∀ m ∈ machines, isBlank m.name = false
  turnOffPorts : ∀ m ∈ machines, m.turnOffPort ≠ some 0
  turnOff : ∀ m ∈ machines, m.canBeTurnedOff = true → m.turnOffPort.isSome = true

/-- **The rules are those of `ValidRegistry`.** -/
theorem validRegistry_iff_rules {machines : List Machine} :
    ValidRegistry machines ↔ RegistryRules machines := by
  have hports : (machines.flatMap fun m => m.portForwards.map PortForward.localPort).Nodup ↔
      (∀ m ∈ machines, (m.portForwards.map PortForward.localPort).Nodup) ∧
        machines.Pairwise fun m m' => ∀ pf ∈ m.portForwards, ∀ pf' ∈ m'.portForwards,
          pf.localPort ≠ pf'.localPort := by
    rw [List.nodup_flatMap]
    refine and_congr_right fun _ => List.Pairwise.iff fun m m' => ?_
    show List.Disjoint (m.portForwards.map PortForward.localPort)
      (m'.portForwards.map PortForward.localPort) ↔ _
    rw [List.disjoint_left, List.forall_mem_map]
    simp only [List.mem_map, not_exists, not_and]
    exact ⟨fun h pf hpf pf' hpf' heq => h pf hpf pf' hpf' heq.symm,
      fun h pf hpf pf' hpf' heq => h pf hpf pf' hpf' heq.symm⟩
  constructor
  · rintro ⟨heach, hapart⟩
    refine ⟨fun m hm => (heach m hm).mac, ?_, fun m hm pf hpf => ?_, ?_, fun m hm pf hpf => ?_,
      fun m hm => (heach m hm).name, fun m hm => (heach m hm).port,
      fun m hm => (heach m hm).turnOff⟩
    · rw [List.Nodup, List.pairwise_map]
      exact hapart.imp And.left
    · exact ((heach m hm).servicePorts pf hpf).1
    · exact hports.mpr ⟨fun m hm => (heach m hm).localPorts, hapart.imp And.right⟩
    · exact ((heach m hm).servicePorts pf hpf).2
  · intro h
    obtain ⟨hown, hother⟩ := hports.mp h.localPortsDiffer
    have hmacs : machines.Pairwise fun m m' => normalizeMac m.mac ≠ normalizeMac m'.mac := by
      rw [← List.pairwise_map]
      exact h.macsDiffer
    refine ⟨fun m hm => ?_, hmacs.and hother⟩
    exact ⟨h.names m hm, h.macs m hm, h.turnOffPorts m hm, h.turnOff m hm,
      fun pf hpf => ⟨h.localPorts m hm pf hpf, h.targetPorts m hm pf hpf⟩, hown m hm,
      fun _ hnone => absurd hnone List.not_mem_nil, fun _ hnone => absurd hnone List.not_mem_nil⟩

/-! ## Candidates and records -/

/-- The demands on a candidate are those on the record it becomes. -/
theorem validCandidate_iff_validMachine {api : Api.Machine} {m : Machine} {others : List Machine}
    (hm : apiMachineToInternal api = .ok m) :
    ValidCandidate api others ↔ ValidMachine m others := by
  refine ⟨fun h => h.validMachine hm, fun h => ?_⟩
  have hports := map_localPort_apiPortForwardToInternal api.portForwards
  unfold apiMachineToInternal at hm
  split at hm
  · cases hm
  · rename_i ip hip
    cases hm
    obtain ⟨hname, hmac, hport, hturnOff, hservices, hlocal, hmacFree, hportsFree⟩ := h
    rw [hports] at hlocal hportsFree
    refine ⟨hname, by rw [hip]; rfl, hmac, hport, hturnOff, ⟨fun service hservice => ?_, hlocal⟩,
      hmacFree, hportsFree⟩
    have hpf := hservices _ (List.mem_map_of_mem hservice)
    exact ⟨hpf.1, hpf.2, List.not_mem_nil⟩

/-- A record is valid next to others when it is valid alone and compatible with each. -/
theorem validMachine_iff_alone {m : Machine} {others : List Machine} :
    ValidMachine m others ↔ ValidMachine m [] ∧ ∀ existing ∈ others, Compatible existing m := by
  refine ⟨fun h => ⟨h.alone, fun existing he => h.compatible he⟩, fun ⟨h, hcompatible⟩ => ?_⟩
  refine ⟨h.name, h.mac, h.port, h.turnOff, h.servicePorts, h.localPorts,
    fun existing he => (hcompatible existing he).1, fun existing he pf hpf hmem => ?_⟩
  obtain ⟨pf', hpf', heq⟩ := List.mem_map.mp hmem
  exact (hcompatible existing he).2 pf hpf pf' hpf' heq.symm

/-! ## The registry with the candidate in it -/

/-- **Appending.**  The candidate is accepted when the longer registry is valid. -/
theorem validCandidate_iff_append {machines : List Machine} (hvalid : ValidRegistry machines)
    {api : Api.Machine} {m : Machine} (hm : apiMachineToInternal api = .ok m) :
    ValidCandidate api machines ↔ ValidRegistry (machines ++ [m]) := by
  rw [validCandidate_iff_validMachine hm, validMachine_iff_alone]
  constructor
  · rintro ⟨halone, hcompatible⟩
    refine ⟨fun m' hm' => ?_, List.pairwise_append.mpr
      ⟨hvalid.apart, List.pairwise_singleton _ _, fun existing he m' hm' => ?_⟩⟩
    · rcases List.mem_append.mp hm' with hold | hnew
      · exact hvalid.each m' hold
      · rw [List.mem_singleton.mp hnew]
        exact halone
    · rw [List.mem_singleton.mp hm']
      exact hcompatible existing he
  · intro h
    have hapart := (List.pairwise_append.mp h.apart).2.2
    exact ⟨h.each m (List.mem_append_right _ (List.mem_singleton_self m)),
      fun existing he => hapart existing he m (List.mem_singleton_self m)⟩

/-- In a valid registry, the machines with another MAC are those at the other positions. -/
theorem mem_filter_mac_iff {machines : List Machine} (hvalid : ValidRegistry machines) {i : ℕ}
    {old : Machine} (hold : machines[i]? = some old) {existing : Machine} :
    existing ∈ machines.filter (fun m => some m.mac ≠ some old.mac) ↔
      ∃ j, j ≠ i ∧ machines[j]? = some existing := by
  rw [List.mem_filter, List.mem_iff_getElem?]
  simp only [ne_eq, Option.some.injEq, decide_not, Bool.not_eq_true', decide_eq_false_iff_not]
  constructor
  · rintro ⟨⟨j, hj⟩, hmac⟩
    refine ⟨j, fun hji => hmac ?_, hj⟩
    rw [hji, hold] at hj
    rw [Option.some_inj.mp hj]
  · rintro ⟨j, hji, hj⟩
    refine ⟨⟨j, hj⟩, fun hmac => hji ?_⟩
    have hnodup := hvalid.distinct
    have hlookup : ∀ (k : ℕ) (m : Machine), machines[k]? = some m →
        (machines.map Machine.mac)[k]? = some m.mac := by
      intro k m hk
      rw [List.getElem?_map, hk]
      rfl
    have hi := hlookup i old hold
    rw [← hmac, ← hlookup j existing hj] at hi
    have hlt : i < (machines.map Machine.mac).length := by
      rw [List.length_map]
      exact (List.getElem?_eq_some_iff.mp hold).1
    exact ((List.getElem?_inj hlt hnodup).mp hi).symm

/-- **Replacing.**  The candidate is accepted in the place of a machine when the registry with
the candidate there is valid. -/
theorem validCandidate_iff_set {machines : List Machine} (hvalid : ValidRegistry machines) {i : ℕ}
    {old : Machine} (hold : machines[i]? = some old) {api : Api.Machine} {m : Machine}
    (hm : apiMachineToInternal api = .ok m) :
    ValidCandidate api (machines.filter fun existing => some existing.mac ≠ some old.mac) ↔
      ValidRegistry (machines.set i m) := by
  rw [validCandidate_iff_validMachine hm, validMachine_iff_alone]
  have hlt : i < machines.length := (List.getElem?_eq_some_iff.mp hold).1
  constructor
  · rintro ⟨halone, hcompatible⟩
    refine ⟨fun m' hm' => ?_, pairwise_set hvalid.apart fun j hj hji => hcompatible _ ?_⟩
    · rcases List.mem_or_eq_of_mem_set hm' with hother | rfl
      · exact hvalid.each m' hother
      · exact halone
    · exact (mem_filter_mac_iff hvalid hold).mpr ⟨j, hji, List.getElem?_eq_getElem hj⟩
  · intro h
    have hself : (machines.set i m)[i]? = some m := List.getElem?_set_self hlt
    refine ⟨h.each m (List.mem_of_getElem? hself), fun existing he => ?_⟩
    obtain ⟨j, hji, hj⟩ := (mem_filter_mac_iff hvalid hold).mp he
    have hother : (machines.set i m)[j]? = some existing := by
      rw [List.getElem?_set_ne hji.symm]
      exact hj
    -- the two stand at different positions of the new registry
    obtain ⟨hi, hgetI⟩ := List.getElem?_eq_some_iff.mp hself
    obtain ⟨hj', hgetJ⟩ := List.getElem?_eq_some_iff.mp hother
    have hpairs := List.pairwise_iff_getElem.mp h.apart
    rw [← hgetI, ← hgetJ]
    rcases Nat.lt_or_gt_of_ne hji with hlt' | hgt
    · exact hpairs j i hj' hi hlt'
    · exact Std.Symm.symm _ _ (hpairs i j hi hj' hgt)

/-! ## The contract -/

/-- The handlers keep the rules. -/
theorem registryRules_exec (libs : Externals) (s : Proxy) (es : List ProxyEvent)
    (hs : RegistryRules s.machines) : RegistryRules (Run.exec (step libs) s es).machines := by
  rw [← validRegistry_iff_rules] at hs ⊢
  exact Run.exec_invariant_of_forall (P := fun s => ValidRegistry s.machines) es hs
    fun s e h => validRegistry_step libs s e h

/-- **Registry validity.**  Every registry that the handlers reach from a valid one is valid,
and next to a valid registry the validator accepts a candidate with an IPv4 address, as a new
machine or in the place of a registered one, exactly when the registry with the candidate in it
is valid. -/
theorem registry_validity (libs : Externals) :
    (∀ (s : Proxy) (es : List ProxyEvent), RegistryRules s.machines →
        RegistryRules (Run.exec (step libs) s es).machines) ∧
      ∀ (machines : List Machine) (api : Api.Machine), RegistryRules machines →
        (parseIpv4 api.ip).isSome = true → ∃ m, apiMachineToInternal api = .ok m ∧
          (validateMachineConfig api machines none = .ok () ↔
            RegistryRules (machines ++ [m])) ∧
          ∀ i old, machines[i]? = some old →
            (validateMachineConfig api machines (some old.mac) = .ok () ↔
              RegistryRules (machines.set i m)) := by
  constructor
  · exact registryRules_exec libs
  · intro machines api hmachines hip
    obtain ⟨ip, hip⟩ := Option.isSome_iff_exists.mp hip
    have hm : ∃ m, apiMachineToInternal api = .ok m := by
      unfold apiMachineToInternal
      rw [hip]
      exact ⟨_, rfl⟩
    obtain ⟨m, hm⟩ := hm
    rw [← validRegistry_iff_rules] at hmachines
    refine ⟨m, hm, ?_, fun i old hold => ?_⟩
    · -- nothing is replaced, so the candidate is compared with every machine
      have hall : (machines.filter fun existing => some existing.mac ≠ none) = machines := by
        simp
      rw [validateMachineConfig_eq_ok, hall, ← validRegistry_iff_rules]
      exact validCandidate_iff_append hmachines hm
    · rw [validateMachineConfig_eq_ok, ← validRegistry_iff_rules]
      exact validCandidate_iff_set hmachines hold hm

/-- A registry of one machine that follows the rules. -/
theorem registryRules_workstation : RegistryRules [workstation] where
  macs := by decide
  macsDiffer := by decide
  localPorts := by decide
  localPortsDiffer := by decide
  targetPorts := by decide
  names := by decide
  turnOffPorts := by decide
  turnOff := by decide

/-- A second machine is added and the first one deleted; the second may also take the place of
the first. -/
theorem workstation_registry_validity :
    RegistryRules (Run.exec (step libraries) (startMachines [workstation] none fun _ => 0)
        [.add (payloadOf backupServer) sampleBytes .noFault 5,
          .delete ⟨workstation.mac⟩ .noFault]).machines ∧
      ∃ m, apiMachineToInternal ((payloadOf backupServer).toMachine .server) = .ok m ∧
        RegistryRules ([workstation] ++ [m]) ∧ RegistryRules ([workstation].set 0 m) := by
  obtain ⟨hreached, hcandidate⟩ := registry_validity libraries
  refine ⟨hreached _ _ ?_, ?_⟩
  · exact registryRules_workstation
  · obtain ⟨m, hm, happend, hset⟩ := hcandidate [workstation]
      ((payloadOf backupServer).toMachine .server) registryRules_workstation (by decide +kernel)
    exact ⟨m, hm, happend.mp (by decide +kernel), (hset 0 workstation rfl).mp (by decide +kernel)⟩

end Wakezilla
