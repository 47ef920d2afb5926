/-
# Invariants of the registry

What the handlers keep true of the list of machines alone.  Two rules cover the
whole registry: `forall_machines_step` for facts about one machine and
`pairwise_machines_step` for facts about two different ones.  They give

* `distinct_step` : the MACs stay pairwise different;
* `validRegistry_step` : a registry that the validator would accept, machine by
  machine, stays one.

`services` lists what the registry says is to be forwarded.
-/
import Wakezilla.ShutdownSecurity
import Wakezilla.Library.Mirror

namespace Wakezilla

/-- Overwriting one member keeps a symmetric relation between the members of a list, when the
new member is related to all the others. -/
theorem pairwise_set {α : Type*} {R : α → α → Prop} [Std.Symm R] {l : List α}
    (h : l.Pairwise R) {i : ℕ} {new : α}
    (hnew : ∀ (j : ℕ) (hj : j < l.length), j ≠ i → R l[j] new) : (l.set i new).Pairwise R := by
  rw [List.pairwise_iff_getElem] at h ⊢
  intro j k hj hk hjk
  rw [List.length_set] at hj hk
  by_cases hij : i = j
  · subst hij
    rw [List.getElem_set_self, List.getElem_set_ne (by omega)]
    exact Std.Symm.symm _ _ (hnew k hk (by omega))
  · by_cases hik : i = k
    · subst hik
      rw [List.getElem_set_self, List.getElem_set_ne hij]
      exact hnew j hj (by omega)
    · rw [List.getElem_set_ne hij, List.getElem_set_ne hik]
      exact h j k hj hk hjk

/-- An accepted machine has a MAC that no machine it was compared with has. -/
theorem ValidMachine.mac_ne {new : Machine} {others : List Machine}
    (h : ValidMachine new others) {m : Machine} (hm : m ∈ others) : m.mac ≠ new.mac :=
  fun heq => h.macFree m hm (congrArg normalizeMac heq)

/-! ## The two rules -/

/-- A fact about single machines that accepted machines have and that does not depend on the
key is kept by every step. -/
theorem forall_machines_step {P : Machine → Prop}
    (hvalid : ∀ m others, ValidMachine m others → P m)
    (hkey : ∀ m key verified, P m →
      P { m with shutdownAuthKey := key, shutdownAuthVerified := verified })
    (libs : Externals) (s : Proxy) (e : ProxyEvent) (h : ∀ m ∈ s.machines, P m) :
    ∀ m ∈ (step libs s e).machines, P m := by
  have heffect := step_effect libs s e
  generalize step libs s e = s' at heffect
  intro m hm
  cases heffect with
  | idle machines limiter proxies tasks clients database notDeleted => exact h m (machines ▸ hm)
  | add new valid verified key =>
    rw [startProxy_machines, commit_machines, List.mem_append, List.mem_singleton] at hm
    rcases hm with hm | rfl
    · exact h m hm
    · exact hvalid _ _ valid
  | update index old base new hposition new_eq valid =>
    rcases List.mem_or_eq_of_mem_set hm with hm | rfl
    · exact h m hm
    · exact hvalid _ _ valid
  | delete limiter removed => exact h m (List.mem_of_mem_filter hm)
  | rotate index old hposition enabled =>
    rcases List.mem_or_eq_of_mem_set hm with hm | rfl
    · exact h m hm
    · exact hkey _ _ _ (h old (List.mem_of_getElem? (position_eq_some hposition).1))
  | verify p index old pending answered hposition key =>
    rcases List.mem_or_eq_of_mem_set hm with hm | rfl
    · exact h m hm
    · exact hkey _ _ _ (h old (List.mem_of_getElem? (position_eq_some hposition).1))
  | connection task => exact h m hm
  | tick => exact h m hm
  | forwarder taskStep frame =>
    rw [frame] at hm
    exact h m hm

/-- A symmetric relation between different machines that implies different MACs, that holds
between an accepted machine and those it was compared with, and that does not depend on the
key is kept by every step. -/
theorem pairwise_machines_step {R : Machine → Machine → Prop} [Std.Symm R]
    (hmac : ∀ m m', R m m' → m.mac ≠ m'.mac)
    (hvalid : ∀ new others, ValidMachine new others → ∀ m ∈ others, R m new)
    (hkey : ∀ m m' key verified, R m m' →
      R m { m' with shutdownAuthKey := key, shutdownAuthVerified := verified })
    (libs : Externals) (s : Proxy) (e : ProxyEvent) (h : s.machines.Pairwise R) :
    (step libs s e).machines.Pairwise R := by
  have heffect := step_effect libs s e
  generalize step libs s e = s' at heffect
  have hapart : ∀ (i j : ℕ) (hj : j < s.machines.length) (m : Machine),
      s.machines[i]? = some m → j ≠ i → R s.machines[j] m := by
    intro i j hj m hm hij
    obtain ⟨hi, rfl⟩ := List.getElem?_eq_some_iff.mp hm
    rw [List.pairwise_iff_getElem] at h
    rcases Nat.lt_or_gt_of_ne hij with hlt | hlt
    · exact h j i hj hi hlt
    · exact Std.Symm.symm _ _ (h i j hi hj hlt)
  cases heffect with
  | idle machines limiter proxies tasks clients database notDeleted =>
    rw [machines]
    exact h
  | add new valid verified key =>
    rw [startProxy_machines, commit_machines, List.pairwise_append]
    refine ⟨h, List.pairwise_singleton R new, fun m hm m' hm' => ?_⟩
    rw [List.mem_singleton.mp hm']
    exact hvalid _ _ valid m hm
  | update index old base new hposition new_eq valid =>
    obtain ⟨hget, hold⟩ := position_eq_some hposition
    refine pairwise_set h fun j hj hij => hvalid _ _ valid _ (List.mem_filter.mpr ⟨?_, ?_⟩)
    · exact List.getElem_mem hj
    · simpa [← hold] using hmac _ _ (hapart index j hj old hget hij)
  | delete limiter removed => exact h.sublist List.filter_sublist
  | rotate index m hposition enabled =>
    exact pairwise_set h fun j hj hij =>
      hkey _ _ _ _ (hapart index j hj m (position_eq_some hposition).1 hij)
  | verify p index m pending answered hposition key =>
    exact pairwise_set h fun j hj hij =>
      hkey _ _ _ _ (hapart index j hj m (position_eq_some hposition).1 hij)
  | connection task => exact h
  | tick => exact h
  | forwarder taskStep frame =>
    rw [frame]
    exact h

/-- **The MACs stay pairwise different.** -/
theorem distinct_step (libs : Externals) (s : Proxy) (e : ProxyEvent)
    (h : (s.machines.map Machine.mac).Nodup) :
    ((step libs s e).machines.map Machine.mac).Nodup := by
  rw [List.Nodup, List.pairwise_map] at h ⊢
  have hsymm : Std.Symm fun m m' : Machine => m.mac ≠ m'.mac := ⟨fun _ _ hne => hne.symm⟩
  exact pairwise_machines_step (fun _ _ hne => hne)
    (fun _ _ hvalid _ hm => hvalid.mac_ne hm) (fun _ _ _ _ hne => hne) libs s e h

/-! ## Valid registries -/

/-- Two machines that the validator accepts next to each other. -/
def Compatible (m m' : Machine) : Prop :=
  normalizeMac m.mac ≠ normalizeMac m'.mac ∧
    ∀ pf ∈ m.portForwards, ∀ pf' ∈ m'.portForwards, pf.localPort ≠ pf'.localPort

/-- Every machine is valid, and any two are compatible. -/
structure ValidRegistry (machines : List Machine) : Prop where
  each : ∀ m ∈ machines, ValidMachine m []
  apart : machines.Pairwise Compatible

instance : Std.Symm Compatible where
  symm _ _ h := ⟨h.1.symm, fun pf hpf pf' hpf' => (h.2 pf' hpf' pf hpf).symm⟩

theorem ValidMachine.compatible {new : Machine} {others : List Machine}
    (h : ValidMachine new others) {m : Machine} (hm : m ∈ others) : Compatible m new :=
  ⟨h.macFree m hm, fun pf hpf _ hpf' heq =>
    h.portsFree m hm pf hpf (heq ▸ List.mem_map_of_mem hpf')⟩

theorem ValidMachine.alone {m : Machine} {others : List Machine} (h : ValidMachine m others) :
    ValidMachine m [] :=
  ⟨h.name, h.mac, h.port, h.turnOff, h.servicePorts, h.localPorts,
    fun _ hm => absurd hm List.not_mem_nil, fun _ hm => absurd hm List.not_mem_nil⟩

/-- **A valid registry stays valid.** -/
theorem validRegistry_step (libs : Externals) (s : Proxy) (e : ProxyEvent)
    (h : ValidRegistry s.machines) : ValidRegistry (step libs s e).machines where
  each := forall_machines_step (fun _ _ hvalid => hvalid.alone)
    (fun _ key verified hvalid => hvalid.withKey key verified) libs s e h.each
  apart := pairwise_machines_step
    (fun _ _ hcompatible heq => hcompatible.1 (congrArg normalizeMac heq))
    (fun _ _ hvalid _ hm => hvalid.compatible hm) (fun _ _ _ _ hcompatible => hcompatible)
    libs s e h.apart

theorem ValidRegistry.distinct {machines : List Machine} (h : ValidRegistry machines) :
    (machines.map Machine.mac).Nodup := by
  rw [List.Nodup, List.pairwise_map]
  exact h.apart.imp fun hcompatible heq => hcompatible.1 (congrArg normalizeMac heq)

/-! ## Services -/

/-- What one forwarder serves: connections to `localPort` go to `targetPort` of the machine
with the MAC `mac`, at the address `ip`. -/
structure Service where
  mac : String
  ip : Ipv4Addr
  localPort : UInt16
  targetPort : UInt16
  deriving DecidableEq, Repr

/-- The services of a machine. -/
def Machine.services (m : Machine) : List Service :=
  m.portForwards.map fun pf => ⟨m.mac, m.ip, pf.localPort, pf.targetPort⟩

/-- The services of a registry. -/
def services (machines : List Machine) : List Service := machines.flatMap Machine.services

theorem mem_services {machines : List Machine} {v : Service} :
    v ∈ services machines ↔ ∃ m ∈ machines, v ∈ m.services := List.mem_flatMap

theorem mac_of_mem_services {m : Machine} {v : Service} (h : v ∈ m.services) : v.mac = m.mac := by
  obtain ⟨pf, -, rfl⟩ := List.mem_map.mp h
  rfl

/-- Overwriting a machine by one with the same services changes no service. -/
theorem services_set {machines : List Machine} {i : ℕ} {old new : Machine}
    (hold : machines[i]? = some old) (hservices : new.services = old.services) :
    services (machines.set i new) = services machines := by
  rw [services, services, List.flatMap_def, List.flatMap_def, Mirror.map_key_set hold hservices]

/-- The key and the flag are no part of a service. -/
theorem services_set_withKey {machines : List Machine} {i : ℕ} {m : Machine}
    (hm : machines[i]? = some m) (key : Option String) (verified : Bool) :
    services (machines.set i
      { m with shutdownAuthKey := key, shutdownAuthVerified := verified }) = services machines :=
  services_set hm rfl

/-- In a valid registry a local port belongs to one service. -/
theorem ValidRegistry.service_eq {machines : List Machine} (h : ValidRegistry machines)
    {v w : Service} (hv : v ∈ services machines) (hw : w ∈ services machines)
    (hport : v.localPort = w.localPort) : v = w := by
  obtain ⟨m, hm, hvm⟩ := mem_services.mp hv
  obtain ⟨m', hm', hwm⟩ := mem_services.mp hw
  obtain ⟨pf, hpf, rfl⟩ := List.mem_map.mp hvm
  obtain ⟨pf', hpf', rfl⟩ := List.mem_map.mp hwm
  by_cases heq : m = m'
  · subst heq
    rw [List.inj_on_of_nodup_map (h.each m hm).localPorts hpf hpf' hport]
  · exact absurd hport ((h.apart.forall hm hm' heq).2 pf hpf pf' hpf')

end Wakezilla
