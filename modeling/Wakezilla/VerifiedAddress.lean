/-
# A verified machine was verified at its own address

`verify_shutdown_setup` gives up the registry lock while it waits for the client, and
afterwards compares only the key.  `update_machine_api` keeps the key when the address
changes, so an answer from the old address can mark the new one
(`moved_machine_gets_verified`).

When the address under the verified key did not change in the meantime
(`AddressUnchanged`), the flag is sound in every reachable state
(`verified_machine_answered`): each verified machine has the address, port and key of
some call of `verify_remote_client` that returned `Verified`.
-/
import Wakezilla.ShutdownSecurity

namespace Wakezilla

/-- Every verified machine has a call of `verify_remote_client` that returned `Verified` for
its address, port and key. -/
def VerifiedAnswered (s : Proxy) : Prop :=
  ∀ m ∈ s.machines, m.shutdownAuthVerified = true →
    ∃ port key, m.turnOffPort = some port ∧ m.shutdownAuthKey = some key ∧
      ⟨m.ip, port, key⟩ ∈ s.verifiedClients

/-- A commit that marks a machine finds the address and port it sent its request to. -/
def AddressUnchanged (libs : Externals) (s : Proxy) : ProxyEvent → Prop
  | .verifyCommit request answer fault =>
    ∀ p index m, s.verifications[request]? = some p →
      verifyRemoteClient libs.base64 p.key answer = .verified → fault = .noFault →
      position p.mac s.machines = some (index, m) → m.shutdownAuthKey = some p.key →
      m.shutdownAuthVerified = false → m.ip = p.machine.ip ∧ m.turnOffPort = some p.port
  | _ => True

/-- An edit keeps the flag only together with the address and the key. -/
theorem answered_applyShutdownSecurity {engine : Base64Engine} {random : Vector UInt8 32}
    {old new : Machine} {clients : List RemoteClient}
    (hold : old.shutdownAuthVerified = true →
      ∃ port key, old.turnOffPort = some port ∧ old.shutdownAuthKey = some key ∧
        ⟨old.ip, port, key⟩ ∈ clients)
    (hverified : (applyShutdownSecurity engine random (some old) new).shutdownAuthVerified = true) :
    ∃ port key, (applyShutdownSecurity engine random (some old) new).turnOffPort = some port ∧
      (applyShutdownSecurity engine random (some old) new).shutdownAuthKey = some key ∧
      ⟨(applyShutdownSecurity engine random (some old) new).ip, port, key⟩ ∈ clients := by
  rcases applyShutdownSecurity_cases engine random old new with
    ⟨-, -, hflag⟩ | ⟨-, -, -, hflag⟩ | ⟨-, -, hkey, hflag⟩
  · rw [hflag] at hverified
    exact absurd hverified Bool.false_ne_true
  · rw [hflag] at hverified
    exact absurd hverified Bool.false_ne_true
  · obtain ⟨hvold, -, hip, hport⟩ := hflag hverified
    obtain ⟨port, key, hportOld, hkeyOld, hmem⟩ := hold hvold
    refine ⟨port, key, ?_, hkey.trans hkeyOld, ?_⟩
    · rw [applyShutdownSecurity_turnOffPort, ← hport, hportOld]
    · rw [applyShutdownSecurity_ip, ← hip]
      exact hmem

/-- **One step** with an unchanged address keeps the flags sound. -/
theorem verifiedAnswered_step (libs : Externals) (s : Proxy) (e : ProxyEvent)
    (h : VerifiedAnswered s) (hc : AddressUnchanged libs s e) :
    VerifiedAnswered (step libs s e) := by
  have heffect := step_effect libs s e
  generalize step libs s e = s' at heffect
  intro m hm hverified
  cases heffect with
  | idle machines limiter proxies tasks clients database =>
    rw [machines] at hm
    obtain ⟨port, key, hport, hkey, hmem⟩ := h m hm hverified
    exact ⟨port, key, hport, hkey, clients hmem⟩
  | add new valid flag key =>
    rw [startProxy_machines, commit_machines, List.mem_append, List.mem_singleton] at hm
    rcases hm with hm | rfl
    · exact h m hm hverified
    · rw [flag] at hverified
      exact absurd hverified Bool.false_ne_true
  | update index old base new hposition new_eq valid =>
    rcases List.mem_or_eq_of_mem_set hm with hm | rfl
    · exact h m hm hverified
    · obtain ⟨hget, -⟩ := position_eq_some hposition
      rw [new_eq] at hverified ⊢
      exact answered_applyShutdownSecurity (h old (List.mem_of_getElem? hget)) hverified
  | delete limiter removed =>
    exact h m (List.mem_of_mem_filter hm) hverified
  | rotate index old hposition enabled =>
    rcases List.mem_or_eq_of_mem_set hm with hm | rfl
    · exact h m hm hverified
    · exact absurd hverified Bool.false_ne_true
  | verify p index old pending answered hposition key =>
    rcases List.mem_or_eq_of_mem_set hm with hm | rfl
    · obtain ⟨port, key', hport, hkey, hmem⟩ := h m hm hverified
      exact ⟨port, key', hport, hkey, List.mem_cons_of_mem _ hmem⟩
    · cases hflag : old.shutdownAuthVerified with
      | true =>
        obtain ⟨hget, -⟩ := position_eq_some hposition
        obtain ⟨port, key', hport, hkey, hmem⟩ := h old (List.mem_of_getElem? hget) hflag
        exact ⟨port, key', hport, hkey, List.mem_cons_of_mem _ hmem⟩
      | false =>
        obtain ⟨hip, hport⟩ := hc p index old pending answered rfl hposition key hflag
        refine ⟨p.port, p.key, hport, key, ?_⟩
        rw [hip]
        exact List.mem_cons_self
  | connection task => exact h m hm hverified
  | tick => exact h m hm hverified
  | forwarder taskStep frame =>
    rw [frame] at hm ⊢
    exact h m hm hverified

/-- **Verified machines answered themselves.**  In every run from a registry without
verified machines whose marking commits find the address unchanged, each verified machine
has the address, port and key of a call of `verify_remote_client` that returned `Verified`. -/
theorem verified_machine_answered (libs : Externals) (machines : List Machine)
    (database : Database) (clock : ℕ → Instant) (es : List ProxyEvent)
    (hinit : ∀ m ∈ machines, m.shutdownAuthVerified = false)
    (hrun : Run.Along (step libs) (AddressUnchanged libs) (startMachines machines database clock)
      es) :
    ∀ m ∈ (Run.exec (step libs) (startMachines machines database clock) es).machines,
      m.shutdownAuthVerified = true →
        ∃ port key, m.turnOffPort = some port ∧ m.shutdownAuthKey = some key ∧
          ⟨m.ip, port, key⟩ ∈
            (Run.exec (step libs) (startMachines machines database clock) es).verifiedClients := by
  have hstart : VerifiedAnswered (startMachines machines database clock) := by
    intro m hm hverified
    rw [(startMachines_fields machines database clock).1] at hm
    rw [hinit m hm] at hverified
    exact absurd hverified Bool.false_ne_true
  exact Run.exec_invariant (P := VerifiedAnswered) hstart (verifiedAnswered_step libs) hrun

/-- A verified machine that is renamed afterwards stays verified, at its own address. -/
theorem verified_workstation_answered :
    let s := Run.exec (step libraries) (startMachines [workstation] none fun _ => 0)
      [.verifyRead workstation.mac, .verifyCommit 0 (.response 200) .noFault,
        .update workstation.mac { payloadOf workstation with name := "desk" } sampleBytes
          .noFault 0]
    (∃ m ∈ s.machines, m.name = "desk" ∧ m.shutdownAuthVerified = true) ∧
      ∀ m ∈ s.machines, m.shutdownAuthVerified = true →
        ∃ port key, m.turnOffPort = some port ∧ m.shutdownAuthKey = some key ∧
          ⟨m.ip, port, key⟩ ∈ s.verifiedClients := by
  refine ⟨by decide +kernel, ?_⟩
  refine verified_machine_answered libraries [workstation] none (fun _ => 0) _ (by decide)
    ⟨trivial, ?_, trivial, trivial⟩
  intro p index m hp _ _ hposition _ _
  cases hp
  cases hposition
  exact ⟨rfl, rfl⟩

/-- **A moved machine gets verified.**  The address changes while the request is under way;
the answer of the old address marks the new one. -/
theorem moved_machine_gets_verified :
    let s := Run.exec (step libraries) (startMachines [workstation] none fun _ => 0)
      [.verifyRead workstation.mac,
        .update workstation.mac { payloadOf workstation with ip := "192.168.1.21" } sampleBytes
          .noFault 0,
        .verifyCommit 0 (.response 200) .noFault]
    workstation.shutdownAuthVerified = false ∧
      ∃ m ∈ s.machines, m.shutdownAuthVerified = true ∧
        ∀ client ∈ s.verifiedClients, client.ip ≠ m.ip := by
  decide +kernel

end Wakezilla
