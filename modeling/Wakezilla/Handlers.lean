/-
# The request handlers of the proxy

The handlers of `src/proxy_server.rs` that change the registry, as functions from the
state at their critical section to the response and the state after it.  The random
bytes of a generated key, the step at which a save fails and the clock reading of a
timer are arguments, so a run may choose them freely.

Every handler holds the registry lock for its whole critical section; only
`verify_shutdown_setup` has two of them, around its network await.

For each handler one theorem `…_cases` says everything it can do to the state.
-/
import Wakezilla.ProxyState

namespace Wakezilla

/-! ## Responses -/

/-- `ShutdownSetupStatus` of `common/src/lib.rs`. -/
inductive ShutdownSetupStatus
  | disabled
  | legacy
  | pending
  | verified
  | unreachable
  | keyMismatch
  deriving DecidableEq, Repr

/-- `ShutdownSetup` of `common/src/lib.rs`. -/
structure ShutdownSetup where
  status : ShutdownSetupStatus
  unixCommand : Option String
  windowsCommand : Option String
  deriving DecidableEq, Repr

/-- The JSON bodies of the handlers: `{"error": …}`, `{"errors": …}`, `{"status": …}` or a
shutdown setup. -/
inductive ResponseBody
  | error (message : String)
  | errors (errors : FieldErrors)
  | status (message : String)
  | setup (setup : ShutdownSetup)

/-- A status code and a body. -/
structure Response where
  code : ℕ
  body : ResponseBody

/-! ## Shutdown setup -/

/-- `shutdown_setup_for_machine`. -/
def shutdownSetupForMachine (machine : Machine) : ShutdownSetup :=
  match machine.canBeTurnedOff, machine.turnOffPort with
  | true, some port =>
    match machine.shutdownAuthKey with
    | none => ⟨.legacy, none, none⟩
    | some key =>
      if machine.shutdownAuthVerified then ⟨.verified, none, none⟩
      else
        let args := "wakezilla setup --mode client --port " ++ port.toNat.repr ++ " --key " ++ key
          ++ " --yes"
        ⟨.pending, some ("sudo " ++ args), some args⟩
  | _, _ => ⟨.disabled, none, none⟩

/-- `apply_shutdown_security`, with the random bytes of the key it may generate. -/
def applyShutdownSecurity (engine : Base64Engine) (random : Vector UInt8 32)
    (old : Option Machine) (new : Machine) : Machine :=
  if !new.shutdownEnabled then
    { new with shutdownAuthKey := none, shutdownAuthVerified := false }
  else
    match old.filter Machine.shutdownEnabled with
    | none =>
      { new with
        shutdownAuthKey := some (generateKey engine random), shutdownAuthVerified := false }
    | some old =>
      match old.shutdownAuthKey with
      | none => { new with shutdownAuthKey := none, shutdownAuthVerified := false }
      | some key =>
        { new with
          shutdownAuthKey := some key
          shutdownAuthVerified := old.shutdownAuthVerified &&
            (old.mac = new.mac && old.ip = new.ip && old.turnOffPort = new.turnOffPort) }

/-- `ClientVerification` of `src/forward.rs`. -/
inductive ClientVerification
  | verified
  | keyMismatch
  | unreachable
  deriving DecidableEq, Repr

/-- What the network does with the request of `verify_remote_client`: the HTTP client cannot
be built, the request fails, or a response with this status arrives. -/
inductive HttpAnswer
  | noClient
  | failed
  | response (status : ℕ)
  deriving DecidableEq, Repr

/-- `verify_remote_client`, whose request is signed with `key`. -/
def verifyRemoteClient (engine : Base64Engine) (key : String) (answer : HttpAnswer) :
    ClientVerification :=
  match answer with
  | .noClient => .unreachable
  | answer =>
    match decodeKey engine key with
    | .error _ => .keyMismatch
    | .ok _ =>
      match answer with
      | .response status =>
        if 200 ≤ status && status < 300 then .verified
        else if status = 401 || status = 403 then .keyMismatch
        else .unreachable
      | _ => .unreachable

/-! ## The handlers -/

/-- The `api_machine` that `add_machine_api` and `update_machine_api` build from a payload,
which may leave out the machine type, the inactivity period and the services. -/
def Api.MachinePayload.toMachine (payload : Api.MachinePayload) (machineType : MachineType) :
    Api.Machine where
  machineType := payload.machineType.getD machineType
  mac := payload.mac
  ip := payload.ip
  name := payload.name
  description := payload.description
  turnOffPort := payload.turnOffPort
  canBeTurnedOff := payload.canBeTurnedOff
  inactivityPeriod := payload.inactivityPeriod.getD getDefaultInactivityPeriod
  portForwards := payload.portForwards.getD []

/-- The key `add_machine_api` gives a new machine with remote shutdown. -/
def withNewKey (engine : Base64Engine) (random : Vector UInt8 32) (new : Machine) : Machine :=
  if new.shutdownEnabled then { new with shutdownAuthKey := some (generateKey engine random) }
  else new

/-- `add_machine_api`. -/
def addMachineApi (libs : Externals) (payload : Api.MachinePayload) (random : Vector UInt8 32)
    (fault : SaveFault) (now : Instant) (s : Proxy) : Response × Proxy :=
  let errors : FieldErrors := ∅
  let errors := errors.note (isBlank payload.name) "name" ["Name is required"]
  let errors := errors.note (!validateIp payload.ip) "ip" ["Invalid IP address"]
  let errors := errors.note (!validateMac payload.mac) "mac" ["Invalid MAC address"]
  if !errors.entries.isEmpty then (⟨400, .errors errors⟩, s)
  else
    let apiMachine := payload.toMachine .server
    match apiMachineToInternal apiMachine with
    | .error err => (⟨400, .errors ((∅ : FieldErrors).insert "ip" [err])⟩, s)
    | .ok newMachine =>
      let newMachine := withNewKey libs.base64 random newMachine
      match validateMachineConfig apiMachine s.machines none with
      | .error errors => (⟨400, .errors errors⟩, s)
      | .ok () =>
        let updated := s.machines ++ [newMachine]
        let saved := saveMachines libs.codec fault updated s.database
        if !saved.1 then
          (⟨500, .error "Failed to save machines"⟩, { s with database := saved.2 })
        else
          (⟨201, .status "Machine added"⟩,
            startProxyIfConfigured newMachine now
              { s with machines := updated, database := saved.2 })

/-- `update_machine_api` for the MAC of the request path. -/
def updateMachineApi (libs : Externals) (mac : String) (payload : Api.MachinePayload)
    (random : Vector UInt8 32) (fault : SaveFault) (now : Instant) (s : Proxy) :
    Response × Proxy :=
  match position mac s.machines with
  | none => (⟨404, .error "Machine not found"⟩, s)
  | some (index, oldMachine) =>
    let apiMachine := payload.toMachine oldMachine.machineType
    match validateMachineConfig apiMachine s.machines (some mac) with
    | .error errors => (⟨400, .errors errors⟩, s)
    | .ok () =>
      match apiMachineToInternal apiMachine with
      | .error err => (⟨400, .errors ((∅ : FieldErrors).insert "ip" [err])⟩, s)
      | .ok newMachine =>
        let newMachine := applyShutdownSecurity libs.base64 random (some oldMachine) newMachine
        let updated := s.machines.set index newMachine
        let saved := saveMachines libs.codec fault updated s.database
        if !saved.1 then
          (⟨500, .error "Failed to save machines"⟩, { s with database := saved.2 })
        else
          let s := { s with machines := updated, database := saved.2 }
          let s := { s with turnOffLimiter := s.turnOffLimiter.removeMachine oldMachine.mac }
          let s := stopProxies (fun key => startsWith key mac) s
          (⟨200, .status "Machine updated"⟩, startProxyIfConfigured newMachine now s)

/-- `delete_machine_api`. -/
def deleteMachineApi (libs : Externals) (payload : Api.DeleteMachinePayload) (fault : SaveFault)
    (s : Proxy) : Response × Proxy :=
  let removed := s.machines.find? fun machine => machine.mac = payload.mac
  let updated := s.machines.filter fun machine => machine.mac ≠ payload.mac
  let saved := saveMachines libs.codec fault updated s.database
  if !saved.1 then (⟨500, .error "Failed to save machines"⟩, { s with database := saved.2 })
  else
    let s := { s with machines := updated, database := saved.2 }
    let s :=
      match removed with
      | some machine =>
        { s with turnOffLimiter := s.turnOffLimiter.removeMachine machine.mac }
      | none => s
    (⟨200, .status "Machine deleted"⟩,
      stopProxies (fun key => startsWith key (payload.mac ++ "-")) s)

/-- `rotate_shutdown_key`. -/
def rotateShutdownKey (libs : Externals) (mac : String) (random : Vector UInt8 32)
    (fault : SaveFault) (s : Proxy) : Response × Proxy :=
  match position mac s.machines with
  | none => (⟨404, .error "Machine not found"⟩, s)
  | some (index, machine) =>
    if !machine.shutdownEnabled then (⟨400, .error "Remote shutdown is disabled"⟩, s)
    else
      let rotated :=
        { machine with
          shutdownAuthKey := some (generateKey libs.base64 random), shutdownAuthVerified := false }
      let setup := shutdownSetupForMachine rotated
      let machines := s.machines.set index rotated
      let saved := saveMachines libs.codec fault machines s.database
      if !saved.1 then
        let restored :=
          { rotated with
            shutdownAuthKey := machine.shutdownAuthKey
            shutdownAuthVerified := machine.shutdownAuthVerified }
        (⟨500, .error "Failed to persist shutdown setup"⟩,
          { s with machines := machines.set index restored, database := saved.2 })
      else (⟨200, .setup setup⟩, { s with machines, database := saved.2 })

/-- The first critical section of `verify_shutdown_setup`.  A machine whose setup is pending
goes on to the network; there is no response yet. -/
def verifyShutdownSetupRead (mac : String) (s : Proxy) : Option Response × Proxy :=
  match position mac s.machines with
  | none => (some ⟨404, .error "Machine not found"⟩, s)
  | some (_, machine) =>
    let setup := shutdownSetupForMachine machine
    if setup.status ≠ .pending then (some ⟨200, .setup setup⟩, s)
    else
      match machine.turnOffPort, machine.shutdownAuthKey with
      | some port, some key =>
        (none, { s with verifications := s.verifications ++ [⟨mac, machine, port, key⟩] })
      | _, _ => (none, s)

/-- `verify_shutdown_setup` after its network await, for the pending request `p`. -/
def verifyShutdownSetupCommit (libs : Externals) (p : PendingVerification) (answer : HttpAnswer)
    (fault : SaveFault) (s : Proxy) : Response × Proxy :=
  let setup := shutdownSetupForMachine p.machine
  match verifyRemoteClient libs.base64 p.key answer with
  | .verified =>
    let s := { s with verifiedClients := ⟨p.machine.ip, p.port, p.key⟩ :: s.verifiedClients }
    match position p.mac s.machines with
    | none => (⟨404, .error "Machine not found"⟩, s)
    | some (index, machine) =>
      if machine.shutdownAuthKey ≠ some p.key then
        (⟨200, .setup (shutdownSetupForMachine machine)⟩, s)
      else
        let marked := { machine with shutdownAuthVerified := true }
        let machines := s.machines.set index marked
        let saved := saveMachines libs.codec fault machines s.database
        if !saved.1 then
          let restored := { marked with shutdownAuthVerified := machine.shutdownAuthVerified }
          (⟨500, .error "Failed to persist shutdown setup"⟩,
            { s with machines := machines.set index restored, database := saved.2 })
        else
          (⟨200, .setup (shutdownSetupForMachine marked)⟩, { s with machines, database := saved.2 })
  | .keyMismatch => (⟨200, .setup { setup with status := .keyMismatch }⟩, s)
  | .unreachable => (⟨200, .setup { setup with status := .unreachable }⟩, s)

/-- `execute_remote_turn_off`: the call of `turn_off_remote_machine` that it makes, if it makes
one, and its status and message when the call ends with `answer`. -/
def executeRemoteTurnOff (mac : String) (answer : Except String Unit) (s : Proxy) :
    Option TurnOff × ℕ × String :=
  match s.machines.find? fun machine => machine.mac = mac with
  | some machine =>
    match machine.turnOffPort with
    | some port =>
      (some ⟨machine.ip, port, mac, machine.shutdownAuthKey⟩,
        match answer with
        | .ok () => (200, "Sent turn-off request to " ++ mac)
        | .error e => (502, "Failed to send turn-off request: " ++ e))
    | none => (none, 400, "No turn-off port configured for " ++ mac)
  | none => (none, 404, "Machine " ++ mac ++ " not found")

/-! ## What the handlers do to the state

A handler either refuses the request, and then changes at most the database file, or
commits a new registry. -/

/-- The state after a refused request: unchanged, or with what a failed save left in the
database file. -/
inductive Refused (libs : Externals) (fault : SaveFault) (s : Proxy) : Proxy → Prop
  | unchanged : Refused libs fault s s
  | notSaved (hfault : fault ≠ .noFault) (machines : List Machine) :
      Refused libs fault s
        { s with database := (saveMachines libs.codec fault machines s.database).2 }

/-- The request is answered with an error. -/
def Rejected (libs : Externals) (fault : SaveFault) (s : Proxy) (answer : Response × Proxy) :
    Prop :=
  400 ≤ answer.1.code ∧ Refused libs fault s answer.2

/-- The state after a successful save of the registry `machines`. -/
def Proxy.commit (libs : Externals) (machines : List Machine) (s : Proxy) : Proxy :=
  { s with machines, database := some (libs.codec.toStringPretty machines) }

/-- A save either fails, at one of its steps, or writes the whole registry. -/
theorem save_cases (libs : Externals) (fault : SaveFault) (machines : List Machine)
    (file : Database) :
    ((saveMachines libs.codec fault machines file).1 = false ∧ fault ≠ .noFault) ∨
      (saveMachines libs.codec fault machines file =
          (true, some (libs.codec.toStringPretty machines)) ∧ fault = .noFault) := by
  cases fault with
  | noFault => exact Or.inr ⟨rfl, rfl⟩
  | createDirAll => exact Or.inl ⟨rfl, by decide⟩
  | openFile => exact Or.inl ⟨rfl, by decide⟩
  | setPermissions => exact Or.inl ⟨rfl, by decide⟩
  | writeAll written => exact Or.inl ⟨rfl, SaveFault.noConfusion⟩
  | syncAll => exact Or.inl ⟨rfl, by decide⟩

/-- Overwriting a record and putting the old one back restores the registry. -/
theorem set_set_of_getElem? {machines : List Machine} {i : ℕ} {m : Machine} (new : Machine)
    (h : machines[i]? = some m) : (machines.set i new).set i m = machines := by
  rw [List.set_set]
  obtain ⟨hi, hget⟩ := List.getElem?_eq_some_iff.mp h
  rw [← hget, List.set_getElem_self]

/-- The key and flag of a machine that `add_machine_api` is about to register. -/
theorem withNewKey_auth (engine : Base64Engine) (random : Vector UInt8 32) {base : Machine}
    (hkey : base.shutdownAuthKey = none) (hverified : base.shutdownAuthVerified = false) :
    (withNewKey engine random base).shutdownAuthVerified = false ∧
      (withNewKey engine random base).shutdownAuthKey =
        if (withNewKey engine random base).shutdownEnabled then
          some (generateKey engine random) else none := by
  unfold withNewKey
  cases henabled : base.shutdownEnabled with
  | true => exact ⟨hverified, (if_pos henabled).symm⟩
  | false => exact ⟨hverified, by simp [henabled, hkey]⟩

theorem withNewKey_mac (engine : Base64Engine) (random : Vector UInt8 32) (base : Machine) :
    (withNewKey engine random base).mac = base.mac := by
  unfold withNewKey
  split <;> rfl

theorem ValidMachine.withNewKey {m : Machine} {others : List Machine} (h : ValidMachine m others)
    (engine : Base64Engine) (random : Vector UInt8 32) :
    ValidMachine (withNewKey engine random m) others := by
  unfold Wakezilla.withNewKey
  split
  · exact h.withKey _ m.shutdownAuthVerified
  · exact h

theorem addMachineApi_cases (libs : Externals) (payload : Api.MachinePayload)
    (random : Vector UInt8 32) (fault : SaveFault) (now : Instant) (s : Proxy) :
    Rejected libs fault s (addMachineApi libs payload random fault now s) ∨
      ∃ new : Machine, fault = .noFault ∧ ValidMachine new s.machines ∧ new.mac = payload.mac ∧
        new.shutdownAuthVerified = false ∧
        new.shutdownAuthKey =
          (if new.shutdownEnabled then some (generateKey libs.base64 random) else none) ∧
        addMachineApi libs payload random fault now s =
          (⟨201, .status "Machine added"⟩,
            startProxyIfConfigured new now (s.commit libs (s.machines ++ [new]))) := by
  unfold addMachineApi
  simp only []
  split
  · exact Or.inl ⟨le_rfl, .unchanged⟩
  split
  · exact Or.inl ⟨le_rfl, .unchanged⟩
  rename_i base hbase
  obtain ⟨hmac, hkey, hverified, -⟩ := apiMachineToInternal_ok hbase
  split
  · exact Or.inl ⟨le_rfl, .unchanged⟩
  rename_i hvalid
  rw [validateMachineConfig_eq_ok, List.filter_eq_self.mpr (by simp)] at hvalid
  obtain ⟨hflag, hnewKey⟩ := withNewKey_auth libs.base64 random hkey hverified
  rcases save_cases libs fault (s.machines ++ [withNewKey libs.base64 random base])
      s.database with ⟨hsave, hfault⟩ | ⟨hsave, hfault⟩
  · rw [hsave]
    exact Or.inl ⟨Nat.le_add_right 400 100, .notSaved hfault _⟩
  · rw [hsave]
    exact Or.inr ⟨_, hfault, (hvalid.validMachine hbase).withNewKey libs.base64 random,
      (withNewKey_mac libs.base64 random base).trans hmac, hflag, hnewKey, rfl⟩

theorem ValidMachine.applyShutdownSecurity {m : Machine} {others : List Machine}
    (h : ValidMachine m others) (engine : Base64Engine) (random : Vector UInt8 32)
    (old : Option Machine) : ValidMachine (applyShutdownSecurity engine random old m) others := by
  unfold Wakezilla.applyShutdownSecurity
  split
  · exact h.withKey _ _
  split
  · exact h.withKey _ _
  split <;> exact h.withKey _ _

theorem updateMachineApi_cases (libs : Externals) (mac : String) (payload : Api.MachinePayload)
    (random : Vector UInt8 32) (fault : SaveFault) (now : Instant) (s : Proxy) :
    Rejected libs fault s (updateMachineApi libs mac payload random fault now s) ∨
      ∃ (index : ℕ) (old base : Machine), fault = .noFault ∧
        position mac s.machines = some (index, old) ∧
        ValidMachine (applyShutdownSecurity libs.base64 random (some old) base)
          (s.machines.filter fun existing => some existing.mac ≠ some mac) ∧
        updateMachineApi libs mac payload random fault now s =
          (⟨200, .status "Machine updated"⟩,
            startProxyIfConfigured (applyShutdownSecurity libs.base64 random (some old) base) now
              (stopProxies (fun key => startsWith key mac)
                { s.commit libs (s.machines.set index
                    (applyShutdownSecurity libs.base64 random (some old) base)) with
                  turnOffLimiter := s.turnOffLimiter.removeMachine old.mac })) := by
  unfold updateMachineApi
  split
  · exact Or.inl ⟨Nat.le_add_right 400 4, .unchanged⟩
  rename_i index old hposition
  simp only []
  split
  · exact Or.inl ⟨le_rfl, .unchanged⟩
  rename_i hvalid
  rw [validateMachineConfig_eq_ok] at hvalid
  split
  · exact Or.inl ⟨le_rfl, .unchanged⟩
  rename_i base hbase
  rcases save_cases libs fault
      (s.machines.set index (applyShutdownSecurity libs.base64 random (some old) base))
      s.database with ⟨hsave, hfault⟩ | ⟨hsave, hfault⟩
  · rw [hsave]
    exact Or.inl ⟨Nat.le_add_right 400 100, .notSaved hfault _⟩
  · rw [hsave]
    exact Or.inr ⟨index, old, base, hfault, hposition,
      (hvalid.validMachine hbase).applyShutdownSecurity libs.base64 random (some old), rfl⟩

theorem deleteMachineApi_cases (libs : Externals) (payload : Api.DeleteMachinePayload)
    (fault : SaveFault) (s : Proxy) :
    (fault ≠ .noFault ∧ Rejected libs fault s (deleteMachineApi libs payload fault s)) ∨
      ∃ limiter : TurnOffLimiter, fault = .noFault ∧
        ((limiter = s.turnOffLimiter ∧ ∀ m ∈ s.machines, m.mac ≠ payload.mac) ∨
          limiter = s.turnOffLimiter.removeMachine payload.mac) ∧
        deleteMachineApi libs payload fault s =
          (⟨200, .status "Machine deleted"⟩,
            stopProxies (fun key => startsWith key (payload.mac ++ "-"))
              { s.commit libs (s.machines.filter fun m => m.mac ≠ payload.mac) with
                turnOffLimiter := limiter }) := by
  unfold deleteMachineApi
  simp only []
  rcases save_cases libs fault (s.machines.filter fun m => m.mac ≠ payload.mac)
      s.database with ⟨hsave, hfault⟩ | ⟨hsave, hfault⟩
  · rw [hsave]
    exact Or.inl ⟨hfault, Nat.le_add_right 400 100, .notSaved hfault _⟩
  · rw [hsave]
    cases hfind : s.machines.find? fun m => m.mac = payload.mac with
    | none =>
      refine Or.inr ⟨s.turnOffLimiter, hfault, Or.inl ⟨rfl, fun m hm => ?_⟩, ?_⟩
      · simpa using List.find?_eq_none.mp hfind m hm
      · rfl
    | some m =>
      have hmac : m.mac = payload.mac := by simpa using List.find?_some hfind
      refine Or.inr ⟨s.turnOffLimiter.removeMachine payload.mac, hfault, Or.inr rfl, ?_⟩
      rw [← hmac]
      rfl

theorem rotateShutdownKey_cases (libs : Externals) (mac : String) (random : Vector UInt8 32)
    (fault : SaveFault) (s : Proxy) :
    Rejected libs fault s (rotateShutdownKey libs mac random fault s) ∨
      ∃ (index : ℕ) (m : Machine), fault = .noFault ∧
        position mac s.machines = some (index, m) ∧ m.shutdownEnabled = true ∧
        (rotateShutdownKey libs mac random fault s).1.code = 200 ∧
        (rotateShutdownKey libs mac random fault s).2 =
          s.commit libs (s.machines.set index
            { m with
              shutdownAuthKey := some (generateKey libs.base64 random)
              shutdownAuthVerified := false }) := by
  unfold rotateShutdownKey
  split
  · exact Or.inl ⟨Nat.le_add_right 400 4, .unchanged⟩
  rename_i index m hposition
  split
  · exact Or.inl ⟨le_rfl, .unchanged⟩
  rename_i henabled
  simp only []
  rcases save_cases libs fault
      (s.machines.set index { m with
        shutdownAuthKey := some (generateKey libs.base64 random), shutdownAuthVerified := false })
      s.database with ⟨hsave, hfault⟩ | ⟨hsave, hfault⟩
  · rw [hsave, set_set_of_getElem? _ (position_eq_some hposition).1]
    exact Or.inl ⟨Nat.le_add_right 400 100, .notSaved hfault _⟩
  · rw [hsave]
    exact Or.inr ⟨index, m, hfault, hposition, by simpa using henabled, rfl, rfl⟩

/-- The first section of a verification leaves the registry alone. -/
theorem verifyShutdownSetupRead_cases (mac : String) (s : Proxy) :
    (verifyShutdownSetupRead mac s).2 = s ∨
      ∃ (index : ℕ) (m : Machine) (port : UInt16) (key : String),
        position mac s.machines = some (index, m) ∧ m.turnOffPort = some port ∧
        m.shutdownAuthKey = some key ∧
        (verifyShutdownSetupRead mac s).2 =
          { s with verifications := s.verifications ++ [⟨mac, m, port, key⟩] } := by
  unfold verifyShutdownSetupRead
  split
  · exact Or.inl rfl
  rename_i index m hposition
  simp only []
  split
  · exact Or.inl rfl
  split
  · rename_i port key hport hkey
    exact Or.inr ⟨index, m, port, key, hposition, hport, hkey, rfl⟩
  · exact Or.inl rfl

theorem verifyShutdownSetupCommit_cases (libs : Externals) (p : PendingVerification)
    (answer : HttpAnswer) (fault : SaveFault) (s : Proxy) :
    (verifyRemoteClient libs.base64 p.key answer ≠ .verified ∧
        (verifyShutdownSetupCommit libs p answer fault s).1.code = 200 ∧
        (verifyShutdownSetupCommit libs p answer fault s).2 = s) ∨
      (verifyRemoteClient libs.base64 p.key answer = .verified ∧
        (Refused libs fault
            { s with verifiedClients := ⟨p.machine.ip, p.port, p.key⟩ :: s.verifiedClients }
            (verifyShutdownSetupCommit libs p answer fault s).2 ∨
          ∃ (index : ℕ) (m : Machine), fault = .noFault ∧
            position p.mac s.machines = some (index, m) ∧ m.shutdownAuthKey = some p.key ∧
            (verifyShutdownSetupCommit libs p answer fault s).1.code = 200 ∧
            (verifyShutdownSetupCommit libs p answer fault s).2 =
              { s with
                verifiedClients := ⟨p.machine.ip, p.port, p.key⟩ :: s.verifiedClients }.commit libs
                (s.machines.set index { m with shutdownAuthVerified := true }))) := by
  unfold verifyShutdownSetupCommit
  simp only []
  cases hanswer : verifyRemoteClient libs.base64 p.key answer with
  | keyMismatch => exact Or.inl ⟨by decide, rfl, rfl⟩
  | unreachable => exact Or.inl ⟨by decide, rfl, rfl⟩
  | verified =>
    refine Or.inr ⟨rfl, ?_⟩
    simp only []
    cases hposition : position p.mac s.machines with
    | none => exact Or.inl .unchanged
    | some found =>
      obtain ⟨index, m⟩ := found
      simp only []
      split
      · exact Or.inl .unchanged
      rename_i hkey
      rcases save_cases libs fault (s.machines.set index { m with shutdownAuthVerified := true })
          s.database with ⟨hsave, hfault⟩ | ⟨hsave, hfault⟩
      · rw [hsave, set_set_of_getElem? _ (position_eq_some hposition).1]
        exact Or.inl (.notSaved hfault _)
      · rw [hsave]
        exact Or.inr ⟨index, m, hfault, rfl, not_not.mp hkey, rfl, rfl⟩

end Wakezilla
