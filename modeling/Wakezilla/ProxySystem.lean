/-
# The proxy as a transition system

Every interleaving of the request handlers, the forwarder tasks, the connections and
the ticks of the inactivity monitor is a list of `ProxyEvent`s.  An event is one
critical section: a handler between taking and releasing the registry lock, or one
step of a task.  The choices of the environment (random bytes, failing save steps,
network answers, clock readings) are members of the events.

`step_effect` lists, once, everything a step can do; the invariants of the later
files are proved from it by one case analysis each.
-/
import Wakezilla.Handlers
import Wakezilla.Library.Run

namespace Wakezilla

/-- One critical section of the proxy process. -/
inductive ProxyEvent
  | add (payload : Api.MachinePayload) (random : Vector UInt8 32) (fault : SaveFault)
      (now : Instant)
  | update (mac : String) (payload : Api.MachinePayload) (random : Vector UInt8 32)
      (fault : SaveFault) (now : Instant)
  | delete (payload : Api.DeleteMachinePayload) (fault : SaveFault)
  | rotate (mac : String) (random : Vector UInt8 32) (fault : SaveFault)
  | verifyRead (mac : String)
  | verifyCommit (request : ℕ) (answer : HttpAnswer) (fault : SaveFault)
  | connection (task : ℕ) (now : Instant)
  | tick (now : Instant)
  | insertSender (task : ℕ)
  | bindListener (task : ℕ)
  | observeStop (task : ℕ)

/-- The fault of the save an event makes. -/
def ProxyEvent.fault : ProxyEvent → SaveFault
  | .add _ _ fault _ => fault
  | .update _ _ _ fault _ => fault
  | .delete _ fault => fault
  | .rotate _ _ fault => fault
  | .verifyCommit _ _ fault => fault
  | _ => .noFault

/-- A connection accepted by a forwarder, current or outdated, resets the timer of the MAC
the forwarder was spawned for. -/
def acceptConnection (i : ℕ) (now : Instant) (s : Proxy) : Proxy :=
  match s.tasks[i]? with
  | some task => { s with turnOffLimiter := s.turnOffLimiter.updateLastRequest task.mac now }
  | none => s

/-- The second section of the verification request with number `i`. -/
def finishVerification (libs : Externals) (i : ℕ) (answer : HttpAnswer) (fault : SaveFault)
    (s : Proxy) : Proxy :=
  match s.verifications[i]? with
  | some p =>
    (verifyShutdownSetupCommit libs p answer fault
      { s with verifications := s.verifications.eraseIdx i }).2
  | none => s

/-- The state after one event. -/
def step (libs : Externals) (s : Proxy) : ProxyEvent → Proxy
  | .add payload random fault now => (addMachineApi libs payload random fault now s).2
  | .update mac payload random fault now =>
    (updateMachineApi libs mac payload random fault now s).2
  | .delete payload fault => (deleteMachineApi libs payload fault s).2
  | .rotate mac random fault => (rotateShutdownKey libs mac random fault s).2
  | .verifyRead mac => (verifyShutdownSetupRead mac s).2
  | .verifyCommit i answer fault => finishVerification libs i answer fault s
  | .connection i now => acceptConnection i now s
  | .tick now => { s with turnOffLimiter := s.turnOffLimiter.afterTick now }
  | .insertSender i => insertSender i s
  | .bindListener i => bindListener i s
  | .observeStop i => observeStop i s

/-! ## Fields that the operations leave alone -/

@[simp] theorem commit_machines (libs : Externals) (ms : List Machine) (s : Proxy) :
    (s.commit libs ms).machines = ms := rfl

@[simp] theorem startProxy_machines (m : Machine) (now : Instant) (s : Proxy) :
    (startProxyIfConfigured m now s).machines = s.machines := rfl

@[simp] theorem startProxy_turnOffLimiter (m : Machine) (now : Instant) (s : Proxy) :
    (startProxyIfConfigured m now s).turnOffLimiter =
      configureTimer m now s.turnOffLimiter := rfl
@[simp] theorem startProxy_tasks (m : Machine) (now : Instant) (s : Proxy) :
    (startProxyIfConfigured m now s).tasks =
      s.tasks ++ m.portForwards.map (spawnForwarder m) := rfl

@[simp] theorem stopProxies_turnOffLimiter (p : String → Bool) (s : Proxy) :
    (stopProxies p s).turnOffLimiter = s.turnOffLimiter := rfl

/-- The steps of the forwarder tasks touch only `proxies` and `tasks`. -/
theorem insertSender_frame (i : ℕ) (s : Proxy) :
    insertSender i s =
      { s with proxies := (insertSender i s).proxies, tasks := (insertSender i s).tasks } := by
  unfold insertSender
  split
  · split <;> rfl
  · rfl

theorem bindListener_frame (i : ℕ) (s : Proxy) :
    bindListener i s =
      { s with proxies := (bindListener i s).proxies, tasks := (bindListener i s).tasks } := by
  unfold bindListener
  split
  · split <;> rfl
  · rfl

theorem observeStop_frame (i : ℕ) (s : Proxy) :
    observeStop i s =
      { s with proxies := (observeStop i s).proxies, tasks := (observeStop i s).tasks } := by
  unfold observeStop
  split
  · split <;> rfl
  · rfl

/-! ## What a step can do -/

/-- The steps of the forwarder tasks. -/
inductive ForwarderStep (s : Proxy) : ProxyEvent → Proxy → Prop
  | insertSender {i : ℕ} : ForwarderStep s (.insertSender i) (insertSender i s)
  | bindListener {i : ℕ} : ForwarderStep s (.bindListener i) (bindListener i s)
  | observeStop {i : ℕ} : ForwarderStep s (.observeStop i) (observeStop i s)

/-- The effects of the events, with everything the handlers checked before they committed.
`idle` covers refused requests and the sections that only read; a delete is refused only when
its save fails. -/
inductive StepEffect (libs : Externals) (s : Proxy) : ProxyEvent → Proxy → Prop
  | idle {e : ProxyEvent} {s' : Proxy} (machines : s'.machines = s.machines)
      (limiter : s'.turnOffLimiter = s.turnOffLimiter) (proxies : s'.proxies = s.proxies)
      (tasks : s'.tasks = s.tasks) (clients : s.verifiedClients ⊆ s'.verifiedClients)
      (database : s'.database = s.database ∨ (e.fault ≠ .noFault ∧ ∃ ms,
        s'.database = (saveMachines libs.codec e.fault ms s.database).2))
      (notDeleted : ∀ payload, e ≠ .delete payload .noFault) :
      StepEffect libs s e s'
  | add {payload : Api.MachinePayload} {random : Vector UInt8 32} {now : Instant}
      (new : Machine) (valid : ValidMachine new s.machines)
      (verified : new.shutdownAuthVerified = false)
      (key : new.shutdownAuthKey =
        if new.shutdownEnabled then some (generateKey libs.base64 random) else none) :
      StepEffect libs s (.add payload random .noFault now)
        (startProxyIfConfigured new now (s.commit libs (s.machines ++ [new])))
  | update {mac : String} {payload : Api.MachinePayload} {random : Vector UInt8 32}
      {now : Instant} (index : ℕ) (old base new : Machine)
      (position : position mac s.machines = some (index, old))
      (new_eq : new = applyShutdownSecurity libs.base64 random (some old) base)
      (valid : ValidMachine new
        (s.machines.filter fun existing => some existing.mac ≠ some mac)) :
      StepEffect libs s (.update mac payload random .noFault now)
        (startProxyIfConfigured new now
          (stopProxies (fun key => startsWith key mac)
            { s.commit libs (s.machines.set index new) with
              turnOffLimiter := s.turnOffLimiter.removeMachine mac }))
  | delete {payload : Api.DeleteMachinePayload} (limiter : TurnOffLimiter)
      (removed : (limiter = s.turnOffLimiter ∧ ∀ m ∈ s.machines, m.mac ≠ payload.mac) ∨
        limiter = s.turnOffLimiter.removeMachine payload.mac) :
      StepEffect libs s (.delete payload .noFault)
        (stopProxies (fun key => startsWith key (payload.mac ++ "-"))
          { s.commit libs (s.machines.filter fun m => m.mac ≠ payload.mac) with
            turnOffLimiter := limiter })
  | rotate {mac : String} {random : Vector UInt8 32} (index : ℕ) (m : Machine)
      (position : position mac s.machines = some (index, m))
      (enabled : m.shutdownEnabled = true) :
      StepEffect libs s (.rotate mac random .noFault)
        (s.commit libs (s.machines.set index
          { m with
            shutdownAuthKey := some (generateKey libs.base64 random)
            shutdownAuthVerified := false }))
  | verify {request : ℕ} {answer : HttpAnswer} (p : PendingVerification) (index : ℕ)
      (m : Machine) (pending : s.verifications[request]? = some p)
      (answered : verifyRemoteClient libs.base64 p.key answer = .verified)
      (position : position p.mac s.machines = some (index, m))
      (key : m.shutdownAuthKey = some p.key) :
      StepEffect libs s (.verifyCommit request answer .noFault)
        ({ s with
          verifications := s.verifications.eraseIdx request
          verifiedClients := ⟨p.machine.ip, p.port, p.key⟩ :: s.verifiedClients }.commit libs
          (s.machines.set index { m with shutdownAuthVerified := true }))
  | connection {i : ℕ} {now : Instant} (task : ForwarderTask) :
      StepEffect libs s (.connection i now)
        { s with turnOffLimiter := s.turnOffLimiter.updateLastRequest task.mac now }
  | tick {now : Instant} :
      StepEffect libs s (.tick now) { s with turnOffLimiter := s.turnOffLimiter.afterTick now }
  | forwarder {e : ProxyEvent} {s' : Proxy} (taskStep : ForwarderStep s e s')
      (frame : s' = { s with proxies := s'.proxies, tasks := s'.tasks }) : StepEffect libs s e s'

/-- A refused request is idle. -/
theorem StepEffect.of_refused {libs : Externals} {s s₀ s' : Proxy} {e : ProxyEvent}
    (h : Refused libs e.fault s₀ s') (hmachines : s₀.machines = s.machines)
    (hlimiter : s₀.turnOffLimiter = s.turnOffLimiter) (hproxies : s₀.proxies = s.proxies)
    (htasks : s₀.tasks = s.tasks) (hclients : s.verifiedClients ⊆ s₀.verifiedClients)
    (hdatabase : s₀.database = s.database)
    (hdelete : ∀ payload, e ≠ .delete payload .noFault) : StepEffect libs s e s' := by
  cases h with
  | unchanged => exact .idle hmachines hlimiter hproxies htasks hclients (Or.inl hdatabase) hdelete
  | notSaved hfault ms =>
    exact .idle hmachines hlimiter hproxies htasks hclients
      (Or.inr ⟨hfault, ms, by rw [hdatabase]⟩) hdelete

/-- **Every step has one of the listed effects.** -/
theorem step_effect (libs : Externals) (s : Proxy) (e : ProxyEvent) :
    StepEffect libs s e (step libs s e) := by
  have hsub : s.verifiedClients ⊆ s.verifiedClients := List.Subset.refl _
  cases e with
  | add payload random fault now =>
    rcases addMachineApi_cases libs payload random fault now s with
      ⟨-, hrefused⟩ | ⟨new, rfl, hvalid, -, hverified, hkey, hstate⟩
    · exact .of_refused (e := .add payload random fault now) hrefused rfl rfl rfl rfl hsub rfl
        nofun
    · rw [step, hstate]
      exact .add new hvalid hverified hkey
  | update mac payload random fault now =>
    rcases updateMachineApi_cases libs mac payload random fault now s with
      ⟨-, hrefused⟩ | ⟨index, old, base, rfl, hposition, hvalid, hstate⟩
    · exact .of_refused (e := .update mac payload random fault now) hrefused rfl rfl rfl rfl
        hsub rfl nofun
    · rw [step, hstate, (position_eq_some hposition).2]
      exact .update index old base _ hposition rfl hvalid
  | delete payload fault =>
    rcases deleteMachineApi_cases libs payload fault s with
      ⟨hfault, -, hrefused⟩ | ⟨limiter, rfl, hremoved, hstate⟩
    · refine .of_refused (e := .delete payload fault) hrefused rfl rfl rfl rfl hsub rfl ?_
      rintro payload' ⟨⟩
      exact hfault rfl
    · rw [step, hstate]
      exact .delete limiter hremoved
  | rotate mac random fault =>
    rcases rotateShutdownKey_cases libs mac random fault s with
      ⟨-, hrefused⟩ | ⟨index, m, rfl, hposition, henabled, -, hstate⟩
    · exact .of_refused (e := .rotate mac random fault) hrefused rfl rfl rfl rfl hsub rfl nofun
    · rw [step, hstate]
      exact .rotate index m hposition henabled
  | verifyRead mac =>
    rcases verifyShutdownSetupRead_cases mac s with
      hstate | ⟨index, m, port, key, -, -, -, hstate⟩
    · rw [step, hstate]
      exact .idle rfl rfl rfl rfl hsub (Or.inl rfl) nofun
    · rw [step, hstate]
      exact .idle rfl rfl rfl rfl hsub (Or.inl rfl) nofun
  | verifyCommit i answer fault =>
    rw [step, finishVerification]
    cases hp : s.verifications[i]? with
    | none => exact .idle rfl rfl rfl rfl hsub (Or.inl rfl) nofun
    | some p =>
      rcases verifyShutdownSetupCommit_cases libs p answer fault
          { s with verifications := s.verifications.eraseIdx i } with
        ⟨-, -, hstate⟩ | ⟨hanswer, hrefused | ⟨index, m, rfl, hposition, hkey, -, hstate⟩⟩
      · simp only [hstate]
        exact .idle rfl rfl rfl rfl hsub (Or.inl rfl) nofun
      · exact .of_refused (e := .verifyCommit i answer fault) hrefused rfl rfl rfl rfl
          (List.subset_cons_self _ _) rfl nofun
      · simp only [hstate]
        exact .verify p index m hp hanswer hposition hkey
  | connection i now =>
    rw [step, acceptConnection]
    cases s.tasks[i]? with
    | none => exact .idle rfl rfl rfl rfl hsub (Or.inl rfl) nofun
    | some task => exact .connection task
  | tick now => exact .tick
  | insertSender i => exact .forwarder .insertSender (insertSender_frame i s)
  | bindListener i => exact .forwarder .bindListener (bindListener_frame i s)
  | observeStop i => exact .forwarder .observeStop (observeStop_frame i s)

/-! ## The initial state -/

/-- The start-up loop: its registry, and what it leaves of the other members. -/
theorem startMachines_fields (machines : List Machine) (database : Database)
    (clock : ℕ → Instant) :
    (startMachines machines database clock).machines = machines ∧
      (startMachines machines database clock).proxies = ∅ ∧
      (startMachines machines database clock).database = database ∧
      (startMachines machines database clock).verifications = [] ∧
      (startMachines machines database clock).verifiedClients = [] := by
  unfold startMachines
  generalize machines.zipIdx = indexed
  set s : Proxy := ⟨machines, ∅, TurnOffLimiter.new, [], database, [], []⟩ with hs
  have hloop : ∀ (l : List (Machine × ℕ)) (s : Proxy),
      (l.foldl (fun s m => startProxyIfConfigured m.1 (clock m.2) s) s).machines = s.machines ∧
      (l.foldl (fun s m => startProxyIfConfigured m.1 (clock m.2) s) s).proxies = s.proxies ∧
      (l.foldl (fun s m => startProxyIfConfigured m.1 (clock m.2) s) s).database = s.database ∧
      (l.foldl (fun s m => startProxyIfConfigured m.1 (clock m.2) s) s).verifications =
        s.verifications ∧
      (l.foldl (fun s m => startProxyIfConfigured m.1 (clock m.2) s) s).verifiedClients =
        s.verifiedClients := by
    intro l
    induction l with
    | nil => intro s; exact ⟨rfl, rfl, rfl, rfl, rfl⟩
    | cons m l ih => intro s; exact ih _
  exact hloop indexed s

/-! ## Two sample machines -/

/-- A pending machine with a forwarded service and a timer. -/
def workstation : Machine where
  mac := "AA:BB:CC:DD:EE:01"
  ip := ⟨192, 168, 1, 20⟩
  name := "workstation"
  machineType := .computer
  description := none
  turnOffPort := some 3001
  canBeTurnedOff := true
  shutdownAuthKey := some "AQEBAQEBAQEBAQEBAQEBAQEBAQEBAQEBAQEBAQEBAQE"
  shutdownAuthVerified := false
  inactivityPeriod := 30
  portForwards := [⟨"ssh", 2222, 22⟩]

/-- A legacy machine without services, which has no timer. -/
def backupServer : Machine where
  mac := "AA:BB:CC:DD:EE:02"
  ip := ⟨192, 168, 1, 30⟩
  name := "backup"
  machineType := .nas
  description := none
  turnOffPort := some 3001
  canBeTurnedOff := true
  shutdownAuthKey := none
  shutdownAuthVerified := false
  inactivityPeriod := 60
  portForwards := []

/-- The payload that describes a machine as it is. -/
def payloadOf (m : Machine) : Api.MachinePayload where
  machineType := some m.machineType
  mac := m.mac
  ip := m.ip.toString
  name := m.name
  description := m.description
  turnOffPort := m.turnOffPort
  canBeTurnedOff := m.canBeTurnedOff
  inactivityPeriod := some m.inactivityPeriod
  portForwards := some (m.portForwards.map fun pf => ⟨pf.name, pf.localPort, pf.targetPort⟩)

/-- The random bytes of a sample key. -/
def sampleBytes : Vector UInt8 32 := Vector.replicate 32 2

end Wakezilla
