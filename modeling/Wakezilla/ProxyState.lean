/-
# The state of the proxy process

`AppState` of `src/web.rs` with what surrounds it at run time: the forwarder tasks
that `start_proxy_if_configured` spawned, the database file, and the verification
requests that wait for the network.

A watch channel is named by the number of the task that holds its receiver, so the
`proxies` map sends a key to a task number.  A task goes through its own steps
(insert the sender, bind, listen) in any order relative to everything else; its
`cancelled` flag is set once `false` was sent to it or its sender was dropped, and
`changed()` returns from then on.
-/
import Wakezilla.MachineJson
import Wakezilla.ShutdownAuth
import Wakezilla.TurnOffLimiter
import Wakezilla.Validate

namespace Wakezilla

/-- The libraries the handlers use. -/
structure Externals where
  base64 : Base64Engine
  codec : MachinesCodec

/-- The libraries themselves. -/
def libraries : Externals where
  base64 := urlSafeNoPad
  codec := serdeJson

/-! ## Forwarder tasks -/

/-- How far a forwarder task has come.  A task terminates when its bind fails or when it
observes its stop signal. -/
inductive TaskPhase
  | spawned
  | inserted
  | listening
  | terminated
  deriving DecidableEq, Repr

/-- `format!("{}-{}-{}", mac, local_port, target_port)`. -/
def proxyKey (mac : String) (localPort targetPort : UInt16) : String :=
  mac ++ "-" ++ localPort.toNat.repr ++ "-" ++ targetPort.toNat.repr

/-- One task spawned by `start_proxy_if_configured`, with what it captured. -/
structure ForwarderTask where
  mac : String
  remoteIp : Ipv4Addr
  localPort : UInt16
  targetPort : UInt16
  phase : TaskPhase
  cancelled : Bool
  deriving DecidableEq, Repr

/-- The key under which the task inserts its sender. -/
def ForwarderTask.key (t : ForwarderTask) : String := proxyKey t.mac t.localPort t.targetPort

/-- The task spawned for one service of `machine`. -/
def spawnForwarder (machine : Machine) (pf : PortForward) : ForwarderTask where
  mac := machine.mac
  remoteIp := machine.ip
  localPort := pf.localPort
  targetPort := pf.targetPort
  phase := .spawned
  cancelled := false

/-! ## The state -/

/-- A `verify_shutdown_setup` request between its two critical sections: the MAC of its
path, the machine it read, and the port and key it sends to the client. -/
structure PendingVerification where
  mac : String
  machine : Machine
  port : UInt16
  key : String
  deriving DecidableEq, Repr

/-- The arguments of a call of `verify_remote_client`. -/
structure RemoteClient where
  ip : Ipv4Addr
  port : UInt16
  key : String
  deriving DecidableEq, Repr

/-- The proxy process.  `verifiedClients` records the calls of `verify_remote_client` that
returned `Verified`; no code reads it. -/
structure Proxy where
  machines : List Machine
  proxies : Dict String ℕ
  turnOffLimiter : TurnOffLimiter
  tasks : List ForwarderTask
  database : Database
  verifications : List PendingVerification
  verifiedClients : List RemoteClient

/-- The position of the first machine with the given MAC, and that machine. -/
def position (mac : String) : List Machine → Option (ℕ × Machine)
  | [] => none
  | m :: machines =>
    if m.mac = mac then some (0, m)
    else (position mac machines).map fun found => (found.1 + 1, found.2)

theorem position_eq_some {mac : String} {machines : List Machine} {i : ℕ} {m : Machine}
    (h : position mac machines = some (i, m)) : machines[i]? = some m ∧ m.mac = mac := by
  induction machines generalizing i with
  | nil => cases h
  | cons first machines ih =>
    rw [position] at h
    split at h
    · rename_i hmac
      cases h
      exact ⟨rfl, hmac⟩
    · rw [Option.map_eq_some_iff] at h
      obtain ⟨⟨j, m'⟩, hfound, hpair⟩ := h
      cases hpair
      exact ih hfound

/-! ## Starting and stopping forwarders -/

/-- `str::starts_with`. -/
def startsWith (s pattern : String) : Bool := pattern.toList.isPrefixOf s.toList

/-- Set the stop flag of the tasks that `ids` selects. -/
def cancelTasks (ids : ℕ → Bool) (tasks : List ForwarderTask) : List ForwarderTask :=
  tasks.mapIdx fun i t => if ids i then { t with cancelled := true } else t

/-- Send `false` to the senders whose key is selected and take them out of the map: the
loop over `keys_to_stop` of `update_machine_api` and the `retain` of `delete_machine_api`. -/
def stopProxies (selected : String → Bool) (s : Proxy) : Proxy :=
  { s with
    proxies := s.proxies.retain fun key _ => !selected key
    tasks := cancelTasks
      (fun i => s.proxies.entries.any fun e => selected e.1 && e.2 = i) s.tasks }

/-- The timer configuration at the head of `start_proxy_if_configured`. -/
def configureTimer (machine : Machine) (now : Instant) (l : TurnOffLimiter) : TurnOffLimiter :=
  match machine.turnOffPort.filter
      (fun _ => machine.canBeTurnedOff && !machine.portForwards.isEmpty) with
  | some port => l.initializeMachine machine port now
  | none => l.removeMachine machine.mac

/-- `start_proxy_if_configured`; `now` is the clock reading of `initialize_machine`. -/
def startProxyIfConfigured (machine : Machine) (now : Instant) (s : Proxy) : Proxy :=
  { s with
    turnOffLimiter := configureTimer machine now s.turnOffLimiter
    tasks := s.tasks ++ machine.portForwards.map (spawnForwarder machine) }

/-- The first step of a forwarder task: `proxies.insert(proxy_key, tx)`.  A sender that was
under the same key is dropped, which its receiver observes. -/
def insertSender (i : ℕ) (s : Proxy) : Proxy :=
  match s.tasks[i]? with
  | some task =>
    if task.phase = .spawned then
      { s with
        proxies := s.proxies.insert task.key i
        tasks := (cancelTasks (fun j => s.proxies.lookup task.key = some j) s.tasks).modify i
          fun t => { t with phase := .inserted } }
    else s
  | none => s

/-- Another forwarder of this process listens on the port: then the operating system
refuses the bind. -/
def portInUse (port : UInt16) (tasks : List ForwarderTask) : Bool :=
  tasks.any fun t => t.phase = .listening && t.localPort = port

/-- `TcpListener::bind` in `proxy_internal`; a task whose bind fails logs the error and ends. -/
def bindListener (i : ℕ) (s : Proxy) : Proxy :=
  match s.tasks[i]? with
  | some task =>
    if task.phase = .inserted then
      { s with
        tasks := s.tasks.modify i fun t =>
          { t with phase := if portInUse task.localPort s.tasks then .terminated else .listening } }
    else s
  | none => s

/-- The branch `rx.changed()` of the select loop: a cancelled forwarder closes its listener. -/
def observeStop (i : ℕ) (s : Proxy) : Proxy :=
  match s.tasks[i]? with
  | some task =>
    if task.phase = .listening && task.cancelled then
      { s with tasks := s.tasks.modify i fun t => { t with phase := .terminated } }
    else s
  | none => s

/-- The state `start_with_shutdown` serves from: every machine of the initial registry has
its timer configured and its forwarders spawned; `clock` gives the readings of the loop. -/
def startMachines (machines : List Machine) (database : Database) (clock : ℕ → Instant) : Proxy :=
  (machines.zipIdx).foldl (fun s m => startProxyIfConfigured m.1 (clock m.2) s)
    { machines
      proxies := ∅
      turnOffLimiter := TurnOffLimiter.new
      tasks := []
      database
      verifications := []
      verifiedClients := [] }

/-- `start_with_shutdown` up to the moment it serves requests. -/
def startWithShutdown (libs : Externals) (database : Database) (clock : ℕ → Instant) : Proxy :=
  startMachines (initialMachines libs.codec database) database clock

end Wakezilla
