/-
# Permission to shut a machine down

`turn_off_remote_machine` has two callers: `execute_remote_turn_off`, which answers the
API and the TUI, and the ticks of the inactivity monitor.  `TurnOffSystem` runs both over
the proxy and records every request that is sent, with the registry at the moment it was
decided.

The ticks respect `can_be_turned_off` in every run (`tick_permitted`), because the limiter
mirrors the registry.  `execute_remote_turn_off` never looks at the flag: it sends the
request when the machine merely has a port (`forbidden_machine_turned_off`).  So the
requests of a run are all permitted exactly when no call of it that can send one finds a
machine with a port whose flag is off (`sent_permitted_iff`).
-/
import Wakezilla.ClientServer
import Wakezilla.RegistryValidity
import Wakezilla.Timers

namespace Wakezilla

/-! ## Sending a turn-off request -/

/-- What a call of `turn_off_remote_machine` finds: whether the HTTP client can be built, the
clock, and the random bytes of the nonce. -/
structure TurnOffEnv where
  client : Bool
  timestamp : ℕ
  random : Vector UInt8 16

/-- A `POST` request and the headers of its signature. -/
structure HttpRequest where
  url : String
  signed : Option SignedRequestHeaders
  deriving DecidableEq, Repr

/-- `turn_off_url`. -/
def turnOffUrl (ip : Ipv4Addr) (turnOffPort : UInt16) : String :=
  "http://" ++ ip.toString ++ ":" ++ turnOffPort.toNat.repr ++ "/machines/turn-off"

/-- `turn_off_remote_machine` up to `send`: the request, if it comes to that. -/
def turnOffRemoteMachine (crypto : Crypto) (env : TurnOffEnv) (off : TurnOff) :
    Option HttpRequest :=
  if !env.client then none
  else
    match off.shutdownAuthKey with
    | none => some ⟨turnOffUrl off.ip off.turnOffPort, none⟩
    | some key =>
      match signRequestAt crypto key "POST" "/machines/turn-off" env.timestamp env.random with
      | .ok signed => some ⟨turnOffUrl off.ip off.turnOffPort, some signed⟩
      | .error _ => none

/-- What a call needs to come to a request: the client, and a key that decodes, if there is one. -/
def TurnOffEnv.CanSend (crypto : Crypto) (env : TurnOffEnv) (key : Option String) : Prop :=
  env.client = true ∧ ∀ text, key = some text → ∃ bytes, decodeKey crypto.base64 text = .ok bytes

theorem turnOffRemoteMachine_isSome_iff {crypto : Crypto} {env : TurnOffEnv} (off : TurnOff) :
    (turnOffRemoteMachine crypto env off).isSome = true ↔
      env.CanSend crypto off.shutdownAuthKey := by
  unfold turnOffRemoteMachine TurnOffEnv.CanSend
  cases hclient : env.client with
  | false => simp
  | true =>
    cases hkey : off.shutdownAuthKey with
    | none => simp
    | some key =>
      -- signing fails only where the key does not decode
      cases hdecode : decodeKey crypto.base64 key with
      | error e => simp [signRequestAt, signature, hdecode, Except.map]
      | ok bytes => simp [signRequestAt, signature, hdecode, Except.map]

theorem turnOffRemoteMachine_url {crypto : Crypto} {env : TurnOffEnv} {off : TurnOff}
    {request : HttpRequest} (h : turnOffRemoteMachine crypto env off = some request) :
    request.url = turnOffUrl off.ip off.turnOffPort := by
  unfold turnOffRemoteMachine at h
  split at h
  · cases h
  · split at h
    · cases h
      rfl
    · split at h
      · cases h
        rfl
      · cases h

/-! ## The two callers -/

/-- A request that was sent, what it was decided on, and the registry at that moment. -/
structure SentTurnOff where
  off : TurnOff
  request : HttpRequest
  machines : List Machine
  deriving DecidableEq, Repr

/-- The proxy and the turn-off requests it sent, newest first. -/
structure TurnOffSystem where
  proxy : Proxy
  sent : List SentTurnOff

/-- A step of the proxy, in which a tick decides on turn-offs, or a call of
`execute_remote_turn_off`; the environment of each call of `turn_off_remote_machine` is part of
the event. -/
inductive TurnOffEvent
  | proxy (e : ProxyEvent) (env : TurnOff → TurnOffEnv)
  | remoteTurnOff (mac : String) (env : TurnOff → TurnOffEnv)

/-- The turn-offs that an event decides on. -/
def TurnOffEvent.decided (s : Proxy) : TurnOffEvent → List TurnOff
  | .proxy (.tick now) _ => s.turnOffLimiter.machinesToCheck now
  | .proxy _ _ => []
  | .remoteTurnOff mac _ => (executeRemoteTurnOff mac (.ok ()) s).1.toList

/-- The environment of the calls of an event. -/
def TurnOffEvent.env : TurnOffEvent → TurnOff → TurnOffEnv
  | .proxy _ env | .remoteTurnOff _ env => env

@[simp] theorem TurnOffEvent.env_remoteTurnOff (mac : String) (env : TurnOff → TurnOffEnv) :
    (TurnOffEvent.remoteTurnOff mac env).env = env := rfl

/-- The requests that an event sends. -/
def sentBy (crypto : Crypto) (s : Proxy) (e : TurnOffEvent) : List SentTurnOff :=
  (e.decided s).filterMap fun off =>
    (turnOffRemoteMachine crypto (e.env off) off).map fun request => ⟨off, request, s.machines⟩

/-- The proxy after an event; `execute_remote_turn_off` only reads it. -/
def proxyAfter (libs : Externals) (s : Proxy) : TurnOffEvent → Proxy
  | .proxy e _ => step libs s e
  | .remoteTurnOff _ _ => s

/-- The state after one event. -/
def turnOffStep (libs : Externals) (crypto : Crypto) (s : TurnOffSystem) (e : TurnOffEvent) :
    TurnOffSystem :=
  ⟨proxyAfter libs s.proxy e, sentBy crypto s.proxy e ++ s.sent⟩

/-- A machine of the registry with the address, the port and the MAC of the request permits it. -/
def SentTurnOff.Permitted (t : SentTurnOff) : Prop :=
  ∃ m ∈ t.machines, m.mac = t.off.mac ∧ m.turnOffPort = some t.off.turnOffPort ∧
    t.request.url = turnOffUrl m.ip t.off.turnOffPort ∧ m.canBeTurnedOff = true

instance (t : SentTurnOff) : Decidable t.Permitted :=
  inferInstanceAs (Decidable (∃ m ∈ t.machines, _))

/-- A call of `execute_remote_turn_off` that finds a machine with a port, and has what it needs
to send a request, finds the machine's flag on. -/
def RequestsPermitted (crypto : Crypto) (s : TurnOffSystem) : TurnOffEvent → Prop
  | .remoteTurnOff mac env => ∀ m port, s.proxy.machines.find? (fun m => m.mac = mac) = some m →
      m.turnOffPort = some port →
      (env ⟨m.ip, port, mac, m.shutdownAuthKey⟩).CanSend crypto m.shutdownAuthKey →
        m.canBeTurnedOff = true
  | .proxy _ _ => True

/-! ## The timer's path -/

/-- What a tick emits is for a registered machine that can be turned off. -/
theorem registered_of_machinesToCheck {s : Proxy} (h : Mirrored Timer.withoutKey s) {off : TurnOff}
    {now : Instant} (hoff : off ∈ s.turnOffLimiter.machinesToCheck now) :
    ∃ m ∈ s.machines, m.mac = off.mac ∧ m.turnOffPort = some off.turnOffPort ∧ m.ip = off.ip ∧
      m.canBeTurnedOff = true := by
  obtain ⟨config, hconfig, -, -, hoffEq⟩ := TurnOffLimiter.mem_machinesToCheck.mp hoff
  have htimers : s.turnOffLimiter.timers Timer.withoutKey off.mac =
      some config.timer.withoutKey := by
    rw [TurnOffLimiter.timers, hconfig]
    rfl
  obtain ⟨m, hm, hmac, htimer⟩ := h.mirrors.eq_some_iff.mp htimers
  obtain ⟨t, ht, hsame⟩ := Option.map_eq_some_iff.mp htimer
  obtain ⟨hip, -, hport, -⟩ := timer_eq_some ht
  obtain ⟨hipEq, -, hportEq⟩ : t.ip = config.ip ∧ t.window = config.window ∧
      t.turnOffPort = config.turnOffPort := by
    simpa [Timer.withoutKey, MachineConfig.timer] using hsame
  have hcan : m.canBeTurnedOff = true :=
    (timer_isSome_iff.mp (Option.isSome_iff_exists.mpr ⟨t, ht⟩)).1
  refine ⟨m, hm, hmac, ?_, ?_, hcan⟩
  · rw [hport, hportEq, hoffEq]
  · rw [← hip, hipEq, hoffEq]

/-- **Every request of a tick is permitted.** -/
theorem tick_permitted {crypto : Crypto} {s : Proxy} (h : Mirrored Timer.withoutKey s)
    {e : ProxyEvent} {env : TurnOff → TurnOffEnv} {t : SentTurnOff}
    (ht : t ∈ sentBy crypto s (.proxy e env)) : t.Permitted := by
  obtain ⟨off, hoff, hsent⟩ := List.mem_filterMap.mp ht
  obtain ⟨request, hrequest, rfl⟩ := Option.map_eq_some_iff.mp hsent
  cases e with
  | tick now =>
    obtain ⟨m, hm, hmac, hport, hip, hcan⟩ := registered_of_machinesToCheck h hoff
    refine ⟨m, hm, hmac, hport, ?_, hcan⟩
    rw [hip]
    exact turnOffRemoteMachine_url hrequest
  | _ => exact absurd hoff List.not_mem_nil

/-! ## The path of the API -/

/-- A call sends a permitted request, or none, exactly when the machine it finds permits it. -/
theorem remoteTurnOff_permitted_iff {crypto : Crypto} {s : TurnOffSystem}
    (hdistinct : (s.proxy.machines.map Machine.mac).Nodup) (mac : String)
    (env : TurnOff → TurnOffEnv) :
    (∀ t ∈ sentBy crypto s.proxy (.remoteTurnOff mac env), t.Permitted) ↔
      RequestsPermitted crypto s (.remoteTurnOff mac env) := by
  have hdecided : ∀ m port, s.proxy.machines.find? (fun m => m.mac = mac) = some m →
      m.turnOffPort = some port → (TurnOffEvent.remoteTurnOff mac env).decided s.proxy =
        [⟨m.ip, port, mac, m.shutdownAuthKey⟩] := by
    intro m port hfind hport
    simp only [TurnOffEvent.decided, executeRemoteTurnOff, hfind, hport, Option.toList_some]
  constructor
  · intro hall m port hfind hport hsends
    obtain ⟨request, hrequest⟩ := Option.isSome_iff_exists.mp
      ((turnOffRemoteMachine_isSome_iff ⟨m.ip, port, mac, m.shutdownAuthKey⟩).mpr hsends)
    have hsent : ⟨⟨m.ip, port, mac, m.shutdownAuthKey⟩, request, s.proxy.machines⟩ ∈
        sentBy crypto s.proxy (.remoteTurnOff mac env) := by
      unfold sentBy
      rw [hdecided m port hfind hport, List.mem_filterMap]
      refine ⟨_, List.mem_singleton_self _, ?_⟩
      rw [TurnOffEvent.env_remoteTurnOff, hrequest, Option.map_some]
    obtain ⟨m', hm', hmac', -, -, hcan⟩ := hall _ hsent
    -- the MACs are pairwise different, so the permitting machine is the one that was found
    have hmac : m.mac = mac := by simpa using List.find?_some hfind
    rw [← List.inj_on_of_nodup_map hdistinct hm' (List.mem_of_find?_eq_some hfind)
      (hmac'.trans hmac.symm)]
    exact hcan
  · intro hpermitted t ht
    obtain ⟨off, hoff, hsent⟩ := List.mem_filterMap.mp ht
    obtain ⟨request, hrequest, rfl⟩ := Option.map_eq_some_iff.mp hsent
    cases hfind : s.proxy.machines.find? (fun m => m.mac = mac) with
    | none =>
      have hnone : (TurnOffEvent.remoteTurnOff mac env).decided s.proxy = [] := by
        simp only [TurnOffEvent.decided, executeRemoteTurnOff, hfind, Option.toList_none]
      rw [hnone] at hoff
      exact absurd hoff List.not_mem_nil
    | some m =>
      cases hport : m.turnOffPort with
      | none =>
        have hnone : (TurnOffEvent.remoteTurnOff mac env).decided s.proxy = [] := by
          simp only [TurnOffEvent.decided, executeRemoteTurnOff, hfind, hport, Option.toList_none]
        rw [hnone] at hoff
        exact absurd hoff List.not_mem_nil
      | some port =>
        rw [hdecided m port hfind hport, List.mem_singleton] at hoff
        subst hoff
        rw [TurnOffEvent.env_remoteTurnOff] at hrequest
        have hmac : m.mac = mac := by simpa using List.find?_some hfind
        have hsends : (env ⟨m.ip, port, mac, m.shutdownAuthKey⟩).CanSend crypto
            m.shutdownAuthKey :=
          (turnOffRemoteMachine_isSome_iff _).mp (Option.isSome_iff_exists.mpr ⟨request, hrequest⟩)
        have hcan : m.canBeTurnedOff = true := hpermitted m port hfind hport hsends
        have hurl := turnOffRemoteMachine_url hrequest
        exact ⟨m, List.mem_of_find?_eq_some hfind, hmac, hport, hurl, hcan⟩

/-! ## Runs -/

/-- Every recorded request is permitted. -/
def AllPermitted (s : TurnOffSystem) : Prop := ∀ t ∈ s.sent, t.Permitted

/-- One step adds permitted requests exactly when it meets the condition. -/
theorem allPermitted_step (libs : Externals) {crypto : Crypto} {s : TurnOffSystem}
    (h : Mirrored Timer.withoutKey s.proxy) (e : TurnOffEvent) :
    AllPermitted (turnOffStep libs crypto s e) ↔
      AllPermitted s ∧ RequestsPermitted crypto s e := by
  have hsplit : AllPermitted (turnOffStep libs crypto s e) ↔
      (∀ t ∈ sentBy crypto s.proxy e, t.Permitted) ∧ AllPermitted s := List.forall_mem_append
  rw [hsplit, and_comm]
  refine and_congr_right fun _ => ?_
  cases e with
  | proxy e env => exact iff_of_true (fun t ht => tick_permitted h ht) trivial
  | remoteTurnOff mac env => exact remoteTurnOff_permitted_iff h.distinct mac env

theorem mirrored_turnOffStep (libs : Externals) (crypto : Crypto) (s : TurnOffSystem)
    (e : TurnOffEvent) (h : Mirrored Timer.withoutKey s.proxy) :
    Mirrored Timer.withoutKey (turnOffStep libs crypto s e).proxy := by
  cases e with
  | proxy e env => exact mirrored_step _ libs s.proxy e h (rotationUnseen_withoutKey s.proxy e)
  | remoteTurnOff mac env => exact h

/-- **When shutdowns are permitted.**  In a run from a valid registry, every turn-off request
that is sent is addressed to a machine that is registered with `can_be_turned_off` at the moment
it is decided, exactly when no call of `execute_remote_turn_off` that can send one finds a machine
with a port whose flag is off. -/
theorem sent_permitted_iff (libs : Externals) (crypto : Crypto) (machines : List Machine)
    (database : Database) (clock : ℕ → Instant) (es : List TurnOffEvent)
    (hvalid : RegistryRules machines) :
    (∀ t ∈ (Run.exec (turnOffStep libs crypto) ⟨startMachines machines database clock, []⟩ es).sent,
        t.Permitted) ↔
      Run.Along (turnOffStep libs crypto) (RequestsPermitted crypto)
        ⟨startMachines machines database clock, []⟩ es := by
  have hdistinct : (machines.map Machine.mac).Nodup :=
    (validRegistry_iff_rules.mpr hvalid).distinct
  have hstart := mirrored_startMachines Timer.withoutKey database clock hdistinct
  have hrun := Run.exec_history_iff (P := fun s => Mirrored Timer.withoutKey s.proxy)
    (mirrored_turnOffStep libs crypto) (fun s e h => allPermitted_step libs h e)
    (s := ⟨startMachines machines database clock, []⟩) hstart es
  refine hrun.trans (and_iff_right ?_)
  intro t ht
  exact absurd ht List.not_mem_nil

/-- An environment in which every call is signed with the nonce of the sample request. -/
def sampleEnv (_ : TurnOff) : TurnOffEnv := ⟨true, 1700000000, Vector.replicate 16 7⟩

/-- The workstation is turned off by its timer and by a request. -/
theorem workstation_sent_permitted :
    let s := Run.exec (turnOffStep libraries sampleCrypto)
      ⟨startMachines [workstation] none fun _ => 0, []⟩
      [.proxy (.tick (Duration.fromSecs 1801)) sampleEnv,
        .remoteTurnOff workstation.mac sampleEnv]
    s.sent.length = 2 ∧ ∀ t ∈ s.sent, t.Permitted := by
  refine ⟨by decide +kernel, ?_⟩
  refine (sent_permitted_iff libraries sampleCrypto [workstation] none (fun _ => 0) _
    registryRules_workstation).mpr ⟨trivial, ?_, trivial⟩
  intro m port hfind _ _
  cases hfind
  rfl

/-- A machine that has a client port but must not be turned off. -/
def lockedServer : Machine := { backupServer with canBeTurnedOff := false }

theorem registryRules_lockedServer : RegistryRules [lockedServer] where
  macs := by decide
  macsDiffer := by decide
  localPorts := by decide
  localPortsDiffer := by decide
  targetPorts := by decide
  names := by decide
  turnOffPorts := by decide
  turnOff := by decide

/-- **A forbidden machine is turned off.**  The registry is valid, the only machine cannot be
turned off, and the API sends it a turn-off request. -/
theorem forbidden_machine_turned_off :
    RegistryRules [lockedServer] ∧
      ∃ t ∈ (Run.exec (turnOffStep libraries sampleCrypto)
        ⟨startMachines [lockedServer] none fun _ => 0, []⟩
        [.remoteTurnOff lockedServer.mac sampleEnv]).sent, ¬ t.Permitted :=
  ⟨registryRules_lockedServer, by decide +kernel⟩

end Wakezilla
