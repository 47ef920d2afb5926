/-
# The limiter mirrors the registry

Two stores describe a monitored machine: the registry and the limiter, each behind
its own lock.  The part of a timer that is configuration (`Timer`: address, window,
port and key, without the history) is meant to be a function of the machine,
`Machine.timer`.

* `Mirrored f` says that the limiter holds this configuration, seen through `f`, for
  every machine that is to have a timer, and nothing for any other MAC;
* `mirrored_step` : every step keeps it, provided a rotation does not change what `f`
  sees;
* with `f` forgetting the key this is the membership theorem `limiter_membership`;
* with `f` the identity it says that both stores hold the same key
  (`turnOff_uses_registry_key`), which a rotation of a machine with a timer breaks
  (`rotated_key_not_used`).
-/
import Wakezilla.Registry

namespace Wakezilla

open Mirror

/-! ## Timer configurations -/

/-- What a timer is configured with. -/
structure Timer where
  ip : Ipv4Addr
  window : ℕ
  turnOffPort : UInt16
  shutdownAuthKey : Option String
  deriving DecidableEq, Repr

/-- The configuration of a timer of the limiter. -/
def MachineConfig.timer (config : MachineConfig) : Timer :=
  ⟨config.ip, config.window, config.turnOffPort, config.shutdownAuthKey⟩

/-- The timer that a machine is to have: none unless it can be turned off, has a turn-off
port, forwards some service and has a non-zero inactivity period. -/
def Machine.timer (m : Machine) : Option Timer :=
  if m.canBeTurnedOff && !m.portForwards.isEmpty && m.inactivityPeriod ≠ 0 then
    m.turnOffPort.map fun port => ⟨m.ip, windowOf m, port, m.shutdownAuthKey⟩
  else none

/-- A timer without its key. -/
def Timer.withoutKey (t : Timer) : Ipv4Addr × ℕ × UInt16 := (t.ip, t.window, t.turnOffPort)

theorem timer_isSome_iff {m : Machine} :
    m.timer.isSome = true ↔ m.canBeTurnedOff = true ∧ m.turnOffPort.isSome = true ∧
      m.portForwards ≠ [] ∧ m.inactivityPeriod ≠ 0 := by
  unfold Machine.timer
  cases m.canBeTurnedOff <;> cases hport : m.turnOffPort <;> cases m.portForwards <;>
    by_cases hperiod : m.inactivityPeriod = 0 <;> simp [hperiod]

theorem timer_eq_some {m : Machine} {t : Timer} (h : m.timer = some t) :
    t.ip = m.ip ∧ t.window = windowOf m ∧ m.turnOffPort = some t.turnOffPort ∧
      t.shutdownAuthKey = m.shutdownAuthKey := by
  unfold Machine.timer at h
  split at h
  · obtain ⟨port, hport, rfl⟩ := Option.map_eq_some_iff.mp h
    exact ⟨rfl, rfl, hport, rfl⟩
  · cases h

/-- The key is all that a change of the key changes. -/
theorem timer_withKey (m : Machine) (key : Option String) (verified : Bool) :
    ({ m with shutdownAuthKey := key, shutdownAuthVerified := verified } : Machine).timer =
      m.timer.map fun t => { t with shutdownAuthKey := key } := by
  unfold Machine.timer
  simp only []
  split
  · cases m.turnOffPort <;> rfl
  · rfl

/-! ## The limiter as a map of configurations -/

/-- The configuration under each MAC, seen through `f`. -/
def TurnOffLimiter.timers {β : Type} (f : Timer → β) (l : TurnOffLimiter) (mac : String) :
    Option β :=
  (l.machines.lookup mac).map fun config => f config.timer

variable {β : Type} (f : Timer → β)

theorem timers_removeMachine (l : TurnOffLimiter) (mac : String) :
    (l.removeMachine mac).timers f = Function.update (l.timers f) mac none := by
  funext mac'
  rw [TurnOffLimiter.timers, TurnOffLimiter.lookup_removeMachine, Function.update_apply]
  split <;> rfl

/-- The timer configuration writes the timer the machine is to have. -/
theorem timers_configureTimer (m : Machine) (now : Instant) (l : TurnOffLimiter) :
    (configureTimer m now l).timers f =
      Function.update (l.timers f) m.mac (m.timer.map f) := by
  unfold configureTimer
  cases hport : m.turnOffPort.filter
      (fun _ => m.canBeTurnedOff && !m.portForwards.isEmpty) with
  | none =>
    have htimer : m.timer = none := by
      unfold Machine.timer
      cases hp : m.turnOffPort with
      | none => simp
      | some port =>
        rw [hp, Option.filter_some] at hport
        split at hport
        · cases hport
        · rename_i hcond
          rw [if_neg fun h => hcond (Bool.and_eq_true_iff.mp h).1]
    rw [timers_removeMachine, htimer]
    rfl
  | some port =>
    obtain ⟨hp, hcond⟩ := Option.filter_eq_some_iff.mp hport
    -- of the four conditions only the period is left to `initialize_machine`
    have htimer : m.timer =
        if m.monitored then some ⟨m.ip, windowOf m, port, m.shutdownAuthKey⟩ else none := by
      unfold Machine.timer Machine.monitored
      rw [Bool.and_eq_true] at hcond
      simp only [hp, hcond.1, hcond.2, Bool.true_and, Option.map_some]
    funext mac
    rw [TurnOffLimiter.timers, TurnOffLimiter.lookup_initializeMachine, Function.update_apply,
      htimer]
    by_cases hmac : mac = m.mac
    · rw [if_pos hmac, if_pos hmac]
      cases m.monitored <;> rfl
    · rw [if_neg hmac, if_neg hmac]
      rfl

/-- A connection touches only the history. -/
theorem timers_updateLastRequest (l : TurnOffLimiter) (mac : String) (now : Instant) :
    (l.updateLastRequest mac now).timers f = l.timers f := by
  funext mac'
  rw [TurnOffLimiter.timers, TurnOffLimiter.lookup_updateLastRequest, TurnOffLimiter.timers]
  split
  · rename_i hmac
    rw [hmac]
    cases l.machines.lookup mac <;> rfl
  · rfl

/-- A tick touches only the history. -/
theorem timers_afterTick (l : TurnOffLimiter) (now : Instant) :
    (l.afterTick now).timers f = l.timers f := by
  funext mac
  rw [TurnOffLimiter.timers, TurnOffLimiter.lookup_afterTick, TurnOffLimiter.timers,
    Option.map_map]
  congr 1
  funext config
  simp only [Function.comp_apply]
  split <;> rfl

/-! ## The invariant -/

/-- The registered MACs are pairwise different, and the limiter mirrors the registry. -/
structure Mirrored (s : Proxy) : Prop where
  distinct : (s.machines.map Machine.mac).Nodup
  mirrors : Mirrors Machine.mac (fun m => m.timer.map f) s.machines (s.turnOffLimiter.timers f)

/-- A rotation that goes through leaves what `f` sees of the machine's timer. -/
def RotationUnseen (s : Proxy) : ProxyEvent → Prop
  | .rotate mac _ fault => ∀ i m, position mac s.machines = some (i, m) → fault = .noFault →
      ∀ key, (m.timer.map fun t => { t with shutdownAuthKey := key }).map f = m.timer.map f
  | _ => True

/-- The start-up loop configures the machines one after the other. -/
theorem turnOffLimiter_startMachines (machines : List Machine) (database : Database)
    (clock : ℕ → Instant) :
    (startMachines machines database clock).turnOffLimiter =
      machines.zipIdx.foldl (fun l m => configureTimer m.1 (clock m.2) l) TurnOffLimiter.new := by
  unfold startMachines
  exact List.foldl_hom (fun s : Proxy => s.turnOffLimiter)
    (fun s m => startProxy_turnOffLimiter m.1 (clock m.2) s) |>.symm

/-- The loop over the rest of the registry. -/
theorem mirrors_foldl_configureTimer (clock : ℕ → Instant) (rest : List Machine) :
    ∀ (done : List Machine) (k : ℕ) (l : TurnOffLimiter),
      ((done ++ rest).map Machine.mac).Nodup →
      Mirrors Machine.mac (fun m => m.timer.map f) done (l.timers f) →
      Mirrors Machine.mac (fun m => m.timer.map f) (done ++ rest)
        (((rest.zipIdx k).foldl (fun l m => configureTimer m.1 (clock m.2) l) l).timers f) := by
  induction rest with
  | nil =>
    intro done k l _ h
    rw [List.append_nil]
    exact h
  | cons m rest ih =>
    intro done k l hdistinct h
    have hsplit : done ++ m :: rest = done ++ [m] ++ rest := by simp
    rw [hsplit] at hdistinct ⊢
    rw [List.zipIdx_cons, List.foldl_cons]
    refine ih (done ++ [m]) (k + 1) _ hdistinct ?_
    -- no machine that is done has the MAC of the next one
    have hnew : m.mac ∉ done.map Machine.mac := by
      rw [List.map_append, List.map_append] at hdistinct
      have hfront := hdistinct.of_append_left
      rw [List.nodup_append] at hfront
      intro hmem
      exact hfront.2.2 _ hmem _ (List.mem_singleton_self _) rfl
    rw [timers_configureTimer]
    exact h.append hnew

/-- The limiter mirrors a registry with distinct MACs once start-up is over. -/
theorem mirrored_startMachines {machines : List Machine} (database : Database)
    (clock : ℕ → Instant) (hdistinct : (machines.map Machine.mac).Nodup) :
    Mirrored f (startMachines machines database clock) := by
  have hmachines := (startMachines_fields machines database clock).1
  constructor
  · rw [hmachines]
    exact hdistinct
  · rw [hmachines, turnOffLimiter_startMachines]
    exact mirrors_foldl_configureTimer f clock machines [] 0 TurnOffLimiter.new hdistinct
      (mirrors_nil fun _ => rfl)

/-- **One step** keeps the limiter a mirror of the registry. -/
theorem mirrored_step (libs : Externals) (s : Proxy) (e : ProxyEvent) (h : Mirrored f s)
    (hc : RotationUnseen f s e) : Mirrored f (step libs s e) := by
  obtain ⟨hdistinct, hmirrors⟩ := h
  refine ⟨distinct_step libs s e hdistinct, ?_⟩
  have heffect := step_effect libs s e
  generalize step libs s e = s' at heffect
  cases heffect with
  | idle machines limiter proxies tasks clients database notDeleted =>
    rw [machines, limiter]
    exact hmirrors
  | add new valid flag key =>
    have hnew : new.mac ∉ s.machines.map Machine.mac := by
      intro hmem
      obtain ⟨m, hm, hmac⟩ := List.mem_map.mp hmem
      exact valid.mac_ne hm hmac
    rw [startProxy_turnOffLimiter, timers_configureTimer]
    exact hmirrors.append hnew
  | @update mac payload random now index old base new hposition new_eq valid =>
    obtain ⟨hget, rfl⟩ := position_eq_some hposition
    have hnew : ∀ m ∈ s.machines, m.mac ≠ old.mac → m.mac ≠ new.mac := by
      intro m hm hne
      exact valid.mac_ne (List.mem_filter.mpr ⟨hm, by simpa using hne⟩)
    -- the timer of the old MAC is removed before the one of the new MAC is written
    rw [startProxy_turnOffLimiter, timers_configureTimer, stopProxies_turnOffLimiter,
      timers_removeMachine]
    exact hmirrors.set hdistinct hget hnew
  | @delete payload limiter removed =>
    rcases removed with ⟨hlimiter, habsent⟩ | hlimiter
    · rw [stopProxies_turnOffLimiter, hlimiter]
      refine hmirrors.filter_absent fun hmem => ?_
      obtain ⟨m, hm, hmac⟩ := List.mem_map.mp hmem
      exact habsent m hm hmac
    · rw [stopProxies_turnOffLimiter, hlimiter, timers_removeMachine]
      exact hmirrors.filter payload.mac
  | @rotate mac random index m hposition enabled =>
    obtain ⟨hget, -⟩ := position_eq_some hposition
    refine hmirrors.set_same hget rfl ?_
    rw [timer_withKey]
    exact hc index m hposition rfl _
  | verify p index m pending answered hposition key =>
    exact hmirrors.set_same (position_eq_some hposition).1 rfl rfl
  | connection task =>
    rw [timers_updateLastRequest]
    exact hmirrors
  | tick =>
    rw [timers_afterTick]
    exact hmirrors
  | forwarder taskStep frame =>
    rw [frame]
    exact hmirrors

/-- The limiter mirrors the registry throughout a run. -/
theorem mirrored_exec (libs : Externals) {machines : List Machine} (database : Database)
    (clock : ℕ → Instant) (es : List ProxyEvent)
    (hdistinct : (machines.map Machine.mac).Nodup)
    (hrun : Run.Along (step libs) (RotationUnseen f) (startMachines machines database clock) es) :
    Mirrored f (Run.exec (step libs) (startMachines machines database clock) es) :=
  Run.exec_invariant (mirrored_startMachines f database clock hdistinct) (mirrored_step f libs) hrun

/-! ## Membership -/

/-- No rotation changes a timer apart from its key. -/
theorem rotationUnseen_withoutKey (s : Proxy) (e : ProxyEvent) :
    RotationUnseen Timer.withoutKey s e := by
  cases e with
  | rotate mac random fault =>
    intro i m _ _ key
    rw [Option.map_map]
    rfl
  | _ => trivial

/-- **Limiter membership.**  After every run from a registry with distinct MACs the limiter
has a timer for a MAC exactly when a registered machine with that MAC is to have one, with
the machine's address, port and window. -/
theorem limiter_membership (libs : Externals) (machines : List Machine) (database : Database)
    (clock : ℕ → Instant) (es : List ProxyEvent) (mac : String)
    (hdistinct : (machines.map Machine.mac).Nodup) :
    let s := Run.exec (step libs) (startMachines machines database clock) es
    ((s.turnOffLimiter.machines.lookup mac).isSome = true ↔
        ∃ m ∈ s.machines, m.mac = mac ∧ m.canBeTurnedOff = true ∧
          m.turnOffPort.isSome = true ∧ m.portForwards ≠ [] ∧ m.inactivityPeriod ≠ 0) ∧
      ∀ config, s.turnOffLimiter.machines.lookup mac = some config →
        ∀ m ∈ s.machines, m.mac = mac → config.ip = m.ip ∧
          m.turnOffPort = some config.turnOffPort ∧
          config.window =
            Duration.fromSecs (min (60 * m.inactivityPeriod.toNat) (2 ^ 32 - 1)) := by
  intro s
  -- membership and configuration do not depend on the key, so every run is admitted
  have hrun : Run.Along (step libs) (RotationUnseen Timer.withoutKey)
      (startMachines machines database clock) es :=
    Run.along_of_forall rotationUnseen_withoutKey _ es
  obtain ⟨-, hmirrors⟩ := mirrored_exec Timer.withoutKey libs database clock es hdistinct hrun
  change Mirrors Machine.mac _ s.machines (s.turnOffLimiter.timers Timer.withoutKey) at hmirrors
  constructor
  · have hsome : (s.turnOffLimiter.machines.lookup mac).isSome =
        (s.turnOffLimiter.timers Timer.withoutKey mac).isSome := by
      rw [TurnOffLimiter.timers, Option.isSome_map]
    rw [hsome, Option.isSome_iff_exists]
    constructor
    · rintro ⟨t, ht⟩
      obtain ⟨m, hm, hmac, htimer⟩ := hmirrors.eq_some_iff.mp ht
      obtain ⟨t', ht', -⟩ := Option.map_eq_some_iff.mp htimer
      exact ⟨m, hm, hmac, timer_isSome_iff.mp (Option.isSome_iff_exists.mpr ⟨t', ht'⟩)⟩
    · rintro ⟨m, hm, hmac, heligible⟩
      obtain ⟨t, ht⟩ := Option.isSome_iff_exists.mp (timer_isSome_iff.mpr heligible)
      exact ⟨t.withoutKey, hmirrors.eq_some_iff.mpr ⟨m, hm, hmac, by rw [ht]; rfl⟩⟩
  · intro config hconfig m hm hmac
    have hpresent := hmirrors.present m hm
    rw [hmac, TurnOffLimiter.timers, hconfig] at hpresent
    obtain ⟨t, ht, htimer⟩ := Option.map_eq_some_iff.mp hpresent.symm
    obtain ⟨hip, hwindow, hport, -⟩ := timer_eq_some ht
    obtain ⟨hipEq, hwindowEq, hportEq⟩ : t.ip = config.ip ∧ t.window = config.window ∧
        t.turnOffPort = config.turnOffPort := by
      simpa [Timer.withoutKey, MachineConfig.timer] using htimer
    exact ⟨hipEq.symm.trans hip, hport.trans (congrArg some hportEq),
      hwindowEq.symm.trans hwindow⟩

/-- The workstation has a timer and the backup server has none. -/
theorem limiter_membership_workstation :
    let s := Run.exec (step libraries) (startMachines [workstation, backupServer] none fun _ => 0)
      [.rotate workstation.mac sampleBytes .noFault, .connection 0 5, .tick 100]
    (s.turnOffLimiter.machines.lookup workstation.mac).isSome = true ∧
      (s.turnOffLimiter.machines.lookup backupServer.mac).isSome = false := by
  intro s
  obtain ⟨hworkstation, -⟩ := limiter_membership libraries [workstation, backupServer] none
    (fun _ => 0) [.rotate workstation.mac sampleBytes .noFault, .connection 0 5, .tick 100]
    workstation.mac (by decide)
  obtain ⟨hbackup, -⟩ := limiter_membership libraries [workstation, backupServer] none
    (fun _ => 0) [.rotate workstation.mac sampleBytes .noFault, .connection 0 5, .tick 100]
    backupServer.mac (by decide)
  refine ⟨hworkstation.mpr (by decide +kernel), Bool.eq_false_iff.mpr fun h => ?_⟩
  exact absurd (hbackup.mp h) (by decide +kernel)

/-! ## Keys of automatic turn-offs -/

/-- A rotation that goes through is of a machine that has no timer. -/
def RotatesUntimed (s : Proxy) : ProxyEvent → Prop
  | .rotate mac _ fault => ∀ i m, position mac s.machines = some (i, m) → fault = .noFault →
      m.timer = none
  | _ => True

theorem RotatesUntimed.rotationUnseen {s : Proxy} {e : ProxyEvent} (h : RotatesUntimed s e) :
    RotationUnseen id s e := by
  cases e with
  | rotate mac random fault =>
    intro i m hposition hfault key
    rw [h i m hposition hfault]
    rfl
  | _ => trivial

/-- The registered machine with a given MAC, when MACs are pairwise different. -/
theorem find?_mac_eq_some {machines : List Machine} (hdistinct : (machines.map Machine.mac).Nodup)
    {m : Machine} (hm : m ∈ machines) :
    machines.find? (fun machine => machine.mac = m.mac) = some m := by
  cases hfind : machines.find? (fun machine => machine.mac = m.mac) with
  | none => exact absurd (List.find?_eq_none.mp hfind m hm) (by simp)
  | some found =>
    have hmac : found.mac = m.mac := by simpa using List.find?_some hfind
    rw [List.inj_on_of_nodup_map hdistinct (List.mem_of_find?_eq_some hfind) hm hmac]

/-- **Automatic turn-offs use the key of the registry.**  In a run from a registry with
distinct MACs that rotates only keys of machines without a timer, a turn-off emitted for a
registered machine carries the machine's key, and it is the one that
`execute_remote_turn_off` would send. -/
theorem turnOff_uses_registry_key (libs : Externals) (machines : List Machine)
    (database : Database) (clock : ℕ → Instant) (es : List ProxyEvent) (now : Instant)
    (hdistinct : (machines.map Machine.mac).Nodup)
    (hrun : Run.Along (step libs) RotatesUntimed (startMachines machines database clock) es) :
    let s := Run.exec (step libs) (startMachines machines database clock) es
    ∀ off ∈ s.turnOffLimiter.machinesToCheck now, ∀ m ∈ s.machines, m.mac = off.mac →
      off.shutdownAuthKey = m.shutdownAuthKey ∧
        ∀ answer, (executeRemoteTurnOff off.mac answer s).1 = some off := by
  intro s off hoff m hm hmac
  obtain ⟨hdistinct', hmirrors⟩ := mirrored_exec id libs database clock es hdistinct
    (hrun.mono fun _ _ h => h.rotationUnseen)
  change (s.machines.map Machine.mac).Nodup at hdistinct'
  change Mirrors Machine.mac _ s.machines (s.turnOffLimiter.timers id) at hmirrors
  obtain ⟨config, hconfig, -, -, hoffEq⟩ := TurnOffLimiter.mem_machinesToCheck.mp hoff
  have hpresent := hmirrors.present m hm
  rw [hmac, TurnOffLimiter.timers, hconfig, Option.map_id] at hpresent
  obtain ⟨hip, -, hport, hkey⟩ := timer_eq_some hpresent.symm
  have hoffKey : off.shutdownAuthKey = m.shutdownAuthKey := by
    rw [hoffEq]
    exact hkey
  refine ⟨hoffKey, fun answer => ?_⟩
  have hfind := find?_mac_eq_some hdistinct' hm
  rw [hmac] at hfind
  unfold executeRemoteTurnOff
  simp only [hfind, hport]
  rw [hoffEq, ← hip, ← hkey]
  rfl

/-- After a rotation for a machine without a timer, the workstation is still turned off with
its own key. -/
theorem workstation_turnOff_uses_registry_key :
    let s := Run.exec (step libraries) (startMachines [workstation, backupServer] none fun _ => 0)
      [.connection 0 5, .rotate backupServer.mac sampleBytes .noFault]
    (s.turnOffLimiter.machinesToCheck (Duration.fromSecs 1801)).length = 1 ∧
      ∀ off ∈ s.turnOffLimiter.machinesToCheck (Duration.fromSecs 1801), ∀ m ∈ s.machines,
        m.mac = off.mac → off.shutdownAuthKey = m.shutdownAuthKey ∧
          ∀ answer, (executeRemoteTurnOff off.mac answer s).1 = some off := by
  refine ⟨by decide +kernel, ?_⟩
  refine turnOff_uses_registry_key libraries [workstation, backupServer] none (fun _ => 0) _ _
    (by decide) ⟨trivial, ?_, trivial⟩
  intro i m hposition _
  cases hposition
  rfl

/-- **A rotated key is not used.**  The workstation's key is rotated, and the next automatic
turn-off still carries the old one. -/
theorem rotated_key_not_used :
    let s := Run.exec (step libraries) (startMachines [workstation] none fun _ => 0)
      [.rotate workstation.mac sampleBytes .noFault]
    ∃ off ∈ s.turnOffLimiter.machinesToCheck (Duration.fromSecs 1801), ∃ m ∈ s.machines,
      m.mac = off.mac ∧ off.shutdownAuthKey = workstation.shutdownAuthKey ∧
        off.shutdownAuthKey ≠ m.shutdownAuthKey := by
  decide +kernel

end Wakezilla
