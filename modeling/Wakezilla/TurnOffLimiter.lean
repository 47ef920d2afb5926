/-
# The inactivity limiter

`TurnOffLimiter` of `src/forward.rs`: one timer per monitored MAC, and the tick of
the inactivity monitor, which collects the timers that ran out.  Every method runs
under the limiter's mutex, so each is one function on the dictionary of timers; an
instant is a number of nanoseconds, and `Instant::duration_since` is the truncated
subtraction.
-/
import Wakezilla.Machine

namespace Wakezilla

/-- A reading of the monotonic clock, in nanoseconds (`tokio::time::Instant`). -/
abbrev Instant := ℕ

/-- `Duration::from_secs`, in nanoseconds. -/
def Duration.fromSecs (secs : ℕ) : ℕ := secs * 1000000000

/-- `inactivity_period.saturating_mul(60)` seconds: the product of two `u32` values,
cut off at `u32::MAX`. -/
def windowOf (machine : Machine) : ℕ :=
  Duration.fromSecs (min (60 * machine.inactivityPeriod.toNat) (2 ^ 32 - 1))

/-- `forward::MachineConfig`, the timer of one machine. -/
structure MachineConfig where
  ip : Ipv4Addr
  window : ℕ
  turnOffPort : UInt16
  shutdownAuthKey : Option String
  triggered : Bool
  lastRequest : Instant
  deriving DecidableEq, Repr

/-- `time_since_last_request > config.window`. -/
def MachineConfig.inactive (config : MachineConfig) (now : Instant) : Bool :=
  config.window < now - config.lastRequest

/-- `TurnOffLimiter`. -/
structure TurnOffLimiter where
  machines : Dict String MachineConfig

/-- A turn-off that a tick decides on: the arguments of `turn_off_remote_machine`
and the MAC it is for. -/
structure TurnOff where
  ip : Ipv4Addr
  turnOffPort : UInt16
  mac : String
  shutdownAuthKey : Option String
  deriving DecidableEq, Repr

/-- The test that `initialize_machine` and `update_machine` make first. -/
def Machine.monitored (m : Machine) : Bool := m.canBeTurnedOff && m.inactivityPeriod ≠ 0

namespace TurnOffLimiter

/-- `TurnOffLimiter::new`. -/
def new : TurnOffLimiter := ⟨∅⟩

/-- `remove_machine`. -/
def removeMachine (l : TurnOffLimiter) (mac : String) : TurnOffLimiter :=
  ⟨l.machines.erase mac⟩

/-- `initialize_machine`; `now` is the reading taken before the mutex is locked. -/
def initializeMachine (l : TurnOffLimiter) (machine : Machine) (turnOffPort : UInt16)
    (now : Instant) : TurnOffLimiter :=
  if !machine.monitored then l.removeMachine machine.mac
  else
    ⟨l.machines.insert machine.mac
      { ip := machine.ip
        window := windowOf machine
        turnOffPort
        shutdownAuthKey := machine.shutdownAuthKey
        triggered := false
        lastRequest := now }⟩

/-- `update_machine`; the branch of an unknown machine drops the mutex and calls
`initialize_machine`. -/
def updateMachine (l : TurnOffLimiter) (machine : Machine) (turnOffPort : UInt16)
    (now : Instant) : TurnOffLimiter :=
  if !machine.monitored then l.removeMachine machine.mac
  else
    match l.machines.lookup machine.mac with
    | some config =>
      ⟨l.machines.insert machine.mac
        { config with
          ip := machine.ip
          window := windowOf machine
          turnOffPort
          shutdownAuthKey := machine.shutdownAuthKey
          triggered := false }⟩
    | none => l.initializeMachine machine turnOffPort now

/-- `update_last_request`; here `now` is read under the mutex. -/
def updateLastRequest (l : TurnOffLimiter) (mac : String) (now : Instant) : TurnOffLimiter :=
  match l.machines.lookup mac with
  | some config => ⟨l.machines.insert mac { config with lastRequest := now, triggered := false }⟩
  | none => l

/-- The timers after a tick: `swap(true)` sets the flag of every timer that ran out. -/
def afterTick (l : TurnOffLimiter) (now : Instant) : TurnOffLimiter :=
  ⟨l.machines.mapVal fun _ config =>
    if config.inactive now then { config with triggered := true } else config⟩

/-- `machines_to_check` of one tick of `start_inactivity_monitor`: the timers that ran
out and whose flag the swap found clear. -/
def machinesToCheck (l : TurnOffLimiter) (now : Instant) : List TurnOff :=
  l.machines.entries.filterMap fun e =>
    if e.2.inactive now && !e.2.triggered then
      some ⟨e.2.ip, e.2.turnOffPort, e.1, e.2.shutdownAuthKey⟩
    else none

/-! ## What each method leaves under a MAC -/

theorem lookup_removeMachine (l : TurnOffLimiter) (mac mac' : String) :
    (l.removeMachine mac).machines.lookup mac' =
      if mac' = mac then none else l.machines.lookup mac' :=
  Dict.lookup_erase _ _ _

theorem lookup_initializeMachine (l : TurnOffLimiter) (machine : Machine) (port : UInt16)
    (now : Instant) (mac : String) :
    (l.initializeMachine machine port now).machines.lookup mac =
      if mac = machine.mac then
        if machine.monitored then
          some ⟨machine.ip, windowOf machine, port, machine.shutdownAuthKey, false, now⟩
        else none
      else l.machines.lookup mac := by
  unfold initializeMachine
  cases hm : machine.monitored
  · rw [Bool.not_false, if_pos rfl, lookup_removeMachine]
    simp
  · rw [Bool.not_true, if_neg Bool.false_ne_true, Dict.lookup_insert]
    simp

theorem lookup_updateMachine (l : TurnOffLimiter) (machine : Machine) (port : UInt16)
    (now : Instant) (mac : String) :
    (l.updateMachine machine port now).machines.lookup mac =
      if mac = machine.mac then
        if machine.monitored then
          some ⟨machine.ip, windowOf machine, port, machine.shutdownAuthKey, false,
            ((l.machines.lookup machine.mac).map MachineConfig.lastRequest).getD now⟩
        else none
      else l.machines.lookup mac := by
  unfold updateMachine
  cases hm : machine.monitored
  · rw [Bool.not_false, if_pos rfl, lookup_removeMachine]
    simp
  · rw [Bool.not_true, if_neg Bool.false_ne_true]
    cases hl : l.machines.lookup machine.mac with
    | none =>
      rw [lookup_initializeMachine, hm]
      simp
    | some config =>
      simp only [Dict.lookup_insert]
      simp

theorem lookup_updateLastRequest (l : TurnOffLimiter) (mac mac' : String) (now : Instant) :
    (l.updateLastRequest mac now).machines.lookup mac' =
      if mac' = mac then
        (l.machines.lookup mac).map fun c => { c with lastRequest := now, triggered := false }
      else l.machines.lookup mac' := by
  unfold updateLastRequest
  cases hl : l.machines.lookup mac with
  | none =>
    by_cases h : mac' = mac
    · rw [if_pos h, h, hl]
      rfl
    · rw [if_neg h]
  | some config =>
    simp only [Dict.lookup_insert]
    simp

theorem lookup_afterTick (l : TurnOffLimiter) (now : Instant) (mac : String) :
    (l.afterTick now).machines.lookup mac = (l.machines.lookup mac).map fun config =>
      if config.inactive now then { config with triggered := true } else config :=
  Dict.lookup_mapVal _ _ _

/-- A tick emits a turn-off exactly for a timer that ran out with its flag clear. -/
theorem mem_machinesToCheck {l : TurnOffLimiter} {now : Instant} {off : TurnOff} :
    off ∈ l.machinesToCheck now ↔
      ∃ config, l.machines.lookup off.mac = some config ∧ config.inactive now = true ∧
        config.triggered = false ∧
        off = ⟨config.ip, config.turnOffPort, off.mac, config.shutdownAuthKey⟩ := by
  unfold machinesToCheck
  rw [List.mem_filterMap]
  constructor
  · rintro ⟨⟨mac, config⟩, hmem, h⟩
    split at h
    · rename_i hcond
      rw [Bool.and_eq_true, Bool.not_eq_true'] at hcond
      cases h
      exact ⟨config, Dict.lookup_eq_some_iff.mpr hmem, hcond.1, hcond.2, rfl⟩
    · cases h
  · rintro ⟨config, hlookup, hinactive, htriggered, hoff⟩
    refine ⟨⟨off.mac, config⟩, Dict.lookup_eq_some_iff.mp hlookup, ?_⟩
    rw [hoff]
    simp [hinactive, htriggered]

end TurnOffLimiter

end Wakezilla
