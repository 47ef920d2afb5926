/-
# Forwarded sessions and the inactivity monitor

The connection tasks of `proxy_internal` next to the limiter.  A task resets the timer
of its machine once, when it starts; it then checks the host, may wake it and wait for
up to a minute, connects, and copies bytes until one side closes.  Nothing resets the
timer while it copies, so a session that outlives the inactivity period is cut
(`long_session_cut`).

`sessions_spared_iff` says when it is not: `Idle` reads off the history of the limiter,
and nothing else, that a timer is about to fire, and the runs that spare every session
are those in which no tick comes to an idle machine that has a session.
-/
import Wakezilla.IdleShutdown
import Wakezilla.ProxySystem

namespace Wakezilla

/-! ## Connection tasks -/

/-- How far the task of an accepted connection has come. -/
inductive ConnectionPhase
  | spawned
  | checking
  | sendingWol
  | waking (deadline : Instant)
  | polling (deadline : Instant)
  | connecting
  | copying
  | finished
  deriving DecidableEq, Repr

/-- What a task does next; `ok` is the result of what it waited for: the TCP check, the WOL
packets, the connection. -/
def ConnectionPhase.next (clock : Instant) (ok : Bool) : ConnectionPhase → ConnectionPhase
  | .spawned => .checking
  | .checking => if ok then .connecting else .sendingWol
  | .sendingWol => if ok then .waking (clock + Duration.fromSecs 60) else .finished
  | .waking deadline => if clock < deadline then .polling deadline else .finished
  | .polling deadline => if ok then .connecting else .waking deadline
  | .connecting => if ok then .copying else .finished
  | .copying | .finished => .finished

/-- A connection that a forwarder for the machine `mac` accepted. -/
structure Connection where
  mac : String
  phase : ConnectionPhase
  deriving DecidableEq, Repr

/-- The limiter and the connection tasks. -/
structure Forwarding where
  monitored : MonitoredLimiter
  connections : List Connection

/-- A section of a method of the limiter or of a tick; a forwarder accepts a connection; a
connection task takes its next step. -/
inductive SessionEvent
  | limiter (e : LimiterEvent)
  | accept (mac : String)
  | proceed (connection : ℕ) (ok : Bool)
  deriving DecidableEq, Repr

/-- The first step of a task calls `update_last_request`. -/
def proceedConnection (c : Connection) (m : MonitoredLimiter) : MonitoredLimiter :=
  if c.phase = .spawned then limiterStep m (.updateLastRequest c.mac) else m

/-- The state after one event. -/
def sessionStep (s : Forwarding) : SessionEvent → Forwarding
  | .limiter e => { s with monitored := limiterStep s.monitored e }
  | .accept mac => { s with connections := s.connections ++ [⟨mac, .spawned⟩] }
  | .proceed i ok =>
    match s.connections[i]? with
    | some c =>
      { s with
        monitored := proceedConnection c s.monitored
        connections :=
          s.connections.set i { c with phase := c.phase.next s.monitored.clock ok } }
    | none => s

/-- No machine is configured, and nothing is connected. -/
def Forwarding.start (clock : Instant) : Forwarding := ⟨.new clock, []⟩

/-! ## Idle machines

The history tells whether a timer is due: when the machine was last configured, when its
timer was last reset, and whether it fired since. -/

/-- A tick with the reading `now` finds the machine idle: it is monitored, its timer did not fire
since the last reset, and the last reset is longer ago than its inactivity period. -/
def Idle (history : List LimiterRecord) (now : Instant) (mac : String) : Prop :=
  ∃ machine last, entryMachine mac history = some machine ∧
    (entryTimes mac history).head? = some last ∧ windowOf machine < now - last ∧
    ¬ FiredSinceReset mac history

/-! ## Sessions that are cut -/

/-- A tick emits a turn-off for exactly the idle machines. -/
theorem exists_turnOff_iff_idle {s : MonitoredLimiter} (h : HistoryExact s) (now : Instant)
    (mac : String) :
    (∃ off ∈ s.limiter.machinesToCheck now, off.mac = mac) ↔ Idle s.history now mac := by
  have hentry := h mac
  constructor
  · rintro ⟨off, hoff, rfl⟩
    obtain ⟨config, hconfig, hinactive, htriggered, -⟩ :=
      TurnOffLimiter.mem_machinesToCheck.mp hoff
    rw [hconfig] at hentry
    obtain ⟨⟨machine, hmachine, hwindow⟩, hlast, hfired⟩ := hentry
    have hlate : config.window < now - config.lastRequest := of_decide_eq_true hinactive
    refine ⟨machine, config.lastRequest, hmachine, hlast, hwindow ▸ hlate, fun hbefore => ?_⟩
    rw [hfired.mpr hbefore] at htriggered
    cases htriggered
  · rintro ⟨machine, last, hmachine, hlast, hlate, hnotFired⟩
    cases hconfig : s.limiter.machines.lookup mac with
    | none =>
      rw [hconfig] at hentry
      rw [(hentry : entryMachine mac s.history = none)] at hmachine
      cases hmachine
    | some config =>
      rw [hconfig] at hentry
      obtain ⟨⟨machine', hmachine', hwindow⟩, hlast', hfired⟩ := hentry
      have hsame : machine' = machine := Option.some_inj.mp (hmachine'.symm.trans hmachine)
      have hreset : config.lastRequest = last := Option.some_inj.mp (hlast'.symm.trans hlast)
      have hinactive : config.inactive now = true := by
        rw [MachineConfig.inactive, hwindow, hsame, hreset]
        exact decide_eq_true hlate
      have htriggered : config.triggered = false := by
        rw [Bool.eq_false_iff]
        exact fun htrue => hnotFired (hfired.mp htrue)
      exact ⟨⟨config.ip, config.turnOffPort, mac, config.shutdownAuthKey⟩,
        TurnOffLimiter.mem_machinesToCheck.mpr ⟨config, hconfig, hinactive, htriggered, rfl⟩, rfl⟩

/-- The step emits no turn-off for a machine to which a connection is being copied. -/
def SparesSessions (s : Forwarding) : SessionEvent → Prop
  | .limiter (.check tick) => ∀ now, s.monitored.ticks[tick]? = some now →
      ∀ off ∈ s.monitored.limiter.machinesToCheck now, ∀ c ∈ s.connections, c.mac = off.mac →
        c.phase ≠ .copying
  | _ => True

/-- A tick finds no idle machine to which a connection is being copied. -/
def SessionsRecent (s : Forwarding) : SessionEvent → Prop
  | .limiter (.check tick) => ∀ now, s.monitored.ticks[tick]? = some now →
      ∀ c ∈ s.connections, c.phase = .copying → ¬ Idle s.monitored.history now c.mac
  | _ => True

theorem sparesSessions_iff {s : Forwarding} (h : HistoryExact s.monitored) (e : SessionEvent) :
    SparesSessions s e ↔ SessionsRecent s e := by
  unfold SparesSessions SessionsRecent
  split
  · refine forall₂_congr fun now _ => ?_
    constructor
    · intro hspares c hc hcopying hidle
      obtain ⟨off, hoff, hmac⟩ := (exists_turnOff_iff_idle h now c.mac).mpr hidle
      exact hspares off hoff c hc hmac.symm hcopying
    · intro hrecent off hoff c hc hmac hcopying
      exact hrecent c hc hcopying ((exists_turnOff_iff_idle h now c.mac).mp ⟨off, hoff, hmac.symm⟩)
  · exact Iff.rfl

/-- Connection tasks act on the limiter through its methods only. -/
theorem historyExact_sessionStep (s : Forwarding) (e : SessionEvent)
    (h : HistoryExact s.monitored) : HistoryExact (sessionStep s e).monitored := by
  cases e with
  | limiter e => exact historyExact_step s.monitored e h
  | accept mac => exact h
  | proceed i ok =>
    rw [sessionStep]
    split
    · rename_i c _
      show HistoryExact (proceedConnection c s.monitored)
      unfold proceedConnection
      split
      · exact historyExact_step s.monitored _ h
      · exact h
    · exact h

/-- **When sessions are spared.**  A run emits no turn-off for a machine whose traffic is being
copied exactly when no tick of it finds such a machine idle: monitored, not turned off since the
last reset of its timer, and last reset longer ago than its inactivity period. -/
theorem sessions_spared_iff (clock : Instant) (es : List SessionEvent) :
    Run.Along sessionStep SparesSessions (.start clock) es ↔
      Run.Along sessionStep SessionsRecent (.start clock) es := by
  have hstart : HistoryExact (Forwarding.start clock).monitored := fun _ => rfl
  exact Run.along_congr (P := fun s => HistoryExact s.monitored) historyExact_sessionStep
    (fun s e h => sparesSessions_iff h e) hstart es

/-- A monitored machine with the shortest inactivity period. -/
def busyServer : Machine := { workstation with inactivityPeriod := 1 }

/-- A session with it: the connection is accepted and copied, and 61 seconds pass until a tick
reads the clock. -/
def longSession : List SessionEvent :=
  [.limiter (.initializeMachine busyServer 3001), .limiter (.readClock 0), .limiter (.insert 0),
    .accept busyServer.mac, .proceed 0 true, .proceed 0 true, .proceed 0 true,
    .limiter (.advance (Duration.fromSecs 61)), .limiter .tick]

/-- **A long session is cut.**  The tick turns the machine off while the connection is being
copied. -/
theorem long_session_cut :
    ¬ Run.Along sessionStep SparesSessions (.start 0) (longSession ++ [.limiter (.check 0)]) := by
  rintro ⟨-, -, -, -, -, -, -, -, -, hspares, -⟩
  have hcheck : SparesSessions (Run.exec sessionStep (.start 0) longSession)
      (.limiter (.check 0)) := hspares
  have htick : (Run.exec sessionStep (.start 0) longSession).monitored.ticks[0]? =
      some (Duration.fromSecs 61) := by decide +kernel
  have hoff : ⟨busyServer.ip, 3001, busyServer.mac, busyServer.shutdownAuthKey⟩ ∈
      (Run.exec sessionStep (.start 0) longSession).monitored.limiter.machinesToCheck
        (Duration.fromSecs 61) := by decide +kernel
  have hcopying : ⟨busyServer.mac, .copying⟩ ∈
      (Run.exec sessionStep (.start 0) longSession).connections := by decide +kernel
  exact hcheck _ htick _ hoff _ hcopying rfl rfl

end Wakezilla
