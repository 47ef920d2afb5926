/-
# Idle shutdown is safe

The methods of `TurnOffLimiter` run concurrently with any number of inactivity
monitors.  A step here is one section of a call between two points at which others
may run: `initialize_machine` reads the clock and takes the lock later, and a tick
does the same, so both may work with an old reading; `update_machine` gives the lock
up before it initialises an unknown machine; `update_last_request` reads the clock
under the lock.

The history records what each section did, and every timer can be read off it
(`historyExact_step`).  Two facts hold of every turn-off in it (`idle_shutdown_safe`):
it comes later than the window after all times of the entry, and it is the first one
since the entry was last reset.
-/
import Wakezilla.TurnOffLimiter
import Wakezilla.Library.Run

namespace Wakezilla

/-! ## The limiter under concurrent calls -/

/-- What one section did to the limiter. -/
inductive LimiterRecord
  | initialized (machine : Machine) (reading : Instant)
  | updated (machine : Machine)
  | touched (mac : String) (reading : Instant)
  | removed (mac : String)
  | turnOff (off : TurnOff) (now : Instant)
  deriving DecidableEq, Repr

/-- A call of `initialize_machine`, before or after its reading of the clock. -/
structure InitializeCall where
  machine : Machine
  turnOffPort : UInt16
  reading : Option Instant
  deriving DecidableEq, Repr

/-- The limiter, the clock, the calls and ticks in progress, and the history, newest first. -/
structure MonitoredLimiter where
  limiter : TurnOffLimiter
  clock : Instant
  calls : List InitializeCall
  ticks : List Instant
  history : List LimiterRecord

/-- One section of a call or of a tick, or the passing of time. -/
inductive LimiterEvent
  | advance (duration : ℕ)
  | initializeMachine (machine : Machine) (turnOffPort : UInt16)
  | readClock (call : ℕ)
  | insert (call : ℕ)
  | updateMachine (machine : Machine) (turnOffPort : UInt16)
  | removeMachine (mac : String)
  | updateLastRequest (mac : String)
  | tick
  | check (tick : ℕ)
  deriving DecidableEq, Repr

/-- The section of `initialize_machine` under the lock. -/
def insertSection (call : InitializeCall) (reading : Instant) (s : MonitoredLimiter) :
    MonitoredLimiter :=
  { s with
    limiter := s.limiter.initializeMachine call.machine call.turnOffPort reading
    history :=
      (if call.machine.monitored then .initialized call.machine reading
        else .removed call.machine.mac) :: s.history }

/-- The section of `update_machine` under the lock; an unknown machine leads to a call of
`initialize_machine`. -/
def updateSection (machine : Machine) (turnOffPort : UInt16) (s : MonitoredLimiter) :
    MonitoredLimiter :=
  if machine.monitored && (s.limiter.machines.lookup machine.mac).isNone then
    { s with calls := s.calls ++ [⟨machine, turnOffPort, none⟩] }
  else
    { s with
      limiter := s.limiter.updateMachine machine turnOffPort s.clock
      history := (if machine.monitored then .updated machine else .removed machine.mac)
        :: s.history }

/-- The section of a tick under the lock. -/
def checkSection (now : Instant) (s : MonitoredLimiter) : MonitoredLimiter :=
  { s with
    limiter := s.limiter.afterTick now
    history := (s.limiter.machinesToCheck now).map (.turnOff · now) ++ s.history }

/-- The state after one event. -/
def limiterStep (s : MonitoredLimiter) : LimiterEvent → MonitoredLimiter
  | .advance duration => { s with clock := s.clock + duration }
  | .initializeMachine machine port => { s with calls := s.calls ++ [⟨machine, port, none⟩] }
  | .readClock i =>
    { s with
      calls := s.calls.modify i fun call =>
        { call with reading := some (call.reading.getD s.clock) } }
  | .insert i =>
    match s.calls[i]? with
    | some call =>
      match call.reading with
      | some reading => insertSection call reading { s with calls := s.calls.eraseIdx i }
      | none => s
    | none => s
  | .updateMachine machine port => updateSection machine port s
  | .removeMachine mac =>
    { s with limiter := s.limiter.removeMachine mac, history := .removed mac :: s.history }
  | .updateLastRequest mac =>
    if (s.limiter.machines.lookup mac).isSome then
      { s with
        limiter := s.limiter.updateLastRequest mac s.clock
        history := .touched mac s.clock :: s.history }
    else s
  | .tick => { s with ticks := s.ticks ++ [s.clock] }
  | .check i =>
    match s.ticks[i]? with
    | some now => checkSection now { s with ticks := s.ticks.eraseIdx i }
    | none => s

/-- The state of a limiter that was just created. -/
def MonitoredLimiter.new (clock : Instant) : MonitoredLimiter :=
  ⟨TurnOffLimiter.new, clock, [], [], []⟩

/-! ## Reading the history -/

/-- The times of the current entry of `mac`: when it was initialised and touched since. -/
def entryTimes (mac : String) : List LimiterRecord → List Instant
  | [] => []
  | .initialized machine reading :: history =>
    if machine.mac = mac then [reading] else entryTimes mac history
  | .touched mac' reading :: history =>
    if mac' = mac then reading :: entryTimes mac history else entryTimes mac history
  | .removed mac' :: history => if mac' = mac then [] else entryTimes mac history
  | .updated _ :: history | .turnOff _ _ :: history => entryTimes mac history

/-- The machine the current entry of `mac` was last configured for. -/
def entryMachine (mac : String) : List LimiterRecord → Option Machine
  | [] => none
  | .initialized machine _ :: history | .updated machine :: history =>
    if machine.mac = mac then some machine else entryMachine mac history
  | .removed mac' :: history => if mac' = mac then none else entryMachine mac history
  | .touched _ _ :: history | .turnOff _ _ :: history => entryMachine mac history

/-- The record is a call of `initialize_machine`, `update_machine` or `update_last_request`
for `mac`. -/
def LimiterRecord.Resets (mac : String) : LimiterRecord → Prop
  | .initialized machine _ | .updated machine => machine.mac = mac
  | .touched mac' _ => mac' = mac
  | .removed _ | .turnOff _ _ => False

/-- A turn-off for `mac` was emitted after the last record that resets it. -/
def FiredSinceReset (mac : String) : List LimiterRecord → Prop
  | [] => False
  | .initialized machine _ :: history | .updated machine :: history =>
    machine.mac ≠ mac ∧ FiredSinceReset mac history
  | .touched mac' _ :: history => mac' ≠ mac ∧ FiredSinceReset mac history
  | .removed _ :: history => FiredSinceReset mac history
  | .turnOff off _ :: history => off.mac = mac ∨ FiredSinceReset mac history

/-- Every turn-off of the history meets `P` with what was recorded before it. -/
def EveryTurnOff (P : TurnOff → Instant → List LimiterRecord → Prop)
    (history : List LimiterRecord) : Prop :=
  ∀ newer off now older, history = newer ++ .turnOff off now :: older → P off now older

/-- The turn-off comes later than the window of the entry after all its times, and is the
first since the entry was last reset. -/
def Justified (off : TurnOff) (now : Instant) (older : List LimiterRecord) : Prop :=
  (∃ machine, entryMachine off.mac older = some machine ∧
    ∀ t ∈ entryTimes off.mac older, windowOf machine < now - t) ∧
    ¬ FiredSinceReset off.mac older

theorem everyTurnOff_cons {P : TurnOff → Instant → List LimiterRecord → Prop}
    {record : LimiterRecord} {history : List LimiterRecord} (h : EveryTurnOff P history)
    (hrecord : ∀ off now, record = .turnOff off now → P off now history) :
    EveryTurnOff P (record :: history) := by
  intro newer off now older heq
  cases newer with
  | nil =>
    cases heq
    exact hrecord off now rfl
  | cons first newer =>
    rw [List.cons_append, List.cons.injEq] at heq
    exact h newer off now older heq.2

/-! ## The invariant -/

/-- What the timer of `mac` knows of its history. -/
structure TimerMatches (clock : Instant) (history : List LimiterRecord) (mac : String)
    (config : MachineConfig) : Prop where
  machine : ∃ machine, entryMachine mac history = some machine ∧
    config.window = windowOf machine
  times : ∀ t ∈ entryTimes mac history, t ≤ config.lastRequest
  past : config.lastRequest ≤ clock
  fired : FiredSinceReset mac history → config.triggered = true

/-- The invariant of the monitored limiter. -/
structure LimiterInv (s : MonitoredLimiter) : Prop where
  readings : ∀ call ∈ s.calls, ∀ reading, call.reading = some reading → reading ≤ s.clock
  timers : ∀ mac config, s.limiter.machines.lookup mac = some config →
    TimerMatches s.clock s.history mac config
  justified : EveryTurnOff Justified s.history

theorem limiterInv_new (clock : Instant) : LimiterInv (MonitoredLimiter.new clock) := by
  refine ⟨fun call hcall => absurd hcall List.not_mem_nil, fun mac config h => ?_, ?_⟩
  · cases h
  · intro newer off now older h
    exact absurd h.symm (List.append_ne_nil_of_right_ne_nil _ (List.cons_ne_nil _ _))

/-- What the history says of the timer under a MAC. -/
def EntryMatches (history : List LimiterRecord) (mac : String) : Option MachineConfig → Prop
  | none => entryMachine mac history = none
  | some config =>
    (∃ machine, entryMachine mac history = some machine ∧ config.window = windowOf machine) ∧
      (entryTimes mac history).head? = some config.lastRequest ∧
      (config.triggered = true ↔ FiredSinceReset mac history)

/-- The history says what every timer is. -/
def HistoryExact (s : MonitoredLimiter) : Prop :=
  ∀ mac, EntryMatches s.history mac (s.limiter.machines.lookup mac)

/-- The times of every entry are listed newest first, and none is later than `clock`. -/
def TimesOrdered (clock : Instant) (history : List LimiterRecord) : Prop :=
  ∀ mac, (entryTimes mac history).Pairwise (· ≥ ·) ∧ ∀ t ∈ entryTimes mac history, t ≤ clock

/-- No call read the clock in the future. -/
def CallsPast (s : MonitoredLimiter) : Prop :=
  ∀ call ∈ s.calls, ∀ reading, call.reading = some reading → reading ≤ s.clock

/-! ## Records and timers -/

/-- The MAC a record is about. -/
def LimiterRecord.mac : LimiterRecord → String
  | .initialized machine _ | .updated machine => machine.mac
  | .touched mac _ | .removed mac => mac
  | .turnOff off _ => off.mac

/-- Records about other MACs do not matter. -/
theorem EntryMatches.cons_other {history : List LimiterRecord} {mac : String}
    {config : Option MachineConfig} (h : EntryMatches history mac config) {record : LimiterRecord}
    (hmac : record.mac ≠ mac) : EntryMatches (record :: history) mac config := by
  have hmachine : entryMachine mac (record :: history) = entryMachine mac history := by
    cases record with
    | initialized | updated | removed => exact if_neg hmac
    | touched | turnOff => rfl
  have htimes : entryTimes mac (record :: history) = entryTimes mac history := by
    cases record with
    | initialized | touched | removed => exact if_neg hmac
    | updated | turnOff => rfl
  have hfired : FiredSinceReset mac (record :: history) ↔ FiredSinceReset mac history := by
    cases record with
    | initialized | updated | touched => exact and_iff_right hmac
    | removed => exact Iff.rfl
    | turnOff => exact or_iff_right hmac
  cases config with
  | none => exact hmachine.trans h
  | some config =>
    show (∃ machine, entryMachine mac (record :: history) = some machine ∧ _) ∧ _ ∧ (_ ↔ _)
    rw [hmachine, htimes, hfired]
    exact h

/-- What an exact history in order says of a timer. -/
theorem EntryMatches.timerMatches {clock : Instant} {history : List LimiterRecord} {mac : String}
    {config : MachineConfig} (h : EntryMatches history mac (some config))
    (hordered : TimesOrdered clock history) : TimerMatches clock history mac config := by
  obtain ⟨hmachine, hlast, hfired⟩ := h
  obtain ⟨hsorted, hpast⟩ := hordered mac
  obtain ⟨rest, htimes⟩ := List.head?_eq_some_iff.mp hlast
  refine ⟨hmachine, fun t ht => ?_, hpast _ (List.mem_of_mem_head? hlast), hfired.mpr⟩
  rw [htimes] at ht hsorted
  rcases List.mem_cons.mp ht with rfl | ht
  · exact le_rfl
  · exact List.rel_of_pairwise_cons hsorted ht

/-- The turn-offs of one tick do not change the entry of a MAC. -/
theorem entry_turnOffs (offs : List TurnOff) (now : Instant) (history : List LimiterRecord)
    (mac : String) :
    entryMachine mac (offs.map (.turnOff · now) ++ history) = entryMachine mac history ∧
      entryTimes mac (offs.map (.turnOff · now) ++ history) = entryTimes mac history := by
  induction offs with
  | nil => exact ⟨rfl, rfl⟩
  | cons off offs ih => exact ih

/-- The turn-offs of a tick: exactly their MACs have fired since the last reset, in addition. -/
theorem firedSinceReset_turnOffs (offs : List TurnOff) (now : Instant)
    (history : List LimiterRecord) (mac : String) :
    FiredSinceReset mac (offs.map (.turnOff · now) ++ history) ↔
      (∃ off ∈ offs, off.mac = mac) ∨ FiredSinceReset mac history := by
  induction offs with
  | nil => simp
  | cons off offs ih =>
    show off.mac = mac ∨ FiredSinceReset mac (offs.map (.turnOff · now) ++ history) ↔ _
    rw [ih]
    simp only [List.mem_cons, exists_eq_or_imp]
    exact or_assoc.symm

/-- A record that is no turn-off keeps the history justified. -/
theorem justified_cons {record : LimiterRecord} {history : List LimiterRecord}
    (h : EveryTurnOff Justified history) (hrecord : ∀ off now, record ≠ .turnOff off now) :
    EveryTurnOff Justified (record :: history) :=
  everyTurnOff_cons h fun off now heq => absurd heq (hrecord off now)

/-- The turn-offs of one tick are for different MACs. -/
theorem pairwise_machinesToCheck (l : TurnOffLimiter) (now : Instant) :
    (l.machinesToCheck now).Pairwise fun off off' => off.mac ≠ off'.mac := by
  refine List.Pairwise.filterMap _ ?_ (List.nodupKeys_iff_pairwise.mp l.machines.nodupKeys)
  intro e e' hne off hoff off' hoff'
  rw [Option.ite_none_right_eq_some] at hoff hoff'
  obtain ⟨-, hoff⟩ := hoff
  obtain ⟨-, hoff'⟩ := hoff'
  rw [← Option.some_inj.mp hoff, ← Option.some_inj.mp hoff']
  exact hne

/-- A tick keeps the history justified when each of its turn-offs is. -/
theorem justified_turnOffs {offs : List TurnOff} {now : Instant} {history : List LimiterRecord}
    (h : EveryTurnOff Justified history) (hoffs : ∀ off ∈ offs, Justified off now history)
    (hmacs : offs.Pairwise fun off off' => off.mac ≠ off'.mac) :
    EveryTurnOff Justified (offs.map (.turnOff · now) ++ history) := by
  induction offs with
  | nil => exact h
  | cons off offs ih =>
    rw [List.pairwise_cons] at hmacs
    refine everyTurnOff_cons (ih (fun off' h' => hoffs off' (List.mem_cons_of_mem _ h'))
      hmacs.2) fun off' now' heq => ?_
    cases heq
    -- the other turn-offs of the tick are for other MACs, so `off` sees the history before the tick
    obtain ⟨hmachine, htimes⟩ := entry_turnOffs offs now history off.mac
    obtain ⟨hold, hnot⟩ := hoffs off List.mem_cons_self
    refine ⟨?_, fun h => ?_⟩
    · change ∃ machine, entryMachine off.mac (offs.map (.turnOff · now) ++ history) = _ ∧
        ∀ t ∈ entryTimes off.mac (offs.map (.turnOff · now) ++ history), _
      rw [hmachine, htimes]
      exact hold
    rcases (firedSinceReset_turnOffs offs now history off.mac).mp h with ⟨off', hoff', hmac⟩ | h
    · exact hmacs.1 off' hoff' hmac.symm
    · exact hnot h

/-- The turn-offs of a tick are justified. -/
theorem justified_machinesToCheck {s : MonitoredLimiter} (h : LimiterInv s) {now : Instant}
    {off : TurnOff} (hoff : off ∈ s.limiter.machinesToCheck now) :
    Justified off now s.history := by
  obtain ⟨config, hconfig, hinactive, htriggered, -⟩ :=
    TurnOffLimiter.mem_machinesToCheck.mp hoff
  have htimer := h.timers off.mac config hconfig
  obtain ⟨machine, hmachine, hwindow⟩ := htimer.machine
  refine ⟨⟨machine, hmachine, fun t ht => ?_⟩, fun hfired => ?_⟩
  · -- `lastRequest` is the latest time of the entry
    have hlate : config.window < now - config.lastRequest := by
      simpa [MachineConfig.inactive] using hinactive
    rw [hwindow] at hlate
    exact hlate.trans_le (Nat.sub_le_sub_left (htimer.times t ht) now)
  · rw [htimer.fired hfired] at htriggered
    cases htriggered

/-! ## The sections keep the history exact -/

theorem HistoryExact.insertSection {s : MonitoredLimiter} (h : HistoryExact s)
    (call : InitializeCall) (reading : Instant) : HistoryExact (insertSection call reading s) := by
  intro mac
  show EntryMatches _ mac
    ((s.limiter.initializeMachine call.machine call.turnOffPort reading).machines.lookup mac)
  rw [TurnOffLimiter.lookup_initializeMachine]
  unfold Wakezilla.insertSection
  by_cases hmac : mac = call.machine.mac
  · rw [if_pos hmac]
    cases hmonitored : call.machine.monitored with
    | false => exact if_pos hmac.symm
    | true =>
      refine ⟨⟨call.machine, if_pos hmac.symm, rfl⟩, ?_, ?_⟩
      · show (entryTimes mac (.initialized call.machine reading :: s.history)).head? = _
        rw [entryTimes, if_pos hmac.symm]
        rfl
      · exact iff_of_false Bool.false_ne_true fun hfired => hfired.1 hmac.symm
  · rw [if_neg hmac]
    refine (h mac).cons_other fun heq => hmac ?_
    rw [← heq]
    split <;> rfl

theorem HistoryExact.updateSection {s : MonitoredLimiter} (h : HistoryExact s)
    (machine : Machine) (port : UInt16) : HistoryExact (updateSection machine port s) := by
  unfold Wakezilla.updateSection
  split
  · exact h
  · rename_i hknown
    intro mac
    show EntryMatches _ mac
      ((s.limiter.updateMachine machine port s.clock).machines.lookup mac)
    rw [TurnOffLimiter.lookup_updateMachine]
    by_cases hmac : mac = machine.mac
    · rw [if_pos hmac]
      cases hmonitored : machine.monitored with
      | false => exact if_pos hmac.symm
      | true =>
        -- an unknown machine goes to `initialize_machine` instead
        cases hold : s.limiter.machines.lookup machine.mac with
        | none => simp [hmonitored, hold] at hknown
        | some old =>
          have hentry : EntryMatches s.history mac (some old) := by
            rw [← hold, ← hmac]
            exact h mac
          refine ⟨⟨machine, if_pos hmac.symm, rfl⟩, hentry.2.1, ?_⟩
          exact iff_of_false Bool.false_ne_true fun hfired => hfired.1 hmac.symm
    · rw [if_neg hmac]
      refine (h mac).cons_other fun heq => hmac ?_
      rw [← heq]
      split <;> rfl

theorem HistoryExact.removeMachine {s : MonitoredLimiter} (h : HistoryExact s) (mac : String) :
    HistoryExact (limiterStep s (.removeMachine mac)) := by
  intro mac'
  show EntryMatches (.removed mac :: s.history) mac'
    ((s.limiter.removeMachine mac).machines.lookup mac')
  rw [TurnOffLimiter.lookup_removeMachine]
  by_cases hmac : mac' = mac
  · rw [if_pos hmac]
    exact if_pos hmac.symm
  · rw [if_neg hmac]
    exact (h mac').cons_other fun heq => hmac heq.symm

theorem HistoryExact.updateLastRequest {s : MonitoredLimiter} (h : HistoryExact s)
    (mac : String) : HistoryExact (limiterStep s (.updateLastRequest mac)) := by
  rw [limiterStep]
  split
  · rename_i hknown
    obtain ⟨old, hold⟩ := Option.isSome_iff_exists.mp hknown
    intro mac'
    show EntryMatches (.touched mac s.clock :: s.history) mac'
      ((s.limiter.updateLastRequest mac s.clock).machines.lookup mac')
    rw [TurnOffLimiter.lookup_updateLastRequest]
    by_cases hmac : mac' = mac
    · rw [if_pos hmac, hold]
      have hentry : EntryMatches s.history mac' (some old) := by
        rw [← hold, ← hmac]
        exact h mac'
      refine ⟨hentry.1, ?_, ?_⟩
      · rw [entryTimes, if_pos hmac.symm]
        rfl
      · exact iff_of_false Bool.false_ne_true fun hfired => hfired.1 hmac.symm
    · rw [if_neg hmac]
      exact (h mac').cons_other fun heq => hmac heq.symm
  · exact h

theorem HistoryExact.checkSection {s : MonitoredLimiter} (h : HistoryExact s) (now : Instant) :
    HistoryExact (checkSection now s) := by
  intro mac
  show EntryMatches ((s.limiter.machinesToCheck now).map (.turnOff · now) ++ s.history) mac
    ((s.limiter.afterTick now).machines.lookup mac)
  rw [TurnOffLimiter.lookup_afterTick]
  obtain ⟨hmachine, htimes⟩ := entry_turnOffs (s.limiter.machinesToCheck now) now s.history mac
  have hentry := h mac
  cases hold : s.limiter.machines.lookup mac with
  | none =>
    rw [hold] at hentry
    exact hmachine.trans hentry
  | some old =>
    rw [hold] at hentry
    obtain ⟨⟨machine, hconfigured, hwindow⟩, hlast, hfired⟩ := hentry
    have hnew : ∃ new, (s.limiter.machines.lookup mac).map (fun config =>
          if config.inactive now then { config with triggered := true } else config) = some new ∧
        new.window = old.window ∧ new.lastRequest = old.lastRequest ∧
        new.triggered = (old.inactive now || old.triggered) := by
      rw [hold]
      refine ⟨_, rfl, ?_⟩
      cases hinactive : old.inactive now with
      | false => exact ⟨by simp [hinactive], by simp [hinactive], by simp [hinactive]⟩
      | true => exact ⟨by simp [hinactive], by simp [hinactive], by simp [hinactive]⟩
    obtain ⟨new, hmap, hnewWindow, hnewLast, hnewTriggered⟩ := hnew
    rw [hold] at hmap
    rw [hmap]
    refine ⟨⟨machine, hmachine.trans hconfigured, hnewWindow.trans hwindow⟩, ?_, ?_⟩
    · rw [htimes, hlast, hnewLast]
    · -- the swap sets the flag of exactly the timers that are in the list or had fired
      have hlisted : (∃ off ∈ s.limiter.machinesToCheck now, off.mac = mac) ↔
          old.inactive now = true ∧ old.triggered = false := by
        constructor
        · rintro ⟨off, hoff, rfl⟩
          obtain ⟨config, hconfig, hinactive, htriggered, -⟩ :=
            TurnOffLimiter.mem_machinesToCheck.mp hoff
          rw [hold] at hconfig
          cases hconfig
          exact ⟨hinactive, htriggered⟩
        · rintro ⟨hinactive, htriggered⟩
          refine ⟨⟨old.ip, old.turnOffPort, mac, old.shutdownAuthKey⟩, ?_, rfl⟩
          exact TurnOffLimiter.mem_machinesToCheck.mpr ⟨old, hold, hinactive, htriggered, rfl⟩
      rw [firedSinceReset_turnOffs, ← hfired, hlisted, hnewTriggered]
      cases old.inactive now <;> cases old.triggered <;> decide

/-- **One step** keeps the history exact. -/
theorem historyExact_step (s : MonitoredLimiter) (e : LimiterEvent) (h : HistoryExact s) :
    HistoryExact (limiterStep s e) := by
  cases e with
  | advance duration => exact h
  | initializeMachine machine port => exact h
  | readClock i => exact h
  | insert i =>
    rw [limiterStep]
    split
    · split
      · exact HistoryExact.insertSection (s := { s with calls := s.calls.eraseIdx i }) h _ _
      · exact h
    · exact h
  | updateMachine machine port => exact h.updateSection machine port
  | removeMachine mac => exact h.removeMachine mac
  | updateLastRequest mac => exact h.updateLastRequest mac
  | tick => exact h
  | check i =>
    rw [limiterStep]
    split
    · exact HistoryExact.checkSection (s := { s with ticks := s.ticks.eraseIdx i }) h _
    · exact h

/-! ## What a step adds to the history -/

/-- The record is of a call, and its time is one that a clock showing `clock` allows. -/
def LimiterRecord.TimedBy (clock : Instant) : LimiterRecord → Prop
  | .initialized _ reading => reading ≤ clock
  | .touched _ reading => reading = clock
  | .updated _ | .removed _ => True
  | .turnOff _ _ => False

/-- The histories that one step from `s` may lead to. -/
inductive HistoryStep (s : MonitoredLimiter) : List LimiterRecord → Prop
  | same : HistoryStep s s.history
  | call {record : LimiterRecord} (h : record.TimedBy s.clock) :
    HistoryStep s (record :: s.history)
  | turnOffs (now : Instant) :
    HistoryStep s ((s.limiter.machinesToCheck now).map (.turnOff · now) ++ s.history)

theorem historyStep_limiterStep (s : MonitoredLimiter) (e : LimiterEvent) (h : CallsPast s) :
    HistoryStep s (limiterStep s e).history := by
  cases e with
  | advance | initializeMachine | readClock | tick => exact .same
  | insert i =>
    rw [limiterStep]
    split
    · rename_i call hcall
      split
      · rename_i reading hreading
        refine .call ?_
        split
        · exact h call (List.mem_of_getElem? hcall) reading hreading
        · trivial
      · exact .same
    · exact .same
  | updateMachine machine port =>
    rw [limiterStep, updateSection]
    split
    · exact .same
    · refine .call ?_
      split <;> trivial
  | removeMachine mac => exact .call trivial
  | updateLastRequest mac =>
    rw [limiterStep]
    split
    · exact .call rfl
    · exact .same
  | check i =>
    rw [limiterStep]
    split
    · exact .turnOffs _
    · exact .same

theorem clock_le_limiterStep (s : MonitoredLimiter) (e : LimiterEvent) :
    s.clock ≤ (limiterStep s e).clock := by
  cases e with
  | advance duration => exact Nat.le_add_right _ _
  | initializeMachine | readClock | removeMachine | tick => exact le_rfl
  | insert i =>
    rw [limiterStep]
    split
    · split <;> exact le_rfl
    · exact le_rfl
  | updateMachine machine port =>
    rw [limiterStep, updateSection]
    split <;> exact le_rfl
  | updateLastRequest mac =>
    rw [limiterStep]
    split <;> exact le_rfl
  | check i =>
    rw [limiterStep]
    split <;> exact le_rfl

/-- A call that was just made has not read the clock. -/
theorem CallsPast.append {s : MonitoredLimiter} (h : CallsPast s) (machine : Machine)
    (port : UInt16) : CallsPast { s with calls := s.calls ++ [⟨machine, port, none⟩] } := by
  intro call hcall reading hreading
  rcases List.mem_append.mp hcall with hcall | hcall
  · exact h call hcall reading hreading
  · rw [List.mem_singleton.mp hcall] at hreading
    cases hreading

theorem callsPast_step (s : MonitoredLimiter) (e : LimiterEvent) (h : CallsPast s) :
    CallsPast (limiterStep s e) := by
  cases e with
  | advance duration =>
    intro call hcall reading hreading
    exact (h call hcall reading hreading).trans (Nat.le_add_right _ _)
  | initializeMachine machine port => exact h.append machine port
  | readClock i =>
    intro call hcall reading hreading
    obtain ⟨j, hj⟩ := List.mem_iff_getElem?.mp hcall
    change (s.calls.modify i _)[j]? = some call at hj
    rw [List.getElem?_modify] at hj
    obtain ⟨old, hold, rfl⟩ := Option.map_eq_some_iff.mp hj
    have hmem := List.mem_of_getElem? hold
    split at hreading
    · -- a call reads the clock once
      cases hread : old.reading with
      | none =>
        rw [hread] at hreading
        exact (Option.some_inj.mp hreading).symm.le
      | some t =>
        rw [hread] at hreading
        exact h old hmem reading (hread.trans hreading)
    · exact h old hmem reading hreading
  | insert i =>
    rw [limiterStep]
    split
    · split
      · exact fun call hcall => h call (List.mem_of_mem_eraseIdx hcall)
      · exact h
    · exact h
  | updateMachine machine port =>
    rw [limiterStep, updateSection]
    split
    · exact h.append machine port
    · exact h
  | updateLastRequest mac =>
    rw [limiterStep]
    split <;> exact h
  | removeMachine | tick => exact h
  | check i =>
    rw [limiterStep]
    split <;> exact h

/-! ## The invariant of a run -/

theorem TimesOrdered.mono {clock clock' : Instant} {history : List LimiterRecord}
    (h : TimesOrdered clock history) (hclock : clock ≤ clock') : TimesOrdered clock' history :=
  fun mac => ⟨(h mac).1, fun t ht => ((h mac).2 t ht).trans hclock⟩

theorem TimesOrdered.cons {clock : Instant} {history : List LimiterRecord}
    (h : TimesOrdered clock history) {record : LimiterRecord} (hrecord : record.TimedBy clock) :
    TimesOrdered clock (record :: history) := by
  intro mac
  cases record with
  | initialized machine reading =>
    rw [entryTimes]
    split
    · exact ⟨List.pairwise_singleton _ _, List.forall_mem_singleton.mpr hrecord⟩
    · exact h mac
  | touched mac' reading =>
    rw [entryTimes]
    split
    · -- the clock is read under the lock, so this touch is the latest time of the entry
      have hreading : reading = clock := hrecord
      rw [hreading]
      exact ⟨List.pairwise_cons.mpr ⟨(h mac).2, (h mac).1⟩,
        List.forall_mem_cons.mpr ⟨le_rfl, (h mac).2⟩⟩
    · exact h mac
  | removed mac' =>
    rw [entryTimes]
    split
    · exact ⟨List.Pairwise.nil, fun t ht => absurd ht List.not_mem_nil⟩
    · exact h mac
  | updated | turnOff => exact h mac

theorem HistoryStep.timesOrdered {s : MonitoredLimiter} {history : List LimiterRecord}
    (h : HistoryStep s history) (hordered : TimesOrdered s.clock s.history) :
    TimesOrdered s.clock history := by
  cases h with
  | same => exact hordered
  | call hrecord => exact hordered.cons hrecord
  | turnOffs now =>
    intro mac
    rw [(entry_turnOffs _ now s.history mac).2]
    exact hordered mac

theorem HistoryStep.justified {s : MonitoredLimiter} {history : List LimiterRecord}
    (h : HistoryStep s history) (hinv : LimiterInv s) : EveryTurnOff Justified history := by
  cases h with
  | same => exact hinv.justified
  | call hrecord =>
    refine justified_cons hinv.justified fun off now heq => ?_
    rw [heq] at hrecord
    exact hrecord
  | turnOffs now =>
    exact justified_turnOffs hinv.justified (fun off hoff => justified_machinesToCheck hinv hoff)
      (pairwise_machinesToCheck s.limiter now)

/-- **One step** keeps the invariant, beside an exact history with its times in order. -/
theorem limiterInv_step (s : MonitoredLimiter) (e : LimiterEvent)
    (h : LimiterInv s ∧ HistoryExact s ∧ TimesOrdered s.clock s.history) :
    LimiterInv (limiterStep s e) ∧ HistoryExact (limiterStep s e) ∧
      TimesOrdered (limiterStep s e).clock (limiterStep s e).history := by
  obtain ⟨hinv, hexact, hordered⟩ := h
  have hstep := historyStep_limiterStep s e hinv.readings
  have hexact' := historyExact_step s e hexact
  have hordered' := (hstep.timesOrdered hordered).mono (clock_le_limiterStep s e)
  refine ⟨⟨callsPast_step s e hinv.readings, fun mac config hlookup => ?_, hstep.justified hinv⟩,
    hexact', hordered'⟩
  have hentry := hexact' mac
  rw [hlookup] at hentry
  exact hentry.timerMatches hordered'

/-! ## Runs -/

/-- A turn-off that is not the first for its MAC was preceded by a reset since the last one. -/
theorem exists_reset_of_not_fired {mac : String} {between older : List LimiterRecord}
    {off : TurnOff} {now : Instant} (hmac : off.mac = mac)
    (h : ¬ FiredSinceReset mac (between ++ .turnOff off now :: older)) :
    ∃ record ∈ between, record.Resets mac := by
  induction between with
  | nil => exact absurd (Or.inl hmac) h
  | cons record between ih =>
    by_cases hreset : record.Resets mac
    · exact ⟨record, List.mem_cons_self, hreset⟩
    · have hrest : ¬ FiredSinceReset mac (between ++ .turnOff off now :: older) := by
        intro hfired
        refine h ?_
        cases record with
        | initialized | updated | touched => exact ⟨hreset, hfired⟩
        | removed => exact hfired
        | turnOff => exact Or.inr hfired
      obtain ⟨reset, hmem, hresets⟩ := ih hrest
      exact ⟨reset, List.mem_cons_of_mem _ hmem, hresets⟩

/-- **Idle shutdown is safe.**  In the history of every run, a turn-off with the reading `now`
finds an entry configured for some machine, and `now` is later than that machine's window
after every time of the entry; and between two turn-offs for one MAC there is a call that
initialised, updated or touched it. -/
theorem idle_shutdown_safe (clock : Instant) (es : List LimiterEvent) :
    let history := (Run.exec limiterStep (MonitoredLimiter.new clock) es).history
    (∀ newer off now older, history = newer ++ .turnOff off now :: older →
        ∃ machine, entryMachine off.mac older = some machine ∧
          ∀ t ∈ entryTimes off.mac older, now - t >
            Duration.fromSecs (min (60 * machine.inactivityPeriod.toNat) (2 ^ 32 - 1))) ∧
      ∀ newer off now between off' now' older,
        history = newer ++ .turnOff off now :: (between ++ .turnOff off' now' :: older) →
          off.mac = off'.mac → ∃ record ∈ between, record.Resets off.mac := by
  intro history
  have hstart : TimesOrdered clock [] :=
    fun _ => ⟨List.Pairwise.nil, fun t ht => absurd ht List.not_mem_nil⟩
  obtain ⟨hinv, -⟩ := Run.exec_invariant_of_forall
    (P := fun s => LimiterInv s ∧ HistoryExact s ∧ TimesOrdered s.clock s.history) es
    ⟨limiterInv_new clock, fun _ => rfl, hstart⟩ limiterInv_step
  constructor
  · intro newer off now older heq
    exact (hinv.justified newer off now older heq).1
  · intro newer off now between off' now' older heq hmac
    exact exists_reset_of_not_fired hmac.symm (hinv.justified newer off now _ heq).2

end Wakezilla
