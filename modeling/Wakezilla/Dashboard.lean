/-
# The web dashboard

`DashboardState` of `frontend/src/components/dashboard/state.rs` and the tasks that
`HomePage` and the dialogs spawn.  The page runs on one thread, so a task runs from one
`await` to the next without interruption; what the server answers, and in which order
the answers and the timers of the tasks come, is arbitrary.

A list of events is one interleaving.  `commands`, `poll` and `timers` of a state are the
tasks that wait for something.
-/
import Wakezilla.Library.Version
import Wakezilla.Machine

namespace Wakezilla

namespace Dashboard

open Run

/-! ## The state -/

/-- `MachineStatus`. -/
inductive MachineStatus
  | checking
  | online
  | unreachable
  | error
  deriving DecidableEq, Repr

/-- `Activity`. -/
structure Activity where
  machine : String
  message : String
  time : String
  deriving DecidableEq, Repr

/-- Where the task of a command waits: for the answer to its request, or for one of the
status requests that it still has. -/
inductive Phase
  | sending
  | waiting (attempts : ℕ)
  deriving DecidableEq, Repr

/-- A task that `power` spawned. -/
structure Command where
  machine : Api.Machine
  wake : Bool
  phase : Phase
  deriving DecidableEq, Repr

/-- A round of status requests: the epoch and the machines read when it began. -/
structure Poll where
  epoch : ℕ
  machines : List Api.Machine
  deriving DecidableEq, Repr

/-- `DashboardState`, without the dialog, and the tasks in flight.  The two counters are `u64` in
the source; here they have no bound, since no page lives for that many events. -/
structure DashboardState where
  machines : List Api.Machine
  statuses : Dict String MachineStatus
  pending : Dict String Bool
  events : List Activity
  loading : Bool
  error : Option String
  statusEpoch : ℕ
  toast : Option (String × Bool)
  toastId : ℕ
  commands : List Command
  poll : Option Poll
  timers : List ℕ

namespace DashboardState

/-- `DashboardState::new`. -/
def new : DashboardState where
  machines := []
  statuses := ∅
  pending := ∅
  events := []
  loading := true
  error := none
  statusEpoch := 0
  toast := none
  toastId := 0
  commands := []
  poll := none
  timers := []

/-- `status`. -/
def status (s : DashboardState) (mac : String) : MachineStatus :=
  (s.statuses.lookup mac).getD .checking

/-- `record`; `time` is the local time as text. -/
def record (machine : Api.Machine) (message time : String) (s : DashboardState) :
    DashboardState :=
  { s with events := (⟨machine.name, message, time⟩ :: s.events).take 100 }

/-- `notify`, up to the task that clears the notification after seven seconds. -/
def notify (message : String) (error : Bool) (s : DashboardState) : DashboardState :=
  { s with
    toastId := s.toastId + 1
    toast := some (message, error)
    timers := s.timers ++ [s.toastId + 1] }

/-- The rest of the task that `notify` spawned. -/
def clearToast (id : ℕ) (s : DashboardState) : DashboardState :=
  if id ∈ s.timers then
    { s with
      timers := s.timers.erase id
      toast := if s.toastId = id then none else s.toast }
  else s

/-- `saved`. -/
def saved (originalMac : String) (machine : Api.Machine) (creating : Bool)
    (s : DashboardState) : DashboardState :=
  { s with
    statusEpoch := s.statusEpoch + 1
    machines :=
      if creating then machine :: s.machines
      else
        match s.machines.findIdx? fun existing => existing.mac = originalMac with
        | some i => s.machines.set i machine
        | none => s.machines }

/-- The removal of a machine after `delete_machine` has succeeded. -/
def deleted (machine : Api.Machine) (s : DashboardState) : DashboardState :=
  { s with
    statusEpoch := s.statusEpoch + 1
    machines := s.machines.filter fun existing => existing.mac ≠ machine.mac }

/-! ## Commands -/

/-- `power`, up to the first `await` of the task. -/
def power (machine : Api.Machine) (wake : Bool) (s : DashboardState) : DashboardState :=
  if (s.pending.lookup machine.mac).isSome then s
  else
    { s with
      pending := s.pending.insert machine.mac wake
      statusEpoch := s.statusEpoch + 1
      commands := s.commands ++ [⟨machine, wake, .sending⟩] }

/-- The task at `i` is over. -/
def finish (i : ℕ) (c : Command) (s : DashboardState) : DashboardState :=
  { s with pending := s.pending.erase c.machine.mac, commands := s.commands.eraseIdx i }

/-- The task at `i` waits again. -/
def await (i : ℕ) (c : Command) (phase : Phase) (s : DashboardState) : DashboardState :=
  { s with commands := s.commands.set i { c with phase } }

/-- `power` after the answer to the command. -/
def commandAnswered (i : ℕ) (answer : Except String String) (time : String)
    (s : DashboardState) : DashboardState :=
  match s.commands[i]? with
  | some ⟨machine, wake, .sending⟩ =>
    match answer with
    | .error error => (s.finish i ⟨machine, wake, .sending⟩).notify error true
    | .ok _ =>
      ((s.await i ⟨machine, wake, .sending⟩ (.waiting 20)).record machine
        (if wake then "received a wake command." else "received a shutdown command.")
        time).notify "Command sent. Waiting for the machine to respond..." false
  | _ => s

/-- The status that a confirmed command shows. -/
def confirmedStatus (online : Bool) : MachineStatus := if online then .online else .unreachable

/-- The machine of a command has the status that was asked for. -/
def confirm (machine : Api.Machine) (online : Bool) (s : DashboardState) : DashboardState :=
  { s with
    statusEpoch := s.statusEpoch + 1
    statuses := s.statuses.insert machine.mac (confirmedStatus online) }

/-- `power` after the answer to one of its twenty status requests. -/
def statusAnswered (i : ℕ) (answer : Except String Bool) (s : DashboardState) :
    DashboardState :=
  match s.commands[i]? with
  | some ⟨machine, wake, .waiting attempts⟩ =>
    if answer.toOption = some wake then
      ((s.confirm machine wake).finish i ⟨machine, wake, .waiting attempts⟩).notify
        (if wake then machine.name ++ " is online."
          else machine.name ++ " stopped responding to the dashboard.") false
    else if attempts ≤ 1 then
      (s.finish i ⟨machine, wake, .waiting attempts⟩).notify
        "The command was sent, but the status change has not been confirmed yet." true
    else s.await i ⟨machine, wake, .waiting attempts⟩ (.waiting (attempts - 1))
  | _ => s

/-! ## The polling loop -/

/-- The status for the answer to a status request. -/
def answeredStatus : Except String Bool → MachineStatus
  | .ok true => .online
  | .ok false => .unreachable
  | .error _ => .error

/-- The statuses of a round of requests; `answers i` is the answer for the machine at `i`. -/
def polledStatuses (machines : List Api.Machine) (answers : ℕ → Except String Bool) :
    Dict String MachineStatus :=
  machines.zipIdx.foldl (fun statuses m => statuses.insert m.1.mac (answeredStatus (answers m.2)))
    ∅

/-- An iteration of the loop of `HomePage`, up to its `await`. -/
def startPoll (s : DashboardState) : DashboardState :=
  match s.poll with
  | none => { s with poll := some ⟨s.statusEpoch, s.machines⟩ }
  | some _ => s

/-- The rest of the iteration. -/
def pollAnswered (answers : ℕ → Except String Bool) (s : DashboardState) : DashboardState :=
  match s.poll with
  | some p =>
    { s with
      poll := none
      statuses :=
        if p.epoch = s.statusEpoch then polledStatuses p.machines answers else s.statuses }
  | none => s

/-! ## The list of machines -/

/-- The effect of `HomePage` that loads the machines, up to its `await`. -/
def refresh (s : DashboardState) : DashboardState := { s with loading := true, error := none }

/-- The rest of the effect. -/
def machinesAnswered (answer : Except String (List Api.Machine)) (s : DashboardState) :
    DashboardState :=
  match answer with
  | .ok machines => { s with machines, loading := false }
  | .error error => { s with error := some error, loading := false }

end DashboardState

/-! ## Events -/

/-- What can happen next on the page.  `notified` is a `notify` by a task whose dialog has been
closed. -/
inductive Event
  | pressed (machine : Api.Machine) (wake : Bool)
  | commandAnswered (i : ℕ) (answer : Except String String) (time : String)
  | statusAnswered (i : ℕ) (answer : Except String Bool)
  | pollStarted
  | pollAnswered (answers : ℕ → Except String Bool)
  | saved (originalMac : String) (machine : Api.Machine) (creating : Bool) (time : String)
  | deleted (machine : Api.Machine) (time : String)
  | refreshed
  | machinesAnswered (answer : Except String (List Api.Machine))
  | notified (message : String) (error : Bool)
  | toastTimeout (id : ℕ)

/-- One event. -/
def step (s : DashboardState) : Event → DashboardState
  | .pressed machine wake => s.power machine wake
  | .commandAnswered i answer time => s.commandAnswered i answer time
  | .statusAnswered i answer => s.statusAnswered i answer
  | .pollStarted => s.startPoll
  | .pollAnswered answers => s.pollAnswered answers
  | .saved originalMac machine creating time =>
    (s.saved originalMac machine creating).record machine
      (if creating then "was added to the dashboard." else "had its configuration updated.") time
  | .deleted machine time =>
    ((s.deleted machine).record machine "was removed from the dashboard." time).notify
      "Machine deleted." false
  | .refreshed => s.refresh
  | .machinesAnswered answer => s.machinesAnswered answer
  | .notified message error => s.notify message error
  | .toastTimeout id => s.clearToast id

/-- The states of the page. -/
def run (es : List Event) : DashboardState := exec step DashboardState.new es

/-- A machine of a home network. -/
def mediaServer : Api.Machine :=
  ⟨"media", .nas, "AA:BB:CC:DD:EE:01", "192.168.1.20", none, some 3001, true, 60, []⟩

/-! ## One command for a machine -/

namespace DashboardState

/-- The commands in flight are those that `pending` lists, one for a MAC, and each of them still
has to ask for the status at most twenty times. -/
structure CommandsListed (s : DashboardState) : Prop where
  distinct : (s.commands.map fun c => c.machine.mac).Nodup
  listed : ∀ mac wake, s.pending.lookup mac = some wake ↔
    ∃ c ∈ s.commands, c.machine.mac = mac ∧ c.wake = wake
  attempts : ∀ c ∈ s.commands, ∀ n, c.phase = .waiting n → 1 ≤ n ∧ n ≤ 20

/-- The invariant reads the two fields only. -/
theorem CommandsListed.congr {s t : DashboardState} (h : CommandsListed s)
    (hpending : t.pending = s.pending) (hcommands : t.commands = s.commands) :
    CommandsListed t := by
  constructor
  · rw [hcommands]
    exact h.distinct
  · rw [hpending, hcommands]
    exact h.listed
  · rw [hcommands]
    exact h.attempts

/-- Of a list whose members differ under `f`, one is removed by its position. -/
theorem mem_eraseIdx_iff_of_nodup {α β : Type*} {f : α → β} {l : List α} (h : (l.map f).Nodup)
    {i : ℕ} {a : α} (ha : l[i]? = some a) (x : α) : x ∈ l.eraseIdx i ↔ x ∈ l ∧ f x ≠ f a := by
  rw [List.mem_eraseIdx_iff_getElem?]
  have hmap : (l.map f)[i]? = some (f a) := by rw [List.getElem?_map, ha, Option.map_some]
  refine ⟨fun ⟨j, hne, hx⟩ => ⟨List.mem_of_getElem? hx, fun heq => hne ?_⟩, fun ⟨hx, hne⟩ => ?_⟩
  · have hmapx : (l.map f)[j]? = some (f a) := by rw [List.getElem?_map, hx, Option.map_some, heq]
    have hj := (List.getElem?_eq_some_iff.mp hmapx).1
    exact (List.getElem?_inj hj h).mp (hmapx.trans hmap.symm)
  · obtain ⟨j, hj⟩ := List.mem_iff_getElem?.mp hx
    refine ⟨j, fun heq => hne ?_, hj⟩
    rw [heq, ha] at hj
    rw [Option.some.inj hj]

theorem CommandsListed.power {s : DashboardState} (h : CommandsListed s) (machine : Api.Machine)
    (wake : Bool) : CommandsListed (s.power machine wake) := by
  unfold DashboardState.power
  split
  · exact h
  next hfree =>
  have hnone : ∀ c ∈ s.commands, c.machine.mac ≠ machine.mac := by
    intro c hc hmac
    apply hfree
    rw [(h.listed machine.mac c.wake).mpr ⟨c, hc, hmac, rfl⟩]
    rfl
  constructor
  · show (List.map _ (s.commands ++ _)).Nodup
    rw [List.map_append, List.nodup_append]
    refine ⟨h.distinct, List.nodup_singleton _, ?_⟩
    simp only [List.mem_map, List.map_cons, List.map_nil, List.mem_singleton]
    rintro mac ⟨c, hc, rfl⟩ _ rfl
    exact hnone c hc
  · intro mac wake'
    show (s.pending.insert machine.mac wake).lookup mac = some wake' ↔ _
    rw [Dict.lookup_insert]
    simp only [List.mem_append, List.mem_singleton, or_and_right, exists_or, exists_eq_left]
    split
    · next hmac =>
      have hno : ¬ ∃ c ∈ s.commands, c.machine.mac = mac ∧ c.wake = wake' :=
        fun ⟨c, hc, hcmac, _⟩ => hnone c hc (hcmac.trans hmac)
      rw [or_iff_right hno, Option.some.injEq]
      exact (and_iff_right hmac.symm).symm
    · next hmac => rw [h.listed, iff_self_or]; exact fun hx => absurd hx.1.symm hmac
  · intro c hc n hphase
    rcases List.mem_append.mp hc with hc | hc
    · exact h.attempts c hc n hphase
    · rw [List.mem_singleton.mp hc] at hphase
      cases hphase

theorem CommandsListed.finish {s : DashboardState} (h : CommandsListed s) {i : ℕ} {c : Command}
    (hc : s.commands[i]? = some c) : CommandsListed (s.finish i c) := by
  have hmem := mem_eraseIdx_iff_of_nodup h.distinct hc
  constructor
  · show (List.map _ (s.commands.eraseIdx i)).Nodup
    rw [← List.eraseIdx_map]
    exact h.distinct.sublist (List.eraseIdx_sublist _ _)
  · intro mac wake
    show (s.pending.erase c.machine.mac).lookup mac = some wake ↔
      ∃ d ∈ s.commands.eraseIdx i, _
    rw [Dict.lookup_erase]
    simp only [hmem]
    split
    · next hmac =>
      refine iff_of_false (by simp) ?_
      rintro ⟨d, ⟨-, hne⟩, hd, -⟩
      exact hne (hd.trans hmac)
    · next hmac =>
      rw [h.listed]
      constructor
      · rintro ⟨d, hd, rfl, hwake⟩
        exact ⟨d, ⟨hd, hmac⟩, rfl, hwake⟩
      · rintro ⟨d, ⟨hd, -⟩, hrest⟩
        exact ⟨d, hd, hrest⟩
  · intro d hd
    exact h.attempts d ((hmem d).mp hd).1

/-- A task that waits again is the one that waited before. -/
theorem CommandsListed.await {s : DashboardState} (h : CommandsListed s) {i : ℕ} {c : Command}
    (hc : s.commands[i]? = some c) {n : ℕ} (hn : 1 ≤ n ∧ n ≤ 20) :
    CommandsListed (s.await i c (.waiting n)) := by
  have hi := (List.getElem?_eq_some_iff.mp hc).1
  have hset : ∀ {β : Type} (f : Command → β), f { c with phase := .waiting n } = f c →
      (s.commands.set i { c with phase := .waiting n }).map f = s.commands.map f := by
    intro β f hf
    apply List.ext_getElem?
    intro j
    rw [List.getElem?_map, List.getElem?_map]
    by_cases hij : i = j
    · rw [← hij, List.getElem?_set_self hi, hc, Option.map_some, Option.map_some, hf]
    · rw [List.getElem?_set_ne hij]
  constructor
  · show (List.map _ (s.commands.set i _)).Nodup
    rw [hset _ rfl]
    exact h.distinct
  · intro mac wake
    show s.pending.lookup mac = some wake ↔ ∃ d ∈ s.commands.set i _, _
    rw [h.listed]
    have hpairs := hset (fun d => (d.machine.mac, d.wake)) rfl
    have hread : ∀ l : List Command, (∃ d ∈ l, d.machine.mac = mac ∧ d.wake = wake) ↔
        (mac, wake) ∈ l.map fun d => (d.machine.mac, d.wake) := by
      intro l
      simp only [List.mem_map, Prod.mk.injEq]
    rw [hread, hread, hpairs]
  · intro d hd m hphase
    rcases List.mem_or_eq_of_mem_set hd with hd | rfl
    · exact h.attempts d hd m hphase
    · cases hphase
      exact hn

theorem CommandsListed.commandAnswered {s : DashboardState} (h : CommandsListed s) (i : ℕ)
    (answer : Except String String) (time : String) :
    CommandsListed (s.commandAnswered i answer time) := by
  unfold DashboardState.commandAnswered
  split
  · next machine wake hc =>
    cases answer with
    | error error => exact (h.finish hc).congr rfl rfl
    | ok message => exact (h.await hc (by decide)).congr rfl rfl
  · exact h

theorem CommandsListed.statusAnswered {s : DashboardState} (h : CommandsListed s) (i : ℕ)
    (answer : Except String Bool) : CommandsListed (s.statusAnswered i answer) := by
  unfold DashboardState.statusAnswered
  split
  · next machine wake attempts hc =>
    split
    · exact ((h.congr (t := s.confirm machine wake) rfl rfl).finish hc).congr rfl rfl
    · split
      · exact (h.finish hc).congr rfl rfl
      · next hmore =>
        have hattempts := h.attempts _ (List.mem_of_getElem? hc) attempts rfl
        exact h.await hc (by omega)
  · exact h

theorem CommandsListed.step {s : DashboardState} (h : CommandsListed s) (e : Event) :
    CommandsListed (step s e) := by
  cases e with
  | pressed machine wake => exact h.power machine wake
  | commandAnswered i answer time => exact h.commandAnswered i answer time
  | statusAnswered i answer => exact h.statusAnswered i answer
  | pollStarted =>
    show CommandsListed s.startPoll
    unfold startPoll
    split <;> exact h.congr rfl rfl
  | pollAnswered answers =>
    show CommandsListed (s.pollAnswered answers)
    unfold DashboardState.pollAnswered
    split <;> exact h.congr rfl rfl
  | saved originalMac machine creating time => exact h.congr rfl rfl
  | deleted machine time => exact h.congr rfl rfl
  | refreshed => exact h.congr rfl rfl
  | machinesAnswered answer => cases answer <;> exact h.congr rfl rfl
  | notified message error => exact h.congr rfl rfl
  | toastTimeout id =>
    show CommandsListed (s.clearToast id)
    unfold clearToast
    split <;> exact h.congr rfl rfl

theorem commandsListed_new : CommandsListed new := by
  refine ⟨List.nodup_nil, fun mac wake => ?_, fun c hc => absurd hc List.not_mem_nil⟩
  refine iff_of_false ?_ ?_
  · show (∅ : Dict String Bool).lookup mac ≠ some wake
    rw [Dict.lookup_empty]
    exact nofun
  · rintro ⟨c, hc, -⟩
    exact absurd hc List.not_mem_nil

theorem commandsListed_run (es : List Event) : CommandsListed (run es) :=
  exec_invariant_of_forall es commandsListed_new fun _ e h => h.step e

/-- The command in flight for a MAC. -/
def commandFor (mac : String) (s : DashboardState) : Option Command :=
  s.commands.find? fun c => c.machine.mac = mac

theorem CommandsListed.commandFor_eq_some {s : DashboardState} (h : CommandsListed s)
    {mac : String} {c : Command} :
    s.commandFor mac = some c ↔ c ∈ s.commands ∧ c.machine.mac = mac := by
  constructor
  · intro hc
    exact ⟨List.mem_of_find?_eq_some hc, by simpa using List.find?_some hc⟩
  · rintro ⟨hc, hmac⟩
    obtain ⟨d, hd⟩ : ∃ d, s.commandFor mac = some d := by
      rw [← Option.isSome_iff_exists, commandFor, List.find?_isSome]
      exact ⟨c, hc, by simpa using hmac⟩
    have hdmac : d.machine.mac = mac := by simpa using List.find?_some hd
    rw [hd, List.inj_on_of_nodup_map h.distinct (List.mem_of_find?_eq_some hd) hc
      (hdmac.trans hmac.symm)]

end DashboardState

/-- **`pending` tells the commands in flight.**  In every interleaving at most one command is in
flight for a MAC, and `pending` has an entry for the MAC exactly as long as it is, with what it
asks for. -/
theorem pending_eq_commandFor (es : List Event) :
    ((run es).commands.map fun c => c.machine.mac).Nodup ∧
      ∀ mac, (run es).pending.lookup mac = ((run es).commandFor mac).map Command.wake := by
  have h := DashboardState.commandsListed_run es
  refine ⟨h.distinct, fun mac => Option.ext fun wake => ?_⟩
  rw [h.listed, Option.map_eq_some_iff]
  simp only [h.commandFor_eq_some, and_assoc]

/-! ## A command ends -/

/-- How many answers a command still waits for at most. -/
def Phase.remaining : Phase → ℕ
  | .sending => 21
  | .waiting attempts => attempts

/-- The command whose task goes on at an event. -/
def answered (s : DashboardState) : Event → Option Command
  | .commandAnswered i _ _ => (s.commands[i]?).filter fun c => c.phase = .sending
  | .statusAnswered i _ => (s.commands[i]?).filter fun c => c.phase ≠ .sending
  | _ => none

/-- The number of answers that the commands for a MAC get along a run. -/
def answerCount (mac : String) : DashboardState → List Event → ℕ
  | _, [] => 0
  | s, e :: es =>
    (if ((answered s e).map fun c => c.machine.mac) = some mac then 1 else 0) +
      answerCount mac (step s e) es

namespace DashboardState

/-- What an event does to the command in flight for a MAC that stays in flight: an answer to it
lowers the number of answers to come, and nothing else touches it. -/
def Advances (s : DashboardState) (e : Event) (t : DashboardState) : Prop :=
  ∀ c ∈ s.commands, ∀ d ∈ t.commands, d.machine.mac = c.machine.mac →
    d.phase.remaining + (if answered s e = some c then 1 else 0) ≤ c.phase.remaining

/-- An event that is no answer and removes or adds commands of other MACs only. -/
theorem CommandsListed.advances_of_subset {s t : DashboardState} (h : CommandsListed s)
    {e : Event} (hnone : ∀ c ∈ s.commands, answered s e ≠ some c)
    (hsub : ∀ d ∈ t.commands, d ∈ s.commands ∨ ∀ c ∈ s.commands, d.machine.mac ≠ c.machine.mac) :
    Advances s e t := by
  intro c hc d hd hmac
  rcases hsub d hd with hd | hnew
  · rw [List.inj_on_of_nodup_map h.distinct hd hc hmac, if_neg (hnone c hc), Nat.add_zero]
  · exact absurd hmac (hnew c hc)

theorem CommandsListed.advances_finish {s t : DashboardState} (h : CommandsListed s) {e : Event}
    {i : ℕ} {b : Command} (hb : s.commands[i]? = some b) (hanswered : answered s e = some b)
    (ht : t.commands = s.commands.eraseIdx i) : Advances s e t := by
  intro c hc d hd hmac
  rw [ht, mem_eraseIdx_iff_of_nodup h.distinct hb] at hd
  have hdc := List.inj_on_of_nodup_map h.distinct hd.1 hc hmac
  rw [hdc, hanswered, if_neg, Nat.add_zero]
  rintro ⟨rfl⟩
  exact hd.2 hmac

theorem CommandsListed.advances_await {s t : DashboardState} (h : CommandsListed s)
    (h' : CommandsListed t) {e : Event} {i : ℕ} {b : Command} (hb : s.commands[i]? = some b)
    (hanswered : answered s e = some b) {phase : Phase}
    (hphase : phase.remaining < b.phase.remaining)
    (ht : t.commands = s.commands.set i { b with phase }) : Advances s e t := by
  intro c hc d hd hmac
  obtain ⟨hi, -⟩ := List.getElem?_eq_some_iff.mp hb
  have hbmem := List.mem_of_getElem? hb
  by_cases hcb : c = b
  · have hwaits : { b with phase } ∈ t.commands := by
      rw [ht]
      exact List.mem_set hi _
    rw [hcb] at hmac ⊢
    rw [if_pos hanswered, List.inj_on_of_nodup_map h'.distinct hd hwaits hmac]
    exact hphase
  · rw [if_neg (by rw [hanswered]; exact fun heq => hcb (Option.some.inj heq).symm), Nat.add_zero]
    rw [ht] at hd
    rcases List.mem_or_eq_of_mem_set hd with hold | rfl
    · rw [List.inj_on_of_nodup_map h.distinct hold hc hmac]
    · exact absurd (List.inj_on_of_nodup_map h.distinct hbmem hc hmac).symm hcb

theorem CommandsListed.advances_of_eq {s t : DashboardState} (h : CommandsListed s) {e : Event}
    (hnone : ∀ c, answered s e ≠ some c) (ht : t.commands = s.commands) : Advances s e t :=
  h.advances_of_subset (fun c _ => hnone c) fun _ hd => Or.inl (ht ▸ hd)

theorem CommandsListed.advances_power {s : DashboardState} (h : CommandsListed s)
    (machine : Api.Machine) (wake : Bool) :
    Advances s (.pressed machine wake) (s.power machine wake) := by
  refine h.advances_of_subset (fun _ _ => nofun) fun d hd => ?_
  unfold DashboardState.power at hd
  split at hd
  · exact Or.inl hd
  next hfree =>
  rcases List.mem_append.mp hd with hd | hd
  · exact Or.inl hd
  · refine Or.inr fun c hc hmac => hfree ?_
    rw [List.mem_singleton.mp hd] at hmac
    rw [(h.listed machine.mac c.wake).mpr ⟨c, hc, hmac.symm, rfl⟩]
    rfl

theorem CommandsListed.advances_commandAnswered {s : DashboardState} (h : CommandsListed s)
    (i : ℕ) (answer : Except String String) (time : String) :
    Advances s (.commandAnswered i answer time) (s.commandAnswered i answer time) := by
  have h' := h.commandAnswered i answer time
  revert h'
  unfold DashboardState.commandAnswered
  split
  · next machine wake hc =>
    intro h'
    have hanswered : answered s (.commandAnswered i answer time) =
        some ⟨machine, wake, .sending⟩ := by
      rw [answered, hc]
      rfl
    cases answer with
    | error error => exact h.advances_finish hc hanswered rfl
    | ok message =>
      have hfewer : (Phase.waiting 20).remaining < Phase.sending.remaining := by decide
      exact h.advances_await h' hc hanswered hfewer rfl
  · next hother =>
    intro _
    refine h.advances_of_eq (fun c hc => ?_) rfl
    obtain ⟨hget, hphase⟩ := Option.filter_eq_some_iff.mp hc
    obtain ⟨machine, wake, phase⟩ := c
    cases of_decide_eq_true hphase
    exact hother machine wake hget

theorem CommandsListed.advances_statusAnswered {s : DashboardState} (h : CommandsListed s)
    (i : ℕ) (answer : Except String Bool) :
    Advances s (.statusAnswered i answer) (s.statusAnswered i answer) := by
  have h' := h.statusAnswered i answer
  revert h'
  unfold DashboardState.statusAnswered
  split
  · next machine wake attempts hc =>
    intro h'
    have hanswered : answered s (.statusAnswered i answer) =
        some ⟨machine, wake, .waiting attempts⟩ := by
      rw [answered, hc]
      rfl
    split
    · exact h.advances_finish hc hanswered rfl
    · split
      · exact h.advances_finish hc hanswered rfl
      · next hconfirmed hmore =>
        rw [if_neg hconfirmed, if_neg hmore] at h'
        exact h.advances_await h' hc hanswered (by show attempts - 1 < attempts; omega) rfl
  · next hother =>
    intro _
    refine h.advances_of_eq (fun c hc => ?_) rfl
    obtain ⟨hget, hphase⟩ := Option.filter_eq_some_iff.mp hc
    obtain ⟨machine, wake, phase⟩ := c
    cases phase with
    | sending => exact absurd rfl (of_decide_eq_true hphase)
    | waiting attempts => exact hother machine wake attempts hget

theorem CommandsListed.advances {s : DashboardState} (h : CommandsListed s) (e : Event) :
    Advances s e (Dashboard.step s e) := by
  cases e with
  | pressed machine wake => exact h.advances_power machine wake
  | commandAnswered i answer time => exact h.advances_commandAnswered i answer time
  | statusAnswered i answer => exact h.advances_statusAnswered i answer
  | pollStarted =>
    refine h.advances_of_eq (fun _ => nofun) ?_
    show s.startPoll.commands = s.commands
    unfold startPoll
    split <;> rfl
  | pollAnswered answers =>
    refine h.advances_of_eq (fun _ => nofun) ?_
    show (s.pollAnswered answers).commands = s.commands
    unfold DashboardState.pollAnswered
    split <;> rfl
  | saved originalMac machine creating time => exact h.advances_of_eq (fun _ => nofun) rfl
  | deleted machine time => exact h.advances_of_eq (fun _ => nofun) rfl
  | refreshed => exact h.advances_of_eq (fun _ => nofun) rfl
  | machinesAnswered answer => cases answer <;> exact h.advances_of_eq (fun _ => nofun) rfl
  | notified message error => exact h.advances_of_eq (fun _ => nofun) rfl
  | toastTimeout id =>
    refine h.advances_of_eq (fun _ => nofun) ?_
    show (s.clearToast id).commands = s.commands
    unfold clearToast
    split <;> rfl

/-- A command that stays in flight gets fewer answers than it still waits for. -/
theorem CommandsListed.answerCount_lt {mac : String} {s : DashboardState} (h : CommandsListed s)
    {c : Command} (hc : s.commandFor mac = some c) {es : List Event}
    (hpending : Along Dashboard.step
      (fun s e => ((Dashboard.step s e).pending.lookup mac).isSome) s es) :
    answerCount mac s es < c.phase.remaining := by
  induction es generalizing s c with
  | nil =>
    cases hphase : c.phase with
    | sending => exact Nat.succ_pos 20
    | waiting n => exact (h.attempts c ((h.commandFor_eq_some).mp hc).1 n hphase).1
  | cons e es ih =>
    obtain ⟨hcmem, hcmac⟩ := h.commandFor_eq_some.mp hc
    obtain ⟨wake, hwake⟩ := Option.isSome_iff_exists.mp hpending.1
    obtain ⟨d, hd, hdmac, -⟩ := ((h.step e).listed mac wake).mp hwake
    have hrest := ih (h.step e) ((h.step e).commandFor_eq_some.mpr ⟨hd, hdmac⟩) hpending.2
    have hfirst := h.advances e c hcmem d hd (hdmac.trans hcmac.symm)
    have hcount : ((answered s e).map fun c => c.machine.mac) = some mac →
        answered s e = some c := by
      intro hmap
      obtain ⟨b, hb, hbmac⟩ := Option.map_eq_some_iff.mp hmap
      have hbmem : b ∈ s.commands := by
        cases e <;> first
          | exact List.mem_of_getElem? (Option.filter_eq_some_iff.mp hb).1
          | cases hb
      rw [hb, List.inj_on_of_nodup_map h.distinct hbmem hcmem (hbmac.trans hcmac.symm)]
    rw [answerCount]
    split
    · next hanswered =>
      rw [if_pos (hcount hanswered)] at hfirst
      omega
    · omega

end DashboardState

/-- **A command ends.**  While the buttons of a machine wait for a command, its task gets at most
twenty answers: the one to the command and those to its status requests but the last. -/
theorem answerCount_le_of_pending (es fs : List Event) (mac : String)
    (hpending : ((run es).pending.lookup mac).isSome)
    (hstays : Along step (fun s e => ((step s e).pending.lookup mac).isSome) (run es) fs) :
    answerCount mac (run es) fs ≤ 20 := by
  have h := DashboardState.commandsListed_run es
  obtain ⟨wake, hwake⟩ := Option.isSome_iff_exists.mp hpending
  obtain ⟨c, hc, hmac, -⟩ := (h.listed mac wake).mp hwake
  have hlt := h.answerCount_lt (h.commandFor_eq_some.mpr ⟨hc, hmac⟩) hstays
  have hbound : c.phase.remaining ≤ 21 := by
    cases hphase : c.phase with
    | sending => exact le_rfl
    | waiting n => exact (h.attempts c hc n hphase).2.trans (by omega)
  omega

/-- The bound is reached: the command is accepted, and the machine stays off. -/
theorem twenty_answers_while_pending :
    ((run [.pressed mediaServer true]).pending.lookup mediaServer.mac).isSome ∧
      answerCount mediaServer.mac (run [.pressed mediaServer true])
        (.commandAnswered 0 (.ok "sent") "10:00" ::
          List.replicate 19 (.statusAnswered 0 (.ok false))) = 20 ∧
      answerCount mediaServer.mac (run [.pressed mediaServer true])
        (.commandAnswered 0 (.ok "sent") "10:00" ::
          List.replicate 19 (.statusAnswered 0 (.ok false))) ≤ 20 := by
  have hpending : ((run [.pressed mediaServer true]).pending.lookup mediaServer.mac).isSome := by
    decide +kernel
  refine ⟨hpending, by decide +kernel, ?_⟩
  exact answerCount_le_of_pending [.pressed mediaServer true] _ mediaServer.mac hpending
    (by decide +kernel)

/-! ## Polling -/

/-- What an answer to a status request confirms: a machine has the status that its command asked
for. -/
def confirmedBy (s : DashboardState) (i : ℕ) (answer : Except String Bool) :
    Option (String × Bool) :=
  match s.commands[i]? with
  | some ⟨machine, wake, .waiting _⟩ =>
    if answer.toOption = some wake then some (machine.mac, wake) else none
  | _ => none

/-- What an event confirms. -/
def confirmed (s : DashboardState) : Event → Option (String × Bool)
  | .statusAnswered i answer => confirmedBy s i answer
  | _ => none

/-- The events after which what an older round of requests found is out of date: a command is
sent or confirmed, a machine is saved or deleted. -/
def outdatesPoll (s : DashboardState) : Event → Bool
  | .pressed machine _ => (s.pending.lookup machine.mac).isNone
  | .statusAnswered i answer => (confirmedBy s i answer).isSome
  | .saved .. => true
  | .deleted .. => true
  | _ => false

namespace DashboardState

theorem confirmedBy_eq_some {s : DashboardState} {i : ℕ} {answer : Except String Bool}
    {mac : String} {wake : Bool} :
    confirmedBy s i answer = some (mac, wake) ↔
      ∃ machine attempts, s.commands[i]? = some ⟨machine, wake, .waiting attempts⟩ ∧
        machine.mac = mac ∧ answer.toOption = some wake := by
  unfold confirmedBy
  split
  · next machine wake' attempts hc =>
    rw [hc]
    split
    · next hanswer =>
      simp only [Option.some.injEq, Prod.mk.injEq, Command.mk.injEq, Phase.waiting.injEq]
      constructor
      · rintro ⟨hmac, rfl⟩
        exact ⟨machine, attempts, ⟨rfl, rfl, rfl⟩, hmac, hanswer⟩
      · rintro ⟨_, _, ⟨rfl, rfl, rfl⟩, hmac, -⟩
        exact ⟨hmac, rfl⟩
    · next hanswer =>
      refine iff_of_false nofun ?_
      rintro ⟨_, _, hget, -, hx⟩
      cases hget
      exact hanswer hx
  · next hother =>
    refine iff_of_false nofun ?_
    rintro ⟨machine, attempts, hget, -⟩
    exact hother machine wake attempts hget

/-- What an answer to a status request does to the epoch and the statuses. -/
theorem statusAnswered_cases (s : DashboardState) (i : ℕ) (answer : Except String Bool) :
    (∃ mac wake, confirmedBy s i answer = some (mac, wake) ∧
      (s.statusAnswered i answer).statusEpoch = s.statusEpoch + 1 ∧
      (s.statusAnswered i answer).statuses = s.statuses.insert mac (confirmedStatus wake)) ∨
    (confirmedBy s i answer = none ∧
      (s.statusAnswered i answer).statusEpoch = s.statusEpoch ∧
      (s.statusAnswered i answer).statuses = s.statuses) := by
  unfold DashboardState.statusAnswered
  split
  · next machine wake attempts hc =>
    split
    · next hanswer =>
      refine Or.inl ⟨machine.mac, wake, ?_, rfl, rfl⟩
      exact confirmedBy_eq_some.mpr ⟨machine, attempts, hc, rfl, hanswer⟩
    · next hanswer =>
      have hnone : confirmedBy s i answer = none := by
        simp only [confirmedBy, hc, if_neg hanswer]
      split <;> exact Or.inr ⟨hnone, rfl, rfl⟩
  · next hother =>
    refine Or.inr ⟨?_, rfl, rfl⟩
    unfold confirmedBy
    split
    · next machine wake attempts hc => exact absurd hc (hother machine wake attempts)
    · rfl

theorem commandAnswered_statuses (s : DashboardState) (i : ℕ) (answer : Except String String)
    (time : String) :
    (s.commandAnswered i answer time).statusEpoch = s.statusEpoch ∧
      (s.commandAnswered i answer time).statuses = s.statuses ∧
      (s.commandAnswered i answer time).poll = s.poll := by
  unfold DashboardState.commandAnswered
  split
  · cases answer <;> exact ⟨rfl, rfl, rfl⟩
  · exact ⟨rfl, rfl, rfl⟩

/-- The epoch counts the events that outdate a round of requests. -/
theorem statusEpoch_step (s : DashboardState) (e : Event) :
    (Dashboard.step s e).statusEpoch =
      s.statusEpoch + (if outdatesPoll s e then 1 else 0) := by
  cases e with
  | pressed machine wake =>
    show (s.power machine wake).statusEpoch = _
    have houtdates : outdatesPoll s (.pressed machine wake) =
        (s.pending.lookup machine.mac).isNone := rfl
    rw [houtdates, DashboardState.power]
    cases hpending : s.pending.lookup machine.mac <;> rfl
  | commandAnswered i answer time => exact (commandAnswered_statuses s i answer time).1
  | statusAnswered i answer =>
    show (s.statusAnswered i answer).statusEpoch = _
    have houtdates : outdatesPoll s (.statusAnswered i answer) = (confirmedBy s i answer).isSome :=
      rfl
    rw [houtdates]
    rcases statusAnswered_cases s i answer with ⟨mac, wake, hsome, hepoch, -⟩ | ⟨hnone, hepoch, -⟩
    · rw [hepoch, hsome]
      rfl
    · rw [hepoch, hnone]
      rfl
  | pollStarted =>
    show s.startPoll.statusEpoch = _
    unfold startPoll
    split <;> rfl
  | pollAnswered answers =>
    show (s.pollAnswered answers).statusEpoch = _
    unfold DashboardState.pollAnswered
    split <;> rfl
  | saved originalMac machine creating time => rfl
  | deleted machine time => rfl
  | refreshed => rfl
  | machinesAnswered answer => cases answer <;> rfl
  | notified message error => rfl
  | toastTimeout id =>
    show (s.clearToast id).statusEpoch = _
    unfold clearToast
    split <;> rfl

theorem statusEpoch_le_step (s : DashboardState) (e : Event) :
    s.statusEpoch ≤ (Dashboard.step s e).statusEpoch := by
  rw [statusEpoch_step]
  exact Nat.le_add_right _ _

/-- The epoch stands still along the runs that outdate nothing. -/
theorem statusEpoch_exec_eq_iff (s : DashboardState) (es : List Event) :
    (exec Dashboard.step s es).statusEpoch = s.statusEpoch ↔
      Along Dashboard.step (fun s e => outdatesPoll s e = false) s es := by
  rw [Version.exec_eq_iff statusEpoch_le_step]
  refine along_congr (P := fun _ => True) (fun _ _ _ => trivial) (fun t e _ => ?_) trivial es
  rw [statusEpoch_step]
  cases outdatesPoll t e <;> simp

/-- Rounds of status requests begin and end at their own events. -/
theorem poll_step_eq (s : DashboardState) {e : Event} (hstart : e ≠ .pollStarted)
    (hanswer : ∀ answers, e ≠ .pollAnswered answers) : (Dashboard.step s e).poll = s.poll := by
  cases e with
  | pressed machine wake =>
    show (s.power machine wake).poll = _
    unfold DashboardState.power
    split <;> rfl
  | commandAnswered i answer time => exact (commandAnswered_statuses s i answer time).2.2
  | statusAnswered i answer =>
    show (s.statusAnswered i answer).poll = _
    unfold DashboardState.statusAnswered
    split
    · split
      · rfl
      · split <;> rfl
    · rfl
  | pollStarted => exact absurd rfl hstart
  | pollAnswered answers => exact absurd rfl (hanswer answers)
  | saved originalMac machine creating time => rfl
  | deleted machine time => rfl
  | refreshed => rfl
  | machinesAnswered answer => cases answer <;> rfl
  | notified message error => rfl
  | toastTimeout id =>
    show (s.clearToast id).poll = _
    unfold clearToast
    split <;> rfl

theorem poll_pollStarted (s : DashboardState) :
    (Dashboard.step s .pollStarted).poll = some (s.poll.getD ⟨s.statusEpoch, s.machines⟩) := by
  show s.startPoll.poll = _
  unfold startPoll
  cases hp : s.poll with
  | none => rfl
  | some p => exact hp

theorem poll_pollAnswered (s : DashboardState) (answers : ℕ → Except String Bool) :
    (Dashboard.step s (.pollAnswered answers)).poll = none := by
  show (s.pollAnswered answers).poll = none
  unfold DashboardState.pollAnswered
  split
  · rfl
  · next hp => exact hp

/-- The round in flight goes on until it is answered. -/
theorem poll_exec {s : DashboardState} {p : Poll} (hp : s.poll = some p) {es : List Event}
    (hes : ∀ answers, Event.pollAnswered answers ∉ es) :
    (exec Dashboard.step s es).poll = some p := by
  induction es generalizing s with
  | nil => exact hp
  | cons e es ih =>
    refine ih ?_ fun answers hmem => hes answers (List.mem_cons_of_mem _ hmem)
    by_cases hstart : e = .pollStarted
    · rw [hstart, poll_pollStarted, hp, Option.getD_some]
    · rw [poll_step_eq s hstart fun answers he => hes answers (he ▸ List.mem_cons_self), hp]

end DashboardState

/-- **What a round of status requests may show.**  The answers of a round are shown exactly when no
command was sent or confirmed and no machine was saved or deleted while it ran; otherwise the
statuses stay as the events of that time left them. -/
theorem statuses_pollAnswered (s : DashboardState) (es : List Event)
    (answers : ℕ → Except String Bool) (hidle : s.poll = none)
    (hruns : ∀ others, Event.pollAnswered others ∉ es) :
    (step (exec step s (.pollStarted :: es)) (.pollAnswered answers)).statuses =
      if Along step (fun s e => outdatesPoll s e = false) (step s .pollStarted) es then
        DashboardState.polledStatuses s.machines answers
      else (exec step s (.pollStarted :: es)).statuses := by
  have hstart : (step s .pollStarted).poll = some ⟨s.statusEpoch, s.machines⟩ := by
    show s.startPoll.poll = _
    unfold DashboardState.startPoll
    rw [hidle]
  have hepoch : (step s .pollStarted).statusEpoch = s.statusEpoch :=
    DashboardState.statusEpoch_step s .pollStarted
  have hpoll := DashboardState.poll_exec hstart hruns
  rw [exec_cons]
  show (DashboardState.pollAnswered answers (exec step (step s .pollStarted) es)).statuses = _
  unfold DashboardState.pollAnswered
  rw [hpoll]
  refine if_congr ?_ rfl rfl
  rw [← DashboardState.statusEpoch_exec_eq_iff, hepoch]
  exact eq_comm

/-- A round during which a command is sent is not shown. -/
theorem round_overtaken_by_command :
    (step (exec step (run [.machinesAnswered (.ok [mediaServer])])
        [.pollStarted, .pressed mediaServer true]) (.pollAnswered fun _ => .ok true)).statuses =
      (exec step (run [.machinesAnswered (.ok [mediaServer])])
        [.pollStarted, .pressed mediaServer true]).statuses := by
  have hshown := statuses_pollAnswered (run [.machinesAnswered (.ok [mediaServer])])
    [.pressed mediaServer true] (fun _ => .ok true) rfl (by simp)
  rw [if_neg] at hshown
  · exact hshown
  · rintro ⟨hcommand, -⟩
    exact absurd hcommand (by decide +kernel)

/-! ## A confirmed status stays -/

namespace DashboardState

/-- Only a confirmation and the answers of an up-to-date round touch the statuses. -/
theorem statuses_step (s : DashboardState) {e : Event}
    (hround : (∀ answers, e ≠ .pollAnswered answers) ∨ ∀ p, s.poll = some p →
      p.epoch ≠ s.statusEpoch) :
    (Dashboard.step s e).statuses =
      match confirmed s e with
      | some (mac, wake) => s.statuses.insert mac (confirmedStatus wake)
      | none => s.statuses := by
  cases e with
  | pressed machine wake =>
    show (s.power machine wake).statuses = _
    unfold DashboardState.power
    split <;> rfl
  | commandAnswered i answer time => exact (commandAnswered_statuses s i answer time).2.1
  | statusAnswered i answer =>
    show (s.statusAnswered i answer).statuses = match confirmedBy s i answer with
      | some (mac, wake) => s.statuses.insert mac (confirmedStatus wake)
      | none => s.statuses
    rcases statusAnswered_cases s i answer with
      ⟨mac, wake, hsome, -, hstatuses⟩ | ⟨hnone, -, hstatuses⟩
    · rw [hstatuses, hsome]
    · rw [hstatuses, hnone]
  | pollStarted =>
    show s.startPoll.statuses = _
    unfold startPoll
    split <;> rfl
  | pollAnswered answers =>
    show (s.pollAnswered answers).statuses = _
    unfold DashboardState.pollAnswered
    split
    · next p hp => exact if_neg ((hround.resolve_left fun h => h answers rfl) p hp)
    · rfl
  | saved originalMac machine creating time => rfl
  | deleted machine time => rfl
  | refreshed => rfl
  | machinesAnswered answer => cases answer <;> rfl
  | notified message error => rfl
  | toastTimeout id =>
    show (s.clearToast id).statuses = _
    unfold clearToast
    split <;> rfl

theorem lookup_statuses_step {s : DashboardState} {e : Event} {mac : String} {wake : Bool}
    (hround : (∀ answers, e ≠ .pollAnswered answers) ∨ ∀ p, s.poll = some p →
      p.epoch ≠ s.statusEpoch)
    (hother : confirmed s e ≠ some (mac, !wake))
    (h : s.statuses.lookup mac = some (confirmedStatus wake)) :
    (Dashboard.step s e).statuses.lookup mac = some (confirmedStatus wake) := by
  rw [statuses_step s hround]
  split
  · next mac' wake' hconfirmed =>
    rw [Dict.lookup_insert]
    split
    · next hmac =>
      rw [hconfirmed, hmac] at hother
      cases wake <;> cases wake' <;> first | rfl | exact absurd rfl hother
    · exact h
  · exact h

/-- The round in flight, if there is one, began in an epoch that satisfies the bound. -/
theorem poll_epoch_le_run (es : List Event) (p : Poll) (hp : (run es).poll = some p) :
    p.epoch ≤ (run es).statusEpoch := by
  refine exec_invariant_of_forall
    (P := fun s : DashboardState => ∀ p, s.poll = some p → p.epoch ≤ s.statusEpoch) es
    (fun _ hp => by cases hp) (fun s e h p hp => ?_) p hp
  have hle := statusEpoch_le_step s e
  by_cases hstart : e = .pollStarted
  · subst hstart
    rw [poll_pollStarted, Option.some.injEq] at hp
    subst hp
    cases hold : s.poll with
    | none => exact hle
    | some q => exact (h q hold).trans hle
  · by_cases hanswer : ∃ answers, e = .pollAnswered answers
    · obtain ⟨answers, rfl⟩ := hanswer
      rw [poll_pollAnswered] at hp
      cases hp
    · rw [poll_step_eq s hstart fun answers he => hanswer ⟨answers, he⟩] at hp
      exact (h p hp).trans hle

/-- The machine `mac` shows `wake`, and the round in flight is out of date. -/
structure Shows (mac : String) (wake : Bool) (s : DashboardState) : Prop where
  status : s.statuses.lookup mac = some (confirmedStatus wake)
  outdated : ∀ p, s.poll = some p → p.epoch < s.statusEpoch

theorem Shows.step {mac : String} {wake : Bool} {s : DashboardState} (h : Shows mac wake s)
    {e : Event} (hstart : e ≠ .pollStarted) (hother : confirmed s e ≠ some (mac, !wake)) :
    Shows mac wake (Dashboard.step s e) := by
  refine ⟨lookup_statuses_step (Or.inr fun p hp => (h.outdated p hp).ne) hother h.status, ?_⟩
  intro p hp
  by_cases hanswer : ∃ answers, e = .pollAnswered answers
  · obtain ⟨answers, rfl⟩ := hanswer
    rw [poll_pollAnswered] at hp
    cases hp
  · rw [poll_step_eq s hstart fun answers he => hanswer ⟨answers, he⟩] at hp
    exact (h.outdated p hp).trans_le (statusEpoch_le_step s e)

/-- Rounds that began earlier may be answered. -/
theorem Shows.exec {mac : String} {wake : Bool} {s : DashboardState} (h : Shows mac wake s)
    {es : List Event} (hstart : Event.pollStarted ∉ es)
    (hother : Along Dashboard.step (fun s e => confirmed s e ≠ some (mac, !wake)) s es) :
    Shows mac wake (exec Dashboard.step s es) := by
  induction es generalizing s with
  | nil => exact h
  | cons e es ih =>
    rw [List.mem_cons, not_or] at hstart
    exact ih (h.step (Ne.symm hstart.1) hother.1) hstart.2 hother.2

/-- Rounds that have not been answered may be in flight. -/
theorem lookup_statuses_exec {mac : String} {wake : Bool} {s : DashboardState}
    (h : s.statuses.lookup mac = some (confirmedStatus wake)) {es : List Event}
    (hanswer : ∀ answers, Event.pollAnswered answers ∉ es)
    (hother : Along Dashboard.step (fun s e => confirmed s e ≠ some (mac, !wake)) s es) :
    (exec Dashboard.step s es).statuses.lookup mac = some (confirmedStatus wake) := by
  induction es generalizing s with
  | nil => exact h
  | cons e es ih =>
    refine ih (lookup_statuses_step (Or.inl fun answers he => ?_) hother.1 h)
      (fun answers hmem => hanswer answers (List.mem_cons_of_mem _ hmem)) hother.2
    exact hanswer answers (he ▸ List.mem_cons_self)

/-- A confirmation outdates the round in flight. -/
theorem shows_statusAnswered (es : List Event) {i : ℕ} {answer : Except String Bool}
    {mac : String} {wake : Bool} (hconfirmed : confirmedBy (run es) i answer = some (mac, wake)) :
    Shows mac wake (Dashboard.step (run es) (.statusAnswered i answer)) := by
  show Shows mac wake ((run es).statusAnswered i answer)
  rcases statusAnswered_cases (run es) i answer with
    ⟨mac', wake', hsome, hepoch, hstatuses⟩ | ⟨hnone, -, -⟩
  · rw [hsome] at hconfirmed
    cases hconfirmed
    refine ⟨by rw [hstatuses, AList.lookup_insert], fun p hp => ?_⟩
    have hsame : ((run es).statusAnswered i answer).poll = (run es).poll :=
      poll_step_eq (run es) (e := .statusAnswered i answer) nofun nofun
    rw [hsame] at hp
    rw [hepoch]
    exact Nat.lt_succ_of_le (poll_epoch_le_run es p hp)
  · rw [hnone] at hconfirmed
    cases hconfirmed

end DashboardState

/-- **A confirmed status stays.**  Once a command of a machine is confirmed, the machine shows the
confirmed status until a round of status requests that began after the confirmation has been
answered, whatever the rounds begun before it, other commands, saves and deletions do. -/
theorem status_confirmed (es before after : List Event) (i : ℕ) (answer : Except String Bool)
    (mac : String) (wake : Bool) (hconfirmed : confirmedBy (run es) i answer = some (mac, wake))
    (hbefore : Event.pollStarted ∉ before)
    (hafter : ∀ answers, Event.pollAnswered answers ∉ after)
    (hother : Along step (fun s e => confirmed s e ≠ some (mac, !wake))
      (step (run es) (.statusAnswered i answer)) (before ++ after)) :
    (exec step (step (run es) (.statusAnswered i answer)) (before ++ after)).status mac =
      DashboardState.confirmedStatus wake := by
  obtain ⟨hfirst, hrest⟩ := along_append.mp hother
  have hshows := (DashboardState.shows_statusAnswered es hconfirmed).exec hbefore hfirst
  rw [exec_append, DashboardState.status,
    DashboardState.lookup_statuses_exec hshows.status hafter hrest, Option.getD_some]

/-- The machine wakes while an older round is in flight; the round's answer comes too late, and
the next round has not been answered. -/
theorem mediaServer_shown_online :
    (exec step (step (run [.machinesAnswered (.ok [mediaServer]), .pressed mediaServer true,
          .commandAnswered 0 (.ok "sent") "10:00", .pollStarted]) (.statusAnswered 0 (.ok true)))
        ([.pollAnswered fun _ => .ok false] ++ [.pollStarted])).status mediaServer.mac =
      DashboardState.confirmedStatus true :=
  status_confirmed _ [.pollAnswered fun _ => .ok false] [.pollStarted] 0 (.ok true)
    mediaServer.mac true (by decide +kernel) (by simp) (by simp)
    ⟨nofun, nofun, trivial⟩

/-! ## Notifications -/

/-- The event shows a notification. -/
def notifies (s : DashboardState) (e : Event) : Bool := (step s e).toastId ≠ s.toastId

namespace DashboardState

/-- What a step does about notifications: it shows one, a timer ends, or nothing. -/
theorem toast_step (s : DashboardState) (e : Event) :
    ((Dashboard.step s e).timers = s.timers ++ [s.toastId + 1] ∧
      (Dashboard.step s e).toastId = s.toastId + 1) ∨
    (∃ id, e = .toastTimeout id) ∨
    ((∀ id, e ≠ .toastTimeout id) ∧ (Dashboard.step s e).timers = s.timers ∧
      (Dashboard.step s e).toastId = s.toastId ∧ (Dashboard.step s e).toast = s.toast) := by
  cases e with
  | pressed machine wake =>
    refine Or.inr (Or.inr ⟨nofun, ?_⟩)
    show (s.power machine wake).timers = _ ∧ (s.power machine wake).toastId = _ ∧
      (s.power machine wake).toast = _
    unfold DashboardState.power
    split <;> exact ⟨rfl, rfl, rfl⟩
  | commandAnswered i answer time =>
    simp only [Dashboard.step]
    unfold DashboardState.commandAnswered
    split
    · cases answer <;> exact Or.inl ⟨rfl, rfl⟩
    · exact Or.inr (Or.inr ⟨nofun, rfl, rfl, rfl⟩)
  | statusAnswered i answer =>
    simp only [Dashboard.step]
    unfold DashboardState.statusAnswered
    split
    · split
      · exact Or.inl ⟨rfl, rfl⟩
      · split
        · exact Or.inl ⟨rfl, rfl⟩
        · exact Or.inr (Or.inr ⟨nofun, rfl, rfl, rfl⟩)
    · exact Or.inr (Or.inr ⟨nofun, rfl, rfl, rfl⟩)
  | pollStarted =>
    refine Or.inr (Or.inr ⟨nofun, ?_⟩)
    show s.startPoll.timers = _ ∧ s.startPoll.toastId = _ ∧ s.startPoll.toast = _
    unfold startPoll
    split <;> exact ⟨rfl, rfl, rfl⟩
  | pollAnswered answers =>
    refine Or.inr (Or.inr ⟨nofun, ?_⟩)
    show (s.pollAnswered answers).timers = _ ∧ (s.pollAnswered answers).toastId = _ ∧
      (s.pollAnswered answers).toast = _
    unfold DashboardState.pollAnswered
    split <;> exact ⟨rfl, rfl, rfl⟩
  | saved originalMac machine creating time => exact Or.inr (Or.inr ⟨nofun, rfl, rfl, rfl⟩)
  | deleted machine time => exact Or.inl ⟨rfl, rfl⟩
  | refreshed => exact Or.inr (Or.inr ⟨nofun, rfl, rfl, rfl⟩)
  | machinesAnswered answer => cases answer <;> exact Or.inr (Or.inr ⟨nofun, rfl, rfl, rfl⟩)
  | notified message error => exact Or.inl ⟨rfl, rfl⟩
  | toastTimeout id => exact Or.inr (Or.inl ⟨id, rfl⟩)

/-- Every notification has a timer of its own, and the timers in flight are those of this and of
earlier notifications. -/
structure TimersOwned (s : DashboardState) : Prop where
  distinct : s.timers.Nodup
  bound : ∀ id ∈ s.timers, id ≤ s.toastId
  shown : s.toast.isSome → s.toastId ∈ s.timers

theorem TimersOwned.clearToast {s : DashboardState} (h : TimersOwned s) (id : ℕ) :
    TimersOwned (s.clearToast id) := by
  unfold DashboardState.clearToast
  split
  · next hmem =>
    refine ⟨h.distinct.erase id, fun id' hid' => h.bound id' (List.mem_of_mem_erase hid'), ?_⟩
    show (if s.toastId = id then none else s.toast).isSome → s.toastId ∈ s.timers.erase id
    split
    · exact nofun
    · next hne => exact fun hshown => (List.mem_erase_of_ne hne).mpr (h.shown hshown)
  · exact h

theorem TimersOwned.step {s : DashboardState} (h : TimersOwned s) (e : Event) :
    TimersOwned (Dashboard.step s e) := by
  rcases toast_step s e with ⟨htimers, hid⟩ | ⟨id, rfl⟩ | ⟨-, htimers, hid, htoast⟩
  · constructor
    · rw [htimers, List.nodup_append]
      refine ⟨h.distinct, List.nodup_singleton _, fun id hmem _ hnew heq => ?_⟩
      have := h.bound id hmem
      rw [List.mem_singleton] at hnew
      omega
    · intro id hmem
      rw [htimers, List.mem_append, List.mem_singleton] at hmem
      rw [hid]
      rcases hmem with hmem | rfl
      · exact (h.bound id hmem).trans (Nat.le_succ _)
      · exact le_rfl
    · intro _
      rw [htimers, hid]
      exact List.mem_append_right _ List.mem_cons_self
  · exact h.clearToast id
  · constructor
    · rw [htimers]
      exact h.distinct
    · rw [htimers, hid]
      exact h.bound
    · rw [htimers, hid, htoast]
      exact h.shown

theorem timersOwned_run (es : List Event) : TimersOwned (run es) :=
  exec_invariant_of_forall es ⟨List.nodup_nil, fun _ h => absurd h List.not_mem_nil, nofun⟩
    fun _ e h => h.step e

/-- The timer of a notification clears the one that it belongs to. -/
theorem clearToast_toast {s : DashboardState} (h : TimersOwned s) (id : ℕ) :
    (s.clearToast id).toastId = s.toastId ∧
      (s.clearToast id).toast = if id = s.toastId then none else s.toast := by
  unfold DashboardState.clearToast
  split
  · exact ⟨rfl, if_congr eq_comm rfl rfl⟩
  · next hmem =>
    refine ⟨rfl, ?_⟩
    split
    · next hid =>
      -- a notification that is shown would have its timer in flight
      rw [hid] at hmem
      exact Option.not_isSome_iff_eq_none.mp fun hshown => hmem (h.shown hshown)
    · rfl

/-- The notification after a run that shows none. -/
theorem TimersOwned.toast_exec {s : DashboardState} (h : TimersOwned s) {es : List Event}
    (hquiet : Along Dashboard.step (fun s e => notifies s e = false) s es) :
    (Event.toastTimeout s.toastId ∈ es → (exec Dashboard.step s es).toast = none) ∧
      (Event.toastTimeout s.toastId ∉ es → (exec Dashboard.step s es).toast = s.toast) := by
  induction es generalizing s with
  | nil => exact ⟨fun hmem => absurd hmem List.not_mem_nil, fun _ => rfl⟩
  | cons e es ih =>
    have hkept : (Dashboard.step s e).toastId = s.toastId :=
      Decidable.not_not.mp (of_decide_eq_false hquiet.1)
    obtain ⟨hends, hstays⟩ := ih (h.step e) hquiet.2
    rw [hkept] at hends hstays
    simp only [exec_cons, List.mem_cons, not_or]
    rcases toast_step s e with ⟨-, hid⟩ | ⟨id, rfl⟩ | ⟨hother, -, -, htoast⟩
    · omega
    · have htoast : (Dashboard.step s (.toastTimeout id)).toast =
          if id = s.toastId then none else s.toast := (clearToast_toast h id).2
      rw [htoast] at hstays
      refine ⟨fun hmem => ?_, fun hmem => ?_⟩
      · by_cases hlater : Event.toastTimeout s.toastId ∈ es
        · exact hends hlater
        · rw [hstays hlater, if_pos (Event.toastTimeout.inj (hmem.resolve_right hlater)).symm]
      · rw [hstays hmem.2, if_neg fun hid => hmem.1 (by rw [hid])]
    · rw [htoast] at hstays
      refine ⟨fun hmem => hends (hmem.resolve_left fun heq => hother _ heq.symm), fun hmem => ?_⟩
      exact hstays hmem.2

end DashboardState

/-- **A notification is shown for its own time.**  Until another one is shown, a notification stays
until its own timer ends, whatever the timers of earlier ones do; and that timer is still to
end as long as the notification is shown. -/
theorem toast_until_timeout (es fs : List Event)
    (hquiet : Along step (fun s e => notifies s e = false) (run es) fs) :
    (Event.toastTimeout (run es).toastId ∈ fs → (exec step (run es) fs).toast = none) ∧
      (Event.toastTimeout (run es).toastId ∉ fs →
        (exec step (run es) fs).toast = (run es).toast) ∧
      ((run es).toast.isSome → (run es).toastId ∈ (run es).timers) := by
  have h := DashboardState.timersOwned_run es
  obtain ⟨hends, hstays⟩ := h.toast_exec hquiet
  exact ⟨hends, hstays, h.shown⟩

/-- The timer of the first notification leaves the second one alone. -/
theorem second_notification_kept :
    (exec step (run [.notified "Machine saved." false, .notified "Command failed." true])
      [.toastTimeout 1]).toast = some ("Command failed.", true) := by
  have h := toast_until_timeout
    [.notified "Machine saved." false, .notified "Command failed." true] [.toastTimeout 1]
    (by decide +kernel)
  have hid : (run [.notified "Machine saved." false, .notified "Command failed." true]).toastId =
      2 := rfl
  rw [h.2.1 (by rw [hid]; simp)]
  rfl

end Dashboard

end Wakezilla
