/-
# The page and the proxy

The web dashboard fetches the list of machines once and then keeps it by itself: when a save or
a deletion has succeeded, it repeats the change on its own list.  Here its page runs next to the
proxy.  Requests are under way, the proxy handles them in any order, each answer may get lost, and
those that come arrive in any order, too; the user closes dialogs before their answers come and
opens others.

What a machine dialog sends to save or delete its machine, and how it waits, are those of
`MachineDialog`; its other requests only read (`load_setup`, the history), and nothing here waits
for them.  The tasks of the dashboard that send other requests run beside it.
-/
import Wakezilla.Dashboard
import Wakezilla.MachineForm

namespace Wakezilla

open Dashboard MachineForm

/-! ## Answers -/

/-- The label of a field in `response_error`. -/
def fieldLabel (field : String) : String :=
  if field = "name" then "Name"
  else if field = "mac" then "MAC address"
  else if field = "ip" then "IP address"
  else if field = "turn_off_port" then "Client port"
  else if field = "port_forwards" then "Services"
  else field

/-- `response_error`; the fields of a JSON object come in the order of their names. -/
def responseError (status : ℕ) : ResponseBody → String
  | .errors errors =>
    let fields := errors.entries.mergeSort fun a b => !decide (b.1 < a.1)
    ". ".intercalate (fields.map fun field =>
      fieldLabel field.1 ++ ": " ++ ", ".intercalate field.2)
  | .error message => message
  | _ => "The operation could not be completed (HTTP " ++ status.repr ++ ")."

/-- `decode_response`, of an answer whose value is not used. -/
def decodeResponse (response : Response) : Except String Unit :=
  if 200 ≤ response.code && response.code ≤ 299 then .ok ()
  else .error (responseError response.code response.body)

/-! ## The page -/

/-- A request of the page on its way to the proxy, with the number of its dialog. -/
inductive PageRequest
  | save (dialog : ℕ) (form : FormSave)
  | delete (dialog : ℕ) (machine : Api.Machine)
  | fetch
  deriving DecidableEq, Repr

/-- The result of a request on its way back. -/
inductive PageAnswer
  | saved (dialog : ℕ) (form : FormSave) (result : Except String Unit)
  | deleted (dialog : ℕ) (machine : Api.Machine) (result : Except String Unit)
  | fetched (result : Except String (List Api.Machine))

/-- The page, its proxy, and what is under way between the two.  Dialogs have numbers, and
`opened` is that of the last one. -/
structure Page where
  proxy : Proxy
  dashboard : DashboardState
  opened : ℕ
  dialog : Option MachineDialog
  requests : List PageRequest
  answers : List PageAnswer

/-- What can happen next.  `dashboard` is for the tasks that send no request of `PageRequest`;
`broken` is the message of a request whose answer gets lost, `lost` a request that does not
arrive, and `arrived` has the place of the answer among those under way. -/
inductive PageEvent
  | proxy (event : ProxyEvent)
  | dashboard (event : Dashboard.Event)
  | opened (machine : Api.Machine) (creating : Bool)
  | edited (draft : Api.Machine) (services : List ServiceDraft)
  | closed
  | submitted
  | deletePressed
  | refreshed
  | served (i : ℕ) (random : Vector UInt8 32) (fault : SaveFault) (now : Instant)
      (broken : Option String)
  | lost (i : ℕ) (message : String)
  | arrived (i : ℕ) (time : String)

/-- The result of a request that has failed on the way. -/
def PageRequest.failed (message : String) : PageRequest → PageAnswer
  | .save dialog form => .saved dialog form (.error message)
  | .delete dialog machine => .deleted dialog machine (.error message)
  | .fetch => .fetched (.error message)

/-- The proxy handles a request. -/
def PageRequest.handle (libs : Externals) (random : Vector UInt8 32) (fault : SaveFault)
    (now : Instant) (s : Proxy) : PageRequest → PageAnswer × Proxy
  | .save dialog form =>
    let handled :=
      if form.isNew then addMachineApi libs form.machine.toPayload random fault now s
      else updateMachineApi libs form.originalMac form.machine.toPayload random fault now s
    (.saved dialog form (decodeResponse handled.1), handled.2)
  | .delete dialog machine =>
    let handled := deleteMachineApi libs ⟨machine.mac⟩ fault s
    (.deleted dialog machine (decodeResponse handled.1), handled.2)
  | .fetch => (.fetched (.ok (s.machines.map machineToApiMachine)), s)

namespace Page

/-- The dialog with the number `n`, if it is still open. -/
def shown (n : ℕ) (p : Page) : Option MachineDialog := if n = p.opened then p.dialog else none

/-- An error is shown in the dialog, or in a notification if that is closed. -/
def reject (n : ℕ) (message : String) (p : Page) : Page :=
  match p.shown n with
  | some d => { p with dialog := some (d.failed message) }
  | none => { p with dashboard := p.dashboard.notify message true }

/-- The rest of a task, when the result of its request is there. -/
def receive (time : String) (p : Page) : PageAnswer → Page
  | .saved n form (.ok ()) =>
    let dashboard :=
      Dashboard.step p.dashboard (.saved form.originalMac form.machine form.isNew time)
    match p.shown n with
    | some d => { p with dashboard, dialog := some (d.saved form.machine) }
    | none => { p with dashboard := dashboard.notify "Machine saved." false }
  | .deleted n machine (.ok ()) =>
    { p with
      dashboard := Dashboard.step p.dashboard (.deleted machine time)
      dialog := if (p.shown n).isSome then none else p.dialog }
  | .fetched result => { p with dashboard := p.dashboard.machinesAnswered result }
  | .saved n _ (.error message) => p.reject n message
  | .deleted n _ (.error message) => p.reject n message

/-- A button of the dialog: what it does there, and the request it sends. -/
def press {α : Type} (button : MachineDialog → MachineDialog × Option α)
    (request : ℕ → α → PageRequest) (p : Page) : Page :=
  match p.dialog with
  | none => p
  | some d =>
    { p with
      dialog := some (button d).1
      requests := p.requests ++ ((button d).2.map (request p.opened)).toList }

/-- The request at `i` is handled, and its result sent back or lost. -/
def serve (libs : Externals) (i : ℕ) (random : Vector UInt8 32) (fault : SaveFault)
    (now : Instant) (broken : Option String) (p : Page) : Page :=
  match p.requests[i]? with
  | none => p
  | some request =>
    let handled := request.handle libs random fault now p.proxy
    { p with
      proxy := handled.2
      requests := p.requests.eraseIdx i
      answers := p.answers ++ [match broken with
        | none => handled.1
        | some message => request.failed message] }

/-- The request at `i` does not arrive. -/
def lose (i : ℕ) (message : String) (p : Page) : Page :=
  match p.requests[i]? with
  | none => p
  | some request =>
    { p with
      requests := p.requests.eraseIdx i
      answers := p.answers ++ [request.failed message] }

/-- One event. -/
def step (libs : Externals) (cases : CaseMapping) (p : Page) : PageEvent → Page
  | .proxy event => { p with proxy := Wakezilla.step libs p.proxy event }
  | .dashboard event =>
    match event with
    | .saved _ _ _ _ => p
    | .deleted _ _ => p
    | .refreshed => p
    | .machinesAnswered _ => p
    | event => { p with dashboard := Dashboard.step p.dashboard event }
  | .opened machine creating =>
    { p with opened := p.opened + 1, dialog := some (.new machine creating) }
  | .edited draft services =>
    { p with dialog := p.dialog.map fun d => if d.saving then d else { d with draft, services } }
  | .closed => { p with dialog := none }
  | .submitted => p.press (MachineDialog.submit cases) .save
  | .deletePressed => p.press MachineDialog.delete .delete
  | .refreshed => { p with dashboard := p.dashboard.refresh, requests := p.requests ++ [.fetch] }
  | .served i random fault now broken => p.serve libs i random fault now broken
  | .lost i message => p.lose i message
  | .arrived i time =>
    match p.answers[i]? with
    | none => p
    | some answer => { p with answers := p.answers.eraseIdx i }.receive time answer

/-- The page before its first event. -/
def start (proxy : Proxy) : Page := ⟨proxy, .new, 0, none, [], []⟩

/-- The page after the events `es`. -/
def run (libs : Externals) (cases : CaseMapping) (proxy : Proxy) (es : List PageEvent) : Page :=
  Run.exec (step libs cases) (start proxy) es

end Page

/-! ## What a step can do -/

namespace Page

/-- The rest of a task sends nothing and does not touch the proxy. -/
theorem receive_frame (time : String) (p : Page) (answer : PageAnswer) :
    p.receive time answer =
      { p with
        dashboard := (p.receive time answer).dashboard
        dialog := (p.receive time answer).dialog } := by
  have hreject : ∀ n message, p.reject n message =
      { p with
        dashboard := (p.reject n message).dashboard
        dialog := (p.reject n message).dialog } := by
    intro n message
    unfold reject
    split <;> rfl
  cases answer with
  | saved n form result =>
    cases result with
    | error message => exact hreject n message
    | ok value =>
      unfold receive
      simp only []
      split <;> rfl
  | deleted n machine result =>
    cases result with
    | error message => exact hreject n message
    | ok value => rfl
  | fetched result => rfl

/-- The tasks of the dashboard that send no request of the page leave the list alone. -/
theorem dashboard_step_machines {s : DashboardState} {event : Dashboard.Event}
    (hsaved : ∀ mac machine creating time, event ≠ .saved mac machine creating time)
    (hdeleted : ∀ machine time, event ≠ .deleted machine time)
    (hanswered : ∀ answer, event ≠ .machinesAnswered answer) :
    (Dashboard.step s event).machines = s.machines := by
  cases event with
  | pressed machine wake =>
    show (s.power machine wake).machines = s.machines
    unfold DashboardState.power
    split <;> rfl
  | commandAnswered i answer time =>
    show (s.commandAnswered i answer time).machines = s.machines
    unfold DashboardState.commandAnswered
    split
    · split <;> rfl
    · rfl
  | statusAnswered i answer =>
    show (s.statusAnswered i answer).machines = s.machines
    unfold DashboardState.statusAnswered
    split
    · split
      · rfl
      split <;> rfl
    · rfl
  | pollStarted =>
    show s.startPoll.machines = s.machines
    unfold DashboardState.startPoll
    split <;> rfl
  | pollAnswered answers =>
    show (s.pollAnswered answers).machines = s.machines
    unfold DashboardState.pollAnswered
    split <;> rfl
  | saved mac machine creating time => exact absurd rfl (hsaved mac machine creating time)
  | deleted machine time => exact absurd rfl (hdeleted machine time)
  | refreshed => rfl
  | machinesAnswered answer => exact absurd rfl (hanswered answer)
  | notified message error => rfl
  | toastTimeout id =>
    show (s.clearToast id).machines = s.machines
    unfold DashboardState.clearToast
    split <;> rfl

/-- An event of the dashboard changes nothing else, and not its list. -/
theorem step_dashboard (libs : Externals) (cases : CaseMapping) (p : Page)
    (event : Dashboard.Event) :
    ∃ dashboard, dashboard.machines = p.dashboard.machines ∧
      p.step libs cases (.dashboard event) = { p with dashboard } := by
  unfold step
  simp only []
  split
  · exact ⟨p.dashboard, rfl, rfl⟩
  · exact ⟨p.dashboard, rfl, rfl⟩
  · exact ⟨p.dashboard, rfl, rfl⟩
  · exact ⟨p.dashboard, rfl, rfl⟩
  next hsaved hdeleted _ hanswered =>
  exact ⟨_, dashboard_step_machines hsaved hdeleted hanswered, rfl⟩

/-- A button may send a request, and changes nothing but its dialog. -/
theorem press_cases {α : Type} (button : MachineDialog → MachineDialog × Option α)
    (request : ℕ → α → PageRequest) (p : Page) :
    (p.dialog = none ∧ p.press button request = p) ∨
      ∃ d, p.dialog = some d ∧
        (((button d).2 = none ∧ p.press button request = { p with dialog := some (button d).1 }) ∨
          ∃ x, (button d).2 = some x ∧ p.press button request =
            { p with
              dialog := some (button d).1
              requests := p.requests ++ [request p.opened x] }) := by
  unfold press
  cases hd : p.dialog with
  | none => exact Or.inl ⟨rfl, rfl⟩
  | some d =>
    refine Or.inr ⟨d, rfl, ?_⟩
    cases hx : (button d).2 with
    | none =>
      refine Or.inl ⟨rfl, ?_⟩
      simp only [hx, Option.map_none, Option.toList_none, List.append_nil]
    | some x =>
      refine Or.inr ⟨x, rfl, ?_⟩
      simp only [hx, Option.map_some, Option.toList_some]

end Page

/-! ## A sample form -/

/-- The letters of ASCII have one upper case. -/
def asciiCases : CaseMapping := ⟨fun c => [c.toUpper], fun _ _ => rfl⟩

/-- A notebook, entered in the form. -/
def enteredNotebook : Api.Machine :=
  ⟨" notebook ", .notebook, "aa-bb-cc-dd-ee-03", "192.168.1.40", some " ", some 3001, true, 60, []⟩

end Wakezilla
