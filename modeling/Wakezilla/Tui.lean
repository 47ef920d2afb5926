/-
# The terminal dashboard

`App` and the event loop of `src/tui.rs`.  An iteration of the loop handles at most one
key and then refreshes the list of machines if the last refresh is 30 seconds old; what
the API answers is part of the iteration, so other clients may change the list between
any two answers.

The selection is an index.  While the question "Delete selected machine?" is open, a
refresh may replace the list under it, and the `y` that follows deletes whatever stands
at the index by then (`refresh_changes_target`).  `deletes_what_was_confirmed` says what
the refreshes must leave alone, and that nothing less is enough.
-/
import Wakezilla.ProxySystem

namespace Wakezilla

namespace Tui

/-! ## The dashboard -/

/-- `ServiceAccessHistory`. -/
structure ServiceAccessHistory where
  name : Option String
  localPort : UInt16
  targetPort : UInt16
  timestamps : List ℤ
  deriving DecidableEq, Repr

/-- `AccessHistory`. -/
structure AccessHistory where
  services : List ServiceAccessHistory
  deriving DecidableEq, Repr

/-- `MessageLevel`. -/
inductive MessageLevel
  | info
  | success
  | error
  deriving DecidableEq, Repr

/-- `StatusMessage`. -/
structure StatusMessage where
  text : String
  level : MessageLevel
  createdAt : Instant
  deriving DecidableEq, Repr

/-- `App`, without its HTTP client. -/
structure App where
  machines : List Api.Machine
  statuses : Dict String (Option Bool)
  accessHistory : Option AccessHistory
  selected : ℕ
  loading : Bool
  shouldQuit : Bool
  confirmDelete : Bool
  message : Option StatusMessage
  lastRefresh : Instant

/-- What the API answers to the calls of one handler, and the clock when they have returned. -/
structure Answers where
  listMachines : Except String (List Api.Machine)
  isMachineOn : String → Option Bool
  accessHistory : String → Option AccessHistory
  wakeMachine : String → Except String String
  turnOffMachine : String → Except String String
  deleteMachine : String → Except String String
  now : Instant

/-- `statuses_for`. -/
def statusesFor (answers : Answers) (machines : List Api.Machine) : Dict String (Option Bool) :=
  machines.foldl (fun statuses m => statuses.insert m.mac (answers.isMachineOn m.mac)) ∅

namespace App

/-- `App::new`. -/
def new (now : Instant) : App where
  machines := []
  statuses := ∅
  accessHistory := none
  selected := 0
  loading := true
  shouldQuit := false
  confirmDelete := false
  message := none
  lastRefresh := now - Duration.fromSecs 31

/-- `selected_machine`. -/
def selectedMachine (app : App) : Option Api.Machine := app.machines[app.selected]?

/-- The MAC that the handlers take from `selected_machine`. -/
def selectedMac (app : App) : Option String := app.selectedMachine.map Api.Machine.mac

/-- `next`. -/
def next (app : App) : App :=
  if app.machines.isEmpty then app
  else { app with selected := (app.selected + 1) % app.machines.length }

/-- `previous`. -/
def previous (app : App) : App :=
  if app.machines.isEmpty then app
  else
    { app with
      selected := if app.selected = 0 then app.machines.length - 1 else app.selected - 1 }

/-- `set_message`. -/
def setMessage (app : App) (text : String) (level : MessageLevel) (now : Instant) : App :=
  { app with message := some ⟨text, level, now⟩ }

/-- `load_selected_history`. -/
def loadSelectedHistory (answers : Answers) (app : App) : App :=
  match app.selectedMac with
  | none => { app with accessHistory := none }
  | some mac => { app with accessHistory := answers.accessHistory mac }

/-- `refresh`. -/
def refresh (answers : Answers) (app : App) : App :=
  match answers.listMachines with
  | .ok machines =>
    let app := { app with
      machines
      selected :=
        if machines.length ≤ app.selected then machines.length - 1 else app.selected }
    let app := { app with statuses := statusesFor answers machines }
    let app := app.loadSelectedHistory answers
    let app := { app with loading := false, lastRefresh := answers.now }
    app.setMessage "Loaded machines" .success answers.now
  | .error error =>
    { app with loading := false }.setMessage ("API error: " ++ error) .error answers.now

/-- The test of `refresh_if_due`. -/
def refreshDue (app : App) (now : Instant) : Bool :=
  Duration.fromSecs 30 ≤ now - app.lastRefresh

/-- `refresh_if_due`; `now` is the reading of `elapsed`. -/
def refreshIfDue (now : Instant) (answers : Answers) (app : App) : App :=
  if app.refreshDue now then app.refresh answers else app

/-- `wake_selected`. -/
def wakeSelected (answers : Answers) (app : App) : App :=
  match app.selectedMac with
  | none => app.setMessage "No machine selected" .info answers.now
  | some mac =>
    match answers.wakeMachine mac with
    | .ok message => app.setMessage message .success answers.now
    | .error error => app.setMessage ("Wake failed: " ++ error) .error answers.now

/-- `turn_off_selected`. -/
def turnOffSelected (answers : Answers) (app : App) : App :=
  match app.selectedMac with
  | none => app.setMessage "No machine selected" .info answers.now
  | some mac =>
    match answers.turnOffMachine mac with
    | .ok message => app.setMessage message .success answers.now
    | .error error => app.setMessage ("Turn off failed: " ++ error) .error answers.now

/-- `delete_selected`, with the MAC that it sends. -/
def deleteSelected (answers : Answers) (app : App) : App × Option String :=
  match app.selectedMac with
  | none => (app.setMessage "No machine selected" .info answers.now, none)
  | some mac =>
    match answers.deleteMachine mac with
    | .ok message => ((app.setMessage message .success answers.now).refresh answers, some mac)
    | .error error =>
      (app.setMessage ("Delete failed: " ++ error) .error answers.now, some mac)

end App

/-! ## Keys -/

/-- `KeyCode`, as far as the handler tells the codes apart. -/
inductive KeyCode
  | char (c : Char)
  | esc
  | up
  | down
  | other
  deriving DecidableEq, Repr

/-- `KeyEvent`: the code, and whether control is held. -/
structure KeyEvent where
  code : KeyCode
  control : Bool
  deriving DecidableEq, Repr

/-- `handle_key`, with the MAC of the delete request that it sends. -/
def handleKey (answers : Answers) (app : App) (key : KeyEvent) : App × Option String :=
  if key.control && key.code = .char 'c' then ({ app with shouldQuit := true }, none)
  else if app.confirmDelete then
    match key.code with
    | .char 'y' | .char 'Y' => { app with confirmDelete := false }.deleteSelected answers
    | _ =>
      ({ app with confirmDelete := false }.setMessage "Delete cancelled" .info answers.now, none)
  else
    match key.code with
    | .char 'q' | .esc => ({ app with shouldQuit := true }, none)
    | .char 'j' | .down => (app.next.loadSelectedHistory answers, none)
    | .char 'k' | .up => (app.previous.loadSelectedHistory answers, none)
    | .char 'r' => (app.refresh answers, none)
    | .char 'w' => (app.wakeSelected answers, none)
    | .char 't' => (app.turnOffSelected answers, none)
    | .char 'd' =>
      if app.selectedMachine.isSome then ({ app with confirmDelete := true }, none)
      else (app, none)
    | _ => (app, none)

/-! ## The event loop -/

/-- One iteration of the loop in `run`: the key that `poll` found, the answers its handler got,
the clock at `elapsed`, and the answers that a refresh then gets. -/
structure Iteration where
  key : Option KeyEvent
  answers : Answers
  elapsed : Instant
  refreshAnswers : Answers

/-- A delete request: its MAC, and the MAC that was selected when `d` was pressed. -/
structure Deletion where
  mac : String
  confirmed : Option String
  deriving DecidableEq, Repr

/-- The dashboard; `asked` records the MAC that was selected when `d` opened the question, and
`deletions` the delete requests.  No code reads these two. -/
structure Session where
  app : App
  asked : Option String
  deletions : List Deletion

/-- The first half of an iteration: the key, if there is one. -/
def keyStep (s : Session) (i : Iteration) : Session :=
  match i.key with
  | none => s
  | some key =>
    let handled := handleKey i.answers s.app key
    { app := handled.1
      asked :=
        if !s.app.confirmDelete && handled.1.confirmDelete then s.app.selectedMac else s.asked
      deletions := handled.2.toList.map (⟨·, s.asked⟩) ++ s.deletions }

/-- One iteration; the loop is left once `should_quit` is set. -/
def iterate (s : Session) (i : Iteration) : Session :=
  if s.app.shouldQuit then s
  else
    let s := keyStep s i
    { s with app := s.app.refreshIfDue i.elapsed i.refreshAnswers }

/-- The session when `run` enters its loop. -/
def start (now : Instant) (answers : Answers) : Session :=
  ⟨(App.new now).refresh answers, none, []⟩

/-! ## The target of a deletion -/

/-- Every delete request names the machine that was selected when the question was opened. -/
def DeletesConfirmed (s : Session) : Prop := ∀ d ∈ s.deletions, d.confirmed = some d.mac

/-- A refresh in this iteration, while the question is open and the loop goes on, leaves the
machine that the question was opened for at the selected index, or no machine at all. -/
def KeepsTarget (s : Session) (i : Iteration) : Prop :=
  s.app.shouldQuit = false → (keyStep s i).app.shouldQuit = false →
    (keyStep s i).app.confirmDelete = true → (keyStep s i).app.refreshDue i.elapsed = true →
    ∀ mac, ((keyStep s i).app.refresh i.refreshAnswers).selectedMac = some mac →
      (keyStep s i).asked = some mac

/-- While the question is open, it was opened for the selected machine, if one is selected. -/
def TargetSelected (s : Session) : Prop :=
  s.app.shouldQuit = false → s.app.confirmDelete = true →
    ∀ mac, s.app.selectedMac = some mac → s.asked = some mac

/-! ### What the operations leave alone -/

/-- The two flags of the loop. -/
def App.flags (app : App) : Bool × Bool := (app.shouldQuit, app.confirmDelete)

@[simp] theorem setMessage_flags (app : App) (text : String) (level : MessageLevel)
    (now : Instant) : (app.setMessage text level now).flags = app.flags := rfl

@[simp] theorem loadSelectedHistory_flags (answers : Answers) (app : App) :
    (app.loadSelectedHistory answers).flags = app.flags := by
  unfold App.loadSelectedHistory
  split <;> rfl

@[simp] theorem refresh_flags (answers : Answers) (app : App) :
    (app.refresh answers).flags = app.flags := by
  unfold App.refresh
  split
  · rename_i machines _
    show App.flags (App.loadSelectedHistory answers _) = _
    rw [loadSelectedHistory_flags]
    rfl
  · rfl

@[simp] theorem next_flags (app : App) : app.next.flags = app.flags := by
  unfold App.next
  split <;> rfl

@[simp] theorem previous_flags (app : App) : app.previous.flags = app.flags := by
  unfold App.previous
  split <;> rfl

@[simp] theorem wakeSelected_flags (answers : Answers) (app : App) :
    (app.wakeSelected answers).flags = app.flags := by
  unfold App.wakeSelected
  split
  · rfl
  · split <;> rfl

@[simp] theorem turnOffSelected_flags (answers : Answers) (app : App) :
    (app.turnOffSelected answers).flags = app.flags := by
  unfold App.turnOffSelected
  split
  · rfl
  · split <;> rfl

/-- A deletion sends the MAC of the selected machine. -/
theorem deleteSelected_spec (answers : Answers) (app : App) :
    (app.deleteSelected answers).2 = app.selectedMac ∧
      (app.deleteSelected answers).1.flags = app.flags := by
  unfold App.deleteSelected
  split
  · rename_i hmac
    exact ⟨hmac.symm, rfl⟩
  · rename_i mac hmac
    split
    · exact ⟨hmac.symm, by rw [refresh_flags, setMessage_flags]⟩
    · exact ⟨hmac.symm, rfl⟩

/-! ### What a key does -/

/-- A key either sends no request, or confirms the open question and sends the selected MAC; and
if the question is open afterwards, the key left the selection alone. -/
theorem handleKey_spec (answers : Answers) (app : App) (key : KeyEvent) :
    (∀ mac, (handleKey answers app key).2 = some mac →
        app.confirmDelete = true ∧ app.selectedMac = some mac) ∧
      ((handleKey answers app key).1.confirmDelete = true →
        (handleKey answers app key).1.selectedMac = app.selectedMac) := by
  have hflags : ∀ app' : App, app'.flags = app.flags → app.confirmDelete = false →
      app'.confirmDelete ≠ true := by
    intro app' hsame hclosed hopen
    have hconfirm : app'.confirmDelete = app.confirmDelete := congrArg Prod.snd hsame
    rw [hconfirm, hclosed] at hopen
    cases hopen
  unfold handleKey
  split
  · exact ⟨nofun, fun _ => rfl⟩
  cases hconfirm : app.confirmDelete with
  | true =>
    rw [if_pos rfl]
    have hdelete := deleteSelected_spec answers { app with confirmDelete := false }
    have hclosed : (App.deleteSelected answers { app with confirmDelete := false }).1.confirmDelete
        = false := congrArg Prod.snd hdelete.2
    split
    · refine ⟨fun mac hmac => ⟨rfl, hdelete.1.symm.trans hmac⟩, fun hopen => ?_⟩
      rw [hclosed] at hopen
      cases hopen
    · refine ⟨fun mac hmac => ⟨rfl, hdelete.1.symm.trans hmac⟩, fun hopen => ?_⟩
      rw [hclosed] at hopen
      cases hopen
    · exact ⟨nofun, fun hopen => nomatch hopen⟩
  | false =>
    rw [if_neg Bool.false_ne_true]
    split
    · exact ⟨nofun, fun _ => rfl⟩
    · exact ⟨nofun, fun _ => rfl⟩
    · exact ⟨nofun, fun hopen => absurd hopen (hflags _ (by simp) hconfirm)⟩
    · exact ⟨nofun, fun hopen => absurd hopen (hflags _ (by simp) hconfirm)⟩
    · exact ⟨nofun, fun hopen => absurd hopen (hflags _ (by simp) hconfirm)⟩
    · exact ⟨nofun, fun hopen => absurd hopen (hflags _ (by simp) hconfirm)⟩
    · exact ⟨nofun, fun hopen => absurd hopen (hflags _ (by simp) hconfirm)⟩
    · exact ⟨nofun, fun hopen => absurd hopen (hflags _ (by simp) hconfirm)⟩
    · exact ⟨nofun, fun hopen => absurd hopen (hflags _ (by simp) hconfirm)⟩
    · split
      · exact ⟨nofun, fun _ => rfl⟩
      · exact ⟨nofun, fun _ => rfl⟩
    · exact ⟨nofun, fun _ => rfl⟩

/-- The first half of an iteration keeps the target, and what it sends was asked for. -/
theorem keyStep_invariant {s : Session} (htarget : TargetSelected s) (hdeletes : DeletesConfirmed s)
    (hrunning : s.app.shouldQuit = false) (i : Iteration) :
    TargetSelected (keyStep s i) ∧ DeletesConfirmed (keyStep s i) := by
  unfold keyStep
  cases hkey : i.key with
  | none => exact ⟨htarget, hdeletes⟩
  | some key =>
    obtain ⟨hsent, hselected⟩ := handleKey_spec i.answers s.app key
    constructor
    · intro _ hopen mac hmac
      rw [hselected hopen] at hmac
      show (if _ then _ else _) = _
      cases hbefore : s.app.confirmDelete with
      | false =>
        -- this key opened the question
        rw [(hopen : (handleKey i.answers s.app key).1.confirmDelete = true)]
        exact hmac
      | true =>
        rw [(hopen : (handleKey i.answers s.app key).1.confirmDelete = true)]
        exact htarget hrunning hbefore mac hmac
    · intro d hd
      rcases List.mem_append.mp hd with hnew | hold
      · obtain ⟨mac, hmac, rfl⟩ := List.mem_map.mp hnew
        obtain ⟨hopen, hselectedMac⟩ := hsent mac (Option.mem_toList.mp hmac)
        exact htarget hrunning hopen mac hselectedMac
      · exact hdeletes d hold

/-- **One iteration** that keeps the target keeps the invariant. -/
theorem iterate_invariant (s : Session) (i : Iteration)
    (h : TargetSelected s ∧ DeletesConfirmed s) (hkeeps : KeepsTarget s i) :
    TargetSelected (iterate s i) ∧ DeletesConfirmed (iterate s i) := by
  unfold iterate
  cases hrunning : s.app.shouldQuit with
  | true => exact h
  | false =>
    rw [if_neg Bool.false_ne_true]
    obtain ⟨htarget, hdeletes⟩ := keyStep_invariant h.1 h.2 hrunning i
    refine ⟨?_, hdeletes⟩
    show TargetSelected { keyStep s i with app := _ }
    unfold App.refreshIfDue
    cases hdue : (keyStep s i).app.refreshDue i.elapsed with
    | false =>
      rw [if_neg Bool.false_ne_true]
      exact htarget
    | true =>
      rw [if_pos rfl]
      intro hrunning' hopen
      have hflags := refresh_flags i.refreshAnswers (keyStep s i).app
      have hquit : (keyStep s i).app.shouldQuit = false :=
        (congrArg Prod.fst hflags).symm.trans hrunning'
      have hconfirm : (keyStep s i).app.confirmDelete = true :=
        (congrArg Prod.snd hflags).symm.trans hopen
      exact hkeeps hrunning hquit hconfirm hdue

/-- A key that confirms the open question. -/
def confirmKey : KeyEvent := ⟨.char 'y', false⟩

/-- A confirmation sends the selected MAC. -/
theorem confirm_deletes {s : Session} (hrunning : s.app.shouldQuit = false)
    (hopen : s.app.confirmDelete = true) {mac : String} (hmac : s.app.selectedMac = some mac)
    {i : Iteration} (hkey : i.key = some confirmKey) :
    ⟨mac, s.asked⟩ ∈ (iterate s i).deletions := by
  have hsent : (handleKey i.answers s.app confirmKey).2 = some mac := by
    have hdelete := (deleteSelected_spec i.answers { s.app with confirmDelete := false }).1
    unfold handleKey confirmKey
    rw [if_neg (by decide), if_pos hopen]
    exact hdelete.trans hmac
  unfold iterate
  rw [hrunning, if_neg Bool.false_ne_true]
  show _ ∈ (keyStep s i).deletions
  unfold keyStep
  rw [hkey]
  refine List.mem_append_left _ (List.mem_map.mpr ⟨mac, ?_, rfl⟩)
  exact Option.mem_toList.mpr hsent

/-- **The dashboard deletes what was confirmed**, in every run whose refreshes leave the target
of an open question alone.  And nothing less is enough: when the next refresh replaces the
target, a confirmation deletes another machine than the one it was asked for. -/
theorem deletes_what_was_confirmed (now : Instant) (answers : Answers) (es : List Iteration)
    (hrun : Run.Along iterate KeepsTarget (start now answers) es) :
    DeletesConfirmed (Run.exec iterate (start now answers) es) ∧
      ∀ i j, ¬ KeepsTarget (Run.exec iterate (start now answers) es) i →
        j.key = some confirmKey →
        ¬ DeletesConfirmed (Run.exec iterate (start now answers) (es ++ [i, j])) := by
  have hstart : TargetSelected (start now answers) ∧ DeletesConfirmed (start now answers) := by
    refine ⟨fun _ hopen => ?_, fun d hd => absurd hd List.not_mem_nil⟩
    have hclosed : (start now answers).app.confirmDelete = false :=
      congrArg Prod.snd (refresh_flags answers (App.new now))
    rw [hclosed] at hopen
    cases hopen
  have hinvariant := Run.exec_invariant (P := fun s => TargetSelected s ∧ DeletesConfirmed s)
    hstart iterate_invariant hrun
  refine ⟨hinvariant.2, fun i j hreplaced hkey hall => ?_⟩
  set s := Run.exec iterate (start now answers) es with hs
  unfold KeepsTarget at hreplaced
  push Not at hreplaced
  obtain ⟨hrunning, hquit, hopen, hdue, mac, hmac, hother⟩ := hreplaced
  -- the iteration `i` ends with the refresh
  have hnext : iterate s i = { keyStep s i with
      app := (keyStep s i).app.refresh i.refreshAnswers } := by
    unfold iterate App.refreshIfDue
    rw [hrunning, if_neg Bool.false_ne_true]
    simp only [hdue, if_true]
  have hflags := refresh_flags i.refreshAnswers (keyStep s i).app
  have hdeleted : ⟨mac, (iterate s i).asked⟩ ∈ (iterate (iterate s i) j).deletions := by
    refine confirm_deletes ?_ ?_ ?_ hkey
    · rw [hnext]
      exact (congrArg Prod.fst hflags).trans hquit
    · rw [hnext]
      exact (congrArg Prod.snd hflags).trans hopen
    · rw [hnext]
      exact hmac
  rw [Run.exec_append, Run.exec_cons, Run.exec_cons, Run.exec_nil] at hall
  have hconfirmed := hall _ hdeleted
  rw [hnext] at hconfirmed
  exact hother hconfirmed

/-! ## A list that changes under the question -/

/-- Answers of an API whose list of machines is `machines`, at a time. -/
def sampleAnswers (machines : List Api.Machine) (now : Instant) : Answers where
  listMachines := .ok machines
  isMachineOn _ := none
  accessHistory _ := none
  wakeMachine _ := .error "HTTP 404"
  turnOffMachine _ := .error "HTTP 404"
  deleteMachine _ := .ok "Machine deleted"
  now

/-- The list shows the backup server first, since the API lists the newest machine first. -/
def sampleMachines : List Api.Machine :=
  [(payloadOf backupServer).toMachine .server, (payloadOf workstation).toMachine .server]

/-- The key `d` is pressed while the first machine is selected. -/
def askIteration : Iteration :=
  ⟨some ⟨.char 'd', false⟩, sampleAnswers sampleMachines 5, 5, sampleAnswers sampleMachines 5⟩

/-- The confirmation. -/
def confirmIteration : Iteration :=
  ⟨some confirmKey, sampleAnswers sampleMachines 5, 5, sampleAnswers sampleMachines 5⟩

/-- A question that is confirmed at once deletes the machine it was opened for. -/
theorem backupServer_deleted_as_confirmed :
    (Run.exec iterate (start 0 (sampleAnswers sampleMachines 1))
        [askIteration, confirmIteration]).deletions.length = 1 ∧
      DeletesConfirmed (Run.exec iterate (start 0 (sampleAnswers sampleMachines 1))
        [askIteration, confirmIteration]) := by
  refine ⟨by decide +kernel, ?_⟩
  refine (deletes_what_was_confirmed 0 (sampleAnswers sampleMachines 1)
    [askIteration, confirmIteration] ⟨?_, ?_, trivial⟩).1
  · -- no refresh is due
    intro _ _ _ hdue
    exact absurd hdue (by decide)
  · intro _ _ hopen
    exact absurd hopen (by decide +kernel)

/-- **A refresh changes the target.**  The question is opened for the backup server, another
client deletes that machine, the list is refreshed, and the confirmation deletes the
workstation. -/
theorem refresh_changes_target :
    let s := Run.exec iterate (start 0 (sampleAnswers sampleMachines 1))
      [askIteration,
        ⟨none, sampleAnswers [] 0, Duration.fromSecs 31,
          sampleAnswers [(payloadOf workstation).toMachine .server] (Duration.fromSecs 31)⟩,
        ⟨some confirmKey, sampleAnswers [] (Duration.fromSecs 32), Duration.fromSecs 32,
          sampleAnswers [] (Duration.fromSecs 32)⟩]
    s.deletions = [⟨workstation.mac, some backupServer.mac⟩] ∧ ¬ DeletesConfirmed s := by
  intro s
  have hdeletions : s.deletions = [⟨workstation.mac, some backupServer.mac⟩] := by decide +kernel
  refine ⟨hdeletions, fun hall => ?_⟩
  have hconfirmed := hall ⟨workstation.mac, some backupServer.mac⟩
    (by rw [hdeletions]; exact List.mem_singleton_self _)
  exact absurd hconfirmed (by decide)

end Tui

end Wakezilla
