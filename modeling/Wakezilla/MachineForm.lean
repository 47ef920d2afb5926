/-
# The machine form

`MachineDialog` of `frontend/src/components/dashboard/machine.rs` and the check that it makes,
`validate_machine_form` of `frontend/src/models.rs`.  The form keeps a draft of the machine and,
for each service, the texts of three inputs.  On submit it trims and converts them, checks the
result, and hands one request to a task; while that runs, the form does not submit again.

The dialog may be closed before the answer comes.  Then its signals are gone, and the task tells
the result in a notification.
-/
import Wakezilla.LegacyAutostart
import Wakezilla.UnchangedUpdate

namespace Wakezilla

/-! ## Texts -/

/-- What `char::to_uppercase` makes of a character.  Of characters that are not ASCII nothing is
assumed; for some of them it is more than one character. -/
structure CaseMapping where
  upper : Char → List Char
  ascii : ∀ c : Char, c.toNat < 128 → upper c = [c.toUpper]

/-- `str::to_uppercase`. -/
def CaseMapping.toUppercase (cases : CaseMapping) (s : String) : String :=
  String.ofList (s.toList.flatMap cases.upper)

/-- `str::trim`. -/
def trimText (s : String) : String := String.ofList (trim s.toList)

/-- `mac.replace('-', ":")`. -/
def replaceDashes (s : String) : String :=
  String.ofList (s.toList.map fun c => if c = '-' then ':' else c)

/-- `str::parse::<u16>`: an optional plus sign and decimal digits, at most `65535`. -/
def parseU16 (s : String) : Option UInt16 :=
  let digits :=
    match s.toList with
    | '+' :: rest => rest
    | chars => chars
  if digits ≠ [] && digits.all Char.isDigit && decimalValue digits < 65536 then
    some (UInt16.ofNat (decimalValue digits))
  else none

namespace MachineForm

/-! ## Services -/

/-- `ServiceDraft`: the inputs for the name, the local port and the target port. -/
structure ServiceDraft where
  id : ℕ
  name : String
  localPort : String
  targetPort : String
  deriving DecidableEq, Repr

/-- The text of a port; a new service has none. -/
def portText (port : UInt16) : String := if port = 0 then "" else port.toNat.repr

/-- `ServiceDraft::new`. -/
def ServiceDraft.new (id : ℕ) (service : Api.PortForward) : ServiceDraft where
  id := id
  name := service.name.getD ""
  localPort := portText service.localPort
  targetPort := portText service.targetPort

/-- A port that was entered, or the message that it is not one. -/
def enteredPort (text message : String) : Except String UInt16 :=
  match (parseU16 text).filter fun port => decide (0 < port) with
  | some port => .ok port
  | none => .error message

/-- The name that was entered; a blank one is none. -/
def enteredName (text : String) : Option String :=
  if trim text.toList = [] then none else some (trimText text)

/-- `ServiceDraft::value`. -/
def ServiceDraft.value (draft : ServiceDraft) : Except String Api.PortForward :=
  match enteredPort draft.localPort "Enter a local port between 1 and 65535." with
  | .error message => .error message
  | .ok localPort =>
    match enteredPort draft.targetPort "Enter a target port between 1 and 65535." with
    | .error message => .error message
    | .ok targetPort => .ok ⟨enteredName draft.name, localPort, targetPort⟩

/-- The values of all services, or the first message. -/
def serviceValues : List ServiceDraft → Except String (List Api.PortForward)
  | [] => .ok []
  | draft :: drafts =>
    match draft.value with
    | .error message => .error message
    | .ok value =>
      match serviceValues drafts with
      | .error message => .error message
      | .ok values => .ok (value :: values)

/-! ## The check -/

/-- The test of a MAC that is not blank: seventeen or twelve bytes, each of them a hexadecimal
digit, a colon or a dash. -/
def looksLikeMac (mac : String) : Bool :=
  (mac.toList.filter fun c => isHexDigit c || c = ':' || c = '-').length = mac.utf8ByteSize
    && (mac.utf8ByteSize = 17 || mac.utf8ByteSize = 12)

/-- `validate_machine_form`. -/
def validateMachineForm (machine : Api.Machine) : FieldErrors :=
  let errors : FieldErrors := ∅
  let errors := errors.note (isBlank machine.name) "name" ["Name is required"]
  let errors := errors.note (parseIpv4 machine.ip).isNone "ip" ["Invalid IP address"]
  let errors := errors.note (machine.turnOffPort = some 0) "turn_off_port"
    ["Port must be between 1 and 65535"]
  let errors := errors.note (isBlank machine.mac) "mac" ["MAC address is required"]
  errors.note (!isBlank machine.mac && !looksLikeMac machine.mac) "mac" ["Invalid MAC address"]

/-- The check of the form accepts. -/
theorem validateMachineForm_eq_nil {machine : Api.Machine} :
    (validateMachineForm machine).entries = [] ↔
      isBlank machine.name = false ∧ (parseIpv4 machine.ip).isSome = true ∧
        machine.turnOffPort ≠ some 0 ∧ isBlank machine.mac = false ∧
        looksLikeMac machine.mac = true := by
  unfold validateMachineForm
  simp only [note_entries_eq_nil, AList.empty_entries, true_and, decide_eq_false_iff_not,
    Bool.and_eq_false_iff, Bool.not_eq_false', ne_eq, Option.isNone_eq_false_iff]
  constructor
  · rintro ⟨⟨⟨⟨hname, hip⟩, hport⟩, hblank⟩, hmac⟩
    refine ⟨hname, hip, hport, hblank, ?_⟩
    rcases hmac with hmac | hmac
    · rw [hblank] at hmac
      cases hmac
    · exact hmac
  · rintro ⟨hname, hip, hport, hblank, hmac⟩
    exact ⟨⟨⟨⟨hname, hip⟩, hport⟩, hblank⟩, Or.inr hmac⟩

/-! ## The dialog -/

/-- What `on_submit` hands to its task. -/
structure FormSave where
  originalMac : String
  machine : Api.Machine
  isNew : Bool
  deriving DecidableEq, Repr

end MachineForm

open MachineForm

/-- `MachineDialog`, as far as it edits a machine. -/
structure MachineDialog where
  services : List ServiceDraft
  draft : Api.Machine
  stored : Api.Machine
  creating : Bool
  saving : Bool
  error : Option String
  feedback : String
  deriving DecidableEq, Repr

namespace MachineDialog

/-- The dialog that `MachineDialog` opens with. -/
def new (initial : Api.Machine) (creating : Bool) : MachineDialog where
  services := initial.portForwards.zipIdx.map fun service => .new service.2 service.1
  draft := initial
  stored := initial
  creating := creating
  saving := false
  error := none
  feedback := ""

/-- The machine of the draft, as `on_submit` writes it. -/
def normalized (cases : CaseMapping) (draft : Api.Machine) (values : List Api.PortForward) :
    Api.Machine :=
  { draft with
    name := trimText draft.name
    ip := trimText draft.ip
    mac := cases.toUppercase (replaceDashes (trimText draft.mac))
    description := draft.description.filter fun description => !isBlank description
    portForwards := values }

/-- `on_submit`, up to the task. -/
def submit (cases : CaseMapping) (d : MachineDialog) : MachineDialog × Option FormSave :=
  if d.saving then (d, none)
  else
    match serviceValues d.services with
    | .error message => ({ d with error := some message }, none)
    | .ok values =>
      let machine := normalized cases d.draft values
      if !(validateMachineForm machine).entries.isEmpty then
        ({ d with
          error := some "Check the name, IPv4 address, MAC address, and client port." }, none)
      else
        ({ d with saving := true, error := none, feedback := "" },
          some ⟨d.stored.mac, machine, d.creating⟩)

/-- The dialog after a save has succeeded. -/
def saved (machine : Api.Machine) (d : MachineDialog) : MachineDialog :=
  { d with
    stored := machine, draft := machine, creating := false, saving := false
    feedback := "Changes saved." }

/-- The dialog after a request has failed. -/
def failed (message : String) (d : MachineDialog) : MachineDialog :=
  { d with error := some message, saving := false }

/-- The request to delete the machine, if none is running. -/
def delete (d : MachineDialog) : MachineDialog × Option Api.Machine :=
  if d.saving then (d, none) else ({ d with saving := true, error := none }, some d.stored)

end MachineDialog

/-! ## What the form sends -/

namespace MachineForm

/-- A trimmed text that is not empty is not blank. -/
theorem isBlank_trimText {text : String} (h : trim text.toList ≠ []) :
    isBlank (trimText text) = false := by
  have hlast := List.rdropWhile_last_not isWhitespace (text.toList.dropWhile isWhitespace) h
  rw [isBlank, trimText, String.toList_ofList, List.all_eq_false]
  exact ⟨_, List.getLast_mem h, hlast⟩

/-- No service name is blank. -/
def NamesClean (services : List Api.PortForward) : Prop :=
  ∀ service ∈ services, ∀ name, service.name = some name → isBlank name = false

theorem enteredName_eq_some {text name : String} (h : enteredName text = some name) :
    isBlank name = false := by
  unfold enteredName at h
  split at h
  · cases h
  next htrim =>
    cases h
    exact isBlank_trimText htrim

theorem ServiceDraft.value_eq_ok {draft : ServiceDraft} {value : Api.PortForward}
    (h : draft.value = .ok value) : value.name = enteredName draft.name := by
  unfold ServiceDraft.value at h
  split at h
  · cases h
  split at h
  · cases h
  · cases h
    rfl

theorem namesClean_of_serviceValues {drafts : List ServiceDraft} {values : List Api.PortForward}
    (h : serviceValues drafts = .ok values) : NamesClean values := by
  induction drafts generalizing values with
  | nil =>
    cases h
    exact fun service hs => absurd hs List.not_mem_nil
  | cons draft drafts ih =>
    unfold serviceValues at h
    split at h
    · cases h
    next value hvalue =>
    split at h
    · cases h
    next rest hrest =>
    cases h
    intro service hs name hname
    rcases List.mem_cons.mp hs with rfl | hs
    · rw [ServiceDraft.value_eq_ok hvalue] at hname
      exact enteredName_eq_some hname
    · exact ih hrest service hs name hname

end MachineForm

/-- What is sent has passed the check, and its service names are clean. -/
theorem MachineDialog.submit_eq_some {cases : CaseMapping} {d : MachineDialog} {save : FormSave}
    (h : (d.submit cases).2 = some save) :
    save.originalMac = d.stored.mac ∧ save.isNew = d.creating ∧ d.saving = false ∧
      (validateMachineForm save.machine).entries = [] ∧ NamesClean save.machine.portForwards := by
  unfold MachineDialog.submit at h
  split at h
  · cases h
  next hsaving =>
  split at h
  · cases h
  next values hvalues =>
  dsimp only at h
  split at h
  · cases h
  next hchecked =>
  cases h
  refine ⟨rfl, rfl, by simpa using hsaving, by simpa using hchecked, ?_⟩
  exact namesClean_of_serviceValues hvalues

end Wakezilla
