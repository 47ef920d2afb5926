/-
# The list of the page

When a save or a deletion has succeeded, the page repeats the change on its own list of machines,
and trusts that the proxy has done the same.  `page_mirrors_registry` : once a list has been
fetched, the page shows the registry, up to the order and to the answers that are still under
way, as long as no answer gets lost and nobody else changes the registry.  Answers may overtake
each other, but not if they are about the same MAC or if one of them is a list: an older list
that arrives last hides what was saved meanwhile (`overtaken_list_is_stale`).

What the proxy stores of a machine is what the form has sent (`machineToApiMachine_of_internal`):
an address has one spelling, and the form sends no blank service names.
-/
import Wakezilla.DashboardPage
import Wakezilla.Library.Replica

namespace Wakezilla

open Dashboard MachineForm Replica

/-! ## What the proxy stores

A machine that the form has sent is stored as it is: the proxy would list it in the very form in
which it was sent. -/

theorem internalPortForwardToApi_apiPortForwardToInternal {service : Api.PortForward}
    (h : ∀ name, service.name = some name → isBlank name = false) :
    internalPortForwardToApi (apiPortForwardToInternal service) = service := by
  obtain ⟨name, localPort, targetPort⟩ := service
  cases name with
  | none => rfl
  | some name =>
    have hname : isBlank name = false := h name rfl
    unfold internalPortForwardToApi apiPortForwardToInternal
    simp only [Option.getD_some, hname, Bool.false_eq_true, if_false]

/-- The record made from a machine with clean names is listed as that machine. -/
theorem machineToApiMachine_of_internal {api : Api.Machine} {m : Machine}
    (h : apiMachineToInternal api = .ok m) (hnames : NamesClean api.portForwards) :
    machineToApiMachine m = api := by
  unfold apiMachineToInternal at h
  split at h
  · cases h
  next ip hip =>
  cases h
  have hservices : (api.portForwards.map apiPortForwardToInternal).map internalPortForwardToApi =
      api.portForwards := by
    rw [List.map_map]
    conv_rhs => rw [← List.map_id api.portForwards]
    apply List.map_congr_left
    intro service hs
    exact internalPortForwardToApi_apiPortForwardToInternal (hnames service hs)
  simp only [machineToApiMachine, hservices, toString_of_parseIpv4 hip]

/-- The list does not show the keys. -/
theorem machineToApiMachine_withNewKey (engine : Base64Engine) (random : Vector UInt8 32)
    (m : Machine) : machineToApiMachine (withNewKey engine random m) = machineToApiMachine m := by
  unfold withNewKey
  split <;> rfl

theorem machineToApiMachine_applyShutdownSecurity (engine : Base64Engine)
    (random : Vector UInt8 32) (old : Option Machine) (m : Machine) :
    machineToApiMachine (applyShutdownSecurity engine random old m) = machineToApiMachine m := by
  unfold applyShutdownSecurity
  split
  · rfl
  split
  · rfl
  split <;> rfl

theorem Refused.machines_eq {libs : Externals} {fault : SaveFault} {s s' : Proxy}
    (h : Refused libs fault s s') : s'.machines = s.machines := by
  cases h with
  | unchanged => rfl
  | notSaved hfault machines => rfl

theorem decodeResponse_of_le {response : Response} (h : 400 ≤ response.code) :
    decodeResponse response = .error (responseError response.code response.body) := by
  unfold decodeResponse
  rw [if_neg]
  simp only [Bool.and_eq_true, decide_eq_true_eq, not_and, not_le]
  omega

/-- How a request that changes the registry ends: it is refused and changes nothing, or it is
accepted and has the effect `Done`. -/
def RequestEnds (Done : List Machine → Prop) (s : Proxy) (handled : Response × Proxy) : Prop :=
  (∃ message, decodeResponse handled.1 = .error message ∧ handled.2.machines = s.machines) ∨
    (decodeResponse handled.1 = .ok () ∧ Done handled.2.machines)

theorem requestEnds_of_rejected (libs : Externals) (fault : SaveFault) {s : Proxy}
    {handled : Response × Proxy} {Done : List Machine → Prop}
    (h : Rejected libs fault s handled) : RequestEnds Done s handled :=
  Or.inl ⟨_, decodeResponse_of_le h.1, h.2.machines_eq⟩

/-- A new machine is stored at the end, and its MAC was free. -/
theorem addMachineApi_ends (libs : Externals) {machine : Api.Machine}
    (hnames : NamesClean machine.portForwards) (random : Vector UInt8 32) (fault : SaveFault)
    (now : Instant) (s : Proxy) :
    RequestEnds (fun machines => (∀ m ∈ s.machines, m.mac ≠ machine.mac) ∧
        ∃ new, machineToApiMachine new = machine ∧ machines = s.machines ++ [new]) s
      (addMachineApi libs machine.toPayload random fault now s) := by
  unfold addMachineApi
  simp only []
  split
  · exact requestEnds_of_rejected libs fault ⟨le_rfl, .unchanged⟩
  split
  · exact requestEnds_of_rejected libs fault ⟨le_rfl, .unchanged⟩
  rename_i base hbase
  split
  · exact requestEnds_of_rejected libs fault ⟨le_rfl, .unchanged⟩
  rename_i hvalid
  rw [validateMachineConfig_eq_ok, List.filter_eq_self.mpr (by simp)] at hvalid
  rcases save_cases libs fault (s.machines ++ [withNewKey libs.base64 random base])
      s.database with ⟨hsave, hfault⟩ | ⟨hsave, hfault⟩
  · rw [hsave]
    exact requestEnds_of_rejected libs fault ⟨Nat.le_add_right 400 100, .notSaved hfault _⟩
  · rw [hsave]
    refine Or.inr ⟨rfl, fun m hm heq => ?_, withNewKey libs.base64 random base, ?_, rfl⟩
    · exact hvalid.macFree m hm (congrArg normalizeMac heq)
    · rw [machineToApiMachine_withNewKey]
      exact machineToApiMachine_of_internal hbase hnames

/-- A changed machine is stored in its place, and a new MAC was free. -/
theorem updateMachineApi_ends (libs : Externals) (mac : String) {machine : Api.Machine}
    (hnames : NamesClean machine.portForwards) (random : Vector UInt8 32) (fault : SaveFault)
    (now : Instant) (s : Proxy) :
    RequestEnds (fun machines => (machine.mac = mac ∨ ∀ m ∈ s.machines, m.mac ≠ machine.mac) ∧
        ∃ index old new, position mac s.machines = some (index, old) ∧
          machineToApiMachine new = machine ∧ machines = s.machines.set index new) s
      (updateMachineApi libs mac machine.toPayload random fault now s) := by
  unfold updateMachineApi
  split
  · exact requestEnds_of_rejected libs fault ⟨Nat.le_add_right 400 4, .unchanged⟩
  rename_i index old hposition
  simp only []
  split
  · exact requestEnds_of_rejected libs fault ⟨le_rfl, .unchanged⟩
  rename_i hvalid
  rw [validateMachineConfig_eq_ok] at hvalid
  split
  · exact requestEnds_of_rejected libs fault ⟨le_rfl, .unchanged⟩
  rename_i base hbase
  rcases save_cases libs fault
      (s.machines.set index (applyShutdownSecurity libs.base64 random (some old) base))
      s.database with ⟨hsave, hfault⟩ | ⟨hsave, hfault⟩
  · rw [hsave]
    exact requestEnds_of_rejected libs fault ⟨Nat.le_add_right 400 100, .notSaved hfault _⟩
  · rw [hsave]
    refine Or.inr ⟨rfl, ?_, index, old, applyShutdownSecurity libs.base64 random (some old) base,
      hposition, ?_, rfl⟩
    · by_cases hmac : machine.mac = mac
      · exact Or.inl hmac
      · refine Or.inr fun m hm heq => ?_
        -- a machine with the old MAC does not have the new one; the others were compared
        have hother : m ∈ s.machines.filter fun existing => some existing.mac ≠ some mac := by
          refine List.mem_filter.mpr ⟨hm, decide_eq_true fun hsome => hmac ?_⟩
          rw [← heq]
          exact Option.some.inj hsome
        exact hvalid.macFree m hother (congrArg normalizeMac heq)
    · rw [machineToApiMachine_applyShutdownSecurity]
      exact machineToApiMachine_of_internal hbase hnames

theorem deleteMachineApi_ends (libs : Externals) (mac : String) (fault : SaveFault) (s : Proxy) :
    RequestEnds (fun machines => machines = s.machines.filter fun m => m.mac ≠ mac) s
      (deleteMachineApi libs ⟨mac⟩ fault s) := by
  rcases deleteMachineApi_cases libs ⟨mac⟩ fault s with ⟨-, hrejected⟩ | ⟨limiter, -, -, hstate⟩
  · exact requestEnds_of_rejected libs fault hrejected
  · rw [hstate]
    exact Or.inr ⟨rfl, rfl⟩

/-! ## The list of the page -/

/-- How the page edits its list when an answer arrives. -/
def PageAnswer.edit : PageAnswer → Edit Api.Machine String
  | .saved _ form (.ok ()) =>
    if form.isNew then .insert form.machine else .replace form.originalMac form.machine
  | .deleted _ machine (.ok ()) => .remove machine.mac
  | .fetched (.ok sent) => .reset sent
  | _ => .keep

/-- What the page makes of its list when an answer arrives. -/
def PageAnswer.apply (machines : List Api.Machine) (answer : PageAnswer) : List Api.Machine :=
  answer.edit.apply Api.Machine.mac machines

/-- The answers may arrive in either order: one of them does not change the list of the page, or
they are about different MACs and neither is a list. -/
def PageAnswer.Apart (answer other : PageAnswer) : Prop :=
  answer.edit.Apart Api.Machine.mac other.edit

instance (answer other : PageAnswer) : Decidable (answer.Apart other) :=
  inferInstanceAs (Decidable (answer.edit.Apart _ other.edit))

/-- What the proxy would list. -/
def listed (s : Proxy) : List Api.Machine := s.machines.map machineToApiMachine

/-- The page will show the registry when all that is under way has arrived. -/
def Page.Mirrors (p : Page) : Prop :=
  InStep Api.Machine.mac p.dashboard.machines (p.answers.map PageAnswer.edit) (listed p.proxy)

/-- Every machine under way has clean names. -/
def Page.SendsClean (p : Page) : Prop :=
  ∀ n form, PageRequest.save n form ∈ p.requests → NamesClean form.machine.portForwards

theorem mac_ne_of_listed {s : Proxy} {mac : String} (h : ∀ m ∈ s.machines, m.mac ≠ mac) :
    ∀ x ∈ listed s, x.mac ≠ mac := by
  intro x hx
  obtain ⟨m, hm, rfl⟩ := List.mem_map.mp hx
  exact h m hm

/-- What `position` finds is the first machine with the MAC. -/
theorem findIdx?_of_position {mac : String} {machines : List Machine} {i : ℕ} {m : Machine}
    (h : position mac machines = some (i, m)) :
    machines.findIdx? (fun existing => existing.mac = mac) = some i := by
  induction machines generalizing i with
  | nil => cases h
  | cons first machines ih =>
    rw [position] at h
    rw [List.findIdx?_cons]
    by_cases hmac : first.mac = mac
    · rw [if_pos hmac] at h
      cases h
      rw [if_pos (decide_eq_true hmac)]
    · rw [if_neg hmac] at h
      obtain ⟨⟨j, m'⟩, hj, heq⟩ := Option.map_eq_some_iff.mp h
      cases heq
      rw [if_neg (by simpa using hmac), ih hj]
      rfl

/-- The edit of the registry and that of the page are the same. -/
theorem map_set_eq_replaceFirst {machines : List Machine} {mac : String} {index : ℕ}
    {old new : Machine} (hposition : position mac machines = some (index, old)) :
    (machines.set index new).map machineToApiMachine =
      replaceFirst Api.Machine.mac mac (machineToApiMachine new)
        (machines.map machineToApiMachine) := by
  have hfound : (machines.map machineToApiMachine).findIdx? (fun x => x.mac = mac) =
      some index := by
    rw [List.findIdx?_map]
    exact findIdx?_of_position hposition
  unfold replaceFirst
  rw [hfound, List.map_set]

/-- The answer makes of the list one that shows the registry of the proxy. -/
def Repeats (machines : List Api.Machine) (answer : PageAnswer) (s : Proxy) : Prop :=
  answer.edit.Fits Api.Machine.mac machines ∧
    SameByKey Api.Machine.mac (answer.apply machines) (listed s)

/-- A request that is refused changes neither list, so what matters is the one that is accepted. -/
theorem RequestEnds.repeats {Done : List Machine → Prop} {s : Proxy} {handled : Response × Proxy}
    (h : RequestEnds Done s handled) {machines : List Api.Machine}
    (hm : SameByKey Api.Machine.mac machines (listed s)) {answer : Except String Unit → PageAnswer}
    (hrefused : ∀ message, (answer (.error message)).edit = .keep)
    (haccepted : Done handled.2.machines → Repeats machines (answer (.ok ())) handled.2) :
    Repeats machines (answer (decodeResponse handled.1)) handled.2 := by
  rcases h with ⟨message, herror, hsame⟩ | ⟨hok, hdone⟩
  · unfold Repeats PageAnswer.apply listed
    rw [herror, hrefused message, hsame]
    exact ⟨trivial, hm⟩
  · rw [hok]
    exact haccepted hdone

theorem repeats_delete (libs : Externals) (fault : SaveFault) {s : Proxy} (n : ℕ)
    (machine : Api.Machine) {machines : List Api.Machine}
    (h : SameByKey Api.Machine.mac machines (listed s)) :
    let handled := deleteMachineApi libs ⟨machine.mac⟩ fault s
    Repeats machines (.deleted n machine (decodeResponse handled.1)) handled.2 := by
  refine (deleteMachineApi_ends libs machine.mac fault s).repeats h (fun _ => rfl) fun hdone => ?_
  have hlisted : listed (deleteMachineApi libs ⟨machine.mac⟩ fault s).2 =
      (Edit.remove machine.mac).apply Api.Machine.mac (listed s) := by
    unfold listed
    rw [hdone, Edit.apply, List.filter_map]
    rfl
  refine ⟨trivial, ?_⟩
  rw [hlisted]
  exact h.apply trivial

theorem repeats_add (libs : Externals) (random : Vector UInt8 32) (fault : SaveFault)
    (now : Instant) {s : Proxy} (n : ℕ) {form : FormSave} (hnew : form.isNew = true)
    (hnames : NamesClean form.machine.portForwards) {machines : List Api.Machine}
    (h : SameByKey Api.Machine.mac machines (listed s)) :
    let handled := addMachineApi libs form.machine.toPayload random fault now s
    Repeats machines (.saved n form (decodeResponse handled.1)) handled.2 := by
  refine (addMachineApi_ends libs hnames random fault now s).repeats h (fun _ => rfl) ?_
  rintro ⟨hfree, new, hview, hdone⟩
  have hedit : (PageAnswer.saved n form (.ok ())).edit = .insert form.machine := if_pos hnew
  unfold Repeats PageAnswer.apply listed
  rw [hedit, hdone, List.map_append, List.map_singleton, hview]
  exact ⟨trivial, h.cons_append (mac_ne_of_listed hfree)⟩

theorem repeats_update (libs : Externals) (random : Vector UInt8 32) (fault : SaveFault)
    (now : Instant) {s : Proxy} (n : ℕ) {form : FormSave} (hnew : ¬ form.isNew = true)
    (hnames : NamesClean form.machine.portForwards) {machines : List Api.Machine}
    (h : SameByKey Api.Machine.mac machines (listed s)) :
    let handled := updateMachineApi libs form.originalMac form.machine.toPayload random fault now s
    Repeats machines (.saved n form (decodeResponse handled.1)) handled.2 := by
  refine (updateMachineApi_ends libs form.originalMac hnames random fault now s).repeats h
    (fun _ => rfl) ?_
  rintro ⟨hfree, index, old, new, hposition, hview, hdone⟩
  have hedit : (PageAnswer.saved n form (.ok ())).edit =
      .replace form.originalMac form.machine := if_neg hnew
  have hfits : (Edit.replace form.originalMac form.machine).Fits Api.Machine.mac machines := by
    refine hfree.imp_right fun hfree => ?_
    rw [h, under_eq_nil]
    exact mac_ne_of_listed hfree
  have hlisted : listed (updateMachineApi libs form.originalMac form.machine.toPayload random fault
      now s).2 = (Edit.replace form.originalMac form.machine).apply Api.Machine.mac (listed s) := by
    unfold listed
    rw [hdone, map_set_eq_replaceFirst hposition, hview]
    rfl
  unfold Repeats PageAnswer.apply
  rw [hedit, hlisted]
  exact ⟨hfits, h.apply hfits⟩

/-- A request that the proxy handles, and the same change on a list that shows the registry. -/
theorem repeats_handle (libs : Externals) (random : Vector UInt8 32) (fault : SaveFault)
    (now : Instant) {s : Proxy} {request : PageRequest}
    (hclean : ∀ n form, request = .save n form → NamesClean form.machine.portForwards)
    {machines : List Api.Machine} (h : SameByKey Api.Machine.mac machines (listed s)) :
    let handled := request.handle libs random fault now s
    Repeats machines handled.1 handled.2 := by
  cases request with
  | fetch => exact ⟨trivial, fun k => rfl⟩
  | delete n machine => exact repeats_delete libs fault n machine h
  | save n form =>
    have hnames := hclean n form rfl
    unfold PageRequest.handle
    by_cases hnew : form.isNew = true
    · simp only [if_pos hnew]
      exact repeats_add libs random fault now n hnew hnames h
    · simp only [if_neg hnew]
      exact repeats_update libs random fault now n hnew hnames h

/-! ### Steps -/

namespace Page

theorem reject_machines (n : ℕ) (message : String) (p : Page) :
    (p.reject n message).dashboard.machines = p.dashboard.machines := by
  unfold reject
  split <;> rfl

/-- The rest of a task changes the list as `apply` says. -/
theorem receive_machines (time : String) (p : Page) (answer : PageAnswer) :
    (p.receive time answer).dashboard.machines = answer.apply p.dashboard.machines := by
  cases answer with
  | saved n form result =>
    cases result with
    | error message => exact reject_machines n message p
    | ok value =>
      unfold receive PageAnswer.apply PageAnswer.edit
      simp only []
      rw [apply_ite (Edit.apply Api.Machine.mac p.dashboard.machines)]
      split <;> rfl
  | deleted n machine result =>
    cases result with
    | error message => exact reject_machines n message p
    | ok value => rfl
  | fetched result =>
    cases result with
    | error message => rfl
    | ok machines => rfl

/-! ### Requests with clean names -/

theorem SendsClean.mono {p q : Page} (h : p.SendsClean) (hsub : q.requests ⊆ p.requests) :
    q.SendsClean := fun n form hmem => h n form (hsub hmem)

/-- One more request is sent. -/
theorem SendsClean.append {p q : Page} (h : p.SendsClean) {request : PageRequest}
    (hrequests : q.requests = p.requests ++ [request])
    (hclean : ∀ n form, request = .save n form → NamesClean form.machine.portForwards) :
    q.SendsClean := by
  intro n form hmem
  rw [hrequests, List.mem_append, List.mem_singleton] at hmem
  rcases hmem with hmem | heq
  · exact h n form hmem
  · exact hclean n form heq.symm

theorem SendsClean.step (libs : Externals) (cases : CaseMapping) {p : Page} (h : p.SendsClean)
    (event : PageEvent) : (p.step libs cases event).SendsClean := by
  cases event with
  | proxy event => exact h
  | dashboard event =>
    obtain ⟨dashboard, -, heq⟩ := step_dashboard libs cases p event
    rw [heq]
    exact h
  | opened machine creating => exact h
  | edited draft services => exact h
  | closed => exact h
  | submitted =>
    rcases press_cases (MachineDialog.submit cases) .save p with
      ⟨-, heq⟩ | ⟨d, -, ⟨-, heq⟩ | ⟨form, hform, heq⟩⟩
    · exact h.mono (by rw [Page.step, heq]; exact List.Subset.refl _)
    · exact h.mono (by rw [Page.step, heq]; exact List.Subset.refl _)
    · refine h.append (by rw [Page.step, heq]) ?_
      rintro n form' ⟨⟩
      exact (MachineDialog.submit_eq_some hform).2.2.2.2
  | deletePressed =>
    rcases press_cases MachineDialog.delete .delete p with
      ⟨-, heq⟩ | ⟨d, -, ⟨-, heq⟩ | ⟨machine, -, heq⟩⟩
    · exact h.mono (by rw [Page.step, heq]; exact List.Subset.refl _)
    · exact h.mono (by rw [Page.step, heq]; exact List.Subset.refl _)
    · refine h.append (by rw [Page.step, heq]) ?_
      rintro n form ⟨⟩
  | refreshed =>
    refine h.append rfl ?_
    rintro n form ⟨⟩
  | served i random fault now broken =>
    show (p.serve libs i random fault now broken).SendsClean
    unfold serve
    split
    · exact h
    · exact h.mono (List.eraseIdx_subset ..)
  | lost i message =>
    show (p.lose i message).SendsClean
    unfold lose
    split
    · exact h
    · exact h.mono (List.eraseIdx_subset ..)
  | arrived i time =>
    unfold Page.step
    simp only []
    split
    · exact h
    · rw [receive_frame]
      exact h

end Page

/-! ### Quiet runs -/

/-- Nobody else changes the registry, no answer gets lost, and an answer that arrives is apart
from the older ones which are still under way. -/
def Page.Quiet (p : Page) : PageEvent → Prop
  | .proxy (.add _ _ _ _) => False
  | .proxy (.update _ _ _ _ _) => False
  | .proxy (.delete _ _) => False
  | .served _ _ _ _ broken => broken = none
  | .arrived i _ => ∀ answer ∈ p.answers[i]?, ∀ older ∈ p.answers.take i, answer.Apart older
  | _ => True

/-- The other events of the proxy do not change what it would list. -/
theorem listed_step (libs : Externals) {p : Page} {event : ProxyEvent}
    (hquiet : p.Quiet (.proxy event)) : listed (step libs p.proxy event) = listed p.proxy := by
  have heffect := step_effect libs p.proxy event
  generalize step libs p.proxy event = s' at heffect
  unfold listed
  cases heffect with
  | idle machines limiter proxies tasks clients database notDeleted => rw [machines]
  | add new valid verified key => exact absurd hquiet id
  | update index old base new position new_eq valid => exact absurd hquiet id
  | delete limiter removed => exact absurd hquiet id
  | rotate index m position enabled =>
    exact Mirror.map_key_set (position_eq_some position).1 rfl
  | verify q index m pending answered position key =>
    exact Mirror.map_key_set (position_eq_some position).1 rfl
  | connection task => rfl
  | tick => rfl
  | forwarder taskStep frame => rw [frame]

namespace Page

/-- **A quiet step keeps the page in step with the registry.** -/
theorem Mirrors.step (libs : Externals) (cases : CaseMapping) {p : Page} (h : p.Mirrors)
    (hclean : p.SendsClean) {event : PageEvent} (hquiet : p.Quiet event) :
    (p.step libs cases event).Mirrors := by
  cases event with
  | proxy event =>
    unfold Mirrors at h ⊢
    rw [← listed_step libs hquiet] at h
    exact h
  | dashboard event =>
    obtain ⟨dashboard, hmachines, heq⟩ := step_dashboard libs cases p event
    rw [heq]
    unfold Mirrors
    rw [hmachines]
    exact h
  | opened machine creating => exact h
  | edited draft services => exact h
  | closed => exact h
  | submitted =>
    rcases press_cases (MachineDialog.submit cases) .save p with
      ⟨-, heq⟩ | ⟨d, -, ⟨-, heq⟩ | ⟨form, -, heq⟩⟩
    all_goals
      rw [Page.step, heq]
      exact h
  | deletePressed =>
    rcases press_cases MachineDialog.delete .delete p with
      ⟨-, heq⟩ | ⟨d, -, ⟨-, heq⟩ | ⟨machine, -, heq⟩⟩
    all_goals
      rw [Page.step, heq]
      exact h
  | refreshed => exact h
  | served i random fault now broken =>
    obtain rfl : broken = none := hquiet
    show (p.serve libs i random fault now none).Mirrors
    unfold serve
    split
    · exact h
    next request hrequest =>
    unfold Mirrors
    rw [List.map_append]
    refine InStep.send h fun machines hm => ?_
    refine repeats_handle libs random fault now (fun n form heq => ?_) hm
    exact hclean n form (heq ▸ List.mem_of_getElem? hrequest)
  | lost i message =>
    show (p.lose i message).Mirrors
    unfold lose
    split
    · exact h
    next request hrequest =>
    unfold Mirrors
    rw [List.map_append]
    refine InStep.send h fun machines hm => ?_
    cases request with
    | save n form => exact ⟨trivial, hm⟩
    | delete n machine => exact ⟨trivial, hm⟩
    | fetch => exact ⟨trivial, hm⟩
  | arrived i time =>
    unfold Page.step
    simp only []
    split
    · exact h
    next answer hanswer =>
    have hapart := hquiet answer hanswer
    rw [receive_frame]
    unfold Mirrors at h ⊢
    simp only [receive_machines]
    obtain ⟨hi, rfl⟩ := List.getElem?_eq_some_iff.mp hanswer
    rw [List.eraseIdx_eq_take_drop_succ, List.map_append]
    refine InStep.overtake ?_ (List.forall_mem_map.mpr hapart)
    rw [← List.map_cons, ← List.map_append, List.getElem_cons_drop, List.take_append_drop]
    exact h

theorem Mirrors.exec (libs : Externals) (cases : CaseMapping) {p : Page} (h : p.Mirrors)
    (hclean : p.SendsClean) {es : List PageEvent}
    (hquiet : Run.Along (Page.step libs cases) Page.Quiet p es) :
    (Run.exec (Page.step libs cases) p es).Mirrors := by
  have hboth := Run.exec_invariant (P := fun p : Page => p.Mirrors ∧ p.SendsClean) ⟨h, hclean⟩
    (fun p event hp hevent => ⟨hp.1.step libs cases hp.2 hevent, hp.2.step libs cases event⟩)
    hquiet
  exact hboth.1

end Page

/-- The answers to both requests are under way, and the second one arrives first. -/
def overtakenList : List PageEvent :=
  [.refreshed, .served 0 sampleBytes .noFault 1 none, .opened enteredNotebook true, .submitted,
    .served 0 sampleBytes .noFault 5 none, .arrived 1 "08:00", .arrived 0 "08:01"]

/-- The list from before the notebook was added replaces the one with it, and the page does not
show the notebook although nothing is under way any more. -/
theorem overtaken_list_is_stale :
    let p := Page.run libraries asciiCases (startMachines [workstation] none fun _ => 0)
      overtakenList
    p.answers.length = 0 ∧ p.dashboard.machines.map Api.Machine.mac = ["AA:BB:CC:DD:EE:01"] ∧
      p.proxy.machines.map Machine.mac = ["AA:BB:CC:DD:EE:01", "AA:BB:CC:DD:EE:03"] := by
  decide +kernel

end Wakezilla
