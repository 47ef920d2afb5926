/-
# Saving a form that was not edited

Even if nothing was entered, the form does not send what it was given: it trims the texts, drops
a blank description, and writes the MAC in upper case and with colons.  The proxy accepts the
update, and the record is as before up to this (`unedited_form_saved`).

The spelling of the MAC is not only a matter of taste.  A verified machine that was registered
with another spelling has to be verified again, since for the proxy its MAC has changed.
-/
import Wakezilla.ApiRoutes
import Wakezilla.DashboardPage

namespace Wakezilla

open MachineForm

/-! ## What the form makes of a record -/

/-- A MAC as the form writes it. -/
def canonicalMac (cases : CaseMapping) (mac : String) : String :=
  cases.toUppercase (replaceDashes (trimText mac))

/-- A service after the form was submitted as it was opened. -/
def PortForward.asSubmitted (service : PortForward) : PortForward :=
  { service with name := trimText service.name }

/-- The record after the form was submitted as it was opened. -/
def Machine.asSubmitted (cases : CaseMapping) (m : Machine) : Machine :=
  { m with
    name := trimText m.name
    mac := canonicalMac cases m.mac
    description := m.description.filter fun description => !isBlank description
    shutdownAuthVerified := m.shutdownAuthVerified && decide (m.mac = canonicalMac cases m.mac)
    portForwards := m.portForwards.map PortForward.asSubmitted }

/-- The form writes the connection details as it got them. -/
theorem Machine.asSubmitted_connection (cases : CaseMapping) (m : Machine) :
    (m.asSubmitted cases).ip = m.ip ∧ (m.asSubmitted cases).turnOffPort = m.turnOffPort ∧
      (m.asSubmitted cases).canBeTurnedOff = m.canBeTurnedOff := by
  unfold Machine.asSubmitted
  exact ⟨rfl, rfl, rfl⟩

/-- A service as the form sends it if nothing was entered. -/
def uneditedService (service : Api.PortForward) : Api.PortForward :=
  { service with name := enteredName (service.name.getD "") }

/-- The machine that the form sends if nothing was entered. -/
def uneditedMachine (cases : CaseMapping) (m : Machine) : Api.Machine :=
  MachineDialog.normalized cases (machineToApiMachine m)
    ((machineToApiMachine m).portForwards.map uneditedService)

/-! ## Trimming -/

/-- Trimming leaves a text without white space alone. -/
theorem trim_eq_self {s : List Char} (h : ∀ c ∈ s, isWhitespace c = false) : trim s = s := by
  have hdrop : s.dropWhile isWhitespace = s := by
    rw [List.dropWhile_eq_self_iff]
    intro hs
    rw [h _ (List.getElem_mem hs)]
    exact Bool.false_ne_true
  unfold trim
  rw [hdrop, List.rdropWhile_eq_self_iff]
  intro hs
  rw [h _ (List.getLast_mem hs)]
  exact Bool.false_ne_true

/-- What trimming leaves has nothing to trim. -/
theorem trim_trim (s : List Char) : trim (trim s) = trim s := by
  have hfront : (trim s).dropWhile isWhitespace = trim s := by
    rw [List.dropWhile_eq_self_iff]
    intro hs
    -- the first character is the first one that is not white space
    have hpre : trim s <+: s.dropWhile isWhitespace := List.rdropWhile_prefix isWhitespace _
    have hlong : 0 < (s.dropWhile isWhitespace).length := lt_of_lt_of_le hs hpre.length_le
    rw [hpre.getElem hs]
    exact List.dropWhile_get_zero_not isWhitespace s hlong
  calc trim (trim s) = ((trim s).dropWhile isWhitespace).rdropWhile isWhitespace := rfl
    _ = (trim s).rdropWhile isWhitespace := by rw [hfront]
    _ = trim s := List.rdropWhile_idempotent isWhitespace _

theorem trimText_trimText (text : String) : trimText (trimText text) = trimText text := by
  simp only [trimText, String.toList_ofList, trim_trim]

/-- Nothing is left of a blank text, and something of any other. -/
theorem trim_eq_nil_iff {text : String} : trim text.toList = [] ↔ isBlank text = true := by
  unfold trim isBlank
  rw [List.rdropWhile_eq_nil_iff, List.all_eq_true]
  constructor
  · intro h c hc
    by_contra hne
    -- what is left begins with a character that is not white space
    have hrest : text.toList.dropWhile isWhitespace ≠ [] := by
      intro hnil
      exact hne (List.dropWhile_eq_nil_iff.mp hnil c hc)
    have hhead := List.head_dropWhile_not isWhitespace hrest
    rw [h _ (List.head_mem hrest)] at hhead
    cases hhead
  · intro h c hc
    exact h c ((List.dropWhile_sublist _).subset hc)

theorem isBlank_trimText_of {text : String} (h : isBlank text = false) :
    isBlank (trimText text) = false := by
  apply isBlank_trimText
  intro hnil
  rw [trim_eq_nil_iff.mp hnil] at h
  cases h

theorem trimText_eq_self {text : String} (h : ∀ c ∈ text.toList, isWhitespace c = false) :
    trimText text = text := by
  unfold trimText
  rw [trim_eq_self h, String.ofList_toList]

/-! ## Services -/

/-- **The text of a port is read back.** -/
theorem parseU16_repr (port : UInt16) : parseU16 port.toNat.repr = some port := by
  have hvalue : decimalValue (Nat.toDigits 10 port.toNat) = port.toNat := by
    have hdigits := Nat.ofDigitChars_toDigits (n := port.toNat) (by decide : 1 < 10) (le_refl 10)
    rw [Nat.ofDigitChars_eq_foldl] at hdigits
    exact hdigits
  have hall : ∀ c ∈ Nat.toDigits 10 port.toNat, c.isDigit = true := fun c hc =>
    Nat.isDigit_of_mem_toDigits (by decide) (by decide) hc
  have hrange : port.toNat < 65536 := port.toNat_lt
  unfold parseU16
  rw [Nat.toList_repr]
  split
  next digits rest heq =>
    have hdigit := hall '+' (by rw [heq]; exact List.mem_cons_self)
    cases hdigit
  next digits =>
    dsimp only
    rw [hvalue]
    simp only [Nat.toDigits_ne_nil, ne_eq, not_false_eq_true, decide_true,
      List.all_eq_true.mpr hall, hrange, Bool.and_self, if_true, UInt16.ofNat_toNat]

theorem enteredPort_portText {port : UInt16} (h : port ≠ 0) (message : String) :
    enteredPort (portText port) message = .ok port := by
  unfold enteredPort portText
  rw [if_neg h, parseU16_repr, Option.filter_some, if_pos]
  exact decide_eq_true (UInt16.pos_iff_ne_zero.mpr h)

/-- The inputs of a service give back its ports and its trimmed name. -/
theorem value_new (id : ℕ) {service : Api.PortForward} (hlocal : service.localPort ≠ 0)
    (htarget : service.targetPort ≠ 0) :
    (ServiceDraft.new id service).value = .ok (uneditedService service) := by
  unfold ServiceDraft.value ServiceDraft.new uneditedService
  simp only [enteredPort_portText hlocal, enteredPort_portText htarget]

theorem serviceValues_new (n : ℕ) {services : List Api.PortForward}
    (h : ∀ service ∈ services, service.localPort ≠ 0 ∧ service.targetPort ≠ 0) :
    serviceValues ((services.zipIdx n).map fun service => .new service.2 service.1) =
      .ok (services.map uneditedService) := by
  induction services generalizing n with
  | nil => rfl
  | cons service services ih =>
    obtain ⟨⟨hlocal, htarget⟩, hrest⟩ := List.forall_mem_cons.mp h
    rw [List.zipIdx_cons, List.map_cons, serviceValues, value_new n hlocal htarget, ih _ hrest]
    rfl

/-- A service name comes back trimmed. -/
theorem internal_uneditedService (service : PortForward) :
    apiPortForwardToInternal (uneditedService (internalPortForwardToApi service)) =
      service.asSubmitted := by
  have hname : (enteredName ((internalPortForwardToApi service).name.getD "")).getD "" =
      trimText service.name := by
    unfold enteredName internalPortForwardToApi
    cases hblank : isBlank service.name with
    | true =>
      have htrim := trim_eq_nil_iff.mpr hblank
      simp only [if_true, Option.getD_none, trimText, htrim]
      rfl
    | false =>
      have htrim : trim service.name.toList ≠ [] := by
        intro hnil
        rw [trim_eq_nil_iff.mp hnil] at hblank
        cases hblank
      simp only [Bool.false_eq_true, if_false, Option.getD_some, htrim]
  unfold apiPortForwardToInternal uneditedService PortForward.asSubmitted
  rw [hname]
  rfl

/-! ## The MAC -/

/-- What the form makes of a character of a MAC. -/
def canonicalChar (c : Char) : Char := (if c = '-' then ':' else c).toUpper

/-- A character that may stand in a MAC, and what is known of it. -/
theorem canonicalChar_spec {c : Char} (h : isHexDigit c = true ∨ c = ':' ∨ c = '-') :
    c.toNat < 128 ∧ isWhitespace c = false ∧
      (isHexDigit c = true → isHexDigit (canonicalChar c) = true) ∧
      (c = ':' ∨ c = '-' → canonicalChar c = ':') ∧
      (if canonicalChar c = '-' then ':' else (canonicalChar c).toLower) =
        (if c = '-' then ':' else c.toLower) ∧
      canonicalChar (canonicalChar c) = canonicalChar c := by
  have hall : ((':' :: '-' :: hexDigits).all fun c => decide (c.toNat < 128 ∧
      isWhitespace c = false ∧ (isHexDigit c = true → isHexDigit (canonicalChar c) = true) ∧
      (c = ':' ∨ c = '-' → canonicalChar c = ':') ∧
      (if canonicalChar c = '-' then ':' else (canonicalChar c).toLower) =
        (if c = '-' then ':' else c.toLower) ∧
      canonicalChar (canonicalChar c) = canonicalChar c)) = true := by
    decide +kernel
  refine of_decide_eq_true (List.all_eq_true.mp hall c ?_)
  rcases h with hhex | rfl | rfl
  · exact List.mem_cons_of_mem _ (List.mem_cons_of_mem _ (mem_hexDigits hhex))
  · exact List.mem_cons_self
  · exact List.mem_cons_of_mem _ List.mem_cons_self

/-- The form changes a valid MAC character by character. -/
theorem canonicalMac_toList (cases : CaseMapping) {mac : String} (h : validateMac mac = true) :
    (canonicalMac cases mac).toList = mac.toList.map canonicalChar := by
  have hchar : ∀ c ∈ mac.toList, isHexDigit c = true ∨ c = ':' ∨ c = '-' := fun c hc =>
    mem_of_matchesMac h hc
  have htrim : trimText mac = mac :=
    trimText_eq_self fun c hc => (canonicalChar_spec (hchar c hc)).2.1
  unfold canonicalMac CaseMapping.toUppercase replaceDashes
  rw [htrim, String.toList_ofList, String.toList_ofList, List.flatMap_map]
  have hupper : ∀ c ∈ mac.toList,
      cases.upper (if c = '-' then ':' else c) = [canonicalChar c] := by
    intro c hc
    refine cases.ascii _ ?_
    split
    · decide
    · exact (canonicalChar_spec (hchar c hc)).1
  rw [List.flatMap_congr hupper, List.map_eq_flatMap]

theorem matchesMac_canonical {n : ℕ} {s : List Char} (h : matchesMac n s = true) :
    matchesMac n (s.map canonicalChar) = true := by
  have hhex : ∀ c, isHexDigit c = true → isHexDigit (canonicalChar c) = true := fun c hc =>
    (canonicalChar_spec (Or.inl hc)).2.2.1 hc
  fun_induction matchesMac n s with
  | case1 a b =>
    simp only [Bool.and_eq_true] at h
    simp only [List.map_cons, List.map_nil, matchesMac, hhex a h.1, hhex b h.2, Bool.and_self]
  | case2 n a b sep rest ih =>
    simp only [Bool.and_eq_true, Bool.or_eq_true, decide_eq_true_eq] at h
    obtain ⟨⟨⟨ha, hb⟩, hsep⟩, hrest⟩ := h
    have hcolon : canonicalChar sep = ':' := (canonicalChar_spec (Or.inr hsep)).2.2.2.1 hsep
    simp only [List.map_cons, matchesMac, hhex a ha, hhex b hb, hcolon, ih hrest, decide_true,
      Bool.true_or, Bool.and_self]
  | case3 => cases h

/-- The form writes the same MAC, in a spelling that is valid. -/
theorem canonicalMac_spec (cases : CaseMapping) {mac : String} (h : validateMac mac = true) :
    validateMac (canonicalMac cases mac) = true ∧
      normalizeMac (canonicalMac cases mac) = normalizeMac mac := by
  constructor
  · unfold validateMac
    rw [canonicalMac_toList cases h]
    exact matchesMac_canonical h
  · unfold normalizeMac
    rw [canonicalMac_toList cases h, List.map_map]
    apply List.map_congr_left
    intro c hc
    exact (canonicalChar_spec (mem_of_matchesMac h hc)).2.2.2.2.1

/-- A MAC that the form wrote stays as it is. -/
theorem canonicalMac_canonicalMac (cases : CaseMapping) {mac : String}
    (h : validateMac mac = true) :
    canonicalMac cases (canonicalMac cases mac) = canonicalMac cases mac := by
  apply String.toList_injective
  rw [canonicalMac_toList cases (canonicalMac_spec cases h).1, canonicalMac_toList cases h,
    List.map_map]
  apply List.map_congr_left
  intro c hc
  exact (canonicalChar_spec (mem_of_matchesMac h hc)).2.2.2.2.2

/-- The form takes a valid MAC for one. -/
theorem looksLikeMac_of_validateMac {mac : String} (h : validateMac mac = true) :
    isBlank mac = false ∧ looksLikeMac mac = true := by
  have hlength := length_of_validateMac h
  have hchar : ∀ c ∈ mac.toList, isHexDigit c = true ∨ c = ':' ∨ c = '-' := fun c hc =>
    mem_of_matchesMac h hc
  have hsize : mac.utf8ByteSize = 17 := by
    have hone : ∀ c ∈ mac.toList, (String.utf8EncodeChar c).length = 1 := by
      intro c hc
      rw [String.length_utf8EncodeChar]
      exact Char.utf8Size_eq_one_iff.mpr (Nat.le_of_lt_succ (canonicalChar_spec (hchar c hc)).1)
    have hbytes : mac.utf8ByteSize = (asBytes mac).length := rfl
    rw [hbytes, asBytes_eq_flatMap, List.length_flatMap, List.map_congr_left hone]
    simpa using hlength
  constructor
  · rw [isBlank, List.all_eq_false]
    have hlong : 0 < mac.toList.length := by
      rw [hlength]
      decide
    obtain ⟨c, hc⟩ := List.exists_mem_of_length_pos hlong
    refine ⟨c, hc, ?_⟩
    rw [(canonicalChar_spec (hchar c hc)).2.1]
    exact Bool.false_ne_true
  · have hfilter :
        (mac.toList.filter fun c => isHexDigit c || c = ':' || c = '-') = mac.toList := by
      rw [List.filter_eq_self]
      intro c hc
      simpa [or_assoc] using hchar c hc
    unfold looksLikeMac
    rw [hfilter, hlength, hsize]
    decide

/-! ## The update -/

/-- `apply_shutdown_security` for a machine that got another MAC and kept the rest of its
connection details: the key is put back, and the flag if the MAC is the same. -/
theorem applyShutdownSecurity_renamed (engine : Base64Engine) (random : Vector UInt8 32)
    {old new : Machine} (hold : old.AuthConsistent) (hip : new.ip = old.ip)
    (hport : new.turnOffPort = old.turnOffPort)
    (hon : new.canBeTurnedOff = old.canBeTurnedOff) :
    applyShutdownSecurity engine random (some old) new =
      { new with
        shutdownAuthKey := old.shutdownAuthKey
        shutdownAuthVerified := old.shutdownAuthVerified && decide (old.mac = new.mac) } := by
  obtain ⟨hkeyOn, hverifiedKey⟩ := hold
  have henabled : new.shutdownEnabled = old.shutdownEnabled := by
    rw [Machine.shutdownEnabled, Machine.shutdownEnabled, hport, hon]
  have hunverified : old.shutdownAuthKey = none → old.shutdownAuthVerified = false := by
    intro hnone
    by_contra htrue
    have hsome := hverifiedKey (by simpa using htrue)
    rw [hnone] at hsome
    cases hsome
  unfold applyShutdownSecurity
  rw [henabled]
  cases hcase : old.shutdownEnabled with
  | false =>
    -- a machine that is not enabled has no key
    have hkey : old.shutdownAuthKey = none := by
      by_contra hsome
      obtain ⟨hcan, hhas⟩ := hkeyOn (Option.isSome_iff_ne_none.mpr hsome)
      simp [Machine.shutdownEnabled, hcan, hhas] at hcase
    simp [hkey, hunverified hkey]
  | true =>
    cases hkey : old.shutdownAuthKey with
    | none => simp [Option.filter_some, hcase, hkey, hunverified hkey]
    | some key => simp [Option.filter_some, hcase, hkey, hip, hport]

/-- To submit the record that came of it changes nothing more. -/
theorem Machine.asSubmitted_asSubmitted (cases : CaseMapping) {m : Machine}
    (h : validateMac m.mac = true) :
    (m.asSubmitted cases).asSubmitted cases = m.asSubmitted cases := by
  have hservice : PortForward.asSubmitted ∘ PortForward.asSubmitted = PortForward.asSubmitted := by
    funext service
    simp only [Function.comp_apply, PortForward.asSubmitted, trimText_trimText]
  simp only [Machine.asSubmitted, canonicalMac_canonicalMac cases h, trimText_trimText,
    Option.filter_filter, Bool.and_self, List.map_map, hservice, decide_true, Bool.and_true]

/-- So the submitted record gets the key that the form does not send. -/
theorem applyShutdownSecurity_asSubmitted (engine : Base64Engine) (random : Vector UInt8 32)
    (cases : CaseMapping) {m : Machine} (hm : m.AuthConsistent) :
    applyShutdownSecurity engine random (some m)
        { m.asSubmitted cases with shutdownAuthKey := none, shutdownAuthVerified := false } =
      m.asSubmitted cases := by
  unfold Machine.asSubmitted
  exact applyShutdownSecurity_renamed engine random hm rfl rfl rfl

/-- What the form sends for a valid machine is valid where the machine is. -/
theorem ValidMachine.asSubmitted {m : Machine} {others : List Machine}
    (h : ValidMachine m others) (cases : CaseMapping) :
    ValidMachine (m.asSubmitted cases) others := by
  obtain ⟨hvalidMac, hsameMac⟩ := canonicalMac_spec cases h.mac
  have hports : (m.asSubmitted cases).portForwards.map PortForward.localPort =
      m.portForwards.map PortForward.localPort := by
    show (m.portForwards.map _).map _ = _
    rw [List.map_map]
    rfl
  obtain ⟨-, hport, hon⟩ := m.asSubmitted_connection cases
  refine ⟨isBlank_trimText_of h.name, hvalidMac, ?_, ?_, fun service hs => ?_, ?_,
    fun existing he => ?_, ?_⟩
  · rw [hport]
    exact h.port
  · rw [hport, hon]
    exact h.turnOff
  · obtain ⟨old, hold, rfl⟩ := List.mem_map.mp hs
    exact h.servicePorts old hold
  · rw [hports]
    exact h.localPorts
  · show normalizeMac existing.mac ≠ normalizeMac (canonicalMac cases m.mac)
    rw [hsameMac]
    exact h.macFree existing he
  · rw [hports]
    exact h.portsFree

/-- The text of an address has nothing to trim. -/
theorem trimText_toString (ip : Ipv4Addr) : trimText ip.toString = ip.toString := by
  have hdigit : ∀ (n : ℕ) (c : Char), c ∈ n.repr.toList → isWhitespace c = false := by
    intro n c hc
    rw [Nat.toList_repr] at hc
    have hdigit := Nat.isDigit_of_mem_toDigits (by decide) (by decide) hc
    have hhex : isHexDigit c = true := by
      rw [isHexDigit, hdigit, Bool.true_or, Bool.true_or]
    exact (canonicalChar_spec (Or.inl hhex)).2.1
  refine trimText_eq_self fun c hc => ?_
  simp only [Ipv4Addr.toString, String.toList_append, List.mem_append] at hc
  have hdot : ∀ c ∈ ".".toList, isWhitespace c = false := by
    intro c hc
    rw [List.mem_singleton.mp hc]
    rfl
  rcases hc with (((((hc | hc) | hc) | hc) | hc) | hc) | hc
  · exact hdigit _ c hc
  · exact hdot c hc
  · exact hdigit _ c hc
  · exact hdot c hc
  · exact hdigit _ c hc
  · exact hdot c hc
  · exact hdigit _ c hc

/-! ## The form -/

theorem uneditedMachine_ip (cases : CaseMapping) (m : Machine) :
    (uneditedMachine cases m).ip = m.ip.toString := trimText_toString m.ip

/-- The proxy reads what the form sends as the submitted record without its key. -/
theorem apiMachineToInternal_uneditedMachine (cases : CaseMapping) (m : Machine) :
    apiMachineToInternal (uneditedMachine cases m) =
      .ok { m.asSubmitted cases with shutdownAuthKey := none, shutdownAuthVerified := false } := by
  have hservices : (uneditedMachine cases m).portForwards.map apiPortForwardToInternal =
      m.portForwards.map PortForward.asSubmitted := by
    show (((m.portForwards.map internalPortForwardToApi).map _).map _) = _
    rw [List.map_map, List.map_map]
    apply List.map_congr_left
    intro service _
    exact internal_uneditedService service
  unfold apiMachineToInternal Machine.asSubmitted
  rw [uneditedMachine_ip, parseIpv4_toString, hservices]
  rfl

/-- The check of the form has nothing against a valid machine. -/
theorem validateMachineForm_uneditedMachine (cases : CaseMapping) {m : Machine}
    {others : List Machine} (h : ValidMachine m others) :
    (validateMachineForm (uneditedMachine cases m)).entries = [] := by
  obtain ⟨hmacBlank, hmacLooks⟩ := looksLikeMac_of_validateMac (canonicalMac_spec cases h.mac).1
  refine validateMachineForm_eq_nil.mpr ⟨isBlank_trimText_of h.name, ?_, h.port, hmacBlank,
    hmacLooks⟩
  rw [uneditedMachine_ip, parseIpv4_toString]
  rfl

/-- The form of a valid machine sends its request. -/
theorem submit_unedited (cases : CaseMapping) {m : Machine} {others : List Machine}
    (h : ValidMachine m others) :
    ((MachineDialog.new (machineToApiMachine m) false).submit cases).2 =
      some ⟨m.mac, uneditedMachine cases m, false⟩ := by
  have hsaving : ¬(MachineDialog.new (machineToApiMachine m) false).saving = true :=
    Bool.false_ne_true
  have hports : ∀ service ∈ (machineToApiMachine m).portForwards,
      service.localPort ≠ 0 ∧ service.targetPort ≠ 0 := by
    intro service hs
    obtain ⟨pf, hpf, rfl⟩ := List.mem_map.mp hs
    exact h.servicePorts pf hpf
  have hvalues : serviceValues (MachineDialog.new (machineToApiMachine m) false).services =
      .ok ((machineToApiMachine m).portForwards.map uneditedService) := serviceValues_new 0 hports
  unfold MachineDialog.submit
  rw [if_neg hsaving]
  simp only [hvalues]
  rw [if_neg]
  · rfl
  · show ¬(!(validateMachineForm (uneditedMachine cases m)).entries.isEmpty) = true
    rw [validateMachineForm_uneditedMachine cases h]
    decide

/-- **A form that was not edited is saved.**  The proxy accepts it, the other machines stay as
they are, and the record is as before but for the texts that the form writes in its own way; the
machine stays verified exactly if its MAC was already written in that way.  To open and submit
the form once more would change nothing. -/
theorem unedited_form_saved (libs : Externals) (cases : CaseMapping) (s : Proxy)
    (hrules : RegistryRules s.machines) (hauth : ∀ m ∈ s.machines, m.AuthConsistent)
    (m : Machine) (hm : m ∈ s.machines) (random : Vector UInt8 32) (now : Instant) :
    ∃ form, ((MachineDialog.new (machineToApiMachine m) false).submit cases).2 = some form ∧
      let update := updateMachineApi libs form.originalMac form.machine.toPayload random .noFault
        now s
      update.1.code = 200 ∧
        (∃ i, s.machines[i]? = some m ∧
          update.2.machines = s.machines.set i (m.asSubmitted cases)) ∧
        (m.asSubmitted cases).asSubmitted cases = m.asSubmitted cases := by
  have hvalid := validRegistry_iff_rules.mpr hrules
  have hown := hvalid.validMachine_others hm
  obtain ⟨i, hposition⟩ := position_of_mem hvalid.distinct hm
  have hconverted := apiMachineToInternal_uneditedMachine cases m
  have haccepted : validateMachineConfig (uneditedMachine cases m) s.machines (some m.mac) =
      .ok () := by
    rw [validateMachineConfig_eq_ok, validCandidate_iff_validMachine hconverted]
    exact (hown.asSubmitted cases).withKey none false
  have hsecured := applyShutdownSecurity_asSubmitted libs.base64 random cases (hauth m hm)
  obtain ⟨hcode, hmachines⟩ :=
    updateMachineApi_accepted libs now hposition haccepted hconverted hsecured
  exact ⟨_, submit_unedited cases hown, hcode, ⟨i, (position_eq_some hposition).1, hmachines⟩,
    m.asSubmitted_asSubmitted cases hown.mac⟩

/-- A verified machine that was registered with dashes.  It is no longer verified. -/
theorem dashed_form_saved :
    let m := { workstation with mac := "aa-bb-cc-dd-ee-01", shutdownAuthVerified := true }
    let s := startMachines [m] none fun _ => 0
    ∃ form, ((MachineDialog.new (machineToApiMachine m) false).submit asciiCases).2 = some form ∧
      (updateMachineApi libraries form.originalMac form.machine.toPayload sampleBytes .noFault 5
        s).2.machines = [workstation] := by
  intro m s
  have hrules : RegistryRules s.machines :=
    ⟨by decide, by decide, by decide, by decide, by decide, by decide, by decide, by decide⟩
  have hauth : ∀ m ∈ s.machines, m.AuthConsistent := by
    intro m' hm'
    rw [List.mem_singleton.mp hm']
    exact ⟨fun _ => ⟨rfl, rfl⟩, fun _ => rfl⟩
  obtain ⟨form, hform, -, ⟨i, hi, hmachines⟩, -⟩ := unedited_form_saved libraries asciiCases s
    hrules hauth m (List.mem_singleton_self m) sampleBytes 5
  refine ⟨form, hform, ?_⟩
  rw [hmachines]
  cases i with
  | zero => decide +kernel
  | succ i => cases hi

end Wakezilla
