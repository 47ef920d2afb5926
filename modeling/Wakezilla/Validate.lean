/-
# Validation of machine configurations

`validate_ip`, `validate_mac` (`src/web.rs`) and `validate_machine_config`
(`src/proxy_server.rs`).  The validator collects one message per field in a map,
so a later check of the same field replaces an earlier message; it accepts when
the map stays empty.

`validateMachineConfig_eq_ok` says exactly when that is the case.
-/
import Wakezilla.Machine

namespace Wakezilla

/-! ## Addresses -/

/-- `char::is_whitespace` (the Unicode property `White_Space`). -/
def isWhitespace (c : Char) : Bool :=
  (9 ≤ c.toNat && c.toNat ≤ 13) || c.toNat = 32 || c.toNat = 0x85 || c.toNat = 0xA0
    || c.toNat = 0x1680 || (0x2000 ≤ c.toNat && c.toNat ≤ 0x200A)
    || c.toNat = 0x2028 || c.toNat = 0x2029 || c.toNat = 0x202F || c.toNat = 0x205F
    || c.toNat = 0x3000

/-- `str::trim().is_empty()`. -/
def isBlank (s : String) : Bool := s.toList.all isWhitespace

/-- An ASCII hexadecimal digit, the class `[0-9A-Fa-f]` of `MAC_REGEX`. -/
def isHexDigit (c : Char) : Bool :=
  c.isDigit || ('a' ≤ c && c ≤ 'f') || ('A' ≤ c && c ≤ 'F')

/-- One group of a textual IPv6 address: one to four hexadecimal digits. -/
def isIpv6Group (s : List Char) : Bool :=
  s.all isHexDigit && 1 ≤ s.length && s.length ≤ 4

/-- The number of 16-bit groups that the parts between colons denote, when every part
is a group and the last one may be a dotted IPv4 address, which counts twice. -/
def ipv6Groups : List (List Char) → Option ℕ
  | [] => some 0
  | [part] =>
    if isIpv6Group part then some 1
    else if (parseIpv4 (String.ofList part)).isSome then some 2 else none
  | part :: parts => if isIpv6Group part then (ipv6Groups parts).map (· + 1) else none

/-- The parts between colons; the empty text has none. -/
def ipv6Parts (s : List Char) : List (List Char) := if s = [] then [] else s.splitOn ':'

/-- Every way to cut `s` at a double colon. -/
def doubleColonCuts : List Char → List (List Char × List Char)
  | ':' :: ':' :: rest =>
    ([], rest) :: (doubleColonCuts (':' :: rest)).map fun c => (':' :: c.1, c.2)
  | c :: rest => (doubleColonCuts rest).map fun cut => (c :: cut.1, cut.2)
  | [] => []

/-- `str::parse::<Ipv6Addr>().is_ok()`: eight groups, or at most seven around one `::`,
before which no dotted address may stand. -/
def isIpv6 (s : String) : Bool :=
  ipv6Groups (ipv6Parts s.toList) = some 8
    || (doubleColonCuts s.toList).any fun cut =>
      (ipv6Parts cut.1).all isIpv6Group &&
        match ipv6Groups (ipv6Parts cut.2) with
        | some n => (ipv6Parts cut.1).length + n ≤ 7
        | none => false

/-- `validate_ip`: the text parses as an `IpAddr`. -/
def validateIp (ip : String) : Bool := (parseIpv4 ip).isSome || isIpv6 ip

/-- `MAC_REGEX`, `^([0-9A-Fa-f]{2}[:-]){5}([0-9A-Fa-f]{2})$`: `n` pairs of hexadecimal
digits, each followed by a separator, then a last pair. -/
def matchesMac : ℕ → List Char → Bool
  | 0, [a, b] => isHexDigit a && isHexDigit b
  | n + 1, a :: b :: sep :: rest =>
    isHexDigit a && isHexDigit b && (sep = ':' || sep = '-') && matchesMac n rest
  | _, _ => false

/-- `validate_mac`. -/
def validateMac (mac : String) : Bool := matchesMac 5 mac.toList

/-- `mac.replace('-', ":")` with the letter case of ASCII ignored: two addresses are taken
for the same device when these agree. -/
def normalizeMac (mac : String) : List Char :=
  mac.toList.map fun c => if c = '-' then ':' else c.toLower

theorem length_of_matchesMac {n : ℕ} {s : List Char} (h : matchesMac n s = true) :
    s.length = 3 * n + 2 := by
  induction n generalizing s with
  | zero =>
    match s, h with
    | [a, b], _ => rfl
  | succ n ih =>
    match s, h with
    | a :: b :: sep :: rest, h =>
      simp only [matchesMac, Bool.and_eq_true] at h
      have hrest := ih h.2
      simp only [List.length_cons, hrest]
      omega

/-- Every address that `validate_mac` accepts has seventeen characters. -/
theorem length_of_validateMac {mac : String} (h : validateMac mac = true) :
    mac.toList.length = 17 :=
  length_of_matchesMac h

/-! ## `validate_machine_config` -/

/-- The error map of the API: field to messages. -/
abbrev FieldErrors := Dict String (List String)

/-- One step of the loop over the services of the candidate.  The set of local ports
grows only by ports of services whose own ports are non-zero. -/
def checkService (acc : FieldErrors × List UInt16) (service : Api.PortForward) :
    FieldErrors × List UInt16 :=
  if service.localPort = 0 || service.targetPort = 0 then
    (acc.1.insert "port_forwards" ["Use valid, unique local ports and valid target ports"], acc.2)
  else if service.localPort ∈ acc.2 then
    (acc.1.insert "port_forwards" ["Use valid, unique local ports and valid target ports"], acc.2)
  else (acc.1, service.localPort :: acc.2)

/-- One step of the loop over the other registered machines. -/
def checkExisting (machine : Api.Machine) (ports : List UInt16) (errors : FieldErrors)
    (existing : Machine) : FieldErrors :=
  let errors :=
    if normalizeMac existing.mac = normalizeMac machine.mac then
      errors.insert "mac" ["This MAC address is already registered"]
    else errors
  if existing.portForwards.any fun service => service.localPort ∈ ports then
    errors.insert "port_forwards" ["A local port is already assigned to another machine"]
  else errors

/-- Record `messages` for `field` when `bad` holds. -/
def FieldErrors.note (errors : FieldErrors) (bad : Bool) (field : String)
    (messages : List String) : FieldErrors :=
  if bad then errors.insert field messages else errors

/-- `validate_machine_config`. -/
def validateMachineConfig (machine : Api.Machine) (machines : List Machine)
    (replacing : Option String) : Except FieldErrors Unit :=
  let errors : FieldErrors := ∅
  let errors := errors.note (isBlank machine.name) "name" ["Name is required"]
  let errors := errors.note (parseIpv4 machine.ip).isNone "ip" ["Invalid IPv4 address"]
  let errors := errors.note (!validateMac machine.mac) "mac" ["Invalid MAC address"]
  let errors := errors.note
    (machine.turnOffPort = some 0 || (machine.canBeTurnedOff && machine.turnOffPort.isNone))
    "turn_off_port" ["A client port between 1 and 65535 is required"]
  let (errors, ports) := machine.portForwards.foldl checkService (errors, [])
  let errors := (machines.filter fun existing => some existing.mac ≠ replacing).foldl
    (checkExisting machine ports) errors
  if errors.entries.isEmpty then .ok () else .error errors

/-! ### When the error map stays empty -/

theorem note_entries_eq_nil {errors : FieldErrors} {bad : Bool} {field : String}
    {messages : List String} :
    (errors.note bad field messages).entries = [] ↔ errors.entries = [] ∧ bad = false := by
  cases bad
  · simp [FieldErrors.note]
  · simp [FieldErrors.note]

/-- A service list with valid ports that are pairwise different and not in `ports`. -/
def ServicesOk (ports : List UInt16) (services : List Api.PortForward) : Prop :=
  (∀ s ∈ services, s.localPort ≠ 0 ∧ s.targetPort ≠ 0 ∧ s.localPort ∉ ports) ∧
    (services.map Api.PortForward.localPort).Nodup

theorem servicesOk_cons {ports : List UInt16} {s : Api.PortForward}
    {services : List Api.PortForward} :
    ServicesOk ports (s :: services) ↔
      (s.localPort ≠ 0 ∧ s.targetPort ≠ 0 ∧ s.localPort ∉ ports) ∧
        ServicesOk (s.localPort :: ports) services := by
  unfold ServicesOk
  rw [List.forall_mem_cons, List.map_cons, List.nodup_cons]
  simp only [List.mem_map, List.mem_cons, not_or, not_exists, not_and]
  constructor
  · rintro ⟨⟨hs, hall⟩, hnew, hnodup⟩
    exact ⟨hs, fun t ht => ⟨(hall t ht).1, (hall t ht).2.1, hnew t ht, (hall t ht).2.2⟩, hnodup⟩
  · rintro ⟨hs, hall, hnodup⟩
    exact ⟨⟨hs, fun t ht => ⟨(hall t ht).1, (hall t ht).2.1, (hall t ht).2.2.2⟩⟩,
      fun t ht => (hall t ht).2.2.1, hnodup⟩

/-- The loop over the services leaves the map empty exactly when the services are valid,
and then it has collected their local ports. -/
theorem foldl_checkService (services : List Api.PortForward) (errors : FieldErrors)
    (ports : List UInt16) :
    ((services.foldl checkService (errors, ports)).1.entries = [] ↔
        errors.entries = [] ∧ ServicesOk ports services) ∧
      (ServicesOk ports services → ∀ p, p ∈ (services.foldl checkService (errors, ports)).2 ↔
        p ∈ ports ∨ p ∈ services.map Api.PortForward.localPort) := by
  induction services generalizing errors ports with
  | nil => simp [ServicesOk]
  | cons s services ih =>
    rw [List.foldl_cons, servicesOk_cons]
    by_cases hzero : s.localPort = 0 ∨ s.targetPort = 0
    · have hstep : checkService (errors, ports) s = (errors.insert "port_forwards"
          ["Use valid, unique local ports and valid target ports"], ports) := by
        simp [checkService, hzero]
      rw [hstep]
      refine ⟨?_, fun h => absurd hzero (by tauto)⟩
      rw [(ih _ _).1]
      constructor
      · rintro ⟨h, -⟩
        exact absurd h (Dict.insert_entries_ne_nil _ _ _)
      · rintro ⟨-, h, -⟩
        exact absurd hzero (by tauto)
    · by_cases hmem : s.localPort ∈ ports
      · have hstep : checkService (errors, ports) s = (errors.insert "port_forwards"
            ["Use valid, unique local ports and valid target ports"], ports) := by
          simp [checkService, hmem]
        rw [hstep]
        refine ⟨?_, fun h => absurd hmem h.1.2.2⟩
        rw [(ih _ _).1]
        constructor
        · rintro ⟨h, -⟩
          exact absurd h (Dict.insert_entries_ne_nil _ _ _)
        · rintro ⟨-, h, -⟩
          exact absurd hmem h.2.2
      · have hstep : checkService (errors, ports) s = (errors, s.localPort :: ports) := by
          simp [checkService, hzero, hmem]
        rw [hstep]
        obtain ⟨hempty, hports⟩ := ih errors (s.localPort :: ports)
        refine ⟨?_, fun h p => ?_⟩
        · rw [hempty]
          tauto
        · rw [hports h.2 p, List.map_cons, List.mem_cons, List.mem_cons]
          tauto

/-- A registered machine that does not conflict with the candidate. -/
def NoConflict (machine : Api.Machine) (ports : List UInt16) (existing : Machine) : Prop :=
  normalizeMac existing.mac ≠ normalizeMac machine.mac ∧
    ∀ service ∈ existing.portForwards, service.localPort ∉ ports

theorem checkExisting_entries_eq_nil {machine : Api.Machine} {ports : List UInt16}
    {errors : FieldErrors} {existing : Machine} :
    (checkExisting machine ports errors existing).entries = [] ↔
      errors.entries = [] ∧ NoConflict machine ports existing := by
  unfold checkExisting NoConflict
  by_cases hmac : normalizeMac existing.mac = normalizeMac machine.mac <;>
    by_cases hport : existing.portForwards.any fun service => service.localPort ∈ ports
  all_goals
    simp only [hmac, hport, if_true, if_false, Bool.false_eq_true, Dict.insert_entries_ne_nil,
      not_true_eq_false, ne_eq, false_and, and_false, not_false_eq_true, true_and, false_iff]
  · simpa using fun _ => hport
  · simpa using fun _ => hport

theorem foldl_checkExisting (machine : Api.Machine) (ports : List UInt16)
    (others : List Machine) (errors : FieldErrors) :
    (others.foldl (checkExisting machine ports) errors).entries = [] ↔
      errors.entries = [] ∧ ∀ existing ∈ others, NoConflict machine ports existing := by
  induction others generalizing errors with
  | nil => simp
  | cons other others ih =>
    rw [List.foldl_cons, ih, checkExisting_entries_eq_nil, List.forall_mem_cons, and_assoc]

/-- What the validator demands of a candidate next to the registered machines `others`. -/
structure ValidCandidate (machine : Api.Machine) (others : List Machine) : Prop where
  name : isBlank machine.name = false
  ip : (parseIpv4 machine.ip).isSome = true
  mac : validateMac machine.mac = true
  port : machine.turnOffPort ≠ some 0
  turnOff : machine.canBeTurnedOff = true → machine.turnOffPort.isSome = true
  services : ServicesOk [] machine.portForwards
  macFree : ∀ existing ∈ others, normalizeMac existing.mac ≠ normalizeMac machine.mac
  portsFree : ∀ existing ∈ others, ∀ service ∈ existing.portForwards,
    service.localPort ∉ machine.portForwards.map Api.PortForward.localPort

/-- **The validator accepts exactly the valid candidates.** -/
theorem validateMachineConfig_eq_ok {machine : Api.Machine} {machines : List Machine}
    {replacing : Option String} :
    validateMachineConfig machine machines replacing = .ok () ↔
      ValidCandidate machine
        (machines.filter fun existing => some existing.mac ≠ replacing) := by
  unfold validateMachineConfig
  simp only []
  set others := machines.filter fun existing => some existing.mac ≠ replacing
  obtain ⟨hempty, hports⟩ := foldl_checkService machine.portForwards
    (((((∅ : FieldErrors).note (isBlank machine.name) "name" ["Name is required"]).note
      (parseIpv4 machine.ip).isNone "ip" ["Invalid IPv4 address"]).note
      (!validateMac machine.mac) "mac" ["Invalid MAC address"]).note
      (machine.turnOffPort = some 0 || (machine.canBeTurnedOff && machine.turnOffPort.isNone))
      "turn_off_port" ["A client port between 1 and 65535 is required"]) []
  generalize machine.portForwards.foldl checkService _ = result at hempty hports ⊢
  obtain ⟨errors, ports⟩ := result
  have hiff : (others.foldl (checkExisting machine ports) errors).entries = [] ↔
      ValidCandidate machine others := by
    rw [foldl_checkExisting, hempty]
    simp only [note_entries_eq_nil, AList.empty_entries, true_and]
    constructor
    · rintro ⟨⟨⟨⟨⟨hname, hip⟩, hmac⟩, hport⟩, hservices⟩, hothers⟩
      have hmem := hports hservices
      simp only [List.not_mem_nil, false_or] at hmem
      simp only [Bool.or_eq_false_iff, decide_eq_false_iff_not, Bool.and_eq_false_iff] at hport
      refine ⟨hname, by simpa using hip, by simpa using hmac, hport.1, fun hc => ?_, hservices,
        fun e he => (hothers e he).1, fun e he t ht => ?_⟩
      · simpa [hc] using hport.2
      · rw [← hmem]
        exact (hothers e he).2 t ht
    · intro h
      have hmem := hports h.services
      simp only [List.not_mem_nil, false_or] at hmem
      refine ⟨⟨⟨⟨⟨h.name, by simpa using h.ip⟩, by simpa using h.mac⟩, ?_⟩, h.services⟩,
        fun e he => ⟨h.macFree e he, fun t ht => ?_⟩⟩
      · have hturnOff := h.turnOff
        have hport := h.port
        cases hc : machine.canBeTurnedOff <;> simp_all
      · rw [hmem]
        exact h.portsFree e he t ht
  rw [← hiff, ← List.isEmpty_iff]
  cases (others.foldl (checkExisting machine ports) errors).entries.isEmpty <;> simp

/-! ## Valid registry records -/

/-- The same demands on a registry record, next to the machines `others`. -/
structure ValidMachine (m : Machine) (others : List Machine) : Prop where
  name : isBlank m.name = false
  mac : validateMac m.mac = true
  port : m.turnOffPort ≠ some 0
  turnOff : m.canBeTurnedOff = true → m.turnOffPort.isSome = true
  servicePorts : ∀ pf ∈ m.portForwards, pf.localPort ≠ 0 ∧ pf.targetPort ≠ 0
  localPorts : (m.portForwards.map PortForward.localPort).Nodup
  macFree : ∀ existing ∈ others, normalizeMac existing.mac ≠ normalizeMac m.mac
  portsFree : ∀ existing ∈ others, ∀ pf ∈ existing.portForwards,
    pf.localPort ∉ m.portForwards.map PortForward.localPort

/-- Converting the services keeps their local ports. -/
theorem map_localPort_apiPortForwardToInternal (services : List Api.PortForward) :
    (services.map apiPortForwardToInternal).map PortForward.localPort =
      services.map Api.PortForward.localPort := by
  rw [List.map_map]
  rfl

/-- An accepted candidate becomes a valid record. -/
theorem ValidCandidate.validMachine {api : Api.Machine} {m : Machine} {others : List Machine}
    (h : ValidCandidate api others) (hm : apiMachineToInternal api = .ok m) :
    ValidMachine m others := by
  have hports := map_localPort_apiPortForwardToInternal api.portForwards
  unfold apiMachineToInternal at hm
  split at hm
  · cases hm
  · cases hm
    refine ⟨h.name, h.mac, h.port, h.turnOff, fun pf hpf => ?_, ?_, h.macFree, ?_⟩
    · obtain ⟨service, hservice, rfl⟩ := List.mem_map.mp hpf
      obtain ⟨hlocal, htarget, -⟩ := h.services.1 service hservice
      exact ⟨hlocal, htarget⟩
    · rw [hports]
      exact h.services.2
    · rw [hports]
      exact h.portsFree

/-- Validity does not look at the key. -/
theorem ValidMachine.withKey {m : Machine} {others : List Machine} (h : ValidMachine m others)
    (key : Option String) (verified : Bool) :
    ValidMachine { m with shutdownAuthKey := key, shutdownAuthVerified := verified } others :=
  ⟨h.name, h.mac, h.port, h.turnOff, h.servicePorts, h.localPorts, h.macFree, h.portsFree⟩

end Wakezilla
