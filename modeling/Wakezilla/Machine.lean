/-
# Machines and their two representations

The data model of `common/src/lib.rs` and `src/web.rs`.  A machine exists twice:

* `Machine` is the registry record of the proxy (`web::Machine`), with a parsed
  address and the shutdown key;
* `Api.Machine` is what the HTTP API exchanges (`wakezilla_common::Machine`), with
  the address as text and without the key.

`apiMachineToInternal` and `machineToApiMachine` convert between them.
-/
import Wakezilla.Library.Dict

namespace Wakezilla

/-- `MachineType` of `common/src/lib.rs`; the default is `server`. -/
inductive MachineType
  | server
  | nas
  | computer
  | miniPc
  | raspberryPi
  | notebook
  deriving DecidableEq, Repr, Inhabited

/-- An IPv4 address, as its four octets (`std::net::Ipv4Addr`). -/
structure Ipv4Addr where
  a : UInt8
  b : UInt8
  c : UInt8
  d : UInt8
  deriving DecidableEq, Repr

/-- `web::PortForward`. -/
structure PortForward where
  name : String
  localPort : UInt16
  targetPort : UInt16
  deriving DecidableEq, Repr

/-- `web::Machine`, a record of the registry. -/
structure Machine where
  mac : String
  ip : Ipv4Addr
  name : String
  machineType : MachineType
  description : Option String
  turnOffPort : Option UInt16
  canBeTurnedOff : Bool
  shutdownAuthKey : Option String
  shutdownAuthVerified : Bool
  inactivityPeriod : UInt32
  portForwards : List PortForward
  deriving DecidableEq, Repr

/-- Remote shutdown is configured: the test `can_be_turned_off && turn_off_port.is_some()`
that the handlers make. -/
def Machine.shutdownEnabled (m : Machine) : Bool := m.canBeTurnedOff && m.turnOffPort.isSome

namespace Api

/-- `wakezilla_common::PortForward`. -/
structure PortForward where
  name : Option String
  localPort : UInt16
  targetPort : UInt16
  deriving DecidableEq, Repr

/-- `wakezilla_common::Machine`. -/
structure Machine where
  name : String
  machineType : MachineType
  mac : String
  ip : String
  description : Option String
  turnOffPort : Option UInt16
  canBeTurnedOff : Bool
  inactivityPeriod : UInt32
  portForwards : List PortForward
  deriving DecidableEq, Repr

/-- `AddMachinePayload` and `UpdateMachinePayload`, which have the same members. -/
structure MachinePayload where
  machineType : Option MachineType
  mac : String
  ip : String
  name : String
  description : Option String
  turnOffPort : Option UInt16
  canBeTurnedOff : Bool
  inactivityPeriod : Option UInt32
  portForwards : Option (List PortForward)
  deriving DecidableEq, Repr

/-- `DeleteMachinePayload`. -/
structure DeleteMachinePayload where
  mac : String
  deriving DecidableEq, Repr

end Api

/-- `web::get_default_inactivity_period`, in minutes. -/
def getDefaultInactivityPeriod : UInt32 := 60

/-! ## Text of addresses -/

/-- The decimal digits of a string of ASCII digits, most significant first. -/
def decimalValue (s : List Char) : ℕ := s.foldl (fun n c => 10 * n + (c.toNat - '0'.toNat)) 0

/-- One octet of a dotted address: one to three digits, no leading zero, at most `255`. -/
def parseOctet (s : List Char) : Option UInt8 :=
  if s.all Char.isDigit && s ≠ [] && s.length ≤ 3 && (s.length = 1 || s.head? ≠ some '0')
      && decimalValue s < 256 then
    some (UInt8.ofNat (decimalValue s))
  else none

/-- `str::parse::<Ipv4Addr>`: exactly four octets separated by dots. -/
def parseIpv4 (s : String) : Option Ipv4Addr :=
  match s.toList.splitOn '.' with
  | [a, b, c, d] => do
    let a ← parseOctet a
    let b ← parseOctet b
    let c ← parseOctet c
    let d ← parseOctet d
    return ⟨a, b, c, d⟩
  | _ => none

/-- `Ipv4Addr::to_string`. -/
def Ipv4Addr.toString (ip : Ipv4Addr) : String :=
  ip.a.toNat.repr ++ "." ++ ip.b.toNat.repr ++ "." ++ ip.c.toNat.repr ++ "." ++ ip.d.toNat.repr

theorem parseOctet_repr (a : UInt8) : parseOctet a.toNat.repr.toList = some a := by
  have hall : ∀ n < 256, parseOctet (Nat.toDigits 10 n) = some (UInt8.ofNat n) := by decide +kernel
  have hparse := hall a.toNat a.toNat_lt
  rw [Nat.toList_repr, hparse, UInt8.ofNat_toNat]

/-- Decimal text consists of digits. -/
theorem not_mem_repr {c : Char} (hc : c.isDigit = false) (n : ℕ) : c ∉ n.repr.toList := by
  rw [Nat.toList_repr]
  intro h
  have hdigit := Nat.isDigit_of_mem_toDigits (by decide) (by decide) h
  rw [hc] at hdigit
  cases hdigit

/-- **The text of an address is read back as that address.** -/
theorem parseIpv4_toString (ip : Ipv4Addr) : parseIpv4 ip.toString = some ip := by
  obtain ⟨a, b, c, d⟩ := ip
  have htext : (Ipv4Addr.toString ⟨a, b, c, d⟩).toList =
      ['.'].intercalate [a.toNat.repr.toList, b.toNat.repr.toList, c.toNat.repr.toList,
        d.toNat.repr.toList] := by
    simp [Ipv4Addr.toString, List.intercalate]
  have hsplit : (Ipv4Addr.toString ⟨a, b, c, d⟩).toList.splitOn '.' =
      [a.toNat.repr.toList, b.toNat.repr.toList, c.toNat.repr.toList, d.toNat.repr.toList] := by
    rw [htext]
    refine List.splitOn_intercalate '.' ?_ (by simp)
    have hdot : ∀ n : ℕ, '.' ∉ n.repr.toList := not_mem_repr (by decide)
    simp only [List.forall_mem_cons]
    exact ⟨hdot _, hdot _, hdot _, hdot _, by simp⟩
  simp only [parseIpv4, hsplit, parseOctet_repr]
  rfl

theorem digitChar_of_isDigit {c : Char} (h : c.isDigit = true) :
    c.toNat - '0'.toNat < 10 ∧ Nat.digitChar (c.toNat - '0'.toNat) = c := by
  have hall : ∀ n < 10, Nat.digitChar n = Char.ofNat (48 + n) := by decide
  simp only [Char.isDigit, Bool.and_eq_true, decide_eq_true_eq] at h
  have hlow : 48 ≤ c.toNat := UInt32.le_iff_toNat_le.mp h.1
  have hhigh : c.toNat ≤ 57 := UInt32.le_iff_toNat_le.mp h.2
  have hzero : '0'.toNat = 48 := rfl
  rw [hzero]
  refine ⟨by omega, ?_⟩
  rw [hall _ (by omega), Nat.add_sub_cancel' hlow, Char.ofNat_toNat]

/-- The digits of a number are read back, and a number has one spelling without leading zeros. -/
theorem toDigits_decimalValue {s : List Char} (hdigits : ∀ c ∈ s, c.isDigit = true) (hs : s ≠ [])
    (hzero : s.length = 1 ∨ s.head? ≠ some '0') : Nat.toDigits 10 (decimalValue s) = s := by
  induction s using List.reverseRecOn with
  | nil => exact absurd rfl hs
  | append_singleton init c ih =>
    obtain ⟨hlt, hchar⟩ := digitChar_of_isDigit (hdigits c (by simp))
    have hvalue : decimalValue (init ++ [c]) =
        10 * decimalValue init + (c.toNat - '0'.toNat) := by
      simp only [decimalValue, List.foldl_append, List.foldl_cons, List.foldl_nil]
    have hlast : Nat.toDigits 10 (c.toNat - '0'.toNat) = [c] := by
      rw [Nat.toDigits_of_lt_base hlt, hchar]
    by_cases hinit : init = []
    · subst hinit
      rw [hvalue]
      simpa [decimalValue] using hlast
    · have hhead : init.head? ≠ some '0' := by
        rcases hzero with hlength | hhead
        · have := List.length_pos_iff.mpr hinit
          rw [List.length_append, List.length_singleton] at hlength
          omega
        · rwa [List.head?_append_of_ne_nil _ hinit] at hhead
      have hdigitsInit := ih (fun d hd => hdigits d (List.mem_append_left _ hd)) hinit
        (Or.inr hhead)
      have hpos : 0 < decimalValue init := by
        by_contra hnot
        rw [Nat.eq_zero_of_not_pos hnot] at hdigitsInit
        rw [← hdigitsInit] at hhead
        exact hhead rfl
      rw [hvalue, ← Nat.toDigits_append_toDigits (by decide) hpos hlt, hdigitsInit, hlast]

/-- An octet has one spelling. -/
theorem repr_of_parseOctet {s : List Char} {a : UInt8} (h : parseOctet s = some a) :
    a.toNat.repr.toList = s := by
  unfold parseOctet at h
  split at h
  · next hs =>
    simp only [Bool.and_eq_true, Bool.or_eq_true, decide_eq_true_eq] at hs
    obtain ⟨⟨⟨⟨hdigits, hne⟩, -⟩, hzero⟩, hlt⟩ := hs
    cases h
    rw [Nat.toList_repr, UInt8.toNat_ofNat', Nat.mod_eq_of_lt hlt]
    exact toDigits_decimalValue (List.all_eq_true.mp hdigits) hne hzero
  · cases h

/-- **An address has one spelling.** -/
theorem toString_of_parseIpv4 {s : String} {ip : Ipv4Addr} (h : parseIpv4 s = some ip) :
    ip.toString = s := by
  unfold parseIpv4 at h
  split at h
  next a b c d hsplit =>
    simp only [Option.bind_eq_bind, Option.bind_eq_some_iff, Option.pure_def,
      Option.some.injEq] at h
    obtain ⟨a', ha, b', hb, c', hc, d', hd, rfl⟩ := h
    apply String.toList_inj.mp
    have hjoin : ['.'].intercalate (s.toList.splitOn '.') = s.toList :=
      List.intercalate_splitOn '.'
    rw [hsplit, ← repr_of_parseOctet ha, ← repr_of_parseOctet hb, ← repr_of_parseOctet hc,
      ← repr_of_parseOctet hd] at hjoin
    rw [← hjoin]
    simp [Ipv4Addr.toString, List.intercalate]
  · cases h

/-! ## Conversions -/

/-- `web::api_port_forward_to_internal`: a missing name becomes the empty string. -/
def apiPortForwardToInternal (pf : Api.PortForward) : PortForward where
  name := pf.name.getD ""
  localPort := pf.localPort
  targetPort := pf.targetPort

/-- `web::api_machine_to_internal`.  The result has no key and is not verified; the
handlers fill these in. -/
def apiMachineToInternal (api : Api.Machine) : Except String Machine :=
  match parseIpv4 api.ip with
  | none => .error ("Invalid IPv4 address: " ++ api.ip)
  | some ip => .ok
      { machineType := api.machineType
        mac := api.mac
        ip
        name := api.name
        description := api.description
        turnOffPort := api.turnOffPort
        canBeTurnedOff := api.canBeTurnedOff
        shutdownAuthKey := none
        shutdownAuthVerified := false
        inactivityPeriod := api.inactivityPeriod
        portForwards := api.portForwards.map apiPortForwardToInternal }

/-- What a successful conversion returns. -/
theorem apiMachineToInternal_ok {api : Api.Machine} {m : Machine}
    (h : apiMachineToInternal api = .ok m) :
    m.mac = api.mac ∧ m.shutdownAuthKey = none ∧ m.shutdownAuthVerified = false ∧
      m.canBeTurnedOff = api.canBeTurnedOff ∧ m.turnOffPort = api.turnOffPort ∧
      m.portForwards = api.portForwards.map apiPortForwardToInternal := by
  unfold apiMachineToInternal at h
  split at h
  · cases h
  · cases h
    exact ⟨rfl, rfl, rfl, rfl, rfl, rfl⟩

end Wakezilla
