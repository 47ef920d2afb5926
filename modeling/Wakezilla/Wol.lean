/-
# The meaning of a MAC address

The text of a MAC is treated three times, each time in its own way: `validate_mac`
matches it against a regular expression, `parse_mac` (`src/wol.rs`) keeps its hexadecimal
digits and takes them in pairs, and `validate_machine_config` compares two of them with
their separators and the case of their letters ignored.

`macBytes` is what an accepted text denotes: a byte for each of its six groups.
`mac_identity` says that the three treatments agree with it.
-/
import Wakezilla.StopIsolation

namespace Wakezilla

/-! ## `parse_mac` -/

/-- `char::to_digit(16)`. -/
def toDigit16 (c : Char) : Option ℕ :=
  if c.isDigit then some (c.toNat - '0'.toNat)
  else if 'a' ≤ c && c ≤ 'f' then some (c.toNat - 'a'.toNat + 10)
  else if 'A' ≤ c && c ≤ 'F' then some (c.toNat - 'A'.toNat + 10)
  else none

/-- `u8::from_str_radix(_, 16)` of two digits. -/
def fromStrRadix16 (a b : Char) : Option UInt8 := do
  let high ← toDigit16 a
  let low ← toDigit16 b
  some (UInt8.ofNat (16 * high + low))

/-- The loop of `parse_mac` from position `i` on, over the digits that are left. -/
def parsePairs (i : ℕ) : List Char → Except String (List UInt8)
  | a :: b :: rest =>
    match fromStrRadix16 a b with
    | some byte => (parsePairs (i + 1) rest).map (byte :: ·)
    | none => .error ("invalid hex in MAC at position " ++ i.repr ++ ": '" ++
        String.ofList [a, b] ++ "'")
  | _ => .ok []

/-- `parse_mac`: the digits are kept, whatever stands between them. -/
def parseMac (s : String) : Except String (List UInt8) :=
  let hex := s.toList.filter isHexDigit
  if hex.length ≠ 12 then .error ("expected 12 hex digits, got " ++ hex.length.repr)
  else parsePairs 0 hex

/-! ## `build_magic_packet` -/

/-- `pkt[start..start + bytes.len()].copy_from_slice(bytes)`. -/
def copyFromSlice (pkt : List UInt8) (start : ℕ) (bytes : List UInt8) : List UInt8 :=
  pkt.take start ++ bytes ++ pkt.drop (start + bytes.length)

/-- `build_magic_packet`. -/
def buildMagicPacket (mac : List UInt8) : List UInt8 :=
  (List.range 16).foldl (fun pkt i => copyFromSlice pkt (6 + i * 6) mac)
    (copyFromSlice (List.replicate 102 0) 0 (List.replicate 6 0xFF))

/-- Writing at the border between what is done and the zeros that are left. -/
theorem copyFromSlice_append (done bytes : List UInt8) (left : ℕ) :
    copyFromSlice (done ++ List.replicate left 0) done.length bytes =
      done ++ bytes ++ List.replicate (left - bytes.length) 0 := by
  unfold copyFromSlice
  simp [List.drop_append]

/-- **A magic packet** is six bytes `0xFF` and sixteen copies of the MAC. -/
theorem buildMagicPacket_eq {mac : List UInt8} (hmac : mac.length = 6) :
    buildMagicPacket mac = List.replicate 6 0xFF ++ (List.replicate 16 mac).flatten := by
  have hstart : copyFromSlice (List.replicate 102 0) 0 (List.replicate 6 0xFF) =
      List.replicate 6 0xFF ++ List.replicate 96 0 := by decide
  have hloop : ∀ (header : List UInt8) (k : ℕ), header.length = 6 → k ≤ 16 →
      (List.range k).foldl (fun pkt i => copyFromSlice pkt (6 + i * 6) mac)
        (header ++ List.replicate 96 0) =
        header ++ (List.replicate k mac).flatten ++ List.replicate (96 - k * 6) 0 := by
    intro header k hheader hk
    induction k with
    | zero => simp
    | succ k ih =>
      have hlength : (header ++ (List.replicate k mac).flatten).length = 6 + k * 6 := by
        simp [hheader, hmac]
      have hleft : 96 - k * 6 - 6 = 96 - (k + 1) * 6 := by omega
      rw [List.range_succ, List.foldl_append, ih (by omega), List.foldl_cons, List.foldl_nil,
        ← hlength, copyFromSlice_append, hmac, hleft, List.replicate_succ',
        List.flatten_append, List.flatten_singleton, List.append_assoc header]
  have hall := hloop (List.replicate 6 0xFF) 16 (by decide) le_rfl
  rw [List.replicate_zero, List.append_nil] at hall
  rw [buildMagicPacket, hstart, hall]

/-! ## What a text denotes -/

/-- The value of a group of two digits. -/
def groupByte (a b : Char) : UInt8 :=
  UInt8.ofNat (16 * (toDigit16 a).getD 0 + (toDigit16 b).getD 0)

/-- The bytes that an accepted text denotes: one for each group of digits, and the groups are
separated by one character. -/
def macBytes : List Char → List UInt8
  | [a, b] => [groupByte a b]
  | a :: b :: _ :: rest => groupByte a b :: macBytes rest
  | _ => []

/-- The hexadecimal digits. -/
def hexDigits : List Char :=
  ['0', '1', '2', '3', '4', '5', '6', '7', '8', '9', 'a', 'b', 'c', 'd', 'e', 'f', 'A', 'B', 'C',
    'D', 'E', 'F']

theorem toNat_lt_of_isHexDigit {c : Char} (h : isHexDigit c = true) : c.toNat < 128 := by
  have hle : ∀ d : Char, c ≤ d → c.toNat ≤ d.toNat := fun d h => h
  simp only [isHexDigit, Char.isDigit, Bool.or_eq_true, Bool.and_eq_true, decide_eq_true_eq] at h
  rcases h with (⟨-, h⟩ | ⟨-, h⟩) | ⟨-, h⟩
  · exact (hle '9' h).trans_lt (by decide)
  · exact (hle 'f' h).trans_lt (by decide)
  · exact (hle 'F' h).trans_lt (by decide)

theorem mem_hexDigits {c : Char} (h : isHexDigit c = true) : c ∈ hexDigits := by
  have hall : ∀ n < 128, isHexDigit (Char.ofNat n) = true → Char.ofNat n ∈ hexDigits := by
    decide +kernel
  have hc := hall c.toNat (toNat_lt_of_isHexDigit h)
  rw [Char.ofNat_toNat] at hc
  exact hc h

theorem toDigit16_of_isHexDigit {c : Char} (h : isHexDigit c = true) :
    ∃ n < 16, toDigit16 c = some n := by
  have hall : (hexDigits.all fun d => (toDigit16 d).any (· < 16)) = true := by decide +kernel
  have hc := List.all_eq_true.mp hall c (mem_hexDigits h)
  cases hvalue : toDigit16 c with
  | none => simp [hvalue] at hc
  | some n => exact ⟨n, by simpa [hvalue] using hc, rfl⟩

/-- A separator is no digit. -/
theorem isHexDigit_separator {c : Char} (h : (c = ':' || c = '-') = true) :
    isHexDigit c = false := by
  rw [Bool.or_eq_true, decide_eq_true_eq, decide_eq_true_eq] at h
  rcases h with rfl | rfl <;> decide

theorem fromStrRadix16_eq {a b : Char} (ha : isHexDigit a = true) (hb : isHexDigit b = true) :
    fromStrRadix16 a b = some (groupByte a b) := by
  obtain ⟨high, -, hhigh⟩ := toDigit16_of_isHexDigit ha
  obtain ⟨low, -, hlow⟩ := toDigit16_of_isHexDigit hb
  simp [fromStrRadix16, groupByte, hhigh, hlow]

/-- What the comparison of MACs makes of a character. -/
def normalizeChar (c : Char) : Char := if c = '-' then ':' else c.toLower

/-- Two digits are compared by their values. -/
theorem normalizeChar_eq_iff {a b : Char} (ha : isHexDigit a = true) (hb : isHexDigit b = true) :
    normalizeChar a = normalizeChar b ↔ toDigit16 a = toDigit16 b := by
  have hall : (hexDigits.all fun c => hexDigits.all fun d =>
      decide (normalizeChar c = normalizeChar d ↔ toDigit16 c = toDigit16 d)) = true := by
    decide +kernel
  have hrow := List.all_eq_true.mp hall a (mem_hexDigits ha)
  exact of_decide_eq_true (List.all_eq_true.mp hrow b (mem_hexDigits hb))

/-- Two groups are compared by their bytes. -/
theorem normalizeChar_group_iff {a b a' b' : Char} (ha : isHexDigit a = true)
    (hb : isHexDigit b = true) (ha' : isHexDigit a' = true) (hb' : isHexDigit b' = true) :
    normalizeChar a = normalizeChar a' ∧ normalizeChar b = normalizeChar b' ↔
      groupByte a b = groupByte a' b' := by
  rw [normalizeChar_eq_iff ha ha', normalizeChar_eq_iff hb hb']
  obtain ⟨high, hhigh, hhighEq⟩ := toDigit16_of_isHexDigit ha
  obtain ⟨low, hlow, hlowEq⟩ := toDigit16_of_isHexDigit hb
  obtain ⟨high', hhigh', hhighEq'⟩ := toDigit16_of_isHexDigit ha'
  obtain ⟨low', hlow', hlowEq'⟩ := toDigit16_of_isHexDigit hb'
  simp only [groupByte, hhighEq, hlowEq, hhighEq', hlowEq', Option.some.injEq, Option.getD_some]
  constructor
  · rintro ⟨rfl, rfl⟩
    rfl
  · intro h
    have hnat := congrArg UInt8.toNat h
    rw [UInt8.toNat_ofNat', UInt8.toNat_ofNat'] at hnat
    omega

/-! ## Accepted texts -/

/-- The digits of a matched text are those of its groups, in order. -/
theorem parsePairs_filter {n : ℕ} {s : List Char} (h : matchesMac n s = true) (i : ℕ) :
    parsePairs i (s.filter isHexDigit) = .ok (macBytes s) ∧
      (s.filter isHexDigit).length = 2 * n + 2 ∧ (macBytes s).length = n + 1 := by
  induction n generalizing s i with
  | zero =>
    match s, h with
    | [a, b], h =>
      obtain ⟨ha, hb⟩ := Bool.and_eq_true_iff.mp h
      rw [List.filter_cons_of_pos ha, List.filter_cons_of_pos hb, List.filter_nil, parsePairs,
        fromStrRadix16_eq ha hb]
      exact ⟨rfl, rfl, rfl⟩
  | succ n ih =>
    match s, h with
    | a :: b :: sep :: rest, h =>
      simp only [matchesMac, Bool.and_eq_true] at h
      obtain ⟨⟨⟨ha, hb⟩, hsep⟩, hrest⟩ := h
      obtain ⟨hpairs, hdigits, hlength⟩ := ih hrest (i + 1)
      have hsepNot : ¬ isHexDigit sep = true := by
        rw [isHexDigit_separator hsep]
        exact Bool.false_ne_true
      rw [List.filter_cons_of_pos ha, List.filter_cons_of_pos hb, List.filter_cons_of_neg hsepNot,
        parsePairs, fromStrRadix16_eq ha hb, hpairs]
      refine ⟨rfl, ?_, ?_⟩
      · simp only [List.length_cons, hdigits]
        omega
      · rw [macBytes, List.length_cons, hlength]

/-- Two matched texts are compared by the bytes that they denote. -/
theorem map_normalizeChar_iff {n : ℕ} {s t : List Char} (hs : matchesMac n s = true)
    (ht : matchesMac n t = true) :
    s.map normalizeChar = t.map normalizeChar ↔ macBytes s = macBytes t := by
  induction n generalizing s t with
  | zero =>
    match s, hs, t, ht with
    | [a, b], hs, [a', b'], ht =>
      obtain ⟨ha, hb⟩ := Bool.and_eq_true_iff.mp hs
      obtain ⟨ha', hb'⟩ := Bool.and_eq_true_iff.mp ht
      have hgroup := normalizeChar_group_iff ha hb ha' hb'
      simpa [macBytes] using hgroup
  | succ n ih =>
    match s, hs, t, ht with
    | a :: b :: sep :: rest, hs, a' :: b' :: sep' :: rest', ht =>
      simp only [matchesMac, Bool.and_eq_true] at hs ht
      obtain ⟨⟨⟨ha, hb⟩, hsep⟩, hrest⟩ := hs
      obtain ⟨⟨⟨ha', hb'⟩, hsep'⟩, hrest'⟩ := ht
      have hgroup := normalizeChar_group_iff ha hb ha' hb'
      have hcolon : ∀ c : Char, (c = ':' || c = '-') = true → normalizeChar c = ':' := by
        intro c hc
        rw [Bool.or_eq_true, decide_eq_true_eq, decide_eq_true_eq] at hc
        rcases hc with rfl | rfl <;> decide
      simp only [List.map_cons, List.cons.injEq, macBytes, hcolon sep hsep, hcolon sep' hsep',
        true_and, ih hrest hrest', ← and_assoc, hgroup]

/-- An accepted text parses as the six bytes that it denotes. -/
theorem parseMac_eq {s : String} (h : validateMac s = true) :
    parseMac s = .ok (macBytes s.toList) ∧ (macBytes s.toList).length = 6 := by
  obtain ⟨hpairs, hdigits, hlength⟩ := parsePairs_filter h 0
  refine ⟨?_, hlength⟩
  rw [parseMac]
  simp only [hdigits]
  exact hpairs

/-- **A MAC means the same everywhere.**  An accepted text parses as the bytes that it denotes,
and its magic packet wakes this device; two accepted texts are duplicates for the validator
exactly when they parse as the same device; and in every run from a registry of accepted texts,
the MACs of the registered machines and of the forwarders parse. -/
theorem mac_identity (libs : Externals) :
    (∀ s : String, validateMac s = true → ∃ mac, parseMac s = .ok mac ∧ mac = macBytes s.toList ∧
        buildMagicPacket mac =
          List.replicate 6 0xFF ++ (List.replicate 16 (macBytes s.toList)).flatten) ∧
      (∀ s₁ s₂ : String, validateMac s₁ = true → validateMac s₂ = true →
        (normalizeMac s₁ = normalizeMac s₂ ↔ parseMac s₁ = parseMac s₂)) ∧
      ∀ (machines : List Machine) (database : Database) (clock : ℕ → Instant)
        (es : List ProxyEvent), (∀ m ∈ machines, validateMac m.mac = true) →
        let s := Run.exec (step libs) (startMachines machines database clock) es
        (∀ m ∈ s.machines, ∃ mac, parseMac m.mac = .ok mac) ∧
          ∀ t ∈ s.tasks, ∃ mac, parseMac t.mac = .ok mac := by
  refine ⟨fun s hs => ?_, fun s₁ s₂ hs₁ hs₂ => ?_, fun machines database clock es hgrammar => ?_⟩
  · obtain ⟨hparse, hlength⟩ := parseMac_eq hs
    exact ⟨_, hparse, rfl, buildMagicPacket_eq hlength⟩
  · rw [(parseMac_eq hs₁).1, (parseMac_eq hs₂).1, Except.ok.injEq]
    exact map_normalizeChar_iff hs₁ hs₂
  · intro s
    have hmachines : ∀ m ∈ s.machines, validateMac m.mac = true := by
      refine Run.exec_invariant_of_forall (P := fun s => ∀ m ∈ s.machines, validateMac m.mac = true)
        es ?_ fun s e => forall_machines_step (fun _ _ hvalid => hvalid.mac) (fun _ _ _ h => h)
          libs s e
      rw [(startMachines_fields machines database clock).1]
      exact hgrammar
    have htasks : ∀ mac ∈ s.tasks.map ForwarderTask.mac, validateMac mac = true :=
      Run.exec_invariant_of_forall
        (P := fun s => ∀ mac ∈ s.tasks.map ForwarderTask.mac, validateMac mac = true)
        es (forall_tasks_startMachines hgrammar database clock)
        fun s e => forall_tasks_step (fun _ _ hvalid => hvalid.mac) libs s e
    exact ⟨fun m hm => ⟨_, (parseMac_eq (hmachines m hm)).1⟩,
      fun t ht => ⟨_, (parseMac_eq (htasks _ (List.mem_map_of_mem ht))).1⟩⟩

/-- Two spellings of one MAC: each parses, they are duplicates, and the forwarder of a machine
with the first one finds its device. -/
theorem workstation_mac_identity :
    (∃ mac, parseMac "AA:BB:CC:DD:EE:01" = .ok mac ∧ mac = [0xAA, 0xBB, 0xCC, 0xDD, 0xEE, 1]) ∧
      normalizeMac "AA:BB:CC:DD:EE:01" = normalizeMac "aa-bb-cc-dd-ee-01" ∧
      ∀ t ∈ (startMachines [workstation] none fun _ => 0).tasks,
        ∃ mac, parseMac t.mac = .ok mac := by
  obtain ⟨hparse, hsame, hrun⟩ := mac_identity libraries
  obtain ⟨mac, hmac, hbytes, -⟩ := hparse "AA:BB:CC:DD:EE:01" (by decide)
  refine ⟨⟨mac, hmac, hbytes.trans (by decide)⟩, ?_, ?_⟩
  · exact (hsame "AA:BB:CC:DD:EE:01" "aa-bb-cc-dd-ee-01" (by decide) (by decide)).mpr
      (by decide +kernel)
  · exact (hrun [workstation] none (fun _ => 0) [] (by decide)).2

end Wakezilla
