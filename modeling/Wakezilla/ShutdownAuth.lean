/-
# Shutdown keys and request signatures

`src/shutdown_auth.rs`.  A key is 32 bytes in URL-safe base64 without padding; a
request is signed by the HMAC-SHA256, under the decoded key, of a canonical
string made of the method, the path, the timestamp and the nonce.

The base64 engine and the HMAC are libraries, so they are parameters here:
`Base64Engine` carries the one law of the engine that the program relies on, and
the HMAC is any function of the key bytes and the message bytes.
-/
import Wakezilla.Library.Base64
import Wakezilla.Machine

namespace Wakezilla

/-- The engine `URL_SAFE_NO_PAD`; decoding undoes encoding. -/
structure Base64Engine where
  encode : List UInt8 → String
  decode : String → Option (List UInt8)
  decode_encode : ∀ bytes, decode (encode bytes) = some bytes

/-- The engine itself. -/
def urlSafeNoPad : Base64Engine where
  encode := Base64.encode
  decode := Base64.decode
  decode_encode := Base64.decode_encode

/-- The cryptographic libraries: the base64 engine and HMAC-SHA256. -/
structure Crypto where
  base64 : Base64Engine
  hmacSha256 : List UInt8 → List UInt8 → List UInt8

/-- `str::as_bytes`: the UTF-8 encoding. -/
def asBytes (s : String) : List UInt8 := s.toUTF8.data.toList

/-- Different strings have different encodings. -/
theorem asBytes_injective : Function.Injective asBytes := by
  intro s t h
  have harray : s.toUTF8.data = t.toUTF8.data := Array.toList_inj.mp h
  exact String.toByteArray_inj.mp (ByteArray.ext harray)

/-! ## Keys -/

/-- `generate_key`, given the 32 random bytes. -/
def generateKey (engine : Base64Engine) (random : Vector UInt8 32) : String :=
  engine.encode random.toList

/-- `decode_key`. -/
def decodeKey (engine : Base64Engine) (key : String) : Except String (List UInt8) :=
  match engine.decode key with
  | none => .error "shutdown key is not valid URL-safe base64"
  | some decoded =>
    if decoded.length = 32 then .ok decoded
    else .error "shutdown key must decode to exactly 32 bytes"

/-- `validate_key`. -/
def validateKey (engine : Base64Engine) (key : String) : Except String Unit :=
  (decodeKey engine key).map fun _ => ()

theorem decodeKey_generateKey (engine : Base64Engine) (random : Vector UInt8 32) :
    decodeKey engine (generateKey engine random) = .ok random.toList := by
  have hlength : random.toList.length = 32 := by simp
  rw [decodeKey, generateKey, engine.decode_encode]
  exact if_pos hlength

/-- **Every generated key is valid.** -/
theorem validateKey_generateKey (engine : Base64Engine) (random : Vector UInt8 32) :
    validateKey engine (generateKey engine random) = .ok () := by
  rw [validateKey, decodeKey_generateKey]
  rfl

/-! ## Signed requests -/

/-- `SignedRequestHeaders`. -/
structure SignedRequestHeaders where
  timestamp : String
  nonce : String
  signature : String
  deriving DecidableEq, Repr

/-- `canonical_request`. -/
def canonicalRequest (method path timestamp nonce : String) : String :=
  "wakezilla-v1\n" ++ String.ofList (method.toList.map Char.toUpper) ++ "\n" ++ path ++ "\n"
    ++ timestamp ++ "\n" ++ nonce

/-- `str::eq_ignore_ascii_case`. -/
def EqIgnoreAsciiCase (s t : String) : Prop :=
  s.toList.map Char.toUpper = t.toList.map Char.toUpper

instance (s t : String) : Decidable (EqIgnoreAsciiCase s t) :=
  inferInstanceAs (Decidable (s.toList.map Char.toUpper = t.toList.map Char.toUpper))

/-- The bytes that the HMAC authenticates. -/
def authenticator (crypto : Crypto) (key : List UInt8)
    (method path timestamp nonce : String) : List UInt8 :=
  crypto.hmacSha256 key (asBytes (canonicalRequest method path timestamp nonce))

/-- `signature`. -/
def signature (crypto : Crypto) (key method path timestamp nonce : String) :
    Except String String :=
  (decodeKey crypto.base64 key).map fun key =>
    crypto.base64.encode (authenticator crypto key method path timestamp nonce)

/-- `sign_request_at`, given the 16 random bytes of the nonce. -/
def signRequestAt (crypto : Crypto) (key method path : String) (timestamp : ℕ)
    (random : Vector UInt8 16) : Except String SignedRequestHeaders :=
  let nonce := crypto.base64.encode random.toList
  (signature crypto key method path timestamp.repr nonce).map fun signature =>
    { timestamp := timestamp.repr, nonce, signature }

/-- `str::parse::<u64>`: an optional plus sign and at least one decimal digit, in range. -/
def parseU64 (s : String) : Option ℕ :=
  let digits := if s.toList.head? = some '+' then s.toList.tail else s.toList
  if digits ≠ [] && digits.all Char.isDigit && decimalValue digits < 2 ^ 64 then
    some (decimalValue digits)
  else none

/-! ## Canonical requests have one reading -/

/-- A text without a line break before the first one is determined by the whole. -/
theorem append_newline_inj {a b rest rest' : List Char} (ha : '\n' ∉ a) (hb : '\n' ∉ b)
    (h : a ++ '\n' :: rest = b ++ '\n' :: rest') : a = b ∧ rest = rest' := by
  induction a generalizing b with
  | nil =>
    cases b with
    | nil => exact ⟨rfl, (List.cons.inj h).2⟩
    | cons c b => exact absurd (List.cons.inj h).1 fun heq => hb (heq ▸ List.mem_cons_self)
  | cons c a ih =>
    cases b with
    | nil => exact absurd (List.cons.inj h).1.symm fun heq => ha (heq ▸ List.mem_cons_self)
    | cons d b =>
      obtain ⟨hcd, htail⟩ := List.cons.inj h
      obtain ⟨hab, hrest⟩ := ih (fun hmem => ha (List.mem_cons_of_mem _ hmem))
        (fun hmem => hb (List.mem_cons_of_mem _ hmem)) htail
      exact ⟨by rw [hcd, hab], hrest⟩

theorem toList_canonicalRequest (method path timestamp nonce : String) :
    (canonicalRequest method path timestamp nonce).toList =
      "wakezilla-v1\n".toList ++ (method.toList.map Char.toUpper ++ '\n' ::
        (path.toList ++ '\n' :: (timestamp.toList ++ '\n' :: nonce.toList))) := by
  have hnewline : "\n".toList = ['\n'] := rfl
  unfold canonicalRequest
  -- a literal in the goal is slow to unify
  generalize "wakezilla-v1\n" = version
  simp only [String.toList_append, String.toList_ofList, List.append_assoc, hnewline,
    List.cons_append, List.nil_append]

/-- No letter becomes a line break in upper case. -/
theorem newline_not_mem_map_toUpper {s : List Char} (h : '\n' ∉ s) : '\n' ∉ s.map Char.toUpper := by
  intro hmem
  obtain ⟨c, hc, hupper⟩ := List.mem_map.mp hmem
  by_cases hlower : c.isLower
  · have hisUpper := Char.isUpper_toUpper_eq_isAlpha c
    rw [hupper, Char.isAlpha, hlower, Bool.or_true] at hisUpper
    exact absurd hisUpper (by decide)
  · rw [Char.toUpper_eq_of_not_isLower hlower] at hupper
    exact h (hupper ▸ hc)

/-- A timestamp that parses contains no line break. -/
theorem newline_not_mem_of_parseU64 {s : String} {n : ℕ} (h : parseU64 s = some n) :
    '\n' ∉ s.toList := by
  intro hmem
  unfold parseU64 at h
  set digits := if s.toList.head? = some '+' then s.toList.tail else s.toList with hdigits
  rw [Option.ite_none_right_eq_some] at h
  obtain ⟨hcond, -⟩ := h
  simp only [Bool.and_eq_true, List.all_eq_true] at hcond
  -- a line break is neither the sign nor a digit
  have hin : '\n' ∈ digits := by
    rw [hdigits]
    split
    · rename_i hhead
      cases hlist : s.toList with
      | nil => simp [hlist] at hhead
      | cons c rest =>
        rw [hlist] at hhead hmem
        cases hhead
        exact (List.mem_cons.mp hmem).resolve_left (by decide)
    · exact hmem
  exact absurd (hcond.1.2 _ hin) (by decide)

/-- **A canonical request determines the request**, up to the case of the method. -/
theorem canonicalRequest_inj {method path timestamp nonce method' path' timestamp' nonce' : String}
    (hmethod : '\n' ∉ method.toList) (hmethod' : '\n' ∉ method'.toList)
    (hpath : '\n' ∉ path.toList) (hpath' : '\n' ∉ path'.toList)
    (htimestamp : '\n' ∉ timestamp.toList) (htimestamp' : '\n' ∉ timestamp'.toList)
    (h : canonicalRequest method path timestamp nonce =
      canonicalRequest method' path' timestamp' nonce') :
    method.toList.map Char.toUpper = method'.toList.map Char.toUpper ∧ path = path' ∧
      timestamp = timestamp' ∧ nonce = nonce' := by
  have hlist := congrArg String.toList h
  rw [toList_canonicalRequest, toList_canonicalRequest] at hlist
  obtain ⟨hm, hrest⟩ := append_newline_inj (newline_not_mem_map_toUpper hmethod)
    (newline_not_mem_map_toUpper hmethod') (List.append_cancel_left hlist)
  obtain ⟨hp, hrest⟩ := append_newline_inj hpath hpath' hrest
  obtain ⟨ht, hn⟩ := append_newline_inj htimestamp htimestamp' hrest
  exact ⟨hm, String.toList_inj.mp hp, String.toList_inj.mp ht, String.toList_inj.mp hn⟩

end Wakezilla
