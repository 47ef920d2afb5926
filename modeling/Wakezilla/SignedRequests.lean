/-
# Signer and verifier agree

The two ends of a signed request.  `sign_request_at` and `verify` authenticate the same
canonical text, so a freshly signed request is accepted (`verify_signRequestAt`); and the
text can be read in one way only (`canonicalRequest_eq_iff`), so a tag that verifies for
one request was not made for another one (`eq_of_accepted`).

HMAC-SHA256 is a parameter.  Only `eq_of_accepted` assumes something of it, that it is
free of collisions.
-/
import Wakezilla.ClientServer

namespace Wakezilla

/-! ## Timestamps -/

/-- **Decimal text is read back.** -/
theorem parseU64_repr (t : UInt64) : parseU64 t.toNat.repr = some t.toNat := by
  have hvalue : decimalValue (Nat.toDigits 10 t.toNat) = t.toNat := by
    have hdigits := Nat.ofDigitChars_toDigits (n := t.toNat) (by decide : 1 < 10) (le_refl 10)
    rw [Nat.ofDigitChars_eq_foldl] at hdigits
    exact hdigits
  have hall : (Nat.toDigits 10 t.toNat).all Char.isDigit = true := by
    rw [List.all_eq_true]
    intro c hc
    exact Nat.isDigit_of_mem_toDigits (by decide) (by decide) hc
  have hsign : (Nat.toDigits 10 t.toNat).head? ≠ some '+' := by
    intro hhead
    have hdigit := List.all_eq_true.mp hall '+' (List.mem_of_head? hhead)
    exact absurd hdigit (by decide)
  have hrange : t.toNat < 2 ^ 64 := t.toNat_lt
  unfold parseU64
  rw [Nat.toList_repr, if_neg hsign]
  simp only [hvalue, hall, Nat.toDigits_ne_nil, ne_eq, not_false_eq_true, decide_true,
    Bool.and_true, hrange, if_true]

/-! ## One reading -/

/-- **The canonical text is the method up to its case, the path, the timestamp and the
nonce**, for paths and methods without a line break and timestamps that parse. -/
theorem canonicalRequest_eq_iff {method path timestamp nonce method' path' timestamp' nonce' :
      String} (hmethod : '\n' ∉ method.toList) (hmethod' : '\n' ∉ method'.toList)
    (hpath : '\n' ∉ path.toList) (hpath' : '\n' ∉ path'.toList)
    (htimestamp : (parseU64 timestamp).isSome = true)
    (htimestamp' : (parseU64 timestamp').isSome = true) :
    canonicalRequest method path timestamp nonce =
        canonicalRequest method' path' timestamp' nonce' ↔
      EqIgnoreAsciiCase method method' ∧ path = path' ∧ timestamp = timestamp' ∧
        nonce = nonce' := by
  obtain ⟨t, ht⟩ := Option.isSome_iff_exists.mp htimestamp
  obtain ⟨t', ht'⟩ := Option.isSome_iff_exists.mp htimestamp'
  constructor
  · exact canonicalRequest_inj hmethod hmethod' hpath hpath' (newline_not_mem_of_parseU64 ht)
      (newline_not_mem_of_parseU64 ht')
  · rintro ⟨hcase, rfl, rfl, rfl⟩
    unfold canonicalRequest
    rw [(hcase : method.toList.map Char.toUpper = method'.toList.map Char.toUpper)]

/-! ## What is accepted was signed for -/

variable (crypto : Crypto) (choice : OldestChoice)

/-- HMAC-SHA256 without collisions: a tag determines the key, of 32 bytes, and the message. -/
def CollisionFree : Prop :=
  ∀ key key' message message', key.length = 32 → key'.length = 32 →
    crypto.hmacSha256 key message = crypto.hmacSha256 key' message' →
      key = key' ∧ message = message'

theorem length_of_decodeKey {engine : Base64Engine} {key : String} {bytes : List UInt8}
    (h : decodeKey engine key = .ok bytes) : bytes.length = 32 := by
  unfold decodeKey at h
  split at h
  · cases h
  · split at h
    · rename_i hlength
      cases h
      exact hlength
    · cases h

/-- An accepted request has a timestamp that parses and the tag of its own canonical text. -/
theorem authentic_of_accepted {g : ReplayGuard} {key method path : String}
    {headers : SignedRequestHeaders} {now : ℕ}
    (h : (g.verify crypto choice key method path headers now).1 = .ok ()) :
    (parseU64 headers.timestamp).isSome = true ∧ Authentic crypto key method path headers := by
  rcases verify_cases crypto choice g key method path headers now with
    ⟨error, hverify⟩ | ⟨error, hverify⟩ | ⟨timestamp, hparse, -, -, hauthentic, -⟩
  · rw [hverify] at h
    cases h
  · rw [hverify] at h
    cases h
  · rw [hparse]
    exact ⟨rfl, hauthentic⟩

/-- **Endpoints are separated.**  A signature that was made for some request is accepted for no
other one. -/
theorem eq_of_accepted (hfree : CollisionFree crypto) {g : ReplayGuard} {key method path : String}
    {headers : SignedRequestHeaders} {now : ℕ}
    (h : (g.verify crypto choice key method path headers now).1 = .ok ())
    {key' method' path' timestamp' nonce' : String}
    (hsigned : Authentic crypto key' method' path' ⟨timestamp', nonce', headers.signature⟩)
    (hmethod : '\n' ∉ method.toList) (hmethod' : '\n' ∉ method'.toList)
    (hpath : '\n' ∉ path.toList) (hpath' : '\n' ∉ path'.toList)
    (htimestamp' : (parseU64 timestamp').isSome = true) :
    decodeKey crypto.base64 key = decodeKey crypto.base64 key' ∧
      EqIgnoreAsciiCase method method' ∧ path = path' ∧ headers.timestamp = timestamp' ∧
        headers.nonce = nonce' := by
  obtain ⟨htimestamp, bytes, hbytes, htag⟩ := authentic_of_accepted crypto choice h
  obtain ⟨bytes', hbytes', htag'⟩ := hsigned
  -- the signature decodes to one tag
  have htags : authenticator crypto bytes method path headers.timestamp headers.nonce =
      authenticator crypto bytes' method' path' timestamp' nonce' := by
    rw [htag] at htag'
    exact Option.some_inj.mp htag'
  obtain ⟨hkeys, htexts⟩ := hfree _ _ _ _ (length_of_decodeKey hbytes)
    (length_of_decodeKey hbytes') htags
  refine ⟨by rw [hbytes, hbytes', hkeys], ?_⟩
  exact (canonicalRequest_eq_iff hmethod hmethod' hpath hpath' htimestamp htimestamp').mp
    (asBytes_injective htexts)

/-! ## What is signed is accepted -/

/-- What signing with a valid key gives. -/
theorem signRequestAt_eq_ok {key : String} {bytes : List UInt8}
    (hkey : decodeKey crypto.base64 key = .ok bytes) (method path : String) (timestamp : ℕ)
    (random : Vector UInt8 16) :
    signRequestAt crypto key method path timestamp random = .ok
      { timestamp := timestamp.repr
        nonce := crypto.base64.encode random.toList
        signature := crypto.base64.encode (authenticator crypto bytes method path timestamp.repr
          (crypto.base64.encode random.toList)) } := by
  unfold signRequestAt signature
  rw [hkey]
  rfl

/-- **A signed request is accepted**, in every state of the guard in which its nonce is not
recorded within the retention. -/
theorem verify_signRequestAt {g : ReplayGuard} {key : String} {bytes : List UInt8}
    (hkey : decodeKey crypto.base64 key = .ok bytes) {method method' : String} (path : String)
    (t : UInt64) (random : Vector UInt8 16) {headers : SignedRequestHeaders}
    (hsigned : signRequestAt crypto key method path t.toNat random = .ok headers)
    (hcase : EqIgnoreAsciiCase method' method) {now : ℕ} (hnow : absDiff now t.toNat ≤ maxClockSkew)
    (hfresh : ∀ acceptedAt, g.seen.lookup headers.nonce = some acceptedAt →
      g.retention < now - acceptedAt) :
    (g.verify crypto choice key method' path headers now).1 = .ok () := by
  rw [signRequestAt_eq_ok crypto hkey] at hsigned
  cases hsigned
  have hpruned : (g.prune now).seen.lookup (crypto.base64.encode random.toList) = none := by
    rw [lookup_prune]
    cases hlookup : g.seen.lookup (crypto.base64.encode random.toList) with
    | none => rfl
    | some acceptedAt =>
      have hold : ¬ now - acceptedAt ≤ g.retention := not_le.mpr (hfresh acceptedAt hlookup)
      rw [Option.filter_some, if_neg (by simpa using hold)]
  -- both ends authenticate the same text
  have htag : authenticator crypto bytes method' path t.toNat.repr
      (crypto.base64.encode random.toList) = authenticator crypto bytes method path t.toNat.repr
        (crypto.base64.encode random.toList) := by
    unfold authenticator canonicalRequest
    rw [(hcase : method'.toList.map Char.toUpper = method.toList.map Char.toUpper)]
  unfold ReplayGuard.verify
  simp only [parseU64_repr, not_lt.mpr hnow, if_false, hpruned, Option.isSome_none,
    Bool.false_eq_true, hkey, crypto.base64.decode_encode, htag, if_true]

/-- **Signer and verifier agree.**  The canonical text has one reading up to the case of the
method; a request is accepted only with a signature that was made for it; and a request that was
signed with a valid key is accepted within a minute of its timestamp, unless its nonce is
recorded within the retention. -/
theorem signer_verifier_agree (hfree : CollisionFree crypto) :
    (∀ method path timestamp nonce method' path' timestamp' nonce' : String,
        '\n' ∉ method.toList → '\n' ∉ method'.toList → '\n' ∉ path.toList → '\n' ∉ path'.toList →
        (parseU64 timestamp).isSome = true → (parseU64 timestamp').isSome = true →
        (canonicalRequest method path timestamp nonce =
            canonicalRequest method' path' timestamp' nonce' ↔
          EqIgnoreAsciiCase method method' ∧ path = path' ∧ timestamp = timestamp' ∧
            nonce = nonce')) ∧
      (∀ (g : ReplayGuard) (key method path : String) (headers : SignedRequestHeaders) (now : ℕ),
        (g.verify crypto choice key method path headers now).1 = .ok () →
        Authentic crypto key method path headers ∧
          ∀ key' method' path' timestamp' nonce' : String,
            Authentic crypto key' method' path' ⟨timestamp', nonce', headers.signature⟩ →
            '\n' ∉ method.toList → '\n' ∉ method'.toList → '\n' ∉ path.toList →
            '\n' ∉ path'.toList → (parseU64 timestamp').isSome = true →
            decodeKey crypto.base64 key = decodeKey crypto.base64 key' ∧
              EqIgnoreAsciiCase method method' ∧ path = path' ∧ headers.timestamp = timestamp' ∧
                headers.nonce = nonce') ∧
      ∀ (key method path : String) (t : UInt64) (random : Vector UInt8 16),
        validateKey crypto.base64 key = .ok () →
        ∃ headers, signRequestAt crypto key method path t.toNat random = .ok headers ∧
          ∀ (g : ReplayGuard) (method' : String) (now : ℕ), EqIgnoreAsciiCase method' method →
            absDiff now t.toNat ≤ 60 →
            (∀ acceptedAt, g.seen.lookup headers.nonce = some acceptedAt →
              g.retention < now - acceptedAt) →
            (g.verify crypto choice key method' path headers now).1 = .ok () := by
  refine ⟨?_, ?_, ?_⟩
  · intro method path timestamp nonce method' path' timestamp' nonce' hm hm' hp hp' ht ht'
    exact canonicalRequest_eq_iff hm hm' hp hp' ht ht'
  · intro g key method path headers now h
    refine ⟨(authentic_of_accepted crypto choice h).2, ?_⟩
    intro key' method' path' timestamp' nonce' hsigned hm hm' hp hp' ht'
    exact eq_of_accepted crypto choice hfree h hsigned hm hm' hp hp' ht'
  · intro key method path t random hvalid
    have hkey : ∃ bytes, decodeKey crypto.base64 key = .ok bytes := by
      unfold validateKey at hvalid
      cases hdecode : decodeKey crypto.base64 key with
      | error err =>
        rw [hdecode] at hvalid
        cases hvalid
      | ok bytes => exact ⟨bytes, rfl⟩
    obtain ⟨bytes, hbytes⟩ := hkey
    refine ⟨_, signRequestAt_eq_ok crypto hbytes method path t.toNat random, ?_⟩
    intro g method' now hcase hnow hfresh
    exact verify_signRequestAt crypto choice hbytes path t random
      (signRequestAt_eq_ok crypto hbytes method path t.toNat random) hcase hnow hfresh

/-! ## A sample without collisions -/

/-- The libraries, with the HMAC-SHA256 of the sample request; every other tag spells out the
key and the message. -/
def collisionFreeCrypto : Crypto where
  base64 := urlSafeNoPad
  hmacSha256 key message :=
    if sampleCrypto.hmacSha256 key message = [] then 0 :: (key ++ message)
    else sampleCrypto.hmacSha256 key message

/-- The two kinds of tags. -/
theorem collisionFreeCrypto_cases (key message : List UInt8) :
    collisionFreeCrypto.hmacSha256 key message = 0 :: (key ++ message) ∨
      ((collisionFreeCrypto.hmacSha256 key message).length = 32 ∧ key = List.replicate 32 1 ∧
        message = asBytes (canonicalRequest "POST" "/machines/turn-off" sampleHeaders.timestamp
          sampleHeaders.nonce)) := by
  by_cases hsample : key = List.replicate 32 1 ∧
      message = asBytes (canonicalRequest "POST" "/machines/turn-off" sampleHeaders.timestamp
        sampleHeaders.nonce)
  · right
    refine ⟨?_, hsample⟩
    rw [hsample.1, hsample.2]
    decide +kernel
  · left
    have hnil : sampleCrypto.hmacSha256 key message = [] := if_neg hsample
    exact if_pos hnil

theorem collisionFree_collisionFreeCrypto : CollisionFree collisionFreeCrypto := by
  intro key key' message message' hkey hkey' htag
  -- a spelled-out tag is longer than 32 bytes
  have hlong : ∀ k m : List UInt8, k.length = 32 → (0 :: (k ++ m)).length ≠ 32 := by
    intro k m hk
    rw [List.length_cons, List.length_append, hk]
    omega
  rcases collisionFreeCrypto_cases key message with htext | ⟨hlength, rfl, rfl⟩ <;>
    rcases collisionFreeCrypto_cases key' message' with htext' | ⟨hlength', rfl, rfl⟩
  · rw [htext, htext', List.cons.injEq] at htag
    exact List.append_inj htag.2 (hkey.trans hkey'.symm)
  · rw [← htag, htext] at hlength'
    exact absurd hlength' (hlong key message hkey)
  · rw [htag, htext'] at hlength
    exact absurd hlength (hlong key' message' hkey')
  · exact ⟨rfl, rfl⟩

/-- The signed sample request is accepted by a new guard, at the turn-off endpoint only. -/
theorem sample_signer_verifier_agree :
    ∃ headers, signRequestAt collisionFreeCrypto sampleKey "POST" "/machines/turn-off" 1700000000
        (Vector.replicate 16 7) = .ok headers ∧
      (ReplayGuard.default.verify collisionFreeCrypto firstOldest sampleKey "post"
        "/machines/turn-off" headers 1700000030).1 = .ok () ∧
      (ReplayGuard.default.verify collisionFreeCrypto firstOldest sampleKey "GET"
        "/health/secure" headers 1700000030).1 ≠ .ok () := by
  obtain ⟨-, hsound, hcomplete⟩ :=
    signer_verifier_agree collisionFreeCrypto firstOldest collisionFree_collisionFreeCrypto
  have hvalid : validateKey collisionFreeCrypto.base64 sampleKey = .ok () :=
    validateKey_generateKey urlSafeNoPad (Vector.replicate 32 1)
  obtain ⟨headers, hsigned, haccepted⟩ := hcomplete sampleKey "POST" "/machines/turn-off"
    1700000000 (Vector.replicate 16 7) hvalid
  have hfresh : ∀ acceptedAt, ReplayGuard.default.seen.lookup headers.nonce = some acceptedAt →
      ReplayGuard.default.retention < 1700000030 - acceptedAt := nofun
  have hpost : (ReplayGuard.default.verify collisionFreeCrypto firstOldest sampleKey "post"
      "/machines/turn-off" headers 1700000030).1 = .ok () :=
    haccepted .default "post" 1700000030 (by decide) (by decide) hfresh
  refine ⟨headers, hsigned, hpost, fun hget => ?_⟩
  obtain ⟨hauthentic, -⟩ := hsound _ _ _ _ _ _ hpost
  obtain ⟨-, honly⟩ := hsound _ _ _ _ _ _ hget
  have htimestamp : (parseU64 headers.timestamp).isSome = true :=
    (authentic_of_accepted collisionFreeCrypto firstOldest hpost).1
  obtain ⟨-, -, hpath, -⟩ := honly sampleKey "post" "/machines/turn-off" headers.timestamp
    headers.nonce hauthentic (by decide) (by decide) (by decide) (by decide) htimestamp
  exact absurd hpath (by decide)

end Wakezilla
