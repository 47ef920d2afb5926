/-
# Remote shutdown on the client

`src/client_server.rs` with a configured key: the endpoints `GET /health/secure` and
`POST /machines/turn-off` share one replay guard, and a turn-off request that it
accepts shuts the machine down.

The network may deliver any headers at any time; what it cannot do is to produce a
tag that verifies for a request the key holder never signed (`Unforged`).  Then,
during one life of the client process, each signed turn-off request causes at most
one shutdown (`shutdown_agreement`).  The guard lives in memory, so a restarted
process accepts a request of its previous life once more
(`restart_replays_shutdown`).
-/
import Wakezilla.ReplayGuard
import Wakezilla.Library.Run

namespace Wakezilla

/-! ## The handlers -/

/-- The authenticated routes of `build_router`. -/
inductive Endpoint
  | secureHealth
  | turnOff
  deriving DecidableEq, Repr

/-- The method that both sides sign. -/
def Endpoint.method : Endpoint → String
  | .secureHealth => "GET"
  | .turnOff => "POST"

/-- The path that both sides sign. -/
def Endpoint.path : Endpoint → String
  | .secureHealth => "/health/secure"
  | .turnOff => "/machines/turn-off"

/-- The headers of a request, in order: names in lower case with the bytes of the values. -/
abbrev HeaderMap := List (String × List UInt8)

/-- `HeaderValue::to_str`: visible ASCII characters and tabs. -/
def headerToStr (value : List UInt8) : Option String :=
  if value.all fun b => b = 9 || (32 ≤ b && b < 127) then
    some (String.ofList (value.map fun b => Char.ofNat b.toNat))
  else none

/-- `header_value`; the error is a status code. -/
def headerValue (headers : HeaderMap) (name : String) : Except ℕ String :=
  match (headers.find? fun header => header.1 = name).bind fun header => headerToStr header.2 with
  | some value => .ok value
  | none => .error 401

/-- The three headers that `authenticate` collects. -/
def signedHeaders (headers : HeaderMap) : Except ℕ SignedRequestHeaders := do
  let timestamp ← headerValue headers "x-wakezilla-timestamp"
  let nonce ← headerValue headers "x-wakezilla-nonce"
  let signature ← headerValue headers "x-wakezilla-signature"
  return { timestamp, nonce, signature }

/-- `ClientState`. -/
structure ClientState where
  shutdownKey : Option String
  replayGuard : ReplayGuard

/-- The state of a process that `build_router` just set up. -/
def buildRouter (shutdownKey : Option String) : ClientState := ⟨shutdownKey, .default⟩

variable (crypto : Crypto) (choice : OldestChoice)

/-- `authenticate` for one of the endpoints; `now` is the clock reading under the lock. -/
def authenticate (state : ClientState) (endpoint : Endpoint) (headers : HeaderMap) (now : ℕ) :
    Except ℕ Unit × ClientState :=
  match state.shutdownKey with
  | none => (.error 401, state)
  | some key =>
    match signedHeaders headers with
    | .error status => (.error status, state)
    | .ok signed =>
      let verified := state.replayGuard.verify crypto choice key endpoint.method endpoint.path
        signed now
      (verified.1.mapError fun _ => 401, { state with replayGuard := verified.2 })

/-- `secure_health_check`: the status code. -/
def secureHealthCheck (state : ClientState) (headers : HeaderMap) (now : ℕ) : ℕ × ClientState :=
  match authenticate crypto choice state .secureHealth headers now with
  | (.ok (), state) => (200, state)
  | (.error status, state) => (status, state)

/-- `turn_off_machine`: the response, whether it called `system::shutdown_machine`, and the
state. -/
def turnOffMachine (state : ClientState) (headers : HeaderMap) (now : ℕ) :
    (ℕ × String) × Bool × ClientState :=
  if state.shutdownKey.isSome then
    match authenticate crypto choice state .turnOff headers now with
    | (.error status, state) => ((status, "Unauthorized"), false, state)
    | (.ok (), state) => ((200, "Shutting down this machine"), true, state)
  else ((200, "Shutting down this machine"), true, state)

/-! ## The client and its network -/

/-- A request that the key holder signed. -/
structure SignedRequest where
  endpoint : Endpoint
  headers : SignedRequestHeaders
  deriving DecidableEq, Repr

/-- A request that reached the client, in which life of its process and when. -/
structure Delivery where
  lifetime : ℕ
  endpoint : Endpoint
  headers : HeaderMap
  now : ℕ
  deriving DecidableEq, Repr

/-- The clock, the client process, the requests signed so far, those that were accepted, and
those that called `system::shutdown_machine`. -/
structure ClientWorld where
  clock : ℕ
  client : ClientState
  lifetime : ℕ
  signed : List SignedRequest
  accepted : List Delivery
  shutdowns : List Delivery

/-- Time passes, the key holder signs a request, the network delivers one, or the client
process is restarted. -/
inductive ClientEvent
  | advance (duration : ℕ)
  | sign (endpoint : Endpoint) (timestamp : ℕ) (random : Vector UInt8 16)
  | deliver (endpoint : Endpoint) (headers : HeaderMap)
  | restart
  deriving DecidableEq, Repr

/-- The state after one event, for a client that was set up with `key`. -/
def clientStep (key : String) (w : ClientWorld) : ClientEvent → ClientWorld
  | .advance duration => { w with clock := w.clock + duration }
  | .sign endpoint timestamp random =>
    match signRequestAt crypto key endpoint.method endpoint.path timestamp random with
    | .ok headers => { w with signed := ⟨endpoint, headers⟩ :: w.signed }
    | .error _ => w
  | .deliver .secureHealth headers =>
    let response := secureHealthCheck crypto choice w.client headers w.clock
    let delivery : Delivery := ⟨w.lifetime, .secureHealth, headers, w.clock⟩
    { w with
      client := response.2
      accepted := if response.1 = 200 then delivery :: w.accepted else w.accepted }
  | .deliver .turnOff headers =>
    let response := turnOffMachine crypto choice w.client headers w.clock
    let delivery : Delivery := ⟨w.lifetime, .turnOff, headers, w.clock⟩
    { w with
      client := response.2.2
      accepted := if response.1.1 = 200 then delivery :: w.accepted else w.accepted
      shutdowns := if response.2.1 then delivery :: w.shutdowns else w.shutdowns }
  | .restart => { w with client := buildRouter (some key), lifetime := w.lifetime + 1 }

/-- The client process has just been started, and nothing was signed yet. -/
def ClientWorld.start (key : String) (clock : ℕ) : ClientWorld :=
  ⟨clock, buildRouter (some key), 0, [], [], []⟩

/-! ## Assumptions -/

/-- A delivered request whose tag verifies is one that was signed. -/
def Unforged (key : String) (w : ClientWorld) : ClientEvent → Prop
  | .deliver endpoint headers => ∀ signed, signedHeaders headers = .ok signed →
      Authentic crypto key endpoint.method endpoint.path signed →
      ∃ request ∈ w.signed,
        asBytes (canonicalRequest endpoint.method endpoint.path signed.timestamp signed.nonce) =
          asBytes (canonicalRequest request.endpoint.method request.endpoint.path
            request.headers.timestamp request.headers.nonce)
  | _ => True

/-- Fewer than 4096 requests were accepted in any 120 seconds. -/
def FewAccepted (w : ClientWorld) : Prop :=
  ∀ a, (w.accepted.filter fun d => a ≤ d.now && d.now ≤ a + 120).length < 4096

/-- What a run may assume of its steps. -/
def Admissible (key : String) (w : ClientWorld) (e : ClientEvent) : Prop :=
  Unforged crypto key w e ∧ FewAccepted w

/-! ## What a delivery does -/

theorem headerValue_error {headers : HeaderMap} {name : String} {status : ℕ}
    (h : headerValue headers name = .error status) : status = 401 := by
  unfold headerValue at h
  split at h
  · cases h
  · exact (Except.error.inj h).symm

theorem signedHeaders_error {headers : HeaderMap} {status : ℕ}
    (h : signedHeaders headers = .error status) : status = 401 := by
  unfold signedHeaders at h
  cases htimestamp : headerValue headers "x-wakezilla-timestamp" with
  | error err =>
    rw [htimestamp] at h
    exact (Except.error.inj h) ▸ headerValue_error htimestamp
  | ok timestamp =>
    cases hnonce : headerValue headers "x-wakezilla-nonce" with
    | error err =>
      rw [htimestamp, hnonce] at h
      exact (Except.error.inj h) ▸ headerValue_error hnonce
    | ok nonce =>
      cases hsignature : headerValue headers "x-wakezilla-signature" with
      | error err =>
        rw [htimestamp, hnonce, hsignature] at h
        exact (Except.error.inj h) ▸ headerValue_error hsignature
      | ok signature =>
        rw [htimestamp, hnonce, hsignature] at h
        cases h

/-- The guard accepts the request with these headers. -/
structure Accepts (key : String) (g : ReplayGuard) (endpoint : Endpoint) (headers : HeaderMap)
    (now : ℕ) (signed : SignedRequestHeaders) (timestamp : ℕ) : Prop where
  signed_eq : signedHeaders headers = .ok signed
  timestamp_eq : parseU64 signed.timestamp = some timestamp
  recent : absDiff now timestamp ≤ maxClockSkew
  fresh : (g.prune now).seen.lookup signed.nonce = none
  authentic : Authentic crypto key endpoint.method endpoint.path signed

/-- With a configured key, `authenticate` answers 401 and at most prunes the guard, or the guard
accepts the request. -/
theorem authenticate_cases {key : String} {state : ClientState}
    (hkey : state.shutdownKey = some key) (endpoint : Endpoint) (headers : HeaderMap) (now : ℕ) :
    (∃ g, (g = state.replayGuard ∨ g = state.replayGuard.prune now) ∧
        authenticate crypto choice state endpoint headers now =
          (.error 401, { state with replayGuard := g })) ∨
      ∃ signed timestamp,
        Accepts crypto key state.replayGuard endpoint headers now signed timestamp ∧
        authenticate crypto choice state endpoint headers now =
          (.ok (), { state with
            replayGuard := (state.replayGuard.prune now).record choice signed.nonce now }) := by
  unfold authenticate
  simp only [hkey]
  cases hsigned : signedHeaders headers with
  | error status =>
    rw [signedHeaders_error hsigned]
    exact Or.inl ⟨_, Or.inl rfl, by rw [← hkey]⟩
  | ok signed =>
    simp only []
    rcases verify_cases crypto choice state.replayGuard key endpoint.method endpoint.path signed
        now with ⟨error, hverify⟩ | ⟨error, hverify⟩ |
        ⟨timestamp, htimestamp, hrecent, hfresh, hauthentic, hverify⟩
    all_goals rw [hverify]
    · exact Or.inl ⟨_, Or.inl rfl, rfl⟩
    · exact Or.inl ⟨_, Or.inr rfl, rfl⟩
    · exact Or.inr ⟨signed, timestamp, ⟨hsigned, htimestamp, hrecent, hfresh, hauthentic⟩, rfl⟩

/-- A delivery to a client with a key: rejected, or accepted, and then a turn-off request shuts
the machine down. -/
theorem deliver_cases {key : String} {w : ClientWorld}
    (hkey : w.client.shutdownKey = some key) (endpoint : Endpoint) (headers : HeaderMap) :
    (∃ g, (g = w.client.replayGuard ∨ g = w.client.replayGuard.prune w.clock) ∧
        clientStep crypto choice key w (.deliver endpoint headers) =
          { w with client := { w.client with replayGuard := g } }) ∨
      ∃ signed timestamp,
        Accepts crypto key w.client.replayGuard endpoint headers w.clock signed timestamp ∧
        clientStep crypto choice key w (.deliver endpoint headers) =
          { w with
            client := { w.client with
              replayGuard :=
                (w.client.replayGuard.prune w.clock).record choice signed.nonce w.clock }
            accepted := ⟨w.lifetime, endpoint, headers, w.clock⟩ :: w.accepted
            shutdowns := if endpoint = .turnOff then
                ⟨w.lifetime, endpoint, headers, w.clock⟩ :: w.shutdowns
              else w.shutdowns } := by
  rcases authenticate_cases crypto choice hkey endpoint headers w.clock with
    ⟨g, hg, hauth⟩ | ⟨signed, timestamp, haccepts, hauth⟩
  · refine Or.inl ⟨g, hg, ?_⟩
    cases endpoint with
    | secureHealth => simp [clientStep, secureHealthCheck, hauth]
    | turnOff => simp [clientStep, turnOffMachine, hkey, hauth]
  · refine Or.inr ⟨signed, timestamp, haccepts, ?_⟩
    cases endpoint with
    | secureHealth => simp [clientStep, secureHealthCheck, hauth]
    | turnOff => simp [clientStep, turnOffMachine, hkey, hauth]

/-! ## The invariant -/

/-- The accepted request carries the headers `signed`. -/
def Delivery.Carries (d : Delivery) (signed : SignedRequestHeaders) : Prop :=
  signedHeaders d.headers = .ok signed

/-- Two acceptances of one life differ in their timestamp or their nonce. -/
def Delivery.Distinct (d d' : Delivery) : Prop :=
  d.lifetime = d'.lifetime → ∀ signed signed', d.Carries signed → d'.Carries signed' →
    signed.timestamp = signed'.timestamp → signed.nonce ≠ signed'.nonce

/-- The acceptance is of a request that was signed for its endpoint, within the clock skew. -/
def Delivery.Genuine (requests : List SignedRequest) (d : Delivery) : Prop :=
  ∃ signed timestamp, d.Carries signed ∧ parseU64 signed.timestamp = some timestamp ∧
    absDiff d.now timestamp ≤ maxClockSkew ∧ ∃ request ∈ requests,
      request.endpoint = d.endpoint ∧ request.headers.timestamp = signed.timestamp ∧
        request.headers.nonce = signed.nonce

/-- The guard remembers the acceptances of the last 120 seconds of its life, and nothing else. -/
structure GuardRemembers (w : ClientWorld) : Prop where
  retention : w.client.replayGuard.retention = 120
  capacity : w.client.replayGuard.capacity = 4096
  recorded : ∀ nonce t, w.client.replayGuard.seen.lookup nonce = some t → t ≤ w.clock ∧
    ∃ d ∈ w.accepted, d.now = t ∧ ∃ signed, d.Carries signed ∧ signed.nonce = nonce
  kept : ∀ d ∈ w.accepted, d.lifetime = w.lifetime → w.clock ≤ d.now + 120 →
    ∀ signed, d.Carries signed →
      ∃ t, w.client.replayGuard.seen.lookup signed.nonce = some t ∧ d.now ≤ t
  past : ∀ d ∈ w.accepted, d.lifetime ≤ w.lifetime ∧ d.now ≤ w.clock

/-- The invariant of the client and its network. -/
structure ClientInv (key : String) (w : ClientWorld) : Prop where
  key : w.client.shutdownKey = some key
  remembers : GuardRemembers w
  timestamps : ∀ request ∈ w.signed, '\n' ∉ request.headers.timestamp.toList
  genuine : ∀ d ∈ w.accepted, d.Genuine w.signed
  distinct : w.accepted.Pairwise Delivery.Distinct
  shutdowns : w.shutdowns = w.accepted.filter fun d => d.endpoint = .turnOff

theorem clientInv_start (key : String) (clock : ℕ) :
    ClientInv key (ClientWorld.start key clock) where
  key := rfl
  remembers := ⟨rfl, rfl, nofun, nofun, nofun⟩
  timestamps := nofun
  genuine := nofun
  distinct := .nil
  shutdowns := rfl

/-- The text of a canonical request tells the two endpoints apart. -/
theorem endpoint_eq_of_canonicalRequest {endpoint endpoint' : Endpoint}
    {timestamp nonce timestamp' nonce' : String} (htimestamp : '\n' ∉ timestamp.toList)
    (htimestamp' : '\n' ∉ timestamp'.toList)
    (h : canonicalRequest endpoint.method endpoint.path timestamp nonce =
      canonicalRequest endpoint'.method endpoint'.path timestamp' nonce') :
    endpoint = endpoint' ∧ timestamp = timestamp' ∧ nonce = nonce' := by
  have hmethod : ∀ e : Endpoint, '\n' ∉ e.method.toList := by
    intro e
    cases e <;> decide
  have hpath : ∀ e : Endpoint, '\n' ∉ e.path.toList := by
    intro e
    cases e <;> decide
  obtain ⟨-, hp, ht, hn⟩ := canonicalRequest_inj (hmethod endpoint) (hmethod endpoint')
    (hpath endpoint) (hpath endpoint') htimestamp htimestamp' h
  refine ⟨?_, ht, hn⟩
  -- the two paths differ
  cases endpoint <;> cases endpoint'
  · rfl
  · exact absurd hp (by decide)
  · exact absurd hp (by decide)
  · rfl

/-! ## The guard remembers -/

/-- A record that survives a pruning is at most 120 seconds old. -/
theorem GuardRemembers.lookup_prune {w : ClientWorld} (h : GuardRemembers w) {nonce : String}
    {t : ℕ} : (w.client.replayGuard.prune w.clock).seen.lookup nonce = some t ↔
      w.client.replayGuard.seen.lookup nonce = some t ∧ w.clock ≤ t + 120 := by
  rw [Wakezilla.lookup_prune, Option.filter_eq_some_iff, h.retention, decide_eq_true_eq]
  exact and_congr_right fun _ => by omega

/-- After a pruning there is room for one more record. -/
theorem GuardRemembers.length_prune_lt {w : ClientWorld} (h : GuardRemembers w)
    (hfew : FewAccepted w) :
    (w.client.replayGuard.prune w.clock).seen.entries.length < 4096 := by
  set pruned := (w.client.replayGuard.prune w.clock).seen with hpruned
  set window := w.accepted.filter fun d => w.clock - 120 ≤ d.now && d.now ≤ w.clock - 120 + 120
    with hwindow
  -- every record is the nonce and time of an acceptance in the window
  let entry (d : Delivery) : Option (Sigma fun _ : String => ℕ) :=
    (signedHeaders d.headers).toOption.map fun signed => ⟨signed.nonce, d.now⟩
  have hsubset : pruned.entries.map some ⊆ window.map entry := by
    intro e he
    obtain ⟨⟨nonce, t⟩, hmem, rfl⟩ := List.mem_map.mp he
    obtain ⟨hlookup, hrecent⟩ := h.lookup_prune.mp (Dict.lookup_eq_some_iff.mpr hmem)
    obtain ⟨hpast, d, hd, hnow, signed, hsigned, hnonce⟩ := h.recorded nonce t hlookup
    refine List.mem_map.mpr ⟨d, List.mem_filter.mpr ⟨hd, ?_⟩, ?_⟩
    · rw [Bool.and_eq_true, decide_eq_true_eq, decide_eq_true_eq, hnow]
      omega
    · have hheaders : signedHeaders d.headers = .ok signed := hsigned
      simp only [entry, hheaders, Except.toOption, Option.map_some, hnow, hnonce]
  have hnodup : (pruned.entries.map some).Nodup :=
    pruned.nodupKeys.nodup.map (Option.some_injective _)
  have hlength := (List.subperm_of_subset hnodup hsubset).length_le
  rw [List.length_map, List.length_map] at hlength
  exact hlength.trans_lt (hfew (w.clock - 120))

/-- A rejected delivery at most prunes the guard. -/
theorem GuardRemembers.reject {w : ClientWorld} (h : GuardRemembers w) {g : ReplayGuard}
    (hg : g = w.client.replayGuard ∨ g = w.client.replayGuard.prune w.clock) :
    GuardRemembers { w with client := { w.client with replayGuard := g } } := by
  rcases hg with rfl | rfl
  · exact h
  · refine ⟨h.retention, h.capacity, fun nonce t hlookup => ?_, fun d hd hlife hrecent signed
      hsigned => ?_, h.past⟩
    · exact h.recorded nonce t (h.lookup_prune.mp hlookup).1
    · obtain ⟨t, hlookup, ht⟩ := h.kept d hd hlife hrecent signed hsigned
      exact ⟨t, h.lookup_prune.mpr ⟨hlookup, hrecent.trans (Nat.add_le_add_right ht 120)⟩, ht⟩

/-- An accepted delivery is recorded, and nothing recent is evicted for it. -/
theorem GuardRemembers.accept {w w' : ClientWorld} (h : GuardRemembers w) (hfew : FewAccepted w)
    {d : Delivery} {signed : SignedRequestHeaders} (hsigned : d.Carries signed)
    (hlifetime : d.lifetime = w.lifetime) (hnow : d.now = w.clock)
    (hguard : w'.client.replayGuard =
      (w.client.replayGuard.prune w.clock).record choice signed.nonce w.clock)
    (hclock : w'.clock = w.clock) (hlife : w'.lifetime = w.lifetime)
    (haccepted : w'.accepted = d :: w.accepted) : GuardRemembers w' := by
  have hlookup : ∀ nonce, w'.client.replayGuard.seen.lookup nonce =
      if nonce = signed.nonce then some w.clock
      else (w.client.replayGuard.prune w.clock).seen.lookup nonce := by
    intro nonce
    rw [hguard]
    -- there is room, so nothing is evicted
    refine lookup_record_of_lt choice ?_ _ _ _
    change _ < w.client.replayGuard.capacity
    rw [h.capacity]
    exact h.length_prune_lt hfew
  refine ⟨?_, ?_, fun nonce t hnonce => ?_, fun d' hd' hlife' hrecent signed' hsigned' => ?_,
    fun d' hd' => ?_⟩
  · rw [hguard, retention_record]
    exact h.retention
  · rw [hguard, capacity_record]
    exact h.capacity
  · rw [hlookup] at hnonce
    rw [hclock, haccepted]
    split at hnonce
    · rename_i heq
      cases hnonce
      exact ⟨le_rfl, d, List.mem_cons_self, hnow, signed, hsigned, heq.symm⟩
    · obtain ⟨hpast, d', hd', hrest⟩ := h.recorded nonce t (h.lookup_prune.mp hnonce).1
      exact ⟨hpast, d', List.mem_cons_of_mem _ hd', hrest⟩
  · rw [haccepted, List.mem_cons] at hd'
    rw [hlife] at hlife'
    rw [hclock] at hrecent
    rw [hlookup]
    rcases hd' with rfl | hd'
    · have heq : signed' = signed := Except.ok.inj (hsigned'.symm.trans hsigned)
      rw [if_pos (by rw [heq])]
      exact ⟨w.clock, rfl, hnow.le⟩
    · split
      · exact ⟨w.clock, rfl, (h.past d' hd').2⟩
      · obtain ⟨t, ht, hle⟩ := h.kept d' hd' hlife' hrecent signed' hsigned'
        exact ⟨t, h.lookup_prune.mpr ⟨ht, hrecent.trans (Nat.add_le_add_right hle 120)⟩, hle⟩
  · rw [haccepted, List.mem_cons] at hd'
    rw [hlife, hclock]
    rcases hd' with rfl | hd'
    · exact ⟨hlifetime.le, hnow.le⟩
    · exact h.past d' hd'

/-- An accepted request was not accepted before in this life. -/
theorem ClientInv.distinct_of_accepts {key : String} {w : ClientWorld} (h : ClientInv key w)
    {endpoint : Endpoint} {headers : HeaderMap} {signed : SignedRequestHeaders} {timestamp : ℕ}
    (haccepts : Accepts crypto key w.client.replayGuard endpoint headers w.clock signed timestamp)
    {d : Delivery} (hd : d ∈ w.accepted) :
    Delivery.Distinct ⟨w.lifetime, endpoint, headers, w.clock⟩ d := by
  intro hlife signed' signedOld hsigned' hsignedOld htimestamp hnonce
  have hheaders : signed' = signed := Except.ok.inj (hsigned'.symm.trans haccepts.signed_eq)
  subst hheaders
  obtain ⟨signedOld', timestampOld, hcarries, hparse, hrecent, -⟩ := h.genuine d hd
  have hold : signedOld' = signedOld := Except.ok.inj (hcarries.symm.trans hsignedOld)
  subst hold
  -- both readings are within a minute of one timestamp
  have hsame : timestamp = timestampOld := by
    have hparse' := haccepts.timestamp_eq
    rw [htimestamp, hparse] at hparse'
    exact (Option.some_inj.mp hparse').symm
  have hclose : w.clock ≤ d.now + 120 := by
    have hnew := haccepts.recent
    rw [← hsame] at hrecent
    unfold absDiff maxClockSkew at hnew hrecent
    omega
  -- so the nonce of the earlier acceptance is still recorded, but the guard found it fresh
  obtain ⟨t, hlookup, ht⟩ := h.remembers.kept d hd hlife.symm hclose _ hcarries
  have hpruned : (w.client.replayGuard.prune w.clock).seen.lookup signed'.nonce = some t := by
    rw [hnonce]
    exact h.remembers.lookup_prune.mpr ⟨hlookup, hclose.trans (Nat.add_le_add_right ht 120)⟩
  rw [haccepts.fresh] at hpruned
  cases hpruned

/-- An accepted request was signed for its endpoint. -/
theorem ClientInv.genuine_of_accepts {key : String} {w : ClientWorld} (h : ClientInv key w)
    {endpoint : Endpoint} {headers : HeaderMap} {signed : SignedRequestHeaders} {timestamp : ℕ}
    (haccepts : Accepts crypto key w.client.replayGuard endpoint headers w.clock signed timestamp)
    (hunforged : Unforged crypto key w (.deliver endpoint headers)) :
    Delivery.Genuine w.signed ⟨w.lifetime, endpoint, headers, w.clock⟩ := by
  obtain ⟨request, hrequest, hbytes⟩ := hunforged signed haccepts.signed_eq haccepts.authentic
  obtain ⟨hendpoint, htimestamp, hnonce⟩ := endpoint_eq_of_canonicalRequest
    (newline_not_mem_of_parseU64 haccepts.timestamp_eq) (h.timestamps request hrequest)
    (asBytes_injective hbytes)
  exact ⟨signed, timestamp, haccepts.signed_eq, haccepts.timestamp_eq, haccepts.recent, request,
    hrequest, hendpoint.symm, htimestamp.symm, hnonce.symm⟩

/-- A signed request stays one when more requests are signed. -/
theorem Delivery.Genuine.mono {requests : List SignedRequest} {d : Delivery}
    (h : d.Genuine requests) (request : SignedRequest) : d.Genuine (request :: requests) := by
  obtain ⟨signed, timestamp, hcarries, hparse, hrecent, r, hr, hrest⟩ := h
  exact ⟨signed, timestamp, hcarries, hparse, hrecent, r, List.mem_cons_of_mem _ hr, hrest⟩

/-- **One admissible step** keeps the invariant. -/
theorem clientInv_step (key : String) (w : ClientWorld) (e : ClientEvent) (h : ClientInv key w)
    (hc : Admissible crypto key w e) : ClientInv key (clientStep crypto choice key w e) := by
  obtain ⟨hunforged, hfew⟩ := hc
  cases e with
  | advance duration =>
    refine ⟨h.key, ⟨h.remembers.retention, h.remembers.capacity, ?_, ?_, ?_⟩, h.timestamps,
      h.genuine, h.distinct, h.shutdowns⟩
    · intro nonce t hlookup
      obtain ⟨hpast, hrest⟩ := h.remembers.recorded nonce t hlookup
      exact ⟨hpast.trans (Nat.le_add_right _ _), hrest⟩
    · intro d hd hlife hrecent
      exact h.remembers.kept d hd hlife ((Nat.le_add_right _ _).trans hrecent)
    · intro d hd
      obtain ⟨hlife, hpast⟩ := h.remembers.past d hd
      exact ⟨hlife, hpast.trans (Nat.le_add_right _ _)⟩
  | sign endpoint timestamp random =>
    rw [clientStep]
    split
    · rename_i headers hsign
      refine ⟨h.key, ⟨h.remembers.retention, h.remembers.capacity, h.remembers.recorded,
        h.remembers.kept, h.remembers.past⟩, ?_, fun d hd => (h.genuine d hd).mono _, h.distinct,
        h.shutdowns⟩
      rintro request hrequest
      rcases List.mem_cons.mp hrequest with rfl | hrequest
      · have htimestamp : headers.timestamp = timestamp.repr := by
          unfold signRequestAt at hsign
          simp only [] at hsign
          cases hsignature : signature crypto key endpoint.method endpoint.path timestamp.repr
              (crypto.base64.encode random.toList) with
          | error err =>
            rw [hsignature] at hsign
            cases hsign
          | ok tag =>
            rw [hsignature] at hsign
            cases hsign
            rfl
        rw [htimestamp]
        exact not_mem_repr (by decide) timestamp
      · exact h.timestamps request hrequest
    · exact h
  | deliver endpoint headers =>
    rcases deliver_cases crypto choice h.key endpoint headers with
      ⟨g, hg, hstep⟩ | ⟨signed, timestamp, haccepts, hstep⟩
    · rw [hstep]
      exact ⟨h.key, h.remembers.reject hg, h.timestamps, h.genuine, h.distinct, h.shutdowns⟩
    · rw [hstep]
      refine ⟨h.key, h.remembers.accept choice (d := ⟨w.lifetime, endpoint, headers, w.clock⟩)
        hfew haccepts.signed_eq rfl rfl rfl rfl rfl rfl, h.timestamps, ?_, ?_, ?_⟩
      · intro d hd
        rcases List.mem_cons.mp hd with rfl | hd
        · exact h.genuine_of_accepts crypto haccepts hunforged
        · exact h.genuine d hd
      · exact List.pairwise_cons.mpr
          ⟨fun d hd => h.distinct_of_accepts crypto haccepts hd, h.distinct⟩
      · rw [List.filter_cons]
        by_cases hendpoint : endpoint = .turnOff
        · simp [hendpoint, h.shutdowns]
        · simp [hendpoint, h.shutdowns]
  | restart =>
    refine ⟨rfl, ⟨rfl, rfl, nofun, ?_, ?_⟩, h.timestamps, h.genuine, h.distinct, h.shutdowns⟩
    · intro d hd hlife
      -- no acceptance belongs to the life that begins now
      have hle := (h.remembers.past d hd).1
      change d.lifetime = w.lifetime + 1 at hlife
      omega
    · intro d hd
      obtain ⟨hlife, hpast⟩ := h.remembers.past d hd
      exact ⟨hlife.trans (Nat.le_succ _), hpast⟩

/-! ## Agreement -/

/-- What a delivery and a signed request have to agree on. -/
def Delivery.stamp (d : Delivery) : Option (String × String) :=
  (signedHeaders d.headers).toOption.map fun signed => (signed.timestamp, signed.nonce)

theorem stamp_eq {d : Delivery} {signed : SignedRequestHeaders} (h : d.Carries signed) :
    d.stamp = some (signed.timestamp, signed.nonce) := by
  rw [Delivery.stamp, (h : signedHeaders d.headers = .ok signed)]
  rfl

/-- **Agreement of remote shutdown.**  In an admissible run of a client with a key, every
shutdown was caused by a request that was signed for `POST /machines/turn-off` and arrived
within a minute of its timestamp; two shutdowns of one life of the process have different
timestamps or nonces; so in each life there are at most as many shutdowns as different signed
turn-off requests. -/
theorem shutdown_agreement (key : String) (clock : ℕ) (es : List ClientEvent)
    (hrun : Run.Along (clientStep crypto choice key) (Admissible crypto key)
      (ClientWorld.start key clock) es) :
    let w := Run.exec (clientStep crypto choice key) (ClientWorld.start key clock) es
    (∀ d ∈ w.shutdowns, ∃ signed timestamp, signedHeaders d.headers = .ok signed ∧
        parseU64 signed.timestamp = some timestamp ∧ absDiff d.now timestamp ≤ 60 ∧
        ∃ request ∈ w.signed, request.endpoint = .turnOff ∧
          request.headers.timestamp = signed.timestamp ∧
          request.headers.nonce = signed.nonce) ∧
      w.shutdowns.Pairwise Delivery.Distinct ∧
      ∀ lifetime, (w.shutdowns.filter fun d => d.lifetime = lifetime).length ≤
        (w.signed.filter fun request => request.endpoint = .turnOff).toFinset.card := by
  intro w
  have hinv : ClientInv key w :=
    Run.exec_invariant (clientInv_start key clock) (clientInv_step crypto choice key) hrun
  have hgenuine : ∀ d ∈ w.shutdowns, ∃ signed timestamp, signedHeaders d.headers = .ok signed ∧
      parseU64 signed.timestamp = some timestamp ∧ absDiff d.now timestamp ≤ 60 ∧
      ∃ request ∈ w.signed, request.endpoint = .turnOff ∧
        request.headers.timestamp = signed.timestamp ∧ request.headers.nonce = signed.nonce := by
    intro d hd
    rw [hinv.shutdowns] at hd
    obtain ⟨hmem, hendpoint⟩ := List.mem_filter.mp hd
    obtain ⟨signed, timestamp, hcarries, hparse, hrecent, request, hrequest, hsame, hrest⟩ :=
      hinv.genuine d hmem
    exact ⟨signed, timestamp, hcarries, hparse, hrecent, request, hrequest,
      hsame.trans (by simpa using hendpoint), hrest⟩
  have hdistinct : w.shutdowns.Pairwise Delivery.Distinct := by
    rw [hinv.shutdowns]
    exact hinv.distinct.sublist List.filter_sublist
  refine ⟨hgenuine, hdistinct, fun lifetime => ?_⟩
  set own := w.shutdowns.filter fun d => d.lifetime = lifetime with hown
  set requests := (w.signed.filter fun request => request.endpoint = .turnOff).toFinset
  -- the stamps of one life are different, and all of them were signed
  have hstamps : (own.map Delivery.stamp).Nodup := by
    rw [List.Nodup, List.pairwise_map]
    refine (hdistinct.sublist List.filter_sublist).imp_of_mem ?_
    intro d d' hd hd' hne hstamp
    obtain ⟨hmem, hlife⟩ := List.mem_filter.mp hd
    obtain ⟨hmem', hlife'⟩ := List.mem_filter.mp hd'
    obtain ⟨signed, -, hcarries, -⟩ := hgenuine d hmem
    obtain ⟨signed', -, hcarries', -⟩ := hgenuine d' hmem'
    rw [stamp_eq hcarries, stamp_eq hcarries', Option.some_inj, Prod.mk.injEq] at hstamp
    have hsame : d.lifetime = d'.lifetime := by
      rw [of_decide_eq_true hlife, of_decide_eq_true hlife']
    exact hne hsame signed signed' hcarries hcarries' hstamp.1 hstamp.2
  have hsubset : (own.map Delivery.stamp).toFinset ⊆
      requests.image fun request => some (request.headers.timestamp, request.headers.nonce) := by
    intro stamp hstamp
    obtain ⟨d, hd, rfl⟩ := List.mem_map.mp (List.mem_toFinset.mp hstamp)
    obtain ⟨signed, -, hcarries, -, -, request, hrequest, hendpoint, htimestamp, hnonce⟩ :=
      hgenuine d (List.mem_of_mem_filter hd)
    refine Finset.mem_image.mpr ⟨request, ?_, ?_⟩
    · exact List.mem_toFinset.mpr (List.mem_filter.mpr ⟨hrequest, by simpa using hendpoint⟩)
    · rw [stamp_eq hcarries, htimestamp, hnonce]
  calc own.length = (own.map Delivery.stamp).toFinset.card := by
        rw [List.toFinset_card_of_nodup hstamps, List.length_map]
    _ ≤ (requests.image fun request =>
          some (request.headers.timestamp, request.headers.nonce)).card :=
        Finset.card_le_card hsubset
    _ ≤ requests.card := Finset.card_image_le

/-! ## A request that arrives twice -/

/-- The headers of a signed request as the proxy sends them. -/
def SignedRequestHeaders.toHeaderMap (signed : SignedRequestHeaders) : HeaderMap :=
  [("x-wakezilla-timestamp", asBytes signed.timestamp),
    ("x-wakezilla-nonce", asBytes signed.nonce),
    ("x-wakezilla-signature", asBytes signed.signature)]

/-- The key of 32 bytes `1`. -/
def sampleKey : String := generateKey urlSafeNoPad (Vector.replicate 32 1)

/-- A turn-off request under this key whose nonce is 16 bytes `7`. -/
def sampleHeaders : SignedRequestHeaders where
  timestamp := "1700000000"
  nonce := "BwcHBwcHBwcHBwcHBwcHBw"
  signature := "VAwz4bcqOSch66RPWgkYHhfSegcTbu3hafCPMvec_p4"

/-- The libraries, with the HMAC-SHA256 of this one request. -/
def sampleCrypto : Crypto where
  base64 := urlSafeNoPad
  hmacSha256 key message :=
    if key = List.replicate 32 1 ∧ message = asBytes (canonicalRequest "POST"
        "/machines/turn-off" sampleHeaders.timestamp sampleHeaders.nonce) then
      [84, 12, 51, 225, 183, 42, 57, 39, 33, 235, 164, 79, 90, 9, 24, 30, 23, 210, 122, 7, 19,
        110, 237, 225, 105, 240, 143, 50, 247, 156, 254, 158]
    else []

/-- Fewer than 4096 requests were accepted at all. -/
theorem fewAccepted_of_length {w : ClientWorld} (h : w.accepted.length < 4096) : FewAccepted w :=
  fun _ => (List.length_filter_le _ _).trans_lt h

/-- The delivery of a signed request is admissible. -/
theorem admissible_of_signed {key : String} {w : ClientWorld} (request : SignedRequest)
    (headers : HeaderMap) (hrequest : request ∈ w.signed)
    (hheaders : signedHeaders headers = .ok request.headers) (hfew : w.accepted.length < 4096) :
    Admissible crypto key w (.deliver request.endpoint headers) := by
  refine ⟨fun signed hsigned _ => ⟨request, hrequest, ?_⟩, fewAccepted_of_length hfew⟩
  rw [hheaders] at hsigned
  cases hsigned
  rfl

/-- The delivery of the sample request is admissible once it has been signed. -/
theorem admissible_sample {w : ClientWorld} (hsigned : ⟨.turnOff, sampleHeaders⟩ ∈ w.signed)
    (hfew : w.accepted.length < 4096) :
    Admissible sampleCrypto sampleKey w (.deliver .turnOff sampleHeaders.toHeaderMap) :=
  admissible_of_signed sampleCrypto ⟨.turnOff, sampleHeaders⟩ sampleHeaders.toHeaderMap hsigned
    (by decide +kernel) hfew

/-- A second delivery to the same process causes no second shutdown. -/
theorem sample_shutdown_agreement :
    let w := Run.exec (clientStep sampleCrypto firstOldest sampleKey)
      (ClientWorld.start sampleKey 1700000030)
      [.sign .turnOff 1700000000 (Vector.replicate 16 7),
        .deliver .turnOff sampleHeaders.toHeaderMap, .deliver .turnOff sampleHeaders.toHeaderMap]
    w.shutdowns.length = 1 ∧
      (∀ d ∈ w.shutdowns, ∃ signed timestamp, signedHeaders d.headers = .ok signed ∧
        parseU64 signed.timestamp = some timestamp ∧ absDiff d.now timestamp ≤ 60 ∧
        ∃ request ∈ w.signed, request.endpoint = .turnOff ∧
          request.headers.timestamp = signed.timestamp ∧
          request.headers.nonce = signed.nonce) ∧
      w.shutdowns.Pairwise Delivery.Distinct ∧
      ∀ lifetime, (w.shutdowns.filter fun d => d.lifetime = lifetime).length ≤
        (w.signed.filter fun request => request.endpoint = .turnOff).toFinset.card := by
  refine ⟨by decide +kernel, ?_⟩
  refine shutdown_agreement sampleCrypto firstOldest sampleKey 1700000030 _ ?_
  exact ⟨⟨trivial, fewAccepted_of_length (by decide)⟩,
    admissible_sample (by decide +kernel) (by decide +kernel),
    admissible_sample (by decide +kernel) (by decide +kernel), trivial⟩

/-- **A restart replays a shutdown.**  One signed request, delivered before and after a
restart of the client, shuts the machine down twice. -/
theorem restart_replays_shutdown :
    let es : List ClientEvent :=
      [.sign .turnOff 1700000000 (Vector.replicate 16 7),
        .deliver .turnOff sampleHeaders.toHeaderMap, .restart,
        .deliver .turnOff sampleHeaders.toHeaderMap]
    let w := Run.exec (clientStep sampleCrypto firstOldest sampleKey)
      (ClientWorld.start sampleKey 1700000030) es
    Run.Along (clientStep sampleCrypto firstOldest sampleKey) (Admissible sampleCrypto sampleKey)
        (ClientWorld.start sampleKey 1700000030) es ∧
      w.shutdowns.length = 2 ∧ w.signed.length = 1 := by
  refine ⟨?_, by decide +kernel, by decide +kernel⟩
  exact ⟨⟨trivial, fewAccepted_of_length (by decide)⟩,
    admissible_sample (by decide +kernel) (by decide +kernel),
    ⟨trivial, fewAccepted_of_length (by decide +kernel)⟩,
    admissible_sample (by decide +kernel) (by decide +kernel), trivial⟩

end Wakezilla
