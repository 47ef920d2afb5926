/-
# The key of a client server

`wakezilla client-server` (`src/main.rs`) loads the configuration and starts the server of
`src/client_server.rs` with its `client_shutdown_key`.  A server without a key shuts the
machine down for every request, so what `Config::load` answers decides whether requests are
authenticated at all.

A merged record has the key of the environment source if there is one (the variable after
`try_parsing`), and otherwise the key of the file; the server then asks the replay guard under
that key (`client_authenticates_merged_key`).  The key of the file alone promises nothing: the
environment may replace it, and a record that does not build is replaced by the defaults
(`file_key_not_enforced`).
-/
import Wakezilla.Config
import Wakezilla.ClientServer

namespace Wakezilla

/-! ## The running server -/

/-- A request to one of the authenticated routes, and the clock when it is handled. -/
structure ClientRequest where
  endpoint : Endpoint
  headers : HeaderMap
  now : ℕ

/-- A call of `system::shutdown_machine`: the request, and the replay guard that met it. -/
structure ShutdownCall where
  headers : HeaderMap
  now : ℕ
  replayGuard : ReplayGuard

/-- The client server and its calls of `system::shutdown_machine`. -/
structure ServedClient where
  port : UInt16
  client : ClientState
  shutdowns : List ShutdownCall

/-- `Commands::ClientServer`: the server starts on the port and with the key of the loaded
configuration. -/
def startClient (config : Config) : ServedClient :=
  ⟨config.server.clientPort, buildRouter config.security.clientShutdownKey, []⟩

/-- One request. -/
def serveClient (crypto : Crypto) (choice : OldestChoice) (s : ServedClient)
    (request : ClientRequest) : ServedClient :=
  match request.endpoint with
  | .secureHealth =>
    { s with client := (secureHealthCheck crypto choice s.client request.headers request.now).2 }
  | .turnOff =>
    let handled := turnOffMachine crypto choice s.client request.headers request.now
    { s with
      client := handled.2.2
      shutdowns :=
        if handled.2.1 then ⟨request.headers, request.now, s.client.replayGuard⟩ :: s.shutdowns
        else s.shutdowns }

/-- `ReplayGuard::verify` accepts the request under a key. -/
def ShutdownCall.AcceptedUnder (crypto : Crypto) (choice : OldestChoice) (key : String)
    (c : ShutdownCall) : Prop :=
  ∃ signed, signedHeaders c.headers = .ok signed ∧
    (c.replayGuard.verify crypto choice key Endpoint.turnOff.method Endpoint.turnOff.path signed
      c.now).1 = .ok ()

/-- A server with this configuration shuts the machine down only for requests that the guard
accepts under `key`. -/
def FailsClosed (crypto : Crypto) (choice : OldestChoice) (config : Config) (key : String) :
    Prop :=
  ∀ requests, ∀ c ∈ (Run.exec (serveClient crypto choice) (startClient config) requests).shutdowns,
    c.AcceptedUnder crypto choice key

/-! ## What a request does -/

variable {crypto : Crypto} {choice : OldestChoice}

/-- A request leaves the key alone, and every new shutdown is accepted under it. -/
theorem serveClient_keeps {key : String} {s : ServedClient}
    (hkey : s.client.shutdownKey = some key)
    (hshutdowns : ∀ c ∈ s.shutdowns, c.AcceptedUnder crypto choice key)
    (request : ClientRequest) :
    (serveClient crypto choice s request).client.shutdownKey = some key ∧
      ∀ c ∈ (serveClient crypto choice s request).shutdowns,
        c.AcceptedUnder crypto choice key := by
  obtain ⟨endpoint, headers, now⟩ := request
  unfold serveClient
  cases endpoint with
  | secureHealth =>
    rcases authenticate_cases crypto choice hkey .secureHealth headers now with
      ⟨g, -, hauth⟩ | ⟨signed, timestamp, -, hauth⟩
    · simp only [secureHealthCheck, hauth]
      exact ⟨hkey, hshutdowns⟩
    · simp only [secureHealthCheck, hauth]
      exact ⟨hkey, hshutdowns⟩
  | turnOff =>
    have hsome : s.client.shutdownKey.isSome = true := by rw [hkey]; rfl
    rcases authenticate_cases crypto choice hkey .turnOff headers now with
      ⟨g, -, hauth⟩ | ⟨signed, timestamp, haccepts, hauth⟩
    · simp only [turnOffMachine, if_pos hsome, hauth]
      exact ⟨hkey, hshutdowns⟩
    · have hverified : (s.client.replayGuard.verify crypto choice key Endpoint.turnOff.method
          Endpoint.turnOff.path signed now).1 = .ok () := by
        -- `authenticate` answered with what the guard said
        unfold authenticate at hauth
        simp only [hkey, haccepts.signed_eq, Prod.mk.injEq] at hauth
        cases hverify : (s.client.replayGuard.verify crypto choice key Endpoint.turnOff.method
            Endpoint.turnOff.path signed now).1 with
        | ok a => rfl
        | error e =>
          rw [hverify] at hauth
          cases hauth.1
      simp only [turnOffMachine, if_pos hsome, hauth]
      refine ⟨hkey, fun c hc => ?_⟩
      rcases List.mem_cons.mp hc with rfl | hold
      · exact ⟨signed, haccepts.signed_eq, hverified⟩
      · exact hshutdowns c hold

/-- A server that starts with a key fails closed under it. -/
theorem failsClosed_of_key {config : Config} {key : String}
    (hkey : config.security.clientShutdownKey = some key) :
    FailsClosed crypto choice config key := by
  intro requests
  have hstart : (startClient config).client.shutdownKey = some key ∧
      ∀ c ∈ (startClient config).shutdowns, c.AcceptedUnder crypto choice key :=
    ⟨hkey, fun c hc => absurd hc List.not_mem_nil⟩
  exact (Run.exec_invariant_of_forall (P := fun s : ServedClient =>
    s.client.shutdownKey = some key ∧ ∀ c ∈ s.shutdowns, c.AcceptedUnder crypto choice key)
    requests hstart fun s request hs => serveClient_keeps hs.1 hs.2 request).2

/-- **The client authenticates under the merged key.**  When the file sets a key and the record
builds, no request shuts the machine down that the guard has not accepted under the key of
the environment source, or, if that has none, the key of the file. -/
theorem client_authenticates_merged_key (crypto : Crypto) (choice : OldestChoice)
    (crate : ConfigCrate) (hmerges : crate.MergesKey) (file : List UInt8) (env : Environment)
    (key : String) (hfile : crate.fileKey file = some key) {merged : Config}
    (hbuild : Config.loadFrom crate (some file) env = .ok merged) :
    FailsClosed crypto choice (Config.load crate (some file) env)
      ((crate.envKey env).getD key) := by
  have hload : Config.load crate (some file) env = merged := by
    unfold Config.load
    rw [hbuild]
  have hkey : merged.security.clientShutdownKey = some ((crate.envKey env).getD key) := by
    rw [hmerges file env merged hbuild, hfile]
    cases crate.envKey env with
    | none => rfl
    | some override => rfl
  rw [hload]
  exact failsClosed_of_key hkey

/-! ## Two configurations -/

/-- The key of 32 bytes `2`. -/
def configuredKey : String := generateKey urlSafeNoPad (Vector.replicate 32 2)

/-- A file that sets this key. -/
def keyFile : List UInt8 :=
  asBytes ("[security]\nclient_shutdown_key = \"" ++ configuredKey ++ "\"\n")

/-- The same file with a port that is no number. -/
def malformedFile : List UInt8 :=
  asBytes "[server]\nclient_port = \"eighty\"\n" ++ keyFile

/-- The variable that overrides the key. -/
def keyVariable : String := "WAKEZILLA__SECURITY__CLIENT_SHUTDOWN_KEY"

/-- The defaults with a key. -/
def Config.withKey (key : Option String) : Config := { security := { clientShutdownKey := key } }

/-- The crates on these two files; any other file is refused.  The variable is read as it is, which
is what `try_parsing` makes of a text that is no number. -/
def sampleCrate : ConfigCrate where
  build file env :=
    if file = some keyFile then
      .ok (.withKey (((env.find? fun v => v.1 = keyVariable).map Prod.snd).or
        (some configuredKey)))
    else .error "invalid digit found in string"
  toStringPretty _ := .error "not a table"
  fileKey file := if file = keyFile ∨ file = malformedFile then some configuredKey else none
  envKey env := (env.find? fun v => v.1 = keyVariable).map Prod.snd

theorem sampleCrate_build (env : Environment) :
    sampleCrate.build (some keyFile) env =
      .ok (.withKey ((sampleCrate.envKey env).or (some configuredKey))) := by
  unfold sampleCrate
  dsimp only
  rw [if_pos rfl]

theorem sampleCrate_fileKey {file : List UInt8} (h : file = keyFile ∨ file = malformedFile) :
    sampleCrate.fileKey file = some configuredKey := by
  unfold sampleCrate
  dsimp only
  rw [if_pos h]

theorem mergesKey_sampleCrate : sampleCrate.MergesKey := by
  intro file env config hbuild
  by_cases hfile : file = keyFile
  · subst hfile
    rw [sampleCrate_build] at hbuild
    rw [sampleCrate_fileKey (Or.inl rfl), ← Except.ok.inj hbuild]
    rfl
  · have herror : sampleCrate.build (some file) env = .error "invalid digit found in string" := by
      unfold sampleCrate
      dsimp only
      rw [if_neg fun h => hfile (Option.some.inj h)]
    rw [herror] at hbuild
    cases hbuild

/-- Without an override the key of the file is enforced. -/
theorem configuredKey_enforced :
    FailsClosed sampleCrypto firstOldest (Config.load sampleCrate (some keyFile) [])
      configuredKey :=
  client_authenticates_merged_key sampleCrypto firstOldest sampleCrate mergesKey_sampleCrate
    keyFile [] configuredKey (sampleCrate_fileKey (Or.inl rfl)) (sampleCrate_build [])

/-- A turn-off request that is signed under the key of the environment. -/
def overriddenRequest : ClientRequest := ⟨.turnOff, sampleHeaders.toHeaderMap, 1700000030⟩

/-- A turn-off request without headers. -/
def unsignedRequest : ClientRequest := ⟨.turnOff, [], 1700000030⟩

/-- **The key of the file is not always enforced.**  The environment replaces it by another key,
whose holder then shuts the machine down; and a port that is no number makes `load` fall back
to a configuration without a key, which accepts an unsigned request. -/
theorem file_key_not_enforced :
    (sampleCrate.fileKey keyFile = some configuredKey ∧
      ¬ FailsClosed sampleCrypto firstOldest
        (Config.load sampleCrate (some keyFile) [(keyVariable, sampleKey)]) configuredKey) ∧
      sampleCrate.fileKey malformedFile = some configuredKey ∧
      ¬ FailsClosed sampleCrypto firstOldest (Config.load sampleCrate (some malformedFile) [])
        configuredKey := by
  refine ⟨⟨sampleCrate_fileKey (Or.inl rfl), fun hclosed => ?_⟩,
    sampleCrate_fileKey (Or.inr rfl), fun hclosed => ?_⟩
  · have hload : Config.load sampleCrate (some keyFile) [(keyVariable, sampleKey)] =
        .withKey (some sampleKey) := by
      unfold Config.load Config.loadFrom
      rw [sampleCrate_build]
      rfl
    rw [hload] at hclosed
    have hcalls : (Run.exec (serveClient sampleCrypto firstOldest)
        (startClient (.withKey (some sampleKey))) [overriddenRequest]).shutdowns =
          [⟨sampleHeaders.toHeaderMap, 1700000030, .default⟩] := rfl
    obtain ⟨signed, hsigned, haccepted⟩ := hclosed [overriddenRequest] _
      (by rw [hcalls]; exact List.mem_singleton_self _)
    have hheaders : signedHeaders sampleHeaders.toHeaderMap = .ok sampleHeaders := by
      decide +kernel
    cases hheaders.symm.trans hsigned
    exact absurd haccepted (by decide +kernel)
  · have hload : Config.load sampleCrate (some malformedFile) [] = .default := by
      unfold Config.load Config.loadFrom sampleCrate
      dsimp only
      rw [if_neg (by decide +kernel)]
    rw [hload] at hclosed
    obtain ⟨signed, hsigned, -⟩ := hclosed [unsignedRequest] ⟨[], 1700000030, .default⟩
      List.mem_cons_self
    cases hsigned

end Wakezilla
