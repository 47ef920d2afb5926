/-
# Waking a machine on a connection

A forwarder (`proxy_internal` of `src/forward.rs`) spawns one task for each connection that it
accepts.  The task resets the machine's timer, checks whether the host answers, wakes it with
magic packets if it does not, waits for it up to a minute, connects and copies.  Any number of
forwarders and of connections run side by side; a step is what one of them does between two
of its waits, and the network answers as it likes.

A connection records what it did.  Every record in every run is an initial part of a `Story`
(`connections_follow_stories`): the packets are all sent before the first check of the wait, no
more than the configured number, and only after a check that failed; at most thirty checks are
made while waiting; and nothing is copied for a host that did not answer the check before.
-/
import Wakezilla.StopIsolation
import Wakezilla.Wol
import Wakezilla.AccessLog
import Wakezilla.Config
import Wakezilla.Library.Polling

namespace Wakezilla

/-- `Duration::from_millis`, in nanoseconds. -/
def Duration.fromMillis (millis : ℕ) : ℕ := millis * 1000000

namespace Config

/-- `get_default_broadcast_addr`. -/
def getDefaultBroadcastAddr (config : Config) : Ipv4Addr :=
  (parseIpv4 config.wol.defaultBroadcastIp).getD ⟨255, 255, 255, 255⟩

/-- `wol_packet_sleeptime`. -/
def wolPacketSleeptime (config : Config) : ℕ :=
  Duration.fromMillis config.wol.packetSleeptimeMs.toNat

end Config

namespace WakeOnConnect

open Polling (Schedule Poll)

/-! ## One connection -/

/-- A datagram of `send_packets`. -/
structure WolPacket where
  bytes : List UInt8
  broadcast : Ipv4Addr
  port : UInt16
  deriving DecidableEq, Repr

/-- What a task does that others see. -/
inductive Action
  | touched (now : Instant)
  | checked (up : Bool)
  | packet (packet : WolPacket)
  | connected (success : Bool)
  deriving DecidableEq, Repr

/-- Where a task is: before its first step, in the first `tcp_check`, in `send_packets` (opening
the socket, before a packet, or in the sleep after the packet with number `sent - 1`), in the
loop that waits for the host since `since`, in `TcpStream::connect`, in `copy_bidirectional`, or
at its end. -/
inductive Stage
  | spawned
  | firstCheck
  | opening (mac : List UInt8)
  | sending (mac : List UInt8) (sent : ℕ)
  | pausing (mac : List UInt8) (sent : ℕ) (wake : Instant)
  | waiting (since : Instant) (poll : Poll)
  | connecting
  | forwarding
  | closed
  deriving DecidableEq, Repr

/-- The task of one connection, and what it did, in order. -/
structure Connection where
  service : Service
  stage : Stage
  trace : List Action
  deriving DecidableEq, Repr

/-- How one of its waits ends. -/
inductive ConnectionEvent
  | started
  | checked (up : Bool)
  | socketOpened (success : Bool)
  | packetSent (success : Bool)
  | packetSlept
  | clockRead
  | pollSlept
  | connected (success : Bool)
  | copied (success : Bool)
  deriving DecidableEq, Repr

/-- The loop `while Instant::now() < deadline`: a minute, with a check every two seconds. -/
def waitUpTo60s (since : Instant) : Schedule where
  looksFirst := true
  deadline := since + Duration.fromSecs 60
  interval := Duration.fromSecs 2

/-- The packet for the bytes of a MAC. -/
def wolPacket (config : Config) (mac : List UInt8) : WolPacket :=
  ⟨buildMagicPacket mac, config.getDefaultBroadcastAddr, config.wol.defaultPort⟩

/-- The head of the loop of `send_packets`; after the last packet, the deadline is set. -/
def nextPacket (config : Config) (now : Instant) (mac : List UInt8) (sent : ℕ) : Stage :=
  if sent < config.wol.defaultPacketCount.toNat then .sending mac sent
  else .waiting now .start

/-- A step of the loop that waits. -/
def waitStep (since now : Instant) (poll : Poll) (event : Polling.Event) : Stage :=
  let next := (waitUpTo60s since).step now poll event
  match next.stage with
  | .found => .connecting
  | .timedOut => .closed
  | _ => .waiting since next

/-- `parse_mac` after a first check that failed. -/
def hostDown (mac : String) : Stage :=
  match parseMac mac with
  | .ok bytes => .opening bytes
  | .error _ => .closed

/-- One step of the task of a connection. -/
def connectionStep (config : Config) (now : Instant) (c : Connection) (event : ConnectionEvent) :
    Connection :=
  match c.stage, event with
  | .spawned, .started => { c with stage := .firstCheck, trace := c.trace ++ [.touched now] }
  | .firstCheck, .checked up =>
    { c with
      stage := if up then .connecting else hostDown c.service.mac
      trace := c.trace ++ [.checked up] }
  | .opening mac, .socketOpened success =>
    { c with stage := if success then nextPacket config now mac 0 else .closed }
  | .sending mac sent, .packetSent success =>
    if success then
      { c with
        stage := .pausing mac (sent + 1) (now + config.wolPacketSleeptime)
        trace := c.trace ++ [.packet (wolPacket config mac)] }
    else { c with stage := .closed }
  | .pausing mac sent wake, .packetSlept =>
    if wake ≤ now then { c with stage := nextPacket config now mac sent } else c
  | .waiting since poll, .clockRead => { c with stage := waitStep since now poll .look }
  | .waiting since poll, .checked up =>
    if poll.stage = .checking then
      { c with
        stage := waitStep since now poll (.answered up)
        trace := c.trace ++ [.checked up] }
    else c
  | .waiting since poll, .pollSlept => { c with stage := waitStep since now poll .woke }
  | .connecting, .connected success =>
    { c with
      stage := if success then .forwarding else .closed
      trace := c.trace ++ [.connected success] }
  | .forwarding, .copied _ => { c with stage := .closed }
  | _, _ => c

/-! ## Forwarders and connections side by side -/

/-- One call of `proxy_internal` that has bound its listener. -/
structure Forwarder where
  service : Service
  listening : Bool
  deriving DecidableEq, Repr

/-- The forwarders, the tasks of their connections, and what they share. -/
structure Gateway where
  clock : Instant
  forwarders : List Forwarder
  connections : List Connection
  accessLog : AccessLog
  limiter : TurnOffLimiter

/-- The passing of time, a new forwarder, a branch of the `select!` of a forwarder (`none` for
a sender that is gone, or an accept that failed), a step of a connection, or anything that
others do with the limiter. -/
inductive GatewayEvent
  | advance (duration : ℕ)
  | bound (service : Service)
  | stopChanged (forwarder : ℕ) (value : Option Bool)
  | accepted (forwarder : ℕ) (millis : Option Int64)
  | connection (i : ℕ) (event : ConnectionEvent)
  | limiterChanged (limiter : TurnOffLimiter)

/-- The branch `listener.accept()`: a connection is written to the history, and its task is
spawned; an error ends the loop. -/
def accept (i : ℕ) (millis : Option Int64) (s : Gateway) : Gateway :=
  match s.forwarders[i]? with
  | some ⟨service, true⟩ =>
    match millis with
    | some now =>
      { s with
        accessLog := s.accessLog.record (serviceKey service.mac service.localPort) now
        connections := s.connections ++ [⟨service, .spawned, []⟩] }
    | none => { s with forwarders := s.forwarders.set i ⟨service, false⟩ }
  | _ => s

/-- A step of the task with number `i`; its first one resets the timer of its MAC. -/
def runConnection (config : Config) (i : ℕ) (event : ConnectionEvent) (s : Gateway) : Gateway :=
  match s.connections[i]? with
  | some c =>
    { s with
      connections := s.connections.set i (connectionStep config s.clock c event)
      limiter :=
        if c.stage = .spawned ∧ event = .started then
          s.limiter.updateLastRequest c.service.mac s.clock
        else s.limiter }
  | none => s

/-- The state after one event. -/
def gatewayStep (config : Config) (s : Gateway) : GatewayEvent → Gateway
  | .advance duration => { s with clock := s.clock + duration }
  | .bound service => { s with forwarders := s.forwarders ++ [⟨service, true⟩] }
  | .stopChanged i value =>
    if value = some true then s
    else { s with forwarders := s.forwarders.modify i fun f => { f with listening := false } }
  | .accepted i millis => accept i millis s
  | .connection i event => runConnection config i event s
  | .limiterChanged limiter => { s with limiter }

/-- The state before the first forwarder. -/
def Gateway.new (clock : Instant) (accessLog : AccessLog) (limiter : TurnOffLimiter) : Gateway :=
  ⟨clock, [], [], accessLog, limiter⟩

/-! ## Stories -/

/-- What a task did that found the host down and sent `sent` packets. -/
def woken (config : Config) (now : Instant) (mac : List UInt8) (sent : ℕ) : List Action :=
  [.touched now, .checked false] ++ List.replicate sent (.packet (wolPacket config mac))

/-- Everything that a connection can do, from its first step to its last: the host is up; it
comes up after fewer than thirty checks that failed; it does not come up; or its MAC is not one. -/
inductive Story (config : Config) (service : Service) : List Action → Prop
  | awake (now : Instant) (success : Bool) :
    Story config service [.touched now, .checked true, .connected success]
  | asleep (now : Instant) (mac : List UInt8) (failed : ℕ) (success : Bool)
    (hmac : parseMac service.mac = .ok mac) (hfailed : failed < 30) :
    Story config service (woken config now mac config.wol.defaultPacketCount.toNat ++
      List.replicate failed (.checked false) ++ [.checked true] ++ [.connected success])
  | inVain (now : Instant) (mac : List UInt8) (hmac : parseMac service.mac = .ok mac) :
    Story config service (woken config now mac config.wol.defaultPacketCount.toNat ++
      List.replicate 30 (.checked false))
  | notAMac (now : Instant) (message : String) (hmac : parseMac service.mac = .error message) :
    Story config service [.touched now, .checked false]

variable {config : Config} {service : Service} {now later since : Instant} {c : Connection}
  {mac : List UInt8} {trace : List Action} {poll : Poll}

/-- The host has answered: what is left is to connect. -/
def Reached (config : Config) (service : Service) (trace : List Action) : Prop :=
  ∀ success, Story config service (trace ++ [.connected success])

/-- The record is an initial part of a story. -/
def Follows (config : Config) (service : Service) (trace : List Action) : Prop :=
  ∃ story, Story config service story ∧ trace <+: story

/-- What a task has done when it is at its stage. -/
def Fits (config : Config) (now : Instant) (c : Connection) : Prop :=
  match c.stage with
  | .spawned => c.trace = []
  | .firstCheck => ∃ t, c.trace = [.touched t]
  | .opening mac => parseMac c.service.mac = .ok mac ∧ ∃ t, c.trace = woken config t mac 0
  | .sending mac sent => parseMac c.service.mac = .ok mac ∧
    sent < config.wol.defaultPacketCount.toNat ∧ ∃ t, c.trace = woken config t mac sent
  | .pausing mac sent _ => parseMac c.service.mac = .ok mac ∧
    sent ≤ config.wol.defaultPacketCount.toNat ∧ ∃ t, c.trace = woken config t mac sent
  | .waiting since poll => (waitUpTo60s since).Paced since now poll ∧ poll.stage ≠ .found ∧
    ∃ mac t, parseMac c.service.mac = .ok mac ∧
      c.trace = woken config t mac config.wol.defaultPacketCount.toNat ++
        List.replicate poll.answered (.checked false)
  | .connecting => Reached config c.service c.trace
  | .forwarding => ∃ reached, Reached config c.service reached ∧
    c.trace = reached ++ [.connected true]
  | .closed => Follows config c.service c.trace

/-! ## Parts of stories -/

theorem woken_prefix_inVain {sent : ℕ} (hmac : parseMac service.mac = .ok mac)
    (hsent : sent ≤ config.wol.defaultPacketCount.toNat) :
    Follows config service (woken config now mac sent) := by
  refine ⟨_, .inVain now mac hmac, ?_⟩
  obtain ⟨left, hleft⟩ := Nat.exists_eq_add_of_le hsent
  refine ⟨List.replicate left (.packet (wolPacket config mac)) ++
    List.replicate 30 (.checked false), ?_⟩
  rw [woken, woken, hleft, List.replicate_add]
  simp only [List.append_assoc]

/-- No more than thirty checks fit into the wait. -/
theorem checks_le_thirty (h : (waitUpTo60s since).Paced since now poll) : poll.checks ≤ 30 := by
  have hinterval : 0 < (waitUpTo60s since).interval := by
    show 0 < Duration.fromSecs 2
    decide
  have hdeadline : (waitUpTo60s since).deadline - since = 60000000000 :=
    Nat.add_sub_cancel_left since _
  have hle := h.checks_le hinterval
  rw [hdeadline] at hle
  refine le_trans hle ?_
  show (60000000000 + Duration.fromSecs 2 - 1) / Duration.fromSecs 2 + 0 ≤ 30
  decide

theorem follows_waiting {failed : ℕ} (hmac : parseMac service.mac = .ok mac)
    (hfailed : failed ≤ 30) :
    Follows config service (woken config now mac config.wol.defaultPacketCount.toNat ++
      List.replicate failed (.checked false)) := by
  refine ⟨_, .inVain now mac hmac, ?_⟩
  obtain ⟨left, hleft⟩ := Nat.exists_eq_add_of_le hfailed
  refine ⟨List.replicate left (.checked false), ?_⟩
  rw [hleft, List.replicate_add, List.append_assoc]

/-- A story is told to its end once the connection is up. -/
theorem Reached.follows (h : Reached config service trace) : Follows config service trace :=
  ⟨_, h true, List.prefix_append _ _⟩

/-- **What a task has done is part of a story**, wherever it is. -/
theorem Fits.follows (h : Fits config now c) : Follows config c.service c.trace := by
  obtain ⟨service, stage, trace⟩ := c
  cases stage with
  | spawned =>
    obtain rfl : trace = [] := h
    exact ⟨_, .awake 0 true, List.nil_prefix⟩
  | firstCheck =>
    obtain ⟨t, rfl⟩ : ∃ t, trace = [.touched t] := h
    exact ⟨_, .awake t true, [.checked true, .connected true], rfl⟩
  | opening mac =>
    obtain ⟨hmac, t, rfl⟩ : _ ∧ ∃ t, trace = woken config t mac 0 := h
    exact woken_prefix_inVain hmac (Nat.zero_le _)
  | sending mac sent =>
    obtain ⟨hmac, hsent, t, rfl⟩ : _ ∧ _ ∧ ∃ t, trace = woken config t mac sent := h
    exact woken_prefix_inVain hmac (le_of_lt hsent)
  | pausing mac sent wake =>
    obtain ⟨hmac, hsent, t, rfl⟩ : _ ∧ _ ∧ ∃ t, trace = woken config t mac sent := h
    exact woken_prefix_inVain hmac hsent
  | waiting since poll =>
    obtain ⟨hpaced, -, mac, t, hmac, htrace⟩ := h
    dsimp only at htrace
    rw [htrace]
    exact follows_waiting hmac (le_trans poll.answered_le (checks_le_thirty hpaced))
  | connecting => exact Reached.follows h
  | forwarding =>
    obtain ⟨reached, hreached, htrace⟩ := h
    dsimp only at hreached htrace
    rw [htrace]
    exact ⟨_, hreached true, List.prefix_rfl⟩
  | closed => exact h

/-! ## The invariant -/

theorem Fits.mono (h : Fits config now c) (hle : now ≤ later) : Fits config later c := by
  obtain ⟨service, stage, trace⟩ := c
  cases stage with
  | waiting since poll => exact ⟨h.1.mono hle, h.2⟩
  | _ => exact h

theorem fits_nextPacket {sent : ℕ} (hmac : parseMac service.mac = .ok mac)
    (hsent : sent ≤ config.wol.defaultPacketCount.toNat) {t : Instant}
    (htrace : trace = woken config t mac sent) :
    Fits config now ⟨service, nextPacket config now mac sent, trace⟩ := by
  unfold nextPacket
  by_cases hlt : sent < config.wol.defaultPacketCount.toNat
  · rw [if_pos hlt]
    exact ⟨hmac, hlt, t, htrace⟩
  · rw [if_neg hlt]
    obtain rfl : sent = config.wol.defaultPacketCount.toNat := by omega
    refine ⟨Schedule.paced_start _ _, nofun, mac, t, hmac, ?_⟩
    show trace = _ ++ []
    rw [List.append_nil]
    exact htrace

/-- The wait goes on, or ends with its time. -/
theorem fits_waitStep {event : Polling.Event} {t : Instant}
    (hpaced : (waitUpTo60s since).Paced since now poll) (hmac : parseMac service.mac = .ok mac)
    (hfound : ((waitUpTo60s since).step now poll event).stage ≠ .found)
    (htrace : trace = woken config t mac config.wol.defaultPacketCount.toNat ++ List.replicate
      ((waitUpTo60s since).step now poll event).answered (.checked false)) :
    Fits config now ⟨service, waitStep since now poll event, trace⟩ := by
  have hnext := hpaced.step event
  unfold waitStep
  dsimp only
  split
  · rename_i heq
    exact absurd heq hfound
  · show Follows config service trace
    rw [htrace]
    exact follows_waiting hmac (le_trans (Poll.answered_le _) (checks_le_thirty hnext))
  · exact ⟨hnext, hfound, mac, t, hmac, htrace⟩

/-- The check before succeeded. -/
theorem reached_waiting {t : Instant} (hpaced : (waitUpTo60s since).Paced since now poll)
    (hchecking : poll.stage = .checking) (hmac : parseMac service.mac = .ok mac) :
    Reached config service (woken config t mac config.wol.defaultPacketCount.toNat ++
      List.replicate poll.answered (.checked false) ++ [.checked true]) := by
  intro success
  have hle := checks_le_thirty hpaced
  have hpos : 0 < poll.checks := by
    rw [Schedule.Paced, hchecking] at hpaced
    exact hpaced.2.1
  refine .asleep t mac _ success hmac ?_
  rw [Poll.answered, if_pos hchecking]
  omega

/-- **Every step keeps the record in step with the stage.** -/
theorem Fits.step (h : Fits config now c) (event : ConnectionEvent) :
    Fits config now (connectionStep config now c event) := by
  obtain ⟨service, stage, trace⟩ := c
  unfold connectionStep
  dsimp only
  split
  · -- the task starts
    obtain rfl : trace = [] := h
    exact ⟨now, rfl⟩
  · -- the first check is answered
    rename_i up
    obtain ⟨t, rfl⟩ : ∃ t, trace = [.touched t] := h
    cases up with
    | true => exact fun success => .awake t success
    | false =>
      show Fits config now ⟨service, hostDown service.mac, [.touched t, .checked false]⟩
      unfold hostDown
      cases hmac : parseMac service.mac with
      | ok bytes => exact ⟨hmac, t, rfl⟩
      | error message => exact ⟨_, .notAMac t message hmac, List.prefix_rfl⟩
  · -- the socket is opened
    rename_i mac success
    have hfollows := h.follows
    obtain ⟨hmac, t, htrace⟩ := h
    cases success with
    | true => exact fits_nextPacket hmac (Nat.zero_le _) htrace
    | false => exact hfollows
  · -- a packet is sent
    rename_i mac sent success
    have hfollows := h.follows
    obtain ⟨hmac, hsent, t, htrace⟩ := h
    dsimp only at htrace
    cases success with
    | true =>
      refine ⟨hmac, hsent, t, ?_⟩
      show trace ++ _ = _
      rw [htrace, woken, woken, List.append_assoc, ← List.replicate_succ']
    | false => exact hfollows
  · -- the sleep after a packet
    rename_i mac sent wake
    by_cases hwake : wake ≤ now
    · rw [if_pos hwake]
      obtain ⟨hmac, hsent, t, htrace⟩ := h
      exact fits_nextPacket hmac hsent htrace
    · rw [if_neg hwake]
      exact h
  · -- the clock is read before a check
    rename_i since poll
    obtain ⟨hpaced, hfound, mac, t, hmac, htrace⟩ := h
    obtain ⟨hsame, hstage⟩ := (waitUpTo60s since).look_answers_nothing now poll
    exact fits_waitStep hpaced hmac (fun heq => hfound (hstage.mp heq))
      (by rw [hsame]; exact htrace)
  · -- a check of the wait is answered
    rename_i since poll up
    by_cases hchecking : poll.stage = .checking
    · rw [if_pos hchecking]
      obtain ⟨hpaced, -, mac, t, hmac, htrace⟩ := h
      dsimp only at htrace
      subst htrace
      cases up with
      | true =>
        have hnext : waitStep since now poll (.answered true) = .connecting := by
          unfold waitStep Schedule.step
          rw [hchecking]
        rw [hnext]
        exact reached_waiting hpaced hchecking hmac
      | false =>
        obtain ⟨hone, hfound⟩ := hpaced.failure_answers_one hchecking
        refine fits_waitStep (t := t) hpaced hmac hfound ?_
        rw [hone, List.replicate_succ', List.append_assoc]
    · rw [if_neg hchecking]
      exact h
  · -- the sleep between two checks
    rename_i since poll
    obtain ⟨hpaced, hfound, mac, t, hmac, htrace⟩ := h
    obtain ⟨hsame, hstage⟩ := (waitUpTo60s since).woke_answers_nothing now poll
    exact fits_waitStep hpaced hmac (fun heq => hfound (hstage.mp heq))
      (by rw [hsame]; exact htrace)
  · -- the connection is up, or not
    rename_i success
    have hreached : Reached config service trace := h
    cases success with
    | true => exact ⟨trace, hreached, rfl⟩
    | false => exact ⟨_, hreached false, List.prefix_rfl⟩
  · -- everything is copied
    exact h.follows
  · exact h

/-- Every connection of a run fits. -/
theorem fits_exec (config : Config) (clock : Instant) (accessLog : AccessLog)
    (limiter : TurnOffLimiter) (es : List GatewayEvent) :
    ∀ c ∈ (Run.exec (gatewayStep config) (.new clock accessLog limiter) es).connections,
      Fits config (Run.exec (gatewayStep config) (.new clock accessLog limiter) es).clock c := by
  refine Run.exec_invariant_of_forall
    (P := fun s : Gateway => ∀ c ∈ s.connections, Fits config s.clock c) es
    (fun c hc => absurd hc List.not_mem_nil) fun s event h => ?_
  cases event with
  | advance duration => exact fun c hc => (h c hc).mono (Nat.le_add_right _ _)
  | bound service => exact h
  | stopChanged i value =>
    unfold gatewayStep
    dsimp only
    split <;> exact h
  | accepted i millis =>
    show ∀ c ∈ (accept i millis s).connections, Fits config (accept i millis s).clock c
    unfold accept
    split
    · cases millis with
      | none => exact h
      | some now =>
        intro c hc
        rcases List.mem_append.mp hc with hc | hc
        · exact h c hc
        · rw [List.mem_singleton.mp hc]
          rfl
    · exact h
  | connection i event =>
    show ∀ c ∈ (runConnection config i event s).connections,
      Fits config (runConnection config i event s).clock c
    unfold runConnection
    cases hget : s.connections[i]? with
    | none => exact h
    | some c =>
      intro c' hc'
      rcases List.mem_or_eq_of_mem_set hc' with hmem | rfl
      · exact h c' hmem
      · exact (h c (List.mem_of_getElem? hget)).step event
  | limiterChanged limiter => exact h

/-- **Connections follow their stories**, in every interleaving of any number of forwarders and
connections, and data is copied only at the end of one. -/
theorem connections_follow_stories (config : Config) (clock : Instant) (accessLog : AccessLog)
    (limiter : TurnOffLimiter) (es : List GatewayEvent) :
    ∀ c ∈ (Run.exec (gatewayStep config) (.new clock accessLog limiter) es).connections,
      Follows config c.service c.trace ∧
        (c.stage = .forwarding → ∃ reached, Reached config c.service reached ∧
          c.trace = reached ++ [.connected true]) := by
  intro c hc
  have hfits := fits_exec config clock accessLog limiter es c hc
  refine ⟨hfits.follows, fun hstage => ?_⟩
  rw [Fits, hstage] at hfits
  exact hfits

/-- A workstation that sleeps for the first two checks: the run of its connection. -/
def wakingRun : List GatewayEvent :=
  [.bound ⟨"AA:BB:CC:DD:EE:FF", ⟨192, 168, 1, 20⟩, 9000, 22⟩, .accepted 0 (some 5),
    .connection 0 .started, .connection 0 (.checked false),
    .connection 0 (.socketOpened true)] ++
  (List.replicate 3 [.connection 0 (.packetSent true), .advance (Duration.fromMillis 50),
    .connection 0 .packetSlept]).flatten ++
  [.connection 0 .clockRead, .connection 0 (.checked false),
    .advance (Duration.fromSecs 2), .connection 0 .pollSlept, .connection 0 .clockRead,
    .connection 0 (.checked true), .connection 0 (.connected true)]

/-- Its connection forwards, with eight actions behind it. -/
theorem sleeper_forwarded :
    ∃ c ∈ (Run.exec (gatewayStep .default) (.new 0 (.new 10) .new) wakingRun).connections,
      c.trace.length = 8 ∧ Follows .default c.service c.trace ∧
        ∃ reached, Reached .default c.service reached ∧
          c.trace = reached ++ [.connected true] := by
  obtain ⟨c, hc, hstage, hlength⟩ :
      ∃ c ∈ (Run.exec (gatewayStep .default) (.new 0 (.new 10) .new) wakingRun).connections,
        c.stage = .forwarding ∧ c.trace.length = 8 := by decide +kernel
  obtain ⟨hfollows, hreached⟩ := connections_follow_stories .default 0 (.new 10) .new wakingRun c hc
  exact ⟨c, hc, hlength, hfollows, hreached hstage⟩

/-! ## `check_host` -/

/-- A call of `check_host`: the clock, its loop, when the checks began, and the answers of
`tcp_check` so far. -/
structure HostCheck where
  clock : Instant
  poll : Poll
  begins : List Instant
  answers : List Bool
  deriving DecidableEq, Repr

/-- The passing of time, or the end of one of its waits. -/
inductive HostCheckEvent
  | advance (duration : ℕ)
  | poll (event : Polling.Event)
  deriving DecidableEq, Repr

/-- The loop of `check_host`: the clock is read after a check that failed. -/
def checkHost (start : Instant) (waitSecs intervalMs : UInt64) : Schedule where
  looksFirst := false
  deadline := start + Duration.fromSecs waitSecs.toNat
  interval := Duration.fromMillis intervalMs.toNat

/-- A check begins whenever the loop is at its head: `check_host` reads the clock afterwards. -/
def newBegin (now : Instant) (stage : Polling.Stage) (event : Polling.Event) : List Instant :=
  match stage, event with
  | .head, .look => [now]
  | _, _ => []

/-- The answer that an event brings, if a check waits for it. -/
def newAnswer (stage : Polling.Stage) (event : Polling.Event) : List Bool :=
  match stage, event with
  | .checking, .answered up => [up]
  | _, _ => []

/-- The state after one event. -/
def hostCheckStep (p : Schedule) (s : HostCheck) : HostCheckEvent → HostCheck
  | .advance duration => { s with clock := s.clock + duration }
  | .poll event =>
    { s with
      poll := p.step s.clock s.poll event
      begins := s.begins ++ newBegin s.clock s.poll.stage event
      answers := s.answers ++ newAnswer s.poll.stage event }

/-- The answers that led to a state of the loop: all of them no, but the one that ended it. -/
def answersOf (poll : Poll) : List Bool :=
  if poll.stage = .found then List.replicate (poll.checks - 1) false ++ [true]
  else List.replicate poll.answered false

/-- A step that answers no check. -/
theorem answersOf_congr {p : Schedule} {event : Polling.Event}
    (hsame : (p.step now poll event).answered = poll.answered)
    (hfound : (p.step now poll event).stage = .found ↔ poll.stage = .found) :
    answersOf (p.step now poll event) = answersOf poll := by
  by_cases h : poll.stage = .found
  · rw [p.step_of_found now h]
  · rw [answersOf, if_neg (mt hfound.mp h), hsame, answersOf, if_neg h]

theorem newAnswer_of_ne {stage : Polling.Stage} (h : stage ≠ .checking) (event : Polling.Event) :
    newAnswer stage event = [] := by
  cases stage with
  | checking => exact absurd rfl h
  | _ => rfl

/-- **The answers are those of the state** after every step of the loop. -/
theorem answersOf_step {p : Schedule} {start : Instant} (hpaced : p.Paced start now poll)
    (event : Polling.Event) :
    answersOf (p.step now poll event) = answersOf poll ++ newAnswer poll.stage event := by
  by_cases hchecking : poll.stage = .checking
  · cases event with
    | look =>
      obtain ⟨hsame, hfound⟩ := p.look_answers_nothing now poll
      rw [answersOf_congr hsame hfound, hchecking]
      exact (List.append_nil _).symm
    | woke =>
      obtain ⟨hsame, hfound⟩ := p.woke_answers_nothing now poll
      rw [answersOf_congr hsame hfound, hchecking]
      exact (List.append_nil _).symm
    | answered up =>
      have hbefore : answersOf poll = List.replicate poll.answered false :=
        if_neg (by rw [hchecking]; decide)
      rw [hbefore, hchecking]
      show _ = List.replicate poll.answered false ++ [up]
      cases up with
      | true =>
        obtain ⟨stage, checks⟩ := poll
        subst hchecking
        rfl
      | false =>
        obtain ⟨hone, hfound⟩ := hpaced.failure_answers_one hchecking
        rw [answersOf, if_neg hfound, hone, List.replicate_succ']
  · rw [newAnswer_of_ne hchecking, List.append_nil]
    cases event with
    | look =>
      obtain ⟨hsame, hfound⟩ := p.look_answers_nothing now poll
      exact answersOf_congr hsame hfound
    | woke =>
      obtain ⟨hsame, hfound⟩ := p.woke_answers_nothing now poll
      exact answersOf_congr hsame hfound
    | answered up => rw [p.step_answered_of_ne now hchecking]

/-- What is known of the times at which the checks began: while another one may follow, all of
them lie before the deadline. -/
structure Begun (p : Schedule) (s : HostCheck) : Prop where
  length_eq : s.begins.length = s.poll.checks
  past : ∀ t ∈ s.begins, t ≤ s.clock
  early : ∀ t ∈ s.begins.dropLast, t < p.deadline
  goesOn : (s.poll.stage = .head ∨ ∃ wake, s.poll.stage = .sleeping wake) →
    ∀ t ∈ s.begins, t < p.deadline

/-- A step that begins no check. -/
theorem Begun.kept {p : Schedule} {s later : HostCheck} (h : Begun p s)
    (hclock : s.clock ≤ later.clock) (hbegins : later.begins = s.begins)
    (hchecks : later.poll.checks = s.poll.checks)
    (hgoes : (later.poll.stage = .head ∨ ∃ wake, later.poll.stage = .sleeping wake) →
      ∀ t ∈ s.begins, t < p.deadline) : Begun p later where
  length_eq := by rw [hbegins, hchecks, h.length_eq]
  past := by rw [hbegins]; exact fun t ht => le_trans (h.past t ht) hclock
  early := by rw [hbegins]; exact h.early
  goesOn := by rw [hbegins]; exact hgoes

/-- The checks begin as the loop says, after every event. -/
theorem Begun.step {p : Schedule} {s : HostCheck} (hlooks : p.looksFirst = false)
    (h : Begun p s) (event : HostCheckEvent) : Begun p (hostCheckStep p s event) := by
  obtain ⟨clock, ⟨stage, checks⟩, begins, answers⟩ := s
  cases event with
  | advance duration => exact h.kept (Nat.le_add_right _ _) rfl rfl h.goesOn
  | poll event =>
    -- only the head begins a check, and only a check that fails in time goes on
    cases stage <;> cases event
    case head.look =>
      have hstep : p.step clock ⟨.head, checks⟩ .look = ⟨.checking, checks + 1⟩ := by
        simp only [Schedule.step, hlooks, Bool.false_and, Bool.false_eq_true, if_false]
      refine ⟨?_, fun t ht => ?_, fun t ht => ?_, fun hstage => ?_⟩
      · show (begins ++ [clock]).length = (p.step clock ⟨.head, checks⟩ .look).checks
        rw [hstep, List.length_append, List.length_singleton]
        exact congrArg (· + 1) h.length_eq
      · rcases List.mem_append.mp ht with ht | ht
        · exact h.past t ht
        · exact (List.mem_singleton.mp ht).le
      · have ht : t ∈ (begins ++ [clock]).dropLast := ht
        rw [List.dropLast_concat] at ht
        exact h.goesOn (Or.inl rfl) t ht
      · have hstage : (p.step clock ⟨.head, checks⟩ .look).stage = .head ∨
            ∃ wake, (p.step clock ⟨.head, checks⟩ .look).stage = .sleeping wake := hstage
        rw [hstep] at hstage
        rcases hstage with hstage | ⟨wake, hstage⟩ <;> cases hstage
    case checking.answered success =>
      refine h.kept le_rfl (List.append_nil _) ?_ fun hstage t ht => ?_
      · show (p.step clock ⟨.checking, checks⟩ (.answered success)).checks = checks
        exact p.checks_answered clock _ success
      · have hfail : clock < p.deadline :=
          p.early_of_goes_on hlooks hstage
        exact lt_of_le_of_lt (h.past t ht) hfail
    case sleeping.woke wake =>
      refine h.kept le_rfl (List.append_nil _) ?_ fun _ => h.goesOn (Or.inr ⟨wake, rfl⟩)
      show (p.step clock ⟨.sleeping wake, checks⟩ .woke).checks = checks
      exact p.checks_woke clock _
    -- every other event finds the loop at a place where it waits for something else
    all_goals exact h.kept le_rfl (List.append_nil _) rfl h.goesOn

/-- A call at the time `start`, after some events. -/
def runCheckHost (start : Instant) (waitSecs intervalMs : UInt64) (es : List HostCheckEvent) :
    HostCheck :=
  Run.exec (hostCheckStep (checkHost start waitSecs intervalMs)) ⟨start, .start, [], []⟩ es

variable (start : Instant) (waitSecs intervalMs : UInt64) (es : List HostCheckEvent)

/-- The loop keeps its pace, and has its answers, along every run. -/
theorem runCheckHost_invariant :
    (checkHost start waitSecs intervalMs).Paced start
        (runCheckHost start waitSecs intervalMs es).clock
        (runCheckHost start waitSecs intervalMs es).poll ∧
      (runCheckHost start waitSecs intervalMs es).answers =
        answersOf (runCheckHost start waitSecs intervalMs es).poll := by
  refine Run.exec_invariant_of_forall (P := fun s : HostCheck =>
      (checkHost start waitSecs intervalMs).Paced start s.clock s.poll ∧
        s.answers = answersOf s.poll) es
    ⟨Schedule.paced_start _ start, rfl⟩ fun s event h => ?_
  obtain ⟨hpaced, hanswers⟩ := h
  cases event with
  | advance duration => exact ⟨hpaced.mono (Nat.le_add_right _ _), hanswers⟩
  | poll event =>
    refine ⟨hpaced.step event, ?_⟩
    show s.answers ++ _ = _
    rw [hanswers]
    exact (answersOf_step hpaced event).symm

/-- The times of the checks along every run. -/
theorem runCheckHost_begun :
    Begun (checkHost start waitSecs intervalMs) (runCheckHost start waitSecs intervalMs es) :=
  Run.exec_invariant_of_forall (P := Begun (checkHost start waitSecs intervalMs)) es
    ⟨rfl, nofun, nofun, fun _ => nofun⟩ fun _ event h => h.step rfl event

/-- The last answer is a success exactly when the loop has ended with it. -/
theorem getLast?_answersOf (poll : Poll) :
    (answersOf poll).getLast? = some true ↔ poll.stage = .found := by
  unfold answersOf
  split
  · rename_i hfound
    exact iff_of_true List.getLast?_concat hfound
  · rename_i hfound
    refine iff_of_false (fun hlast => ?_) hfound
    exact absurd (List.eq_of_mem_replicate (List.mem_of_getLast? hlast)) (by decide)

/-- Every answer but the last is a failure, and so is the last unless the loop has ended with
it. -/
theorem dropLast_answersOf (poll : Poll) :
    (∀ up ∈ (answersOf poll).dropLast, up = false) ∧
      (poll.stage ≠ .found → ∀ up ∈ answersOf poll, up = false) := by
  unfold answersOf
  split
  · rename_i hfound
    refine ⟨fun up hmem => ?_, fun hne => absurd hfound hne⟩
    rw [List.dropLast_concat] at hmem
    exact List.eq_of_mem_replicate hmem
  · exact ⟨fun up hmem => List.eq_of_mem_replicate (List.dropLast_subset _ hmem),
      fun _ up hmem => List.eq_of_mem_replicate hmem⟩

/-- **What `check_host` returns**, whatever the host answers and however long it takes: `true`
exactly when its last check succeeded, with all before it failed; `false` only when all failed, at
least one was made and the time is over.  Every check but the last begins within the time, and
from the third one on they are as few as the interval says. -/
theorem checkHost_spec :
    ((runCheckHost start waitSecs intervalMs es).poll.stage = .found ↔
        (runCheckHost start waitSecs intervalMs es).answers.getLast? = some true) ∧
      (∀ up ∈ (runCheckHost start waitSecs intervalMs es).answers.dropLast, up = false) ∧
      ((runCheckHost start waitSecs intervalMs es).poll.stage = .timedOut →
        (runCheckHost start waitSecs intervalMs es).answers ≠ [] ∧
        (∀ up ∈ (runCheckHost start waitSecs intervalMs es).answers, up = false) ∧
        start + Duration.fromSecs waitSecs.toNat ≤
          (runCheckHost start waitSecs intervalMs es).clock) ∧
      (runCheckHost start waitSecs intervalMs es).begins.length =
        (runCheckHost start waitSecs intervalMs es).poll.checks ∧
      (∀ t ∈ (runCheckHost start waitSecs intervalMs es).begins.dropLast,
        t < start + Duration.fromSecs waitSecs.toNat) ∧
      ((runCheckHost start waitSecs intervalMs es).poll.checks ≤ 1 ∨
        ((runCheckHost start waitSecs intervalMs es).poll.checks - 2) *
          Duration.fromMillis intervalMs.toNat < Duration.fromSecs waitSecs.toNat) := by
  obtain ⟨hpaced, hanswers⟩ := runCheckHost_invariant start waitSecs intervalMs es
  have hbegun := runCheckHost_begun start waitSecs intervalMs es
  generalize runCheckHost start waitSecs intervalMs es = s at hpaced hanswers hbegun ⊢
  refine ⟨?_, ?_, fun hstage => ?_, hbegun.length_eq, hbegun.early, ?_⟩
  · rw [hanswers]
    exact (getLast?_answersOf s.poll).symm
  · rw [hanswers]
    exact (dropLast_answersOf s.poll).1
  · rw [Schedule.Paced, hstage] at hpaced
    obtain ⟨hdeadline, hfree, -⟩ := hpaced
    refine ⟨fun hnil => ?_, ?_, hdeadline⟩
    · have hfree : 1 ≤ s.poll.checks := hfree
      have hlength : s.answers.length = s.poll.checks := by
        rw [hanswers, answersOf, if_neg (by rw [hstage]; decide), List.length_replicate,
          Poll.answered, if_neg (by rw [hstage]; decide)]
      rw [hnil, List.length_nil] at hlength
      omega
    · rw [hanswers]
      exact (dropLast_answersOf s.poll).2 (by rw [hstage]; decide)
  · rcases hpaced.inTime with hfree | hin
    · exact Or.inl hfree
    · have hlt : (s.poll.checks - 1 - 1) * Duration.fromMillis intervalMs.toNat <
          Duration.fromSecs waitSecs.toNat := Nat.lt_of_add_lt_add_left hin
      rw [Nat.sub_sub] at hlt
      exact Or.inr hlt

end WakeOnConnect

end Wakezilla
