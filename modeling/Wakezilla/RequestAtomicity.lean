/-
# Requests that fail change nothing

The answers of the handlers, next to what they do to the registry, the timers and the
`proxies` map.  `respond` gives the answer of an event of the transition system; a
section of `verify_shutdown_setup` that goes on to the network has none, and neither
have the steps of the tasks.

An answer with an error status leaves all three stores as they were, and any other one
comes with a change of the addressed machine's record alone
(`failed_requests_change_nothing`).
-/
import Wakezilla.ProxySystem

namespace Wakezilla

/-- The answer that a handler gives in this event, if it gives one. -/
def respond (libs : Externals) (s : Proxy) : ProxyEvent → Option Response
  | .add payload random fault now => some (addMachineApi libs payload random fault now s).1
  | .update mac payload random fault now =>
    some (updateMachineApi libs mac payload random fault now s).1
  | .delete payload fault => some (deleteMachineApi libs payload fault s).1
  | .rotate mac random fault => some (rotateShutdownKey libs mac random fault s).1
  | .verifyRead mac => (verifyShutdownSetupRead mac s).1
  | .verifyCommit i answer fault =>
    s.verifications[i]?.map fun p =>
      (verifyShutdownSetupCommit libs p answer fault
        { s with verifications := s.verifications.eraseIdx i }).1
  | _ => none

/-- The MAC of the machine that a request is about. -/
def addressed (s : Proxy) : ProxyEvent → Option String
  | .add payload _ _ _ => some payload.mac
  | .update mac _ _ _ _ | .rotate mac _ _ | .verifyRead mac => some mac
  | .delete payload _ => some payload.mac
  | .verifyCommit i _ _ => s.verifications[i]?.map PendingVerification.mac
  | _ => none

/-- A change of the registry that concerns the machine `mac` alone: its record is appended,
replaced where it stands, or taken out, and the others stay as they are and in their order. -/
inductive RecordChange (mac : String) (machines : List Machine) : List Machine → Prop
  | none : RecordChange mac machines machines
  | added (new : Machine) (hmac : new.mac = mac) : RecordChange mac machines (machines ++ [new])
  | replaced (i : ℕ) (old new : Machine) (hold : machines[i]? = some old) (hmac : old.mac = mac) :
    RecordChange mac machines (machines.set i new)
  | removed : RecordChange mac machines (machines.filter fun m => m.mac ≠ mac)

/-- How a request about the machine `mac` ends: with an error and no change, or with a change
of this machine's record. -/
inductive Answered (mac : String) (s : Proxy) (code : ℕ) (s' : Proxy) : Prop
  | failed (hcode : 400 ≤ code) (hmachines : s'.machines = s.machines)
      (hlimiter : s'.turnOffLimiter = s.turnOffLimiter) (hproxies : s'.proxies = s.proxies)
  | done (hcode : code < 400) (hchange : RecordChange mac s.machines s'.machines)

theorem Rejected.answered {libs : Externals} {fault : SaveFault} {s : Proxy}
    {answer : Response × Proxy} (h : Rejected libs fault s answer) (mac : String) :
    Answered mac s answer.1.code answer.2 := by
  obtain ⟨response, s'⟩ := answer
  obtain ⟨hcode, hrefused⟩ := h
  cases hrefused with
  | unchanged => exact .failed hcode rfl rfl rfl
  | notSaved hfault machines => exact .failed hcode rfl rfl rfl

/-- The machine at the position of a MAC has this MAC. -/
theorem RecordChange.of_position {mac : String} {machines : List Machine} {i : ℕ} {old : Machine}
    (h : position mac machines = some (i, old)) (new : Machine) :
    RecordChange mac machines (machines.set i new) := by
  obtain ⟨hold, hmac⟩ := position_eq_some h
  exact .replaced i old new hold hmac

/-! ## The handlers -/

theorem addMachineApi_answered (libs : Externals) (payload : Api.MachinePayload)
    (random : Vector UInt8 32) (fault : SaveFault) (now : Instant) (s : Proxy) :
    Answered payload.mac s (addMachineApi libs payload random fault now s).1.code
      (addMachineApi libs payload random fault now s).2 := by
  rcases addMachineApi_cases libs payload random fault now s with
    hrejected | ⟨new, -, -, hmac, -, -, hanswer⟩
  · exact hrejected.answered payload.mac
  · rw [hanswer]
    exact .done (by simp) (.added new hmac)

theorem updateMachineApi_answered (libs : Externals) (mac : String) (payload : Api.MachinePayload)
    (random : Vector UInt8 32) (fault : SaveFault) (now : Instant) (s : Proxy) :
    Answered mac s (updateMachineApi libs mac payload random fault now s).1.code
      (updateMachineApi libs mac payload random fault now s).2 := by
  rcases updateMachineApi_cases libs mac payload random fault now s with
    hrejected | ⟨index, old, base, -, hposition, -, hanswer⟩
  · exact hrejected.answered mac
  · rw [hanswer]
    exact .done (by simp) (.of_position hposition _)

theorem deleteMachineApi_answered (libs : Externals) (payload : Api.DeleteMachinePayload)
    (fault : SaveFault) (s : Proxy) :
    Answered payload.mac s (deleteMachineApi libs payload fault s).1.code
      (deleteMachineApi libs payload fault s).2 := by
  rcases deleteMachineApi_cases libs payload fault s with
    ⟨-, hrejected⟩ | ⟨limiter, -, -, hanswer⟩
  · exact hrejected.answered payload.mac
  · rw [hanswer]
    exact .done (by simp) .removed

theorem rotateShutdownKey_answered (libs : Externals) (mac : String) (random : Vector UInt8 32)
    (fault : SaveFault) (s : Proxy) :
    Answered mac s (rotateShutdownKey libs mac random fault s).1.code
      (rotateShutdownKey libs mac random fault s).2 := by
  rcases rotateShutdownKey_cases libs mac random fault s with
    hrejected | ⟨index, m, -, hposition, -, hcode, hstate⟩
  · exact hrejected.answered mac
  · rw [hcode, hstate]
    exact .done (by simp) (.of_position hposition _)

/-- The first section only reads, whatever it answers. -/
theorem verifyShutdownSetupRead_stores (mac : String) (s : Proxy) :
    (verifyShutdownSetupRead mac s).2.machines = s.machines ∧
      (verifyShutdownSetupRead mac s).2.turnOffLimiter = s.turnOffLimiter ∧
      (verifyShutdownSetupRead mac s).2.proxies = s.proxies := by
  rcases verifyShutdownSetupRead_cases mac s with hstate | ⟨index, m, port, key, -, -, -, hstate⟩
  · rw [hstate]
    exact ⟨rfl, rfl, rfl⟩
  · rw [hstate]
    exact ⟨rfl, rfl, rfl⟩

theorem verifyShutdownSetupCommit_answered (libs : Externals) (p : PendingVerification)
    (answer : HttpAnswer) (fault : SaveFault) (s : Proxy) :
    Answered p.mac s (verifyShutdownSetupCommit libs p answer fault s).1.code
      (verifyShutdownSetupCommit libs p answer fault s).2 := by
  rcases verifyShutdownSetupCommit_cases libs p answer fault s with
    ⟨-, hcode, hstate⟩ | ⟨-, hrefused | ⟨index, m, -, hposition, -, hcode, hstate⟩⟩
  · rw [hcode, hstate]
    exact .done (by simp) .none
  · generalize verifyShutdownSetupCommit libs p answer fault s = ended at hrefused ⊢
    obtain ⟨response, s'⟩ := ended
    -- a refused commit answers an error, or the setup that another request has left
    rcases Nat.lt_or_ge response.code 400 with hcode | hcode
    · cases hrefused with
      | unchanged => exact .done hcode .none
      | notSaved hfault machines => exact .done hcode .none
    · cases hrefused with
      | unchanged => exact .failed hcode rfl rfl rfl
      | notSaved hfault machines => exact .failed hcode rfl rfl rfl
  · rw [hcode, hstate]
    exact .done (by simp) (.of_position hposition _)

/-! ## The requests -/

theorem respond_answered (libs : Externals) (s : Proxy) (e : ProxyEvent) {r : Response}
    (hr : respond libs s e = some r) :
    ∃ mac, addressed s e = some mac ∧ Answered mac s r.code (step libs s e) := by
  cases e with
  | add payload random fault now =>
    cases hr
    exact ⟨_, rfl, addMachineApi_answered libs payload random fault now s⟩
  | update mac payload random fault now =>
    cases hr
    exact ⟨_, rfl, updateMachineApi_answered libs mac payload random fault now s⟩
  | delete payload fault =>
    cases hr
    exact ⟨_, rfl, deleteMachineApi_answered libs payload fault s⟩
  | rotate mac random fault =>
    cases hr
    exact ⟨_, rfl, rotateShutdownKey_answered libs mac random fault s⟩
  | verifyRead mac =>
    obtain ⟨hmachines, hlimiter, hproxies⟩ := verifyShutdownSetupRead_stores mac s
    refine ⟨mac, rfl, ?_⟩
    rcases Nat.lt_or_ge r.code 400 with hcode | hcode
    · refine .done hcode ?_
      show RecordChange mac s.machines (verifyShutdownSetupRead mac s).2.machines
      rw [hmachines]
      exact .none
    · exact .failed hcode hmachines hlimiter hproxies
  | verifyCommit i answer fault =>
    obtain ⟨p, hp, rfl⟩ := Option.map_eq_some_iff.mp hr
    refine ⟨p.mac, ?_, ?_⟩
    · show s.verifications[i]?.map _ = _
      rw [hp]
      rfl
    have hcommit := verifyShutdownSetupCommit_answered libs p answer fault
      { s with verifications := s.verifications.eraseIdx i }
    rw [step, finishVerification, hp]
    cases hcommit with
    | failed hcode hmachines hlimiter hproxies => exact .failed hcode hmachines hlimiter hproxies
    | done hcode hchange => exact .done hcode hchange
  | connection | tick | insertSender | bindListener | observeStop => cases hr

/-- **Requests that fail change nothing.**  When a handler answers with an error status, the
registry, the timers and the `proxies` map are what they were before its critical section; when
it answers otherwise, only the record of the addressed machine differs. -/
theorem failed_requests_change_nothing (libs : Externals) (s : Proxy) (e : ProxyEvent)
    (r : Response) (hr : respond libs s e = some r) :
    (400 ≤ r.code → (step libs s e).machines = s.machines ∧
        (step libs s e).turnOffLimiter = s.turnOffLimiter ∧
        (step libs s e).proxies = s.proxies) ∧
      (r.code < 400 → ∃ mac, addressed s e = some mac ∧
        RecordChange mac s.machines (step libs s e).machines) := by
  obtain ⟨mac, hmac, hanswered⟩ := respond_answered libs s e hr
  cases hanswered with
  | failed hcode hmachines hlimiter hproxies =>
    exact ⟨fun _ => ⟨hmachines, hlimiter, hproxies⟩, fun h => by omega⟩
  | done hcode hchange => exact ⟨fun h => by omega, fun _ => ⟨mac, hmac, hchange⟩⟩

/-- A rotation whose save fails while it writes, and one that goes through. -/
theorem workstation_rotation_atomic :
    let s := startMachines [workstation] none fun _ => 0
    (step libraries s (.rotate workstation.mac sampleBytes (.writeAll 7))).machines =
        s.machines ∧
      RecordChange workstation.mac s.machines
        (step libraries s (.rotate workstation.mac sampleBytes .noFault)).machines := by
  intro s
  obtain ⟨hfailed, -⟩ := failed_requests_change_nothing libraries s
    (.rotate workstation.mac sampleBytes (.writeAll 7)) _ rfl
  obtain ⟨-, hdone⟩ := failed_requests_change_nothing libraries s
    (.rotate workstation.mac sampleBytes .noFault) _ rfl
  refine ⟨(hfailed (by decide +kernel)).1, ?_⟩
  obtain ⟨mac, hmac, hchange⟩ := hdone (by decide +kernel)
  cases hmac
  exact hchange

end Wakezilla
