/-
# No stray forwarders

A forwarder task inserts its own sender into the `proxies` map, some time after the
handler that spawned it has returned; an update or a delete stops the tasks whose
senders it finds in the map.  A task that has not inserted its sender yet is missed,
and keeps serving a machine that is gone (`missed_forwarder_listens`).

When every edit of a MAC finds the senders of all its tasks (`EditsInserted`), each
task that was not told to stop serves the current registry (`NoStray.backed`), so in a
quiescent state every listening forwarder does (`no_stray_forwarder`).
-/
import Wakezilla.Registry

namespace Wakezilla

/-- The service that a task forwards. -/
def ForwarderTask.service (t : ForwarderTask) : Service :=
  ⟨t.mac, t.remoteIp, t.localPort, t.targetPort⟩

/-- Nothing is left to happen: no task is before its bind, and every task that was told to
stop has terminated. -/
def Quiescent (s : Proxy) : Prop :=
  ∀ t ∈ s.tasks, t.phase ≠ .spawned ∧ t.phase ≠ .inserted ∧
    (t.cancelled = true → t.phase = .terminated)

instance : DecidablePred Quiescent := fun s =>
  inferInstanceAs (Decidable (∀ t ∈ s.tasks, t.phase ≠ .spawned ∧ t.phase ≠ .inserted ∧
    (t.cancelled = true → t.phase = .terminated)))

/-! ## Stopping tasks -/

theorem getElem?_cancelTasks (ids : ℕ → Bool) (tasks : List ForwarderTask) (i : ℕ) :
    (cancelTasks ids tasks)[i]? =
      tasks[i]?.map fun t => if ids i then { t with cancelled := true } else t :=
  List.getElem?_mapIdx

/-- A task that is not told to stop is unchanged. -/
theorem of_getElem?_cancelTasks {ids : ℕ → Bool} {tasks : List ForwarderTask} {i : ℕ}
    {t : ForwarderTask} (h : (cancelTasks ids tasks)[i]? = some t) (hlive : t.cancelled = false) :
    tasks[i]? = some t ∧ ids i = false := by
  rw [getElem?_cancelTasks, Option.map_eq_some_iff] at h
  obtain ⟨t', hget, ht⟩ := h
  split at ht
  · rw [← ht] at hlive
    cases hlive
  · rename_i hids
    rw [← ht]
    exact ⟨hget, by simpa using hids⟩

/-- A task that survives a stop: none of its senders was selected. -/
theorem of_getElem?_stopProxies {p : String → Bool} {s : Proxy} {i : ℕ} {t : ForwarderTask}
    (h : (stopProxies p s).tasks[i]? = some t) (hlive : t.cancelled = false) :
    s.tasks[i]? = some t ∧ ∀ key, s.proxies.lookup key = some i → p key = false := by
  obtain ⟨hget, hids⟩ := of_getElem?_cancelTasks h hlive
  refine ⟨hget, fun key hkey => ?_⟩
  rw [List.any_eq_false] at hids
  simpa using hids _ (Dict.lookup_eq_some_iff.mp hkey)

/-- A task whose senders are not selected survives a stop. -/
theorem getElem?_stopProxies_of_not {p : String → Bool} {s : Proxy} {i : ℕ} {t : ForwarderTask}
    (h : s.tasks[i]? = some t)
    (hkeys : ∀ key, s.proxies.lookup key = some i → p key = false) :
    (stopProxies p s).tasks[i]? = some t := by
  have hids : (s.proxies.entries.any fun e => p e.1 && e.2 = i) = false := by
    rw [List.any_eq_false]
    rintro ⟨key, j⟩ hmem
    by_cases hj : j = i
    · subst hj
      simp [hkeys key (Dict.lookup_eq_some_iff.mpr hmem)]
    · simp [hj]
  rw [stopProxies, getElem?_cancelTasks, h, Option.map_some, hids]
  rfl

theorem insertSender_eq {s : Proxy} {i : ℕ} {task : ForwarderTask} (hi : s.tasks[i]? = some task)
    (hphase : task.phase = .spawned) :
    insertSender i s =
      { s with
        proxies := s.proxies.insert task.key i
        tasks := (cancelTasks (fun j => s.proxies.lookup task.key = some j) s.tasks).modify i
          fun t => { t with phase := .inserted } } := by
  rw [insertSender, hi]
  exact if_pos hphase

/-- What the insertion of the sender of task `i` does to each task: `i` comes to its next phase,
and the task whose sender is replaced is told to stop. -/
theorem getElem?_insertSender {s : Proxy} {i : ℕ} {task : ForwarderTask}
    (hi : s.tasks[i]? = some task) (hphase : task.phase = .spawned) (j : ℕ) :
    (insertSender i s).tasks[j]? = s.tasks[j]?.map fun t =>
      { t with
        phase := if i = j then .inserted else t.phase
        cancelled := t.cancelled || s.proxies.lookup task.key = some j } := by
  rw [insertSender_eq hi hphase, List.getElem?_modify, getElem?_cancelTasks]
  cases s.tasks[j]? with
  | none => rfl
  | some t =>
    by_cases hij : i = j <;> by_cases hkey : s.proxies.lookup task.key = some j <;>
      simp [hij, hkey]

/-- An insertion by a task that is not at its first step does nothing. -/
theorem insertSender_of_ne {s : Proxy} {i : ℕ}
    (h : ∀ task, s.tasks[i]? = some task → task.phase ≠ .spawned) : insertSender i s = s := by
  unfold insertSender
  split
  · rename_i task hi
    exact if_neg (h task hi)
  · rfl

theorem lookup_stopProxies (p : String → Bool) (s : Proxy) (key : String) :
    (stopProxies p s).proxies.lookup key =
      (s.proxies.lookup key).filter fun _ => !p key :=
  Dict.lookup_retain _ _ _

/-- A proxy key starts with its MAC and a hyphen. -/
theorem startsWith_proxyKey (mac : String) (localPort targetPort : UInt16) :
    startsWith (proxyKey mac localPort targetPort) (mac ++ "-") = true := by
  rw [startsWith, List.isPrefixOf_iff_prefix, proxyKey]
  simp only [String.toList_append, List.append_assoc]
  rw [← List.append_assoc]
  exact List.prefix_append _ _

theorem startsWith_key (t : ForwarderTask) : startsWith t.key (t.mac ++ "-") = true :=
  startsWith_proxyKey t.mac t.localPort t.targetPort

theorem startsWith_of_append {s p q : String} (h : startsWith s (p ++ q) = true) :
    startsWith s p = true := by
  rw [startsWith, List.isPrefixOf_iff_prefix] at h ⊢
  rw [String.toList_append] at h
  exact (List.prefix_append _ _).trans h

/-! ## The invariant -/

/-- Every task that was not told to stop serves the registry, and can be told to stop once it
has inserted its sender. -/
structure NoStray (s : Proxy) : Prop where
  backed : ∀ (i : ℕ) t, s.tasks[i]? = some t → t.cancelled = false →
    t.service ∈ services s.machines
  registered : ∀ (i : ℕ) t, s.tasks[i]? = some t → t.cancelled = false → t.phase ≠ .spawned →
    s.proxies.lookup t.key = some i

/-- An update of a registered machine that the validator accepts. -/
def UpdateAccepted (s : Proxy) (mac : String) (payload : Api.MachinePayload) : Prop :=
  ∃ index old, position mac s.machines = some (index, old) ∧
    validateMachineConfig (payload.toMachine old.machineType) s.machines (some mac) = .ok ()

/-- Any other update is refused and changes nothing. -/
theorem step_of_not_accepted (libs : Externals) {s : Proxy} {mac : String}
    {payload : Api.MachinePayload} (h : ¬ UpdateAccepted s mac payload)
    (random : Vector UInt8 32) (fault : SaveFault) (now : Instant) :
    step libs s (.update mac payload random fault now) = s := by
  rw [step, updateMachineApi]
  cases hposition : position mac s.machines with
  | none => rfl
  | some found =>
    obtain ⟨index, old⟩ := found
    cases hvalid : validateMachineConfig (payload.toMachine old.machineType) s.machines
        (some mac) with
    | error errors => simp only [hvalid]
    | ok value => exact absurd ⟨index, old, hposition, hvalid⟩ h

/-- An edit that goes through finds every task of its MAC past the insertion of its sender. -/
def EditsInserted (s : Proxy) : ProxyEvent → Prop
  | .update mac payload _ fault _ => fault = .noFault → UpdateAccepted s mac payload →
      ∀ t ∈ s.tasks, t.mac = mac → t.phase ≠ .spawned
  | .delete payload fault =>
    fault = .noFault → ∀ t ∈ s.tasks, t.mac = payload.mac → t.phase ≠ .spawned
  | _ => True

theorem service_spawnForwarder_mem {m : Machine} {t : ForwarderTask}
    (h : t ∈ m.portForwards.map (spawnForwarder m)) :
    t.service ∈ m.services ∧ t.phase = .spawned ∧ t.cancelled = false := by
  obtain ⟨pf, hpf, rfl⟩ := List.mem_map.mp h
  exact ⟨List.mem_map_of_mem hpf, rfl, rfl⟩

/-- A task of a longer list is an old one or a new one. -/
theorem getElem?_append_cases {tasks new : List ForwarderTask} {i : ℕ} {t : ForwarderTask}
    (h : (tasks ++ new)[i]? = some t) : tasks[i]? = some t ∨ t ∈ new := by
  rw [List.getElem?_append] at h
  split at h
  · exact Or.inl h
  · exact Or.inr (List.mem_of_getElem? h)

/-- Starting the forwarders of a registered machine. -/
theorem NoStray.startProxy {s : Proxy} (h : NoStray s) {m : Machine} (hm : m ∈ s.machines)
    (now : Instant) : NoStray (startProxyIfConfigured m now s) := by
  constructor
  · intro i t ht hlive
    rcases getElem?_append_cases ht with ht | ht
    · exact h.backed i t ht hlive
    · exact mem_services.mpr ⟨m, hm, (service_spawnForwarder_mem ht).1⟩
  · intro i t ht hlive hphase
    rcases getElem?_append_cases ht with ht | ht
    · exact h.registered i t ht hlive hphase
    · exact absurd (service_spawnForwarder_mem ht).2.1 hphase

/-- Committing a registry and stopping the senders that `p` selects: every service of a
surviving task has to be in the new registry. -/
theorem NoStray.edit {s : Proxy} (h : NoStray s) (libs : Externals) (p : String → Bool)
    (machines : List Machine) (limiter : TurnOffLimiter)
    (hkeep : ∀ (i : ℕ) t, s.tasks[i]? = some t → t.cancelled = false →
      (∀ key, s.proxies.lookup key = some i → p key = false) → t.service ∈ services machines) :
    NoStray (stopProxies p { s.commit libs machines with turnOffLimiter := limiter }) := by
  constructor
  · intro i t ht hlive
    obtain ⟨hget, hkeys⟩ := of_getElem?_stopProxies ht hlive
    exact hkeep i t hget hlive hkeys
  · intro i t ht hlive hphase
    obtain ⟨hget, hkeys⟩ := of_getElem?_stopProxies ht hlive
    have hlookup := h.registered i t hget hlive hphase
    rw [lookup_stopProxies]
    change (s.proxies.lookup t.key).filter _ = _
    rw [hlookup, Option.filter_some, hkeys t.key hlookup]
    rfl

/-- A task that survives an edit of the MAC `mac`, with its sender inserted, has another MAC,
so its service is one of a machine with another MAC. -/
theorem NoStray.machine_of_survives {s : Proxy} (h : NoStray s) {mac : String}
    {p : String → Bool} (hp : ∀ key, startsWith key (mac ++ "-") = true → p key = true)
    (hinserted : ∀ t ∈ s.tasks, t.mac = mac → t.phase ≠ .spawned) {i : ℕ} {t : ForwarderTask}
    (hget : s.tasks[i]? = some t) (hlive : t.cancelled = false)
    (hkeys : ∀ key, s.proxies.lookup key = some i → p key = false) :
    ∃ m ∈ s.machines, t.service ∈ m.services ∧ m.mac ≠ mac := by
  obtain ⟨m, hm, hservice⟩ := mem_services.mp (h.backed i t hget hlive)
  refine ⟨m, hm, hservice, fun hmac => ?_⟩
  have htask : t.mac = mac := (mac_of_mem_services hservice).trans hmac
  have hlookup := h.registered i t hget hlive
    (hinserted t (List.mem_of_getElem? hget) htask)
  -- otherwise the edit would have selected its sender
  have hselected := hp t.key (htask ▸ startsWith_key t)
  rw [hkeys t.key hlookup] at hselected
  cases hselected

/-- The first step of a task. -/
theorem NoStray.insertSender {s : Proxy} (h : NoStray s) (i : ℕ) :
    NoStray (insertSender i s) := by
  by_cases hspawned : ∃ task, s.tasks[i]? = some task ∧ task.phase = .spawned
  · obtain ⟨task, hi, hphase⟩ := hspawned
    constructor
    · intro j t ht hlive
      rw [getElem?_insertSender hi hphase, Option.map_eq_some_iff] at ht
      obtain ⟨t', hget, rfl⟩ := ht
      rw [insertSender_eq hi hphase]
      exact h.backed j t' hget (Bool.or_eq_false_iff.mp hlive).1
    · intro j t ht hlive hne
      rw [getElem?_insertSender hi hphase, Option.map_eq_some_iff] at ht
      obtain ⟨t', hget, rfl⟩ := ht
      obtain ⟨hlive', hkept⟩ := Bool.or_eq_false_iff.mp hlive
      rw [insertSender_eq hi hphase, Dict.lookup_insert]
      change (if t'.key = task.key then _ else s.proxies.lookup t'.key) = some j
      -- the map now names `i` under this key; any other task that is still to serve has another key
      by_cases hij : i = j
      · subst hij
        rw [hi] at hget
        cases hget
        rw [if_pos rfl]
      · rw [if_neg hij] at hne
        have hlookup := h.registered j t' hget hlive' hne
        have hkey : t'.key ≠ task.key := by
          intro heq
          rw [heq] at hlookup
          exact of_decide_eq_false hkept hlookup
        rw [if_neg hkey, hlookup]
  · rw [insertSender_of_ne fun task hi hphase => hspawned ⟨task, hi, hphase⟩]
    exact h

/-- A step of a task that changes only its phase, from one past the insertion to another. -/
theorem NoStray.modifyPhase {s : Proxy} (h : NoStray s) {i : ℕ} {task : ForwarderTask}
    (hi : s.tasks[i]? = some task) (hphase : task.phase ≠ .spawned)
    (f : ForwarderTask → TaskPhase) :
    NoStray { s with tasks := s.tasks.modify i fun t => { t with phase := f t } } := by
  have hcases : ∀ (j : ℕ) t,
      (s.tasks.modify i fun t => { t with phase := f t })[j]? = some t →
      ∃ t', s.tasks[j]? = some t' ∧ t'.cancelled = t.cancelled ∧ t'.service = t.service ∧
        t'.key = t.key ∧ (t.phase ≠ .spawned → t'.phase ≠ .spawned) := by
    intro j t ht
    rw [List.getElem?_modify] at ht
    obtain ⟨t', hget, rfl⟩ := Option.map_eq_some_iff.mp ht
    by_cases hij : i = j
    · subst hij
      rw [hi] at hget
      cases hget
      rw [if_pos rfl]
      exact ⟨task, hi, rfl, rfl, rfl, fun _ => hphase⟩
    · rw [if_neg hij]
      exact ⟨t', hget, rfl, rfl, rfl, id⟩
  constructor
  · intro j t ht hlive
    obtain ⟨t', hget, hcancelled, hservice, -⟩ := hcases j t ht
    rw [← hservice]
    exact h.backed j t' hget (hcancelled.trans hlive)
  · intro j t ht hlive hne
    obtain ⟨t', hget, hcancelled, -, hkey, hspawned⟩ := hcases j t ht
    rw [← hkey]
    exact h.registered j t' hget (hcancelled.trans hlive) (hspawned hne)

/-- The steps of the tasks keep the invariant. -/
theorem NoStray.forwarderStep {s s' : Proxy} {e : ProxyEvent} (h : NoStray s)
    (hstep : ForwarderStep s e s') : NoStray s' := by
  cases hstep with
  | @insertSender i => exact h.insertSender i
  | @bindListener i =>
    unfold bindListener
    cases hi : s.tasks[i]? with
    | none => exact h
    | some task =>
      simp only []
      split
      · rename_i hphase
        exact h.modifyPhase hi (by rw [hphase]; decide) _
      · exact h
  | @observeStop i =>
    unfold observeStop
    cases hi : s.tasks[i]? with
    | none => exact h
    | some task =>
      simp only []
      split
      · rename_i hphase
        rw [Bool.and_eq_true, decide_eq_true_eq] at hphase
        exact h.modifyPhase hi (by rw [hphase.1]; decide) _
      · exact h

/-- **One step** whose edits find all senders keeps the invariant. -/
theorem noStray_step (libs : Externals) (s : Proxy) (e : ProxyEvent) (h : NoStray s)
    (hc : EditsInserted s e) : NoStray (step libs s e) := by
  by_cases hrefused : ∃ mac payload random fault now,
      e = .update mac payload random fault now ∧ ¬ UpdateAccepted s mac payload
  · obtain ⟨mac, payload, random, fault, now, rfl, hno⟩ := hrefused
    rw [step_of_not_accepted libs hno]
    exact h
  have heffect := step_effect libs s e
  generalize step libs s e = s' at heffect
  cases heffect with
  | idle machines limiter proxies tasks clients database notDeleted =>
    constructor
    · rw [machines, tasks]
      exact h.backed
    · rw [proxies, tasks]
      exact h.registered
  | add new valid verified key =>
    have hcommit : NoStray (s.commit libs (s.machines ++ [new])) := by
      refine ⟨fun i t ht hlive => ?_, h.registered⟩
      rw [commit_machines, services, List.flatMap_append]
      exact List.mem_append_left _ (h.backed i t ht hlive)
    exact hcommit.startProxy (List.mem_append_right _ (List.mem_singleton_self new)) _
  | @update mac payload random now index old base new hposition new_eq valid =>
    obtain ⟨hget, hmac⟩ := position_eq_some hposition
    obtain ⟨hindex, -⟩ := List.getElem?_eq_some_iff.mp hget
    refine (h.edit libs _ _ _ fun i t ht hlive hkeys => ?_).startProxy
      (List.mem_set hindex new) now
    have haccepted : UpdateAccepted s mac payload := by
      by_contra hno
      exact hrefused ⟨mac, payload, random, .noFault, now, rfl, hno⟩
    -- the keys that start with the MAC include those that start with the MAC and a hyphen
    obtain ⟨m, hm, hservice, hne⟩ := h.machine_of_survives
      (fun _ => startsWith_of_append) (hc rfl haccepted) ht hlive hkeys
    refine mem_services.mpr ⟨m, ?_, hservice⟩
    exact Mirror.mem_set_of_ne hm hget fun heq => hne (heq ▸ hmac)
  | @delete payload limiter removed =>
    refine h.edit libs _ _ _ fun i t ht hlive hkeys => ?_
    obtain ⟨m, hm, hservice, hne⟩ := h.machine_of_survives
      (fun _ => id) (hc rfl) ht hlive hkeys
    exact mem_services.mpr ⟨m, List.mem_filter.mpr ⟨hm, by simpa using hne⟩, hservice⟩
  | @rotate mac random index m hposition enabled =>
    refine ⟨fun i t ht hlive => ?_, h.registered⟩
    rw [commit_machines, services_set_withKey (position_eq_some hposition).1]
    exact h.backed i t ht hlive
  | verify p index m pending answered hposition key =>
    refine ⟨fun i t ht hlive => ?_, h.registered⟩
    rw [commit_machines, services_set_withKey (position_eq_some hposition).1]
    exact h.backed i t ht hlive
  | connection task => exact ⟨h.backed, h.registered⟩
  | tick => exact ⟨h.backed, h.registered⟩
  | forwarder taskStep frame => exact h.forwarderStep taskStep

/-! ## Runs -/

/-- The start-up loop spawns one task for every service, in the order of the registry. -/
theorem startMachines_tasks (machines : List Machine) (database : Database)
    (clock : ℕ → Instant) :
    (startMachines machines database clock).tasks =
      machines.flatMap fun m => m.portForwards.map (spawnForwarder m) := by
  have hloop : ∀ (l : List (Machine × ℕ)) (s : Proxy),
      (l.foldl (fun s m => startProxyIfConfigured m.1 (clock m.2) s) s).tasks =
        s.tasks ++ (l.map Prod.fst).flatMap fun m => m.portForwards.map (spawnForwarder m) := by
    intro l
    induction l with
    | nil => intro s; exact (List.append_nil _).symm
    | cons m l ih =>
      intro s
      rw [List.foldl_cons, ih, startProxy_tasks, List.map_cons, List.flatMap_cons,
        List.append_assoc]
  rw [startMachines, hloop, List.zipIdx_map_fst]
  rfl

theorem noStray_startMachines (machines : List Machine) (database : Database)
    (clock : ℕ → Instant) : NoStray (startMachines machines database clock) := by
  have htasks : ∀ t ∈ (startMachines machines database clock).tasks, ∃ m ∈ machines,
      t.service ∈ m.services ∧ t.phase = .spawned := by
    intro t ht
    rw [startMachines_tasks, List.mem_flatMap] at ht
    obtain ⟨m, hm, ht⟩ := ht
    obtain ⟨hservice, hphase, -⟩ := service_spawnForwarder_mem ht
    exact ⟨m, hm, hservice, hphase⟩
  constructor
  · intro i t ht _
    obtain ⟨m, hm, hservice, -⟩ := htasks t (List.mem_of_getElem? ht)
    rw [(startMachines_fields machines database clock).1]
    exact mem_services.mpr ⟨m, hm, hservice⟩
  · intro i t ht _ hphase
    obtain ⟨-, -, -, hspawned⟩ := htasks t (List.mem_of_getElem? ht)
    exact absurd hspawned hphase

/-- **No stray forwarder.**  In a quiescent state of a run whose edits find the senders of all
tasks of their MAC, every listening forwarder forwards a service of a registered machine with
its MAC and address. -/
theorem no_stray_forwarder (libs : Externals) (machines : List Machine) (database : Database)
    (clock : ℕ → Instant) (es : List ProxyEvent)
    (hrun : Run.Along (step libs) EditsInserted (startMachines machines database clock) es) :
    let s := Run.exec (step libs) (startMachines machines database clock) es
    Quiescent s → ∀ t ∈ s.tasks, t.phase = .listening →
      ∃ m ∈ s.machines, m.mac = t.mac ∧ m.ip = t.remoteIp ∧
        ∃ pf ∈ m.portForwards, pf.localPort = t.localPort ∧ pf.targetPort = t.targetPort := by
  intro s hquiescent t ht hlistening
  have hinv : NoStray s := Run.exec_invariant (noStray_startMachines machines database clock)
    (noStray_step libs) hrun
  -- a listening task was not told to stop: it would have terminated
  have hlive : t.cancelled = false := by
    by_contra hcancelled
    have hterminated := (hquiescent t ht).2.2 (by simpa using hcancelled)
    rw [hlistening] at hterminated
    cases hterminated
  obtain ⟨i, hi⟩ := List.mem_iff_getElem?.mp ht
  obtain ⟨m, hm, hservice⟩ := mem_services.mp (hinv.backed i t hi hlive)
  obtain ⟨pf, hpf, heq⟩ := List.mem_map.mp hservice
  rw [ForwarderTask.service, Service.mk.injEq] at heq
  obtain ⟨hmac, hip, hlocal, htarget⟩ := heq
  exact ⟨m, hm, hmac, hip, pf, hpf, hlocal, htarget⟩

/-- A rename after the forwarder has started: the old task ends, the new one listens. -/
theorem renamed_workstation_no_stray :
    let s := Run.exec (step libraries) (startMachines [workstation] none fun _ => 0)
      [.insertSender 0, .bindListener 0,
        .update workstation.mac { payloadOf workstation with name := "desk" } sampleBytes
          .noFault 0,
        .observeStop 0, .insertSender 1, .bindListener 1]
    Quiescent s ∧ (∃ t ∈ s.tasks, t.phase = .listening) ∧
      ∀ t ∈ s.tasks, t.phase = .listening →
        ∃ m ∈ s.machines, m.mac = t.mac ∧ m.ip = t.remoteIp ∧
          ∃ pf ∈ m.portForwards, pf.localPort = t.localPort ∧ pf.targetPort = t.targetPort := by
  intro s
  have hquiescent : Quiescent s := by decide +kernel
  refine ⟨hquiescent, by decide +kernel, ?_⟩
  refine no_stray_forwarder libraries [workstation] none (fun _ => 0) _ ?_ hquiescent
  exact ⟨trivial, trivial, fun _ _ => by decide +kernel, trivial, trivial, trivial, trivial⟩

/-- **A missed forwarder listens.**  The machine is deleted before its forwarder has inserted
its sender; the forwarder then listens for a machine that is gone. -/
theorem missed_forwarder_listens :
    let s := Run.exec (step libraries) (startMachines [workstation] none fun _ => 0)
      [.delete ⟨workstation.mac⟩ .noFault, .insertSender 0, .bindListener 0]
    Quiescent s ∧ s.machines = [] ∧
      ∃ t ∈ s.tasks, t.phase = .listening ∧ t.mac = workstation.mac := by
  decide +kernel

end Wakezilla
