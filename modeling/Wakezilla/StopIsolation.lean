/-
# Stopping one machine never touches another

A forwarder is found again by its text key `mac-local-target`: an update stops the keys
that start with the MAC, a delete those that start with the MAC and a hyphen, and a
hyphen is a legal separator inside a MAC.

Every MAC in the keys matched the grammar when its forwarder was spawned, and MACs of
the grammar have one length; so either test selects the keys of the machine itself
(`startsWith_proxyKey_iff`), and an edit stops no other forwarder (`stop_isolation`).
-/
import Wakezilla.LiveForwarders
import Wakezilla.RequestAtomicity

namespace Wakezilla

/-! ## Keys -/

/-- `service_key` of `src/access_log.rs`: `format!("{mac}-{local_port}")`. -/
def serviceKey (mac : String) (localPort : UInt16) : String :=
  mac ++ "-" ++ localPort.toNat.repr

/-- History keys of MACs of one length are different when one of their parts is. -/
theorem serviceKey_inj {mac mac' : String} {localPort localPort' : UInt16}
    (hlength : mac.toList.length = mac'.toList.length)
    (h : serviceKey mac localPort = serviceKey mac' localPort') :
    mac = mac' ∧ localPort = localPort' := by
  have hlist := congrArg String.toList h
  simp only [serviceKey, String.toList_append, List.append_assoc] at hlist
  obtain ⟨hmac, hrest⟩ := List.append_inj hlist hlength
  exact ⟨String.toList_inj.mp hmac, port_eq_of_repr (List.append_cancel_left hrest)⟩

/-- The proxy keys of a MAC. -/
def OwnKey (mac key : String) : Prop :=
  ∃ localPort targetPort, key = proxyKey mac localPort targetPort

/-- **Both tests select a machine's own keys** among the keys of the MACs of the grammar. -/
theorem startsWith_proxyKey_iff {mac mac' : String} (hmac : validateMac mac = true)
    (hmac' : validateMac mac' = true) (localPort targetPort : UInt16) :
    (startsWith (proxyKey mac' localPort targetPort) mac = true ↔ mac' = mac) ∧
      (startsWith (proxyKey mac' localPort targetPort) (mac ++ "-") = true ↔ mac' = mac) := by
  have hown : mac' = mac →
      startsWith (proxyKey mac' localPort targetPort) (mac ++ "-") = true := by
    rintro rfl
    exact startsWith_proxyKey mac' localPort targetPort
  have hgrammar : startsWith (proxyKey mac' localPort targetPort) mac = true → mac' = mac :=
    mac_eq_of_startsWith hmac' hmac
  constructor
  · exact ⟨hgrammar, fun h => startsWith_of_append (hown h)⟩
  · exact ⟨fun h => hgrammar (startsWith_of_append h), hown⟩

/-! ## The MACs of the tasks -/

theorem map_mac_cancelTasks (ids : ℕ → Bool) (tasks : List ForwarderTask) :
    (cancelTasks ids tasks).map ForwarderTask.mac = tasks.map ForwarderTask.mac := by
  apply List.ext_getElem?
  intro i
  rw [List.getElem?_map, getElem?_cancelTasks, List.getElem?_map, Option.map_map]
  congr 1
  funext t
  simp only [Function.comp]
  split <;> rfl

/-- A change of tasks that keeps the MAC of each. -/
theorem map_mac_modify (tasks : List ForwarderTask) (i : ℕ) (f : ForwarderTask → TaskPhase) :
    (tasks.modify i fun t => { t with phase := f t }).map ForwarderTask.mac =
      tasks.map ForwarderTask.mac := by
  apply List.ext_getElem?
  intro j
  rw [List.getElem?_map, List.getElem?_modify, List.getElem?_map, Option.map_eq_map,
    Option.map_map]
  congr 1
  funext t
  simp only [Function.comp]
  split <;> rfl

/-- The steps of the tasks keep their MACs. -/
theorem ForwarderStep.map_mac {s s' : Proxy} {e : ProxyEvent} (h : ForwarderStep s e s') :
    s'.tasks.map ForwarderTask.mac = s.tasks.map ForwarderTask.mac := by
  cases h with
  | @insertSender i =>
    unfold Wakezilla.insertSender
    split
    · split
      · show (List.modify _ _ _).map ForwarderTask.mac = _
        rw [map_mac_modify _ _ fun _ => .inserted, map_mac_cancelTasks]
      · rfl
    · rfl
  | @bindListener i =>
    unfold Wakezilla.bindListener
    split
    · split
      · exact map_mac_modify _ _ _
      · rfl
    · rfl
  | @observeStop i =>
    unfold Wakezilla.observeStop
    split
    · split
      · exact map_mac_modify _ _ fun _ => .terminated
      · rfl
    · rfl

/-- **One step** spawns tasks for accepted machines only. -/
theorem forall_tasks_step {P : String → Prop}
    (hvalid : ∀ m others, ValidMachine m others → P m.mac) (libs : Externals) (s : Proxy)
    (e : ProxyEvent) (h : ∀ mac ∈ s.tasks.map ForwarderTask.mac, P mac) :
    ∀ mac ∈ (step libs s e).tasks.map ForwarderTask.mac, P mac := by
  have hspawned : ∀ (tasks : List ForwarderTask) (new : Machine) (others : List Machine),
      ValidMachine new others → tasks.map ForwarderTask.mac = s.tasks.map ForwarderTask.mac →
      ∀ mac ∈ (tasks ++ new.portForwards.map (spawnForwarder new)).map ForwarderTask.mac,
        P mac := by
    intro tasks new others hnew htasks mac hmac
    rw [List.map_append, htasks, List.mem_append, List.map_map] at hmac
    rcases hmac with hmac | hmac
    · exact h mac hmac
    · obtain ⟨pf, -, rfl⟩ := List.mem_map.mp hmac
      exact hvalid new others hnew
  have heffect := step_effect libs s e
  generalize step libs s e = s' at heffect
  cases heffect with
  | idle machines limiter proxies tasks clients database notDeleted =>
    rw [tasks]
    exact h
  | add new valid verified key => exact hspawned s.tasks new _ valid rfl
  | update index old base new position new_eq valid =>
    rw [startProxy_tasks]
    exact hspawned _ new _ valid (map_mac_cancelTasks _ _)
  | delete limiter removed =>
    show ∀ mac ∈ (cancelTasks _ s.tasks).map ForwarderTask.mac, P mac
    rw [map_mac_cancelTasks]
    exact h
  | rotate | verify | connection | tick => exact h
  | forwarder taskStep frame =>
    rw [taskStep.map_mac]
    exact h

/-- The start-up loop spawns tasks for registered machines only. -/
theorem forall_tasks_startMachines {P : String → Prop} {machines : List Machine}
    (h : ∀ m ∈ machines, P m.mac) (database : Database) (clock : ℕ → Instant) :
    ∀ mac ∈ (startMachines machines database clock).tasks.map ForwarderTask.mac, P mac := by
  intro mac hmac
  rw [startMachines_tasks] at hmac
  obtain ⟨t, ht, rfl⟩ := List.mem_map.mp hmac
  obtain ⟨m, hm, ht⟩ := List.mem_flatMap.mp ht
  obtain ⟨pf, -, rfl⟩ := List.mem_map.mp ht
  exact h m hm

/-! ## The invariant -/

/-- The MACs of the registry match the grammar and are pairwise different, those of the tasks
match it too, and each sender is under the key of its task. -/
structure KeysApart (s : Proxy) : Prop where
  machines : ∀ m ∈ s.machines, validateMac m.mac = true
  distinct : (s.machines.map Machine.mac).Nodup
  tasks : ∀ mac ∈ s.tasks.map ForwarderTask.mac, validateMac mac = true
  owned : SendersOwned s

theorem keysApart_step (libs : Externals) (s : Proxy) (e : ProxyEvent) (h : KeysApart s) :
    KeysApart (step libs s e) where
  machines := forall_machines_step (P := fun m => validateMac m.mac = true)
    (fun _ _ hvalid => hvalid.mac) (fun _ _ _ h => h) libs s e h.machines
  distinct := distinct_step libs s e h.distinct
  tasks := forall_tasks_step (fun _ _ hvalid => hvalid.mac) libs s e h.tasks
  owned := sendersOwned_step libs s e h.owned

theorem keysApart_startMachines {machines : List Machine} (database : Database)
    (clock : ℕ → Instant) (hgrammar : ∀ m ∈ machines, validateMac m.mac = true)
    (hdistinct : (machines.map Machine.mac).Nodup) :
    KeysApart (startMachines machines database clock) := by
  obtain ⟨hmachines, -⟩ := startMachines_fields machines database clock
  refine ⟨?_, ?_, forall_tasks_startMachines hgrammar database clock,
    sendersOwned_startMachines machines database clock⟩
  · rw [hmachines]
    exact hgrammar
  · rw [hmachines]
    exact hdistinct

/-- A key of the map is the key of a task whose MAC matches the grammar. -/
theorem KeysApart.owner {s : Proxy} (h : KeysApart s) {key : String} {i : ℕ}
    (hkey : s.proxies.lookup key = some i) :
    ∃ t, s.tasks[i]? = some t ∧ t.key = key ∧ validateMac t.mac = true := by
  obtain ⟨t, hget, htkey, -⟩ := h.owned.owner key i hkey
  exact ⟨t, hget, htkey, h.tasks _ (List.mem_map_of_mem (List.mem_of_getElem? hget))⟩

theorem ownKey_key_iff {t : ForwarderTask} {mac : String} (ht : validateMac t.mac = true)
    (hmac : validateMac mac = true) : OwnKey mac t.key ↔ t.mac = mac := by
  constructor
  · rintro ⟨localPort, targetPort, heq⟩
    have hlength := (length_of_validateMac ht).trans (length_of_validateMac hmac).symm
    exact (proxyKey_inj hlength heq).1
  · rintro rfl
    exact ⟨t.localPort, t.targetPort, rfl⟩

/-- The two tests on the keys of the map. -/
theorem KeysApart.selected_iff {s : Proxy} (h : KeysApart s) {mac key : String} {i : ℕ}
    (hmac : validateMac mac = true) (hkey : s.proxies.lookup key = some i) :
    (startsWith key mac = true ↔ OwnKey mac key) ∧
      (startsWith key (mac ++ "-") = true ↔ OwnKey mac key) := by
  obtain ⟨t, -, rfl, htmac⟩ := h.owner hkey
  rw [ownKey_key_iff htmac hmac]
  exact startsWith_proxyKey_iff hmac htmac t.localPort t.targetPort

/-! ## Edits -/

/-- The updates and deletes of the machine with this MAC. -/
inductive Edits (mac : String) : ProxyEvent → Prop
  | update (payload : Api.MachinePayload) (random : Vector UInt8 32) (fault : SaveFault)
      (now : Instant) : Edits mac (.update mac payload random fault now)
  | delete (fault : SaveFault) : Edits mac (.delete ⟨mac⟩ fault)

/-- The senders of a MAC are told to stop and taken out of the map; the rest of the map and the
other tasks are as they were. -/
structure StopsOwn (mac : String) (s s' : Proxy) : Prop where
  removed : ∀ key, OwnKey mac key → s'.proxies.lookup key = none
  kept : ∀ key, ¬ OwnKey mac key → s'.proxies.lookup key = s.proxies.lookup key
  tasks : ∀ (i : ℕ) t, s.tasks[i]? = some t → s'.tasks[i]? = some
    { t with cancelled := t.cancelled || (t.mac = mac && s.proxies.lookup t.key = some i) }

/-- A stop by either of the two tests. -/
theorem KeysApart.stopProxies {s : Proxy} (h : KeysApart s) {mac : String}
    (hmac : validateMac mac = true) {p : String → Bool}
    (hown : ∀ key, OwnKey mac key → p key = true)
    (hselected : ∀ key i, s.proxies.lookup key = some i → p key = true → OwnKey mac key) :
    StopsOwn mac s (stopProxies p s) := by
  constructor
  · intro key hkey
    rw [lookup_stopProxies, hown key hkey]
    cases s.proxies.lookup key <;> rfl
  · intro key hkey
    rw [lookup_stopProxies]
    cases hlookup : s.proxies.lookup key with
    | none => rfl
    | some i =>
      have hnot : p key = false := by
        rw [← Bool.not_eq_true]
        exact fun hp => hkey (hselected key i hlookup hp)
      rw [hnot]
      rfl
  · intro i t hget
    have htmac := h.tasks _ (List.mem_map_of_mem (List.mem_of_getElem? hget))
    -- a task is stopped exactly when its own sender is in the map under a key of the MAC
    have hstopped : (s.proxies.entries.any fun e => p e.1 && e.2 = i) =
        (t.mac = mac && s.proxies.lookup t.key = some i) := by
      rw [Bool.eq_iff_iff, List.any_eq_true]
      simp only [Bool.and_eq_true, decide_eq_true_eq]
      constructor
      · rintro ⟨⟨key, j⟩, hmem, hp, hj⟩
        subst hj
        have hkey := Dict.lookup_eq_some_iff.mpr hmem
        obtain ⟨t', hget', rfl, -⟩ := h.owner hkey
        rw [hget] at hget'
        cases hget'
        exact ⟨(ownKey_key_iff htmac hmac).mp (hselected _ _ hkey hp), hkey⟩
      · rintro ⟨htask, hkey⟩
        exact ⟨⟨t.key, i⟩, Dict.lookup_eq_some_iff.mp hkey,
          hown _ ((ownKey_key_iff htmac hmac).mpr htask), rfl⟩
    show (cancelTasks _ s.tasks)[i]? = _
    rw [getElem?_cancelTasks, hget, Option.map_some, hstopped]
    cases (t.mac = mac && s.proxies.lookup t.key = some i : Bool) <;> simp

/-- A request that is refused leaves the senders and the tasks alone. -/
theorem Rejected.tasks {libs : Externals} {fault : SaveFault} {s : Proxy}
    {answer : Response × Proxy} (h : Rejected libs fault s answer) :
    answer.2.proxies = s.proxies ∧ answer.2.tasks = s.tasks := by
  obtain ⟨r, s'⟩ := answer
  obtain ⟨-, hrefused⟩ := h
  cases hrefused with
  | unchanged => exact ⟨rfl, rfl⟩
  | notSaved hfault machines => exact ⟨rfl, rfl⟩

/-- **An edit** of a machine stops its own senders when it is answered without an error, and
none otherwise. -/
theorem KeysApart.edit {s : Proxy} (h : KeysApart s) (libs : Externals) {m : Machine}
    (hm : m ∈ s.machines) {e : ProxyEvent} (he : Edits m.mac e) :
    ∃ r, respond libs s e = some r ∧
      (400 ≤ r.code → (step libs s e).proxies = s.proxies ∧ (step libs s e).tasks = s.tasks) ∧
      (r.code < 400 → StopsOwn m.mac s (step libs s e)) := by
  have hmac := h.machines m hm
  have hown : ∀ key, OwnKey m.mac key → startsWith key (m.mac ++ "-") = true := by
    rintro _ ⟨localPort, targetPort, rfl⟩
    exact startsWith_proxyKey m.mac localPort targetPort
  cases he with
  | update payload random fault now =>
    refine ⟨_, rfl, ?_⟩
    rw [step]
    rcases updateMachineApi_cases libs m.mac payload random fault now s with
      hrejected | ⟨index, old, base, -, -, -, hanswer⟩
    · exact ⟨fun _ => hrejected.tasks, fun hcode => absurd hcode hrejected.1.not_gt⟩
    · rw [hanswer]
      refine ⟨fun hcode => absurd hcode (by simp), fun _ => ?_⟩
      have hstop := h.stopProxies hmac (p := fun key => startsWith key m.mac)
        (fun key hkey => startsWith_of_append (hown key hkey))
        (fun key i hkey => (h.selected_iff hmac hkey).1.mp)
      refine ⟨hstop.removed, hstop.kept, fun i t hget => ?_⟩
      -- the tasks of the new record come after the old ones
      have hold := hstop.tasks i t hget
      obtain ⟨hi, -⟩ := List.getElem?_eq_some_iff.mp hold
      rw [startProxy_tasks]
      exact (List.getElem?_append_left hi).trans hold
  | delete fault =>
    refine ⟨_, rfl, ?_⟩
    rw [step]
    rcases deleteMachineApi_cases libs ⟨m.mac⟩ fault s with
      ⟨-, hrejected⟩ | ⟨limiter, -, -, hanswer⟩
    · exact ⟨fun _ => hrejected.tasks, fun hcode => absurd hcode hrejected.1.not_gt⟩
    · rw [hanswer]
      refine ⟨fun hcode => absurd hcode (by simp), fun _ => ?_⟩
      have hstop := h.stopProxies hmac (p := fun key => startsWith key (m.mac ++ "-")) hown
        (fun key i hkey => (h.selected_iff hmac hkey).2.mp)
      exact ⟨hstop.removed, hstop.kept, hstop.tasks⟩

/-! ## Runs -/

/-- **Stopping one machine never touches another.**  In every state of a run from a registry
whose MACs match the grammar and are pairwise different: keys of registered machines are equal
only when their parts are; either test selects, among the keys that can be formed for registered
machines and among those of the map, exactly the keys of the machine; and an update or a delete
of a machine stops and removes its own senders, or none when it is answered with an error. -/
theorem stop_isolation (libs : Externals) (machines : List Machine) (database : Database)
    (clock : ℕ → Instant) (es : List ProxyEvent)
    (hgrammar : ∀ m ∈ machines, validateMac m.mac = true)
    (hdistinct : (machines.map Machine.mac).Nodup) :
    let s := Run.exec (step libs) (startMachines machines database clock) es
    (∀ m ∈ s.machines, ∀ m' ∈ s.machines, ∀ localPort localPort' targetPort targetPort',
        (proxyKey m.mac localPort targetPort = proxyKey m'.mac localPort' targetPort' →
          m = m' ∧ localPort = localPort' ∧ targetPort = targetPort') ∧
        (serviceKey m.mac localPort = serviceKey m'.mac localPort' →
          m = m' ∧ localPort = localPort')) ∧
      (∀ m ∈ s.machines, ∀ m' ∈ s.machines, ∀ localPort targetPort,
        (startsWith (proxyKey m'.mac localPort targetPort) m.mac = true ↔ m' = m) ∧
        (startsWith (proxyKey m'.mac localPort targetPort) (m.mac ++ "-") = true ↔ m' = m)) ∧
      (∀ m ∈ s.machines, ∀ key i, s.proxies.lookup key = some i →
        (startsWith key m.mac = true ↔ OwnKey m.mac key) ∧
        (startsWith key (m.mac ++ "-") = true ↔ OwnKey m.mac key)) ∧
      ∀ m ∈ s.machines, ∀ e, Edits m.mac e → ∃ r, respond libs s e = some r ∧
        (400 ≤ r.code →
          (step libs s e).proxies = s.proxies ∧ (step libs s e).tasks = s.tasks) ∧
        (r.code < 400 → StopsOwn m.mac s (step libs s e)) := by
  intro s
  have h : KeysApart s := Run.exec_invariant_of_forall es
    (keysApart_startMachines database clock hgrammar hdistinct) (keysApart_step libs)
  have hsame : ∀ m ∈ s.machines, ∀ m' ∈ s.machines, m.mac = m'.mac → m = m' :=
    fun m hm m' hm' => List.inj_on_of_nodup_map h.distinct hm hm'
  have hlength : ∀ m ∈ s.machines, ∀ m' ∈ s.machines,
      m.mac.toList.length = m'.mac.toList.length := fun m hm m' hm' =>
    (length_of_validateMac (h.machines m hm)).trans
      (length_of_validateMac (h.machines m' hm')).symm
  refine ⟨?_, ?_, fun m hm key i hkey => h.selected_iff (h.machines m hm) hkey,
    fun m hm e he => h.edit libs hm he⟩
  · intro m hm m' hm' localPort localPort' targetPort targetPort'
    constructor
    · intro heq
      obtain ⟨hmac, hports⟩ := proxyKey_inj (hlength m hm m' hm') heq
      exact ⟨hsame m hm m' hm' hmac, hports⟩
    · intro heq
      obtain ⟨hmac, hport⟩ := serviceKey_inj (hlength m hm m' hm') heq
      exact ⟨hsame m hm m' hm' hmac, hport⟩
  · intro m hm m' hm' localPort targetPort
    have hmacIff : m'.mac = m.mac ↔ m' = m :=
      ⟨hsame m' hm' m hm, fun heq => congrArg Machine.mac heq⟩
    rw [← hmacIff]
    exact startsWith_proxyKey_iff (h.machines m hm) (h.machines m' hm') localPort targetPort

/-- Two machines that differ in the last digit and the separators of their MACs; the first one
is deleted while the forwarders of both are known. -/
theorem workstation_stop_isolation :
    let neighbour := { workstation with mac := "AA-BB-CC-DD-EE-02" }
    let s := Run.exec (step libraries) (startMachines [workstation, neighbour] none fun _ => 0)
      [.insertSender 0, .insertSender 1]
    s.proxies.entries.length = 2 ∧
      StopsOwn workstation.mac s (step libraries s (.delete ⟨workstation.mac⟩ .noFault)) := by
  intro neighbour s
  obtain ⟨-, -, -, hedit⟩ := stop_isolation libraries [workstation, neighbour] none
    (fun _ => 0) [.insertSender 0, .insertSender 1] (by decide) (by decide)
  obtain ⟨r, hr, -, hdone⟩ := hedit workstation (by decide +kernel) _ (.delete .noFault)
  cases hr
  exact ⟨by decide +kernel, hdone (by decide +kernel)⟩

end Wakezilla
