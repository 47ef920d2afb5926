/-
# No lost forwarder

An update stops the forwarders of a machine and spawns new ones, often for the same
local port, without waiting for the old listeners to close; a bind that comes too
early fails, and the port stays closed (`early_bind_loses_forwarder`).  A delete stops
every sender whose key starts with the MAC of the request and a hyphen, whatever that
MAC is (`DeletesWholeMac`).

From a valid registry, when edits find all senders of their MAC (`EditsInserted`),
no task that is still to serve binds a port on which a stopped one listens
(`BindsClosedPort`), and deletes hit whole MACs, every service keeps a task that is
not told to stop (`Served`); in a quiescent state it listens (`no_lost_forwarder`).
-/
import Wakezilla.Forwarders

namespace Wakezilla

/-! ## Keys of the proxies map -/

/-- The key of a service, as its forwarder inserts it. -/
def Service.key (v : Service) : String := proxyKey v.mac v.localPort v.targetPort

@[simp] theorem key_service (t : ForwarderTask) : t.service.key = t.key := rfl

theorem toList_proxyKey (mac : String) (localPort targetPort : UInt16) :
    (proxyKey mac localPort targetPort).toList =
      mac.toList ++
        '-' :: (localPort.toNat.repr.toList ++ '-' :: targetPort.toNat.repr.toList) := by
  simp only [proxyKey, String.toList_append, List.append_assoc]
  rfl

theorem port_eq_of_repr {p q : UInt16} (h : p.toNat.repr.toList = q.toNat.repr.toList) : p = q :=
  UInt16.toNat_inj.mp (Nat.repr_inj.mp (String.toList_inj.mp h))

/-- Keys of MACs of one length are different when one of their parts is. -/
theorem proxyKey_inj {mac mac' : String} {localPort localPort' targetPort targetPort' : UInt16}
    (hlength : mac.toList.length = mac'.toList.length)
    (h : proxyKey mac localPort targetPort = proxyKey mac' localPort' targetPort') :
    mac = mac' ∧ localPort = localPort' ∧ targetPort = targetPort' := by
  have hlist := congrArg String.toList h
  rw [toList_proxyKey, toList_proxyKey] at hlist
  obtain ⟨hmac, hrest⟩ := List.append_inj hlist hlength
  -- the MACs are cut off by their length, the ports by the hyphen between them
  have hhyphen : ∀ n : ℕ, '-' ∉ n.repr.toList := not_mem_repr (by decide)
  obtain ⟨hlocal, -, htarget⟩ := (List.append_cons_inj_of_notMem (hhyphen _) (hhyphen _)).mp
    (List.cons.inj hrest).2
  exact ⟨String.toList_inj.mp hmac, port_eq_of_repr hlocal, port_eq_of_repr htarget⟩

/-- Among MACs of the grammar, only a machine's own keys start with its MAC. -/
theorem mac_eq_of_startsWith {mac mac' : String} (hmac : validateMac mac = true)
    (hmac' : validateMac mac' = true) {localPort targetPort : UInt16}
    (h : startsWith (proxyKey mac localPort targetPort) mac' = true) : mac = mac' := by
  rw [startsWith, List.isPrefixOf_iff_prefix, toList_proxyKey] at h
  have hlength := (length_of_validateMac hmac').trans (length_of_validateMac hmac).symm
  have hstart := List.prefix_of_prefix_length_le h (List.prefix_append _ _) hlength.le
  exact (String.toList_inj.mp (List.IsPrefix.eq_of_length hstart hlength)).symm

theorem ValidRegistry.validateMac_service {machines : List Machine} (h : ValidRegistry machines)
    {v : Service} (hv : v ∈ services machines) : validateMac v.mac = true := by
  obtain ⟨m, hm, hvm⟩ := mem_services.mp hv
  rw [mac_of_mem_services hvm]
  exact (h.each m hm).mac

/-- In a valid registry a key belongs to one service. -/
theorem ValidRegistry.service_eq_of_key {machines : List Machine} (h : ValidRegistry machines)
    {v w : Service} (hv : v ∈ services machines) (hw : w ∈ services machines)
    (hkey : v.key = w.key) : v = w := by
  have hlength := (length_of_validateMac (h.validateMac_service hv)).trans
    (length_of_validateMac (h.validateMac_service hw)).symm
  exact h.service_eq hv hw (proxyKey_inj hlength hkey).2.1

/-! ## Senders belong to their tasks -/

/-- A sender in the map is the one of the task it names, which is past its insertion; tasks
before it cannot have been told to stop. -/
structure SendersOwned (s : Proxy) : Prop where
  owner : ∀ key i, s.proxies.lookup key = some i →
    ∃ t, s.tasks[i]? = some t ∧ t.key = key ∧ t.phase ≠ .spawned
  fresh : ∀ (i : ℕ) t, s.tasks[i]? = some t → t.phase = .spawned → t.cancelled = false

theorem SendersOwned.startProxy {s : Proxy} (h : SendersOwned s) (m : Machine) (now : Instant) :
    SendersOwned (startProxyIfConfigured m now s) := by
  constructor
  · intro key i hkey
    obtain ⟨t, hget, hrest⟩ := h.owner key i hkey
    obtain ⟨hi, -⟩ := List.getElem?_eq_some_iff.mp hget
    exact ⟨t, by rw [startProxy_tasks, List.getElem?_append_left hi, hget], hrest⟩
  · intro i t ht hphase
    rcases getElem?_append_cases ht with ht | ht
    · exact h.fresh i t ht hphase
    · exact (service_spawnForwarder_mem ht).2.2

/-- Telling tasks to stop whose senders are in the map. -/
theorem SendersOwned.cancel {s : Proxy} (h : SendersOwned s) {ids : ℕ → Bool}
    {proxies : Dict String ℕ}
    (hids : ∀ i, ids i = true → ∃ key, s.proxies.lookup key = some i)
    (hproxies : ∀ key i, proxies.lookup key = some i → s.proxies.lookup key = some i) :
    SendersOwned { s with proxies, tasks := cancelTasks ids s.tasks } := by
  constructor
  · intro key i hkey
    obtain ⟨t, hget, htkey, hphase⟩ := h.owner key i (hproxies key i hkey)
    refine ⟨if ids i then { t with cancelled := true } else t, ?_, ?_, ?_⟩
    · change (cancelTasks ids s.tasks)[i]? = _
      rw [getElem?_cancelTasks, hget, Option.map_some]
    · split <;> exact htkey
    · split <;> exact hphase
  · intro i t ht hphase
    change (cancelTasks ids s.tasks)[i]? = some t at ht
    rw [getElem?_cancelTasks, Option.map_eq_some_iff] at ht
    obtain ⟨t', hget, rfl⟩ := ht
    split at hphase
    · rename_i hi
      -- a task whose sender is in the map is past its insertion
      obtain ⟨key, hkey⟩ := hids i hi
      obtain ⟨t'', hget', -, hne⟩ := h.owner key i hkey
      rw [hget] at hget'
      cases hget'
      exact absurd hphase hne
    · rename_i hi
      rw [if_neg hi]
      exact h.fresh i t' hget hphase

theorem SendersOwned.stopProxies {s : Proxy} (h : SendersOwned s) (p : String → Bool) :
    SendersOwned (stopProxies p s) := by
  refine h.cancel (fun i hi => ?_) (fun key i hkey => ?_)
  · obtain ⟨e, hmem, he⟩ := List.any_eq_true.mp hi
    rw [Bool.and_eq_true, decide_eq_true_eq] at he
    exact ⟨e.1, Dict.lookup_eq_some_iff.mpr (he.2 ▸ hmem)⟩
  · rw [Dict.lookup_retain, Option.filter_eq_some_iff] at hkey
    exact hkey.1

/-- A change of the phase of one task, not back to the start. -/
theorem SendersOwned.modifyPhase {s : Proxy} (h : SendersOwned s) (i : ℕ)
    (f : ForwarderTask → TaskPhase) (hf : ∀ t, s.tasks[i]? = some t → f t ≠ .spawned) :
    SendersOwned { s with tasks := s.tasks.modify i fun t => { t with phase := f t } } := by
  constructor
  · intro key j hkey
    obtain ⟨t, hget, htkey, hphase⟩ := h.owner key j hkey
    refine ⟨if i = j then { t with phase := f t } else t, ?_, ?_, ?_⟩
    · change (s.tasks.modify i _)[j]? = _
      rw [List.getElem?_modify, hget]
      split <;> rfl
    · split <;> exact htkey
    · split
      · rename_i hij
        exact hf t (hij ▸ hget)
      · exact hphase
  · intro j t ht hphase
    change (s.tasks.modify i _)[j]? = some t at ht
    rw [List.getElem?_modify] at ht
    obtain ⟨t', hget, rfl⟩ := Option.map_eq_some_iff.mp ht
    by_cases hij : i = j
    · rw [if_pos hij] at hphase
      exact absurd hphase (hf t' (hij ▸ hget))
    · rw [if_neg hij] at hphase ⊢
      exact h.fresh j t' hget hphase

/-- A task that inserts its sender does not stop itself. -/
theorem SendersOwned.not_sender {s : Proxy} (h : SendersOwned s) {i : ℕ} {task : ForwarderTask}
    (hi : s.tasks[i]? = some task) (hphase : task.phase = .spawned) (key : String) :
    s.proxies.lookup key ≠ some i := by
  intro hkey
  obtain ⟨t, hget, -, hne⟩ := h.owner key i hkey
  rw [hi] at hget
  cases hget
  exact hne hphase

theorem SendersOwned.insertSender {s : Proxy} (h : SendersOwned s) (i : ℕ) :
    SendersOwned (insertSender i s) := by
  by_cases hspawned : ∃ task, s.tasks[i]? = some task ∧ task.phase = .spawned
  · obtain ⟨task, hi, hphase⟩ := hspawned
    constructor
    · intro key j hkey
      have hget : ∃ t, s.tasks[j]? = some t ∧ t.key = key ∧ (i = j ∨ t.phase ≠ .spawned) := by
        rw [insertSender_eq hi hphase, Dict.lookup_insert] at hkey
        split at hkey
        · rename_i hkeyEq
          cases hkey
          exact ⟨task, hi, hkeyEq.symm, Or.inl rfl⟩
        · obtain ⟨t, hget, htkey, hne⟩ := h.owner key j hkey
          exact ⟨t, hget, htkey, Or.inr hne⟩
      obtain ⟨t, hget, htkey, hne⟩ := hget
      rw [getElem?_insertSender hi hphase, hget]
      refine ⟨_, rfl, htkey, ?_⟩
      by_cases hij : i = j
      · simp [hij]
      · simpa [hij] using hne
    · intro j t ht hfresh
      rw [getElem?_insertSender hi hphase, Option.map_eq_some_iff] at ht
      obtain ⟨t', hget, rfl⟩ := ht
      by_cases hij : i = j
      · simp [hij] at hfresh
      · have hphase' : t'.phase = .spawned := by simpa [hij] using hfresh
        have hkept := h.not_sender hget hphase' task.key
        simp [h.fresh j t' hget hphase', hkept]
  · rw [insertSender_of_ne fun task hi hphase => hspawned ⟨task, hi, hphase⟩]
    exact h

/-- **One step** keeps the senders with their tasks. -/
theorem sendersOwned_step (libs : Externals) (s : Proxy) (e : ProxyEvent) (h : SendersOwned s) :
    SendersOwned (step libs s e) := by
  have heffect := step_effect libs s e
  generalize step libs s e = s' at heffect
  cases heffect with
  | idle machines limiter proxies tasks clients database notDeleted =>
    constructor
    · rw [proxies, tasks]
      exact h.owner
    · rw [tasks]
      exact h.fresh
  | add new valid verified key =>
    have hcommit : SendersOwned (s.commit libs (s.machines ++ [new])) := ⟨h.owner, h.fresh⟩
    exact hcommit.startProxy new _
  | @update mac payload random now index old base new hposition new_eq valid =>
    have hcommit : SendersOwned { s.commit libs (s.machines.set index new) with
        turnOffLimiter := s.turnOffLimiter.removeMachine mac } := ⟨h.owner, h.fresh⟩
    exact (hcommit.stopProxies _).startProxy new now
  | @delete payload limiter removed =>
    have hcommit : SendersOwned
        { s.commit libs (s.machines.filter fun m => m.mac ≠ payload.mac) with
          turnOffLimiter := limiter } := ⟨h.owner, h.fresh⟩
    exact hcommit.stopProxies _
  | rotate index m hposition enabled => exact ⟨h.owner, h.fresh⟩
  | verify p index m pending answered hposition key => exact ⟨h.owner, h.fresh⟩
  | connection task => exact ⟨h.owner, h.fresh⟩
  | tick => exact ⟨h.owner, h.fresh⟩
  | forwarder taskStep frame =>
    cases taskStep with
    | @insertSender i => exact h.insertSender i
    | @bindListener i =>
      unfold bindListener
      cases hi : s.tasks[i]? with
      | none => exact h
      | some task =>
        simp only []
        split
        · refine h.modifyPhase i _ fun t _ => ?_
          split <;> decide
        · exact h
    | @observeStop i =>
      unfold observeStop
      cases hi : s.tasks[i]? with
      | none => exact h
      | some task =>
        simp only []
        split
        · exact h.modifyPhase i _ fun _ _ => by decide
        · exact h

/-! ## Every service keeps a task -/

/-- A task that forwards the service, was not told to stop and has not ended. -/
def ServedBy (v : Service) (t : ForwarderTask) : Prop :=
  t.service = v ∧ t.cancelled = false ∧ t.phase ≠ .terminated

/-- Every service of the registry has such a task. -/
def Served (s : Proxy) : Prop :=
  ∀ v ∈ services s.machines, ∃ (i : ℕ) (t : ForwarderTask), s.tasks[i]? = some t ∧ ServedBy v t

/-- A task that is still to serve does not bind a port on which a task that was told to stop
still listens. -/
def BindsClosedPort (s : Proxy) : ProxyEvent → Prop
  | .bindListener i => ∀ t, s.tasks[i]? = some t → t.phase = .inserted → t.cancelled = false →
      ∀ t' ∈ s.tasks, t'.phase = .listening → t'.cancelled = true → t'.localPort ≠ t.localPort
  | _ => True

/-- A delete that goes through names no MAC that, with a hyphen, starts a key of a machine with
another MAC. -/
def DeletesWholeMac (s : Proxy) : ProxyEvent → Prop
  | .delete payload fault => fault = .noFault → ∀ v ∈ services s.machines,
      startsWith v.key (payload.mac ++ "-") = true → v.mac = payload.mac
  | _ => True

/-- The conditions under which no service loses its forwarder. -/
def KeepsForwarders (s : Proxy) (e : ProxyEvent) : Prop :=
  EditsInserted s e ∧ BindsClosedPort s e ∧ DeletesWholeMac s e

/-- A served service whose key is not selected stays served over a stop. -/
theorem SendersOwned.served_stopProxies {s : Proxy} (h : SendersOwned s) {p : String → Bool}
    {v : Service} (hp : p v.key = false)
    (hv : ∃ (i : ℕ) (t : ForwarderTask), s.tasks[i]? = some t ∧ ServedBy v t) :
    ∃ (i : ℕ) (t : ForwarderTask),
      (Wakezilla.stopProxies p s).tasks[i]? = some t ∧ ServedBy v t := by
  obtain ⟨i, t, hget, hserved⟩ := hv
  refine ⟨i, t, getElem?_stopProxies_of_not hget fun key hkey => ?_, hserved⟩
  obtain ⟨t', hget', htkey, -⟩ := h.owner key i hkey
  rw [hget] at hget'
  cases hget'
  rw [← htkey, ← key_service, hserved.1]
  exact hp

/-- Starting the forwarders of a machine serves its services and keeps the others served. -/
theorem served_startProxy {s : Proxy} {m : Machine} {now : Instant} {v : Service}
    (hv : (∃ (i : ℕ) (t : ForwarderTask), s.tasks[i]? = some t ∧ ServedBy v t) ∨
      v ∈ m.services) :
    ∃ (i : ℕ) (t : ForwarderTask),
      (startProxyIfConfigured m now s).tasks[i]? = some t ∧ ServedBy v t := by
  rw [startProxy_tasks]
  rcases hv with ⟨i, t, hget, hserved⟩ | hv
  · obtain ⟨hi, -⟩ := List.getElem?_eq_some_iff.mp hget
    exact ⟨i, t, by rw [List.getElem?_append_left hi, hget], hserved⟩
  · obtain ⟨pf, hpf, rfl⟩ := List.mem_map.mp hv
    have hmem : spawnForwarder m pf ∈ s.tasks ++ m.portForwards.map (spawnForwarder m) :=
      List.mem_append_right _ (List.mem_map_of_mem hpf)
    obtain ⟨i, hi⟩ := List.mem_iff_getElem?.mp hmem
    exact ⟨i, _, hi, rfl, rfl, TaskPhase.noConfusion⟩

/-- An insertion hands a service at most from one task to another with the same key, which
serves it as well. -/
theorem served_insertSender {s : Proxy} (hvalid : ValidRegistry s.machines) (hstray : NoStray s)
    (howned : SendersOwned s) (h : Served s) (i : ℕ) : Served (insertSender i s) := by
  by_cases hspawned : ∃ task, s.tasks[i]? = some task ∧ task.phase = .spawned
  · obtain ⟨task, hi, hphase⟩ := hspawned
    intro v hv
    rw [insertSender_frame] at hv
    obtain ⟨j, t, hj, hservice, hlive, hended⟩ := h v hv
    -- the inserting task itself is not told to stop
    have hself : ServedBy task.service { task with phase := .inserted } :=
      ⟨rfl, howned.fresh i task hi hphase, TaskPhase.noConfusion⟩
    have hgetSelf : (insertSender i s).tasks[i]? = some { task with phase := .inserted } := by
      rw [getElem?_insertSender hi hphase, hi]
      simp [howned.not_sender hi hphase]
    by_cases hij : i = j
    · subst hij
      rw [hi] at hj
      cases hj
      exact ⟨i, _, hgetSelf, hservice ▸ hself⟩
    · by_cases hkey : s.proxies.lookup task.key = some j
      · -- the serving task loses its sender to a task with the same key
        obtain ⟨t', hj', htkey, -⟩ := howned.owner task.key j hkey
        rw [hj] at hj'
        cases hj'
        have htask := hstray.backed i task hi (howned.fresh i task hi hphase)
        have heq : task.service = v :=
          hvalid.service_eq_of_key htask hv (by rw [← hservice]; exact htkey.symm)
        exact ⟨i, _, hgetSelf, heq ▸ hself⟩
      · refine ⟨j, t, ?_, hservice, hlive, hended⟩
        rw [getElem?_insertSender hi hphase, hj]
        simp [hij, hkey]
  · rw [insertSender_of_ne fun task hi hphase => hspawned ⟨task, hi, hphase⟩]
    exact h

/-- A bind of a task that is still to serve succeeds. -/
theorem portInUse_eq_false {s : Proxy} (hvalid : ValidRegistry s.machines) (hstray : NoStray s)
    {i : ℕ} {task : ForwarderTask} (hi : s.tasks[i]? = some task) (hphase : task.phase = .inserted)
    (hlive : task.cancelled = false) (hc : BindsClosedPort s (.bindListener i)) :
    portInUse task.localPort s.tasks = false := by
  rw [portInUse, List.any_eq_false]
  intro t ht hlistening
  rw [Bool.and_eq_true, decide_eq_true_eq, decide_eq_true_eq] at hlistening
  obtain ⟨hlistens, hport⟩ := hlistening
  cases hcancelled : t.cancelled with
  | true => exact hc task hi hphase hlive t ht hlistens hcancelled hport
  | false =>
    -- both serve the registry, so they have one service and one sender
    obtain ⟨j, hj⟩ := List.mem_iff_getElem?.mp ht
    have heq : t.service = task.service :=
      hvalid.service_eq (hstray.backed j t hj hcancelled) (hstray.backed i task hi hlive) hport
    have hsender := hstray.registered i task hi hlive (by rw [hphase]; decide)
    have hsender' := hstray.registered j t hj hcancelled (by rw [hlistens]; decide)
    rw [← key_service, heq, key_service, hsender] at hsender'
    cases hsender'
    rw [hi] at hj
    cases hj
    rw [hphase] at hlistens
    cases hlistens

theorem served_bindListener {s : Proxy} (hvalid : ValidRegistry s.machines) (hstray : NoStray s)
    (h : Served s) (i : ℕ) (hc : BindsClosedPort s (.bindListener i)) :
    Served (bindListener i s) := by
  intro v hv
  rw [bindListener_frame] at hv
  obtain ⟨j, t, hj, hserved⟩ := h v hv
  unfold bindListener
  cases hi : s.tasks[i]? with
  | none => exact ⟨j, t, hj, hserved⟩
  | some task =>
    simp only []
    split
    · rename_i hphase
      by_cases hij : i = j
      · subst hij
        rw [hi] at hj
        cases hj
        have hfree := portInUse_eq_false hvalid hstray hi hphase hserved.2.1 hc
        refine ⟨i, { t with phase := .listening }, ?_, hserved.1, hserved.2.1,
          TaskPhase.noConfusion⟩
        rw [List.getElem?_modify, hi]
        simp [hfree]
      · refine ⟨j, t, ?_, hserved⟩
        rw [List.getElem?_modify, hj]
        simp [hij]
    · exact ⟨j, t, hj, hserved⟩

/-- Only a task that was told to stop ends by observing its stop signal. -/
theorem served_observeStop {s : Proxy} (h : Served s) (i : ℕ) : Served (observeStop i s) := by
  intro v hv
  rw [observeStop_frame] at hv
  obtain ⟨j, t, hj, hserved⟩ := h v hv
  unfold observeStop
  cases hi : s.tasks[i]? with
  | none => exact ⟨j, t, hj, hserved⟩
  | some task =>
    simp only []
    split
    · rename_i hcancelled
      have hij : i ≠ j := by
        rintro rfl
        rw [hi] at hj
        cases hj
        rw [Bool.and_eq_true, hserved.2.1] at hcancelled
        exact Bool.false_ne_true hcancelled.2
      refine ⟨j, t, ?_, hserved⟩
      rw [List.getElem?_modify, hj]
      simp [hij]
    · exact ⟨j, t, hj, hserved⟩

/-- **One step** under the conditions keeps every service served. -/
theorem served_step (libs : Externals) (s : Proxy) (e : ProxyEvent)
    (hvalid : ValidRegistry s.machines) (hstray : NoStray s) (howned : SendersOwned s)
    (h : Served s) (hc : KeepsForwarders s e) : Served (step libs s e) := by
  obtain ⟨-, hbinds, hdeletes⟩ := hc
  have heffect := step_effect libs s e
  generalize step libs s e = s' at heffect
  cases heffect with
  | idle machines limiter proxies tasks clients database notDeleted =>
    rw [Served, machines, tasks]
    exact h
  | add new valid verified key =>
    intro v hv
    rw [startProxy_machines, commit_machines, services, List.flatMap_append, List.mem_append] at hv
    refine served_startProxy (hv.imp (h v) fun hv => ?_)
    simpa using hv
  | @update mac payload random now index old base new hposition new_eq valid =>
    obtain ⟨hget, rfl⟩ := position_eq_some hposition
    have hold := (hvalid.each old (List.mem_of_getElem? hget)).mac
    have howned' : SendersOwned { s.commit libs (s.machines.set index new) with
        turnOffLimiter := s.turnOffLimiter.removeMachine old.mac } := ⟨howned.owner, howned.fresh⟩
    intro v hv
    obtain ⟨m, hm, hvm⟩ := mem_services.mp hv
    by_cases hnew : m = new
    · exact served_startProxy (Or.inr (hnew ▸ hvm))
    · obtain ⟨hmem, hne⟩ := Mirror.key_ne_of_mem_set hvalid.distinct hget hm hnew
      have hvold : v ∈ services s.machines := mem_services.mpr ⟨m, hmem, hvm⟩
      refine served_startProxy (Or.inl (howned'.served_stopProxies ?_ (h v hvold)))
      -- the update selects keys by the MAC alone, which is enough among MACs of the grammar
      by_contra hselected
      rw [Bool.not_eq_false] at hselected
      have hmac := mac_eq_of_startsWith (hvalid.validateMac_service hvold) hold hselected
      exact hne ((mac_of_mem_services hvm).symm.trans hmac)
  | @delete payload limiter removed =>
    have howned' : SendersOwned
        { s.commit libs (s.machines.filter fun m => m.mac ≠ payload.mac) with
          turnOffLimiter := limiter } := ⟨howned.owner, howned.fresh⟩
    intro v hv
    obtain ⟨m, hm, hvm⟩ := mem_services.mp hv
    obtain ⟨hmem, hne⟩ := List.mem_filter.mp hm
    have hvold : v ∈ services s.machines := mem_services.mpr ⟨m, hmem, hvm⟩
    refine howned'.served_stopProxies ?_ (h v hvold)
    by_contra hselected
    rw [Bool.not_eq_false] at hselected
    have hmac := hdeletes rfl v hvold hselected
    rw [mac_of_mem_services hvm] at hmac
    simp [hmac] at hne
  | rotate index m hposition enabled =>
    rw [Served, commit_machines, services_set_withKey (position_eq_some hposition).1]
    exact h
  | verify p index m pending answered hposition key =>
    rw [Served, commit_machines, services_set_withKey (position_eq_some hposition).1]
    exact h
  | connection task => exact h
  | tick => exact h
  | forwarder taskStep frame =>
    cases taskStep with
    | @insertSender i => exact served_insertSender hvalid hstray howned h i
    | @bindListener i => exact served_bindListener hvalid hstray h i hbinds
    | @observeStop i => exact served_observeStop h i

/-! ## Runs -/

/-- What holds of the forwarders in every state of a run under the conditions. -/
structure ForwardersServe (s : Proxy) : Prop where
  valid : ValidRegistry s.machines
  stray : NoStray s
  owned : SendersOwned s
  served : Served s

theorem forwardersServe_step (libs : Externals) (s : Proxy) (e : ProxyEvent)
    (h : ForwardersServe s) (hc : KeepsForwarders s e) : ForwardersServe (step libs s e) where
  valid := validRegistry_step libs s e h.valid
  stray := noStray_step libs s e h.stray hc.1
  owned := sendersOwned_step libs s e h.owned
  served := served_step libs s e h.valid h.stray h.owned h.served hc

theorem sendersOwned_startMachines (machines : List Machine) (database : Database)
    (clock : ℕ → Instant) : SendersOwned (startMachines machines database clock) := by
  obtain ⟨-, hproxies, -⟩ := startMachines_fields machines database clock
  constructor
  · intro key i hkey
    rw [hproxies, Dict.lookup_empty] at hkey
    cases hkey
  · intro i t ht _
    have hmem := List.mem_of_getElem? ht
    rw [startMachines_tasks, List.mem_flatMap] at hmem
    obtain ⟨m, -, hmem⟩ := hmem
    exact (service_spawnForwarder_mem hmem).2.2

theorem forwardersServe_startMachines {machines : List Machine} (hvalid : ValidRegistry machines)
    (database : Database) (clock : ℕ → Instant) :
    ForwardersServe (startMachines machines database clock) := by
  obtain ⟨hmachines, -⟩ := startMachines_fields machines database clock
  refine ⟨?_, noStray_startMachines machines database clock,
    sendersOwned_startMachines machines database clock, ?_⟩
  · rw [hmachines]
    exact hvalid
  · intro v hv
    rw [hmachines] at hv
    obtain ⟨m, hm, hvm⟩ := mem_services.mp hv
    obtain ⟨pf, hpf, rfl⟩ := List.mem_map.mp hvm
    have hmem : spawnForwarder m pf ∈ (startMachines machines database clock).tasks := by
      rw [startMachines_tasks]
      exact List.mem_flatMap.mpr ⟨m, hm, List.mem_map_of_mem hpf⟩
    obtain ⟨i, hi⟩ := List.mem_iff_getElem?.mp hmem
    exact ⟨i, _, hi, rfl, rfl, TaskPhase.noConfusion⟩

/-- **No lost forwarder.**  In a quiescent state of a run under the conditions from a valid
registry, every port forward of every registered machine has a listening forwarder on its
local port that forwards to the machine's address and the target port. -/
theorem no_lost_forwarder (libs : Externals) (machines : List Machine) (database : Database)
    (clock : ℕ → Instant) (es : List ProxyEvent) (hvalid : ValidRegistry machines)
    (hrun : Run.Along (step libs) KeepsForwarders (startMachines machines database clock) es) :
    let s := Run.exec (step libs) (startMachines machines database clock) es
    Quiescent s → ∀ m ∈ s.machines, ∀ pf ∈ m.portForwards,
      ∃ t ∈ s.tasks, t.phase = .listening ∧ t.mac = m.mac ∧ t.localPort = pf.localPort ∧
        t.remoteIp = m.ip ∧ t.targetPort = pf.targetPort := by
  intro s hquiescent m hm pf hpf
  have hinv : ForwardersServe s := Run.exec_invariant
    (forwardersServe_startMachines hvalid database clock) (forwardersServe_step libs) hrun
  obtain ⟨i, t, hi, hservice, hlive, hended⟩ :=
    hinv.served _ (mem_services.mpr ⟨m, hm, List.mem_map_of_mem hpf⟩)
  have ht := List.mem_of_getElem? hi
  obtain ⟨hspawned, hinserted, -⟩ := hquiescent t ht
  rw [ForwarderTask.service, Service.mk.injEq] at hservice
  obtain ⟨hmac, hip, hlocal, htarget⟩ := hservice
  refine ⟨t, ht, ?_, hmac, hlocal, hip, htarget⟩
  cases hphase : t.phase with
  | spawned => exact absurd hphase hspawned
  | inserted => exact absurd hphase hinserted
  | listening => rfl
  | terminated => exact absurd hphase hended

theorem validRegistry_workstation : ValidRegistry [workstation] where
  each := by
    intro m hm
    rw [List.mem_singleton.mp hm]
    exact ⟨by decide, by decide +kernel, by decide, by decide, by decide, by decide,
      fun existing hexisting => absurd hexisting List.not_mem_nil,
      fun existing hexisting => absurd hexisting List.not_mem_nil⟩
  apart := List.pairwise_singleton _ _

/-- A rename whose new forwarder binds after the old one has closed the port. -/
theorem renamed_workstation_keeps_forwarder :
    let s := Run.exec (step libraries) (startMachines [workstation] none fun _ => 0)
      [.insertSender 0, .bindListener 0,
        .update workstation.mac { payloadOf workstation with name := "desk" } sampleBytes
          .noFault 0,
        .observeStop 0, .insertSender 1, .bindListener 1]
    Quiescent s ∧ (s.machines.map fun m => m.portForwards.length) = [1] ∧
      ∀ m ∈ s.machines, ∀ pf ∈ m.portForwards,
        ∃ t ∈ s.tasks, t.phase = .listening ∧ t.mac = m.mac ∧ t.localPort = pf.localPort ∧
          t.remoteIp = m.ip ∧ t.targetPort = pf.targetPort := by
  intro s
  have hquiescent : Quiescent s := by decide +kernel
  refine ⟨hquiescent, by decide +kernel, ?_⟩
  refine no_lost_forwarder libraries [workstation] none (fun _ => 0) _ validRegistry_workstation
    ?_ hquiescent
  have hbind : ∀ (s : Proxy) (i : ℕ), (∀ t' ∈ s.tasks, t'.phase = .listening →
      t'.cancelled = false) → KeepsForwarders s (.bindListener i) := by
    intro s i hlive
    refine ⟨trivial, fun t _ _ _ t' ht' hlistening hcancelled => ?_, trivial⟩
    rw [hlive t' ht' hlistening] at hcancelled
    cases hcancelled
  exact ⟨⟨trivial, trivial, trivial⟩, hbind _ _ (by decide +kernel),
    ⟨fun _ _ => by decide +kernel, trivial, trivial⟩, ⟨trivial, trivial, trivial⟩,
    ⟨trivial, trivial, trivial⟩, hbind _ _ (by decide +kernel), trivial⟩

/-- **An early bind loses the forwarder.**  The new forwarder of a renamed machine binds while
the old one still listens; its bind fails, the old one closes, and nothing listens. -/
theorem early_bind_loses_forwarder :
    let s := Run.exec (step libraries) (startMachines [workstation] none fun _ => 0)
      [.insertSender 0, .bindListener 0,
        .update workstation.mac { payloadOf workstation with name := "desk" } sampleBytes
          .noFault 0,
        .insertSender 1, .bindListener 1, .observeStop 0]
    Quiescent s ∧ (s.machines.map fun m => m.portForwards) = [workstation.portForwards] ∧
      ∀ t ∈ s.tasks, t.phase ≠ .listening := by
  decide +kernel

end Wakezilla
