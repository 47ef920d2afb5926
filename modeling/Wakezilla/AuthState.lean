/-
# The authentication state never degrades

Five handlers write the shutdown key and the verified flag.  Three facts about them:

* `AuthConsistent` : a machine has a key only while remote shutdown is configured, and is
  verified only while it has a key;
* every key that was not loaded with the registry is a generated one, so it is valid;
* an enabled machine without a key (`Machine.isLegacy`) is never produced from anything
  else: it was loaded that way and stayed enabled and unrotated (`LegacySince`).

A machine may be renamed and machines may be deleted, so histories follow positions:
`origin s e i` is the position before the event `e` of the record that is at position
`i` after it.
-/
import Wakezilla.ShutdownSecurity

namespace Wakezilla

/-- Remote shutdown is configured, but there is no key: a machine of an old database. -/
def Machine.isLegacy (m : Machine) : Bool := m.shutdownEnabled && m.shutdownAuthKey.isNone

theorem isLegacy_iff {m : Machine} :
    m.isLegacy = true ↔ m.shutdownEnabled = true ∧ m.shutdownAuthKey = none := by
  rw [Machine.isLegacy, Bool.and_eq_true, Option.isNone_iff_eq_none]

/-- The key and the flag of one machine fit its configuration. -/
def Machine.AuthConsistent (m : Machine) : Prop :=
  (m.shutdownAuthKey.isSome = true → m.canBeTurnedOff = true ∧ m.turnOffPort.isSome = true) ∧
    (m.shutdownAuthVerified = true → m.shutdownAuthKey.isSome = true)

/-! ## Where a record comes from -/

/-- The positions of the machines that `delete_machine_api` keeps. -/
def survivors (mac : String) (machines : List Machine) : List ℕ :=
  (machines.zipIdx.filter fun m => m.1.mac ≠ mac).map Prod.snd

/-- The position, before the event, of the record at position `i` after it; a new record has
none. -/
def origin (s : Proxy) (e : ProxyEvent) (i : ℕ) : Option ℕ :=
  match e with
  | .add _ _ _ _ => if i < s.machines.length then some i else none
  | .delete payload .noFault => (survivors payload.mac s.machines)[i]?
  | _ => some i

theorem getElem?_filter_survivors {mac : String} {machines : List Machine} {i : ℕ} {m : Machine}
    (h : (machines.filter fun m => m.mac ≠ mac)[i]? = some m) :
    ∃ j, (survivors mac machines)[i]? = some j ∧ machines[j]? = some m := by
  have hfilter : (machines.filter fun m => m.mac ≠ mac) =
      (machines.zipIdx.filter fun m => m.1.mac ≠ mac).map Prod.fst := by
    conv_lhs => rw [← List.zipIdx_map_fst 0 machines]
    exact List.filter_map
  rw [hfilter, List.getElem?_map, Option.map_eq_some_iff] at h
  obtain ⟨⟨m', j⟩, hget, rfl⟩ := h
  refine ⟨j, ?_, ?_⟩
  · rw [survivors, List.getElem?_map, hget]
    rfl
  · have hmem := List.mem_of_mem_filter (List.mem_of_getElem? hget)
    exact List.mem_zipIdx_iff_getElem?.mp hmem

/-- A rotation that goes through replaces the key of the machine at position `j`. -/
def Rotated (s : Proxy) (e : ProxyEvent) (j : ℕ) : Prop :=
  ∃ mac random m, e = .rotate mac random .noFault ∧ position mac s.machines = some (j, m) ∧
    m.shutdownEnabled = true

/-- How the record `new` came to position `i`: it was there before, or a handler made it from
nothing or from the record `old` that was there. -/
inductive RecordStep (libs : Externals) (s : Proxy) (e : ProxyEvent) (i : ℕ) (new : Machine) : Prop
  | kept (j : ℕ) (origin : origin s e i = some j) (get : s.machines[j]? = some new)
  | added (random : Vector UInt8 32) (origin : origin s e i = none)
      (verified : new.shutdownAuthVerified = false)
      (key : new.shutdownAuthKey =
        if new.shutdownEnabled then some (generateKey libs.base64 random) else none)
  | updated (old base : Machine) (random : Vector UInt8 32) (origin : origin s e i = some i)
      (get : s.machines[i]? = some old)
      (eq : new = applyShutdownSecurity libs.base64 random (some old) base)
  | rotated (old : Machine) (random : Vector UInt8 32) (rotated : Rotated s e i)
      (get : s.machines[i]? = some old) (enabled : old.shutdownEnabled = true)
      (eq : new = { old with
        shutdownAuthKey := some (generateKey libs.base64 random), shutdownAuthVerified := false })
  | verified (old : Machine) (key : String) (get : s.machines[i]? = some old)
      (hasKey : old.shutdownAuthKey = some key) (notUpdate : ∀ mac payload random fault now,
        e ≠ .update mac payload random fault now)
      (eq : new = { old with shutdownAuthVerified := true })

/-- A record of a list with one position overwritten. -/
theorem getElem?_set_cases {machines : List Machine} {index i : ℕ} {new m : Machine}
    (h : (machines.set index new)[i]? = some m) :
    (i = index ∧ m = new) ∨ machines[i]? = some m := by
  rw [List.getElem?_set] at h
  split at h
  · rename_i heq
    split at h
    · exact Or.inl ⟨heq.symm, (Option.some_inj.mp h).symm⟩
    · cases h
  · exact Or.inr h

/-- Every record of the registry after a step arose in one of these ways. -/
theorem record_step (libs : Externals) (s : Proxy) (e : ProxyEvent) {i : ℕ} {new : Machine}
    (h : (step libs s e).machines[i]? = some new) : RecordStep libs s e i new := by
  have heffect := step_effect libs s e
  generalize step libs s e = s' at heffect h
  -- a step that is no delete keeps the records it does not overwrite at their positions
  have hkept : s.machines[i]? = some new → (∀ payload, e ≠ .delete payload .noFault) →
      RecordStep libs s e i new := by
    intro hget hdelete
    obtain ⟨hi, -⟩ := List.getElem?_eq_some_iff.mp hget
    refine .kept i ?_ hget
    unfold origin
    split
    · exact if_pos hi
    · exact absurd rfl (hdelete _)
    · rfl
  cases heffect with
  | idle machines limiter proxies tasks clients database notDeleted =>
    rw [machines] at h
    exact hkept h notDeleted
  | @add payload random now added valid verified key =>
    rw [startProxy_machines, commit_machines] at h
    by_cases hi : i < s.machines.length
    · rw [List.getElem?_append_left hi] at h
      exact hkept h nofun
    · rw [List.getElem?_append_right (not_lt.mp hi)] at h
      rw [← List.mem_singleton.mp (List.mem_of_getElem? h)] at verified key
      exact .added random (if_neg hi) verified key
  | @update mac payload random now index old base updated hposition new_eq valid =>
    obtain ⟨hget, -⟩ := position_eq_some hposition
    rcases getElem?_set_cases h with ⟨rfl, rfl⟩ | h
    · exact .updated old base random rfl hget new_eq
    · exact hkept h nofun
  | @delete payload limiter removed =>
    -- the records after a deleted one move down
    obtain ⟨j, hj, hget⟩ := getElem?_filter_survivors h
    exact .kept j hj hget
  | @rotate mac random index m hposition enabled =>
    obtain ⟨hget, -⟩ := position_eq_some hposition
    rcases getElem?_set_cases h with ⟨rfl, rfl⟩ | h
    · exact .rotated m random ⟨mac, random, m, rfl, hposition, enabled⟩ hget enabled rfl
    · exact hkept h nofun
  | verify p index m pending answered hposition key =>
    obtain ⟨hget, -⟩ := position_eq_some hposition
    rcases getElem?_set_cases h with ⟨rfl, rfl⟩ | h
    · refine .verified m p.key hget key (fun mac payload random fault now heq => ?_) rfl
      cases heq
    · exact hkept h nofun
  | connection task => exact hkept h nofun
  | tick => exact hkept h nofun
  | forwarder taskStep frame =>
    rw [frame] at h
    refine hkept h ?_
    rintro payload rfl
    cases taskStep

/-! ## Consequences for one step -/

/-- Clause one: consistency is kept. -/
theorem RecordStep.authConsistent {libs : Externals} {s : Proxy} {e : ProxyEvent} {i : ℕ}
    {new : Machine} (h : RecordStep libs s e i new)
    (hall : ∀ m ∈ s.machines, m.AuthConsistent) : new.AuthConsistent := by
  cases h with
  | kept j horigin get => exact hall new (List.mem_of_getElem? get)
  | added random horigin verified key =>
    refine ⟨fun hkey => ?_, fun hverified => ?_⟩
    · rw [key] at hkey
      split at hkey
      · rename_i henabled
        exact Bool.and_eq_true_iff.mp henabled
      · cases hkey
    · rw [verified] at hverified
      cases hverified
  | updated old base random horigin get eq =>
    -- remote shutdown is off, newly on, or on before and after the update
    have henabled := applyShutdownSecurity_shutdownEnabled libs.base64 random (some old) base
    rw [← eq] at henabled
    rcases applyShutdownSecurity_cases libs.base64 random old base with
      ⟨-, hkey, hflag⟩ | ⟨hon, -, hkey, hflag⟩ | ⟨hon, -, hkey, hflag⟩
    all_goals rw [← eq] at hkey hflag
    · rw [Machine.AuthConsistent, hkey, hflag]
      exact ⟨nofun, nofun⟩
    · rw [Machine.AuthConsistent, hflag]
      exact ⟨fun _ => Bool.and_eq_true_iff.mp (henabled.trans hon), nofun⟩
    · refine ⟨fun _ => Bool.and_eq_true_iff.mp (henabled.trans hon), fun h => ?_⟩
      rw [hkey]
      exact (hflag h).2.1
  | rotated old random rotated get enabled eq =>
    rw [eq]
    exact ⟨fun _ => Bool.and_eq_true_iff.mp enabled, nofun⟩
  | verified old key get hasKey notUpdate eq =>
    have hold := hall old (List.mem_of_getElem? get)
    rw [eq]
    exact ⟨hold.1, fun _ => by rw [hasKey]; rfl⟩

/-- Clause two: a key is an old one or valid. -/
theorem RecordStep.key_old_or_valid {libs : Externals} {s : Proxy} {e : ProxyEvent} {i : ℕ}
    {new : Machine} (h : RecordStep libs s e i new) {key : String}
    (hkey : new.shutdownAuthKey = some key) :
    (∃ m ∈ s.machines, m.shutdownAuthKey = some key) ∨ validateKey libs.base64 key = .ok () := by
  cases h with
  | kept j horigin get => exact Or.inl ⟨new, List.mem_of_getElem? get, hkey⟩
  | added random horigin verified keyEq =>
    rw [keyEq] at hkey
    split at hkey
    · cases hkey
      exact Or.inr (validateKey_generateKey libs.base64 random)
    · cases hkey
  | updated old base random horigin get eq =>
    rcases applyShutdownSecurity_cases libs.base64 random old base with
      ⟨-, hnew, -⟩ | ⟨-, -, hnew, -⟩ | ⟨-, -, hnew, -⟩
    all_goals rw [eq, hnew] at hkey
    · cases hkey
    · cases hkey
      exact Or.inr (validateKey_generateKey libs.base64 random)
    · exact Or.inl ⟨old, List.mem_of_getElem? get, hkey⟩
  | rotated old random rotated get enabled eq =>
    rw [eq] at hkey
    cases hkey
    exact Or.inr (validateKey_generateKey libs.base64 random)
  | verified old key' get hasKey notUpdate eq =>
    rw [eq] at hkey
    exact Or.inl ⟨old, List.mem_of_getElem? get, hkey⟩

/-- A rotation that goes through leaves a key. -/
theorem Rotated.key_isSome (libs : Externals) {s : Proxy} {e : ProxyEvent} {j : ℕ}
    (h : Rotated s e j) {m : Machine} (hm : (step libs s e).machines[j]? = some m) :
    m.shutdownAuthKey.isSome = true := by
  obtain ⟨mac, random, old, rfl, hposition, henabled⟩ := h
  have hstep : (step libs s (.rotate mac random .noFault)).machines = s.machines.set j
      { old with
        shutdownAuthKey := some (generateKey libs.base64 random)
        shutdownAuthVerified := false } := by
    simp [step, rotateShutdownKey, hposition, henabled, saveMachines, writeSecretFile]
  obtain ⟨hj, -⟩ := List.getElem?_eq_some_iff.mp (position_eq_some hposition).1
  rw [hstep, List.getElem?_set_self hj] at hm
  cases hm
  rfl

/-- Clause three: a legacy machine comes from a legacy machine that was not rotated. -/
theorem legacy_of_legacy (libs : Externals) (s : Proxy) (e : ProxyEvent) {i : ℕ} {new : Machine}
    (h : (step libs s e).machines[i]? = some new) (hlegacy : new.isLegacy = true) :
    ∃ j m, origin s e i = some j ∧ ¬ Rotated s e j ∧ s.machines[j]? = some m ∧
      m.isLegacy = true := by
  obtain ⟨henabled, hkey⟩ := isLegacy_iff.mp hlegacy
  cases record_step libs s e h with
  | kept j horigin get =>
    -- a rotation of this record would have left a key
    refine ⟨j, new, horigin, fun hrotated => ?_, get, hlegacy⟩
    have hij : i = j := by
      obtain ⟨mac, random, m, rfl, -, -⟩ := hrotated
      exact Option.some_inj.mp horigin
    rw [hij] at h
    have hsome := hrotated.key_isSome libs h
    rw [hkey] at hsome
    cases hsome
  | added random horigin verified keyEq =>
    rw [keyEq, if_pos henabled] at hkey
    cases hkey
  | updated old base random horigin get eq =>
    rcases applyShutdownSecurity_cases libs.base64 random old base with
      ⟨hoff, -, -⟩ | ⟨-, -, hnew, -⟩ | ⟨-, hold, hnew, -⟩
    · rw [eq, applyShutdownSecurity_shutdownEnabled, hoff] at henabled
      cases henabled
    · rw [eq, hnew] at hkey
      cases hkey
    · rw [eq, hnew] at hkey
      refine ⟨i, old, horigin, fun hrotated => ?_, get, isLegacy_iff.mpr ⟨hold, hkey⟩⟩
      have hsome := hrotated.key_isSome libs h
      rw [eq, hnew, hkey] at hsome
      cases hsome
  | rotated old random rotated get enabled eq =>
    rw [eq] at hkey
    cases hkey
  | verified old key get hasKey notUpdate eq =>
    rw [eq] at hkey
    change old.shutdownAuthKey = none at hkey
    rw [hkey] at hasKey
    cases hasKey

/-- An update of a machine that has remote shutdown before and after keeps its key. -/
theorem update_keeps_key (libs : Externals) (s : Proxy) (mac : String)
    (payload : Api.MachinePayload) (random : Vector UInt8 32) (fault : SaveFault) (now : Instant)
    {i : ℕ} {old new : Machine} (hold : s.machines[i]? = some old)
    (hnew : (step libs s (.update mac payload random fault now)).machines[i]? = some new)
    (honBefore : old.shutdownEnabled = true) (honAfter : new.shutdownEnabled = true) :
    new.shutdownAuthKey = old.shutdownAuthKey := by
  cases record_step libs s _ hnew with
  | kept j horigin get =>
    cases horigin
    rw [hold] at get
    rw [Option.some_inj.mp get]
  | added random' horigin verified key => cases horigin
  | updated old' base random' horigin get eq =>
    rw [hold] at get
    cases get
    rcases applyShutdownSecurity_cases libs.base64 random' old base with
      ⟨hoff, -, -⟩ | ⟨-, hoff, -, -⟩ | ⟨-, -, hkey, -⟩
    · rw [eq, applyShutdownSecurity_shutdownEnabled, hoff] at honAfter
      cases honAfter
    · rw [honBefore] at hoff
      cases hoff
    · rw [eq]
      exact hkey
  | rotated old' random' rotated get enabled eq =>
    obtain ⟨_, _, _, h, -⟩ := rotated
    cases h
  | verified old' key get hasKey notUpdate eq => exact absurd rfl (notUpdate _ _ _ _ _)

/-! ## Runs -/

/-- The record at position `i` after the run `es` was loaded as a legacy machine, was a legacy
machine after every step since and was never rotated. -/
inductive LegacySince (libs : Externals) (s₀ : Proxy) : List ProxyEvent → ℕ → Prop
  | loaded {i : ℕ} {m : Machine} (get : s₀.machines[i]? = some m) (legacy : m.isLegacy = true) :
      LegacySince libs s₀ [] i
  | stayed {es : List ProxyEvent} {e : ProxyEvent} {i j : ℕ} {m : Machine}
      (before : LegacySince libs s₀ es j)
      (origin : origin (Run.exec (step libs) s₀ es) e i = some j)
      (notRotated : ¬ Rotated (Run.exec (step libs) s₀ es) e j)
      (get : (Run.exec (step libs) s₀ (es ++ [e])).machines[i]? = some m)
      (legacy : m.isLegacy = true) : LegacySince libs s₀ (es ++ [e]) i

/-- Every legacy machine has been one since the registry was loaded. -/
theorem legacySince_of_isLegacy (libs : Externals) (s₀ : Proxy) (es : List ProxyEvent) {i : ℕ}
    {m : Machine} (h : (Run.exec (step libs) s₀ es).machines[i]? = some m)
    (hlegacy : m.isLegacy = true) : LegacySince libs s₀ es i := by
  -- the last step of the run found a legacy record at the origin of this one
  induction es using List.reverseRecOn generalizing i m with
  | nil => exact .loaded h hlegacy
  | append_singleton es e ih =>
    have hstep := h
    rw [Run.exec_concat] at hstep
    obtain ⟨j, old, horigin, hnot, hget, hold⟩ := legacy_of_legacy libs _ e hstep hlegacy
    exact .stayed (ih hget hold) horigin hnot h hlegacy

/-- Consistency and the provenance of the keys are kept along a run. -/
theorem authConsistent_exec (libs : Externals) (s₀ : Proxy) (es : List ProxyEvent)
    (h : ∀ m ∈ s₀.machines, m.AuthConsistent) :
    (∀ m ∈ (Run.exec (step libs) s₀ es).machines, m.AuthConsistent) ∧
      ∀ m ∈ (Run.exec (step libs) s₀ es).machines, ∀ key, m.shutdownAuthKey = some key →
        (∃ m₀ ∈ s₀.machines, m₀.shutdownAuthKey = some key) ∨
          validateKey libs.base64 key = .ok () := by
  refine Run.exec_invariant_of_forall (P := fun s : Proxy =>
    (∀ m ∈ s.machines, m.AuthConsistent) ∧ ∀ m ∈ s.machines, ∀ key,
      m.shutdownAuthKey = some key →
        (∃ m₀ ∈ s₀.machines, m₀.shutdownAuthKey = some key) ∨
          validateKey libs.base64 key = .ok ()) es ?_ ?_
  · exact ⟨h, fun m hm key hkey => Or.inl ⟨m, hm, hkey⟩⟩
  · rintro s e ⟨hconsistent, hkeys⟩
    constructor
    · intro m hm
      obtain ⟨i, hi⟩ := List.mem_iff_getElem?.mp hm
      exact (record_step libs s e hi).authConsistent hconsistent
    · intro m hm key hkey
      obtain ⟨i, hi⟩ := List.mem_iff_getElem?.mp hm
      rcases (record_step libs s e hi).key_old_or_valid hkey with ⟨old, hold, holdKey⟩ | hvalid
      · exact hkeys old hold key holdKey
      · exact Or.inr hvalid

/-- **Authentication state never degrades.**  In every run from a consistent registry: the
registry stays consistent; its keys are loaded ones or valid, as all generated keys are; no
next step makes a legacy machine from anything but a legacy machine, so every legacy machine
has been one since it was loaded; and no next update changes the key of a machine that has
remote shutdown before and after. -/
theorem auth_state_never_degrades (libs : Externals) (machines : List Machine)
    (database : Database) (clock : ℕ → Instant) (es : List ProxyEvent)
    (hinit : ∀ m ∈ machines, m.AuthConsistent) :
    let s₀ := startMachines machines database clock
    let s := Run.exec (step libs) s₀ es
    (∀ m ∈ s.machines, m.AuthConsistent) ∧
      (∀ m ∈ s.machines, ∀ key, m.shutdownAuthKey = some key →
        (∃ m₀ ∈ machines, m₀.shutdownAuthKey = some key) ∨
          validateKey libs.base64 key = .ok ()) ∧
      (∀ random, validateKey libs.base64 (generateKey libs.base64 random) = .ok ()) ∧
      (∀ e (i : ℕ) (new : Machine), (step libs s e).machines[i]? = some new →
        new.isLegacy = true →
          ∃ (j : ℕ) (old : Machine), origin s e i = some j ∧ s.machines[j]? = some old ∧
            old.isLegacy = true) ∧
      (∀ (i : ℕ) (m : Machine), s.machines[i]? = some m → m.isLegacy = true →
        LegacySince libs s₀ es i) ∧
      ∀ mac payload random fault now (i : ℕ) (old new : Machine), s.machines[i]? = some old →
        (step libs s (.update mac payload random fault now)).machines[i]? = some new →
        old.shutdownEnabled = true → new.shutdownEnabled = true →
          new.shutdownAuthKey = old.shutdownAuthKey := by
  intro s₀ s
  have hmachines : s₀.machines = machines := (startMachines_fields machines database clock).1
  obtain ⟨hconsistent, hkeys⟩ := authConsistent_exec libs s₀ es (hmachines ▸ hinit)
  rw [hmachines] at hkeys
  refine ⟨hconsistent, hkeys, validateKey_generateKey libs.base64, ?_, ?_, ?_⟩
  · intro e i new hnew hlegacy
    obtain ⟨j, old, horigin, -, hget, hold⟩ := legacy_of_legacy libs s e hnew hlegacy
    exact ⟨j, old, horigin, hget, hold⟩
  · intro i m hm hlegacy
    exact legacySince_of_isLegacy libs s₀ es hm hlegacy
  · intro mac payload random fault now i old new hold hnew honBefore honAfter
    exact update_keeps_key libs s mac payload random fault now hold hnew honBefore honAfter

/-- A legacy machine that is renamed stays one, next to a machine with a key. -/
theorem backupServer_stays_legacy :
    let s₀ := startMachines [workstation, backupServer] none fun _ => 0
    let es : List ProxyEvent :=
      [.update backupServer.mac { payloadOf backupServer with name := "store" } sampleBytes
          .noFault 0,
        .rotate workstation.mac sampleBytes .noFault]
    (∀ m ∈ (Run.exec (step libraries) s₀ es).machines, m.AuthConsistent) ∧
      LegacySince libraries s₀ es 1 := by
  intro s₀ es
  have hinit : ∀ m ∈ [workstation, backupServer], m.AuthConsistent := by
    unfold Machine.AuthConsistent
    decide
  obtain ⟨hconsistent, -, -, -, hlegacy, -⟩ :=
    auth_state_never_degrades libraries [workstation, backupServer] none (fun _ => 0) es hinit
  exact ⟨hconsistent, hlegacy 1 _ rfl (by decide +kernel)⟩

end Wakezilla
