/-
# Installing the autostart entry of the tray

`install_linux_tray_autostart_at` of `src/tray/desktop.rs`: the directory is made, the entry is
written to a file of a name that is not taken and moved to its place, and an entry that an older
version left is removed if it is one.  Every call may fail.

Whatever fails (`autostart_installed`), the entry is the old one or the whole new one, which is
there if the installation answers so; what the older version left is removed only when the new
entry is there and the old content is the tray's; no file that was there under another name is
touched; and a temporary file stays behind only if its removal fails.  The search for a name
ends, since the disk has fewer entries than there are numbers.
-/
import Wakezilla.LegacyAutostart
import Wakezilla.DesktopEntry
import Wakezilla.ServiceInstall
import Wakezilla.ShutdownAuth

namespace Wakezilla

open FileSystem Fallible

namespace Autostart

/-! ## The installation -/

/-- The fallible steps, but for those that depend on a path or on an attempt. -/
inductive AutostartStep
  | sync | setPermissions | publish | removeTemporary | inspectLegacy | readLegacy | removeLegacy
  deriving DecidableEq, Repr

/-- What the environment chooses: the steps that fail, how many bytes `write_all` writes before
it fails, and the metadata of what is created. -/
structure AutostartEnv where
  fails : AutostartStep → Bool
  createDirFails : Path → Bool
  openFails : ℕ → Bool
  written : Option ℕ
  processId : ℕ
  nextTemp : ℕ
  newDirectory : FileMetadata
  newFile : FileMetadata

/-- `canonical.file_name()`. -/
def canonicalName : String := "dev.wakezilla.tray.desktop"

/-- The temporary name with a suffix. -/
def tempName (env : AutostartEnv) (suffix : ℕ) : String :=
  "." ++ canonicalName ++ ".tmp." ++ env.processId.repr ++ "." ++ suffix.repr

/-- The steps on the temporary file, up to its publication. -/
def publishEntry (env : AutostartEnv) (temp path : Path) (content : List UInt8) : Setup Unit := do
  mapError (fun _ => ["failed to write " ++ displayPath temp])
    ((do
      modifyFile false temp fun _ m => (content.take (env.written.getD content.length), m)
      require env.written.isNone .other) : DiskIo Unit)
  mapError (fun _ => ["failed to sync " ++ displayPath temp])
    (syncDirectory (env.fails .sync) temp : DiskIo Unit)
  mapError (fun _ => ["failed to chmod " ++ displayPath temp])
    (modifyFile (env.fails .setPermissions) temp fun b m => (b, { m with mode := 0o644 }))
  mapError (fun _ => ["failed to publish Linux autostart " ++ displayPath temp ++ " -> " ++
    displayPath path]) (rename (env.fails .publish) temp path : DiskIo Unit)

/-- The loop of `atomic_write_linux_autostart` that creates the temporary file.  `NEXT_TEMP` gives
every attempt a number of its own (it is a `u64` in the source, and here it has no bound, since
no disk has that many entries); there are more attempts than entries on the disk, and a loop that
is not at its end then is one without an end. -/
def openTemporary (env : AutostartEnv) (dir : Path) : Setup (Option Path) := fun s =>
  createFirstFree (fun candidate => ["failed to create " ++ displayPath candidate]) env.openFails
    { env.newFile with mode := 0o600 } (fun suffix => dir ++ [tempName env suffix])
    (s.keys.length + 1) env.nextTemp s

/-- `atomic_write_linux_autostart`, for a path in the directory `dir`. -/
def atomicWriteLinuxAutostart (env : AutostartEnv) (dir path : Path) (content : List UInt8) :
    Setup Unit := do
  let found ← openTemporary env dir
  match found with
  | some temp =>
    onError (mapError (fun _ => []) (removeFile (env.fails .removeTemporary) temp : DiskIo Unit))
      (publishEntry env temp path content)
  | none => throw []

/-- What is known of the legacy file before it is removed. -/
def legacyIsOwned (env : AutostartEnv) (legacy : Path) (s : Disk) : Bool :=
  removesLegacyAutostart
    (if env.fails .inspectLegacy then none
      else (s.lookup legacy).map fun node => match node with
        | .file _ _ => true
        | _ => false)
    (if env.fails .readLegacy then none
      else match s.lookup legacy with
        | some (.file bytes _) => some ⟨bytes.toArray⟩
        | _ => none)

/-- The end of the installation: an entry of an older version is removed. -/
def removeLegacy (env : AutostartEnv) (legacy : Path) : Setup Unit := fun s =>
  if legacyIsOwned env legacy s then
    mapError (fun _ => ["failed to remove " ++ displayPath legacy])
      (removeFile (env.fails .removeLegacy) legacy : DiskIo Unit) s
  else .ok () s

def autostartDir (configHome : Path) : Path := configHome ++ ["autostart"]

/-- The place of the entry. -/
def canonicalPath (configHome : Path) : Path := autostartDir configHome ++ [canonicalName]

/-- The place of the entry of older versions. -/
def legacyPath (configHome : Path) : Path := autostartDir configHome ++ ["wakezilla-tray.desktop"]

/-- `install_linux_tray_autostart_at`; the path of the helper is missing if it is not UTF-8. -/
def installLinuxTrayAutostartAt (env : AutostartEnv) (configHome : Path) (helper : Option String) :
    Setup Path :=
  match helper with
  | none => throw ["wakezilla-tray path must be valid UTF-8 for a desktop entry"]
  | some helper => do
    mapError (fun _ => ["failed to create " ++ displayPath (autostartDir configHome)])
      (createDirAll env.createDirFails { env.newDirectory with mode := 0o700 }
        (components (autostartDir configHome)) : DiskIo Unit)
    match autostartEntry helper with
    | .error e => throw [e]
    | .ok content => do
      atomicWriteLinuxAutostart env (autostartDir configHome) (canonicalPath configHome)
        (asBytes content)
      removeLegacy env (legacyPath configHome)
      pure (canonicalPath configHome)

variable {env : AutostartEnv} {dir temp path legacy configHome r : Path} {content : List UInt8}
  {s s' : Disk} {v : Option (Node FileMetadata)}

/-! ## The temporary file -/

theorem tempName_injective (env : AutostartEnv) : Function.Injective (tempName env) := by
  intro n m h
  have hlist := congrArg String.toList h
  simp only [tempName, String.toList_append] at hlist
  exact Nat.repr_inj.mp (String.toList_inj.mp (List.append_cancel_left hlist))

theorem tempPath_injective (env : AutostartEnv) (dir : Path) :
    Function.Injective fun suffix => dir ++ [tempName env suffix] := by
  intro n m h
  exact tempName_injective env (List.singleton_inj.mp (List.append_cancel_left h))

/-- A name that does not start with a dot is no temporary one. -/
theorem ne_tempName {name : String} (h : name.toList.head? ≠ some '.') (n : ℕ) :
    name ≠ tempName env n := by
  rintro rfl
  refine h ?_
  simp only [tempName, String.toList_append]
  rfl

/-- **The entry is published as a whole.** -/
theorem publishEntry_spec (hne : temp ≠ path) (m₀ : FileMetadata) :
    Triple (fun s => s.lookup temp = some (.file [] m₀) ∧ s.lookup path = v)
      (publishEntry env temp path content)
      (fun _ s => s.lookup temp = none ∧
        ∃ m, m.mode = 0o644 ∧ s.lookup path = some (.file content m))
      (fun s => (∃ bytes m, s.lookup temp = some (.file bytes m)) ∧ s.lookup path = v) := by
  have hpath : ∀ {f fails}, Preserves (fun s : Disk => s.lookup path) (modifyFile fails temp f) :=
    modifyFile_preserves hne.symm
  unfold publishEntry
  refine Triple.bind (R := fun _ s => (∃ m, s.lookup temp = some (.file content m)) ∧
    s.lookup path = v) ?_ fun _ => ?_
  · -- the bytes are written, perhaps not all of them
    refine Triple.mapError (Triple.bind (R := fun _ s =>
      s.lookup temp = some (.file (content.take (env.written.getD content.length)) m₀) ∧
      s.lookup path = v) ?_ fun _ => ?_)
    · refine ((modifyFile_spec.frame hpath v).weaken (fun s hs => hs) (fun _ s hs => ?_)
        fun s hs => ?_)
      · exact ⟨hs.1.2, hs.2⟩
      · exact absurd hs.1.1 (by decide)
    · refine Triple.of_clean ReadOnly.require.clean (fun s hs => ⟨⟨_, _, hs.1⟩, hs.2⟩)
        fun s a s' hs h => ?_
      obtain ⟨hwritten, rfl⟩ := require_eq_ok.mp h
      refine ⟨⟨m₀, ?_⟩, hs.2⟩
      rw [hs.1, Option.isNone_iff_eq_none.mp hwritten, Option.getD_none, List.take_length]
  refine Triple.bind (R := fun _ s => (∃ m, s.lookup temp = some (.file content m)) ∧
    s.lookup path = v) ?_ fun _ => ?_
  · refine Triple.mapError (Triple.of_clean readOnly_syncDirectory.clean
      (fun s hs => ⟨⟨content, hs.1⟩, hs.2⟩) fun s a s' hs h => ?_)
    rw [readOnly_syncDirectory.eq_of_ok h]
    exact hs
  refine Triple.bind (R := fun _ s => (∃ m, m.mode = 0o644 ∧
    s.lookup temp = some (.file content m)) ∧ s.lookup path = v) ?_ fun _ => ?_
  · refine Triple.mapError (Triple.of_clean clean_modifyFile
      (fun s hs => ⟨⟨content, hs.1⟩, hs.2⟩) fun s a s' hs h => ?_)
    obtain ⟨⟨m, hm⟩, hv⟩ := hs
    have hkept := hpath.eq_of_ok h
    obtain ⟨-, bytes, m', hfile, rfl⟩ := modifyFile_eq_ok.mp h
    rw [hm] at hfile
    obtain ⟨rfl, rfl⟩ := Node.file.inj (Option.some.inj hfile)
    exact ⟨⟨_, rfl, AList.lookup_insert _⟩, hkept.trans hv⟩
  · refine Triple.mapError (Triple.of_clean clean_rename (fun s hs => ?_) fun s a s' hs h => ?_)
    · obtain ⟨⟨m, -, hm⟩, hv⟩ := hs
      exact ⟨⟨content, m, hm⟩, hv⟩
    · obtain ⟨⟨m, hmode, hm⟩, -⟩ := hs
      obtain ⟨-, -, node, hnode, -, rfl⟩ := rename_eq_ok.mp h
      rw [hm] at hnode
      refine ⟨?_, m, hmode, ?_⟩
      · rw [AList.lookup_insert_ne hne, AList.lookup_erase]
      · rw [AList.lookup_insert, ← Option.some.inj hnode]

theorem publishEntry_preserves (htemp : r ≠ temp) (hpath : r ≠ path) :
    Preserves (fun s : Disk => s.lookup r) (publishEntry env temp path content) := by
  unfold publishEntry
  refine Preserves.bind (Preserves.mapError ((modifyFile_preserves htemp).bind fun _ _ _ _ =>
    ReadOnly.require.preserves)) fun _ _ _ _ => ?_
  refine readOnly_syncDirectory.preserves.mapError.bind fun _ _ _ _ => ?_
  refine (modifyFile_preserves htemp).mapError.bind fun _ _ _ _ => ?_
  exact (rename_preserves htemp hpath).mapError

/-- A temporary file that stays behind: its name was free, and it could not be removed. -/
structure LeftBehind (env : AutostartEnv) (dir : Path) (s : Disk) (r : Path) : Prop where
  temporary : ∃ n, r = dir ++ [tempName env n]
  free : s.lookup r = none
  notRemoved : env.fails .removeTemporary = true

/-- The entry at the path is the new one. -/
def IsNew (path : Path) (content : List UInt8) (s : Disk) : Prop :=
  ∃ m, m.mode = 0o644 ∧ s.lookup path = some (.file content m)

/-- How the write ends: with the whole new entry at the path, or with the old one; and elsewhere
with at most a temporary file that could not be removed. -/
def WriteEnds (env : AutostartEnv) (dir path : Path) (content : List UInt8) (s : Disk)
    (ended : EStateM.Result (List String) Disk Unit) : Prop :=
  match ended with
  | .ok _ s' => IsNew path content s' ∧ ∀ r, r ≠ path → s'.lookup r = s.lookup r
  | .error _ s' => s'.lookup path = s.lookup path ∧
    ∀ r, r ≠ path → s'.lookup r = s.lookup r ∨ LeftBehind env dir s r

/-- The loop ends. -/
theorem openTemporary_ne_none (env : AutostartEnv) (dir : Path) (s s' : Disk) :
    openTemporary env dir s ≠ .ok none s' :=
  createFirstFree_ne_none (tempPath_injective env dir) (Nat.lt_succ_self _)

/-- The steps after the creation of the temporary file. -/
theorem publishCreated_ends (hne : temp ≠ path) (hfree : s.lookup temp = none)
    (htemp : ∃ n, temp = dir ++ [tempName env n]) (m₀ : FileMetadata) :
    WriteEnds env dir path content s
      (onError (mapError (fun _ => [])
          (removeFile (env.fails .removeTemporary) temp : DiskIo Unit))
        (publishEntry env temp path content) (s.insert temp (.file [] m₀))) := by
  have hother : ∀ r, r ≠ temp → (s.insert temp (.file [] m₀)).lookup r = s.lookup r :=
    fun r hr => AList.lookup_insert_ne hr
  have hpub := @publishEntry_spec env temp path content (s.lookup path) hne m₀
    (s.insert temp (.file [] m₀)) ⟨AList.lookup_insert s, hother path hne.symm⟩
  unfold onError
  cases hrun : publishEntry env temp path content (s.insert temp (.file [] m₀)) with
  | ok a s₁ =>
    obtain ⟨hgone, hnew⟩ := hpub.1 a s₁ hrun
    refine ⟨hnew, fun r hr => ?_⟩
    by_cases hrt : r = temp
    · rw [hrt, hgone, hfree]
    · exact ((publishEntry_preserves hrt hr).eq_of_ok hrun).trans (hother r hrt)
  | error contexts s₁ =>
    obtain ⟨⟨bytes, m, hfile⟩, hold⟩ := hpub.2 contexts s₁ hrun
    have hkept : ∀ r, r ≠ path → r ≠ temp → s₁.lookup r = s.lookup r := fun r hr hrt =>
      ((publishEntry_preserves hrt hr).eq_of_error hrun).trans (hother r hrt)
    have hremoved : ∀ r, r ≠ temp → (after (mapError (fun _ => ([] : List String))
        (removeFile (env.fails .removeTemporary) temp : DiskIo Unit)) s₁).lookup r =
        s₁.lookup r := fun r hrt => by
      rw [after_mapError]
      exact removeFile_preserves hrt s₁
    refine ⟨(hremoved path hne.symm).trans hold, fun r hr => ?_⟩
    by_cases hrt : r = temp
    · subst hrt
      cases hfails : env.fails .removeTemporary with
      | true => exact Or.inr ⟨htemp, hfree, hfails⟩
      | false =>
        have hrun : removeFile false r s₁ = .ok () (s₁.erase r) :=
          removeFile_eq_ok.mpr ⟨rfl, ⟨_, hfile, rfl⟩, rfl⟩
        refine Or.inl ?_
        rw [after_mapError, after_of_ok hrun, AList.lookup_erase, hfree]
    · exact Or.inl ((hremoved r hrt).trans (hkept r hr hrt))

/-- **The atomic write.** -/
theorem atomicWriteLinuxAutostart_ends (hpath : ∀ n, path ≠ dir ++ [tempName env n])
    (content : List UInt8) (s : Disk) :
    WriteEnds env dir path content s (atomicWriteLinuxAutostart env dir path content s) := by
  unfold atomicWriteLinuxAutostart
  cases hfound : openTemporary env dir s with
  | error contexts s₁ =>
    obtain ⟨rfl, -⟩ := createFirstFree_error hfound
    rw [bind_of_error hfound]
    exact ⟨rfl, fun r _ => Or.inl rfl⟩
  | ok found s₁ =>
    rw [bind_of_ok hfound]
    cases found with
    | none => exact absurd hfound (openTemporary_ne_none env dir s s₁)
    | some temp =>
      obtain ⟨⟨n, -, htemp⟩, hfree, rfl⟩ := createFirstFree_some hfound
      exact publishCreated_ends (fun h => hpath n (h.symm.trans htemp)) hfree ⟨n, htemp⟩ _

/-! ## The entry of an older version -/

/-- What stands at the legacy path can be read, and is an entry of the tray. -/
structure Owned (env : AutostartEnv) (legacy : Path) (s : Disk) : Prop where
  inspected : env.fails .inspectLegacy = false
  read : env.fails .readLegacy = false
  entry : ∃ (content : String) (m : FileMetadata),
    s.lookup legacy = some (.file (asBytes content) m) ∧ OwnedEntry content

theorem toArray_asBytes (content : String) :
    (⟨(asBytes content).toArray⟩ : ByteArray) = content.toUTF8 := by
  unfold asBytes
  rw [Array.toArray_toList]

theorem legacyIsOwned_iff : legacyIsOwned env legacy s = true ↔ Owned env legacy s := by
  constructor
  · intro h
    rw [legacyIsOwned, removesLegacyAutostart, Option.any_eq_true] at h
    obtain ⟨file, hfile, h⟩ := h
    obtain ⟨-, h⟩ := (Bool.and_eq_true_iff).mp h
    obtain ⟨bytes, hbytes, h⟩ := (Option.any_eq_true _ _).mp h
    obtain ⟨content, hcontent, howned⟩ := (Option.any_eq_true _ _).mp h
    split at hfile
    · cases hfile
    split at hbytes
    · cases hbytes
    rename_i hinspect hread
    split at hbytes
    · rename_i listed m hlookup
      obtain rfl := Option.some.inj hbytes
      refine ⟨by simpa using hinspect, by simpa using hread, content, m, ?_,
        (ownedLoop_iff content).mp howned⟩
      have hlisted : listed = asBytes content := by
        have hbytes := Json.fromUTF8_eq_some.mp hcontent
        exact congrArg (fun b : ByteArray => b.data.toList) hbytes
      rw [hlookup, hlisted]
    · cases hbytes
  · rintro ⟨hinspect, hread, content, m, hlookup, howned⟩
    rw [legacyIsOwned, hinspect, hread, hlookup]
    show (String.fromUTF8? ⟨(asBytes content).toArray⟩).any linuxLegacyAutostartIsOwned = true
    rw [toArray_asBytes, Json.fromUTF8_eq_some.mpr rfl]
    exact (ownedLoop_iff content).mpr howned

theorem Owned.congr (h : s'.lookup legacy = s.lookup legacy) :
    Owned env legacy s' ↔ Owned env legacy s := by
  constructor
  · rintro ⟨hinspect, hread, hentry⟩
    rw [h] at hentry
    exact ⟨hinspect, hread, hentry⟩
  · rintro ⟨hinspect, hread, hentry⟩
    rw [← h] at hentry
    exact ⟨hinspect, hread, hentry⟩

/-- **The old entry goes only if it is one**, and then only if its removal works. -/
theorem removeLegacy_ends (env : AutostartEnv) (legacy : Path) (s : Disk) :
    (∃ s', removeLegacy env legacy s = .ok () s' ∧
      (∀ r, r ≠ legacy → s'.lookup r = s.lookup r) ∧
      ((Owned env legacy s ∧ s'.lookup legacy = none) ∨ (¬ Owned env legacy s ∧ s' = s))) ∨
    ∃ contexts, removeLegacy env legacy s = .error contexts s := by
  unfold removeLegacy
  by_cases howned : legacyIsOwned env legacy s = true
  · rw [if_pos howned]
    unfold mapError
    cases hrun : removeFile (env.fails .removeLegacy) legacy s with
    | ok a s' =>
      refine Or.inl ⟨s', rfl, fun r hr => (removeFile_preserves hr).eq_of_ok hrun, Or.inl
        ⟨legacyIsOwned_iff.mp howned, ?_⟩⟩
      obtain ⟨-, -, rfl⟩ := removeFile_eq_ok.mp hrun
      exact AList.lookup_erase _ _
    | error e s' =>
      obtain rfl := clean_removeFile s e s' hrun
      exact Or.inr ⟨_, rfl⟩
  · rw [if_neg howned]
    exact Or.inl ⟨s, rfl, fun _ _ => rfl, Or.inr ⟨fun h => howned (legacyIsOwned_iff.mpr h), rfl⟩⟩

/-! ## The installation -/

/-- A directory that was missing on the way to the entries. -/
def CreatedDirectory (configHome : Path) (s s' : Disk) (r : Path) : Prop :=
  r ∈ components (autostartDir configHome) ∧ s.lookup r = none ∧
    ∃ m, m.mode = 0o700 ∧ s'.lookup r = some (.directory m)

/-- The content of the entry for the path of a helper. -/
def EntryOf (helper : Option String) (content : List UInt8) : Prop :=
  ∃ path text, helper = some path ∧ autostartEntry path = .ok text ∧ content = asBytes text

/-- How the installation ends. -/
def InstallEnds (env : AutostartEnv) (configHome : Path) (helper : Option String) (s : Disk)
    (ended : EStateM.Result (List String) Disk Path) : Prop :=
  match ended with
  | .ok path s' => path = canonicalPath configHome ∧
    (∃ content, EntryOf helper content ∧ IsNew (canonicalPath configHome) content s') ∧
    ((Owned env (legacyPath configHome) s ∧ s'.lookup (legacyPath configHome) = none) ∨
      (¬ Owned env (legacyPath configHome) s ∧
        s'.lookup (legacyPath configHome) = s.lookup (legacyPath configHome))) ∧
    ∀ r, r ≠ canonicalPath configHome → r ≠ legacyPath configHome →
      s'.lookup r = s.lookup r ∨ CreatedDirectory configHome s s' r
  | .error _ s' =>
    (s'.lookup (canonicalPath configHome) = s.lookup (canonicalPath configHome) ∨
      ∃ content, EntryOf helper content ∧ IsNew (canonicalPath configHome) content s') ∧
    ∀ r, r ≠ canonicalPath configHome →
      s'.lookup r = s.lookup r ∨ CreatedDirectory configHome s s' r ∨
        LeftBehind env (autostartDir configHome) s r

theorem canonical_ne_temp (env : AutostartEnv) (configHome : Path) (n : ℕ) :
    canonicalPath configHome ≠ autostartDir configHome ++ [tempName env n] := by
  intro h
  exact ne_tempName (by decide) n (List.singleton_inj.mp (List.append_cancel_left h))

theorem legacy_ne_canonical (configHome : Path) :
    legacyPath configHome ≠ canonicalPath configHome := by
  intro h
  exact absurd (List.singleton_inj.mp (List.append_cancel_left h)) (by decide)

/-- A name in a directory is none of the directories on the way to it. -/
theorem concat_not_mem_components (p : Path) (name : String) : p ++ [name] ∉ components p := by
  intro h
  have hle := ((List.mem_inits _ _).mp (List.mem_of_mem_tail h)).length_le
  rw [List.length_append, List.length_singleton] at hle
  omega

/-- The directories are made, and nothing else. -/
theorem createDirAll_directories (env : AutostartEnv) (configHome : Path) (s : Disk) (r : Path) :
    (after (createDirAll env.createDirFails { env.newDirectory with mode := 0o700 }
        (components (autostartDir configHome))) s).lookup r = s.lookup r ∨
      CreatedDirectory configHome s
        (after (createDirAll env.createDirFails { env.newDirectory with mode := 0o700 }
          (components (autostartDir configHome))) s) r := by
  by_cases hmem : r ∈ components (autostartDir configHome)
  · rcases createDirAll_creates (components (autostartDir configHome)) s r with
      hsame | ⟨hfree, hnew⟩
    · exact Or.inl hsame
    · exact Or.inr ⟨hmem, hfree, _, rfl, hnew⟩
  · exact Or.inl (createDirAll_preserves hmem s)

theorem CreatedDirectory.congr {s₁ s₂ : Disk} (h : CreatedDirectory configHome s s₁ r)
    (hsame : s₂.lookup r = s₁.lookup r) : CreatedDirectory configHome s s₂ r := by
  obtain ⟨hmem, hfree, hnew⟩ := h
  rw [← hsame] at hnew
  exact ⟨hmem, hfree, hnew⟩

/-- The installation after its directories. -/
theorem installEnds_of_directories {s₁ : Disk} {path text : String}
    (hdirs : ∀ r, s₁.lookup r = s.lookup r ∨ CreatedDirectory configHome s s₁ r)
    (htext : autostartEntry path = .ok text) :
    InstallEnds env configHome (some path) s ((do
      atomicWriteLinuxAutostart env (autostartDir configHome) (canonicalPath configHome)
        (asBytes text)
      removeLegacy env (legacyPath configHome)
      pure (canonicalPath configHome) : Setup Path) s₁) := by
  have hentry : EntryOf (some path) (asBytes text) := ⟨path, text, rfl, htext, rfl⟩
  have hfile : ∀ name, s₁.lookup (autostartDir configHome ++ [name]) =
      s.lookup (autostartDir configHome ++ [name]) := fun name =>
    (hdirs _).resolve_right fun h => concat_not_mem_components _ _ h.1
  have hwrite := atomicWriteLinuxAutostart_ends (canonical_ne_temp env configHome)
    (asBytes text) s₁
  cases hrun : atomicWriteLinuxAutostart env (autostartDir configHome) (canonicalPath configHome)
      (asBytes text) s₁ with
  | error contexts s₂ =>
    rw [hrun] at hwrite
    obtain ⟨hold, hother⟩ := hwrite
    rw [bind_of_error hrun]
    refine ⟨Or.inl (hold.trans (hfile _)), fun r hr => ?_⟩
    rcases hother r hr with hsame | ⟨htemp, hfree, hremoval⟩
    · rcases hdirs r with hold | hcreated
      · exact Or.inl (hsame.trans hold)
      · exact Or.inr (Or.inl (hcreated.congr hsame))
    · obtain ⟨n, rfl⟩ := htemp
      exact Or.inr (Or.inr ⟨⟨n, rfl⟩, (hfile _).symm.trans hfree, hremoval⟩)
  | ok a s₂ =>
    rw [hrun] at hwrite
    obtain ⟨hnew, hother⟩ := hwrite
    rw [bind_of_ok hrun]
    have hlegacy : s₂.lookup (legacyPath configHome) = s.lookup (legacyPath configHome) :=
      (hother _ (legacy_ne_canonical configHome)).trans (hfile _)
    have hrest : ∀ r, r ≠ canonicalPath configHome →
        s₂.lookup r = s.lookup r ∨ CreatedDirectory configHome s s₂ r := by
      intro r hr
      rcases hdirs r with hold | hcreated
      · exact Or.inl ((hother r hr).trans hold)
      · exact Or.inr (hcreated.congr (hother r hr))
    rcases removeLegacy_ends env (legacyPath configHome) s₂ with
      ⟨s₃, hok, hsame, hgone⟩ | ⟨contexts, herror⟩
    · rw [bind_of_ok hok]
      refine ⟨rfl, ⟨_, hentry, ?_⟩, ?_, fun r hr hrl => ?_⟩
      · obtain ⟨m, hmode, hm⟩ := hnew
        exact ⟨m, hmode, (hsame _ (legacy_ne_canonical configHome).symm).trans hm⟩
      · rcases hgone with ⟨howned, hnone⟩ | ⟨hnot, rfl⟩
        · exact Or.inl ⟨(Owned.congr hlegacy).mp howned, hnone⟩
        · exact Or.inr ⟨fun h => hnot ((Owned.congr hlegacy).mpr h), hlegacy⟩
      · rcases hrest r hr with hold | hcreated
        · exact Or.inl ((hsame r hrl).trans hold)
        · exact Or.inr (hcreated.congr (hsame r hrl))
    · rw [bind_of_error herror]
      refine ⟨Or.inr ⟨_, hentry, hnew⟩, fun r hr => ?_⟩
      rcases hrest r hr with hold | hcreated
      · exact Or.inl hold
      · exact Or.inr (Or.inl hcreated)

/-- **What an installation does**, whatever fails in it. -/
theorem autostart_installed (env : AutostartEnv) (configHome : Path) (helper : Option String)
    (s : Disk) :
    (∀ s s', openTemporary env (autostartDir configHome) s ≠ .ok none s') ∧
      InstallEnds env configHome helper s
        (installLinuxTrayAutostartAt env configHome helper s) := by
  refine ⟨openTemporary_ne_none env _, ?_⟩
  cases helper with
  | none => exact ⟨Or.inl rfl, fun _ _ => Or.inl rfl⟩
  | some path =>
    have hdirs := createDirAll_directories env configHome s
    unfold installLinuxTrayAutostartAt
    cases hmade : (createDirAll env.createDirFails { env.newDirectory with mode := 0o700 }
        (components (autostartDir configHome)) : DiskIo Unit) s with
    | error e s₁ =>
      rw [after_of_error hmade] at hdirs
      dsimp only
      rw [bind_of_error (mapError_of_error hmade)]
      refine ⟨Or.inl ((hdirs _).resolve_right fun h => concat_not_mem_components _ _ h.1),
        fun r _ => (hdirs r).imp id Or.inl⟩
    | ok a s₁ =>
      rw [after_of_ok hmade] at hdirs
      dsimp only
      rw [bind_of_ok (mapError_eq_ok.mpr hmade)]
      cases htext : autostartEntry path with
      | error e =>
        exact ⟨Or.inl ((hdirs _).resolve_right fun h => concat_not_mem_components _ _ h.1),
          fun r _ => (hdirs r).imp id Or.inl⟩
      | ok text => exact installEnds_of_directories hdirs htext

end Autostart

end Wakezilla
