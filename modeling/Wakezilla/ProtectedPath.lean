/-
# The path of the protected binary

systemd starts the published binary as root, so nobody else may be able to replace it or a
directory above it.  `begin_protected_binary_update` walks down the path of the directory,
creates what is missing, inspects every directory before and after, and only then publishes.

`prepareComponents_eq_ok` is the walk: the induction is over the components that are left, and
what was inspected stays as it is because a later component is another entry.
`published_binary_protected` says what an update that was begun has established, and that
nothing is published over an unsafe path.
-/
import Wakezilla.ServiceInstall

namespace Wakezilla

open FileSystem Fallible

/-! ## The source as it is given -/

/-- A path as it is passed: absolute, or relative to the working directory. -/
inductive GivenPath
  | absolute (path : Path)
  | relative (path : Path)
  deriving DecidableEq

/-- `begin_protected_binary_update`, with its test of the path of the source. -/
def beginProtectedBinaryUpdateFrom (env : InstallEnv) (mode : Mode) (source : GivenPath)
    (s : Disk) : Begun × Disk :=
  match source with
  | .relative _ => (.refused .other, s)
  | .absolute path => beginProtectedBinaryUpdate env mode path s

/-! ## What is protected -/

/-- `dir` lies above `path`, and is not the root. -/
def Above (dir path : Path) : Prop := dir ≠ [] ∧ dir ≠ path ∧ dir <+: path

/-- A real directory of root with the permission bits `0755`. -/
def ProtectedDirectory (s : Disk) (path : Path) : Prop :=
  ∃ m, s.lookup path = some (.directory m) ∧ m.uid = 0 ∧ m.gid = 0 ∧ m.mode &&& 0o777 = 0o755

/-- A regular file of root with the permission bits `0755`. -/
def ProtectedFile (s : Disk) (path : Path) : Prop :=
  ∃ bytes m, s.lookup path = some (.file bytes m) ∧
    m.uid = 0 ∧ m.gid = 0 ∧ m.mode &&& 0o777 = 0o755

/-- Something stands on the way to the binary, or in its place, that is not protected. -/
def UnsafeTarget (mode : Mode) (s : Disk) : Prop :=
  (∃ dir, Above dir (linuxServiceBinaryPath mode) ∧ s.lookup dir ≠ none ∧
      ¬ ProtectedDirectory s dir) ∨
    (s.lookup (linuxServiceBinaryPath mode) ≠ none ∧
      ¬ ProtectedFile s (linuxServiceBinaryPath mode))

/-- The source is an absolute path at which a regular file stands. -/
def RegularSource (source : GivenPath) (s : Disk) : Prop :=
  ∃ path bytes m, source = .absolute path ∧ s.lookup path = some (.file bytes m)

theorem protectedDirectory_iff {s : Disk} {path : Path} :
    ProtectedDirectory s path ↔
      ∃ node, s.lookup path = some node ∧ Node.isProtectedDirectory 0 0 node = true := by
  constructor
  · rintro ⟨m, hthere, huid, hgid, hmode⟩
    exact ⟨_, hthere, decide_eq_true ⟨huid, hgid, hmode⟩⟩
  · rintro ⟨node, hthere, hnode⟩
    cases node with
    | directory m => exact ⟨m, hthere, of_decide_eq_true hnode⟩
    | file bytes m => cases hnode
    | other => cases hnode

theorem mem_components {dir path : Path} :
    dir ∈ components path ↔ dir ≠ [] ∧ dir <+: path := by
  rw [← List.mem_inits, components]
  cases path with
  | nil => simp
  | cons name rest =>
    rw [List.inits_cons, List.tail_cons, List.mem_cons]
    constructor
    · intro h
      refine ⟨?_, Or.inr h⟩
      rintro rfl
      obtain ⟨t, -, ht⟩ := List.mem_map.mp h
      cases ht
    · rintro ⟨hne, h⟩
      exact h.resolve_left hne

/-- The directories above the binary are those that are prepared. -/
theorem above_linuxServiceBinaryPath {mode : Mode} {dir : Path} :
    Above dir (linuxServiceBinaryPath mode) ↔ dir ∈ components serviceDirectory := by
  rw [mem_components, Above, linuxServiceBinaryPath, List.prefix_concat_iff]
  constructor
  · rintro ⟨hne, hself, hprefix⟩
    exact ⟨hne, hprefix.resolve_left hself⟩
  · rintro ⟨hne, hprefix⟩
    refine ⟨hne, ?_, Or.inr hprefix⟩
    rintro rfl
    have hlength := hprefix.length_le
    rw [List.length_append, List.length_singleton] at hlength
    omega

/-! ## One directory -/

section Directory

variable {env : InstallEnv} {s s' : Disk}

/-- The look at a directory of the path, before anything is created. -/
theorem inspectDirectory_cases (fails : Bool) (path : Path) (uid gid : ℕ) (s : Disk) :
    let inspected : DiskIo Bool := do
      let node ← symlinkMetadata fails path
      require (Node.isProtectedDirectory uid gid node) .other
      pure false
    (inspected s = .ok false s ∧
        ∃ node, s.lookup path = some node ∧ Node.isProtectedDirectory uid gid node = true) ∨
      (inspected s = .error .notFound s ∧ s.lookup path = none) ∨
      inspected s = .error .other s := by
  intro inspected
  cases fails with
  | true => exact Or.inr (Or.inr rfl)
  | false =>
    cases hnode : s.lookup path with
    | none =>
      have hmissing : symlinkMetadata false path s = .error .notFound s := by
        simp [symlinkMetadata, attempt, hnode]
      exact Or.inr (Or.inl ⟨bind_of_error hmissing, rfl⟩)
    | some node =>
      have hfound : symlinkMetadata false path s = .ok node s :=
        symlinkMetadata_eq_ok.mpr ⟨rfl, hnode, rfl⟩
      have hrun : inspected s = _ := bind_of_ok hfound
      rw [hrun]
      cases hprotected : Node.isProtectedDirectory uid gid node with
      | true => exact Or.inl ⟨rfl, node, rfl, hprotected⟩
      | false => exact Or.inr (Or.inr rfl)

/-- **A directory that passes is protected**, and was before, if it was there. -/
theorem ensureUnixServiceDirectoryAt_eq_ok {fails : DirectoryStep → Bool}
    {created : FileMetadata} {path : Path} {uid gid : ℕ} {isNew : Bool}
    (h : ensureUnixServiceDirectoryAt fails created path uid gid s = .ok isNew s') :
    (∃ node, s'.lookup path = some node ∧ Node.isProtectedDirectory uid gid node = true) ∧
      ∀ node, s.lookup path = some node → Node.isProtectedDirectory uid gid node = true := by
  obtain ⟨isNew', s₁, hinspect, h₁⟩ := bind_eq_ok.mp h
  obtain ⟨opened, s₂, -, h₂⟩ := bind_eq_ok.mp h₁
  obtain ⟨_, s₃, -, h₃⟩ := bind_eq_ok.mp h₂
  constructor
  · -- however the directory came about, it is inspected at the end
    have hlast : ∀ s₄, (do
        require (!fails .sync) .other
        let node ← symlinkMetadata (fails .inspectAgain) path
        require (Node.isProtectedDirectory uid gid node) .other
        pure isNew' : DiskIo Bool) s₄ = .ok isNew s' →
        ∃ node, s'.lookup path = some node ∧ Node.isProtectedDirectory uid gid node = true := by
      intro s₄ h₄
      obtain ⟨_, s₅, -, h₅⟩ := bind_eq_ok.mp h₄
      obtain ⟨node, s₆, hnode, h₆⟩ := bind_eq_ok.mp h₅
      obtain ⟨_, s₇, hcheck, h₇⟩ := bind_eq_ok.mp h₆
      obtain ⟨-, hthere, rfl⟩ := symlinkMetadata_eq_ok.mp hnode
      obtain ⟨hprotected, rfl⟩ := require_eq_ok.mp hcheck
      obtain ⟨-, rfl⟩ := pure_eq_ok.mp h₇
      exact ⟨node, hthere, hprotected⟩
    cases isNew' with
    | true =>
      obtain ⟨_, s₄, -, h₄⟩ := bind_eq_ok.mp h₃
      obtain ⟨_, s₅, -, h₅⟩ := bind_eq_ok.mp h₄
      exact hlast s₅ h₅
    | false => exact hlast s₃ h₃
  · intro node hnode
    rcases inspectDirectory_cases (fails .inspect) path uid gid s with
      ⟨-, node', hnode', hprotected⟩ | ⟨-, hmissing⟩ | hrefused
    · rw [Option.some.inj (hnode.symm.trans hnode')]
      exact hprotected
    · rw [hmissing] at hnode
      cases hnode
    · rcases recovering_eq_ok.mp hinspect with hok | ⟨e, s₀, herror, haccepted, -⟩
      · rw [hrefused] at hok
        cases hok
      · rw [hrefused] at herror
        obtain ⟨rfl, -⟩ := EStateM.Result.error.inj herror
        cases haccepted

/-- What is there is only inspected. -/
theorem ensureUnixServiceDirectoryAt_of_some {fails : DirectoryStep → Bool}
    {created : FileMetadata} {path : Path} {uid gid : ℕ} {node : Node FileMetadata}
    (h : s.lookup path = some node) :
    after (ensureUnixServiceDirectoryAt fails created path uid gid) s = s := by
  have hrest : ReadOnly (do
      let opened ← symlinkMetadata (fails .openDirectory) path
      require opened.isDirectory .other
      require (!fails .sync) .other
      let node ← symlinkMetadata (fails .inspectAgain) path
      require (Node.isProtectedDirectory uid gid node) .other
      pure false : DiskIo Bool) :=
    readOnly_symlinkMetadata.bind fun _ => ReadOnly.require.bind fun _ =>
      ReadOnly.require.bind fun _ => readOnly_symlinkMetadata.bind fun _ =>
        ReadOnly.require.bind fun _ => ReadOnly.pure
  rcases inspectDirectory_cases (fails .inspect) path uid gid s with
    ⟨hok, -⟩ | ⟨-, hmissing⟩ | herror
  · exact (after_bind_of_ok (recovering_of_ok hok)).trans (hrest s)
  · rw [hmissing] at h
    cases h
  · exact after_bind_of_error (recovering_of_error herror rfl)

/-- The entry was protected already, if it was there. -/
def Unharmed (s : Disk) (path : Path) : Prop :=
  ∀ node, s.lookup path = some node → Node.isProtectedDirectory 0 0 node = true

/-! ## The walk -/

/-- The look at a component whether it is missing changes nothing. -/
theorem readOnly_probe {fails : Bool} {path : Path} :
    ReadOnly (recovering (fun e => e = .notFound) (pure true) (do
      let _ ← symlinkMetadata fails path
      pure false) : DiskIo Bool) := by
  have hprobe : Preserves (fun s : Disk => s) (do
      let _ ← symlinkMetadata fails path
      pure false : DiskIo Bool) :=
    readOnly_symlinkMetadata.preserves.bind fun _ _ _ _ => ReadOnly.pure.preserves
  exact Preserves.recovering hprobe ReadOnly.pure.preserves

/-- **The walk leaves protected directories only**, and passes no other. -/
theorem prepareComponents_eq_ok {path : Path} {paths : List Path} {finalCreated isNew : Bool}
    (h : prepareComponents env path paths finalCreated s = .ok isNew s') :
    ∀ p ∈ paths, ProtectedDirectory s' p ∧ Unharmed s p := by
  induction paths generalizing finalCreated s with
  | nil =>
    intro p hp
    cases hp
  | cons current rest ih =>
    obtain ⟨missing, s₁, hprobe, h₁⟩ := bind_eq_ok.mp h
    obtain ⟨_, s₂, hensure, hrest⟩ := bind_eq_ok.mp h₁
    obtain rfl := readOnly_probe.eq_of_ok hprobe
    obtain ⟨hprotected, hunharmed⟩ := ensureUnixServiceDirectoryAt_eq_ok hensure
    intro p hp
    by_cases hmem : p ∈ rest
    · obtain ⟨hlast, hbefore⟩ := ih hrest p hmem
      refine ⟨hlast, ?_⟩
      by_cases heq : p = current
      · rw [heq]
        exact hunharmed
      · -- the step on `current` does not reach `p`
        have hkept : Preserves (fun s : Disk => s.lookup p)
            (ensureUnixServiceDirectoryAt (env.directoryFails current) env.created current 0 0) :=
          ensureUnixServiceDirectoryAt_preserves (ignoresDirectory_of_ne heq)
        intro node hnode
        exact hbefore node ((hkept.eq_of_ok hensure).trans hnode)
    · obtain rfl := (List.mem_cons.mp hp).resolve_right hmem
      refine ⟨?_, hunharmed⟩
      have hother : ∀ q ∈ rest, IgnoresDirectory (fun s : Disk => s.lookup p) q := by
        intro q hq
        apply ignoresDirectory_of_ne
        rintro rfl
        exact hmem hq
      have hkept : ∀ final, Preserves (fun s : Disk => s.lookup p)
          (prepareComponents env path rest final) := prepareComponents_preserves hother
      obtain ⟨node, hthere, hnode⟩ := hprotected
      exact protectedDirectory_iff.mpr ⟨node, ((hkept _).eq_of_ok hrest).trans hthere, hnode⟩

theorem prepareUnixServiceDirectory_eq_ok {path : Path} {isNew : Bool}
    (h : prepareUnixServiceDirectory env path s = .ok isNew s') :
    ∀ p ∈ components path, ProtectedDirectory s' p ∧ Unharmed s p := by
  obtain ⟨finalCreated, s₁, hwalk, h₁⟩ := bind_eq_ok.mp h
  intro p hp
  obtain ⟨hprotected, hunharmed⟩ := prepareComponents_eq_ok hwalk p hp
  refine ⟨?_, hunharmed⟩
  cases finalCreated with
  | true =>
    obtain ⟨-, rfl⟩ := pure_eq_ok.mp h₁
    exact hprotected
  | false =>
    obtain ⟨_, s₂, hensure, h₂⟩ := bind_eq_ok.mp h₁
    obtain ⟨-, rfl⟩ := pure_eq_ok.mp h₂
    by_cases heq : p = path
    · rw [heq]
      exact protectedDirectory_iff.mpr (ensureUnixServiceDirectoryAt_eq_ok hensure).1
    · have hkept : Preserves (fun s : Disk => s.lookup p)
          (ensureUnixServiceDirectoryAt env.lastDirectoryFails env.created path 0 0) :=
        ensureUnixServiceDirectoryAt_preserves (ignoresDirectory_of_ne heq)
      obtain ⟨m, hthere, hm⟩ := hprotected
      exact ⟨m, (hkept.eq_of_ok hensure).trans hthere, hm⟩

end Directory

/-! ## The publication -/

section Publication

variable {env : InstallEnv} {mode : Mode} {path : Path} {s s' : Disk}

/-- No directory above the binary lies in the directory of the binary. -/
theorem parent_ne_of_mem_components {dir : Path} (h : dir ∈ components serviceDirectory) :
    parent dir ≠ parent (linuxServiceBinaryPath mode) := by
  rw [parent_linuxServiceBinaryPath]
  revert dir
  decide

/-- The path and the source of an update that passes the checks. -/
theorem safe_of_inspectPaths {isNew : Bool} {s₁ s₂ : Disk} {dir : Path}
    (hprepare : prepareUnixServiceDirectory env serviceDirectory s = .ok isNew s₁)
    (hpaths : inspectPaths env.update (serviceRequest mode path) s₁ = .ok dir s₂) :
    ¬ UnsafeTarget mode s ∧ RegularSource (.absolute path) s := by
  obtain ⟨-, -, ⟨-, source, hsource, hfile⟩, -, -, hdestination⟩ := inspectPaths_eq_ok.mp hpaths
  constructor
  · rintro (⟨dir, habove, hthere, hnot⟩ | ⟨hthere, hnot⟩)
    · have hmem := above_linuxServiceBinaryPath.mp habove
      obtain ⟨-, hunharmed⟩ := prepareUnixServiceDirectory_eq_ok hprepare dir hmem
      obtain ⟨node, hnode⟩ := Option.ne_none_iff_exists'.mp hthere
      exact hnot (protectedDirectory_iff.mpr ⟨node, hnode, hunharmed node hnode⟩)
    · have hkept := (prepare_preserves_destination env mode).eq_of_ok hprepare
      obtain ⟨node, hnode⟩ := Option.ne_none_iff_exists'.mp hthere
      have hprotected := hdestination node (hkept.trans hnode)
      apply hnot
      cases node with
      | file bytes m => exact ⟨bytes, m, hnode, of_decide_eq_true hprotected⟩
      | directory m => cases hprotected
      | other => cases hprotected
  · have hkept := (prepare_preserves_files env path).eq_of_ok hprepare
    have hthere : fileAt path s = some source := by
      rw [← hkept]
      exact fileAt_eq_some.mpr ⟨hsource, hfile⟩
    cases source with
    | file bytes m => exact ⟨path, bytes, m, rfl, (fileAt_eq_some.mp hthere).1⟩
    | directory m => cases hfile
    | other => cases hfile

/-- **What an update that was begun has established.** -/
theorem begun_protected {u : UnixProtectedBinaryUpdate}
    (h : beginProtectedBinaryUpdate env mode path s = (.update u, s')) :
    (∃ bytes m, s.lookup path = some (.file bytes m) ∧
        s'.lookup (linuxServiceBinaryPath mode) = some (.file bytes ⟨0, 0, 0o755⟩)) ∧
      ∀ dir ∈ components serviceDirectory, ProtectedDirectory s' dir := by
  obtain ⟨isNew, s₁, u', hprepare, hbegun, -⟩ := begun_of_beginProtectedBinaryUpdate h
  have hpublish := publishUpdate_of_begun hbegun
  constructor
  · obtain ⟨bytes, m, hsource, hpublished⟩ := publishUpdate_published hpublish
    have hthere : fileAt path s = some (.file bytes m) := by
      rw [← (prepare_preserves_files env path).eq_of_ok hprepare]
      exact fileAt_eq_some.mpr ⟨hsource, rfl⟩
    exact ⟨bytes, m, (fileAt_eq_some.mp hthere).1, hpublished⟩
  · intro dir hdir
    obtain ⟨⟨m, hdirectory, hm⟩, -⟩ := prepareUnixServiceDirectory_eq_ok hprepare dir hdir
    have hkept : Preserves (fun s : Disk => s.lookup dir)
        (publishUpdate env.update (serviceRequest mode path)) :=
      publishUpdate_preserves_of_parent_ne (parent_ne_of_mem_components hdir)
    exact ⟨m, (hkept.eq_of_ok hpublish).trans hdirectory, hm⟩

/-- An update with an unsafe path or source is not begun. -/
theorem not_begun (hexposed : UnsafeTarget mode s ∨ ¬ RegularSource (.absolute path) s)
    (u : UnixProtectedBinaryUpdate) :
    (beginProtectedBinaryUpdate env mode path s).1 ≠ .update u := by
  intro hbegun
  obtain ⟨isNew, s₁, u', hprepare, hupdate, -⟩ :=
    begun_of_beginProtectedBinaryUpdate (Prod.ext hbegun rfl)
  obtain ⟨dir, s₂, hpaths, -⟩ := bind_eq_ok.mp (publishUpdate_of_begun hupdate)
  obtain ⟨hsafe, hsource⟩ := safe_of_inspectPaths hprepare hpaths
  rcases hexposed with htarget | hnot
  · exact hsafe htarget
  · exact hnot hsource

/-- **An update that fails its checks leaves the binary alone.** -/
theorem refused_lookup (hexposed : UnsafeTarget mode s ∨ ¬ RegularSource (.absolute path) s) :
    (beginProtectedBinaryUpdate env mode path s).2.lookup (linuxServiceBinaryPath mode) =
      s.lookup (linuxServiceBinaryPath mode) := by
  have hkept := prepare_preserves_destination env mode
  rcases beginProtectedBinaryUpdate_cases env mode path s with
    ⟨e, s₁, hprepare, hbegin⟩ | ⟨isNew, s₁, begun, s₂, hprepare, hbegun, hbegin⟩
  · rw [hbegin]
    exact hkept.eq_of_error hprepare
  · obtain ⟨e, hpublish⟩ : ∃ e, publishUpdate env.update (serviceRequest mode path) s₁ =
        .error e s₁ := by
      cases hpaths : inspectPaths env.update (serviceRequest mode path) s₁ with
      | ok dir s₂ =>
        obtain ⟨hsafe, hsource⟩ := safe_of_inspectPaths hprepare hpaths
        rcases hexposed with htarget | hnot
        · exact absurd htarget hsafe
        · exact absurd hsource hnot
      | error e s₂ => exact ⟨e, publishUpdate_of_inspectPaths_error hpaths⟩
    have hrefused : beginUnixProtectedBinaryUpdateAt env.update (serviceRequest mode path) s₁ =
        (.refused e, s₁) := by
      unfold beginUnixProtectedBinaryUpdateAt
      rw [hpublish]
    rw [hrefused] at hbegun
    obtain ⟨rfl, rfl⟩ := Prod.mk.inj hbegun
    rcases hbegin with ⟨u, hu, -⟩ | ⟨-, s₃, hbegin, hremoved⟩
    · cases hu
    · -- the directory that was created may be removed again
      have hne : linuxServiceBinaryPath mode ≠ serviceDirectory :=
        ne_of_parent (parent_linuxServiceBinaryPath mode)
      rw [hbegin]
      exact (hremoved _ hne).trans (hkept.eq_of_ok hprepare)

end Publication

/-- **A published binary is protected along its whole path.**  An update that was begun leaves
the source's bytes at the destination, as a file of root with mode `0755`, and above it, up to
the root, real directories of root with mode `0755`.  Where something else stands on that path,
or the source is not an absolute path of a regular file, no update is begun and the destination
is left alone. -/
theorem published_binary_protected (env : InstallEnv) (mode : Mode) (source : GivenPath)
    (s : Disk) :
    (∀ u s', beginProtectedBinaryUpdateFrom env mode source s = (.update u, s') →
        (∃ path bytes m, source = .absolute path ∧ s.lookup path = some (.file bytes m) ∧
          s'.lookup (linuxServiceBinaryPath mode) = some (.file bytes ⟨0, 0, 0o755⟩)) ∧
        ∀ dir, Above dir (linuxServiceBinaryPath mode) → ProtectedDirectory s' dir) ∧
      (UnsafeTarget mode s ∨ ¬ RegularSource source s →
        (∀ u, (beginProtectedBinaryUpdateFrom env mode source s).1 ≠ .update u) ∧
          (beginProtectedBinaryUpdateFrom env mode source s).2.lookup
            (linuxServiceBinaryPath mode) = s.lookup (linuxServiceBinaryPath mode)) := by
  cases source with
  | relative path =>
    constructor
    · intro u s' h
      cases h
    · exact fun _ => ⟨fun u h => (by cases h), rfl⟩
  | absolute path =>
    constructor
    · intro u s' h
      obtain ⟨⟨bytes, m, hsource, hpublished⟩, hdirectories⟩ := begun_protected h
      exact ⟨⟨path, bytes, m, rfl, hsource, hpublished⟩,
        fun dir habove => hdirectories dir (above_linuxServiceBinaryPath.mp habove)⟩
    · exact fun hexposed => ⟨not_begun hexposed, refused_lookup hexposed⟩

/-- A first installation, where `/usr/local` has nothing in it. -/
example :
    let env : InstallEnv :=
      { update := ⟨fun _ => false, fun _ => false, fun _ => false, fun _ => false, "1", "2",
          ⟨1000, 1000, 0o600⟩⟩
        directoryFails := fun _ _ => false, lastDirectoryFails := fun _ => false
        removeDirectoryFails := false, created := ⟨1000, 1000, 0o700⟩
        descriptorFails := fun _ => false, descriptorSuffix := "3", checkFails := fun _ => false
        commandFails := fun _ => none, unreachable := none }
    let disk : Disk := [(["tmp", "wakezilla"], Node.file [7] ⟨1000, 1000, 0o755⟩),
      (["usr"], .directory ⟨0, 0, 0o755⟩), (["usr", "local"], .directory ⟨0, 0, 0o755⟩)].foldl
        (fun disk entry => disk.insert entry.1 entry.2) ∅
    (beginProtectedBinaryUpdateFrom env .proxy (.absolute ["tmp", "wakezilla"]) disk).2.lookup
      (linuxServiceBinaryPath .proxy) = some (.file [7] ⟨0, 0, 0o755⟩) := by
  decide

end Wakezilla
