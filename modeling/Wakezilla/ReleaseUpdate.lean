/-
# Updating the program from a release

`update` (`src/update.rs`) asks for a release, downloads its archive and its checksums,
verifies the archive, unpacks it in a new temporary directory, and replaces the running
executable and its tray helper by what it finds there.  Each file is staged next to its
destination and moved over it.  What reads the archive is not part of the repository and comes as
a parameter (`ReleaseEnv.unpackInto`).

`findBinaryInDir_spec` is about the search of the unpacked tree, in whatever order the
directories list their entries.
-/
import Wakezilla.Checksums
import Wakezilla.ServiceInstall
import Wakezilla.Library.TreeSearch

namespace Wakezilla

open FileSystem Fallible TreeSearch

namespace Release

/-! ## Names of a release -/

/-- `GitHubAsset`. -/
structure GitHubAsset where
  name : String
  browserDownloadUrl : String
  deriving DecidableEq

/-- `GitHubRelease`. -/
structure GitHubRelease where
  tagName : String
  prerelease : Bool
  assets : List GitHubAsset
  deriving DecidableEq

/-- `str::strip_prefix`. -/
def stripPrefix (lead s : String) : Option String :=
  if lead.toList <+: s.toList then some (String.ofList (s.toList.drop lead.toList.length))
  else none

/-- `str::strip_suffix`. -/
def stripSuffix (tail s : String) : Option String :=
  if tail.toList <:+ s.toList then
    some (String.ofList (s.toList.take (s.toList.length - tail.toList.length)))
  else none

/-- `normalize_tag`. -/
def normalizeTag (tag : String) : String :=
  ((stripPrefix "wakezilla/v" tag).or (stripPrefix "v" tag)).getD tag

/-- `release_api_url`. -/
def releaseApiUrl : Option String → String
  | some version =>
    "https://api.github.com/repos/guibeira/wakezilla/releases/tags/v" ++ normalizeTag version
  | none => "https://api.github.com/repos/guibeira/wakezilla/releases/latest"

/-- `checksum_url`. -/
def checksumUrl (version : String) : String :=
  "https://github.com/guibeira/wakezilla/releases/download/v" ++ normalizeTag version ++
    "/SHA256SUMS"

/-- `asset_name`. -/
def assetName (version target : String) : String :=
  "wakezilla-" ++ normalizeTag version ++ "-" ++ target ++ ".tar.gz"

/-- `binary_name_for_target`. -/
def binaryNameForTarget (target : String) : String :=
  if "windows".toList <:+: target.toList then "wakezilla.exe" else "wakezilla"

/-- `tray_helper_name_for_target`. -/
def trayHelperNameForTarget (target : String) : String :=
  if "windows".toList <:+: target.toList then "wakezilla-tray.exe" else "wakezilla-tray"

/-- The architectures of releases. -/
def releaseArch (arch : String) : Except String String :=
  if arch = "x86_64" ∨ arch = "amd64" then .ok "x86_64"
  else if arch = "aarch64" ∨ arch = "arm64" then .ok "aarch64"
  else .error ("unsupported architecture for Wakezilla releases: " ++ arch)

/-- `target_from_parts`. -/
def targetFromParts (os arch : String) (libc : Option String) : Except String String := do
  let arch ← releaseArch arch
  if os = "linux" then
    .ok (arch ++ "-unknown-linux-" ++ (libc.filter (· ≠ "")).getD "gnu")
  else if os = "macos" ∨ os = "darwin" then .ok (arch ++ "-apple-darwin")
  else if os = "windows" then
    if arch = "x86_64" then .ok "x86_64-pc-windows-msvc"
    else .error ("unsupported architecture for Windows Wakezilla releases: " ++ arch)
  else .error ("unsupported OS for Wakezilla releases: " ++ os)

/-- `available_targets`. -/
def availableTargets (release : GitHubRelease) : List String :=
  let lead := "wakezilla-" ++ normalizeTag release.tagName ++ "-"
  let targets := release.assets.filterMap fun asset =>
    (stripPrefix lead asset.name).bind (stripSuffix ".tar.gz")
  (targets.mergeSort fun a b => decide (a ≤ b)).destutter (· ≠ ·)

/-- `select_asset`. -/
def selectAsset (release : GitHubRelease) (target : String) : Except String GitHubAsset :=
  let expected := assetName (normalizeTag release.tagName) target
  match release.assets.find? fun asset => asset.name = expected with
  | some asset => .ok asset
  | none =>
    let available := availableTargets release
    .error ("no release asset found for target " ++ target ++ "; expected " ++ expected ++
      "; available targets: " ++
      (if available.isEmpty then "none" else String.intercalate ", " available))

/-! ## The decision -/

/-- The `semver` crate. -/
structure SemverCrate where
  Version : Type
  parse : String → Except String Version
  preIsEmpty : Version → Bool
  cmpPrecedence : Version → Version → Ordering

/-- `UpdateStatus`. -/
inductive UpdateStatus
  | current (current : String)
  | available (current latest : String)
  deriving DecidableEq

/-- `with_context`: an error is the list of its contexts, outermost first. -/
def withContext {α : Type} (context : String) : Except String α → Except (List String) α
  | .ok a => .ok a
  | .error e => .error [context, e]

/-- `status_from_release`. -/
def statusFromRelease (semver : SemverCrate) (current : String) (release : GitHubRelease) :
    Except (List String) UpdateStatus :=
  let latest := normalizeTag release.tagName
  if release.prerelease then .ok (.current current)
  else do
    let currentVersion ← withContext ("failed to parse current version '" ++ current ++ "'")
      (semver.parse current)
    let latestVersion ← withContext ("failed to parse latest version '" ++ latest ++ "'")
      (semver.parse latest)
    if !semver.preIsEmpty latestVersion then .ok (.current current)
    else if semver.cmpPrecedence currentVersion latestVersion = .lt then
      .ok (.available current latest)
    else .ok (.current current)

/-! ## The downloads -/

/-- A request as `github_request` builds it. -/
structure GithubRequest where
  url : String
  headers : List (String × String)
  deriving DecidableEq

/-- What comes of a request: no answer, or a status, whether it is one of success, and a body
that is read or not. -/
inductive Fetched
  | unsent (error : String)
  | answered (status : String) (success : Bool) (body : Except String (List UInt8))

/-- The order in which a directory yields its entries. -/
structure EntryOrder where
  arrange : List Path → List Path
  perm : ∀ entries, (arrange entries).Perm entries

/-- The fallible steps of `install_binary`. -/
inductive InstallStep
  | inspectDirectory | inspectStage | removeStage | readSource | createStage | copyPermissions
  | setPermissions | publish | dropStage
  deriving DecidableEq

/-- What fails in an `install_binary`; a copy that does not come to its end has written so many
bytes. -/
structure InstallFaults where
  fails : InstallStep → Bool
  copied : Option ℕ

/-- The fallible steps of `run_update` on the disk, apart from those of `install_binary`. -/
inductive DiskStep
  | createTempDir | createArchive | writeArchive | createExtractDir | openArchive | removeHelper
  deriving DecidableEq

/-- What `run_update` finds around it. -/
structure ReleaseEnv where
  version : String
  githubToken : Option String
  os : String
  arch : String
  libc : Option String
  get : GithubRequest → Fetched
  parseRelease : List UInt8 → Except String GitHubRelease
  semver : SemverCrate
  digest : List UInt8 → Vector UInt8 32
  /-- `Archive::unpack` of a compressed archive. -/
  unpackInto : List UInt8 → Path → DiskIo Unit
  tempDir : Path
  currentExe : Option Path
  processId : ℕ
  newDirectory : FileMetadata
  newFile : FileMetadata
  order : EntryOrder
  statFails : Path → Bool
  readDirFails : Path → Bool
  entryFails : Path → Bool
  fileTypeFails : Path → Bool
  /-- Where a link leads, if a file is there or could be made there. -/
  linked : Path → Option Path
  fails : DiskStep → Bool
  executable : InstallFaults
  helper : InstallFaults
  /-- What is left when the temporary directory is removed. -/
  leftBehind : Path → Bool

/-- `github_request`. -/
def githubRequest (env : ReleaseEnv) (url : String) : GithubRequest where
  url := url
  headers :=
    [("accept", "application/vnd.github+json"), ("X-GitHub-Api-Version", "2022-11-28"),
      ("user-agent", "wakezilla/" ++ env.version)] ++
    match env.githubToken with
    | some token => if isBlank token then [] else [("authorization", "Bearer " ++ token)]
    | none => []

/-- `fetch_release`. -/
def fetchRelease (env : ReleaseEnv) (version : Option String) :
    Except (List String) GitHubRelease :=
  let url := releaseApiUrl version
  match env.get (githubRequest env url) with
  | .unsent e => .error ["failed to fetch release metadata from " ++ url, e]
  | .answered status success body =>
    if !success then
      .error ["GitHub release request failed with " ++ status ++ " for " ++ url]
    else withContext "failed to parse GitHub release metadata" (body.bind env.parseRelease)

/-- `download_bytes`. -/
def downloadBytes (env : ReleaseEnv) (url label : String) : Except (List String) (List UInt8) :=
  match env.get (githubRequest env url) with
  | .unsent e => .error ["failed to download " ++ label, e]
  | .answered status success body =>
    if !success then .error ["download failed with " ++ status ++ " for " ++ label]
    else withContext ("failed to read downloaded " ++ label) body

/-- `String::from_utf8`. -/
def fromUtf8 (bytes : List UInt8) : Except String String :=
  match String.fromUTF8? ⟨bytes.toArray⟩ with
  | some text => .ok text
  | none => .error "invalid utf-8 sequence"

/-- What an update is to do. -/
inductive Plan
  | upToDate (current : String)
  | install (version target : String) (asset : GitHubAsset) (archive : List UInt8)

/-- An error without further context. -/
def bare {α : Type} : Except String α → Except (List String) α := Except.mapError fun e => [e]

/-- The downloads of `run_update` and their verification. -/
def downloadVerified (env : ReleaseEnv) (release : GitHubRelease) : Except (List String) Plan := do
  let target ← bare (targetFromParts env.os env.arch env.libc)
  let asset ← bare (selectAsset release target)
  let version := normalizeTag release.tagName
  let archive ← downloadBytes env asset.browserDownloadUrl asset.name
  let checksums ← downloadBytes env (checksumUrl version) "SHA256SUMS"
  let checksums ← withContext "SHA256SUMS was not valid UTF-8" (fromUtf8 checksums)
  bare (verifyChecksumBytes env.digest archive checksums asset.name)
  .ok (.install version target asset archive)

/-- `run_update` up to the first change of the disk. -/
def planUpdate (env : ReleaseEnv) (version : Option String) : Except (List String) Plan := do
  let release ← fetchRelease env version
  match version with
  | some _ => downloadVerified env release
  | none => do
    match ← statusFromRelease env.semver env.version release with
    | .current current => .ok (.upToDate current)
    | .available .. => downloadVerified env release

/-! ## Unpacking and searching -/

/-- Where a call on a path arrives that follows the link there. -/
def opensAt (env : ReleaseEnv) (s : Disk) (path : Path) : Option Path :=
  match s.lookup path with
  | some .other => env.linked path
  | _ => some path

/-- The file that is read at a path, or through the link there. -/
def openedFile (env : ReleaseEnv) (s : Disk) (path : Path) : Option (List UInt8 × FileMetadata) :=
  match (opensAt env s path).bind fun target => s.lookup target with
  | some (.file bytes m) => some (bytes, m)
  | _ => none

/-- The loop over the entries of one directory. -/
def scanEntries (env : ReleaseEnv) (name : String) (s : Disk) :
    List Path → List Path → Look (List String) Path Path
  | [], pending => .children pending
  | entry :: rest, pending =>
    if env.entryFails entry then .failed ["failed to read extracted archive entry"]
    else if env.fileTypeFails entry then
      .failed ["failed to read file type for " ++ displayPath entry]
    else
      match s.lookup entry with
      | some (.directory _) => scanEntries env name s rest (pending ++ [entry])
      | some (.file _ _) =>
        if entry.getLast? = some name then .found entry else scanEntries env name s rest pending
      | _ => scanEntries env name s rest pending

/-- One round of the loop of `find_binary_in_dir`. -/
def lookInto (env : ReleaseEnv) (name : String) (s : Disk) (dir : Path) :
    Look (List String) Path Path :=
  if env.readDirFails dir || !isDir s dir then .failed ["failed to read " ++ displayPath dir]
  else scanEntries env name s (env.order.arrange (entries s dir)) []

/-- `find_binary_in_dir`. -/
def findBinaryInDir (env : ReleaseEnv) (outDir : Path) (name : String) : Setup (Option Path) :=
  fun s =>
    if !env.statFails (outDir ++ [name]) && (openedFile env s (outDir ++ [name])).isSome then
      .ok (some (outDir ++ [name])) s
    else
      match search (lookInto env name s) (s.keys.length + 1) [outDir] with
      | .failed contexts => .error contexts s
      | .found path => .ok (some path) s
      | .exhausted => .ok none s
      | .stopped => .ok none s

/-- Open a file and read it. -/
def readFile (fails : Bool) (path : Path) : DiskIo (List UInt8) := do
  let opened ← symlinkMetadata fails path
  match opened with
  | .file bytes _ => pure bytes
  | _ => throw .other

/-- `extract_binary`. -/
def extractBinary (env : ReleaseEnv) (archivePath outDir : Path) (name : String) :
    Setup Path := do
  mapError (fun _ => ["failed to create extraction directory " ++ displayPath outDir])
    (createDirAll (fun _ => env.fails .createExtractDir) env.newDirectory [outDir] : DiskIo Unit)
  let archive ← mapError (fun _ => ["failed to open " ++ displayPath archivePath])
    (readFile (env.fails .openArchive) archivePath)
  mapError (fun _ => ["failed to extract " ++ displayPath archivePath])
    (env.unpackInto archive outDir)
  let found ← findBinaryInDir env outDir name
  match found with
  | some path => pure path
  | none => throw ["binary " ++ name ++ " not found in downloaded asset"]

/-! ## Replacing a binary -/

/-- The name under which a binary is staged. -/
def stageName (env : ReleaseEnv) : String :=
  ".wakezilla.update." ++ toString env.processId ++ ".tmp"

/-- The second half of `fs::copy`: a file is opened for writing, gets the permissions `m` and the
bytes that are read, or some of them. -/
def copyInto (env : ReleaseEnv) (faults : InstallFaults) (target : Path) (read : List UInt8)
    (m : FileMetadata) : DiskIo Unit := do
  openTruncate (faults.fails .createStage) target { env.newFile with mode := m.mode }
  modifyFile (faults.fails .copyPermissions) target fun b m' => (b, { m' with mode := m.mode })
  modifyFile false target fun _ m' => (read.take (faults.copied.getD read.length), m')
  require faults.copied.isNone .other

/-- `fs::copy`, which follows the links at both paths.  A file that is copied to itself is empty
when it is read. -/
def copyFile (env : ReleaseEnv) (faults : InstallFaults) (source staged : Path) : DiskIo Unit :=
  fun s =>
    match if faults.fails .readSource then none else openedFile env s source,
      opensAt env s staged with
    | some (bytes, m), some target =>
      copyInto env faults target (if opensAt env s source = some target then [] else bytes) m s
    | _, _ => .error .notFound s

/-- `Path::exists` follows a link, and a failing call finds nothing. -/
def existsAt (env : ReleaseEnv) (fails : Bool) (path : Path) : DiskIo Bool := fun s =>
  .ok (!fails && ((opensAt env s path).bind fun target => s.lookup target).isSome) s

/-- The removal of a stage that is still there in `install_binary`. -/
def removeStaged (env : ReleaseEnv) (faults : InstallFaults) (staged : Path) : Setup Unit := do
  let found ← mapError (fun _ => []) (existsAt env (faults.fails .inspectStage) staged)
  if found then
    mapError (fun _ => ["failed to remove " ++ displayPath staged])
      (removeFile (faults.fails .removeStage) staged : DiskIo Unit)
  else pure ()

/-- `fs::set_permissions`, which follows a link. -/
def setPermissions (env : ReleaseEnv) (fails : Bool) (path : Path) (mode : ℕ) : DiskIo Unit :=
  fun s =>
    match opensAt env s path with
    | some target => (modifyFile fails target fun b m => (b, { m with mode }) : DiskIo Unit) s
    | none => .error .notFound s

/-- `install_binary` once the directory of the destination is there. -/
def replaceBinary (env : ReleaseEnv) (faults : InstallFaults) (source staged destination : Path) :
    Setup Unit := do
  removeStaged env faults staged
  mapError (fun _ => ["failed to stage updated binary at " ++ displayPath staged ++
    ". Try rerunning with appropriate privileges."]) (copyFile env faults source staged)
  mapError (fun _ => ["failed to mark " ++ displayPath staged ++ " executable"])
    (setPermissions env (faults.fails .setPermissions) staged 0o755)
  mapError (fun _ => ["failed to replace " ++ displayPath destination ++
    ". Try rerunning with appropriate privileges."])
    (onError (removeFile (faults.fails .dropStage) staged)
      (rename (faults.fails .publish) staged destination : DiskIo Unit))

/-- `install_binary`. -/
def installBinary (env : ReleaseEnv) (faults : InstallFaults) (source destination : Path) :
    Setup Unit :=
  match parent destination with
  | none => throw ["destination has no parent directory: " ++ displayPath destination]
  | some dir => do
    fun s => require (!faults.fails .inspectDirectory && isDir s dir)
      ["destination directory does not exist: " ++ displayPath dir] s
    replaceBinary env faults source (dir ++ [stageName env]) destination

/-- `remove_file_if_present`. -/
def removeFileIfPresent (fails : Bool) (path : Path) : Setup Unit :=
  mapError (fun _ => ["failed to remove " ++ displayPath path])
    (ignoring (fun e => e = .notFound) (removeFile fails path : DiskIo Unit))

/-- `install_optional_tray_helper`. -/
def installOptionalTrayHelper (env : ReleaseEnv) (extractDir exe : Path) (target : String) :
    Setup Unit :=
  match parent exe with
  | none => throw ["current executable has no parent directory: " ++ displayPath exe]
  | some dir => do
    let found ← findBinaryInDir env extractDir (trayHelperNameForTarget target)
    match found with
    | some source =>
      installBinary env env.helper source (dir ++ [trayHelperNameForTarget target])
    | none =>
      removeFileIfPresent (env.fails .removeHelper) (dir ++ [trayHelperNameForTarget target])

/-! ## The update -/

/-- What `run_update` reports. -/
inductive Updated
  | alreadyUpToDate (current : String)
  | updated (version : String) (exe : Path)
  deriving DecidableEq

/-- `fs::write` of the archive.  A name with a slash would lie in a directory that is not there. -/
def writeArchive (env : ReleaseEnv) (path : Path) (name : String) (archive : List UInt8) :
    DiskIo Unit := do
  require (!name.toList.contains '/') .notFound
  openTruncate (env.fails .createArchive) path env.newFile
  modifyFile (env.fails .writeArchive) path fun _ m => (archive, m)

/-- The part of `run_update` that finds the new executable, in the temporary directory `dir`. -/
def unpackArchive (env : ReleaseEnv) (target : String) (asset : GitHubAsset)
    (archive : List UInt8) (dir : Path) : Setup Path := do
  mapError (fun _ => ["failed to write " ++ displayPath (dir ++ [asset.name])])
    (writeArchive env (dir ++ [asset.name]) asset.name archive)
  extractBinary env (dir ++ [asset.name]) (dir ++ ["extract"]) (binaryNameForTarget target)

/-- The part of `run_update` with the temporary directory `dir`. -/
def installArchive (env : ReleaseEnv) (version target : String) (asset : GitHubAsset)
    (archive : List UInt8) (dir : Path) : Setup Updated := do
  let extracted ← unpackArchive env target asset archive dir
  match env.currentExe with
  | none => throw ["failed to resolve current executable"]
  | some exe => do
    installBinary env env.executable extracted exe
    installOptionalTrayHelper env (dir ++ ["extract"]) exe target
    pure (.updated version exe)

/-- A temporary directory is removed when it goes out of scope. -/
def dropTempDir (env : ReleaseEnv) (s : Disk) : Disk :=
  s.retain fun path _ => !decide (env.tempDir <+: path) || env.leftBehind path

/-- Run a program that ends with the removal of the temporary directory. -/
def droppingTempDir {α : Type} (env : ReleaseEnv) (m : Setup α) : Setup α := fun s =>
  match m s with
  | .ok a s' => .ok a (dropTempDir env s')
  | .error contexts s' => .error contexts (dropTempDir env s')

/-- `run_update`. -/
def runUpdate (env : ReleaseEnv) (version : Option String) : Setup Updated :=
  match planUpdate env version with
  | .error contexts => throw contexts
  | .ok (.upToDate current) => pure (.alreadyUpToDate current)
  | .ok (.install version target asset archive) => do
    mapError (fun _ => ["failed to create temporary update directory"])
      (createDir (env.fails .createTempDir) env.tempDir env.newDirectory : DiskIo Unit)
    droppingTempDir env (installArchive env version target asset archive env.tempDir)

/-! ## The search of the unpacked tree -/

section Search

variable {env : ReleaseEnv} {name : String} {s : Disk} {outDir dir path : Path}

/-- A regular file of the given name below a directory, reached through directories. -/
structure TreeFile (s : Disk) (outDir : Path) (name : String) (path : Path) : Prop where
  file : ∃ bytes m, s.lookup path = some (.file bytes m)
  name_eq : path.getLast? = some name
  below : outDir <+: path
  ne : outDir ≠ path
  directories : ∀ p, outDir <+: p → p <+: path → p ≠ path → isDir s p = true

/-- No call on the tree fails. -/
structure ReleaseEnv.Readable (env : ReleaseEnv) : Prop where
  stat : ∀ p, env.statFails p = false
  readDir : ∀ p, env.readDirFails p = false
  entry : ∀ p, env.entryFails p = false
  fileType : ∀ p, env.fileTypeFails p = false

theorem scanEntries_found {entries pending : List Path}
    (h : scanEntries env name s entries pending = .found path) :
    path ∈ entries ∧ path.getLast? = some name ∧
      ∃ bytes m, s.lookup path = some (.file bytes m) := by
  induction entries generalizing pending with
  | nil => cases h
  | cons entry rest ih =>
    have hrest : ∀ {pending : List Path}, scanEntries env name s rest pending = .found path →
        path ∈ entry :: rest ∧ path.getLast? = some name ∧
          ∃ bytes m, s.lookup path = some (.file bytes m) := fun h =>
      let ⟨hmem, hfile⟩ := ih h
      ⟨List.mem_cons_of_mem _ hmem, hfile⟩
    unfold scanEntries at h
    split at h
    · cases h
    split at h
    · cases h
    split at h
    · exact hrest h
    · next bytes m hfile =>
      split at h
      · next hname =>
        cases h
        exact ⟨List.mem_cons_self, hname, bytes, m, hfile⟩
      · exact hrest h
    · exact hrest h

/-- A scan that finds nothing has seen every entry, and the directories are pending. -/
theorem scanEntries_children {entries pending items : List Path}
    (h : scanEntries env name s entries pending = .children items) :
    items = pending ++ entries.filter (fun e => isDir s e) ∧
      ∀ e ∈ entries, e.getLast? = some name → ∀ bytes m, s.lookup e ≠ some (.file bytes m) := by
  induction entries generalizing pending with
  | nil =>
    cases h
    exact ⟨(List.append_nil _).symm, fun e he => absurd he List.not_mem_nil⟩
  | cons entry rest ih =>
    unfold scanEntries at h
    split at h
    · cases h
    split at h
    · cases h
    split at h
    · next m hdir =>
      obtain ⟨rfl, hnone⟩ := ih h
      have hisdir : isDir s entry = true := (isDir_of_some hdir).trans rfl
      refine ⟨?_, ?_⟩
      · rw [List.filter_cons, if_pos hisdir, List.append_assoc, List.singleton_append]
      · rintro e he hname bytes m hfile
        rcases List.mem_cons.mp he with rfl | he
        · rw [hdir] at hfile
          cases hfile
        · exact hnone e he hname bytes m hfile
    · next bytes m hfile =>
      split at h
      · cases h
      · next hname =>
        obtain ⟨rfl, hnone⟩ := ih h
        have hnodir : ¬ isDir s entry = true := by
          rw [isDir_of_some hfile]
          exact Bool.false_ne_true
        refine ⟨by rw [List.filter_cons, if_neg hnodir], ?_⟩
        rintro e he hname' bytes m hfile'
        rcases List.mem_cons.mp he with rfl | he
        · exact hname hname'
        · exact hnone e he hname' bytes m hfile'
    · next hdir hfile =>
      obtain ⟨rfl, hnone⟩ := ih h
      have hnodir : ¬ isDir s entry = true := by
        intro hisdir
        obtain ⟨node, hnode, hisdir⟩ := isDir_iff.mp hisdir
        cases node with
        | file bytes m => cases hisdir
        | directory m => exact hdir m hnode
        | other => cases hisdir
      refine ⟨by rw [List.filter_cons, if_neg hnodir], ?_⟩
      rintro e he hname' bytes m hfile'
      rcases List.mem_cons.mp he with rfl | he
      · exact hfile bytes m hfile'
      · exact hnone e he hname' bytes m hfile'

theorem scanEntries_failed {entries pending : List Path} (henv : env.Readable)
    {contexts : List String} : scanEntries env name s entries pending ≠ .failed contexts := by
  induction entries generalizing pending with
  | nil => exact nofun
  | cons entry rest ih =>
    unfold scanEntries
    rw [henv.entry, henv.fileType, if_neg Bool.false_ne_true, if_neg Bool.false_ne_true]
    split
    · exact ih
    · split
      · exact nofun
      · exact ih
    · exact ih

theorem lookInto_found (h : lookInto env name s dir = .found path) :
    isDir s dir = true ∧ path ∈ entries s dir ∧ path.getLast? = some name ∧
      ∃ bytes m, s.lookup path = some (.file bytes m) := by
  unfold lookInto at h
  split at h
  · cases h
  · next hok =>
    obtain ⟨hmem, hfile⟩ := scanEntries_found h
    simp only [Bool.or_eq_true, Bool.not_eq_true', not_or, Bool.not_eq_false] at hok
    exact ⟨hok.2, (env.order.perm _).mem_iff.mp hmem, hfile⟩

theorem lookInto_children {items : List Path} (h : lookInto env name s dir = .children items) :
    isDir s dir = true ∧ items.Nodup ∧ (∀ e, e ∈ items ↔ e ∈ entries s dir ∧ isDir s e = true) ∧
      ∀ e ∈ entries s dir, e.getLast? = some name →
        ∀ bytes m, s.lookup e ≠ some (.file bytes m) := by
  unfold lookInto at h
  split at h
  · cases h
  · next hok =>
    obtain ⟨rfl, hnone⟩ := scanEntries_children h
    simp only [Bool.or_eq_true, Bool.not_eq_true', not_or, Bool.not_eq_false] at hok
    have hperm := env.order.perm (entries s dir)
    refine ⟨hok.2, ?_, fun e => ?_, fun e he => hnone e (hperm.mem_iff.mpr he)⟩
    · exact ((hperm.nodup_iff.mpr (s.nodupKeys.filter _)).filter _)
    · rw [List.nil_append, List.mem_filter, hperm.mem_iff]

/-- What a search goes through are directories below the one where it began. -/
theorem directories_of_below {c : Path} (h : Below (lookInto env name s) dir c)
    (hc : isDir s c = true) :
    dir <+: c ∧ ∀ p, dir <+: p → p <+: c → isDir s p = true := by
  induction h with
  | refl dir =>
    refine ⟨List.prefix_rfl, fun p hle hge => ?_⟩
    rw [hge.eq_of_length_le hle.length_le]
    exact hc
  | child hlook hb _ ih =>
    obtain ⟨hbelow, hinner⟩ := ih hc
    obtain ⟨hdir, -, hitems, -⟩ := lookInto_children hlook
    obtain ⟨x, rfl⟩ := prefix_of_parent (mem_entries.mp ((hitems _).mp hb).1).2
    refine ⟨(List.prefix_append _ _).trans hbelow, fun p hle hge => ?_⟩
    rcases Nat.lt_or_ge p.length (_ + 1) with hshort | hlong
    · rw [← hle.eq_of_length_le (Nat.le_of_lt_succ hshort)]
      exact hdir
    · refine hinner p (List.prefix_of_prefix_length_le hbelow hge ?_) hge
      rw [List.length_append, List.length_singleton]
      exact hlong

/-- The search meets a named file, or stops on the way to it. -/
theorem below_of_treeFile (h : TreeFile s outDir name path) :
    ∃ c, Below (lookInto env name s) outDir c ∧
      ∀ items, lookInto env name s c ≠ .children items := by
  obtain ⟨rest, rfl⟩ := h.below
  induction rest generalizing outDir with
  | nil => exact absurd (List.append_nil _).symm h.ne
  | cons x rest ih =>
    cases hlook : lookInto env name s outDir with
    | failed contexts => exact ⟨outDir, .refl outDir, by rw [hlook]; exact nofun⟩
    | found p => exact ⟨outDir, .refl outDir, by rw [hlook]; exact nofun⟩
    | children items =>
      obtain ⟨-, -, hitems, hnone⟩ := lookInto_children hlook
      have happ : outDir ++ x :: rest = (outDir ++ [x]) ++ rest := by
        rw [List.append_assoc, List.singleton_append]
      obtain ⟨bytes, m, hfile⟩ := h.file
      cases rest with
      | nil =>
        refine absurd hfile (hnone _ (mem_entries.mpr ⟨?_, parent_concat _ _⟩) h.name_eq bytes m)
        rw [hfile]
        rfl
      | cons y rest =>
        have hlt : outDir ++ [x] ≠ outDir ++ x :: y :: rest := by simp
        have hisdir : isDir s (outDir ++ [x]) = true := by
          refine h.directories _ (List.prefix_append _ _) ?_ hlt
          rw [happ]
          exact List.prefix_append _ _
        have hmem : outDir ++ [x] ∈ items :=
          (hitems _).mpr ⟨mem_entries.mpr ⟨isSome_of_isDir hisdir, parent_concat _ _⟩, hisdir⟩
        rw [happ] at h hlt
        have hinner : TreeFile s (outDir ++ [x]) name ((outDir ++ [x]) ++ y :: rest) :=
          ⟨h.file, h.name_eq, List.prefix_append _ _, hlt, fun p hle hge hp =>
            h.directories p ((List.prefix_append _ _).trans hle) hge hp⟩
        obtain ⟨c, hc, hstop⟩ := ih hinner
        exact ⟨c, .child hlook hmem hc, hstop⟩

theorem search_lookInto_ne_stopped :
    search (lookInto env name s) (s.keys.length + 1) [outDir] ≠ .stopped := by
  refine search_ne_stopped (treeSize s) (fun _ => Nat.succ_pos _) (fun a items h => ?_) ?_
  · obtain ⟨-, hnodup, hitems, -⟩ := lookInto_children h
    exact sum_treeSize_lt hnodup fun e he => ((hitems e).mp he).1
  · rw [List.map_singleton, List.sum_singleton]
    exact treeSize_le s outDir

theorem treeFile_of_search
    (h : search (lookInto env name s) (s.keys.length + 1) [outDir] = .found path) :
    TreeFile s outDir name path := by
  obtain ⟨a, ha, c, hc, hlook⟩ := search_found h
  obtain rfl := List.mem_singleton.mp ha
  obtain ⟨hdir, hmem, hname, hfile⟩ := lookInto_found hlook
  obtain ⟨hbelow, hinner⟩ := directories_of_below hc hdir
  obtain ⟨x, rfl⟩ := prefix_of_parent (mem_entries.mp hmem).2
  have hne : a ≠ c ++ [x] := by
    rintro rfl
    have hlen := hbelow.length_le
    rw [List.length_append, List.length_singleton] at hlen
    omega
  refine ⟨hfile, hname, hbelow.trans (List.prefix_append _ _), hne, fun p hle hge hp => ?_⟩
  refine hinner p hle (List.prefix_of_prefix_length_le hge (List.prefix_append _ _) ?_)
  have hlen := hge.length_le
  rw [List.length_append, List.length_singleton] at hlen
  have hshort : p.length ≠ (c ++ [x]).length := fun heq => hp (hge.eq_of_length heq)
  rw [List.length_append, List.length_singleton] at hshort
  omega

/-- Where every call works, looking into a directory does not fail. -/
theorem lookInto_failed (henv : env.Readable) (hdir : isDir s dir = true)
    {contexts : List String} : lookInto env name s dir ≠ .failed contexts := by
  unfold lookInto
  rw [henv.readDir, hdir]
  exact scanEntries_failed henv

/-- What a search comes to from a directory is one. -/
theorem isDir_of_below {c : Path} (hdir : isDir s dir = true)
    (h : Below (lookInto env name s) dir c) : isDir s c = true := by
  induction h with
  | refl dir => exact hdir
  | child hlook hb _ ih => exact ih (((lookInto_children hlook).2.2.1 _).mp hb).2

/-- What an unpacked archive offers under a name: a file or a link at the top, or a regular file
further down. -/
def Offers (env : ReleaseEnv) (s : Disk) (outDir : Path) (name : String) (path : Path) : Prop :=
  path = outDir ++ [name] ∧ (openedFile env s path).isSome ∨ TreeFile s outDir name path

/-- **The search of the unpacked tree** finds only what is offered, overlooks no regular file, comes
to its end within as many rounds as there are entries, and where every directory can be read it
succeeds exactly if something is offered, in whatever order the directories list their entries. -/
theorem findBinaryInDir_spec (env : ReleaseEnv) (outDir : Path) (name : String) (s : Disk) :
    (∀ path s', findBinaryInDir env outDir name s = .ok (some path) s' →
      s' = s ∧ Offers env s outDir name path) ∧
    (∀ s', findBinaryInDir env outDir name s = .ok none s' →
      s' = s ∧ ∀ path, ¬ TreeFile s outDir name path) ∧
    search (lookInto env name s) (s.keys.length + 1) [outDir] ≠ .stopped ∧
    (env.Readable → isDir s outDir = true →
      ((∃ path s', findBinaryInDir env outDir name s = .ok (some path) s') ↔
        ∃ path, Offers env s outDir name path)) := by
  unfold findBinaryInDir
  have hexhausted : search (lookInto env name s) (s.keys.length + 1) [outDir] = .exhausted →
      ∀ path, ¬ TreeFile s outDir name path := by
    intro h path hpath
    obtain ⟨c, hc, hstop⟩ : ∃ c, Below (lookInto env name s) outDir c ∧
        ∀ items, lookInto env name s c ≠ .children items := below_of_treeFile hpath
    obtain ⟨items, hlook⟩ := search_exhausted h outDir List.mem_cons_self c hc
    exact hstop items hlook
  by_cases hdirect : (!env.statFails (outDir ++ [name]) &&
      (openedFile env s (outDir ++ [name])).isSome) = true
  · rw [if_pos hdirect]
    refine ⟨fun path s' h => ?_, fun s' h => ?_, search_lookInto_ne_stopped, fun henv hdir => ?_⟩
    · cases h
      exact ⟨rfl, Or.inl ⟨rfl, (Bool.and_eq_true_iff.mp hdirect).2⟩⟩
    · cases h
    · exact ⟨fun _ => ⟨_, Or.inl ⟨rfl, (Bool.and_eq_true_iff.mp hdirect).2⟩⟩,
        fun _ => ⟨_, s, rfl⟩⟩
  · rw [if_neg hdirect]
    have hstops : search (lookInto env name s) (s.keys.length + 1) [outDir] ≠ .stopped :=
      search_lookInto_ne_stopped
    cases hsearch : search (lookInto env name s) (s.keys.length + 1) [outDir] with
    | stopped => exact absurd hsearch hstops
    | failed contexts =>
      refine ⟨fun path s' h => ?_, fun s' h => ?_, nofun, fun henv hdir => ?_⟩
      · cases h
      · cases h
      · obtain ⟨a, ha, c, hc, hlook⟩ := search_failed hsearch
        obtain rfl := List.mem_singleton.mp ha
        exact absurd hlook (lookInto_failed henv (isDir_of_below hdir hc))
    | found path =>
      refine ⟨fun path' s' h => ?_, fun s' h => ?_, nofun, fun henv hdir => ?_⟩
      · cases h
        exact ⟨rfl, Or.inr (treeFile_of_search hsearch)⟩
      · cases h
      · exact ⟨fun _ => ⟨path, Or.inr (treeFile_of_search hsearch)⟩, fun _ => ⟨path, s, rfl⟩⟩
    | exhausted =>
      refine ⟨fun path s' h => ?_, fun s' h => ?_, nofun, fun henv hdir => ⟨?_, ?_⟩⟩
      · cases h
      · cases h
        exact ⟨rfl, hexhausted hsearch⟩
      · rintro ⟨path, s', h⟩
        cases h
      · rintro ⟨path, ⟨rfl, hopened⟩ | hpath⟩
        · rw [henv.stat, hopened] at hdirect
          exact absurd rfl hdirect
        · exact absurd hpath (hexhausted hsearch path)

end Search

end Release

end Wakezilla
