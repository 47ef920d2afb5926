/-
# Release checksums

`update` (`src/update.rs`) installs a downloaded archive only if `verify_checksum_bytes`
accepts it: the `SHA256SUMS` text of the release has a line for the asset, and its hash is
that of the bytes.

`ListsChecksum` is what it means that a line lists a file, in the form of `sha256sum`;
`verify_checksum_iff` says that on a text of such lines the check accepts the listed bytes
alone, and depends on nothing else in the text.
-/
import Wakezilla.Library.TextLines
import Wakezilla.ShutdownAuth
import Wakezilla.Validate

namespace Wakezilla

open TextLines

/-! ## The check -/

/-- `str::split_whitespace`. -/
def splitWhitespace (line : List Char) : List (List Char) := fields isWhitespace line

/-- The closure of `checksum_for_asset`: the hash of a line whose name is the asset's. -/
def checksumOfLine (assetName : String) (line : List Char) : Option String :=
  match splitWhitespace line with
  | hash :: name :: _ =>
    if name.dropWhile (· = '*') = assetName.toList then some (String.ofList hash) else none
  | _ => none

/-- `checksum_for_asset`. -/
def checksumForAsset (checksums assetName : String) : Except String String :=
  match ((lines checksums.toList).filterMap (checksumOfLine assetName)).head? with
  | some hash => .ok hash
  | none => .error ("checksum not found for " ++ assetName)

/-- `format!("{byte:02x}")`. -/
def hexByte (byte : UInt8) : List Char :=
  [Nat.digitChar (byte.toNat / 16), Nat.digitChar (byte.toNat % 16)]

/-- `sha256_hex`, over the digest function of the library. -/
def sha256Hex (digest : List UInt8 → Vector UInt8 32) (bytes : List UInt8) : String :=
  String.ofList ((digest bytes).toList.flatMap hexByte)

/-- `verify_checksum_bytes`. -/
def verifyChecksumBytes (digest : List UInt8 → Vector UInt8 32) (bytes : List UInt8)
    (checksums assetName : String) : Except String Unit := do
  let expected ← checksumForAsset checksums assetName
  let actual := sha256Hex digest bytes
  if EqIgnoreAsciiCase actual expected then .ok ()
  else .error ("checksum verification failed for " ++ assetName)

/-! ## What a checksum file says -/

/-- The text has no white space. -/
def Unspaced (s : String) : Prop := ∀ c ∈ s.toList, isWhitespace c = false

/-- The name of a file, as it stands in a checksum file. -/
structure FileName (name : String) : Prop where
  unspaced : Unspaced name
  noMarker : ∀ s, name.toList ≠ '*' :: s

/-- The line lists the file `name` with `hash`: the two stand with white space between them, and
a star before the name marks a binary file. -/
structure ListsChecksum (line : List Char) (hash name : String) : Prop where
  hash_ne : hash.toList ≠ []
  hash_unspaced : Unspaced hash
  fileName : FileName name
  form : ∃ space marker : List Char, line = hash.toList ++ space ++ (marker ++ name.toList) ∧
    space ≠ [] ∧ (∀ c ∈ space, isWhitespace c = true) ∧ (marker = [] ∨ marker = ['*']) ∧
    marker ++ name.toList ≠ []

/-- The text lists the file `name` with `hash` in one of its lines. -/
def Lists (checksums hash name : String) : Prop :=
  ∃ line ∈ lines checksums.toList, ListsChecksum line hash name

/-- A checksum file: every line lists a file, or has fewer than two fields (none, if it is
blank), and no file is listed twice. -/
structure ChecksumFile (checksums : String) : Prop where
  line : ∀ line ∈ lines checksums.toList,
    (splitWhitespace line).length < 2 ∨ ∃ hash name, ListsChecksum line hash name
  distinct : (lines checksums.toList).Pairwise fun line line' => ∀ hash name hash' name',
    ListsChecksum line hash name → ListsChecksum line' hash' name' → name ≠ name'

/-! ## Lines -/

/-- The fields of a line that lists a file. -/
theorem ListsChecksum.fields {line : List Char} {hash name : String}
    (h : ListsChecksum line hash name) :
    ∃ second, splitWhitespace line = [hash.toList, second] ∧
      second.dropWhile (· = '*') = name.toList := by
  obtain ⟨space, marker, rfl, hspace, hall, hmarker, hne⟩ := h.form
  have hsecond : ∀ c ∈ marker ++ name.toList, isWhitespace c = false := by
    intro c hc
    rcases List.mem_append.mp hc with hc | hc
    · rcases hmarker with rfl | rfl
      · cases hc
      · rw [List.mem_singleton.mp hc]
        decide
    · exact h.fileName.unspaced c hc
  have hname : name.toList.dropWhile (· = '*') = name.toList := by
    cases hlist : name.toList with
    | nil => rfl
    | cons c s =>
      have hc : c ≠ '*' := fun heq => h.fileName.noMarker s (heq ▸ hlist)
      simp [hc]
  refine ⟨marker ++ name.toList, ?_, ?_⟩
  · rw [splitWhitespace, fields_append_append hspace hall,
      fields_of_forall_not h.hash_ne h.hash_unspaced, fields_of_forall_not hne hsecond]
    rfl
  · rcases hmarker with rfl | rfl
    · exact hname
    · simpa using hname

/-- A line lists one file with one hash. -/
theorem ListsChecksum.unique {line : List Char} {hash name hash' name' : String}
    (h : ListsChecksum line hash name) (h' : ListsChecksum line hash' name') :
    hash = hash' ∧ name = name' := by
  obtain ⟨second, hfields, hname⟩ := h.fields
  obtain ⟨second', hfields', hname'⟩ := h'.fields
  rw [hfields] at hfields'
  obtain ⟨hhash, hsecond⟩ := List.cons.inj hfields'
  refine ⟨String.toList_inj.mp hhash, String.toList_inj.mp ?_⟩
  rw [← hname, ← hname', (List.cons.inj hsecond).1]

/-- **What is read off a line** of a checksum file. -/
theorem checksumOfLine_eq_some {assetName hash : String} {line : List Char}
    (hline : (splitWhitespace line).length < 2 ∨ ∃ hash name, ListsChecksum line hash name) :
    checksumOfLine assetName line = some hash ↔ ListsChecksum line hash assetName := by
  constructor
  · intro h
    rcases hline with hshort | ⟨hash', name, hlists⟩
    · unfold checksumOfLine at h
      split at h
      · rename_i hfields
        rw [hfields] at hshort
        simp at hshort
      · cases h
    · obtain ⟨second, hfields, hname⟩ := hlists.fields
      unfold checksumOfLine at h
      rw [hfields] at h
      dsimp only at h
      split at h
      · rename_i hasset
        obtain rfl : name = assetName := String.toList_inj.mp (hname.symm.trans hasset)
        obtain rfl : hash' = hash := by simpa using h
        exact hlists
      · cases h
  · intro h
    obtain ⟨second, hfields, hname⟩ := h.fields
    simp [checksumOfLine, hfields, hname]

/-! ## The text -/

/-- No two lines of a checksum file list one file. -/
theorem ChecksumFile.unique {checksums : String} (h : ChecksumFile checksums)
    {name hash hash' : String} (hlists : Lists checksums hash name)
    (hlists' : Lists checksums hash' name) : hash = hash' := by
  obtain ⟨line, hline, hname⟩ := hlists
  obtain ⟨line', hline', hname'⟩ := hlists'
  by_cases heq : line = line'
  · subst heq
    exact (hname.unique hname').1
  · have hsymm : Std.Symm fun line line' : List Char => ∀ hash name hash' name',
        ListsChecksum line hash name → ListsChecksum line' hash' name' → name ≠ name' :=
      ⟨fun _ _ hne _ _ _ _ h h' => (hne _ _ _ _ h' h).symm⟩
    have hne := h.distinct.forall hline hline' heq
    exact absurd rfl (hne hash name hash' name hname hname')

/-- The hash that is found is the listed one. -/
theorem ChecksumFile.checksumForAsset_eq_ok {checksums : String} (h : ChecksumFile checksums)
    {assetName hash : String} :
    checksumForAsset checksums assetName = .ok hash ↔ Lists checksums hash assetName := by
  have hfound : ∀ found, found ∈ (lines checksums.toList).filterMap (checksumOfLine assetName) ↔
      Lists checksums found assetName := by
    intro found
    rw [List.mem_filterMap]
    exact exists_congr fun line => and_congr_right fun hline =>
      checksumOfLine_eq_some (h.line line hline)
  unfold checksumForAsset
  constructor
  · intro hok
    split at hok
    · rename_i found hhead
      cases hok
      exact (hfound hash).mp (List.mem_of_head? hhead)
    · cases hok
  · intro hlists
    cases hhead : ((lines checksums.toList).filterMap (checksumOfLine assetName)).head? with
    | none =>
      rw [List.head?_eq_none_iff] at hhead
      have hmem := (hfound hash).mpr hlists
      rw [hhead] at hmem
      cases hmem
    | some found =>
      have hlisted := (hfound found).mp (List.mem_of_head? hhead)
      rw [h.unique hlisted hlists]

/-- The check of a checksum file, by what the file lists. -/
theorem ChecksumFile.verify_eq_ok {checksums : String} (h : ChecksumFile checksums)
    {digest : List UInt8 → Vector UInt8 32} {bytes : List UInt8} {assetName : String} :
    verifyChecksumBytes digest bytes checksums assetName = .ok () ↔
      ∃ hash, Lists checksums hash assetName ∧ EqIgnoreAsciiCase (sha256Hex digest bytes) hash := by
  unfold verifyChecksumBytes
  constructor
  · intro hok
    cases hfound : checksumForAsset checksums assetName with
    | error e =>
      rw [hfound] at hok
      cases hok
    | ok hash =>
      refine ⟨hash, h.checksumForAsset_eq_ok.mp hfound, ?_⟩
      by_contra hdiffers
      simp only [hfound, bind, Except.bind, hdiffers, if_false] at hok
      cases hok
  · rintro ⟨hash, hlists, hsame⟩
    simp [h.checksumForAsset_eq_ok.mpr hlists, bind, Except.bind, hsame]

/-- The check depends on what the file lists for the asset alone. -/
theorem ChecksumFile.verify_congr {checksums checksums' : String} (h : ChecksumFile checksums)
    (h' : ChecksumFile checksums') {assetName : String}
    (hsame : ∀ hash, Lists checksums hash assetName ↔ Lists checksums' hash assetName)
    (digest : List UInt8 → Vector UInt8 32) (bytes : List UInt8) :
    verifyChecksumBytes digest bytes checksums assetName =
      verifyChecksumBytes digest bytes checksums' assetName := by
  have hfound : checksumForAsset checksums assetName = checksumForAsset checksums' assetName := by
    cases hfound : checksumForAsset checksums assetName with
    | ok hash => exact (h'.checksumForAsset_eq_ok.mpr
        ((hsame hash).mp (h.checksumForAsset_eq_ok.mp hfound))).symm
    | error e =>
      cases hfound' : checksumForAsset checksums' assetName with
      | ok hash =>
        have hlists := h.checksumForAsset_eq_ok.mpr
          ((hsame hash).mpr (h'.checksumForAsset_eq_ok.mp hfound'))
        rw [hfound] at hlists
        cases hlists
      | error e' =>
        -- there is one error for an asset
        unfold checksumForAsset at hfound hfound'
        split at hfound
        · cases hfound
        · split at hfound'
          · cases hfound'
          · rw [← hfound, ← hfound']
  rw [verifyChecksumBytes, verifyChecksumBytes, hfound]

/-- **The check accepts exactly the listed bytes.**  On a checksum file it accepts, for a name,
the bytes whose hash the file lists, up to the case of its letters; the other lines and their
order do not matter. -/
theorem verify_checksum_iff (digest : List UInt8 → Vector UInt8 32) (bytes : List UInt8)
    (checksums assetName : String) (hchecksums : ChecksumFile checksums) :
    (verifyChecksumBytes digest bytes checksums assetName = .ok () ↔
        ∃ hash, Lists checksums hash assetName ∧
          EqIgnoreAsciiCase (sha256Hex digest bytes) hash) ∧
      ∀ checksums', ChecksumFile checksums' →
        (∀ hash, Lists checksums hash assetName ↔ Lists checksums' hash assetName) →
        verifyChecksumBytes digest bytes checksums assetName =
          verifyChecksumBytes digest bytes checksums' assetName :=
  ⟨hchecksums.verify_eq_ok, fun _ hchecksums' hsame =>
    hchecksums.verify_congr hchecksums' hsame digest bytes⟩

/-! ### A release -/

/-- SHA-256 on the bytes of the word `wakezilla`. -/
def sampleDigest (bytes : List UInt8) : Vector UInt8 32 :=
  if bytes = asBytes "wakezilla" then
    #v[218, 240, 140, 240, 232, 138, 205, 152, 176, 221, 47, 169, 69, 239, 181, 19, 240, 28, 231,
      111, 137, 17, 132, 160, 109, 225, 184, 107, 240, 91, 213, 207]
  else Vector.replicate 32 0

/-- The line of a file in a checksum file. -/
def sumLine (hash space marker name : String) : List Char :=
  hash.toList ++ space.toList ++ (marker.toList ++ name.toList)

/-- The hash of the word. -/
def sampleHash : String := "daf08cf0e88acd98b0dd2fa945efb513f01ce76f891184a06de1b86bf05bd5cf"

/-- A checksum file with a line for `wakezilla.tar.gz.sig` before that of `wakezilla.tar.gz`, and
two lines that list nothing. -/
def sampleSums : String :=
  "00ff *wakezilla.tar.gz.sig\n\nsums\n" ++ sampleHash ++ "  wakezilla.tar.gz\n"

theorem lines_sampleSums : lines sampleSums.toList =
    [sumLine "00ff" " " "*" "wakezilla.tar.gz.sig", [], "sums".toList,
      sumLine sampleHash "  " "" "wakezilla.tar.gz"] := by
  decide +kernel

theorem listsChecksum_sumLine {hash space marker name : String} (hne : hash.toList ≠ [])
    (hhash : (hash.toList.all fun c => !isWhitespace c) = true) (hspaceNe : space.toList ≠ [])
    (hspace : space.toList.all isWhitespace = true)
    (hmarker : marker.toList = [] ∨ marker.toList = ['*']) (hnameNe : name.toList ≠ [])
    (hname : (name.toList.all fun c => !isWhitespace c && c != '*') = true) :
    ListsChecksum (sumLine hash space marker name) hash name := by
  have hall : ∀ c ∈ name.toList, isWhitespace c = false ∧ c ≠ '*' := by
    simpa using hname
  refine ⟨hne, fun c hc => ?_, ⟨fun c hc => (hall c hc).1, fun s heq => ?_⟩, space.toList,
    marker.toList, rfl, hspaceNe, List.all_eq_true.mp hspace, hmarker, ?_⟩
  · simpa using List.all_eq_true.mp hhash c hc
  · exact (hall '*' (heq ▸ List.mem_cons_self)).2 rfl
  · exact List.append_ne_nil_of_right_ne_nil _ hnameNe

theorem listsChecksum_signature :
    ListsChecksum (sumLine "00ff" " " "*" "wakezilla.tar.gz.sig") "00ff"
      "wakezilla.tar.gz.sig" :=
  listsChecksum_sumLine (by decide) (by decide) (by decide) (by decide) (Or.inr rfl) (by decide)
    (by decide +kernel)

theorem listsChecksum_archive :
    ListsChecksum (sumLine sampleHash "  " "" "wakezilla.tar.gz") sampleHash "wakezilla.tar.gz" :=
  listsChecksum_sumLine (by decide) (by decide +kernel) (by decide) (by decide) (Or.inl rfl)
    (by decide) (by decide +kernel)

theorem checksumFile_sampleSums : ChecksumFile sampleSums := by
  have hnone : ∀ line : List Char, (splitWhitespace line).length < 2 → ∀ hash name,
      ¬ ListsChecksum line hash name := by
    intro line hshort hash name h
    obtain ⟨second, hfields, -⟩ := h.fields
    rw [hfields] at hshort
    simp at hshort
  have hblank : (splitWhitespace []).length < 2 := by decide +kernel
  have hword : (splitWhitespace "sums".toList).length < 2 := by decide +kernel
  constructor
  · rw [lines_sampleSums]
    intro line hline
    simp only [List.mem_cons, List.not_mem_nil, or_false] at hline
    rcases hline with rfl | rfl | rfl | rfl
    · exact Or.inr ⟨_, _, listsChecksum_signature⟩
    · exact Or.inl hblank
    · exact Or.inl hword
    · exact Or.inr ⟨_, _, listsChecksum_archive⟩
  · rw [lines_sampleSums]
    simp only [List.pairwise_cons, List.mem_cons, List.not_mem_nil, or_false, forall_eq_or_imp,
      forall_eq, List.Pairwise.nil, and_true, IsEmpty.forall_iff, implies_true]
    refine ⟨⟨fun _ _ _ _ _ h => absurd h (hnone _ hblank _ _), fun _ _ _ _ _ h =>
      absurd h (hnone _ hword _ _), fun hash name hash' name' h h' => ?_⟩,
      ⟨fun _ _ _ _ h => absurd h (hnone _ hblank _ _), fun _ _ _ _ h =>
        absurd h (hnone _ hblank _ _)⟩, fun _ _ _ _ h => absurd h (hnone _ hword _ _)⟩
    rw [← (listsChecksum_signature.unique h).2, ← (listsChecksum_archive.unique h').2]
    decide

/-- The archive is accepted although its name begins another name of the file. -/
theorem sampleSums_accepted :
    verifyChecksumBytes sampleDigest (asBytes "wakezilla") sampleSums "wakezilla.tar.gz" =
      .ok () := by
  obtain ⟨haccepts, -⟩ := verify_checksum_iff sampleDigest (asBytes "wakezilla") sampleSums
    "wakezilla.tar.gz" checksumFile_sampleSums
  refine haccepts.mpr ⟨sampleHash, ⟨_, ?_, listsChecksum_archive⟩, by decide +kernel⟩
  rw [lines_sampleSums]
  simp

end Wakezilla
