/-
# The replay guard

`ReplayGuard` of `src/shutdown_auth.rs`: it accepts a signed request whose timestamp
is close to the clock and whose nonce it has not recorded, and records the nonce with
the time of acceptance.  Records are dropped when they are older than the retention,
or when the capacity is reached.

`verify_cases` says everything a call of `verify` can do to the guard.
-/
import Wakezilla.ShutdownAuth

namespace Wakezilla

/-- `MAX_CLOCK_SKEW`, in seconds. -/
def maxClockSkew : ℕ := 60

/-- `VerifyError`. -/
inductive VerifyError
  | malformed
  | timestampOutsideWindow
  | invalidSignature
  | replay
  deriving DecidableEq, Repr

/-- `u64::abs_diff`. -/
def absDiff (a b : ℕ) : ℕ := (a - b) + (b - a)

/-- `ReplayGuard`: the recorded nonces with the times at which they were accepted, and the
retention in seconds. -/
structure ReplayGuard where
  seen : Dict String ℕ
  retention : ℕ
  capacity : ℕ

/-- Which nonce `min_by_key` finds among the oldest depends on the iteration order of the hash
map. -/
structure OldestChoice where
  pick : Dict String ℕ → Option String
  pick_min : ∀ seen nonce, pick seen = some nonce → ∃ oldest, seen.lookup nonce = some oldest ∧
    ∀ n acceptedAt, seen.lookup n = some acceptedAt → oldest ≤ acceptedAt
  pick_none : ∀ seen, pick seen = none → seen.entries = []

/-- The choice of the first of the oldest nonces. -/
def firstOldest : OldestChoice where
  pick seen := (seen.entries.argmin fun e => e.2).map fun e => e.1
  pick_min := by
    intro seen nonce h
    obtain ⟨oldest, holdest, rfl⟩ := Option.map_eq_some_iff.mp h
    refine ⟨oldest.2, Dict.lookup_eq_some_iff.mpr (List.argmin_mem holdest), ?_⟩
    intro n acceptedAt hn
    exact List.le_of_mem_argmin (Dict.lookup_eq_some_iff.mp hn) holdest
  pick_none := by
    intro seen h
    rw [Option.map_eq_none_iff] at h
    exact List.argmin_eq_none.mp h

namespace ReplayGuard

/-- `ReplayGuard::new`. -/
def new (retention capacity : ℕ) : ReplayGuard := ⟨∅, retention, max capacity 1⟩

/-- `ReplayGuard::default`. -/
def default : ReplayGuard := new 120 4096

/-- `prune`. -/
def prune (g : ReplayGuard) (now : ℕ) : ReplayGuard :=
  { g with seen := g.seen.retain fun _ acceptedAt => now - acceptedAt ≤ g.retention }

/-- `remove_oldest`. -/
def removeOldest (choice : OldestChoice) (g : ReplayGuard) : ReplayGuard :=
  match choice.pick g.seen with
  | some oldest => { g with seen := g.seen.erase oldest }
  | none => g

/-- The end of `verify`: make room, then record the nonce. -/
def record (choice : OldestChoice) (g : ReplayGuard) (nonce : String) (now : ℕ) : ReplayGuard :=
  let g := if g.capacity ≤ g.seen.entries.length then g.removeOldest choice else g
  { g with seen := g.seen.insert nonce now }

/-- `verify`. -/
def verify (crypto : Crypto) (choice : OldestChoice) (g : ReplayGuard)
    (key method path : String) (headers : SignedRequestHeaders) (now : ℕ) :
    Except VerifyError Unit × ReplayGuard :=
  match parseU64 headers.timestamp with
  | none => (.error .malformed, g)
  | some timestamp =>
    if maxClockSkew < absDiff now timestamp then (.error .timestampOutsideWindow, g)
    else
      let g := g.prune now
      if (g.seen.lookup headers.nonce).isSome then (.error .replay, g)
      else
        match decodeKey crypto.base64 key with
        | .error _ => (.error .malformed, g)
        | .ok key =>
          match crypto.base64.decode headers.signature with
          | none => (.error .malformed, g)
          | some signature =>
            if authenticator crypto key method path headers.timestamp headers.nonce = signature then
              (.ok (), g.record choice headers.nonce now)
            else (.error .invalidSignature, g)

end ReplayGuard

/-- The signature of the headers is the tag of the request under the key. -/
def Authentic (crypto : Crypto) (key method path : String) (headers : SignedRequestHeaders) :
    Prop :=
  ∃ bytes, decodeKey crypto.base64 key = .ok bytes ∧
    crypto.base64.decode headers.signature =
      some (authenticator crypto bytes method path headers.timestamp headers.nonce)

/-- A call of `verify` leaves the guard alone, prunes it, or accepts the request. -/
theorem verify_cases (crypto : Crypto) (choice : OldestChoice) (g : ReplayGuard)
    (key method path : String) (headers : SignedRequestHeaders) (now : ℕ) :
    (∃ error, g.verify crypto choice key method path headers now = (.error error, g)) ∨
      (∃ error, g.verify crypto choice key method path headers now =
        (.error error, g.prune now)) ∨
      ∃ timestamp, parseU64 headers.timestamp = some timestamp ∧
        absDiff now timestamp ≤ maxClockSkew ∧
        (g.prune now).seen.lookup headers.nonce = none ∧
        Authentic crypto key method path headers ∧
        g.verify crypto choice key method path headers now =
          (.ok (), (g.prune now).record choice headers.nonce now) := by
  unfold ReplayGuard.verify
  cases htimestamp : parseU64 headers.timestamp with
  | none => exact Or.inl ⟨_, rfl⟩
  | some timestamp =>
    simp only []
    split
    · exact Or.inl ⟨_, rfl⟩
    rename_i hskew
    split
    · exact Or.inr (Or.inl ⟨_, rfl⟩)
    rename_i hseen
    cases hkey : decodeKey crypto.base64 key with
    | error err => exact Or.inr (Or.inl ⟨_, rfl⟩)
    | ok bytes =>
      cases hsignature : crypto.base64.decode headers.signature with
      | none => exact Or.inr (Or.inl ⟨_, rfl⟩)
      | some signature =>
        simp only []
        split
        · rename_i htag
          refine Or.inr (Or.inr ⟨timestamp, rfl, not_lt.mp hskew, ?_, ⟨bytes, hkey, ?_⟩, rfl⟩)
          · simpa using hseen
          · rw [hsignature, htag]
        · exact Or.inr (Or.inl ⟨_, rfl⟩)

/-! ## What the operations leave under a nonce -/

theorem lookup_prune (g : ReplayGuard) (now : ℕ) (nonce : String) :
    (g.prune now).seen.lookup nonce =
      (g.seen.lookup nonce).filter fun acceptedAt => now - acceptedAt ≤ g.retention :=
  Dict.lookup_retain _ _ _

/-- Without an eviction, recording adds one entry. -/
theorem lookup_record_of_lt (choice : OldestChoice) {g : ReplayGuard}
    (h : g.seen.entries.length < g.capacity) (nonce nonce' : String) (now : ℕ) :
    (g.record choice nonce now).seen.lookup nonce' =
      if nonce' = nonce then some now else g.seen.lookup nonce' := by
  simp only [ReplayGuard.record, not_le.mpr h, if_false, Dict.lookup_insert]

/-- What recording leaves was there before, or is the new record. -/
theorem lookup_record (choice : OldestChoice) {g : ReplayGuard} {nonce nonce' : String}
    {now acceptedAt : ℕ}
    (h : (g.record choice nonce now).seen.lookup nonce' = some acceptedAt) :
    g.seen.lookup nonce' = some acceptedAt ∨ (nonce' = nonce ∧ acceptedAt = now) := by
  unfold ReplayGuard.record at h
  simp only [Dict.lookup_insert] at h
  split at h
  · rename_i hnonce
    exact Or.inr ⟨hnonce, (Option.some_inj.mp h).symm⟩
  · left
    split at h
    · unfold ReplayGuard.removeOldest at h
      split at h
      · rw [Dict.lookup_erase, Option.ite_none_left_eq_some] at h
        exact h.2
      · exact h
    · exact h

/-- A record that is lost when another nonce is recorded was evicted: the guard was full, and
no record in it was older. -/
theorem evicted_of_lookup_record (choice : OldestChoice) {g : ReplayGuard}
    {nonce nonce' : String} {now acceptedAt : ℕ} (hfresh : g.seen.lookup nonce = none)
    (h : g.seen.lookup nonce' = some acceptedAt)
    (hlost : (g.record choice nonce now).seen.lookup nonce' ≠ some acceptedAt) :
    g.capacity ≤ g.seen.entries.length ∧
      ∀ n a, g.seen.lookup n = some a → acceptedAt ≤ a := by
  have hne : nonce' ≠ nonce := by
    intro heq
    rw [heq, hfresh] at h
    cases h
  have hfull : g.capacity ≤ g.seen.entries.length := by
    by_contra hroom
    apply hlost
    rw [lookup_record_of_lt choice (not_le.mp hroom), if_neg hne]
    exact h
  refine ⟨hfull, ?_⟩
  unfold ReplayGuard.record ReplayGuard.removeOldest at hlost
  simp only [hfull, if_true, Dict.lookup_insert, if_neg hne] at hlost
  cases hpick : choice.pick g.seen with
  | none =>
    rw [hpick] at hlost
    exact absurd h hlost
  | some evicted =>
    rw [hpick] at hlost
    simp only [Dict.lookup_erase] at hlost
    -- only the record that was picked is gone
    have heq : nonce' = evicted := by
      by_contra hother
      rw [if_neg hother] at hlost
      exact hlost h
    obtain ⟨oldest, hlookup, hmin⟩ := choice.pick_min g.seen evicted hpick
    rw [← heq, h] at hlookup
    cases hlookup
    exact hmin

@[simp] theorem retention_record (choice : OldestChoice) (g : ReplayGuard) (nonce : String)
    (now : ℕ) : (g.record choice nonce now).retention = g.retention := by
  unfold ReplayGuard.record ReplayGuard.removeOldest
  simp only []
  split
  · split <;> rfl
  · rfl

@[simp] theorem capacity_record (choice : OldestChoice) (g : ReplayGuard) (nonce : String)
    (now : ℕ) : (g.record choice nonce now).capacity = g.capacity := by
  unfold ReplayGuard.record ReplayGuard.removeOldest
  simp only []
  split
  · split <;> rfl
  · rfl

end Wakezilla
