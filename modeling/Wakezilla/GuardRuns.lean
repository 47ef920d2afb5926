/-
# Runs of the replay guard

Any sequence of calls of `verify` on one guard, with any keys, headers and clock
readings.

* `rejected_calls_have_no_influence` : with a clock that does not step backwards, the
  calls that failed may be left out and every other call answers the same;
* `exact_replay_window` : what must have happened between two calls that accept the same
  nonce and timestamp, also when the clock steps backwards.  Every record of the guard
  belongs to an acceptance (`exists_acceptance`), and there are two ways to lose one
  (`lost_record`).

A failed call may prune the guard, so the two runs of the first theorem do not pass
through the same states.  They agree on what is left after a pruning at the present
time (`AgreeFrom`), and a call looks at the guard only through such a pruning
(`call_congr`).
-/
import Wakezilla.ClientServer
import Wakezilla.TurnOffLimiter

namespace Wakezilla

/-! ## Calls -/

/-- The arguments of a call of `verify`. -/
structure VerifyCall where
  key : String
  method : String
  path : String
  headers : SignedRequestHeaders
  now : ℕ
  deriving DecidableEq, Repr

variable (crypto : Crypto) (choice : OldestChoice)

/-- One call of `verify`. -/
def ReplayGuard.call (g : ReplayGuard) (c : VerifyCall) : Except VerifyError Unit × ReplayGuard :=
  g.verify crypto choice c.key c.method c.path c.headers c.now

/-- The guard after a call. -/
def guardStep (g : ReplayGuard) (c : VerifyCall) : ReplayGuard := (g.call crypto choice c).2

/-- The results of the calls, in their order. -/
def verdicts : ReplayGuard → List VerifyCall → List (Except VerifyError Unit)
  | _, [] => []
  | g, c :: calls => (g.call crypto choice c).1 :: verdicts (guardStep crypto choice g c) calls

/-- A call that does not accept leaves the guard alone or prunes it. -/
theorem guardStep_of_error {g : ReplayGuard} {c : VerifyCall} {error : VerifyError}
    (h : (g.call crypto choice c).1 = .error error) :
    guardStep crypto choice g c = g ∨ guardStep crypto choice g c = g.prune c.now := by
  unfold guardStep
  unfold ReplayGuard.call at h ⊢
  rcases verify_cases crypto choice g c.key c.method c.path c.headers c.now with
    ⟨error', hverify⟩ | ⟨error', hverify⟩ | ⟨timestamp, -, -, -, -, hverify⟩
  · rw [hverify]
    exact Or.inl rfl
  · rw [hverify]
    exact Or.inr rfl
  · rw [hverify] at h
    cases h

/-- Everything that acceptance of a call says. -/
theorem call_of_ok {g : ReplayGuard} {c : VerifyCall} (h : (g.call crypto choice c).1 = .ok ()) :
    (∃ timestamp, parseU64 c.headers.timestamp = some timestamp ∧
        absDiff c.now timestamp ≤ maxClockSkew) ∧
      (g.prune c.now).seen.lookup c.headers.nonce = none ∧
      guardStep crypto choice g c = (g.prune c.now).record choice c.headers.nonce c.now := by
  unfold guardStep
  unfold ReplayGuard.call at h ⊢
  rcases verify_cases crypto choice g c.key c.method c.path c.headers c.now with
    ⟨error, hverify⟩ | ⟨error, hverify⟩ | ⟨timestamp, hparse, hskew, hfresh, -, hverify⟩
  · rw [hverify] at h
    cases h
  · rw [hverify] at h
    cases h
  · rw [hverify]
    exact ⟨⟨timestamp, hparse, hskew⟩, hfresh, rfl⟩

/-! ## Leaving out rejected calls -/

/-- The list without the members at the deleted positions. -/
def dropAt {α : Type*} (deleted : ℕ → Bool) : List α → List α
  | [] => []
  | x :: xs =>
    if deleted 0 then dropAt (fun i => deleted (i + 1)) xs
    else x :: dropAt (fun i => deleted (i + 1)) xs

/-- Two guards that any pruning at `now` or later makes equal. -/
def AgreeFrom (now : ℕ) (g g' : ReplayGuard) : Prop := ∀ t, now ≤ t → g.prune t = g'.prune t

/-- A later pruning includes an earlier one. -/
theorem prune_prune (g : ReplayGuard) {s t : ℕ} (h : s ≤ t) : (g.prune s).prune t = g.prune t := by
  have hseen : (g.seen.retain fun _ acceptedAt => s - acceptedAt ≤ g.retention).retain
      (fun _ acceptedAt => t - acceptedAt ≤ g.retention) =
      g.seen.retain fun _ acceptedAt => t - acceptedAt ≤ g.retention := by
    apply Dict.retain_retain
    intro _ acceptedAt hyoung
    -- what is young enough at `t` was young enough at `s`
    rw [decide_eq_true_eq] at hyoung ⊢
    omega
  exact congrArg (fun seen => (⟨seen, g.retention, g.capacity⟩ : ReplayGuard)) hseen

theorem AgreeFrom.prune {now : ℕ} {g g' : ReplayGuard} (h : AgreeFrom now g g') {s : ℕ} :
    AgreeFrom (max now s) (g.prune s) g' := by
  intro t ht
  rw [prune_prune g ((le_max_right now s).trans ht)]
  exact h t ((le_max_left now s).trans ht)

/-- A call sees only the pruned guard: it answers the same, and leaves either the same guard or
both guards alone. -/
theorem call_congr {g g' : ReplayGuard} {c : VerifyCall} (h : g.prune c.now = g'.prune c.now) :
    (g.call crypto choice c).1 = (g'.call crypto choice c).1 ∧
      (guardStep crypto choice g c = guardStep crypto choice g' c ∨
        (guardStep crypto choice g c = g ∧ guardStep crypto choice g' c = g')) := by
  unfold guardStep ReplayGuard.call ReplayGuard.verify
  cases parseU64 c.headers.timestamp with
  | none => exact ⟨rfl, Or.inr ⟨rfl, rfl⟩⟩
  | some timestamp =>
    simp only []
    by_cases hskew : maxClockSkew < absDiff c.now timestamp
    · rw [if_pos hskew, if_pos hskew]
      exact ⟨rfl, Or.inr ⟨rfl, rfl⟩⟩
    · rw [if_neg hskew, if_neg hskew, h]
      exact ⟨rfl, Or.inl rfl⟩

/-- Leaving out calls that failed, from two guards that agree. -/
theorem verdicts_dropAt {g g' : ReplayGuard} {now : ℕ} (hagree : AgreeFrom now g g')
    (calls : List VerifyCall) (deleted : ℕ → Bool) (hnow : ∀ c ∈ calls, now ≤ c.now)
    (hclock : calls.Pairwise fun c c' => c.now ≤ c'.now)
    (hrejected : ∀ i, deleted i = true → (verdicts crypto choice g calls)[i]? ≠ some (.ok ())) :
    verdicts crypto choice g' (dropAt deleted calls) =
      dropAt deleted (verdicts crypto choice g calls) := by
  induction calls generalizing g g' now deleted with
  | nil => rfl
  | cons c calls ih =>
    rw [List.pairwise_cons] at hclock
    have hc : now ≤ c.now := hnow c List.mem_cons_self
    have hrest : ∀ i, deleted (i + 1) = true →
        (verdicts crypto choice (guardStep crypto choice g c) calls)[i]? ≠ some (.ok ()) := by
      intro i hi
      exact hrejected (i + 1) hi
    rw [dropAt, verdicts, dropAt]
    cases hdeleted : deleted 0 with
    | true =>
      -- the call is left out: at most a pruning is missing in the other run
      rw [if_pos rfl, if_pos rfl]
      refine @ih _ _ c.now ?_ _ hclock.1 hclock.2 hrest
      have hfirst : (g.call crypto choice c).1 ≠ .ok () := fun h =>
        hrejected 0 hdeleted (congrArg some h)
      cases hresult : (g.call crypto choice c).1 with
      | ok u => exact absurd hresult hfirst
      | error error =>
        rcases guardStep_of_error crypto choice hresult with hstep | hstep
        · rw [hstep]
          exact fun t ht => hagree t (hc.trans ht)
        · rw [hstep]
          have hpruned := hagree.prune (s := c.now)
          rw [max_eq_right hc] at hpruned
          exact hpruned
    | false =>
      rw [if_neg Bool.false_ne_true, if_neg Bool.false_ne_true, verdicts]
      obtain ⟨hverdict, hstep⟩ := call_congr crypto choice (hagree c.now hc)
      rw [← hverdict]
      refine congrArg _ (@ih _ _ c.now ?_ _ hclock.1 hclock.2 hrest)
      intro t ht
      rcases hstep with hsame | ⟨hleft, hright⟩
      · rw [hsame]
      · rw [hleft, hright]
        exact hagree t (hc.trans ht)

/-- A call that fails drops no record that is young enough to be kept. -/
theorem lookup_guardStep_of_error {g : ReplayGuard} {c : VerifyCall} {error : VerifyError}
    (h : (g.call crypto choice c).1 = .error error) {nonce : String} {acceptedAt : ℕ}
    (hseen : g.seen.lookup nonce = some acceptedAt) (hyoung : c.now - acceptedAt ≤ g.retention) :
    (guardStep crypto choice g c).seen.lookup nonce = some acceptedAt := by
  rcases guardStep_of_error crypto choice h with hstep | hstep
  · rw [hstep]
    exact hseen
  · rw [hstep, lookup_prune, hseen]
    exact Option.filter_eq_some_iff.mpr ⟨rfl, decide_eq_true hyoung⟩

/-- **Rejected calls have no influence.**  In a sequence of calls whose clock does not step
backwards, any set of calls that failed may be left out: every other call returns the same.
And no call that fails drops the record of a nonce that is within the retention. -/
theorem rejected_calls_have_no_influence (g : ReplayGuard) (calls : List VerifyCall)
    (hclock : calls.Pairwise fun c c' => c.now ≤ c'.now) :
    (∀ deleted : ℕ → Bool, (∀ i, deleted i = true →
          ∃ error, (verdicts crypto choice g calls)[i]? = some (.error error)) →
        verdicts crypto choice g (dropAt deleted calls) =
          dropAt deleted (verdicts crypto choice g calls)) ∧
      ∀ (g : ReplayGuard) (c : VerifyCall) error, (g.call crypto choice c).1 = .error error →
        ∀ nonce acceptedAt, g.seen.lookup nonce = some acceptedAt →
          c.now - acceptedAt ≤ g.retention →
          (guardStep crypto choice g c).seen.lookup nonce = some acceptedAt := by
  constructor
  · intro deleted hdeleted
    have hsame : AgreeFrom 0 g g := fun _ _ => rfl
    refine verdicts_dropAt crypto choice hsame calls deleted (fun c _ => Nat.zero_le c.now) hclock
      fun i hi hok => ?_
    obtain ⟨error, herror⟩ := hdeleted i hi
    rw [herror] at hok
    cases hok
  · intro g c error h nonce acceptedAt hseen hyoung
    exact lookup_guardStep_of_error crypto choice h hseen hyoung

/-- The call that delivers the sample request at a time. -/
def sampleCall (now : ℕ) : VerifyCall :=
  ⟨sampleKey, "POST", "/machines/turn-off", sampleHeaders, now⟩

/-- A forged request between a signed one and its replay. -/
theorem forged_call_has_no_influence :
    verdicts sampleCrypto firstOldest .default [sampleCall 1700000000, sampleCall 1700000002] =
        [.ok (), .error .replay] := by
  have hfull : verdicts sampleCrypto firstOldest .default
      [sampleCall 1700000000,
        { sampleCall 1700000001 with headers := { sampleHeaders with nonce := "forged" } },
        sampleCall 1700000002] = [.ok (), .error .invalidSignature, .error .replay] := by
    decide +kernel
  obtain ⟨hdrop, -⟩ := rejected_calls_have_no_influence sampleCrypto firstOldest .default
    [sampleCall 1700000000,
      { sampleCall 1700000001 with headers := { sampleHeaders with nonce := "forged" } },
      sampleCall 1700000002] (by decide)
  rw [hfull] at hdrop
  refine hdrop (fun i => i = 1) fun i hi => ⟨.invalidSignature, ?_⟩
  rw [of_decide_eq_true hi]
  rfl

/-! ## Records and acceptances

The state before call `k` is what `calls.take k` leaves. -/

/-- The guard before call `k`. -/
def guardAt (g : ReplayGuard) (calls : List VerifyCall) (k : ℕ) : ReplayGuard :=
  Run.exec (guardStep crypto choice) g (calls.take k)

/-- The numbers of the calls that returned `Ok`. -/
def acceptances (g : ReplayGuard) (calls : List VerifyCall) : Finset ℕ :=
  (Finset.range calls.length).filter fun k => (verdicts crypto choice g calls)[k]? = some (.ok ())

theorem guardAt_succ {g : ReplayGuard} {calls : List VerifyCall} {k : ℕ} {c : VerifyCall}
    (hc : calls[k]? = some c) :
    guardAt crypto choice g calls (k + 1) =
      guardStep crypto choice (guardAt crypto choice g calls k) c := by
  unfold guardAt
  rw [List.take_add_one, hc, Option.toList_some, Run.exec_concat]

theorem verdicts_getElem? {g : ReplayGuard} {calls : List VerifyCall} {k : ℕ} {c : VerifyCall}
    (hc : calls[k]? = some c) :
    (verdicts crypto choice g calls)[k]? =
      some ((guardAt crypto choice g calls k).call crypto choice c).1 := by
  induction calls generalizing g k with
  | nil => cases hc
  | cons first calls ih =>
    cases k with
    | zero =>
      cases hc
      rfl
    | succ k => exact ih (g := guardStep crypto choice g first) hc

theorem mem_acceptances {g : ReplayGuard} {calls : List VerifyCall} {k : ℕ} {c : VerifyCall}
    (hc : calls[k]? = some c) : k ∈ acceptances crypto choice g calls ↔
      ((guardAt crypto choice g calls k).call crypto choice c).1 = .ok () := by
  have hlt : k < calls.length := (List.getElem?_eq_some_iff.mp hc).1
  rw [acceptances, Finset.mem_filter, Finset.mem_range, verdicts_getElem? crypto choice hc,
    Option.some_inj]
  exact and_iff_right hlt

/-- A record that is present after a call was there before, or the call made it. -/
theorem lookup_guardStep {g : ReplayGuard} {c : VerifyCall} {nonce : String} {acceptedAt : ℕ}
    (h : (guardStep crypto choice g c).seen.lookup nonce = some acceptedAt) :
    g.seen.lookup nonce = some acceptedAt ∨
      ((g.call crypto choice c).1 = .ok () ∧ nonce = c.headers.nonce ∧ acceptedAt = c.now) := by
  have hprune : (g.prune c.now).seen.lookup nonce = some acceptedAt →
      g.seen.lookup nonce = some acceptedAt := by
    rw [lookup_prune, Option.filter_eq_some_iff]
    exact And.left
  cases hresult : (g.call crypto choice c).1 with
  | error error =>
    rcases guardStep_of_error crypto choice hresult with hstep | hstep
    · rw [hstep] at h
      exact Or.inl h
    · rw [hstep] at h
      exact Or.inl (hprune h)
  | ok u =>
    obtain ⟨-, -, hstep⟩ := call_of_ok crypto choice hresult
    rw [hstep] at h
    rcases lookup_record choice h with hold | hnew
    · exact Or.inl (hprune hold)
    · exact Or.inr ⟨rfl, hnew⟩

/-- A record is lost by age, or evicted by an accepted call: then the guard was full, and no
record in it was older. -/
theorem lost_record {g : ReplayGuard} {c : VerifyCall} {nonce : String} {acceptedAt : ℕ}
    (h : g.seen.lookup nonce = some acceptedAt)
    (hlost : (guardStep crypto choice g c).seen.lookup nonce ≠ some acceptedAt) :
    acceptedAt + g.retention < c.now ∨
      ((g.call crypto choice c).1 = .ok () ∧ (g.prune c.now).seen.lookup nonce = some acceptedAt ∧
        g.capacity ≤ (g.prune c.now).seen.entries.length ∧
        ∀ n a, (g.prune c.now).seen.lookup n = some a → acceptedAt ≤ a) := by
  by_cases hyoung : c.now - acceptedAt ≤ g.retention
  · have hkept : (g.prune c.now).seen.lookup nonce = some acceptedAt := by
      rw [lookup_prune, h]
      exact Option.filter_eq_some_iff.mpr ⟨rfl, decide_eq_true hyoung⟩
    cases hresult : (g.call crypto choice c).1 with
    | error error =>
      exact absurd (lookup_guardStep_of_error crypto choice hresult h hyoung) hlost
    | ok u =>
      obtain ⟨-, hfresh, hstep⟩ := call_of_ok crypto choice hresult
      rw [hstep] at hlost
      obtain ⟨hfull, holdest⟩ := evicted_of_lookup_record choice hfresh hkept hlost
      exact Or.inr ⟨rfl, hkept, hfull, holdest⟩
  · left
    omega

/-! ## Runs of a new guard -/

/-- No call changes the retention or the capacity. -/
theorem guardAt_limits (g : ReplayGuard) (calls : List VerifyCall) (k : ℕ) :
    (guardAt crypto choice g calls k).retention = g.retention ∧
      (guardAt crypto choice g calls k).capacity = g.capacity := by
  refine Run.exec_invariant_of_forall
    (P := fun g' : ReplayGuard => g'.retention = g.retention ∧ g'.capacity = g.capacity)
    (calls.take k) ⟨rfl, rfl⟩ ?_
  intro g' c h
  cases hresult : (g'.call crypto choice c).1 with
  | error error =>
    rcases guardStep_of_error crypto choice hresult with hstep | hstep <;> rw [hstep] <;> exact h
  | ok u =>
    obtain ⟨-, -, hstep⟩ := call_of_ok crypto choice hresult
    rw [hstep, retention_record, capacity_record]
    exact h

/-- **Every record has an acceptance.**  A guard that was new before the first call holds the
nonce and the clock reading of calls that were accepted. -/
theorem exists_acceptance (retention capacity : ℕ) (calls : List VerifyCall) {k : ℕ}
    (hk : k ≤ calls.length) {nonce : String} {acceptedAt : ℕ}
    (h : (guardAt crypto choice (.new retention capacity) calls k).seen.lookup nonce =
      some acceptedAt) :
    ∃ p c, p < k ∧ calls[p]? = some c ∧
      p ∈ acceptances crypto choice (.new retention capacity) calls ∧
      c.headers.nonce = nonce ∧ c.now = acceptedAt := by
  induction k with
  | zero => cases h
  | succ k ih =>
    have hc : calls[k]? = some (calls.get ⟨k, hk⟩) := List.getElem?_eq_getElem hk
    rw [guardAt_succ crypto choice hc] at h
    rcases lookup_guardStep crypto choice h with hold | ⟨hok, hnonce, hnow⟩
    · obtain ⟨p, c, hp, hrest⟩ := ih (Nat.le_of_succ_le hk) hold
      exact ⟨p, c, hp.trans (Nat.lt_succ_self k), hrest⟩
    · exact ⟨k, _, Nat.lt_succ_self k, hc, (mem_acceptances crypto choice hc).mpr hok,
        hnonce.symm, hnow.symm⟩

/-- A record that is gone after some calls was lost in one of them. -/
theorem exists_lost (g : ReplayGuard) (calls : List VerifyCall) {p q : ℕ} (hpq : p ≤ q)
    {nonce : String} {acceptedAt : ℕ}
    (hp : (guardAt crypto choice g calls p).seen.lookup nonce = some acceptedAt)
    (hq : (guardAt crypto choice g calls q).seen.lookup nonce ≠ some acceptedAt) :
    ∃ k, p ≤ k ∧ k < q ∧
      (guardAt crypto choice g calls k).seen.lookup nonce = some acceptedAt ∧
      (guardAt crypto choice g calls (k + 1)).seen.lookup nonce ≠ some acceptedAt := by
  induction q, hpq using Nat.le_induction with
  | base => exact absurd hp hq
  | succ q hpq ih =>
    by_cases hhere : (guardAt crypto choice g calls q).seen.lookup nonce = some acceptedAt
    · exact ⟨q, hpq, Nat.lt_succ_self q, hhere, hq⟩
    · obtain ⟨k, hk, hkq, hrest⟩ := ih hhere
      exact ⟨k, hk, hkq.trans (Nat.lt_succ_self q), hrest⟩

/-! ## The replay window -/

/-- `Duration::as_secs`. -/
def Duration.asSecs (duration : ℕ) : ℕ := duration / 1000000000

/-- The clock reading of call `k`. -/
def readingAt (calls : List VerifyCall) (k : ℕ) : ℕ := (calls[k]?.map VerifyCall.now).getD 0

/-- The nonce of call `k`. -/
def nonceAt (calls : List VerifyCall) (k : ℕ) : String :=
  (calls[k]?.map fun c => c.headers.nonce).getD ""

theorem readingAt_eq {calls : List VerifyCall} {k : ℕ} {c : VerifyCall} (hc : calls[k]? = some c) :
    readingAt calls k = c.now := by
  rw [readingAt, hc]
  rfl

/-- Two acceptances of one timestamp are at most 120 seconds apart. -/
theorem close_of_acceptances {g : ReplayGuard} {calls : List VerifyCall} {i j : ℕ}
    {first second : VerifyCall} (hi : calls[i]? = some first) (hj : calls[j]? = some second)
    (htimestamp : second.headers.timestamp = first.headers.timestamp)
    (hfirst : i ∈ acceptances crypto choice g calls)
    (hsecond : j ∈ acceptances crypto choice g calls) : second.now ≤ first.now + 120 := by
  obtain ⟨⟨t, ht, hskew⟩, -⟩ :=
    call_of_ok crypto choice ((mem_acceptances crypto choice hi).mp hfirst)
  obtain ⟨⟨t', ht', hskew'⟩, -⟩ :=
    call_of_ok crypto choice ((mem_acceptances crypto choice hj).mp hsecond)
  rw [htimestamp, ht] at ht'
  cases ht'
  unfold absDiff maxClockSkew at hskew hskew'
  omega

/-- The other records of a full guard in which no record is older than `acceptedAt` come from as
many acceptances that are no older. -/
theorem card_acceptances_of_full {retention capacity : ℕ} {calls : List VerifyCall} {i k now : ℕ}
    {first : VerifyCall} (hi : calls[i]? = some first) (hk : k ≤ calls.length)
    (hkept : ((guardAt crypto choice (.new retention capacity) calls k).prune now).seen.lookup
      first.headers.nonce = some first.now)
    (holdest : ∀ n a, ((guardAt crypto choice (.new retention capacity) calls k).prune
      now).seen.lookup n = some a → first.now ≤ a) :
    ((guardAt crypto choice (.new retention capacity) calls k).prune now).seen.entries.length - 1 ≤
      ((acceptances crypto choice (.new retention capacity) calls).filter fun p =>
        p < k ∧ p ≠ i ∧ first.now ≤ readingAt calls p).card := by
  set seen := ((guardAt crypto choice (.new retention capacity) calls k).prune now).seen with hseen
  have hmem : first.headers.nonce ∈ seen.keys.toFinset := by
    rw [List.mem_toFinset, ← AList.mem_keys, ← AList.lookup_isSome, hkept]
    rfl
  have hlength : seen.entries.length - 1 = (seen.keys.toFinset.erase first.headers.nonce).card := by
    rw [Finset.card_erase_of_mem hmem, List.toFinset_card_of_nodup seen.keys_nodup, AList.keys,
      List.keys, List.length_map]
  have hsubset : seen.keys.toFinset.erase first.headers.nonce ⊆
      ((acceptances crypto choice (.new retention capacity) calls).filter fun p =>
        p < k ∧ p ≠ i ∧ first.now ≤ readingAt calls p).image (nonceAt calls) := by
    intro nonce hnonce
    obtain ⟨hother, hin⟩ := Finset.mem_erase.mp hnonce
    rw [List.mem_toFinset, ← AList.mem_keys, ← AList.lookup_isSome] at hin
    obtain ⟨acceptedAt, hlookup⟩ := Option.isSome_iff_exists.mp hin
    have hbefore : (guardAt crypto choice (.new retention capacity) calls k).seen.lookup nonce =
        some acceptedAt := by
      have hpruned := hlookup
      rw [hseen, lookup_prune, Option.filter_eq_some_iff] at hpruned
      exact hpruned.1
    obtain ⟨p, c, hpk, hp, haccepted, hcnonce, hcnow⟩ :=
      exists_acceptance crypto choice retention capacity calls hk hbefore
    refine Finset.mem_image.mpr ⟨p, Finset.mem_filter.mpr ⟨haccepted, hpk, ?_, ?_⟩, ?_⟩
    · -- call `i` has the nonce that was taken out
      intro hpi
      rw [hpi, hi] at hp
      cases hp
      exact hother hcnonce.symm
    · rw [readingAt_eq hp, hcnow]
      exact holdest nonce acceptedAt hlookup
    · rw [nonceAt, hp, ← hcnonce]
      rfl
  rw [hlength]
  exact (Finset.card_le_card hsubset).trans Finset.card_image_le

/-- An accepted call leaves its nonce recorded at its reading. -/
theorem lookup_after_acceptance {g : ReplayGuard} {calls : List VerifyCall} {i : ℕ}
    {c : VerifyCall} (hc : calls[i]? = some c) (hi : i ∈ acceptances crypto choice g calls) :
    (guardAt crypto choice g calls (i + 1)).seen.lookup c.headers.nonce = some c.now := by
  obtain ⟨-, -, hstep⟩ := call_of_ok crypto choice ((mem_acceptances crypto choice hc).mp hi)
  rw [guardAt_succ crypto choice hc, hstep]
  unfold ReplayGuard.record
  simp only [Dict.lookup_insert, if_true]

/-- An accepted call did not find its nonce recorded within the retention. -/
theorem lookup_before_acceptance {g : ReplayGuard} {calls : List VerifyCall} {j : ℕ}
    {c : VerifyCall} (hc : calls[j]? = some c) (hj : j ∈ acceptances crypto choice g calls)
    {acceptedAt : Instant} (hyoung : c.now - acceptedAt ≤ g.retention) :
    (guardAt crypto choice g calls j).seen.lookup c.headers.nonce ≠ some acceptedAt := by
  intro hpresent
  obtain ⟨-, hfresh, -⟩ := call_of_ok crypto choice ((mem_acceptances crypto choice hc).mp hj)
  rw [← (guardAt_limits crypto choice g calls j).1] at hyoung
  rw [lookup_prune, hpresent, Option.filter_some, if_pos (decide_eq_true hyoung)] at hfresh
  cases hfresh

/-- What happened between two acceptances of one nonce and timestamp: a pruning that was more
than the retention later, or an eviction from a full guard. -/
theorem between_acceptances {retention capacity : ℕ} (hretention : 120 ≤ retention)
    {calls : List VerifyCall} {i j : ℕ} {first second : VerifyCall} (hij : i < j)
    (hi : calls[i]? = some first) (hj : calls[j]? = some second)
    (hnonce : second.headers.nonce = first.headers.nonce)
    (htimestamp : second.headers.timestamp = first.headers.timestamp)
    (hfirst : i ∈ acceptances crypto choice (.new retention capacity) calls)
    (hsecond : j ∈ acceptances crypto choice (.new retention capacity) calls) :
    ∃ k c, i < k ∧ k < j ∧ calls[k]? = some c ∧
      (first.now + retention < c.now ∨
        (k ∈ acceptances crypto choice (.new retention capacity) calls ∧
          max capacity 1 - 1 ≤
            ((acceptances crypto choice (.new retention capacity) calls).filter fun p =>
              p < k ∧ p ≠ i ∧ first.now ≤ readingAt calls p).card)) := by
  set g : ReplayGuard := .new retention capacity with hg
  -- call `i` recorded the nonce, and call `j` did not find it
  have hrecorded : (guardAt crypto choice g calls (i + 1)).seen.lookup first.headers.nonce =
      some first.now := lookup_after_acceptance crypto choice hi hfirst
  have hgone : (guardAt crypto choice g calls j).seen.lookup first.headers.nonce ≠
      some first.now := by
    have hclose := close_of_acceptances crypto choice hi hj htimestamp hfirst hsecond
    have hyoung : second.now - first.now ≤ g.retention := by
      change second.now - first.now ≤ retention
      omega
    rw [← hnonce]
    exact lookup_before_acceptance crypto choice hj hsecond hyoung
  obtain ⟨k, hik, hkj, hbefore, hafter⟩ := exists_lost crypto choice g calls hij hrecorded hgone
  have hlt : k < calls.length := hkj.trans (List.getElem?_eq_some_iff.mp hj).1
  have hk : calls[k]? = some (calls.get ⟨k, hlt⟩) := List.getElem?_eq_getElem hlt
  refine ⟨k, calls.get ⟨k, hlt⟩, hik, hkj, hk, ?_⟩
  rw [guardAt_succ crypto choice hk] at hafter
  rcases lost_record crypto choice hbefore hafter with hold | ⟨hok, hkept, hfull, holdest⟩
  · left
    rw [(guardAt_limits crypto choice g calls k).1] at hold
    exact hold
  · right
    refine ⟨(mem_acceptances crypto choice hk).mpr hok, ?_⟩
    rw [(guardAt_limits crypto choice g calls k).2] at hfull
    have hfull' : max capacity 1 ≤ _ := hfull
    exact (Nat.sub_le_sub_right hfull' 1).trans
      (card_acceptances_of_full crypto choice hi hlt.le hkept holdest)

section Counting

variable {accepted : Finset ℕ} {i j k : ℕ} {P Q : ℕ → Prop} [DecidablePred P] [DecidablePred Q]

/-- An acceptance is one more than those before it. -/
theorem succ_card_le (hk : k ∈ accepted) (hik : i < k) (hkj : k < j) :
    (accepted.filter fun p => p < k ∧ p ≠ i ∧ P p).card + 1 ≤
      (accepted.filter fun p => p < j ∧ p ≠ i).card := by
  have hnew : k ∉ accepted.filter fun p => p < k ∧ p ≠ i ∧ P p := fun hp =>
    lt_irrefl k (Finset.mem_filter.mp hp).2.1
  rw [← Finset.card_insert_of_notMem hnew]
  apply Finset.card_le_card
  intro p hp
  rcases Finset.mem_insert.mp hp with rfl | hp
  · exact Finset.mem_filter.mpr ⟨hk, hkj, hik.ne'⟩
  · obtain ⟨hp, hpk, hpi, -⟩ := Finset.mem_filter.mp hp
    exact Finset.mem_filter.mpr ⟨hp, hpk.trans hkj, hpi⟩

/-- With the earlier one it is two more. -/
theorem succ_succ_card_le (hi : i ∈ accepted) (hk : k ∈ accepted) (hik : i < k) (hQi : Q i)
    (hQk : Q k) (hPQ : ∀ p ∈ accepted, p < k → P p → Q p) :
    (accepted.filter fun p => p < k ∧ p ≠ i ∧ P p).card + 2 ≤ (accepted.filter Q).card := by
  have hnewK : k ∉ accepted.filter fun p => p < k ∧ p ≠ i ∧ P p := fun hp =>
    lt_irrefl k (Finset.mem_filter.mp hp).2.1
  have hnewI : i ∉ insert k (accepted.filter fun p => p < k ∧ p ≠ i ∧ P p) := by
    intro hp
    rcases Finset.mem_insert.mp hp with hik' | hp
    · exact hik.ne hik'
    · exact (Finset.mem_filter.mp hp).2.2.1 rfl
  rw [← Nat.add_assoc _ 1 1, ← Finset.card_insert_of_notMem hnewK,
    ← Finset.card_insert_of_notMem hnewI]
  apply Finset.card_le_card
  intro p hp
  rcases Finset.mem_insert.mp hp with rfl | hp
  · exact Finset.mem_filter.mpr ⟨hi, hQi⟩
  · rcases Finset.mem_insert.mp hp with rfl | hp
    · exact Finset.mem_filter.mpr ⟨hk, hQk⟩
    · obtain ⟨hp, hpk, -, hPp⟩ := Finset.mem_filter.mp hp
      exact Finset.mem_filter.mpr ⟨hp, hPQ p hp hpk hPp⟩

end Counting

/-- The readings of a clock that does not step back are in the order of the calls. -/
theorem readingAt_mono {calls : List VerifyCall}
    (hclock : calls.Pairwise fun c c' => c.now ≤ c'.now) {p q : ℕ} (hpq : p < q)
    (hq : q < calls.length) : readingAt calls p ≤ readingAt calls q := by
  have hp : p < calls.length := hpq.trans hq
  rw [readingAt_eq (List.getElem?_eq_getElem hp), readingAt_eq (List.getElem?_eq_getElem hq)]
  exact List.pairwise_iff_getElem.mp hclock p q hp hq hpq

/-- **The exact replay window.**  For a guard with a retention of at least 120 seconds: between
two calls that accept the same nonce and timestamp the clock read more than the retention after
the first of them, or `max capacity 1` other calls before the second were accepted, all but one
of them at a reading no earlier than that of the first.  So when the clock does not step back
and fewer than `capacity` calls are accepted in any 120 seconds, no request is accepted twice. -/
theorem exact_replay_window (retention capacity : ℕ)
    (hretention : Duration.fromSecs 120 ≤ retention) (calls : List VerifyCall) :
    let accepted := acceptances crypto choice (.new (Duration.asSecs retention) capacity) calls
    (∀ i j first second, i < j → calls[i]? = some first → calls[j]? = some second →
        second.headers.nonce = first.headers.nonce →
        second.headers.timestamp = first.headers.timestamp → i ∈ accepted → j ∈ accepted →
        (∃ k c, i < k ∧ k < j ∧ calls[k]? = some c ∧
          Duration.fromSecs first.now + retention < Duration.fromSecs c.now) ∨
        (max capacity 1 ≤ (accepted.filter fun k => k < j ∧ k ≠ i).card ∧
          max capacity 1 - 1 ≤ (accepted.filter fun k =>
            k < j ∧ k ≠ i ∧ first.now ≤ readingAt calls k).card)) ∧
      ((calls.Pairwise fun c c' => c.now ≤ c'.now) →
        (∀ a, (accepted.filter fun k =>
          a ≤ readingAt calls k ∧ readingAt calls k ≤ a + 120).card < capacity) →
        ∀ i j first second, i < j → calls[i]? = some first → calls[j]? = some second →
          second.headers.nonce = first.headers.nonce →
          second.headers.timestamp = first.headers.timestamp → i ∈ accepted → j ∉ accepted) := by
  intro accepted
  have hsecs : 120 ≤ Duration.asSecs retention := by
    unfold Duration.asSecs Duration.fromSecs at *
    omega
  constructor
  · intro i j first second hij hi hj hnonce htimestamp hfirst hsecond
    obtain ⟨k, c, hik, hkj, hk, hlater | ⟨hkaccepted, hcard⟩⟩ :=
      between_acceptances crypto choice hsecs hij hi hj hnonce htimestamp hfirst hsecond
    · left
      refine ⟨k, c, hik, hkj, hk, ?_⟩
      unfold Duration.asSecs at hlater
      unfold Duration.fromSecs
      omega
    · right
      have hevicted : max capacity 1 - 1 ≤ (accepted.filter fun p =>
          p < k ∧ p ≠ i ∧ first.now ≤ readingAt calls p).card := hcard
      constructor
      · -- the evicting call is one more acceptance
        have hmore : (accepted.filter fun p =>
            p < k ∧ p ≠ i ∧ first.now ≤ readingAt calls p).card + 1 ≤
            (accepted.filter fun p => p < j ∧ p ≠ i).card := succ_card_le hkaccepted hik hkj
        omega
      · refine hevicted.trans (Finset.card_le_card fun p hp => ?_)
        obtain ⟨hp, hpk, hrest⟩ := Finset.mem_filter.mp hp
        exact Finset.mem_filter.mpr ⟨hp, hpk.trans hkj, hrest⟩
  · intro hclock hfew i j first second hij hi hj hnonce htimestamp hfirst hsecond
    obtain ⟨hjlt, -⟩ := List.getElem?_eq_some_iff.mp hj
    have hclose := close_of_acceptances crypto choice hi hj htimestamp hfirst hsecond
    rw [← readingAt_eq hj] at hclose
    obtain ⟨k, c, hik, hkj, hk, hlater | ⟨hkaccepted, hcard⟩⟩ :=
      between_acceptances crypto choice hsecs hij hi hj hnonce htimestamp hfirst hsecond
    · have hbefore := readingAt_mono hclock hkj hjlt
      rw [readingAt_eq hk] at hbefore
      omega
    · -- with `i` and `k` there are more than `capacity` acceptances in the 120 seconds from `i` on
      have hevicted : max capacity 1 - 1 ≤ (accepted.filter fun p =>
          p < k ∧ p ≠ i ∧ first.now ≤ readingAt calls p).card := hcard
      have hreading := readingAt_eq hi
      have hfrom := readingAt_mono hclock hik (hkj.trans hjlt)
      have hto : ∀ p, p < j → readingAt calls p ≤ first.now + 120 := fun p hpj =>
        (readingAt_mono hclock hpj hjlt).trans hclose
      have hmore : (accepted.filter fun p =>
          p < k ∧ p ≠ i ∧ first.now ≤ readingAt calls p).card + 2 ≤
          (accepted.filter fun p => first.now ≤ readingAt calls p ∧
            readingAt calls p ≤ first.now + 120).card :=
        succ_succ_card_le hfirst hkaccepted hik ⟨hreading.ge, hto i hij⟩
          ⟨hreading ▸ hfrom, hto k hkj⟩ fun p _ hpk hlow => ⟨hlow, hto p (hpk.trans hkj)⟩
      have hlt := hfew first.now
      omega

/-- Another turn-off request of the same second, whose nonce is 16 bytes `8`. -/
def otherHeaders : SignedRequestHeaders where
  timestamp := "1700000000"
  nonce := "CAgICAgICAgICAgICAgICA"
  signature := "oAftCKIX19PIztiqVhYCD2-HFzOXDeGipwzXVANLtYA"

/-- The libraries, with the HMAC-SHA256 of the two requests. -/
def pairCrypto : Crypto where
  base64 := urlSafeNoPad
  hmacSha256 key message :=
    if key = List.replicate 32 1 ∧ message = asBytes (canonicalRequest "POST"
        "/machines/turn-off" otherHeaders.timestamp otherHeaders.nonce) then
      [160, 7, 237, 8, 162, 23, 215, 211, 200, 206, 216, 170, 86, 22, 2, 15, 111, 135, 23,
        51, 151, 13, 225, 162, 167, 12, 215, 84, 3, 75, 181, 128]
    else sampleCrypto.hmacSha256 key message

/-- A request, another one, and the first again. -/
def replayedCalls : List VerifyCall :=
  [sampleCall 1700000000, { sampleCall 1700000010 with headers := otherHeaders },
    sampleCall 1700000030]

/-- A guard with room for one nonce accepts the first request twice: in between it has accepted
another one.  The default guard does not, since three calls are fewer than it has room for. -/
theorem sample_replay_window :
    let accepted := acceptances pairCrypto firstOldest
      (.new (Duration.asSecs (Duration.fromSecs 120)) 1) replayedCalls
    (accepted = {0, 1, 2} ∧ 1 ≤ (accepted.filter fun k => k < 2 ∧ k ≠ 0).card) ∧
      2 ∉ acceptances pairCrypto firstOldest
        (.new (Duration.asSecs (Duration.fromSecs 120)) 4096) replayedCalls := by
  intro accepted
  have hverdicts : verdicts pairCrypto firstOldest
      (.new (Duration.asSecs (Duration.fromSecs 120)) 1) replayedCalls =
        [.ok (), .ok (), .ok ()] := by
    decide +kernel
  have haccepted : accepted = {0, 1, 2} := by
    unfold accepted acceptances
    rw [hverdicts]
    rfl
  have hspec := fun capacity => exact_replay_window pairCrypto firstOldest (Duration.fromSecs 120)
    capacity le_rfl replayedCalls
  refine ⟨⟨haccepted, ?_⟩, ?_⟩
  · have hmem : ∀ k ∈ ({0, 1, 2} : Finset ℕ), k ∈ accepted := by
      rw [haccepted]
      exact fun k hk => hk
    rcases (hspec 1).1 0 2 (sampleCall 1700000000) (sampleCall 1700000030) Nat.zero_lt_two rfl rfl
      rfl rfl (hmem 0 (by decide)) (hmem 2 (by decide)) with
      ⟨k, c, hk, hk', hc, hlater⟩ | ⟨hcard, -⟩
    · -- the only call in between came ten seconds later
      obtain rfl : k = 1 := by omega
      cases hc
      exact absurd hlater (by decide)
    · exact hcard
  · refine (hspec 4096).2 (by decide) (fun a => ?_) 0 2 (sampleCall 1700000000)
      (sampleCall 1700000030) Nat.zero_lt_two rfl rfl rfl rfl ?_
    · have hthree : (acceptances pairCrypto firstOldest
          (.new (Duration.asSecs (Duration.fromSecs 120)) 4096) replayedCalls).card ≤ 3 :=
        (Finset.card_filter_le _ _).trans (Finset.card_range _).le
      have hsome := (Finset.card_filter_le (acceptances pairCrypto firstOldest
        (.new (Duration.asSecs (Duration.fromSecs 120)) 4096) replayedCalls)
        fun k => a ≤ readingAt replayedCalls k ∧ readingAt replayedCalls k ≤ a + 120).trans hthree
      omega
    · rw [mem_acceptances pairCrypto firstOldest (c := sampleCall 1700000000) rfl]
      decide +kernel

end Wakezilla
