/-
# How much history is kept

`record` cuts the buffer of its service down to the cap, and nothing else does: a history
file that was written under a larger cap is loaded as it is, and `get` returns all of it
until the service is next accessed (`over_cap_history_returned`), or for ever when the
cap is 0.

`last_records_iff` says when `get` returns the last `max_records` times: the file was
within the cap, or the service was accessed since and the cap is not 0.
-/
import Wakezilla.AccessLog
import Wakezilla.Library.Run

namespace Wakezilla

/-- A connection to the service `key` at the time `ts`. -/
structure Access where
  key : String
  ts : Int64
  deriving DecidableEq, Repr

/-- The log after one access. -/
def recordAccess (log : AccessLog) (access : Access) : AccessLog := log.record access.key access.ts

/-- The times of the accesses to `key`, in order. -/
def timesOf (key : String) (accesses : List Access) : List Int64 :=
  (accesses.filter fun access => access.key = key).map Access.ts

/-- After the accesses, `get` returns the last `maxRecords` of the times that were loaded for
`key` and recorded since. -/
def ReturnsLast (codec : HistoryCodec) (maxRecords : ℕ) (file : Option (List UInt8))
    (accesses : List Access) (key : String) : Prop :=
  let log := AccessLog.loadFromPath codec maxRecords file
  (Run.exec recordAccess log accesses).get key =
    (log.get key ++ timesOf key accesses).rtake maxRecords

/-! ## Recording -/

/-- `record` keeps the end of the buffer. -/
theorem popFront_eq_rtake (maxRecords : ℕ) (buf : List Int64) :
    AccessLog.popFront maxRecords buf = buf.rtake maxRecords := by
  induction buf with
  | nil => simp [AccessLog.popFront]
  | cons ts buf ih =>
    rw [AccessLog.popFront]
    by_cases hover : maxRecords < (ts :: buf).length
    · have hcut : (ts :: buf).length - maxRecords = buf.length - maxRecords + 1 := by
        simp only [List.length_cons] at hover ⊢
        omega
      rw [if_pos hover, ih, List.rtake, List.rtake, hcut, List.drop_succ_cons]
    · have hcut : (ts :: buf).length - maxRecords = 0 := by omega
      rw [if_neg hover, List.rtake, hcut, List.drop_zero]

@[simp] theorem record_maxRecords (log : AccessLog) (key : String) (ts : Int64) :
    (log.record key ts).maxRecords = log.maxRecords := by
  unfold AccessLog.record
  split <;> rfl

/-- What `get` returns after a record: services other than the recorded one are as before. -/
theorem get_record (log : AccessLog) (key key' : String) (ts : Int64) :
    (log.record key' ts).get key =
      if log.maxRecords ≠ 0 ∧ key' = key then (log.get key ++ [ts]).rtake log.maxRecords
      else log.get key := by
  unfold AccessLog.record
  by_cases hcap : log.maxRecords = 0
  · simp [hcap]
  · rw [if_neg hcap, AccessLog.get]
    simp only [Dict.lookup_insert, popFront_eq_rtake]
    by_cases hkey : key' = key
    · subst hkey
      simp [hcap, AccessLog.get]
    · simp [hkey, Ne.symm hkey, AccessLog.get]

/-- Cutting before another element is appended changes nothing but the time of the cut. -/
theorem rtake_append_singleton_rtake (l : List Int64) (n : ℕ) (ts : Int64) :
    (l.rtake n ++ [ts]).rtake n = (l ++ [ts]).rtake n := by
  cases n with
  | zero => simp
  | succ n =>
    rw [List.rtake_concat_succ, List.rtake_concat_succ]
    simp [List.rtake_eq_reverse_take_reverse, List.take_take]

/-! ## Runs -/

/-- **What a run leaves of a service.**  Under a cap of 0, or without an access to the service,
its times are those that were loaded; otherwise the last ones within the cap. -/
theorem get_exec (log : AccessLog) (accesses : List Access) (key : String) :
    (Run.exec recordAccess log accesses).get key =
      if log.maxRecords ≠ 0 ∧ timesOf key accesses ≠ [] then
        (log.get key ++ timesOf key accesses).rtake log.maxRecords
      else log.get key := by
  have hcap : ∀ es, (Run.exec recordAccess log es).maxRecords = log.maxRecords := fun es =>
    Run.exec_invariant_of_forall (P := fun l => l.maxRecords = log.maxRecords) es rfl
      fun l access h => (record_maxRecords l access.key access.ts).trans h
  induction accesses using List.reverseRecOn with
  | nil => simp [timesOf]
  | append_singleton accesses access ih =>
    rw [Run.exec_concat, recordAccess, get_record, hcap, ih]
    by_cases hkey : access.key = key
    · have htimes : timesOf key (accesses ++ [access]) = timesOf key accesses ++ [access.ts] := by
        simp [timesOf, hkey]
      rw [htimes]
      by_cases hzero : log.maxRecords = 0
      · simp [hzero]
      · by_cases hnone : timesOf key accesses = []
        · simp [hzero, hkey, hnone]
        · simp only [ne_eq, hzero, not_false_eq_true, hkey, and_self, if_true, hnone,
            List.append_ne_nil_of_right_ne_nil _ (List.cons_ne_nil _ _)]
          rw [rtake_append_singleton_rtake, List.append_assoc]
    · have htimes : timesOf key (accesses ++ [access]) = timesOf key accesses := by
        simp [timesOf, hkey]
      rw [htimes, if_neg fun h => hkey h.2]

@[simp] theorem loadFromPath_maxRecords (codec : HistoryCodec) (maxRecords : ℕ)
    (file : Option (List UInt8)) :
    (AccessLog.loadFromPath codec maxRecords file).maxRecords = maxRecords := by
  unfold AccessLog.loadFromPath
  split
  · split <;> rfl
  · rfl

/-- A list is its own end of length `n` when it is not longer. -/
theorem rtake_eq_self_iff {l : List Int64} {n : ℕ} : l.rtake n = l ↔ l.length ≤ n := by
  unfold List.rtake
  constructor
  · intro h
    have hlength := congrArg List.length h
    rw [List.length_drop] at hlength
    omega
  · intro h
    rw [Nat.sub_eq_zero_of_le h, List.drop_zero]

/-- **When the history is within its cap.**  At every moment, `get` returns the last `maxRecords`
times of a service exactly if the file had no more of them, or the cap is not 0 and the service
was accessed since the file was loaded; so it does at every moment of a run exactly if the file
had no more of them. -/
theorem last_records_iff (codec : HistoryCodec) (maxRecords : ℕ) (file : Option (List UInt8))
    (accesses : List Access) (key : String) :
    (ReturnsLast codec maxRecords file accesses key ↔
        ((AccessLog.loadFromPath codec maxRecords file).get key).length ≤ maxRecords ∨
          (0 < maxRecords ∧ ∃ access ∈ accesses, access.key = key)) ∧
      ((∀ n, ReturnsLast codec maxRecords file (accesses.take n) key) ↔
        ((AccessLog.loadFromPath codec maxRecords file).get key).length ≤ maxRecords) := by
  have hmoment : ∀ es, ReturnsLast codec maxRecords file es key ↔
      ((AccessLog.loadFromPath codec maxRecords file).get key).length ≤ maxRecords ∨
        (0 < maxRecords ∧ ∃ access ∈ es, access.key = key) := by
    intro es
    have haccessed : timesOf key es ≠ [] ↔ ∃ access ∈ es, access.key = key := by
      simp [timesOf, List.filter_eq_nil_iff]
    unfold ReturnsLast
    simp only [get_exec, loadFromPath_maxRecords, haccessed]
    by_cases hzero : maxRecords = 0
    · -- nothing is recorded, so `get` returns what was loaded
      simp [hzero]
    · by_cases hsince : ∃ access ∈ es, access.key = key
      · simp [hzero, hsince, Nat.pos_of_ne_zero hzero]
      · have hnone : timesOf key es = [] := not_not.mp fun h => hsince (haccessed.mp h)
        rw [if_neg fun h => hsince h.2, hnone, List.append_nil, eq_comm, rtake_eq_self_iff]
        exact (or_iff_left fun h => hsince h.2).symm
  refine ⟨hmoment accesses, fun h => ?_, fun h n => (hmoment _).mpr (Or.inl h)⟩
  rcases (hmoment []).mp (h 0) with hloaded | ⟨-, access, haccess, -⟩
  · exact hloaded
  · cases haccess

/-! ## A cap that shrank -/

/-- Three accesses that were saved under a larger cap. -/
def threeAccesses : Dict String (List Int64) :=
  (∅ : Dict String (List Int64)).insert "00:11:22:33:44:55-8080" [1000, 2000, 3000]

/-- **Loading does not cut.**  Under a cap of two, `get` returns all three. -/
theorem over_cap_history_returned :
    ¬ ReturnsLast serdeHistory 2 (some (serdeHistory.toString threeAccesses)) []
      "00:11:22:33:44:55-8080" := by
  obtain ⟨read, hread, hlookup⟩ := serdeHistory.fromStr_toString threeAccesses
  unfold ReturnsLast
  simp only [AccessLog.loadFromPath, hread, Run.exec_nil, AccessLog.get, hlookup]
  decide

end Wakezilla
