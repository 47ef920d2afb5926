/-
# The history chart

`bucket_history` of the dashboard (`frontend/src/components/dashboard/history.rs`) groups the
access times of the services of a machine by hours, days or weeks, in milliseconds since the
epoch.

`start_spec` says where the group of a time starts; `bucket_history_conserves` that every
time is counted once, in the column of its service and the group around it.
-/
import Wakezilla.Library.Histogram

namespace Wakezilla

open Histogram

/-! ## The chart -/

/-- `ServiceAccessHistory`. -/
structure ServiceAccessHistory where
  name : Option String
  localPort : UInt16
  targetPort : UInt16
  timestamps : List Int64

/-- `AccessHistory`. -/
structure AccessHistory where
  services : List ServiceAccessHistory

/-- `i64::div_euclid`. -/
def divEuclid (a b : Int64) : Int64 := Int64.ofInt (a.toInt / b.toInt)

/-- The width of a group and the offset of its start. -/
def widthAndOffset (period : String) : Int64 × Int64 :=
  let hour : Int64 := 3600000
  match period with
  | "hour" => (hour, 0)
  | "week" => (7 * 24 * hour, 3 * 24 * hour)
  | _ => (24 * hour, 0)

/-- The start of the group of a time. -/
def bucketStart (period : String) (timestamp : Int64) : Int64 :=
  let (width, offset) := widthAndOffset period
  divEuclid (timestamp + offset) width * width - offset

/-- `bucket_history`. -/
def bucketHistory (history : AccessHistory) (period : String) : List (Int64 × List ℕ) :=
  let buckets : Std.TreeMap Int64 (List ℕ) :=
    history.services.zipIdx.foldl (fun buckets service =>
      service.1.timestamps.foldl (fun buckets timestamp =>
        buckets.alter (bucketStart period timestamp) fun counts =>
          some ((counts.getD (List.replicate history.services.length 0)).modify service.2 (· + 1)))
        buckets) ∅
  buckets.toList

/-! ## Groups -/

/-- A day in milliseconds. -/
def dayMillis : ℤ := 86400000

/-- The number of days since Monday, of the day with this number; day 0, the first of January
1970, was a Thursday. -/
def weekday (day : ℤ) : ℤ := (day + 3) % 7

/-- The time at which a group may start: a full hour, a midnight, or a midnight of a Monday. -/
def Boundary (period : String) (start : ℤ) : Prop :=
  match period with
  | "hour" => start % 3600000 = 0
  | "week" => start % dayMillis = 0 ∧ weekday (start / dayMillis) = 0
  | _ => start % dayMillis = 0

/-- The time lies in the group that starts at `start`. -/
def InBucket (period : String) (start timestamp : Int64) : Prop :=
  start.toInt ≤ timestamp.toInt ∧ timestamp.toInt < start.toInt + (widthAndOffset period).1.toInt

instance (period : String) (start timestamp : Int64) :
    Decidable (InBucket period start timestamp) :=
  inferInstanceAs (Decidable (_ ∧ _))

/-- The times that are far from the ends of an `i64`. -/
def InRange (timestamp : Int64) : Prop :=
  -2 ^ 62 ≤ timestamp.toInt ∧ timestamp.toInt ≤ 2 ^ 62

theorem widthAndOffset_cases (period : String) :
    period = "hour" ∧ widthAndOffset period = (3600000, 0) ∨
    period = "week" ∧ widthAndOffset period = (604800000, 259200000) ∨
    (period ≠ "hour" ∧ period ≠ "week") ∧ widthAndOffset period = (86400000, 0) := by
  unfold widthAndOffset
  split
  · exact Or.inl ⟨rfl, rfl⟩
  · exact Or.inr (Or.inl ⟨rfl, rfl⟩)
  · rename_i hhour hweek
    exact Or.inr (Or.inr ⟨⟨hhour, hweek⟩, rfl⟩)

/-- No operation on a time in range overflows. -/
theorem toInt_start {timestamp width offset : Int64} (h : InRange timestamp)
    (hwidth : 0 < width.toInt) (hoffset : 0 ≤ offset.toInt ∧ offset.toInt ≤ 2 ^ 32)
    (hsmall : width.toInt ≤ 2 ^ 32) :
    (divEuclid (timestamp + offset) width * width - offset).toInt =
      (timestamp.toInt + offset.toInt) / width.toInt * width.toInt - offset.toInt := by
  obtain ⟨hlow, hhigh⟩ := h
  have hbmod : ∀ n : ℤ, -2 ^ 63 ≤ n → n < 2 ^ 63 → n.bmod (2 ^ 64) = n := fun n hn hn' =>
    Int.bmod_eq_of_le (by omega) (by omega)
  have hsum : (timestamp + offset).toInt = timestamp.toInt + offset.toInt := by
    rw [Int64.toInt_add]
    exact hbmod _ (by omega) (by omega)
  set sum := timestamp.toInt + offset.toInt with hsumDef
  -- the quotient is between the sum and 0, its multiple within a width of the sum
  have hquotient : -2 ^ 63 ≤ sum / width.toInt ∧ sum / width.toInt < 2 ^ 63 := by
    constructor
    · exact (Int.le_ediv_iff_mul_le hwidth).mpr (by nlinarith)
    · exact Int.ediv_lt_of_lt_mul hwidth (by nlinarith)
  have hmultiple := Int.mul_ediv_add_emod sum width.toInt
  have hrest := Int.emod_nonneg sum hwidth.ne'
  have hrest' := Int.emod_lt_of_pos sum hwidth
  rw [mul_comm] at hmultiple
  have hproduct : (divEuclid (timestamp + offset) width * width).toInt =
      sum / width.toInt * width.toInt := by
    rw [Int64.toInt_mul, divEuclid, hsum, Int64.toInt_ofInt_of_le hquotient.1 hquotient.2]
    exact hbmod _ (by omega) (by omega)
  rw [Int64.toInt_sub, hproduct]
  exact hbmod _ (by omega) (by omega)

theorem widthAndOffset_bounds (period : String) :
    0 < (widthAndOffset period).1.toInt ∧ (widthAndOffset period).1.toInt ≤ 2 ^ 32 ∧
      0 ≤ (widthAndOffset period).2.toInt ∧ (widthAndOffset period).2.toInt ≤ 2 ^ 32 := by
  rcases widthAndOffset_cases period with ⟨-, hsize⟩ | ⟨-, hsize⟩ | ⟨-, hsize⟩
  · rw [hsize]
    decide
  · rw [hsize]
    decide
  · rw [hsize]
    decide

theorem toInt_bucketStart (period : String) {timestamp : Int64} (h : InRange timestamp) :
    (bucketStart period timestamp).toInt =
      (timestamp.toInt + (widthAndOffset period).2.toInt) / (widthAndOffset period).1.toInt *
        (widthAndOffset period).1.toInt - (widthAndOffset period).2.toInt := by
  obtain ⟨hwidth, hsmall, hoffset⟩ := widthAndOffset_bounds period
  exact toInt_start h hwidth hoffset hsmall

/-- **The group of a time** is the one around it. -/
theorem inBucket_iff (period : String) {timestamp other : Int64} (h : InRange timestamp)
    (hother : InRange other) :
    InBucket period (bucketStart period other) timestamp ↔
      bucketStart period timestamp = bucketStart period other := by
  obtain ⟨hwidth, -⟩ := widthAndOffset_bounds period
  rw [InBucket, ← Int64.toInt_inj, toInt_bucketStart period h, toInt_bucketStart period hother]
  generalize (widthAndOffset period).1.toInt = width at hwidth
  generalize (widthAndOffset period).2.toInt = offset
  generalize (other.toInt + offset) / width = q
  have hmultiple := Int.mul_ediv_add_emod (timestamp.toInt + offset) width
  have hrest := Int.emod_nonneg (timestamp.toInt + offset) hwidth.ne'
  have hrest' := Int.emod_lt_of_pos (timestamp.toInt + offset) hwidth
  rw [mul_comm] at hmultiple
  constructor
  · rintro ⟨hlow, hhigh⟩
    have hq : (timestamp.toInt + offset) / width = q :=
      ((Int.ediv_emod_unique (r := timestamp.toInt + offset - width * q) hwidth).mpr
        ⟨by omega, by nlinarith, by nlinarith⟩).1
    rw [hq]
  · intro heq
    omega

/-- The group of a time starts at a boundary. -/
theorem boundary_bucketStart (period : String) {timestamp : Int64} (h : InRange timestamp) :
    Boundary period (bucketStart period timestamp).toInt := by
  rw [toInt_bucketStart period h]
  unfold Boundary weekday dayMillis
  rcases widthAndOffset_cases period with ⟨rfl, hsize⟩ | ⟨rfl, hsize⟩ | ⟨⟨hhour, hweek⟩, hsize⟩
  · have hwidth : (3600000 : Int64).toInt = 3600000 := rfl
    have hoffset : (0 : Int64).toInt = 0 := rfl
    simp only [hsize, hwidth, hoffset]
    omega
  · have hwidth : (604800000 : Int64).toInt = 604800000 := rfl
    have hoffset : (259200000 : Int64).toInt = 259200000 := rfl
    simp only [hsize, hwidth, hoffset]
    omega
  · have hwidth : (86400000 : Int64).toInt = 86400000 := rfl
    have hoffset : (0 : Int64).toInt = 0 := rfl
    simp only [hsize, hwidth, hoffset]
    omega

/-! ## Records -/

/-- The accesses in the order in which they are counted: the start of the group and the number of
the service. -/
def accessRecords (period : String) (services : List (ServiceAccessHistory × ℕ)) :
    List (Int64 × ℕ) :=
  services.flatMap fun service =>
    service.1.timestamps.map fun timestamp => (bucketStart period timestamp, service.2)

/-- The chart is the histogram of the accesses. -/
theorem bucketHistory_eq (history : AccessHistory) (period : String) :
    bucketHistory history period =
      (histogram history.services.length
        (accessRecords period history.services.zipIdx)).toList := by
  unfold bucketHistory histogram accessRecords
  rw [List.foldl_flatMap]
  simp only [List.foldl_map]
  rfl

theorem mem_accessRecords {period : String} {services : List (ServiceAccessHistory × ℕ)}
    {record : Int64 × ℕ} :
    record ∈ accessRecords period services ↔
      ∃ service ∈ services, ∃ timestamp ∈ service.1.timestamps,
        (bucketStart period timestamp, service.2) = record := by
  simp [accessRecords, List.mem_flatMap]

/-- Other services are not counted in the column of a service. -/
theorem count_accessRecords_eq_zero {period : String}
    {services : List (ServiceAccessHistory × ℕ)} {start : Int64} {i : ℕ}
    (h : ∀ service ∈ services, service.2 ≠ i) :
    (accessRecords period services).count (start, i) = 0 := by
  refine List.count_eq_zero_of_not_mem fun hmem => ?_
  obtain ⟨service, hservice, timestamp, -, heq⟩ := mem_accessRecords.mp hmem
  exact h service hservice (congrArg Prod.snd heq)

/-- The column of a service counts its own times. -/
theorem count_accessRecords {period : String} {services : List ServiceAccessHistory} {i : ℕ}
    {service : ServiceAccessHistory} (h : services[i]? = some service) (start : Int64) :
    (accessRecords period services.zipIdx).count (start, i) =
      (service.timestamps.map (bucketStart period)).count start := by
  obtain ⟨hi, rfl⟩ := List.getElem?_eq_some_iff.mp h
  have hsplit : services.zipIdx = (services.take i).zipIdx ++ (services[i], i) ::
      (services.drop (i + 1)).zipIdx (i + 1) := by
    conv_lhs => rw [← List.take_append_drop i services, List.drop_eq_getElem_cons hi]
    rw [List.zipIdx_append, List.zipIdx_cons, List.length_take_of_le hi.le]
    simp
  have hbefore : ∀ service ∈ (services.take i).zipIdx, service.2 ≠ i := by
    intro service hservice
    have hlt := List.snd_lt_of_mem_zipIdx hservice
    rw [List.length_take_of_le hi.le] at hlt
    omega
  have hafter : ∀ service ∈ (services.drop (i + 1)).zipIdx (i + 1), service.2 ≠ i := by
    intro service hservice
    have hle := List.le_snd_of_mem_zipIdx hservice
    omega
  have hown : ∀ timestamps : List Int64,
      (timestamps.map fun timestamp => (bucketStart period timestamp, i)).count (start, i) =
        (timestamps.map (bucketStart period)).count start := by
    intro timestamps
    rw [List.count, List.count, List.countP_map, List.countP_map]
    refine List.countP_congr fun timestamp _ => ?_
    simp
  rw [hsplit]
  have hparts : accessRecords period ((services.take i).zipIdx ++ (services[i], i) ::
      (services.drop (i + 1)).zipIdx (i + 1)) = accessRecords period (services.take i).zipIdx ++
        ((services[i].timestamps.map fun timestamp => (bucketStart period timestamp, i)) ++
          accessRecords period ((services.drop (i + 1)).zipIdx (i + 1))) := by
    simp [accessRecords]
  rw [hparts, List.count_append, List.count_append, count_accessRecords_eq_zero hbefore,
    count_accessRecords_eq_zero hafter, hown]
  omega

/-! ## The chart conserves the records -/

section Chart

variable {history : AccessHistory} {period : String}

/-- The times that the chart can group. -/
def GroupableHistory (history : AccessHistory) : Prop :=
  ∀ service ∈ history.services, ∀ timestamp ∈ service.timestamps, InRange timestamp

/-- What a group of the chart is: a start that some access has, and the counts of the services. -/
theorem mem_bucketHistory {bucket : Int64 × List ℕ} (h : bucket ∈ bucketHistory history period) :
    (∃ (i : ℕ) (service : ServiceAccessHistory), history.services[i]? = some service ∧
        ∃ timestamp ∈ service.timestamps, bucketStart period timestamp = bucket.1) ∧
      bucket.2 = row history.services.length (accessRecords period history.services.zipIdx)
        bucket.1 := by
  rw [bucketHistory_eq, mem_toList_histogram] at h
  obtain ⟨hkey, hrow⟩ := h
  obtain ⟨record, hrecord, hstart⟩ := List.mem_map.mp hkey
  obtain ⟨⟨service, i⟩, hservice, timestamp, htimestamp, rfl⟩ := mem_accessRecords.mp hrecord
  exact ⟨⟨i, service, List.mem_zipIdx_iff_getElem?.mp hservice, timestamp, htimestamp, hstart⟩,
    hrow⟩

/-- The column of a service in a group. -/
theorem column_bucketHistory {bucket : Int64 × List ℕ} (h : bucket ∈ bucketHistory history period)
    {i : ℕ} {service : ServiceAccessHistory} (hservice : history.services[i]? = some service) :
    bucket.2[i]? = some ((service.timestamps.map (bucketStart period)).count bucket.1) := by
  obtain ⟨hi, -⟩ := List.getElem?_eq_some_iff.mp hservice
  rw [(mem_bucketHistory h).2, getElem?_row hi, count_accessRecords hservice]

/-- Every access has its group. -/
theorem exists_bucket {i : ℕ} {service : ServiceAccessHistory}
    (hservice : history.services[i]? = some service) {timestamp : Int64}
    (htimestamp : timestamp ∈ service.timestamps) :
    bucketStart period timestamp ∈ (bucketHistory history period).map Prod.fst := by
  rw [bucketHistory_eq, mem_keys_histogram]
  refine List.mem_map.mpr ⟨(bucketStart period timestamp, i), mem_accessRecords.mpr ?_, rfl⟩
  exact ⟨(service, i), List.mem_zipIdx_iff_getElem?.mpr hservice, timestamp, htimestamp, rfl⟩

theorem pairwise_starts (history : AccessHistory) (period : String) :
    ((bucketHistory history period).map Prod.fst).Pairwise (· < ·) := by
  rw [bucketHistory_eq]
  exact pairwise_keys_histogram.imp Std.compare_eq_lt.mp

/-- A group has a count for every service, and one of them is not 0. -/
theorem counts_bucketHistory {bucket : Int64 × List ℕ}
    (h : bucket ∈ bucketHistory history period) :
    bucket.2.length = history.services.length ∧ ∃ count ∈ bucket.2, count ≠ 0 := by
  obtain ⟨⟨i, service, hservice, timestamp, htimestamp, hstart⟩, hrow⟩ := mem_bucketHistory h
  refine ⟨by rw [hrow, length_row], _, List.mem_of_getElem? (column_bucketHistory h hservice), ?_⟩
  rw [← hstart]
  exact (List.count_pos_iff.mpr (List.mem_map_of_mem htimestamp)).ne'

/-- The groups share out the times of a service. -/
theorem sum_column (history : AccessHistory) (period : String) {i : ℕ}
    {service : ServiceAccessHistory} (hservice : history.services[i]? = some service) :
    ((bucketHistory history period).map fun bucket => bucket.2[i]?.getD 0).sum =
      service.timestamps.length := by
  have hcolumn : ((bucketHistory history period).map fun bucket => bucket.2[i]?.getD 0) =
      ((bucketHistory history period).map Prod.fst).map fun start =>
        (service.timestamps.map (bucketStart period)).count start := by
    rw [List.map_map]
    refine List.map_congr_left fun bucket hbucket => ?_
    rw [column_bucketHistory hbucket hservice]
    rfl
  have hnodup : ((bucketHistory history period).map Prod.fst).Nodup := by
    rw [bucketHistory_eq]
    exact nodup_keys_histogram
  rw [hcolumn, sum_map_count hnodup, List.length_map]
  intro start hstart
  obtain ⟨timestamp, htimestamp, rfl⟩ := List.mem_map.mp hstart
  exact exists_bucket hservice htimestamp

end Chart

/-- **The history chart conserves records.**  The starts of the groups increase strictly and lie
at the boundaries of the period; each group has a count for every service, not all 0; the count
of a service is the number of its times in the group; every time lies in exactly one group; and
each column sums to the number of times of its service. -/
theorem bucket_history_conserves (history : AccessHistory) (period : String)
    (hrange : GroupableHistory history) :
    let buckets := bucketHistory history period
    (buckets.map Prod.fst).Pairwise (· < ·) ∧
      (∀ bucket ∈ buckets, Boundary period bucket.1.toInt ∧
        bucket.2.length = history.services.length ∧ ∃ count ∈ bucket.2, count ≠ 0) ∧
      ∀ (i : ℕ) (service : ServiceAccessHistory), history.services[i]? = some service →
        (∀ bucket ∈ buckets, bucket.2[i]? = some (service.timestamps.countP fun timestamp =>
          InBucket period bucket.1 timestamp)) ∧
        (∀ timestamp ∈ service.timestamps, ∃! bucket, bucket ∈ buckets ∧
          InBucket period bucket.1 timestamp) ∧
        (buckets.map fun bucket => bucket.2[i]?.getD 0).sum = service.timestamps.length := by
  intro buckets
  have hinRange : ∀ {i : ℕ} {service : ServiceAccessHistory},
      history.services[i]? = some service → ∀ timestamp ∈ service.timestamps, InRange timestamp :=
    fun hservice => hrange _ (List.mem_of_getElem? hservice)
  -- within a group of the chart, lying in it and starting it are the same
  have hgroup : ∀ bucket ∈ buckets, ∀ {timestamp : Int64}, InRange timestamp →
      (InBucket period bucket.1 timestamp ↔ bucketStart period timestamp = bucket.1) := by
    intro bucket hbucket timestamp h
    obtain ⟨⟨j, other, hother, time, htime, hstart⟩, -⟩ := mem_bucketHistory hbucket
    rw [← hstart]
    exact inBucket_iff period h (hinRange hother time htime)
  refine ⟨pairwise_starts history period, fun bucket hbucket => ⟨?_, ?_⟩,
    fun i service hservice => ⟨fun bucket hbucket => ?_, fun timestamp htimestamp => ?_,
      sum_column history period hservice⟩⟩
  · obtain ⟨⟨j, other, hother, time, htime, hstart⟩, -⟩ := mem_bucketHistory hbucket
    rw [← hstart]
    exact boundary_bucketStart period (hinRange hother time htime)
  · exact counts_bucketHistory hbucket
  · rw [column_bucketHistory hbucket hservice, List.count, List.countP_map]
    refine congrArg some (List.countP_congr fun timestamp htimestamp => ?_)
    simpa using (hgroup bucket hbucket (hinRange hservice timestamp htimestamp)).symm
  · have h := hinRange hservice timestamp htimestamp
    have hexists : bucketStart period timestamp ∈ buckets.map Prod.fst :=
      exists_bucket hservice htimestamp
    obtain ⟨bucket, hbucket, hstart⟩ := List.mem_map.mp hexists
    refine ⟨bucket, ⟨hbucket, (hgroup bucket hbucket h).mpr hstart.symm⟩, ?_⟩
    rintro other ⟨hother, hin⟩
    -- two groups with one start are one entry of the map
    have hsame : other.1 = bucket.1 := by
      rw [← (hgroup other hother h).mp hin, hstart]
    exact Prod.ext hsame (by rw [(mem_bucketHistory hother).2, (mem_bucketHistory hbucket).2,
      hsame])

/-- Two services of a machine that were used in the week of a Monday, and one of them just before
the epoch. -/
def sampleHistory : AccessHistory where
  services := [⟨none, 1234, 80, [1788134400000, 1788220800000]⟩,
    ⟨some "ssh", 1235, 81, [1788307200000, -1]⟩]

theorem sampleHistory_conserved :
    bucketHistory sampleHistory "week" =
        [(-259200000, [0, 1]), (1788134400000, [2, 1])] ∧
      ∀ timestamp ∈ [1788307200000, -1], ∃! bucket,
        bucket ∈ bucketHistory sampleHistory "week" ∧ InBucket "week" bucket.1 timestamp := by
  have hrange : GroupableHistory sampleHistory := by
    unfold GroupableHistory InRange sampleHistory
    simp only [List.mem_cons, List.not_mem_nil, or_false, forall_eq_or_imp, forall_eq]
    decide +kernel
  obtain ⟨-, -, hservices⟩ := bucket_history_conserves sampleHistory "week" hrange
  exact ⟨rfl, (hservices 1 _ rfl).2.1⟩

end Wakezilla
