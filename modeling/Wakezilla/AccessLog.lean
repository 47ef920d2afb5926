/-
# The access history

`AccessLog` of `src/access_log.rs`: for every service the times of its last accesses, at
most `max_records` of them.  The file holds the map alone, as one JSON object from service
keys to arrays of milliseconds; the cap comes from the configuration at every load.

The path of the file is fixed while the program runs and is left out.  `serde_json` is a
library, so the text format is a parameter: `HistoryCodec` carries the law that a written
map is read back, and `serdeHistory` is the format itself.
-/
import Wakezilla.MachineJson

namespace Wakezilla

/-- `AccessLog`.  The order of the entries stands for the iteration order of the hash map. -/
structure AccessLog where
  inner : Dict String (List Int64)
  maxRecords : ℕ


namespace AccessLog

/-- `new`. -/
def new (maxRecords : ℕ) : AccessLog := ⟨∅, maxRecords⟩

/-- The loop of `record`: `pop_front` while the buffer is over the cap. -/
def popFront (maxRecords : ℕ) : List Int64 → List Int64
  | [] => []
  | ts :: buf => if maxRecords < (ts :: buf).length then popFront maxRecords buf else ts :: buf

/-- `record`. -/
def record (log : AccessLog) (key : String) (ts : Int64) : AccessLog :=
  if log.maxRecords = 0 then log
  else
    let buf := (log.inner.lookup key).getD [] ++ [ts]
    { log with inner := log.inner.insert key (popFront log.maxRecords buf) }

/-- `get`. -/
def get (log : AccessLog) (key : String) : List Int64 := (log.inner.lookup key).getD []

end AccessLog

/-! ## The file -/

/-- `serde_json::to_string` and `serde_json::from_str` at the type of the history. -/
structure HistoryCodec where
  toString : Dict String (List Int64) → List UInt8
  fromStr : List UInt8 → Option (Dict String (List Int64))
  fromStr_toString : ∀ inner, ∃ read, fromStr (toString inner) = some read ∧
    ∀ key, read.lookup key = inner.lookup key

/-- `load_from_path`: a file that is missing or does not parse is an empty history. -/
def AccessLog.loadFromPath (codec : HistoryCodec) (maxRecords : ℕ) (file : Option (List UInt8)) :
    AccessLog :=
  match file with
  | some data =>
    match codec.fromStr data with
    | some inner => ⟨inner, maxRecords⟩
    | none => .new maxRecords
  | none => .new maxRecords

/-! ## The text format -/

def encodeTimestamp (ts : Int64) : Json := .number ts.toInt

def decodeTimestamp : Json → Option Int64
  | .number n => if -2 ^ 63 ≤ n ∧ n < 2 ^ 63 then some (Int64.ofInt n) else none
  | _ => none

def encodeHistory (inner : Dict String (List Int64)) : Json :=
  .object (inner.entries.map fun e => (e.1, .array (e.2.map encodeTimestamp)))

/-- The members are inserted one after the other, so the last one of a key counts. -/
def decodeMembers : List (String × Json) → Option (Dict String (List Int64))
  | [] => some ∅
  | (key, value) :: members => do
    let buf ← decodeArray decodeTimestamp value
    let rest ← decodeMembers members
    some (if key ∈ rest then rest else rest.insert key buf)

def decodeHistory : Json → Option (Dict String (List Int64))
  | .object members => decodeMembers members
  | _ => none

theorem decodeTimestamp_encodeTimestamp (ts : Int64) :
    decodeTimestamp (encodeTimestamp ts) = some ts := by
  have hlow := ts.le_toInt
  have hhigh := ts.toInt_lt
  rw [encodeTimestamp, decodeTimestamp, if_pos ⟨hlow, hhigh⟩, Int64.ofInt_toInt]

theorem decodeMembers_map (es : List (Sigma fun _ : String => List Int64)) (h : es.NodupKeys) :
    decodeMembers (es.map fun e => (e.1, .array (e.2.map encodeTimestamp))) = some ⟨es, h⟩ := by
  induction es with
  | nil => rfl
  | cons e es ih =>
    obtain ⟨hnew, hrest⟩ := List.nodupKeys_cons.mp h
    have hbuf := decodeItems_map decodeTimestamp_encodeTimestamp e.2
    have hentries : e.1 ∉ (⟨es, hrest⟩ : Dict String (List Int64)) := hnew
    rw [List.map_cons, decodeMembers, ih hrest]
    simp only [decodeArray, hbuf, Option.bind_eq_bind, Option.bind_some, if_neg hentries]
    exact congrArg some (AList.ext (AList.entries_insert_of_notMem hentries))

/-- A written history is read back. -/
theorem decodeHistory_encodeHistory (inner : Dict String (List Int64)) :
    decodeHistory (encodeHistory inner) = some inner :=
  decodeMembers_map inner.entries inner.nodupKeys

/-- `serde_json` at the type of the history. -/
def serdeHistory : HistoryCodec where
  toString inner := Json.toStringCompact (encodeHistory inner)
  fromStr bytes := (Json.fromStr bytes).bind decodeHistory
  fromStr_toString inner := by
    refine ⟨inner, ?_, fun _ => rfl⟩
    rw [Json.fromStr_toStringCompact, Option.bind_some, decodeHistory_encodeHistory]

end Wakezilla
