/-
# Two writers of the history file

`start_with_shutdown` (`src/proxy_server.rs`) writes the access history from two places.
A task flushes it every minute: it clones the log under the read lock and saves the clone
on a blocking thread.  When the server has stopped, the log is cloned and saved once more.
Nothing orders the last flush and the final save, and each is a truncation followed by
writes at an offset of its own, so their steps come in any order.

`stale_flush_wins` is an order in which the final save is lost.
`final_save_is_kept` says which steps of a flush, once the final save has truncated the
file, leave the file with everything the final save had to write.
-/
import Wakezilla.AccessLog
import Wakezilla.Library.Run
import Wakezilla.Library.SharedFile

namespace Wakezilla

open SharedFile

/-! ## A save and its steps -/

/-- How far a save has got.  A save that is `writing` has the file open and has written
`written` bytes of the text of its snapshot. -/
inductive Save
  | idle
  | opening (snapshot : AccessLog)
  | writing (snapshot : AccessLog) (written : ℕ)
  | finished (snapshot : AccessLog)
  | failed

/-- A save has begun and not returned. -/
def Save.underway : Save → Bool
  | .opening _ | .writing _ _ => true
  | .idle | .finished _ | .failed => false

/-- The steps of `access_log.read().await.clone()` followed by `save`: `truncate` is the
opening of the file by `fs::write`, `write n` one call of `write` that takes `n` bytes. -/
inductive SaveStep
  | snapshot
  | truncate
  | write (n : ℕ)
  | close
  | fail

/-- The text that `save` writes. -/
def AccessLog.text (codec : HistoryCodec) (log : AccessLog) : List UInt8 :=
  codec.toString log.inner

/-- One step of a save; a step that is not its turn changes nothing.  A task that `repeats`
begins again after it has finished or failed. -/
def saveStep (codec : HistoryCodec) (repeats : Bool) (log : AccessLog) (op : SaveStep)
    (save : Save) (file : Option (List UInt8)) : Save × Option (List UInt8) :=
  match op, save with
  | .snapshot, .idle => (.opening log, file)
  | .snapshot, .finished snapshot =>
    if repeats then (.opening log, file) else (.finished snapshot, file)
  | .snapshot, .failed => if repeats then (.opening log, file) else (.failed, file)
  | .truncate, .opening snapshot => (.writing snapshot 0, some [])
  | .write n, .writing snapshot k =>
    if k + n ≤ (snapshot.text codec).length then
      (.writing snapshot (k + n),
        some (writeAt 0 (file.getD []) k (chunk (snapshot.text codec) k n)))
    else (.writing snapshot k, file)
  | .close, .writing snapshot k =>
    if k = (snapshot.text codec).length then (.finished snapshot, file)
    else (.writing snapshot k, file)
  | .fail, .opening _ => (.failed, file)
  | .fail, .writing _ _ => (.failed, file)
  | _, save => (save, file)

/-! ## The server -/

/-- The log, its file, and the two saves. -/
structure HistoryServer where
  log : AccessLog
  file : Option (List UInt8)
  flush : Save
  final : Save

/-- A connection is recorded, or one of the saves takes a step. -/
inductive HistoryEvent
  | record (key : String) (ts : Int64)
  | flush (op : SaveStep)
  | final (op : SaveStep)

/-- The server when it has loaded its log. -/
def startHistory (codec : HistoryCodec) (maxRecords : ℕ) (file : Option (List UInt8)) :
    HistoryServer :=
  ⟨.loadFromPath codec maxRecords file, file, .idle, .idle⟩

/-- One step of the server. -/
def historyStep (codec : HistoryCodec) (s : HistoryServer) : HistoryEvent → HistoryServer
  | .record key ts => { s with log := s.log.record key ts }
  | .flush op =>
    let stepped := saveStep codec true s.log op s.flush s.file
    { s with flush := stepped.1, file := stepped.2 }
  | .final op =>
    let stepped := saveStep codec false s.log op s.final s.file
    { s with final := stepped.1, file := stepped.2 }

/-! ## What must be on disk -/

/-- `log` has every timestamp of `fin`. -/
def Covers (log fin : AccessLog) : Prop := ∀ key, ∀ ts ∈ fin.get key, ts ∈ log.get key

/-- Once both saves have finished, the file parses and has every timestamp of the final
snapshot. -/
def HistoryKept (codec : HistoryCodec) (s : HistoryServer) : Prop :=
  ∀ fin, s.final = .finished fin → s.flush.underway = false →
    ∃ data inner, s.file = some data ∧ codec.fromStr data = some inner ∧
      ∀ key, ∀ ts ∈ fin.get key, ts ∈ (inner.lookup key).getD []

/-- The steps of a flush that the final save survives.  Before the final save has truncated
the file every step is one of them.  While it writes, a flush writes the same text, or only
where the final save has yet to write.  Once it has finished, a flush works from a snapshot
with every timestamp of the final one, on a file that holds what the flush has written, and a
flush that fails leaves a text with all of them. -/
def Harmless (codec : HistoryCodec) (s : HistoryServer) : HistoryEvent → Prop
  | .flush op =>
    match s.final, op, s.flush with
    | .writing fin k, .truncate, .opening log => log.text codec = fin.text codec ∨ k = 0
    | .writing fin k, .write n, .writing log j =>
      log.text codec = fin.text codec ∨ (k ≤ j ∧ j + n ≤ (fin.text codec).length)
    | .writing fin k, .fail, .writing _ _ => OnTrack (fin.text codec) k (s.file.getD [])
    | .finished fin, .truncate, .opening log => Covers log fin
    | .finished fin, .write _, .writing log j =>
      Covers log fin ∧ OnTrack (log.text codec) j (s.file.getD [])
    | .finished fin, .fail, .writing _ _ => ∃ log, Covers log fin ∧ s.file = some (log.text codec)
    | _, _, _ => True
  | .record _ _ | .final _ => True

/-- A save is writing its text, and leaves exactly that if no one else writes. -/
def Save.OnTrack (codec : HistoryCodec) (save : Save) (log : AccessLog) (data : List UInt8) :
    Prop :=
  ∃ k, save = .writing log k ∧ SharedFile.OnTrack (log.text codec) k data

/-- What the harmless steps keep.  While the final save writes, it is on track, or a flush of
the same text is; when it has finished, the file holds the text of a log with all its
timestamps, or a flush of such a log is on track. -/
def FinalSurvives (codec : HistoryCodec) (s : HistoryServer) : Prop :=
  match s.final with
  | .writing fin k => k ≤ (fin.text codec).length ∧ ∃ data, s.file = some data ∧
      (SharedFile.OnTrack (fin.text codec) k data ∨
        ∃ log, log.text codec = fin.text codec ∧ s.flush.OnTrack codec log data)
  | .finished fin => ∃ data, s.file = some data ∧ ∃ log, Covers log fin ∧
      (data = log.text codec ∨ s.flush.OnTrack codec log data)
  | _ => True

theorem covers_refl (log : AccessLog) : Covers log log := fun _ _ h => h

/-- Logs with the same text have the same timestamps. -/
theorem covers_of_text_eq {codec : HistoryCodec} {log fin : AccessLog}
    (h : log.text codec = fin.text codec) : Covers log fin := by
  obtain ⟨read, hread, hlookup⟩ := codec.fromStr_toString log.inner
  obtain ⟨read', hread', hlookup'⟩ := codec.fromStr_toString fin.inner
  have hsame : read = read' := by
    have htext : codec.toString log.inner = codec.toString fin.inner := h
    rw [htext, hread'] at hread
    exact (Option.some.inj hread).symm
  intro key ts hts
  unfold AccessLog.get at hts ⊢
  rwa [← hlookup key, hsame, hlookup' key]

/-! ## What a step of a save does -/

/-- Every step of a save is one of these. -/
theorem saveStep_cases (codec : HistoryCodec) (repeats : Bool) (log : AccessLog) (op : SaveStep)
    (save : Save) (file : Option (List UInt8)) :
    let stepped := saveStep codec repeats log op save file
    stepped = (save, file) ∨
      (op = .snapshot ∧ save.underway = false ∧ (repeats = false → save = .idle) ∧
        stepped = (.opening log, file)) ∨
      (∃ snapshot, op = .truncate ∧ save = .opening snapshot ∧
        stepped = (.writing snapshot 0, some [])) ∨
      (∃ n snapshot k, op = .write n ∧ save = .writing snapshot k ∧
        k + n ≤ (snapshot.text codec).length ∧
        stepped = (.writing snapshot (k + n),
          some (writeAt 0 (file.getD []) k (chunk (snapshot.text codec) k n)))) ∨
      (∃ snapshot, op = .close ∧ save = .writing snapshot (snapshot.text codec).length ∧
        stepped = (.finished snapshot, file)) ∨
      (op = .fail ∧ save.underway = true ∧ stepped = (.failed, file)) := by
  intro stepped
  cases op with
  | snapshot =>
    cases save with
    | idle => exact .inr (.inl ⟨rfl, rfl, fun _ => rfl, rfl⟩)
    | finished snapshot =>
      cases repeats with
      | true => exact .inr (.inl ⟨rfl, rfl, nofun, rfl⟩)
      | false => exact .inl rfl
    | failed =>
      cases repeats with
      | true => exact .inr (.inl ⟨rfl, rfl, nofun, rfl⟩)
      | false => exact .inl rfl
    | opening snapshot => exact .inl rfl
    | writing snapshot k => exact .inl rfl
  | truncate =>
    cases save with
    | opening snapshot => exact .inr (.inr (.inl ⟨snapshot, rfl, rfl, rfl⟩))
    | idle | finished | failed | writing => exact .inl rfl
  | write n =>
    cases save with
    | writing snapshot k =>
      by_cases hlen : k + n ≤ (snapshot.text codec).length
      · exact .inr (.inr (.inr (.inl ⟨n, snapshot, k, rfl, rfl, hlen, if_pos hlen⟩)))
      · exact .inl (if_neg hlen)
    | idle | finished | failed | opening => exact .inl rfl
  | close =>
    cases save with
    | writing snapshot k =>
      by_cases hk : k = (snapshot.text codec).length
      · subst hk
        exact .inr (.inr (.inr (.inr (.inl ⟨snapshot, rfl, rfl, if_pos rfl⟩))))
      · exact .inl (if_neg hk)
    | idle | finished | failed | opening => exact .inl rfl
  | fail =>
    cases save with
    | opening snapshot => exact .inr (.inr (.inr (.inr (.inr ⟨rfl, rfl, rfl⟩))))
    | writing snapshot k => exact .inr (.inr (.inr (.inr (.inr ⟨rfl, rfl, rfl⟩))))
    | idle | finished | failed => exact .inl rfl

/-- A harmless step of a flush while the final save writes. -/
theorem flush_while_writing {codec : HistoryCodec} {s : HistoryServer} {fin : AccessLog} {k : ℕ}
    (hfinal : s.final = .writing fin k) (h : FinalSurvives codec s) (op : SaveStep)
    (hharmless : Harmless codec s (.flush op)) :
    FinalSurvives codec (historyStep codec s (.flush op)) := by
  obtain ⟨log, file, flush, final⟩ := s
  subst hfinal
  obtain ⟨hk, data, rfl, htrack⟩ := h
  rcases saveStep_cases codec true log op flush (some data) with
    hsame | ⟨rfl, hidle, -, hstepped⟩ | ⟨snapshot, rfl, rfl, hstepped⟩ |
    ⟨n, snapshot, j, rfl, rfl, hj, hstepped⟩ | ⟨snapshot, rfl, rfl, hstepped⟩ |
    ⟨rfl, hbusy, hstepped⟩
  · show FinalSurvives codec ⟨log, _, _, _⟩
    rw [hsame]
    exact ⟨hk, data, rfl, htrack⟩
  · show FinalSurvives codec ⟨log, _, _, _⟩
    rw [hstepped]
    refine ⟨hk, data, rfl, htrack.imp_right ?_⟩
    rintro ⟨other, -, j, rfl, -⟩
    cases hidle
  · show FinalSurvives codec ⟨log, _, _, _⟩
    rw [hstepped]
    refine ⟨hk, [], rfl, ?_⟩
    rcases hharmless with htext | rfl
    · exact Or.inr ⟨snapshot, htext, 0, rfl, onTrack_truncated _⟩
    · exact Or.inl (onTrack_truncated _)
  · show FinalSurvives codec ⟨log, _, _, _⟩
    rw [hstepped]
    refine ⟨hk, _, rfl, ?_⟩
    rcases htrack with hown | ⟨other, htext, i, hi, hother⟩
    · left
      rcases hharmless with htext | ⟨hahead, hend⟩
      · rw [htext] at hj ⊢
        exact hown.writeAt_same hj
      · exact hown.writeAt_ahead hahead (by rw [length_chunk hj]; exact hend)
    · cases hi
      exact Or.inr ⟨snapshot, htext, j + n, rfl, hother.advance hj⟩
  · show FinalSurvives codec ⟨log, _, _, _⟩
    rw [hstepped]
    refine ⟨hk, data, rfl, Or.inl ?_⟩
    rcases htrack with hown | ⟨other, htext, i, hi, hother⟩
    · exact hown
    · -- the flush has written all of its text, which is the final one
      cases hi
      rw [hother.complete, htext]
      exact onTrack_self hk
  · show FinalSurvives codec ⟨log, _, _, _⟩
    rw [hstepped]
    refine ⟨hk, data, rfl, Or.inl ?_⟩
    rcases htrack with hown | ⟨other, -, i, rfl, -⟩
    · exact hown
    · exact hharmless

/-- A harmless step of a flush when the final save has finished. -/
theorem flush_after_final {codec : HistoryCodec} {s : HistoryServer} {fin : AccessLog}
    (hfinal : s.final = .finished fin) (h : FinalSurvives codec s) (op : SaveStep)
    (hharmless : Harmless codec s (.flush op)) :
    FinalSurvives codec (historyStep codec s (.flush op)) := by
  obtain ⟨log, file, flush, final⟩ := s
  subst hfinal
  obtain ⟨data, rfl, other, hcovers, htrack⟩ := h
  rcases saveStep_cases codec true log op flush (some data) with
    hsame | ⟨rfl, hidle, -, hstepped⟩ | ⟨snapshot, rfl, rfl, hstepped⟩ |
    ⟨n, snapshot, j, rfl, rfl, hj, hstepped⟩ | ⟨snapshot, rfl, rfl, hstepped⟩ |
    ⟨rfl, hbusy, hstepped⟩
  · show FinalSurvives codec ⟨log, _, _, _⟩
    rw [hsame]
    exact ⟨data, rfl, other, hcovers, htrack⟩
  · show FinalSurvives codec ⟨log, _, _, _⟩
    rw [hstepped]
    refine ⟨data, rfl, other, hcovers, htrack.imp_right ?_⟩
    rintro ⟨j, rfl, -⟩
    cases hidle
  · show FinalSurvives codec ⟨log, _, _, _⟩
    rw [hstepped]
    exact ⟨[], rfl, snapshot, hharmless, Or.inr ⟨0, rfl, onTrack_truncated _⟩⟩
  · show FinalSurvives codec ⟨log, _, _, _⟩
    rw [hstepped]
    exact ⟨_, rfl, snapshot, hharmless.1, Or.inr ⟨j + n, rfl, hharmless.2.advance hj⟩⟩
  · show FinalSurvives codec ⟨log, _, _, _⟩
    rw [hstepped]
    refine ⟨data, rfl, other, hcovers, Or.inl ?_⟩
    rcases htrack with htext | ⟨i, hi, hother⟩
    · exact htext
    · cases hi
      exact hother.complete
  · show FinalSurvives codec ⟨log, _, _, _⟩
    rw [hstepped]
    rcases htrack with htext | ⟨i, rfl, -⟩
    · exact ⟨data, rfl, other, hcovers, Or.inl htext⟩
    · obtain ⟨left, hleft, htext⟩ := hharmless
      exact ⟨data, rfl, left, hleft, Or.inl (Option.some.inj htext)⟩

/-- Every step of the final save. -/
theorem final_step {codec : HistoryCodec} {s : HistoryServer} (h : FinalSurvives codec s)
    (op : SaveStep) : FinalSurvives codec (historyStep codec s (.final op)) := by
  obtain ⟨log, file, flush, final⟩ := s
  rcases saveStep_cases codec false log op final file with
    hsame | ⟨rfl, -, hidle, hstepped⟩ | ⟨snapshot, rfl, rfl, hstepped⟩ |
    ⟨n, snapshot, k, rfl, rfl, hk, hstepped⟩ | ⟨snapshot, rfl, rfl, hstepped⟩ |
    ⟨rfl, hbusy, hstepped⟩
  · show FinalSurvives codec ⟨log, _, _, _⟩
    rw [hsame]
    exact h
  · show FinalSurvives codec ⟨log, _, _, _⟩
    rw [hstepped]
    trivial
  · show FinalSurvives codec ⟨log, _, _, _⟩
    rw [hstepped]
    exact ⟨Nat.zero_le _, [], rfl, Or.inl (onTrack_truncated _)⟩
  · show FinalSurvives codec ⟨log, _, _, _⟩
    rw [hstepped]
    obtain ⟨-, data, rfl, htrack⟩ := h
    refine ⟨hk, _, rfl, ?_⟩
    rcases htrack with hown | ⟨other, htext, i, rfl, hother⟩
    · exact Or.inl (hown.advance hk)
    · refine Or.inr ⟨other, htext, i, rfl, ?_⟩
      rw [← htext] at hk ⊢
      exact hother.writeAt_same hk
  · show FinalSurvives codec ⟨log, _, _, _⟩
    rw [hstepped]
    obtain ⟨-, data, rfl, htrack⟩ := h
    refine ⟨data, rfl, ?_⟩
    rcases htrack with hown | ⟨other, htext, hother⟩
    · exact ⟨snapshot, covers_refl snapshot, Or.inl hown.complete⟩
    · exact ⟨other, covers_of_text_eq htext, Or.inr hother⟩
  · show FinalSurvives codec ⟨log, _, _, _⟩
    rw [hstepped]
    trivial

/-- **One step** that is harmless keeps the final save alive. -/
theorem historyStep_survives (codec : HistoryCodec) (s : HistoryServer) (e : HistoryEvent)
    (h : FinalSurvives codec s) (hharmless : Harmless codec s e) :
    FinalSurvives codec (historyStep codec s e) := by
  cases e with
  | record key ts => exact h
  | final op => exact final_step h op
  | flush op =>
    cases hfinal : s.final with
    | writing fin k => exact flush_while_writing hfinal h op hharmless
    | finished fin => exact flush_after_final hfinal h op hharmless
    | idle | opening | failed =>
      -- a flush never moves the final save
      have hsame : (historyStep codec s (.flush op)).final = s.final := rfl
      unfold FinalSurvives
      rw [hsame, hfinal]
      trivial

/-- A file with the text of a log parses to what the log has. -/
theorem kept_of_text (codec : HistoryCodec) {log fin : AccessLog} (h : Covers log fin) :
    ∃ inner, codec.fromStr (log.text codec) = some inner ∧
      ∀ key, ∀ ts ∈ fin.get key, ts ∈ (inner.lookup key).getD [] := by
  obtain ⟨read, hread, hlookup⟩ := codec.fromStr_toString log.inner
  refine ⟨read, hread, fun key ts hts => ?_⟩
  rw [hlookup key]
  exact h key ts hts

theorem historyKept_of_survives {codec : HistoryCodec} {s : HistoryServer}
    (h : FinalSurvives codec s) : HistoryKept codec s := by
  intro fin hfinal hidle
  unfold FinalSurvives at h
  rw [hfinal] at h
  obtain ⟨data, hfile, log, hcovers, hdata⟩ := h
  have htext : data = log.text codec := by
    rcases hdata with htext | ⟨k, hwriting, -⟩
    · exact htext
    · rw [hwriting] at hidle
      cases hidle
  obtain ⟨inner, hinner, hkept⟩ := kept_of_text codec hcovers
  exact ⟨data, inner, hfile, by rw [htext, hinner], hkept⟩

/-- The steps of a flush whose snapshot is taken, when no one else writes. -/
def runFlush (codec : HistoryCodec) (log : AccessLog) : List HistoryEvent :=
  [.flush .truncate, .flush (.write (log.text codec).length), .flush .close]

/-- What such a flush leaves. -/
theorem exec_runFlush (codec : HistoryCodec) {s : HistoryServer} {log : AccessLog}
    (hflush : s.flush = .opening log) :
    Run.exec (historyStep codec) s (runFlush codec log) =
      { s with flush := .finished log, file := some (log.text codec) } := by
  obtain ⟨current, file, flush, final⟩ := s
  subst hflush
  have hwrite : saveStep codec true current (.write (log.text codec).length) (.writing log 0)
      (some []) = (.writing log (0 + (log.text codec).length),
        some (writeAt 0 [] 0 (chunk (log.text codec) 0 (log.text codec).length))) :=
    if_pos (by rw [Nat.zero_add])
  have hdata : writeAt 0 [] 0 (chunk (log.text codec) 0 (log.text codec).length) =
      log.text codec := by
    have htrack : OnTrack (log.text codec) (0 + (log.text codec).length)
        (writeAt 0 [] 0 (chunk (log.text codec) 0 (log.text codec).length)) :=
      (onTrack_truncated (log.text codec)).advance (by rw [Nat.zero_add])
    rw [Nat.zero_add] at htrack
    exact htrack.complete
  rw [runFlush, Run.exec_cons, Run.exec_cons, Run.exec_cons, Run.exec_nil]
  simp only [historyStep]
  have htruncate : saveStep codec true current .truncate (.opening log) file =
      (.writing log 0, some []) := rfl
  rw [htruncate]
  simp only [hwrite, hdata, Nat.zero_add]
  have hclose : saveStep codec true current .close (.writing log (log.text codec).length)
      (some (log.text codec)) = (.finished log, some (log.text codec)) := if_pos rfl
  rw [hclose]

/-- A flush that begins to write when the final save has finished, from a snapshot without one of
its timestamps, loses that timestamp. -/
theorem not_historyKept_runFlush (codec : HistoryCodec) {s : HistoryServer} {fin log : AccessLog}
    (hfinal : s.final = .finished fin) (hflush : s.flush = .opening log)
    (hstale : ¬ Covers log fin) :
    ¬ HistoryKept codec (Run.exec (historyStep codec) s (runFlush codec log)) := by
  intro hkept
  rw [exec_runFlush codec hflush] at hkept
  obtain ⟨data, inner, hfile, hinner, hall⟩ := hkept fin hfinal rfl
  obtain ⟨read, hread, hlookup⟩ := codec.fromStr_toString log.inner
  obtain rfl : log.text codec = data := Option.some.inj hfile
  obtain rfl : read = inner := Option.some.inj (hread.symm.trans hinner)
  apply hstale
  intro key ts hts
  have hread := hall key ts hts
  rw [hlookup key] at hread
  exact hread

/-- **The final save is kept** in every run whose flushes take harmless steps.  A flush that
begins to write when the final save has finished must have all its timestamps: otherwise the
file that it leaves has not. -/
theorem final_save_is_kept (codec : HistoryCodec) (maxRecords : ℕ) (file : Option (List UInt8))
    (es : List HistoryEvent)
    (hrun : Run.Along (historyStep codec) (Harmless codec) (startHistory codec maxRecords file)
      es) :
    let s := Run.exec (historyStep codec) (startHistory codec maxRecords file) es
    HistoryKept codec s ∧
      ∀ fin log, s.final = .finished fin → s.flush = .opening log → ¬ Covers log fin →
        ¬ HistoryKept codec (Run.exec (historyStep codec) s (runFlush codec log)) := by
  intro s
  have hstart : FinalSurvives codec (startHistory codec maxRecords file) := trivial
  have hsurvives : FinalSurvives codec s :=
    Run.exec_invariant hstart (historyStep_survives codec) hrun
  exact ⟨historyKept_of_survives hsurvives, fun fin log hfinal hflush hstale =>
    not_historyKept_runFlush codec hfinal hflush hstale⟩

/-! ## A flush that comes late -/

/-- The key of the workstation's first service. -/
def sampleServiceKey : String := "00:11:22:33:44:55-8080"

/-- The history after a connection at one second, and after another at two seconds. -/
def firstLog : AccessLog := (AccessLog.new 1000).record sampleServiceKey 1000

def secondLog : AccessLog := firstLog.record sampleServiceKey 2000

/-- The server begins without a history. -/
def sampleServer : HistoryServer := startHistory serdeHistory 1000 none

/-- A flush that finishes before the final save begins does it no harm. -/
theorem flush_before_final_save :
    let s := Run.exec (historyStep serdeHistory) sampleServer
      [.record sampleServiceKey 1000, .flush .snapshot, .flush .truncate, .flush (.write 33),
        .flush .close, .record sampleServiceKey 2000, .final .snapshot, .final .truncate,
        .final (.write 38), .final .close]
    s.final = .finished secondLog ∧ s.flush = .finished firstLog ∧
      HistoryKept serdeHistory s := by
  intro s
  refine ⟨rfl, rfl, ?_⟩
  have hkept := final_save_is_kept serdeHistory 1000 none
    [.record sampleServiceKey 1000, .flush .snapshot, .flush .truncate, .flush (.write 33),
      .flush .close, .record sampleServiceKey 2000, .final .snapshot, .final .truncate,
      .final (.write 38), .final .close]
    ⟨trivial, trivial, trivial, trivial, trivial, trivial, trivial, trivial, trivial, trivial,
      trivial⟩
  exact hkept.1

/-- A connection is recorded, a flush takes its snapshot, another connection is recorded, and
the final save runs to its end before the flush opens the file. -/
def finalSaveFirst : List HistoryEvent :=
  [.record sampleServiceKey 1000, .flush .snapshot, .record sampleServiceKey 2000,
    .final .snapshot, .final .truncate, .final (.write 38), .final .close]

/-- **A stale flush wins.**  The flush then overwrites the file with its older snapshot: both
saves have finished, and the second connection is lost. -/
theorem stale_flush_wins :
    let s := Run.exec (historyStep serdeHistory) sampleServer
      (finalSaveFirst ++ runFlush serdeHistory firstLog)
    s.final = .finished secondLog ∧ s.flush = .finished firstLog ∧
      ¬ HistoryKept serdeHistory s := by
  have hfinal : (Run.exec (historyStep serdeHistory) sampleServer finalSaveFirst).final =
      .finished secondLog := rfl
  have hflush : (Run.exec (historyStep serdeHistory) sampleServer finalSaveFirst).flush =
      .opening firstLog := rfl
  have hstale : ¬ Covers firstLog secondLog := by
    intro hcovers
    have hlost : (2000 : Int64) ∈ firstLog.get sampleServiceKey :=
      hcovers sampleServiceKey 2000 (by decide)
    exact absurd hlost (by decide)
  rw [Run.exec_append]
  have hlost := not_historyKept_runFlush serdeHistory hfinal hflush hstale
  rw [exec_runFlush serdeHistory hflush] at hlost ⊢
  exact ⟨hfinal, rfl, hlost⟩

end Wakezilla
