/-
# The registry survives a restart

Every handler saves the registry before it changes it in memory, or rolls the memory
back when the save fails.  The file itself is rewritten in place, and nothing rolls
it back: a save that fails after `open` has truncated the file leaves the memory and
the file apart (`failed_save_loses_registry`).

When saves fail only before the truncation (`SaveFault.BeforeTruncate`), a restart
finds the registry of the memory after every run (`registry_survives_restart`).  A file that
could not be loaded at start-up has to be written once before it can be.
-/
import Wakezilla.ProxySystem

namespace Wakezilla

/-- What a step does to the file and the registry when its save does not fail after the
truncation: nothing to either, or the new registry is written. -/
theorem database_step (libs : Externals) (s : Proxy) (e : ProxyEvent)
    (hfault : e.fault.BeforeTruncate) :
    ((step libs s e).database = s.database ∧ (step libs s e).machines = s.machines) ∨
      (step libs s e).database = some (libs.codec.toStringPretty (step libs s e).machines) := by
  have heffect := step_effect libs s e
  generalize step libs s e = s' at heffect ⊢
  cases heffect with
  | idle machines limiter proxies tasks clients database notDeleted =>
    rcases database with database | ⟨hne, ms, database⟩
    · exact Or.inl ⟨database, machines⟩
    · rw [saveMachines_of_beforeTruncate libs.codec hfault hne] at database
      exact Or.inl ⟨database, machines⟩
  | add new valid verified key => exact Or.inr rfl
  | update index old base new hposition new_eq valid => exact Or.inr rfl
  | delete limiter removed => exact Or.inr rfl
  | rotate index m hposition enabled => exact Or.inr rfl
  | verify p index m pending answered hposition key => exact Or.inr rfl
  | connection task => exact Or.inl ⟨rfl, rfl⟩
  | tick => exact Or.inl ⟨rfl, rfl⟩
  | forwarder taskStep frame =>
    rw [frame]
    exact Or.inl ⟨rfl, rfl⟩

/-- A file that holds the text of a registry loads as this registry. -/
theorem loadMachines_toStringPretty (codec : MachinesCodec) (machines : List Machine) :
    loadMachines codec (some (codec.toStringPretty machines)) = .ok machines := by
  simp only [loadMachines, codec.fromStr_toStringPretty]

theorem initialMachines_of_load {codec : MachinesCodec} {file : Database}
    {machines : List Machine} (h : loadMachines codec file = .ok machines) :
    initialMachines codec file = machines := by
  simp only [initialMachines, h]

/-- The memory and the file agree: a restart gives back the registry, and the file loads if the
one of start-up did or has been written since. -/
structure Durable (libs : Externals) (database : Database) (s : Proxy) : Prop where
  restart : initialMachines libs.codec s.database = s.machines
  load : (∃ machines, loadMachines libs.codec database = .ok machines) ∨ s.database ≠ database →
    loadMachines libs.codec s.database = .ok s.machines

theorem durable_step (libs : Externals) (database : Database) (s : Proxy) (e : ProxyEvent)
    (h : Durable libs database s) (hfault : e.fault.BeforeTruncate) :
    Durable libs database (step libs s e) := by
  rcases database_step libs s e hfault with ⟨hdatabase, hmachines⟩ | hdatabase
  · constructor
    · rw [hdatabase, hmachines]
      exact h.restart
    · rw [hdatabase, hmachines]
      exact h.load
  · have hload := loadMachines_toStringPretty libs.codec (step libs s e).machines
    rw [← hdatabase] at hload
    exact ⟨initialMachines_of_load hload, fun _ => hload⟩

theorem durable_startWithShutdown (libs : Externals) (database : Database) (clock : ℕ → Instant) :
    Durable libs database (startWithShutdown libs database clock) := by
  obtain ⟨hmachines, -, hdatabase, -⟩ :=
    startMachines_fields (initialMachines libs.codec database) database clock
  constructor
  · rw [startWithShutdown, hmachines, hdatabase]
  · rintro (⟨machines, hload⟩ | hwritten)
    · rw [startWithShutdown, hmachines, hdatabase, hload, initialMachines_of_load hload]
    · exact absurd hdatabase hwritten

/-- **The registry survives a restart.**  In a run from start-up on any database file whose
saves fail, if at all, before the truncation, a restart on the file finds the registry of the
memory after every step; and when the file could be loaded at start-up, or has been written
since, it can be loaded and gives exactly this registry. -/
theorem registry_survives_restart (libs : Externals) (database : Database) (clock : ℕ → Instant)
    (es : List ProxyEvent)
    (hrun : Run.Along (step libs) (fun _ e => e.fault.BeforeTruncate)
      (startWithShutdown libs database clock) es) :
    let s := Run.exec (step libs) (startWithShutdown libs database clock) es
    (∀ clock', (startWithShutdown libs s.database clock').machines = s.machines) ∧
      ((∃ machines, loadMachines libs.codec database = .ok machines) ∨ s.database ≠ database →
        loadMachines libs.codec s.database = .ok s.machines) := by
  intro s
  have hdurable := Run.exec_invariant (durable_startWithShutdown libs database clock)
    (durable_step libs _) hrun
  refine ⟨fun clock' => ?_, hdurable.load⟩
  rw [startWithShutdown, (startMachines_fields _ _ _).1]
  exact hdurable.restart

/-- A loaded machine is renamed and the following delete fails before it truncates the file:
the file has the new name. -/
theorem workstation_survives_restart :
    let database := some (libraries.codec.toStringPretty [workstation])
    let s := Run.exec (step libraries) (startWithShutdown libraries database fun _ => 0)
      [.update workstation.mac { payloadOf workstation with name := "desk" } sampleBytes
          .noFault 0,
        .delete ⟨workstation.mac⟩ .openFile]
    s.machines.map Machine.name = ["desk"] ∧
      loadMachines libraries.codec s.database = .ok s.machines := by
  intro database s
  have hload : loadMachines libraries.codec database = .ok [workstation] :=
    loadMachines_toStringPretty _ _
  have hsurvives := registry_survives_restart libraries database (fun _ => 0)
    [.update workstation.mac { payloadOf workstation with name := "desk" } sampleBytes .noFault 0,
      .delete ⟨workstation.mac⟩ .openFile] ⟨trivial, trivial, trivial⟩
  refine ⟨?_, hsurvives.2 (Or.inl ⟨_, hload⟩)⟩
  simp only [s, startWithShutdown, initialMachines_of_load hload]
  decide +kernel

/-- **A failed save loses the registry.**  The delete fails after it has truncated the file and
is answered with an error; the machine is still in memory, but the file does not load and a
restart finds no machine. -/
theorem failed_save_loses_registry :
    let s := Run.exec (step libraries) (startWithShutdown libraries none fun _ => 0)
      [.add (payloadOf workstation) sampleBytes .noFault 0,
        .delete ⟨workstation.mac⟩ .setPermissions]
    s.machines.map Machine.name = ["workstation"] ∧
      (startWithShutdown libraries s.database fun _ => 0).machines = [] := by
  decide +kernel

end Wakezilla
