import Orcashi.Persistence
import Orcashi.SetterRace

/-!
# One file, several processes

The daemon saves its own table.  Every command line process loads the file when it starts, changes
nothing in what it loaded, and saves it when it ends, over whatever the daemon has saved meanwhile.
-/

namespace Orcashi

open CMemory Stdio

/-! ## The processes -/

/-- The file as it was found, and since then the table that was saved last; the table of the daemon and
the one it saved last; and what the command line processes have loaded. -/
structure Race where
  found : Option Bytes
  written : Option StateManager
  daemon : Store
  lastSave : Option StateManager
  copies : ℕ → Option StateManager

/-- What is in the file. -/
def Race.file (r : Race) : Option Bytes :=
  match r.written with
  | none => r.found
  | some sm => some (stateSave sm)

/-- `state_init` and `state_save` of a process of the command line, whose command goes to the daemon
in between; and what the daemon does. -/
inductive RaceCall where
  | cliInit (pid : ℕ)
  | cliSave (pid : ℕ)
  | update (call : StateCall)
  | daemonSave

/-- The file and the copies after a step. -/
def raceStep (r : Race) : RaceCall → Race
  | .cliInit pid => { r with copies := Function.update r.copies pid (some (stateInit r.file)) }
  | .cliSave pid =>
    match r.copies pid with
    | none => r
    | some sm => { r with written := some sm, copies := Function.update r.copies pid none }
  | .update call => { r with daemon := call.exec r.daemon }
  | .daemonSave => { r with written := some r.daemon.sm, lastSave := some r.daemon.sm }

/-- Under every id both tables have a record with the same saved fields, or none. -/
def SameRecords (sm sm' : StateManager) : Prop :=
  ∀ id, (stateGetPeer id sm).map Peer.saved = (stateGetPeer id sm').map Peer.saved

/-- The file shows every record as the daemon saved it last. -/
def Survives (r : Race) : Prop :=
  ∀ saved, r.lastSave = some saved → ∃ sm, r.written = some sm ∧ SameRecords sm saved

/-- A process saves only what shows every record as the daemon saved it last. -/
def SavesFresh (r : Race) : RaceCall → Prop
  | .cliSave pid => ∀ sm saved, r.copies pid = some sm → r.lastSave = some saved → SameRecords sm saved
  | _ => True

/-! ## Lost updates -/

theorem survives_step_iff (r : Race) (l : RaceCall) (h : Survives r) :
    Survives (raceStep r l) ↔ SavesFresh r l := by
  cases l with
  | cliInit pid => exact iff_of_true h trivial
  | update call => exact iff_of_true h trivial
  | daemonSave =>
    refine iff_of_true ?_ trivial
    rintro saved last
    exact ⟨r.daemon.sm, rfl, fun id => by rw [Option.some.inj last]⟩
  | cliSave pid =>
    simp only [raceStep, SavesFresh]
    cases copy : r.copies pid with
    | none => exact iff_of_true h fun sm saved none_ => by cases none_
    | some sm =>
      constructor
      · intro survives sm' saved same last
        obtain rfl := Option.some.inj same
        obtain ⟨w, written, records⟩ := survives saved last
        obtain rfl := Option.some.inj written
        exact records
      · intro fresh saved last
        exact ⟨sm, rfl, fresh sm saved rfl last⟩

/-- After a save of the daemon, whatever happened before and whatever the processes do from then on:
at every moment the file shows every record as the daemon saved it last, exactly if every process that
saves still holds all of these records. -/
theorem saved_changes_survive_iff (r : Race) (ls : List RaceCall) :
    History.Meets raceStep (fun r l => Survives (raceStep r l)) (raceStep r .daemonSave) ls ↔
      History.Meets raceStep SavesFresh (raceStep r .daemonSave) ls :=
  History.meets_invariant_iff survives_step_iff (fun _ last => ⟨_, rfl, fun id => by
    rw [Option.some.inj last]⟩)

/-- When daemon and processes start. -/
def Race.start (found : Option Bytes) : Race :=
  ⟨found, none, ⟨stateInit found, .init⟩, none, fun _ => none⟩

/-- A process that starts before `bob` is added removes him from the file when it ends. -/
theorem saved_peer_lost :
    let r := History.run raceStep (Race.start none)
      [.cliInit 0, .update (.table (.addPeer 1 (ascii "bob"))), .daemonSave, .cliSave 0]
    (∀ pid, r.copies pid = none) ∧
      (r.lastSave.map fun sm => sm.peers.map Peer.id) = some [ascii "bob"] ∧
      (r.written.map fun sm => sm.peers.map Peer.id) = some [] ∧ ¬ Survives r := by
  intro r
  have finished : ∀ pid, r.copies pid = none := by
    intro pid
    show Function.update (Function.update (fun _ => none) 0 _) 0 none pid = none
    rw [Function.update_idem]
    cases pid <;> rfl
  refine ⟨finished, by decide, by decide, fun survives => ?_⟩
  obtain ⟨sm, written, records⟩ := survives _ rfl
  obtain rfl := Option.some.inj written
  exact absurd (records (ascii "bob")) (by decide)

/-! ## Processes that run after the daemon's last save -/

/-- Records that come back from the file as they were. -/
structure Tidy (sm : StateManager) : Prop where
  few : sm.peers.length ≤ maxPeers
  fits : ∀ p ∈ sm.peers, p.Fits
  plain : ∀ p ∈ sm.peers, IsPlain p.id ∧ IsPlain p.ip
  idle : ∀ p ∈ sm.peers, p.online = false ∧ p.busy = false

theorem restored_fits {p : Peer} (fits : p.Fits) : p.restored.Fits :=
  { fits with
    state := by
      show IsInt (PeerState.ofCode p.state.code).code
      rw [PeerState.code_ofCode]
      exact fits.state }

theorem restart_tidy {sm : StateManager} (tidy : Tidy sm) : Tidy (restart sm) := by
  have table := restart_plain tidy.fits tidy.few tidy.plain
  refine ⟨?_, ?_, ?_, ?_⟩ <;> rw [table]
  · rw [List.length_map]
    exact tidy.few
  all_goals
    intro p hp
    obtain ⟨q, hq, rfl⟩ := List.mem_map.1 hp
  · exact restored_fits (tidy.fits q hq)
  · exact tidy.plain q hq
  · exact ⟨rfl, rfl⟩

/-- A record is found where it was before a change that keeps ids. -/
theorem stateGetPeer_map {sm sm' : StateManager} {f : Peer → Peer} (keeps : ∀ p, (f p).id = p.id)
    (table : sm'.peers = sm.peers.map f) (id : CString) :
    stateGetPeer id sm' = (stateGetPeer id sm).map f := by
  unfold stateGetPeer findRecord
  split_ifs
  · rfl
  · rw [Cursor.map_val_find, Cursor.map_val_find, table, List.find?_map]
    congr 2
    funext p
    rw [Function.comp_apply, keeps]

theorem restart_sameRecords {sm : StateManager} (tidy : Tidy sm) : SameRecords (restart sm) sm := by
  intro id
  have table := restart_plain tidy.fits tidy.few tidy.plain
  rw [stateGetPeer_map (f := Peer.restored) (fun _ => rfl) table, Option.map_map]
  cases found : stateGetPeer id sm with
  | none => rfl
  | some p =>
    have hp : p ∈ sm.peers := by
      unfold stateGetPeer findRecord at found
      split_ifs at found
      rw [Cursor.map_val_find] at found
      exact List.mem_of_find?_eq_some found
    obtain ⟨online, busy⟩ := tidy.idle p hp
    rw [Option.map_some, Option.map_some, Function.comp_apply, saved_restored]
    unfold Peer.saved
    rw [online, busy]

/-- File and copies show the records as the daemon saved them last. -/
structure InStep (saved : StateManager) (r : Race) : Prop where
  last : r.lastSave = some saved
  file : ∃ sm, r.written = some sm ∧ Tidy sm ∧ SameRecords sm saved
  copies : ∀ pid sm, r.copies pid = some sm → Tidy sm ∧ SameRecords sm saved

theorem InStep.step {saved : StateManager} {r : Race} (h : InStep saved r) {l : RaceCall}
    (other : l ≠ .daemonSave) : InStep saved (raceStep r l) := by
  obtain ⟨last, ⟨sm, written, tidy, records⟩, copies⟩ := h
  have file : r.file = some (stateSave sm) := by
    unfold Race.file
    rw [written]
  cases l with
  | daemonSave => exact absurd rfl other
  | update call => exact ⟨last, ⟨sm, written, tidy, records⟩, copies⟩
  | cliInit pid =>
    refine ⟨last, ⟨sm, written, tidy, records⟩, fun pid' copy hcopy => ?_⟩
    simp only [raceStep, file, Function.update_apply] at hcopy
    split_ifs at hcopy
    · obtain rfl := Option.some.inj hcopy
      exact ⟨restart_tidy tidy, fun id => (restart_sameRecords tidy id).trans (records id)⟩
    · exact copies pid' copy hcopy
  | cliSave pid =>
    simp only [raceStep]
    cases copy : r.copies pid with
    | none => exact ⟨last, ⟨sm, written, tidy, records⟩, copies⟩
    | some sm' =>
      refine ⟨last, ⟨sm', rfl, copies pid sm' copy⟩, fun pid' copy' hcopy => ?_⟩
      simp only [Function.update_apply] at hcopy
      split_ifs at hcopy
      exact copies pid' copy' hcopy

/-- Processes that start after the daemon's last save lose nothing, if what it saved is plain and
nobody in it is online or busy. -/
theorem late_processes_lose_nothing {r : Race} (tidy : Tidy r.daemon.sm)
    (nobody : ∀ pid, r.copies pid = none) {ls : List RaceCall} (late : ∀ l ∈ ls, l ≠ .daemonSave) :
    Survives (History.run raceStep (raceStep r .daemonSave) ls) := by
  have start : InStep r.daemon.sm (raceStep r .daemonSave) := by
    refine ⟨rfl, ⟨r.daemon.sm, rfl, tidy, fun _ => rfl⟩, fun pid sm copy => ?_⟩
    rw [show (raceStep r .daemonSave).copies pid = none from nobody pid] at copy
    cases copy
  have meets := (History.meets_of_forall fun _ _ => trivial :
    History.Meets raceStep (fun _ _ => True) (raceStep r .daemonSave) ls).and late
  have after := History.run_invariant (InStep r.daemon.sm) (fun _ _ h other => h.step other.1) start meets
  intro saved last
  obtain rfl := Option.some.inj (after.last.symm.trans last)
  obtain ⟨sm, written, -, records⟩ := after.file
  exact ⟨sm, written, records⟩

end Orcashi
