import Gjallar.GuidedRows
import Gjallar.Runs

/-!
# Executable steps of the guided unlock

One way in which every command of the workflow may be answered: no transaction fails for a reason
of its own, and the client and the clock say what the scene says. What is played with these
answers is a run of the system.
-/
namespace Gjallar.GuidedSystem

open Gjallar.Text Gjallar.Data Gjallar.Tables Gjallar.Operation Gjallar.OperationStore
  Gjallar.OperationLedger Gjallar.TargetLocks Gjallar.RecoveryStore Gjallar.RecoveryBinding
  Gjallar.Processes Gjallar.GuidedQm Gjallar.GuidedWorkflow
open Gjallar.ChangeServices (Answer)
open Gjallar.Execution (Settles Reads exactLocator)

/-- What the client, the clock and the random source say. -/
structure Scene where
  draw : Draw
  process : Admission.Process
  audit : Answer Bool := .ok true
  tasks : Answer (List Dict) := .ok []
  config : Answer Dict := .ok []

/-- The answer of a transaction that runs. -/
def settle {α : Type} (run : Except StoreError (α × Db)) (db : Db) : Answer α × Db :=
  match run with
  | .ok (a, db') => (.ok a, db')
  | .error e => (.error (.store e), db)

theorem settles_settle {α : Type} (run : Except StoreError (α × Db)) (db : Db) :
    Settles run db (settle run db).1 (settle run db).2 := by
  unfold settle
  split
  · exact .done rfl
  · exact .refused rfl

namespace Scene

/-- The answer to a command and the database after it. -/
def answer (rt : Runtime) (cluster : Str) (scene : Scene) (db : Db) :
    (c : Command) → Reply c × Db
  | .getOperation id => (.ok (db.operations.get id), db)
  | .listEvents id => (.ok (listEvents id db), db)
  | .create spec payload => settle (create rt scene.draw spec db payload) db
  | .append id a => settle (appendInSession rt scene.draw id a db) db
  | .currentLock _ targetId =>
      match exactLocator targetId with
      | some vmid => (.ok (targetOperationLock cluster vmid db.locks), db)
      | none => (.error .other, db)
  | .acquire targetType targetId ownerId =>
      match exactLocator targetId with
      | some vmid =>
          if targetType = ("proxmox_vm" : Str) then
            settle (acquireLock rt scene.process scene.draw cluster vmid ownerId db) db
          else (.error .other, db)
      | none => (.error .other, db)
  | .getRecovery id => (.ok ((db.recovery.get id).map itemOf), db)
  | .prepareAndClaim spec owner time version checksum =>
      settle (prepareAndClaim scene.draw spec owner time (some version) (some checksum) db) db
  | .claimOperation id owner time version checksum =>
      settle (claimOperation scene.draw id owner time (some version) (some checksum) db) db
  | .claimDue owner time limit =>
      settle (claimDue scene.draw owner time limit (fun _ => false) db) db
  | .commit lease o => settle (commitObservation rt scene.draw lease o db) db
  | .taskAudit _ => (scene.audit, db)
  | .activeTasks .. => (scene.tasks, db)
  | .vmConfig .. => (scene.config, db)
  | .clock => (.ok scene.draw.now, db)

theorem exec_answer (rt : Runtime) (cluster : Str) (scene : Scene) (db : Db) (c : Command) :
    Exec rt cluster db c (scene.answer rt cluster db c).1 (scene.answer rt cluster db c).2 := by
  cases c with
  | getOperation | listEvents | getRecovery => exact ⟨rfl, .inl rfl⟩
  | create | append | prepareAndClaim | claimOperation | commit =>
      exact ⟨scene.draw, settles_settle _ db⟩
  | claimDue => exact ⟨scene.draw, fun _ => false, settles_settle _ db⟩
  | currentLock targetType targetId =>
      cases hlocator : exactLocator targetId with
      | none =>
          simp only [answer, Exec, hlocator, implies_true, and_self]
      | some vmid =>
          simp only [answer, Exec, hlocator]
          exact ⟨trivial, fun _ => .inl rfl⟩
  | acquire targetType targetId ownerId =>
      cases hlocator : exactLocator targetId with
      | none =>
          simp only [answer, Exec, hlocator, and_self]
      | some vmid =>
          simp only [answer, Exec, hlocator]
          by_cases htype : targetType = ("proxmox_vm" : Str)
          · rw [if_pos htype, if_pos htype]
            exact ⟨scene.process, scene.draw, settles_settle _ db⟩
          · rw [if_neg htype, if_neg htype]
            exact ⟨rfl, rfl⟩
  | taskAudit | activeTasks | vmConfig => rfl
  | clock => exact ⟨rfl, _, rfl⟩

end Scene

/-- A scene at a time in seconds, with random identifiers of its own. -/
def Scene.ofTime (seconds : ℕ) : Scene :=
  { draw := ⟨Instant.seconds seconds, Instant.seconds seconds, fun i =>
      ⟨ofInt (100 * seconds + i : ℕ), fun _ hx =>
        isLowerHex_of_mem_ofInt (Int.natCast_nonneg _) hx⟩⟩,
    process := ⟨none, fun _ => true⟩ }

/-- A step of a play: process `i` issues its next `n` commands in a scene. -/
structure Turn where
  process : ℕ
  commands : ℕ
  scene : Scene

section

variable {rt : Runtime} {cluster : Str} {P : Db → Command → Prop}

/-- Play one turn after the other, each as long as the condition holds. -/
def perform (rt : Runtime) (cluster : Str) (P : Db → Command → Prop) [∀ db, DecidablePred (P db)] :
    List Turn → State Command Reply Unit Db → State Command Reply Unit Db
  | [], s => s
  | turn :: turns, s => perform rt cluster P turns
      (System.play (turn.scene.answer rt cluster) P turn.process turn.commands s)

theorem reachable_perform [∀ db, DecidablePred (P db)] {s : State Command Reply Unit Db}
    (turns : List Turn)
    (h : ((system rt cluster).restrict P).Reachable Initial s) :
    ((system rt cluster).restrict P).Reachable Initial (perform rt cluster P turns s) := by
  induction turns generalizing s with
  | nil => exact h
  | cons turn turns ih =>
      exact ih (System.reachable_play (turn.scene.exec_answer rt cluster) turn.commands h)

/-- Entry programs over the empty database. -/
theorem reachable_entries (ps : List (Program Command Reply Unit)) (hps : ∀ p ∈ ps, Entry rt p) :
    ((system rt cluster).restrict P).Reachable Initial ⟨{}, ps, []⟩ :=
  System.reachable_programs ⟨fun _ _ => rfl, fun _ _ => rfl, fun r hr => by cases hr⟩ ps hps

end

/-! ### A plan -/

def samplePlan : PlanCommand :=
  { nodeId := "pve", vmid := 100, idempotencyKey := "key-1", actor := ⟨"1", "op", "operator"⟩,
    node_valid := by decide, vmid_valid := by decide, key_valid := by decide }

def sampleUseCase : UseCase := ⟨Instant.seconds 600, 3, Instant.seconds 30⟩

def sampleWorker : Worker :=
  ⟨sampleUseCase, [], "worker-1", Instant.seconds 30, 3, fun _ => "Exception"⟩

/-- The VM before the unlock. -/
def lockedScene (seconds : ℕ) : Scene :=
  { Scene.ofTime seconds with config := .ok [("lock", .str "backup")] }

/-- A plan until it issues the instruction. -/
def planningTurns : List Turn :=
  [⟨0, 13, lockedScene 1⟩, ⟨0, 2, lockedScene 2⟩, ⟨0, 9, lockedScene 3⟩]

/-- A plan that is about to issue its instruction. -/
def planned : State Command Reply Unit Db :=
  perform TaskIdentity.sampleRuntime "lab" (fun _ _ => True) planningTurns
    ⟨{}, [asProcess (sampleUseCase.planUnlock TaskIdentity.sampleRuntime samplePlan)], []⟩

theorem reachable_planned :
    (system TaskIdentity.sampleRuntime "lab").Reachable Initial planned := by
  refine (@reachable_perform _ _ (fun _ _ => True) _ _ planningTurns
    (reachable_entries _ fun p hp => ?_)).of_restrict
  obtain rfl := List.mem_singleton.mp hp
  exact .plan sampleUseCase samplePlan

end Gjallar.GuidedSystem
