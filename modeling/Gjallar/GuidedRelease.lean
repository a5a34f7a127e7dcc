import Gjallar.GuidedScenes
import Gjallar.GuidedSteps

/-!
# When a guided unlock releases its lock

A lock is released only while the instruction was never exposed, or after it expired unattested
with the target and the lock unchanged, or after an attested execution with the target verified.
The instruction is exposed only under a bound lock, after another observation of the target.
-/
namespace Gjallar.GuidedSystem

open Gjallar.Text Gjallar.Data Gjallar.Tables Gjallar.Operation Gjallar.OperationStore
  Gjallar.TargetLocks Gjallar.RecoveryStore Gjallar.RecoveryBinding Gjallar.Processes
  Gjallar.GuidedQm Gjallar.GuidedWorkflow

/-- The instruction bundle is in the details of the operation. -/
def Exposed (id : Str) (db : Db) : Prop :=
  ∃ row, db.operations.get id = some row ∧ Dict.get row.details "instruction_bundle" ≠ none

instance (id : Str) (db : Db) : Decidable (Exposed id db) :=
  decidable_of_iff ((db.operations.get id).any fun row =>
      (Dict.get row.details "instruction_bundle").isSome) (by
    simp only [Option.any_eq_true, Option.isSome_iff_ne_none]
    rfl)

/-- An open lock of the operation is no longer open. -/
def Releases (id : Str) (db db' : Db) : Prop :=
  ∃ key lock, db.locks.get key = some lock ∧ lock.ownerId = id ∧ lock.isOpen = true ∧
    ∀ lock', db'.locks.get key = some lock' → lock'.isOpen = false

instance (id : Str) (db db' : Db) : Decidable (Releases id db db') :=
  decidable_of_iff ((db.locks.rows.any fun lock => decide (lock.ownerId = id) && lock.isOpen &&
      (db'.locks.get lock.operationLockId).all fun lock' => !lock'.isOpen) = true) (by
    simp only [List.any_eq_true, Bool.and_eq_true, decide_eq_true_eq, Option.all_eq_true,
      Bool.not_eq_true']
    constructor
    · rintro ⟨lock, hlock, ⟨howner, hopen⟩, hreleased⟩
      exact ⟨lock.operationLockId, lock, Table.get_of_mem hlock, howner, hopen, hreleased⟩
    · rintro ⟨key, lock, hlock, howner, hopen, hreleased⟩
      obtain ⟨hmem, rfl⟩ := Table.get_eq_some.mp hlock
      exact ⟨lock, hmem, ⟨howner, hopen⟩, hreleased⟩)

/-- The recovery item of the operation names an open lock of it. -/
def LockBound (rt : Runtime) (row : OperationRecord) (db : Db) : Prop :=
  ∃ item lock, db.recovery.get row.operationId = some item ∧
    NamesLock rt row item.details db.locks lock ∧ lock.isOpen = true

/-- What a process knows of the stored operation when it releases the lock of an attested one: it
has observed the target, after the attestation, without a lock and without tasks. -/
def VerifiedAttested (rt : Runtime) (h : Past) (row : OperationRecord) : Prop :=
  executionAttested row = true ∧ ∃ past new observed attested, Observes rt h past new row observed ∧
    Seen past attested ∧ attested.operationId = row.operationId ∧
    executionAttested attested = true ∧ observed.configLock = [] ∧ observed.activeTasks = []

section

variable {rt : Runtime} {cluster : Str} {db db' : Db} {t : Trace Command Reply} {i : ℕ}
  {lease : RecoveryLease} {operation row : OperationRecord}

/-- A snapshot that a process decides on is one of the operation its lease is on. -/
theorem Decides.operationId (hinv : Invariant rt cluster db t)
    (hd : Decides (historyOf i t) lease operation) (hid : isGuided lease.operationId = true) :
    operation.operationId = lease.operationId := by
  rcases hd.names with hname | hname
  · exact hname.symm
  · have hguided : isGuided operation.operationId = true := by
      rw [← isGuided_strip, ← hname, hid]
    obtain ⟨hc, hr⟩ := hinv _ hguided
    obtain ⟨row, hrow, -⟩ := hr.seen_of_mem hd.seen rfl
    rw [hname, hc.strip_id hrow]

theorem Decides.extends (hinv : Invariant rt cluster db t)
    (hd : Decides (historyOf i t) lease operation) (hid : isGuided lease.operationId = true)
    (hrow : db.operations.get lease.operationId = some row) : Extends operation row := by
  obtain ⟨row', hrow', hextends⟩ :=
    (hinv _ hid).2.seen_of_mem hd.seen (hd.operationId hinv hid)
  rw [hrow] at hrow'
  cases hrow'
  exact hextends

/-- A fenced commit is decided on the stored row. -/
theorem Decides.eq_row (hinv : Invariant rt cluster db t)
    (hd : Decides (historyOf i t) lease operation) (hid : isGuided lease.operationId = true)
    (hrow : db.operations.get lease.operationId = some row)
    (hversion : row.version = operation.version) : operation = row :=
  (hd.extends hinv hid hrow).same hversion.symm

end

section

variable {rt : Runtime} {cluster id : Str} {db db' : Db} {t : Trace Command Reply} {i : ℕ}
  {lease : RecoveryLease} {o : Observation} {row : OperationRecord} {item : RecoveryRecord}
  {status : RecoveryStatus} {draw : Draw}

/-- Why a commit may release. -/
theorem released_of_commit (hinv : Invariant rt cluster db t)
    (hid : isGuided lease.operationId = true)
    (hallowed : CommitAllowed rt (historyOf i t) lease o)
    (hcommit : Committed rt draw lease o db db' row item status)
    (hrelease : o.releaseTargetLock = true) :
    Dict.get row.details "instruction_bundle" = none ∨ Expires rt (historyOf i t) lease row ∨
      VerifiedAttested rt (historyOf i t) row := by
  obtain ⟨hc, hr⟩ := hinv _ hid
  obtain ⟨_, _, hsound⟩ := hc.sound row hcommit.before
  have hrow : ∀ operation o', Decides (historyOf i t) lease operation →
      o = UseCase.fenced operation o' → operation = row := by
    rintro operation o' hd rfl
    exact hd.eq_row hinv hid hcommit.before (hcommit.version _ rfl)
  cases hallowed with
  | quiet hnext hno => rw [hno] at hrelease; cases hrelease
  | blocked hnext hno => rw [hno] at hrelease; cases hrelease
  | withoutLock operation actor eventType reason observedLock hd ho => subst ho; cases hrelease
  | unissued operation actor next eventType payload finalization hd hnext ho =>
      subst ho
      exact .inl (hsound.unexposed (List.mem_singleton.mp (hcommit.expected [.planned] rfl)))
  | bound operation actor evidence hd ho => subst ho; cases hrelease
  | issued operation actor expiresAt observed bundle evidence delay hissues ho =>
      subst ho; cases hrelease
  | expired operation actor expiresAt observed hexpires ho =>
      have heq : operation = row := by
        obtain ⟨-, past, new, _, _, ⟨_, _, _, _, _, -, hh, -⟩, hd, -⟩ := hexpires
        exact hrow operation _ (hd.mono (hh ▸ List.suffix_append _ past)) ho
      rw [heq] at hexpires
      exact .inr (.inl hexpires)
  | verifying operation actor hd hattested ho => subst ho; cases hrelease
  | succeeded operation actor observed verifiedAt hverifies ho =>
      obtain ⟨past, new, found, attested, hobserves, hd, ha, hattested, hlock, htasks⟩ := hverifies
      have hsuffix : past <:+ historyOf i t := by
        obtain ⟨_, _, _, _, _, -, hh, -⟩ := hobserves
        exact hh ▸ List.suffix_append _ past
      rw [hrow operation _ (hd.mono hsuffix) ho] at hobserves
      refine .inr (.inr ⟨?_, past, new, found, attested, hobserves, ha.seen, ?_, hattested, hlock,
        htasks⟩)
      · exact ((ha.mono hsuffix).extends hinv hid hcommit.before).attested hattested
      · rw [(ha.mono hsuffix).operationId hinv hid, hcommit.rowId]

/-- Why a commit may expose the instruction. -/
theorem exposed_of_commit (hinv : Invariant rt cluster db t)
    (hid : isGuided lease.operationId = true)
    (hallowed : CommitAllowed rt (historyOf i t) lease o)
    (hcommit : Committed rt draw lease o db db' row item status)
    (hbundle : Dict.get o.detailsPatch "instruction_bundle" ≠ none) : row.status = .planned ∧
      LockBound rt row db ∧ ∃ evidence, Issues rt (historyOf i t) lease row evidence := by
  obtain ⟨hc, hr⟩ := hinv _ hid
  obtain ⟨_, _, hsound⟩ := hc.sound row hcommit.before
  have hnext := hallowed.tame.exposes hbundle
  obtain ⟨-, hexpected⟩ := hallowed.tame.unmarked _ hnext rfl
  refine ⟨List.mem_singleton.mp (hcommit.expected _ hexpected), ?_⟩
  cases hallowed with
  | issued operation actor expiresAt observed bundle evidence delay hissues ho =>
      have hd := hissues.decides
      subst ho
      have heq := hd.eq_row hinv hid hcommit.before (hcommit.version _ rfl)
      subst heq
      have hne := lease_bound_of_issued hr rfl hcommit.found hissues
      have hfound := hcommit.rowId ▸ hcommit.found
      rcases (hsound.item item hfound).binding with hnil | ⟨lock, hlock, -, hopen⟩
      · exact absurd hnil hne
      · refine ⟨⟨item, lock, hfound, hlock, hopen ?_⟩, evidence, hissues⟩
        rw [hcommit.leased]
        decide
  | quiet hq => rcases hq with hq | hq <;> rw [hq] at hnext <;> cases hnext
  | blocked hq => rw [hq] at hnext; cases hnext
  | withoutLock | bound | expired | verifying | succeeded => subst ‹o = _›; cases hnext
  | unissued operation actor next eventType payload finalization hd hq ho =>
      subst ho
      exact absurd rfl hbundle

end

/-! ### Steps of the system -/

section

variable {rt : Runtime} {cluster id : Str} {db db' : Db} {t : Trace Command Reply} {i : ℕ}
  {c : Command} {r : Reply c}

theorem not_releases (hkeeps : ∀ key lock, db.locks.get key = some lock → lock.ownerId = id →
    lock.isOpen = true → ∃ lock', db'.locks.get key = some lock' ∧ lock'.isOpen = true) :
    ¬ Releases id db db' := by
  rintro ⟨key, lock, hlock, howner, hopen, hclosed⟩
  obtain ⟨lock', hlock', hopen'⟩ := hkeeps key lock hlock howner hopen
  rw [hclosed lock' hlock'] at hopen'
  cases hopen'

theorem Same.not_releases (hs : Same id db db') : ¬ Releases id db db' :=
  GuidedSystem.not_releases fun key lock hlock howner hopen =>
    ⟨lock, (hs.locks key lock howner).mpr hlock, hopen⟩

theorem exposed_congr (hops : db'.operations.get id = db.operations.get id)
    (he : Exposed id db') : Exposed id db := by
  obtain ⟨row, hrow, hbundle⟩ := he
  exact ⟨row, hops ▸ hrow, hbundle⟩

/-- Only a commit on the operation releases its lock. -/
theorem committed_of_releases (hallowed : Allowed rt (historyOf i t) c)
    (hexec : Exec rt cluster db c r db') (hreleases : Releases id db db') :
    ∃ lease o draw row item status, c = .commit lease o ∧ lease.operationId = id ∧
      Committed rt draw lease o db db' row item status ∧ o.releaseTargetLock = true := by
  have hkept : db'.locks = db.locks → ¬ Releases id db db' := fun heq =>
    not_releases fun key lock hlock _ hopen => ⟨lock, heq ▸ hlock, hopen⟩
  have heffect := exec_effect hexec fun lease o heq => by
    subst heq
    exact hallowed.tame.projector
  cases heffect with
  | kept _ _ hlocks => exact absurd hreleases (hkept hlocks)
  | created _ _ _ hlocks => exact absurd hreleases (hkept hlocks)
  | appended _ _ _ _ _ _ _ hlocks => exact absurd hreleases (hkept hlocks)
  | claimed _ hlocks _ => exact absurd hreleases (hkept hlocks)
  | prepared _ _ _ _ _ hlocks _ => exact absurd hreleases (hkept hlocks)
  | acquired _ _ _ _ _ _ hinsert =>
      refine absurd hreleases (not_releases fun key lock hlock _ hopen => ?_)
      exact ⟨lock, get_of_insert hinsert hlock, hopen⟩
  | committed draw row item status hcommit =>
      rename_i lease o
      refine ⟨lease, o, draw, row, item, status, rfl, ?_, hcommit, ?_⟩
      · by_contra hne
        exact (hcommit.same_of_ne hallowed.tame fun heq => hne heq.symm).not_releases hreleases
      · by_contra hrelease
        rw [Bool.not_eq_true] at hrelease
        refine not_releases (fun key lock hlock _ hopen => ?_) hreleases
        exact hcommit.isOpen_of_not_release hrelease hlock hopen

/-- Only a commit on the operation that stores the bundle exposes the instruction. -/
theorem committed_of_exposed (hallowed : Allowed rt (historyOf i t) c)
    (hexec : Exec rt cluster db c r db') (hbefore : ¬ Exposed id db) (hafter : Exposed id db') :
    ∃ lease o draw row item status, c = .commit lease o ∧ lease.operationId = id ∧
      Committed rt draw lease o db db' row item status ∧
      Dict.get o.detailsPatch "instruction_bundle" ≠ none := by
  have hkept : db'.operations.get id ≠ db.operations.get id := fun heq =>
    hbefore (exposed_congr heq hafter)
  obtain ⟨row', hrow', hbundle⟩ := hafter
  have heffect := exec_effect hexec fun lease o heq => by
    subst heq
    exact hallowed.tame.projector
  cases heffect with
  | kept hops => exact absurd (by rw [hops]) hkept
  | acquired _ _ _ _ hops => exact absurd (by rw [hops]) hkept
  | claimed hops => exact absurd (by rw [hops]) hkept
  | prepared _ _ _ _ hops => exact absurd (by rw [hops]) hkept
  | created draw hops =>
      obtain ⟨c, observed, expiresAt, rfl, -⟩ := hallowed
      have hget := Table.get_insert hops id
      split at hget
      · rw [hrow', Option.some.injEq] at hget
        rw [hget] at hbundle
        exact absurd (get_newOperation_none rfl) hbundle
      · exact absurd hget hkept
  | appended draw row hrow _ _ hops =>
      have hget := Table.get_put hops id
      split at hget
      · rename_i heq
        rw [hrow'] at hget
        have hold : db.operations.get id = some row := by
          have hkey : row.operationId = id := heq
          rw [← hkey]
          exact Table.get_of_mem (Table.mem_of_get hrow)
        rw [hold, Option.map_some, Option.some.injEq] at hget
        refine absurd ⟨row, hold, ?_⟩ hbefore
        rwa [hget, applyProjection_details, get_merge_of_none
          (lacks_sanitized hallowed.tame.fixed _ (by decide))] at hbundle
      · exact absurd hget hkept
  | committed draw row item status hcommit =>
      rename_i lease o
      by_cases heq : lease.operationId = id
      · subst heq
        refine ⟨lease, o, draw, row, item, status, rfl, rfl, hcommit, fun hnone => hbefore ?_⟩
        rw [hcommit.after, Option.some.injEq] at hrow'
        subst hrow'
        rw [get_committed_of_none hnone] at hbundle
        exact ⟨row, hcommit.before, hbundle⟩
      · refine absurd ?_ hkept
        exact (hcommit.same_of_ne hallowed.tame fun h => heq h.symm).operations

end

/-- What one step of the system may do to the target lock and the instruction of a guided
unlock. -/
structure ReleaseSafe (rt : Runtime) (id : Str) (s s' : State Command Reply Unit Db) : Prop where
  released : Releases id s.world s'.world → ∃ row, s.world.operations.get id = some row ∧
    (¬ Exposed id s.world ∨ ∃ i, (∃ lease, Expires rt (historyOf i s.trace) lease row) ∨
      VerifiedAttested rt (historyOf i s.trace) row)
  exposed : ¬ Exposed id s.world → Exposed id s'.world → ∃ row i lease evidence,
    s.world.operations.get id = some row ∧ row.status = .planned ∧ LockBound rt row s.world ∧
      Issues rt (historyOf i s.trace) lease row evidence
  stays : Exposed id s.world → Exposed id s'.world

theorem Same.releaseSafe {rt : Runtime} {id : Str} {s s' : State Command Reply Unit Db}
    (hsame : Same id s.world s'.world) : ReleaseSafe rt id s s' where
  released := fun hreleases => absurd hreleases hsame.not_releases
  exposed := fun hbefore hafter => absurd (exposed_congr hsame.operations hafter) hbefore
  stays := exposed_congr hsame.operations.symm

/-- The lock of a guided unlock is released, and its instruction exposed, only as stated, in every
step of every run. -/
theorem guided_release_safety {rt : Runtime} {cluster : Str} {s s' : State Command Reply Unit Db}
    (h : (system rt cluster).Reachable Initial s) (hs : (system rt cluster).Step s s') {id : Str}
    (hid : isGuided id = true) : ReleaseSafe rt id s s' := by
  have hinv := invariant_of_reachable h
  cases hs with
  | start => exact Same.releaseSafe ⟨rfl, rfl, fun _ _ _ => .rfl⟩
  | crash => exact Same.releaseSafe ⟨rfl, rfl, fun _ _ _ => .rfl⟩
  | environment henv => exact (Foreign.same henv hid).releaseSafe
  | call i c k r hi hexec =>
      have hallowed : Allowed rt _ c :=
        Contract.allowed_of_reachable (D := contract rt) (fun p hp => follows_contract hp) h hi
      refine ⟨fun hreleases => ?_, fun hbefore hafter => ?_, ?_⟩
      · obtain ⟨lease, o, draw, row, item, status, rfl, rfl, hcommit, hrelease⟩ :=
          committed_of_releases hallowed hexec hreleases
        refine ⟨row, hcommit.before, ?_⟩
        rcases released_of_commit hinv hid hallowed hcommit hrelease with
          hnone | hexpires | hverified
        · refine .inl ?_
          rintro ⟨row', hrow', hbundle⟩
          rw [hcommit.before] at hrow'
          cases hrow'
          exact hbundle hnone
        · exact .inr ⟨i, .inl ⟨lease, hexpires⟩⟩
        · exact .inr ⟨i, .inr hverified⟩
      · obtain ⟨lease, o, draw, row, item, status, rfl, rfl, hcommit, hbundle⟩ :=
          committed_of_exposed hallowed hexec hbefore hafter
        obtain ⟨hplanned, hbound, evidence, hissues⟩ :=
          exposed_of_commit hinv hid hallowed hcommit hbundle
        exact ⟨row, i, lease, evidence, hcommit.before, hplanned, hbound, hissues⟩
      · rintro ⟨row, hrow, hbundle⟩
        obtain ⟨row', hrow', hextends⟩ := (coherent_step hinv hallowed hexec hid).2.row row hrow
        exact ⟨row', hrow', hextends.exposed hbundle⟩

/-- The instruction of the plan has expired, and the recovery run is about to close it. -/
def expiring : State Command Reply Unit Db :=
  perform TaskIdentity.sampleRuntime "lab" (fun _ _ => True)
    (List.append planningTurns [⟨0, 10, lockedScene 4⟩, ⟨1, 12, lockedScene 700⟩])
    ⟨{}, [asProcess (sampleUseCase.planUnlock TaskIdentity.sampleRuntime samplePlan),
      asProcess (sampleWorker.runOnce TaskIdentity.sampleRuntime)], []⟩

theorem reachable_expiring :
    (system TaskIdentity.sampleRuntime "lab").Reachable Initial expiring := by
  refine (@reachable_perform _ _ (fun _ _ => True) _ _ _
    (reachable_entries _ fun p hp => ?_)).of_restrict
  rcases List.mem_pair.mp hp with rfl | rfl
  · exact .plan sampleUseCase samplePlan
  · exact .runOnce sampleWorker

/-- The commit that issues the instruction of a plan, and the commit that releases the lock when
the instruction has expired. -/
theorem guided_release_safety_of_expiry : ∃ s s' t t' : State Command Reply Unit Db,
    (¬ Exposed (samplePlan.operationId TaskIdentity.sampleRuntime) s.world ∧
      Exposed (samplePlan.operationId TaskIdentity.sampleRuntime) s'.world ∧
      ReleaseSafe TaskIdentity.sampleRuntime (samplePlan.operationId TaskIdentity.sampleRuntime)
        s s') ∧
    (Exposed (samplePlan.operationId TaskIdentity.sampleRuntime) t.world ∧
      Releases (samplePlan.operationId TaskIdentity.sampleRuntime) t.world t'.world ∧
      ReleaseSafe TaskIdentity.sampleRuntime (samplePlan.operationId TaskIdentity.sampleRuntime)
        t t') := by
  have hissue : ¬ Exposed (samplePlan.operationId TaskIdentity.sampleRuntime) planned.world ∧
      planned.programs[0]?.any Program.isPending = true ∧
      Exposed (samplePlan.operationId TaskIdentity.sampleRuntime)
        (System.play ((lockedScene 4).answer TaskIdentity.sampleRuntime "lab")
          (fun _ _ => True) 0 1 planned).world := by
    decide +kernel
  have hexpiry : Exposed (samplePlan.operationId TaskIdentity.sampleRuntime) expiring.world ∧
      expiring.programs[1]?.any Program.isPending = true ∧
      Releases (samplePlan.operationId TaskIdentity.sampleRuntime) expiring.world
        (System.play ((lockedScene 700).answer TaskIdentity.sampleRuntime "lab")
          (fun _ _ => True) 1 1 expiring).world := by
    decide +kernel
  refine ⟨planned, _, expiring, _, ⟨hissue.1, hissue.2.2, ?_⟩, hexpiry.1, hexpiry.2.2, ?_⟩
  · exact guided_release_safety reachable_planned
      (System.step_play ((lockedScene 4).exec_answer _ _) hissue.2.1) (by decide)
  · exact guided_release_safety reachable_expiring
      (System.step_play ((lockedScene 700).exec_answer _ _) hexpiry.2.1) (by decide)

end Gjallar.GuidedSystem
