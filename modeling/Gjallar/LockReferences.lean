import Gjallar.AdmissionAtomicity
import Gjallar.BoundLocks
import Gjallar.DictEquality
import Gjallar.TextLines

/-!
# Lock references of admitted operations

An admission writes its locks into the details of the operation and of the recovery item;
`lock_references` reads them back from both. What it reads of an admission are the locks of the
admission, and after a change in one of the two ledgers it reads nothing.
-/
namespace Gjallar.LockReferences

open Gjallar.Text Gjallar.Data Gjallar.Operation Gjallar.OperationStore Gjallar.TargetLocks
  Gjallar.RecoveryStore Gjallar.Redaction Gjallar.VmAdmission Gjallar.AdmissionAtomicity
  Gjallar.Transactions Gjallar.Tables Gjallar.Regex Gjallar.Regex.Pattern

/-! ### Target ids -/

/-- The target id that the callers give a VM. -/
theorem targetVmid_vmid (n : ℕ) : targetVmid (("vmid:" : Str) ++ ofNat n) = some (n : ℤ) := by
  have hdigits : ∀ c ∈ ofNat n, isAsciiDigit c = true := fun _ => isAsciiDigit_of_mem_ofNat
  have hsome : (targetIdPattern.fullmatch (("vmid:" : Str) ++ ofNat n)).isSome = true := by
    rw [fullmatch_isSome_iff]
    refine ⟨[] ++ ([] ++ [(1, ofNat n)]), _, ofNat n, [], _, rfl, rfl, ?_, [], ?_, rfl⟩
    · rw [matches_lit]
      exact ⟨rfl, rfl⟩
    · rw [matches_plus_one]
      exact ⟨ofNat_ne_nil n, hdigits, rfl⟩
  obtain ⟨m, hm⟩ := Option.isSome_iff_exists.mp hsome
  obtain ⟨-, -, u, v, h, k, htext, hgroups, hlit, hgroup⟩ := fullmatch_eq_some hm
  rw [matches_lit] at hlit
  obtain ⟨rfl, rfl⟩ := hlit
  obtain ⟨h', hplus, rfl⟩ := (matches_group ..).mp hgroup
  obtain rfl := ((matches_plus_one ..).mp hplus).2.2
  obtain rfl : v = ofNat n := (List.append_cancel_left htext).symm
  rw [targetVmid, hm]
  change (do
    let n' ← toInt ((m.group 1).getD [])
    some (n' : ℤ)) = _
  rw [Match.group, hgroups]
  change (do
    let n' ← toInt (ofNat n)
    some (n' : ℤ)) = _
  rw [toInt_ofNat]
  rfl

/-! ### The recorded source -/

/-- The VMID of the source in the details of an operation. -/
def recordedSource (details : Dict) : Value := Dict.getD (subDict details "source") "vmid" .null

theorem eqv_int_iff (v : Value) (n : ℤ) : v.eqv (.int n) = true ↔ v.number = some (n : ℚ) := by
  cases v <;> simp [Value.eqv, Value.number]

/-- A value that differs from one that is equal to a number is not equal to that number. -/
theorem eqv_int_of_ne {v w : Value} {n : ℤ} (h : v.eqv w = false)
    (hw : w.eqv (.int n) = true) : v.eqv (.int n) = false := by
  rw [eqv_int_iff] at hw
  rw [Bool.eq_false_iff, ne_eq, eqv_int_iff]
  intro hv
  cases v <;> cases w <;> simp_all [Value.eqv, Value.number]

@[simp] theorem number_redactSecrets (v : Value) : (redactSecrets v).number = v.number := by
  cases v <;> simp [redactSecrets, Value.number]

theorem recordedSource_eq {details source : Dict} {v : Value}
    (hsource : Dict.get details "source" = some (.dict source))
    (hv : Dict.get source "vmid" = some v) : recordedSource details = v := by
  have hsub : subDict details "source" = source := by
    rw [subDict, hsource]
    rfl
  rw [recordedSource, hsub, Dict.getD, hv]
  rfl

/-- A VMID is recorded in a dictionary. -/
theorem of_recordedSource {details : Dict} {n : ℤ}
    (h : (recordedSource details).eqv (.int n) = true) :
    ∃ source v, Dict.get details "source" = some (.dict source) ∧
      Dict.get source "vmid" = some v ∧ v.eqv (.int n) = true := by
  have hnone : ∀ d : Dict, Dict.get d "vmid" = none → recordedSource details ≠
      Dict.getD d "vmid" .null := by
    intro d hd heq
    rw [heq, Dict.getD, hd] at h
    cases h
  have hvmid : ∃ v, Dict.get (subDict details "source") "vmid" = some v :=
    Option.ne_none_iff_exists'.mp fun hd => hnone _ hd rfl
  obtain ⟨v, hv⟩ := hvmid
  obtain ⟨source, hsource⟩ : ∃ source, Dict.get details "source" = some (.dict source) := by
    by_contra hno
    have hempty : subDict details "source" = [] := by
      unfold subDict
      cases hget : Dict.get details "source" with
      | none => rfl
      | some w =>
          cases w with
          | dict d => exact absurd ⟨d, hget⟩ hno
          | _ => rfl
    rw [hempty] at hv
    cases hv
  have hsub : subDict details "source" = source := by
    rw [subDict, hsource]
    rfl
  rw [hsub] at hv
  exact ⟨source, v, hsource, hv, recordedSource_eq hsource hv ▸ h⟩

/-- A recorded source VMID survives redaction. -/
theorem recordedSource_sanitized {details : Dict} {n : ℤ}
    (h : (recordedSource details).eqv (.int n) = true) :
    (recordedSource (sanitized details)).eqv (.int n) = true := by
  have hsource : isSecretKey "source" = false := by decide
  have hvmid : isSecretKey "vmid" = false := by decide
  obtain ⟨source, v, hs, hv, heqv⟩ := of_recordedSource h
  have hs' : Dict.get (sanitized details) "source" = some (.dict (sanitized source)) := by
    rw [get_sanitized, hs, hsource]
    rfl
  have hv' : Dict.get (sanitized source) "vmid" = some (redactSecrets v) := by
    rw [get_sanitized, hv, hvmid]
    rfl
  rw [recordedSource_eq hs' hv', eqv_int_iff, number_redactSecrets]
  exact (eqv_int_iff v n).mp heqv

/-! ### What is read back -/

/-- The entry of `related_target_locks` for one lock. -/
def relatedLocks (lockId : Str) (vmid : ℤ) : Value :=
  .list [.dict [("lock_id", .str lockId), ("vmid", .int vmid)]]

theorem relatedLocks_eqv (lockId : Str) (vmid : ℤ) :
    (relatedLocks lockId vmid).eqv (relatedLocks lockId vmid) = true := by
  let entry : List (Str × Value) := [("lock_id", .str lockId), ("vmid", .int vmid)]
  have hid : entry.lookup ("lock_id" : Str) = some (.str lockId) := rfl
  have hvmid : entry.lookup ("vmid" : Str) = some (.int vmid) := rfl
  have hentry : Value.eqvDict [("lock_id", .str lockId), ("vmid", .int vmid)] entry = true := by
    simp only [Value.eqvDict, hid, hvmid, Value.eqv, Value.number, beq_self_eq_true, Bool.and_self]
  unfold relatedLocks
  rw [Value.eqv, Value.eqvList, Value.eqvList, Value.eqv, hentry]
  rfl

theorem lockReferences_single {operationType : OperationType} {targetId lockId : Str} {vmid : ℤ}
    {details recovery : Dict} (hcount : expectedLockCount operationType = 1)
    (htarget : targetVmid targetId = some vmid)
    (hid : Dict.get recovery "target_lock_id" = some (.str lockId))
    (hnamed : (strip lockId).isEmpty = false)
    (hrelated : Dict.get recovery "related_target_locks" = none) :
    lockReferences operationType targetId details recovery = [⟨lockId, vmid⟩] := by
  unfold lockReferences
  simp only [htarget, hid, hnamed, Bool.false_eq_true, if_false, hcount, if_true]
  rw [Dict.getD, hrelated]
  rfl

/-- Details of an operation that name two locks. -/
structure NamesPair (details : Dict) (primary related : Str) (vmid : ℤ) : Prop where
  primary : Dict.get details "target_lock_id" = some (.str primary)
  related : Dict.get details "related_target_locks" = some (relatedLocks related vmid)

theorem lockReferences_pair {operationType : OperationType} {targetId primary related : Str}
    {vmid source : ℤ} {details recovery : Dict} (hcount : expectedLockCount operationType = 2)
    (htarget : targetVmid targetId = some vmid) (hne : source ≠ vmid)
    (hrange : 100 ≤ source ∧ source ≤ 999999999) (hids : related ≠ primary)
    (hprimary : (strip primary).isEmpty = false) (hrelated : (strip related).isEmpty = false)
    (hdetails : NamesPair details primary related source)
    (hrecovery : NamesPair recovery primary related source)
    (hsource : (recordedSource details).eqv (.int source) = true) :
    lockReferences operationType targetId details recovery =
      [⟨primary, vmid⟩, ⟨related, source⟩] := by
  obtain ⟨d, v, hd, hv, heqv⟩ := of_recordedSource hsource
  have hvmid : (Dict.getD d "vmid" .null).eqv (.int source) = true := by
    rw [Dict.getD, hv]
    exact heqv
  have hone : ¬ expectedLockCount operationType = 1 := by omega
  have hreference : relatedReference primary vmid (some (.dict d)) (relatedLocks related source) =
      some ⟨related, source⟩ :=
    if_pos ⟨rfl, hrange.1, hrange.2, hvmid, hne, hrelated, hids⟩
  have hlocks := relatedLocks_eqv related source
  unfold lockReferences
  simp only [htarget, hrecovery.primary, hprimary, Bool.false_eq_true, if_false, hone, Dict.getD,
    hdetails.primary, hdetails.related, hrecovery.related, Option.getD_some, hlocks, hd,
    hreference]
  simp

/-! ### Changed ledgers -/

/-- What the references of an operation with two locks show of its two ledgers. -/
theorem agree_of_references {operationType : OperationType} {targetId : Str}
    {details recovery : Dict} (hcount : expectedLockCount operationType = 2)
    (h : lockReferences operationType targetId details recovery ≠ []) :
    ∃ lockId row vmid, Dict.get recovery "target_lock_id" = some (.str lockId) ∧
      (Dict.getD details "target_lock_id" .null).eqv (.str lockId) = true ∧
      Dict.get recovery "related_target_locks" = some (.list [.dict row]) ∧
      (Dict.getD details "related_target_locks" .null).eqv (.list [.dict row]) = true ∧
      Dict.get row "vmid" = some (.int vmid) ∧
      (recordedSource details).eqv (.int vmid) = true := by
  have hone : ¬ expectedLockCount operationType = 1 := by omega
  unfold lockReferences at h
  split at h
  · rename_i vmid lockId htarget hid
    dsimp only at h
    split at h
    · exact absurd rfl h
    split at h
    · exact absurd rfl h
    rename_i hsame
    rw [not_or, Bool.not_eq_false, Bool.not_eq_false] at hsame
    split at h
    · rename_i related hrelated
      unfold relatedReference at hrelated
      split at hrelated
      · rename_i row source hextra hsource
        split at hrelated
        · rename_i relatedVmid relatedId hvmid hrelatedId
          split at hrelated
          · rename_i hguards
            have hget : Dict.get recovery "related_target_locks" = some (.list [.dict row]) := by
              unfold Dict.getD at hextra
              cases hg : Dict.get recovery "related_target_locks" with
              | none =>
                  rw [hg] at hextra
                  cases hextra
              | some v =>
                  rw [hg] at hextra
                  exact congrArg some hextra
            rw [hextra] at hsame
            have hrecorded : recordedSource details = Dict.getD source "vmid" .null := by
              rw [recordedSource, subDict, hsource]
              rfl
            exact ⟨lockId, row, relatedVmid, hid, hsame.1, hget, hsame.2, hvmid,
              hrecorded ▸ hguards.2.2.2.1⟩
          · cases hrelated
        · cases hrelated
      · cases hrelated
    · exact absurd rfl h
  · exact absurd rfl h

/-- The fields that bind an operation to its locks in both ledgers. -/
def boundFields : List Str := ["target_lock_id", "related_target_locks"]

/-- One of the ledgers of an operation with two locks has another value in a bound field, or the
operation another source VMID, and the other ledger has not changed there. -/
inductive Changed (details recovery details' recovery' : Dict) : Prop
  | operation (field : Str) (h : field ∈ boundFields)
      (hchange : (Dict.getD details' field .null).eqv (Dict.getD details field .null) = false)
      (hkept : Dict.get recovery' field = Dict.get recovery field)
  | recovery (field : Str) (h : field ∈ boundFields)
      (hchange : (Dict.getD recovery field .null).eqv (Dict.getD recovery' field .null) = false)
      (hkept : Dict.get details' field = Dict.get details field)
  | source (hchange : (recordedSource details').eqv (recordedSource details) = false)
      (hkept : Dict.get recovery' "related_target_locks" =
        Dict.get recovery "related_target_locks")

/-- After a change no lock of the operation is referenced. -/
theorem lockReferences_changed {operationType : OperationType} {targetId primary related : Str}
    {vmid : ℤ} {details recovery details' recovery' : Dict}
    (hcount : expectedLockCount operationType = 2)
    (hdetails : NamesPair details primary related vmid)
    (hrecovery : NamesPair recovery primary related vmid)
    (hsource : (recordedSource details).eqv (.int vmid) = true)
    (h : Changed details recovery details' recovery') :
    lockReferences operationType targetId details' recovery' = [] := by
  by_contra hne
  obtain ⟨lockId, row, source, hid, hsameId, hlist, hsameList, hvmid, hrecorded⟩ :=
    agree_of_references hcount hne
  -- both ledgers name the same values in the bound fields
  have hfields : ∀ field ∈ boundFields, ∃ v, Dict.get details field = some v ∧
      Dict.get recovery field = some v := by
    intro field hfield
    simp only [boundFields, List.mem_cons, List.not_mem_nil, or_false] at hfield
    rcases hfield with rfl | rfl
    · exact ⟨_, hdetails.primary, hrecovery.primary⟩
    · exact ⟨_, hdetails.related, hrecovery.related⟩
  have hagree : ∀ field ∈ boundFields, ∃ v, Dict.get recovery' field = some v ∧
      (Dict.getD details' field .null).eqv v = true := by
    intro field hfield
    simp only [boundFields, List.mem_cons, List.not_mem_nil, or_false] at hfield
    rcases hfield with rfl | rfl
    · exact ⟨_, hid, hsameId⟩
    · exact ⟨_, hlist, hsameList⟩
  cases h with
  | operation field hfield hchange hkept =>
      obtain ⟨v, hv, hv'⟩ := hfields field hfield
      obtain ⟨w, hw, hsame⟩ := hagree field hfield
      rw [hkept, hv'] at hw
      cases hw
      rw [Dict.getD, Dict.getD, hv, Option.getD_some, ← Dict.getD, hsame] at hchange
      cases hchange
  | recovery field hfield hchange hkept =>
      obtain ⟨v, hv, hv'⟩ := hfields field hfield
      obtain ⟨w, hw, hsame⟩ := hagree field hfield
      rw [Dict.getD, hkept, hv, Option.getD_some] at hsame
      rw [Dict.getD, Dict.getD, hv', hw, Option.getD_some, Option.getD_some, hsame] at hchange
      cases hchange
  | source hchange hkept =>
      rw [hkept, hrecovery.related] at hlist
      cases hlist
      have hvmid' : Value.int vmid = .int source := Option.some.inj hvmid
      cases hvmid'
      rw [eqv_int_of_ne hchange hsource] at hrecorded
      cases hrecorded

/-! ### Admissions -/

theorem strip_lockId (hex : Hex) :
    (strip (("operation-lock-" : Str) ++ hex.digits)).isEmpty = false := by
  rw [List.isEmpty_eq_false_iff, ne_eq, TextLines.strip_eq_nil_iff]
  intro h
  exact absurd (h 'o' (List.mem_append_left _ (by decide))) (by decide)

/-- The rows of two different locks of an admission have different ids. -/
theorem lockId_ne {base view : Str → Option OperationLockRecord} {rows : List OperationLockRecord}
    (h : Adds OperationLockRecord.operationLockId rows base view) {row row' : OperationLockRecord}
    (hrow : row ∈ rows) (hrow' : row' ∈ rows) (hne : row.vmid ≠ row'.vmid) :
    row.operationLockId ≠ row'.operationLockId := fun heq =>
  hne (by rw [List.inj_on_of_nodup_map h.nodup hrow hrow' heq])

/-- The ledgers of a new operation: the details of its row and of its recovery item. -/
structure Ledgers (q : AdmissionRequest) (rows : List OperationLockRecord)
    (details recovery : Dict) : Prop where
  bound : Bound q rows details
  boundItem : Bound q rows recovery
  single : q.relatedVmids = [] → Dict.get recovery "related_target_locks" = none
  source : ∀ v ∈ q.relatedVmids, (recordedSource details).eqv (.int v) = true
  named : ∀ row ∈ rows, (strip row.operationLockId).isEmpty = false
  vmids : (rows.map OperationLockRecord.vmid).Nodup

theorem entries_of_binding {q : AdmissionRequest} {acquired : List DurableTargetLock} {bound : Dict}
    (h : binding q acquired = .ok bound) : Dict.get bound "source" = none ∧
      (q.relatedVmids = [] → Dict.get bound "related_target_locks" = none) := by
  simp only [binding, bind_eq_ok, orRaise_eq_ok, pure_eq_ok] at h
  obtain ⟨id, -, node, -, entries, hentries, rfl⟩ := h
  constructor
  · by_cases he : entries = []
    · rw [if_pos he]
      rfl
    · rw [if_neg he]
      rfl
  · intro hnil
    rw [hnil, List.mergeSort_nil, List.mapM_nil, pure_eq_ok] at hentries
    subst hentries
    rfl

theorem ledgers_of_admits {rt : Runtime} {draws : ℕ → Draw} {q : AdmissionRequest} {bound : Dict}
    {recovery : RecoverySpec} {owner : Str} {operation : OperationSnapshot}
    {lease : RecoveryLease} {t : Txn Db} (hcheck : q.check = .ok ())
    (h : Admits rt draws q bound recovery owner operation lease t) :
    Ledgers q (lockRows draws q 0 q.targets) operation.details (sanitized recovery.details) := by
  have hadmitted := h.admitted hcheck
  have hoperation : operation.details = sanitized (Dict.merge q.spec.details bound) := by
    rw [h.creates]
    rfl
  obtain ⟨-, hdetails⟩ := recoverySpec_eq_ok h.recovers
  obtain ⟨hsourceless, hsingle⟩ := entries_of_binding h.binds
  refine ⟨hadmitted.bound, hadmitted.boundItem, fun hnil => ?_, fun v hv => ?_, fun row hrow => ?_,
    ?_⟩
  · rw [get_sanitized, hdetails, hsingle hnil]
    rfl
  · have hkept : recordedSource (Dict.merge q.spec.details bound) =
        recordedSource q.spec.details := by
      rw [recordedSource, subDict, Dict.get_merge, hsourceless]
      rfl
    rcases check_related hcheck with ⟨hnil, -⟩ | ⟨w, hw, -, -, hsource⟩
    · rw [hnil] at hv
      cases hv
    · obtain rfl : v = w := by simpa [hw] using hv
      rw [hoperation]
      exact recordedSource_sanitized (hkept ▸ hsource)
  · obtain ⟨vmid, -, j, rfl⟩ := mem_lockRows hrow
    exact strip_lockId ((draws j).uuid 0)
  · rw [lockRows_vmid]
    refine List.Nodup.map (Option.some_injective ℤ) ?_
    rw [AdmissionRequest.targets, Registration.sortedSet]
    exact (List.mergeSort_perm _ _).nodup_iff.mpr (List.nodup_dedup _)

/-- The references are the locks: their ids, each with its VMID. -/
def AreLocks (references : List LockReference) (rows : List OperationLockRecord) : Prop :=
  (references.map fun r => (r.lockId, some r.vmid)).Perm
    (rows.map fun row => (row.operationLockId, row.vmid))

/-- Two rows are all the rows of an admission with two locks. -/
theorem perm_pair {rows : List OperationLockRecord} {row row' : OperationLockRecord}
    (hcount : rows.length = 2) (hrow : row ∈ rows) (hrow' : row' ∈ rows) (hne : row ≠ row') :
    [row, row'].Perm rows := by
  have hnodup : [row, row'].Nodup := by simpa using hne
  refine (List.subperm_of_subset hnodup ?_).perm_of_length_le hcount.le
  intro r hr
  rcases List.mem_pair.mp hr with rfl | rfl
  · exact hrow
  · exact hrow'

section RoundTrip

variable {q : AdmissionRequest} {rows : List OperationLockRecord} {details recovery : Dict}
  {base view : Str → Option OperationLockRecord}

theorem Ledgers.areLocks_single (h : Ledgers q rows details recovery)
    (hcount : rows.length = expectedLockCount q.spec.operationType)
    (hone : expectedLockCount q.spec.operationType = 1) (hnil : q.relatedVmids = [])
    (htarget : targetVmid q.spec.targetId = some q.vmid) :
    AreLocks (lockReferences q.spec.operationType q.spec.targetId details recovery) rows := by
  obtain ⟨row, hrow, hvmid, hid⟩ := h.boundItem.primary
  obtain ⟨r, hr⟩ := List.length_eq_one_iff.mp (hcount.trans hone)
  obtain rfl : row = r := by simpa [hr] using hrow
  rw [AreLocks, lockReferences_single hone htarget hid (h.named row hrow) (h.single hnil), hr]
  simp [hvmid]

/-- The two rows of an admission with two locks and what its ledgers name. -/
theorem Ledgers.pair (h : Ledgers q rows details recovery) {v : ℤ} (hv : q.relatedVmids = [v])
    (hne : v ≠ q.vmid) : ∃ row ∈ rows, ∃ row' ∈ rows, row.vmid = some q.vmid ∧
      row'.vmid = some v ∧ row ≠ row' ∧
      NamesPair details row.operationLockId row'.operationLockId v ∧
      NamesPair recovery row.operationLockId row'.operationLockId v := by
  obtain ⟨row, hrow, hvmid, hid⟩ := h.bound.primary
  obtain ⟨other, hother, hvmid', hid'⟩ := h.boundItem.primary
  obtain ⟨related, hrelated, hv₁, hlocks⟩ := h.bound.related v (by simp [hv])
  obtain ⟨related', hrelated', hv₂, hlocks'⟩ := h.boundItem.related v (by simp [hv])
  obtain rfl : row = other :=
    List.inj_on_of_nodup_map h.vmids hrow hother (hvmid.trans hvmid'.symm)
  obtain rfl : related = related' :=
    List.inj_on_of_nodup_map h.vmids hrelated hrelated' (hv₁.trans hv₂.symm)
  refine ⟨row, hrow, related, hrelated, hvmid, hv₁, ?_, ⟨hid, hlocks⟩, ⟨hid', hlocks'⟩⟩
  rintro rfl
  rw [hvmid, Option.some.injEq] at hv₁
  exact hne hv₁.symm

theorem Ledgers.areLocks_pair (h : Ledgers q rows details recovery)
    (hadds : Adds OperationLockRecord.operationLockId rows base view)
    (hcount : rows.length = expectedLockCount q.spec.operationType)
    (htwo : expectedLockCount q.spec.operationType = 2) {v : ℤ} (hv : q.relatedVmids = [v])
    (hne : v ≠ q.vmid) (hrange : 100 ≤ v ∧ v ≤ 999999999)
    (htarget : targetVmid q.spec.targetId = some q.vmid) :
    AreLocks (lockReferences q.spec.operationType q.spec.targetId details recovery) rows := by
  obtain ⟨row, hrow, row', hrow', hvmid, hvmid', hrows, hdetails, hrecovery⟩ := h.pair hv hne
  have hids : row'.operationLockId ≠ row.operationLockId := by
    refine lockId_ne hadds hrow' hrow ?_
    rw [hvmid, hvmid', ne_eq, Option.some.injEq]
    exact hne
  rw [AreLocks, lockReferences_pair htwo htarget hne hrange hids (h.named row hrow)
    (h.named row' hrow') hdetails hrecovery (h.source v (by simp [hv]))]
  have hperm := (perm_pair (hcount.trans htwo) hrow hrow' hrows).map
    fun r => (r.operationLockId, r.vmid)
  simpa [hvmid, hvmid'] using hperm

end RoundTrip

/-- What an admission writes into the two ledgers reads back as its locks. For an operation with
two locks a change of one ledger leaves no reference, and no two ledgers give only one. -/
theorem lock_references_round_trip {rt : Runtime} {process : Admission.Process} {draws : ℕ → Draw}
    {q : AdmissionRequest} {start base db : Db} {operation : OperationSnapshot}
    {lease : RecoveryLease} {n : ℕ}
    (h : Commits (Concurrent q.operationId) (prepareScript rt process draws q) (Txn.start start)
      (.ok (operation, some lease)) base db)
    (hvmid : q.vmid = n) (htarget : q.spec.targetId = ("vmid:" : Str) ++ ofNat n)
    (hrange : ∀ v ∈ q.relatedVmids, 100 ≤ v ∧ v ≤ 999999999) :
    ∃ stored item rows, db.operations.get q.operationId = some stored ∧
      db.recovery.get q.operationId = some item ∧
      Adds OperationLockRecord.operationLockId rows base.locks.get db.locks.get ∧
      rows.map OperationLockRecord.vmid = q.targets.map some ∧
      AreLocks (lockReferences stored.operationType stored.targetId stored.details item.details)
        rows ∧
      (expectedLockCount stored.operationType = 2 → ∀ details recovery,
        (Changed stored.details item.details details recovery →
          lockReferences stored.operationType stored.targetId details recovery = []) ∧
        ((lockReferences stored.operationType stored.targetId details recovery).length = 0 ∨
          (lockReferences stored.operationType stored.targetId details recovery).length = 2)) := by
  cases h with
  | commit hrun henv =>
      obtain ⟨hcheck, hcase⟩ := prepareScript_ok hrun
      rcases hcase with ⟨hnone, -⟩ | ⟨l, bound, recovery, owner, heq, hadmits⟩
      · cases hnone
      have hadmits' : Admits rt draws q bound recovery owner operation l _ :=
        { hadmits with wrote := hadmits.wrote.concurrent henv }
      have hadmitted := hadmits'.admitted hcheck
      have hledgers := ledgers_of_admits hcheck hadmits'
      have htargetVmid : targetVmid q.spec.targetId = some q.vmid := by
        rw [htarget, hvmid, targetVmid_vmid]
      have hstored : operation.operationType = q.spec.operationType ∧
          operation.targetId = q.spec.targetId := by
        rw [hadmits'.creates]
        exact ⟨rfl, rfl⟩
      have hoperation := (hadmitted.operations.new operation (by simp)).2
      have hitem := (hadmitted.items.new _ (List.mem_singleton_self _)).2
      rw [hadmitted.operationId] at hoperation
      rw [hadmitted.itemId] at hitem
      refine ⟨operation, _, _, hoperation, hitem, hadmitted.locks, hadmitted.targets, ?_,
        fun htwo details' recovery' => ?_⟩
      · rw [hstored.1, hstored.2]
        rcases check_related hcheck with ⟨hnil, hone⟩ | ⟨v, hv, htwo, hne, -⟩
        · exact hledgers.areLocks_single hadmitted.count hone hnil htargetVmid
        · exact hledgers.areLocks_pair hadmitted.locks hadmitted.count htwo hv hne
            (hrange v (by simp [hv])) htargetVmid
      rw [hstored.1, hstored.2]
      rw [hstored.1] at htwo
      constructor
      · intro hchanged
        rcases check_related hcheck with ⟨-, hone⟩ | ⟨v, hv, -, hne, -⟩
        · omega
        obtain ⟨row, -, row', -, -, -, -, hdetails, hrecovery⟩ := hledgers.pair hv hne
        exact lockReferences_changed htwo hdetails hrecovery (hledgers.source v (by simp [hv]))
          hchanged
      · rcases BoundLocks.lockReferences_cases q.spec.operationType q.spec.targetId details'
          recovery' with hnil | ⟨hlen, -⟩
        · exact .inl (List.length_eq_zero_iff.mpr hnil)
        · exact .inr (hlen.trans htwo)

/-- The admission of a clone of VM 101 to VM 102 in an empty database. -/
theorem lock_references_round_trip_of_clone :
    let hex : Hex := ⟨"0a", forall_mem_of_all rfl⟩
    let hex' : Hex := ⟨"0b", forall_mem_of_all rfl⟩
    let rt : Runtime := ⟨fun _ => hex, fun _ => hex, fun _ => [], fun _ => []⟩
    let draws : ℕ → Draw := fun i => ⟨0, 0, fun _ => if i = 0 then hex else hex'⟩
    let spec : OperationSpec :=
      { operationId := "vm-clone-1", operationType := .vmClone, executionMode := .managedApi,
        targetType := "proxmox_vm", targetId := "vmid:102", idempotencyKey := "key-1",
        intentDigest := "sha256:0a", planDigest := "sha256:0a", actor := {},
        details := [("target", .dict [("node_id", .str "pve")]),
          ("source", .dict [("vmid", .int 101)])] }
    let q : AdmissionRequest := ⟨"vm_clone_observation", spec, "lab", 102, [101]⟩
    ∃ db operation lease stored item rows,
      Commits (Concurrent q.operationId) (prepareScript rt ⟨none, fun _ => true⟩ draws q)
        (Txn.start {}) (.ok (operation, some lease)) {} db ∧
      db.operations.get q.operationId = some stored ∧ db.recovery.get q.operationId = some item ∧
      rows.map OperationLockRecord.vmid = [some 101, some 102] ∧
      AreLocks (lockReferences stored.operationType stored.targetId stored.details item.details)
        rows := by
  intro hex hex' rt draws spec q
  have htargets : q.targets = [101, 102] := by
    rw [AdmissionRequest.targets, Registration.sortedSet]
    simp [q, List.mergeSort, List.MergeSort.Internal.splitInTwo]
  have hleased : ((prepare rt ⟨none, fun _ => true⟩ draws q none {}).map
      fun r => r.1.2.isSome) = .ok true := by
    rw [prepare, htargets]
    decide +kernel
  cases hprepare : prepare rt ⟨none, fun _ => true⟩ draws q none {} with
  | error e =>
      rw [hprepare] at hleased
      cases hleased
  | ok r =>
      obtain ⟨⟨operation, lease⟩, db⟩ := r
      rw [hprepare] at hleased
      cases lease with
      | none => cases hleased
      | some lease =>
          have hcommits := @commits_of_prepare rt _ _ q {} db _ (fun _ _ => rfl) hprepare
          obtain ⟨stored, item, rows, hstored, hitem, -, hvmids, hlocks, -⟩ :=
            lock_references_round_trip (n := 102) hcommits rfl (by decide) (by decide)
          exact ⟨db, operation, lease, stored, item, rows, hcommits, hstored, hitem,
            hvmids.trans (congrArg _ htargets), hlocks⟩

end Gjallar.LockReferences
