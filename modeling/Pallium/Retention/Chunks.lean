import Pallium.Core.Paging
import Pallium.Retention.Store

/-!
# The chunks of a retention pass

Each chunk is one transaction.  Memories go first: those that have been superseded or
suppressed for long, then stale ones of working types.  Source items are scanned behind
a cursor in two transactions: the first only reads and picks items, the second checks
them once more, deletes those that still qualify and moves the cursor.
-/

namespace Pallium.Retention

open Pallium.Memory (TargetKind)
open Pallium.Paging (Beyond)

/-- The lease that a pass holds. -/
structure RetentionLease where
  claimedBy : String
  claimedAt : ℤ
  deriving DecidableEq, Repr

inductive RetentionError
  | leaseLost
  | missingMarker
  | missingLeaseSeconds
  | cursorChanged
  deriving DecidableEq, Repr

/-- The position behind which the next scan starts. -/
def MaintenanceStateRecord.cursor (record : MaintenanceStateRecord) : Option (ℤ ×ₗ String) :=
  match record.sourceScanCursorCreatedAt, record.sourceScanCursorId with
  | some createdAt, some id => if id = "" then none else some (toLex (createdAt, id))
  | _, _ => none

/-- The row that is added where there is none. -/
def MaintenanceStateRecord.new : MaintenanceStateRecord := ⟨none, none, none, none, none⟩

namespace RetentionStore

/-- The cursor of the scan; without a row there is none. -/
def cursor (store : RetentionStore) : Option (ℤ ×ₗ String) :=
  store.maintenance.bind MaintenanceStateRecord.cursor

/-- `_retention_lease_owned_in_session` for a lease that must not have expired. -/
def retentionLeaseOwned (store : RetentionStore) (lease : RetentionLease) (now : ℤ) : Bool :=
  store.maintenance.any fun record =>
    record.claimedBy == some lease.claimedBy && record.claimedAt == some lease.claimedAt &&
      record.leaseExpiresAt.any fun expiresAt => decide (now < expiresAt)

/-- `_renew_retention_lease_or_raise` with a lease. -/
def renewRetentionLease (store : RetentionStore) (lease : RetentionLease) (leaseSeconds now : ℤ) :
    Except RetentionError RetentionStore :=
  match store.maintenance with
  | none => .error .missingMarker
  | some record =>
    if store.retentionLeaseOwned lease now then
      .ok { store with
        maintenance :=
          some { record with leaseExpiresAt := some (now + max 1 leaseSeconds * 1000000) } }
    else .error .leaseLost

def deleteMemoryObject (deleted : RetentionStore × RetentionRunStats) (memoryObjectId : String) :
    RetentionStore × RetentionRunStats :=
  let cascade := deleted.1.deleteMemoryObjectCascade memoryObjectId
  (cascade.1, deleted.2.merge cascade.2)

/-- The order in which superseded memories are deleted; the null is the least freshness. -/
def supersededKey (record : MemoryObjectRecord) : WithBot ℤ ×ₗ ℤ ×ₗ String :=
  toLex ((record.freshnessAt : WithBot ℤ), toLex (record.createdAt, record.id))

def runSupersededMemoryRetentionChunk (store : RetentionStore) (now : ℤ) (limit : ℕ) :
    RetentionStore × RetentionRunStats :=
  let records := ((store.memories.rows.filter fun record =>
      (record.lifecycle == .superseded || record.lifecycle == .suppressed) &&
        record.freshnessAt.all fun freshnessAt => decide (freshnessAt ≤ now - supersededMemoryTtl)
      ).insertionSort fun first second => supersededKey first ≤ supersededKey second).take limit
  (records.map MemoryObjectRecord.id).foldl deleteMemoryObject (store, .zero)

/-- The order in which memories of working types are looked at. -/
def workingKey (record : MemoryObjectRecord) : ℤ ×ₗ ℤ ×ₗ String :=
  toLex (record.freshnessAt.getD record.createdAt, toLex (record.createdAt, record.id))

def resolveMemoryObjectFreshness (store : RetentionStore) (record : MemoryObjectRecord) :
    RetentionStore :=
  { store with
    memories := store.memories.modify record.id fun row =>
      { row with freshnessAt := some (store.freshness record) } }

/-- The loop that deletes the stale ones of the memories, at most as many as the limit. -/
def deleteStale (cutoff : ℤ) (limit : ℕ) :
    List MemoryObjectRecord → ℕ → RetentionStore × RetentionRunStats →
      RetentionStore × RetentionRunStats
  | [], _, deleted => deleted
  | record :: rest, deletedCount, deleted =>
    if limit ≤ deletedCount then deleted
    else
      let resolved := deleted.1.resolveMemoryObjectFreshness record
      if cutoff < deleted.1.freshness record then
        deleteStale cutoff limit rest deletedCount (resolved, deleted.2)
      else
        let cascade := resolved.deleteMemoryObjectCascade record.id
        deleteStale cutoff limit rest (deletedCount + 1) (cascade.1, deleted.2.merge cascade.2)

def runStaleWorkingMemoryRetentionChunk (store : RetentionStore) (policy : MemoryRetentionPolicy)
    (now : ℤ) (limit : ℕ) : RetentionStore × RetentionRunStats :=
  let records := ((store.memories.rows.filter fun record =>
      record.lifecycle == .active && decide (record.type ∈ policy.workingTypes)
      ).insertionSort fun first second => workingKey first ≤ workingKey second).take
        (max (limit * 4) limit)
  deleteStale (now - workingMemoryTtl) limit records 0 (store, .zero)

end RetentionStore

/-- What the reading transaction hands to the writing one. -/
structure Prepared where
  markerPresent : Bool
  cursorTime : Option ℤ
  cursorId : Option String
  stats : RetentionRunStats
  scanned : List SourceItemRecord
  deletableIds : List String
  absent : markerPresent = false → cursorTime = none ∧ cursorId = none

namespace Prepared

def scannedCount (prepared : Prepared) : ℕ := prepared.scanned.length

def lastScannedKey (prepared : Prepared) : Option (ℤ ×ₗ String) :=
  prepared.scanned.getLast?.map SourceItemRecord.scanKey

end Prepared

namespace RetentionStore

def nextSourceRetentionCandidates (store : RetentionStore) (limit : ℕ) : List SourceItemRecord :=
  (((store.sourceItems.rows.filter SourceItemRecord.terminal).filter fun record =>
      decide (Beyond store.cursor record.scanKey)).insertionSort fun first second =>
        first.scanKey ≤ second.scanKey).take limit

/-- The loop of `_prepare` over the candidates. -/
def prepareFrom (store : RetentionStore) (policy : MemoryRetentionPolicy) (now : ℤ)
    (deleteLimit : ℕ) : List SourceItemRecord → Prepared → Prepared
  | [], prepared => prepared
  | record :: rest, prepared =>
    let scanned := { prepared with scanned := prepared.scanned ++ [record] }
    if !record.rawTtlExpired now || record.hasActiveLease now then
      store.prepareFrom policy now deleteLimit rest scanned
    else if store.sourceItemIsProtected policy now record.id then
      store.prepareFrom policy now deleteLimit rest
        { scanned with stats := scanned.stats.merge .skipped }
    else
      let picked := { scanned with deletableIds := scanned.deletableIds ++ [record.id] }
      if deleteLimit ≤ picked.deletableIds.length then picked
      else store.prepareFrom policy now deleteLimit rest picked

/-- `_prepare` of `_run_source_item_retention_chunk`. -/
def prepareSourceChunk (store : RetentionStore) (policy : MemoryRetentionPolicy) (now : ℤ)
    (deleteLimit scanLimit : ℕ) : Prepared :=
  store.prepareFrom policy now deleteLimit (store.nextSourceRetentionCandidates scanLimit)
    { markerPresent := store.maintenance.isSome
      cursorTime := store.maintenance.bind MaintenanceStateRecord.sourceScanCursorCreatedAt
      cursorId := store.maintenance.bind MaintenanceStateRecord.sourceScanCursorId
      stats := .zero
      scanned := []
      deletableIds := []
      absent := fun habsent => by
        rw [Option.isSome_eq_false_iff, Option.isNone_iff_eq_none] at habsent
        rw [habsent]
        exact ⟨rfl, rfl⟩ }

/-- Whether the row is there as it was when the items were picked. -/
def markerUnchanged (store : RetentionStore) (prepared : Prepared) : Bool :=
  match store.maintenance with
  | none => !prepared.markerPresent
  | some record =>
    prepared.markerPresent && record.sourceScanCursorCreatedAt == prepared.cursorTime &&
      record.sourceScanCursorId == prepared.cursorId

/-- Whether the item still qualifies, protection apart. -/
def stillExpired (store : RetentionStore) (now : ℤ) (sourceItemId : String) : Bool :=
  (store.sourceItems.get sourceItemId).any fun record =>
    record.terminal && record.rawTtlExpired now && !record.hasActiveLease now

/-- The picked items that still qualify. -/
def eligibleIds (store : RetentionStore) (policy : MemoryRetentionPolicy) (now : ℤ)
    (prepared : Prepared) : List String :=
  prepared.deletableIds.filter fun sourceItemId =>
    store.stillExpired now sourceItemId && !store.sourceItemIsProtected policy now sourceItemId

def checkedStats (store : RetentionStore) (policy : MemoryRetentionPolicy) (now : ℤ)
    (prepared : Prepared) : RetentionRunStats :=
  { prepared.stats with
    skippedProtectedSourceItems := prepared.stats.skippedProtectedSourceItems +
      prepared.deletableIds.countP fun sourceItemId =>
        store.stillExpired now sourceItemId && store.sourceItemIsProtected policy now sourceItemId }

/-- The row with the cursor behind what has been scanned. -/
def moveCursor (prepared : Prepared) (record : MaintenanceStateRecord) : MaintenanceStateRecord :=
  match prepared.scanned.getLast? with
  | some last =>
    { record with
      sourceScanCursorCreatedAt := some last.createdAt
      sourceScanCursorId := some last.id }
  | none =>
    if prepared.cursorTime.isSome ∧ prepared.cursorId.getD "" ≠ "" then
      { record with sourceScanCursorCreatedAt := none, sourceScanCursorId := none }
    else record

/-- `_do` of `_run_source_item_retention_chunk`; without a result the cursor has changed. -/
def commitSourceChunk (store : RetentionStore) (policy : MemoryRetentionPolicy) (now : ℤ)
    (lease : Option RetentionLease) (leaseNow : ℤ) (prepared : Prepared) :
    Except RetentionError (Option (RetentionStore × RetentionRunStats)) :=
  if !store.markerUnchanged prepared then .ok none
  else if lease.any fun lease => !store.retentionLeaseOwned lease leaseNow then .error .leaseLost
  else
    let deleted := (store.eligibleIds policy now prepared).foldl (deleteSourceItemCascade policy)
      (store, store.checkedStats policy now prepared)
    .ok (some
      ({ deleted.1 with
          maintenance := some (moveCursor prepared (store.maintenance.getD .new)) },
        deleted.2))

/-- The metadata without what is there for debugging. -/
def stripDebugMetadata (sourceItems : Table SourceItemRecord) (sourceItemId : String) :
    Table SourceItemRecord :=
  sourceItems.modify sourceItemId fun record =>
    { record with
      metadata := record.metadata.filter fun field => field.1 != observabilityMetadataKey }

def runDebugMetadataStrippingChunk (store : RetentionStore) (now : ℤ) (limit : ℕ) :
    RetentionStore × RetentionRunStats :=
  let records := (((store.sourceItems.rows.filter fun record =>
      decide (record.createdAt ≤ now - debugMetadataTtl)).insertionSort fun first second =>
        first.scanKey ≤ second.scanKey).take limit).filter fun record =>
          Json.has record.metadata observabilityMetadataKey
  ({ store with
      sourceItems := (records.map SourceItemRecord.id).foldl stripDebugMetadata store.sourceItems },
    { RetentionRunStats.zero with strippedDebugMetadata := records.length })

end RetentionStore

end Pallium.Retention
