import Pallium.Memory.Supersession

/-!
# What retention reads and deletes

A source item is protected while an active memory of a durable type, or a fresh one of
a working type, is supported by it.  Items and memories are deleted with everything
that refers to them: relations, index entries, full-text rows, work references, flags.
A memory that has lost its last evidence may go with the item.
-/

namespace Pallium.Retention

open Pallium.Memory (Lifecycle RelationRecord RelationType TargetKind MemoryIndex MemoryFlagRecord)
open Pallium.Text (strip)

/-- A row of `source_items`, as far as retention reads it. -/
structure SourceItemRecord where
  id : String
  createdAt : ℤ
  occurredAt : Option ℤ
  artifactKind : Option String
  metadata : List (String × Json)
  processingStatus : Queue.ProcessingStatus
  processingClaimedBy : Option String
  processingLeaseExpiresAt : Option ℤ
  named : id ≠ ""

/-- A row of `memory_objects`, as far as retention reads it. -/
structure MemoryObjectRecord where
  id : String
  type : String
  lifecycle : Lifecycle
  createdAt : ℤ
  freshnessAt : Option ℤ
  deriving DecidableEq, Repr

/-- The row of `maintenance_state` for `retention_compaction`. -/
structure MaintenanceStateRecord where
  claimedBy : Option String
  claimedAt : Option ℤ
  leaseExpiresAt : Option ℤ
  sourceScanCursorCreatedAt : Option ℤ
  sourceScanCursorId : Option String
  deriving DecidableEq, Repr

instance : Keyed SourceItemRecord String := ⟨SourceItemRecord.id⟩
instance : Keyed MemoryObjectRecord String := ⟨MemoryObjectRecord.id⟩

@[simp]
theorem key_sourceItemRecord (record : SourceItemRecord) : key record = record.id := rfl

@[simp]
theorem key_memoryObjectRecord (record : MemoryObjectRecord) : key record = record.id := rfl

structure RetentionStore where
  sourceItems : Table SourceItemRecord
  memories : Table MemoryObjectRecord
  relations : List RelationRecord
  index : MemoryIndex
  workRefs : List Ingest.SourceItemWorkRef
  flags : List MemoryFlagRecord
  maintenance : Option MaintenanceStateRecord

/-- The types of memories as a plugin classifies them. -/
structure MemoryRetentionPolicy where
  durableTypes : List String
  workingTypes : List String
  orphanDeleteTypes : List String

/-- What a pass reports; the count of relay traces is left out. -/
structure RetentionRunStats where
  deletedSourceItems : ℕ
  deletedMemoryObjects : ℕ
  deletedRelations : ℕ
  deletedIndexEntries : ℕ
  strippedDebugMetadata : ℕ
  skippedProtectedSourceItems : ℕ
  deriving DecidableEq, Repr

namespace RetentionRunStats

def zero : RetentionRunStats := ⟨0, 0, 0, 0, 0, 0⟩

def skipped : RetentionRunStats := { zero with skippedProtectedSourceItems := 1 }

/-- `_merge_retention_stats`. -/
def merge (left right : RetentionRunStats) : RetentionRunStats where
  deletedSourceItems := left.deletedSourceItems + right.deletedSourceItems
  deletedMemoryObjects := left.deletedMemoryObjects + right.deletedMemoryObjects
  deletedRelations := left.deletedRelations + right.deletedRelations
  deletedIndexEntries := left.deletedIndexEntries + right.deletedIndexEntries
  strippedDebugMetadata := left.strippedDebugMetadata + right.strippedDebugMetadata
  skippedProtectedSourceItems :=
    left.skippedProtectedSourceItems + right.skippedProtectedSourceItems

end RetentionRunStats

section Times

/-- A day in microseconds. -/
def day : ℤ := 86400000000

def supersededMemoryTtl : ℤ := 7 * day
def workingMemoryTtl : ℤ := 30 * day
def lowValueRawTtl : ℤ := 3 * day
def ordinaryRawTtl : ℤ := 30 * day
def workArtifactRawTtl : ℤ := 45 * day
def debugMetadataTtl : ℤ := 3 * day

def observabilityMetadataKey : String := "observability_debug"

def semanticSignalMetadataKey : String := "pallium_semantic_signals"

/-- Whether the field is an object that says `"is_low_value_meta": true`. -/
def saysLowValue (signals : Option Json) : Bool :=
  match signals.bind Json.fields? with
  | none => false
  | some fields => (Json.lookup fields "is_low_value_meta").bind Json.bool? == some true

def isLowValueMetaSource (metadata : List (String × Json)) : Bool :=
  saysLowValue (Json.lookup metadata semanticSignalMetadataKey) ||
    match (Json.lookup metadata observabilityMetadataKey).bind Json.fields? with
    | none => false
    | some observability => saysLowValue (Json.lookup observability "semantic_signals")

/-- `(artifact_kind or "").strip().lower()`; the kinds it is compared with are ASCII and
have no `k`, so only the letters of ASCII matter. -/
def normalizedArtifactKind (artifactKind : Option String) : String :=
  String.ofList ((strip (artifactKind.getD "")).toList.map Char.toLower)

def sourceItemRetentionTtl (artifactKind : Option String) (metadata : List (String × Json)) : ℤ :=
  let kind := normalizedArtifactKind artifactKind
  if kind = "tool_use_summary" ∨ kind = "todo_snapshot" then workArtifactRawTtl
  else if (kind = "message" ∨ kind = "assistant_output") ∧ isLowValueMetaSource metadata then
    lowValueRawTtl
  else ordinaryRawTtl

/-- `_source_item_effective_time`. -/
def SourceItemRecord.effectiveTime (record : SourceItemRecord) : ℤ :=
  record.occurredAt.getD record.createdAt

/-- `_source_item_raw_ttl_expired`. -/
def SourceItemRecord.rawTtlExpired (record : SourceItemRecord) (now : ℤ) : Bool :=
  record.effectiveTime ≤ now - sourceItemRetentionTtl record.artifactKind record.metadata

/-- `_source_item_has_active_lease`. -/
def SourceItemRecord.hasActiveLease (record : SourceItemRecord) (now : ℤ) : Bool :=
  record.processingClaimedBy.getD "" != "" &&
    record.processingLeaseExpiresAt.any fun expiresAt => decide (now < expiresAt)

/-- Whether the item is completed, failed or skipped. -/
def SourceItemRecord.terminal (record : SourceItemRecord) : Bool :=
  record.processingStatus == .completed || record.processingStatus == .failed ||
    record.processingStatus == .skipped

/-- The order in which items are scanned. -/
def SourceItemRecord.scanKey (record : SourceItemRecord) : ℤ ×ₗ String :=
  toLex (record.createdAt, record.id)

end Times

namespace RetentionStore

def memorySupportTime (store : RetentionStore) (memoryObjectId : String) : Option ℤ :=
  ((store.relations.filter fun relation =>
      Memory.supports memoryObjectId relation && relation.toKind == .sourceItem).filterMap
    fun relation => (store.sourceItems.get relation.toId).map
      SourceItemRecord.effectiveTime).max?

def deriveMemoryObjectFreshness (store : RetentionStore) (record : MemoryObjectRecord) : ℤ :=
  let known := max record.createdAt (record.freshnessAt.getD record.createdAt)
  max known ((store.memorySupportTime record.id).getD known)

/-- The freshness of a memory, which is derived where it has none. -/
def freshness (store : RetentionStore) (record : MemoryObjectRecord) : ℤ :=
  record.freshnessAt.getD (store.deriveMemoryObjectFreshness record)

def sourceItemIsProtected (store : RetentionStore) (policy : MemoryRetentionPolicy) (now : ℤ)
    (sourceItemId : String) : Bool :=
  (store.relations.filter fun relation =>
      relation.toKind == .sourceItem && relation.toId == sourceItemId &&
        relation.relationType == .supportedBy && relation.fromKind == .memoryObject).any
    fun relation =>
      match store.memories.get relation.fromId with
      | none => false
      | some memory =>
        memory.lifecycle == .active && (decide (memory.type ∈ policy.durableTypes) ||
          decide (memory.type ∈ policy.workingTypes) &&
            decide (now - workingMemoryTtl < store.freshness memory))

/-- Whether the relation has the target at one of its ends. -/
def touches (targetKind : TargetKind) (targetId : String) (relation : RelationRecord) : Bool :=
  relation.fromKind == targetKind && relation.fromId == targetId ||
    relation.toKind == targetKind && relation.toId == targetId

def deleteMemoryObjectCascade (store : RetentionStore) (memoryObjectId : String) :
    RetentionStore × RetentionRunStats :=
  match store.memories.get memoryObjectId with
  | none => (store, .zero)
  | some _ =>
    ({ store with
        memories := store.memories.erase memoryObjectId
        relations := store.relations.filter fun relation =>
          !touches .memoryObject memoryObjectId relation
        index := store.index.eraseTarget .memoryObject memoryObjectId
        flags := store.flags.filter fun flag => flag.memoryObjectId != memoryObjectId },
      { RetentionRunStats.zero with
        deletedMemoryObjects := 1
        deletedRelations := store.relations.countP (touches .memoryObject memoryObjectId)
        deletedIndexEntries := store.index.entries.rows.countP
          (Memory.IndexEntryRecord.targets .memoryObject memoryObjectId) })

def deleteOrphanMemoryObjectIfNeeded (policy : MemoryRetentionPolicy)
    (deleted : RetentionStore × RetentionRunStats) (memoryObjectId : String) :
    RetentionStore × RetentionRunStats :=
  let store := deleted.1
  match store.memories.get memoryObjectId with
  | none => deleted
  | some memory =>
    if memory.type ∈ policy.durableTypes ∨ memory.type ∈ policy.workingTypes then deleted
    else if store.relations.any fun relation =>
        Memory.supports memoryObjectId relation && relation.toKind == .sourceItem then deleted
    else if memory.type ∉ policy.orphanDeleteTypes ∧ memory.lifecycle = .active then deleted
    else
      let cascade := store.deleteMemoryObjectCascade memoryObjectId
      (cascade.1, deleted.2.merge cascade.2)

/-- The item is deleted with what refers to it. -/
def eraseSourceItem (store : RetentionStore) (sourceItemId : String) : RetentionStore :=
  { store with
    sourceItems := store.sourceItems.erase sourceItemId
    relations := store.relations.filter fun relation => !touches .sourceItem sourceItemId relation
    index := store.index.eraseTarget .sourceItem sourceItemId
    workRefs := store.workRefs.filter fun workRef => workRef.sourceItemId != sourceItemId }

/-- `_delete_source_item_cascade_in_session`; the full-text rows of its entries go with the
entries, whether or not a statement for several items has deleted them before. -/
def deleteSourceItemCascade (policy : MemoryRetentionPolicy)
    (deleted : RetentionStore × RetentionRunStats) (sourceItemId : String) :
    RetentionStore × RetentionRunStats :=
  let store := deleted.1
  match store.sourceItems.get sourceItemId with
  | none => deleted
  | some _ =>
    let affectedMemoryIds := ((store.relations.filter fun relation =>
        touches .sourceItem sourceItemId relation && relation.fromKind == .memoryObject).map
      RelationRecord.fromId).dedup
    affectedMemoryIds.foldl (deleteOrphanMemoryObjectIfNeeded policy)
      (store.eraseSourceItem sourceItemId,
        deleted.2.merge
          { RetentionRunStats.zero with
            deletedSourceItems := 1
            deletedRelations := store.relations.countP (touches .sourceItem sourceItemId)
            deletedIndexEntries := store.index.entries.rows.countP
              (Memory.IndexEntryRecord.targets .sourceItem sourceItemId) })

end RetentionStore

end Pallium.Retention
