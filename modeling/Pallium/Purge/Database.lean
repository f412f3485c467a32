import Pallium.Core.Json
import Pallium.Memory.Index

/-!
# Purging secrets from the database

A dry run scans the tables for texts that the redaction changes and writes what it
found to a manifest; a commit rewrites the texts of the manifest to their redactions
and deletes the memories that can be made again; an undo writes the texts of the
manifest back.  Commit and undo are one transaction each, and address their rows by
id.  The redaction of one text, the reader and the writer of JSON, and the work
references of a source item's metadata are parameters.
-/

namespace Pallium.Purge

open Pallium.Memory (TargetKind IndexType)

/-- What the purge takes from other modules. -/
structure PurgeRules where
  redactSensitive : String → String
  loads : String → Option Json
  dumps : Json → String
  workRefsFromMetadata : Option Json → List String

def softDeleteReason : String := "secret_redaction_migration_2026_07_02"

def regenerableTypes : List String :=
  ["thread_summary", "task_checkpoint", "atomic_fact", "fact_summary", "pattern_memory",
    "continuity_memory", "turn_summary"]

def noteTypes : List String := ["note"]

section Rows

structure MemoryRow where
  id : String
  type : String
  subject : Option String
  payloadJson : String
  containerRef : Option String
  isSoftDeleted : Bool
  softDeletedAt : Option String
  softDeleteReason : Option String
  deriving DecidableEq, Repr

structure SourceRow where
  id : String
  artifactKind : Option String
  content : String
  metadataJson : Option String
  containerRef : Option String
  deriving DecidableEq, Repr

structure IndexRow where
  id : String
  targetKind : TargetKind
  targetId : String
  indexType : IndexType
  textView : String
  textViewName : Option String
  deriving DecidableEq, Repr

/-- A row of `lexical_fts`. -/
structure FtsRow where
  textView : String
  indexEntryId : String
  targetKind : TargetKind
  targetId : String
  textViewName : Option String
  containerRef : Option String
  deriving DecidableEq, Repr

instance : Keyed MemoryRow String := ⟨MemoryRow.id⟩
instance : Keyed SourceRow String := ⟨SourceRow.id⟩
instance : Keyed IndexRow String := ⟨IndexRow.id⟩

/-- The tables that a purge touches; older databases have no table of work references. -/
structure Database where
  memories : Table MemoryRow
  sources : Table SourceRow
  workRefs : Option (List (String × String))
  entries : Table IndexRow
  ftsRows : List FtsRow

/-- `subject or ""`. -/
def MemoryRow.subjectText (row : MemoryRow) : String := row.subject.getD ""

end Rows

section Redaction

variable (rules : PurgeRules)

mutual

def redactJsonLeaves : Json → Json
  | .string value => .string (rules.redactSensitive value)
  | .array items => .array (redactItems items)
  | .object fields => .object (redactFields fields)
  | value => value

def redactItems : List Json → List Json
  | [] => []
  | item :: items => redactJsonLeaves item :: redactItems items

def redactFields : List (String × Json) → List (String × Json)
  | [] => []
  | (name, value) :: fields => (name, redactJsonLeaves value) :: redactFields fields

end

/-- `_redact_json_string`, for a text. -/
def redactJsonString (text : String) : String :=
  if text = "" then text
  else
    match rules.loads text with
    | none => rules.redactSensitive text
    | some value =>
      if (redactJsonLeaves rules value).same value then text
      else rules.dumps (redactJsonLeaves rules value)

end Redaction

section Plan

structure MemoryCandidate where
  memoryObjectId : String
  type : String
  subject : String
  payloadJson : String
  redactedSubject : String
  redactedPayloadJson : String
  deriving DecidableEq, Repr

structure SourceCandidate where
  sourceItemId : String
  artifactKind : Option String
  content : String
  metadataJson : Option String
  redactedContent : String
  redactedMetadataJson : Option String
  deriving DecidableEq, Repr

structure IndexCandidate where
  indexEntryId : String
  textView : String
  redactedTextView : String
  deriving DecidableEq, Repr

structure PurgePlan where
  memoryRows : List MemoryCandidate
  sourceItems : List SourceCandidate
  indexEntries : List IndexCandidate
  regenerableIds : List String
  noteSkippedIds : List String
  deriving DecidableEq, Repr

variable (rules : PurgeRules)

def MemoryCandidate.of (id type subject payloadJson : String) : MemoryCandidate where
  memoryObjectId := id
  type := type
  subject := subject
  payloadJson := payloadJson
  redactedSubject := rules.redactSensitive subject
  redactedPayloadJson := redactJsonString rules payloadJson

def SourceCandidate.of (id : String) (artifactKind : Option String) (content : String)
    (metadataJson : Option String) : SourceCandidate where
  sourceItemId := id
  artifactKind := artifactKind
  content := content
  metadataJson := metadataJson
  redactedContent := rules.redactSensitive content
  redactedMetadataJson := metadataJson.map (redactJsonString rules)

def IndexCandidate.of (id textView : String) : IndexCandidate where
  indexEntryId := id
  textView := textView
  redactedTextView := rules.redactSensitive textView

/-- Whether a memory that is not deleted has a text that the redaction changes. -/
def MemoryRow.leaks (row : MemoryRow) : Bool :=
  !row.isSoftDeleted &&
    (rules.redactSensitive row.subjectText != row.subjectText ||
      redactJsonString rules row.payloadJson != row.payloadJson)

/-- Whether a source item that is no note has a text that the redaction changes. -/
def SourceRow.leaks (row : SourceRow) : Bool :=
  row.artifactKind != some "note" &&
    (rules.redactSensitive row.content != row.content ||
      row.metadataJson.map (redactJsonString rules) != row.metadataJson)

def IndexRow.leaks (row : IndexRow) : Bool :=
  rules.redactSensitive row.textView != row.textView

/-- A memory that is rewritten in place. -/
def MemoryRow.isNarrative (row : MemoryRow) : Bool :=
  decide (row.type ∉ noteTypes) && decide (row.type ∉ regenerableTypes)

/-- A memory that is deleted because it can be made again. -/
def MemoryRow.isRegenerable (row : MemoryRow) : Bool :=
  decide (row.type ∉ noteTypes) && decide (row.type ∈ regenerableTypes)

/-- The rewrites of `_scan_memory_rows`. -/
def scanRewrites (memories : Table MemoryRow) : List MemoryCandidate :=
  (memories.rows.filter fun row => row.leaks rules && row.isNarrative).map fun row =>
    .of rules row.id row.type row.subjectText row.payloadJson

/-- The regenerable ids of `_scan_memory_rows`. -/
def scanRegenerable (memories : Table MemoryRow) : List String :=
  (memories.rows.filter fun row => row.leaks rules && row.isRegenerable).map MemoryRow.id

/-- The skipped notes of `_scan_memory_rows`. -/
def scanNotes (memories : Table MemoryRow) : List String :=
  (memories.rows.filter fun row => row.leaks rules && decide (row.type ∈ noteTypes)).map
    MemoryRow.id

def scanSourceItems (sources : Table SourceRow) : List SourceCandidate :=
  (sources.rows.filter fun row => row.leaks rules).map fun row =>
    .of rules row.id row.artifactKind row.content row.metadataJson

def scanIndexEntries (entries : Table IndexRow) : List IndexCandidate :=
  (entries.rows.filter fun row => row.leaks rules).map fun row =>
    .of rules row.id row.textView

/-- `build_plan`, when nothing is written meanwhile. -/
def buildPlan (database : Database) : PurgePlan where
  memoryRows := scanRewrites rules database.memories
  sourceItems := scanSourceItems rules database.sources
  indexEntries := scanIndexEntries rules database.entries
  regenerableIds := scanRegenerable rules database.memories
  noteSkippedIds := scanNotes rules database.memories

end Plan

section Manifest

/-- What `stat` tells of the main database file. -/
structure FileStat where
  sizeBytes : ℕ
  mtimeNs : ℤ
  deriving DecidableEq, Repr

structure MemorySnapshot where
  memoryObjectId : String
  type : String
  subject : String
  payloadJson : String
  deriving DecidableEq, Repr

structure SourceSnapshot where
  sourceItemId : String
  artifactKind : Option String
  content : String
  metadataJson : Option String
  deriving DecidableEq, Repr

structure IndexSnapshot where
  indexEntryId : String
  textView : String
  deriving DecidableEq, Repr

/-- The manifest; its times are in microseconds. -/
structure Manifest where
  writtenAt : ℤ
  dbUrl : String
  sqlitePath : String
  sqliteSizeBytes : ℕ
  sqliteMtimeNs : ℤ
  memoryObjects : List MemorySnapshot
  regenerableSoftDeletedIds : List String
  sourceItems : List SourceSnapshot
  indexEntries : List IndexSnapshot
  noteSkippedMemoryIds : List String
  deriving DecidableEq, Repr

def writeManifest (now : ℤ) (dbUrl sqlitePath : String) (stat : FileStat) (plan : PurgePlan) :
    Manifest where
  writtenAt := now
  dbUrl := dbUrl
  sqlitePath := sqlitePath
  sqliteSizeBytes := stat.sizeBytes
  sqliteMtimeNs := stat.mtimeNs
  memoryObjects := plan.memoryRows.map fun row =>
    ⟨row.memoryObjectId, row.type, row.subject, row.payloadJson⟩
  regenerableSoftDeletedIds := plan.regenerableIds
  sourceItems := plan.sourceItems.map fun item =>
    ⟨item.sourceItemId, item.artifactKind, item.content, item.metadataJson⟩
  indexEntries := plan.indexEntries.map fun entry => ⟨entry.indexEntryId, entry.textView⟩
  noteSkippedMemoryIds := plan.noteSkippedIds

inductive ManifestError
  | stale
  | dbUrlMismatch
  | sqlitePathMismatch
  | sqliteFileMissing
  | mtimeDrift
  | sizeDrift
  deriving DecidableEq, Repr

def manifestMaxAge : ℤ := 24 * 60 * 60 * 1000000

def sizeToleranceBytes : ℕ := 1024

def validateManifest (manifest : Manifest) (now : ℤ) (dbUrl sqlitePath : String)
    (stat : Option FileStat) (allowMtimeDrift : Bool) : Option ManifestError :=
  if now - manifest.writtenAt > manifestMaxAge then some .stale
  else if manifest.dbUrl ≠ dbUrl then some .dbUrlMismatch
  else if manifest.sqlitePath ≠ sqlitePath then some .sqlitePathMismatch
  else
    match stat with
    | none => some .sqliteFileMissing
    | some stat =>
      if allowMtimeDrift then none
      else if manifest.sqliteMtimeNs ≠ stat.mtimeNs then some .mtimeDrift
      else if ((manifest.sqliteSizeBytes : ℤ) - stat.sizeBytes).natAbs > sizeToleranceBytes then
        some .sizeDrift
      else none

def planFromManifest (rules : PurgeRules) (manifest : Manifest) : PurgePlan where
  memoryRows := manifest.memoryObjects.map fun row =>
    .of rules row.memoryObjectId row.type row.subject row.payloadJson
  sourceItems := manifest.sourceItems.map fun item =>
    .of rules item.sourceItemId item.artifactKind item.content item.metadataJson
  indexEntries := manifest.indexEntries.map fun entry =>
    .of rules entry.indexEntryId entry.textView
  regenerableIds := manifest.regenerableSoftDeletedIds
  noteSkippedIds := []

end Manifest

section Writes

variable (rules : PurgeRules)

/-- `_resolve_container_ref_in_txn`. -/
def Database.containerRefOf (database : Database) : TargetKind → String → Option String
  | .memoryObject, targetId => (database.memories.get targetId).bind MemoryRow.containerRef
  | .sourceItem, targetId => (database.sources.get targetId).bind SourceRow.containerRef

/-- `_sync_source_item_work_refs_in_txn`. -/
def Database.syncWorkRefs (database : Database) (sourceItemId : String)
    (metadataJson : Option String) (sourceExists : Bool) : Database :=
  let metadata := (metadataJson.filter (· ≠ "")).bind rules.loads
  let refs := if sourceExists then rules.workRefsFromMetadata metadata else []
  { database with
    workRefs := database.workRefs.map fun known =>
      (known.filter fun known => known.1 ≠ sourceItemId) ++ refs.map (sourceItemId, ·) }

/-- A source item with its texts written. -/
def SourceRow.written (content : String) (metadataJson : Option String) (row : SourceRow) :
    SourceRow :=
  { row with
    content := content
    metadataJson := metadataJson }

def IndexRow.written (textView : String) (row : IndexRow) : IndexRow :=
  { row with textView := textView }

/-- Write the texts of a source item and its work references. -/
def Database.writeSource (database : Database) (sourceItemId content : String)
    (metadataJson : Option String) : Database :=
  Database.syncWorkRefs rules
    { database with
      sources := database.sources.modify sourceItemId (SourceRow.written content metadataJson) }
    sourceItemId metadataJson (database.sources.get sourceItemId).isSome

/-- Write the text of an index entry and of its full-text row. -/
def Database.writeEntry (database : Database) (indexEntryId textView : String) : Database :=
  match database.entries.get indexEntryId with
  | none => database
  | some entry =>
    let written :=
      { database with
        entries := database.entries.modify indexEntryId (IndexRow.written textView) }
    match entry.indexType with
    | .vector => written
    | .lexical =>
      { written with
        ftsRows := (database.ftsRows.filter fun row => row.indexEntryId ≠ indexEntryId) ++
          [{ textView := textView
             indexEntryId := indexEntryId
             targetKind := entry.targetKind
             targetId := entry.targetId
             textViewName := entry.textViewName
             containerRef := database.containerRefOf entry.targetKind entry.targetId }] }

/-- A memory with its texts redacted, unless it is deleted. -/
def MemoryRow.rewritten (candidate : MemoryCandidate) (row : MemoryRow) : MemoryRow :=
  if row.isSoftDeleted then row
  else
    { row with
      subject := some candidate.redactedSubject
      payloadJson := candidate.redactedPayloadJson }

def MemoryRow.deleted (now : String) (row : MemoryRow) : MemoryRow :=
  if row.isSoftDeleted then row
  else
    { row with
      isSoftDeleted := true
      softDeletedAt := some now
      softDeleteReason := some Purge.softDeleteReason }

def Database.rewriteMemory (database : Database) (candidate : MemoryCandidate) : Database :=
  { database with
    memories := database.memories.modify candidate.memoryObjectId
      (MemoryRow.rewritten candidate) }

def Database.softDelete (now : String) (database : Database) (memoryObjectId : String) :
    Database :=
  { database with
    memories := database.memories.modify memoryObjectId (MemoryRow.deleted now) }

def applyPlan (now : String) (plan : PurgePlan) (database : Database) : Database :=
  let rewritten := plan.memoryRows.foldl Database.rewriteMemory database
  let deleted := plan.regenerableIds.foldl (Database.softDelete now) rewritten
  let redacted := plan.sourceItems.foldl (fun database item =>
    database.writeSource rules item.sourceItemId item.redactedContent item.redactedMetadataJson)
    deleted
  plan.indexEntries.foldl (fun database entry =>
    database.writeEntry entry.indexEntryId entry.redactedTextView) redacted

/-- A memory with its texts written back. -/
def MemoryRow.restored (snapshot : MemorySnapshot) (row : MemoryRow) : MemoryRow :=
  { row with
    subject := some snapshot.subject
    payloadJson := snapshot.payloadJson }

/-- A memory whose deletion by the purge is taken back. -/
def MemoryRow.undeleted (row : MemoryRow) : MemoryRow :=
  if row.softDeleteReason = some Purge.softDeleteReason then
    { row with
      isSoftDeleted := false
      softDeletedAt := none
      softDeleteReason := none }
  else row

def Database.restoreMemory (database : Database) (snapshot : MemorySnapshot) : Database :=
  { database with
    memories := database.memories.modify snapshot.memoryObjectId (MemoryRow.restored snapshot) }

def Database.undelete (database : Database) (memoryObjectId : String) : Database :=
  { database with
    memories := database.memories.modify memoryObjectId MemoryRow.undeleted }

def undoPlan (manifest : Manifest) (database : Database) : Database :=
  let restored := manifest.memoryObjects.foldl Database.restoreMemory database
  let undeleted := manifest.regenerableSoftDeletedIds.foldl Database.undelete restored
  let resourced := manifest.sourceItems.foldl (fun database item =>
    database.writeSource rules item.sourceItemId item.content item.metadataJson) undeleted
  manifest.indexEntries.foldl (fun database entry =>
    database.writeEntry entry.indexEntryId entry.textView) resourced

end Writes

end Pallium.Purge
