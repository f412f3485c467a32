import Pallium.Core.SequenceMatcher
import Pallium.Core.Sql
import Pallium.Ingest.Storage
import Pallium.Memory.Index

/-!
# Supersession of memories

A memory that is superseded has its lifecycle set and a successor recorded,
either in `superseded_by_id` or as a `supersedes` edge from the successor.  The
operations of the store are transactions.  The service's own supersession and
the flagging of a memory consist of several of them and run as processes that
take one step at a time, between which anything else may happen.
-/

namespace Pallium.Memory

open Pallium.Access Pallium.Text Pallium.Transaction

inductive Lifecycle
  | active
  | candidate
  | suppressed
  | superseded
  deriving DecidableEq, Repr

theorem Lifecycle.active_ne_superseded : active ≠ superseded := by decide

/-- The key of the conflicts of operational facts. -/
structure Slot where
  commandFamily : String
  artifactRole : String
  scopeKind : String
  scopeRef : String
  artifactNormalized : String
  deriving DecidableEq, Repr

instance : LawfulBEq (String × Slot) := inferInstance

/-- The part of a payload that a commit reads, that a merge touches or that an
explicit write stores. -/
structure Payload where
  canonicalKey : Option String
  commandFamily : Option String
  artifactRole : Option String
  scopeKind : Option String
  scopeRef : Option String
  artifactNormalized : Option String
  evidenceSourceItemIds : List String
  mergedFrom : List String
  previousEvidenceText : List String
  previousRationale : List String
  decisionEvidenceText : Option String
  investigationEvidenceText : Option String
  rationale : Option String
  statement : Option String := none
  source : Option String := none
  supersedesId : Option String := none
  evidence : List String := []
  confidence : Option Rat := none
  deriving DecidableEq, Repr

def Payload.empty : Payload where
  canonicalKey := none
  commandFamily := none
  artifactRole := none
  scopeKind := none
  scopeRef := none
  artifactNormalized := none
  evidenceSourceItemIds := []
  mergedFrom := []
  previousEvidenceText := []
  previousRationale := []
  decisionEvidenceText := none
  investigationEvidenceText := none
  rationale := none

/-- A row of `memory_objects`; the envelope is there for its container. -/
structure MemoryObjectRecord where
  id : String
  type : String
  payload : Payload
  envelopeContainerRef : Option String
  lifecycle : Lifecycle
  visibility : Option Visibility
  containerRef : Option String
  actorRef : Option String
  isSoftDeleted : Bool
  supersededById : Option String
  correctionReason : Option String
  origin : Option String
  originSessionId : Option String
  originAgentId : Option String
  deriving DecidableEq, Repr

inductive RelationType
  | supersedes
  | supportedBy
  | relatesTo
  | consolidates
  deriving DecidableEq, Repr

/-- A row of `relations`. -/
structure RelationRecord where
  fromKind : TargetKind
  fromId : String
  relationType : RelationType
  toKind : TargetKind
  toId : String
  deriving DecidableEq, Repr

/-- A row of `memory_flags`. -/
structure MemoryFlagRecord where
  memoryObjectId : String
  reason : String
  sourceRef : String
  flaggedAt : ℤ
  deriving DecidableEq, Repr

instance : Keyed MemoryObjectRecord String := ⟨MemoryObjectRecord.id⟩

@[simp]
theorem key_memoryObjectRecord (record : MemoryObjectRecord) : key record = record.id := rfl

/-- A row of `operational_fact_promotion_log`. -/
structure PromotionLogRecord where
  memoryObjectId : String
  fromLifecycle : Lifecycle
  toLifecycle : Lifecycle
  reason : String
  distinctThreadsCount : ℕ
  deriving DecidableEq, Repr

structure MemoryStore where
  memories : Table MemoryObjectRecord
  relations : List RelationRecord
  index : MemoryIndex
  sourceItems : Table Ingest.SourceItem
  promotionLog : List PromotionLogRecord
  flags : List MemoryFlagRecord

/-- A memory that is to be written; nothing writes a memory that is superseded
from the start. -/
structure MemoryObject where
  id : String
  type : String
  payload : Payload
  envelopeContainerRef : Option String
  lifecycle : Lifecycle
  visibility : Visibility
  containerRef : Option String
  actorRef : Option String
  origin : Option String
  named : id ≠ ""
  live : lifecycle ≠ .superseded

def MemoryObject.record (memory : MemoryObject) : MemoryObjectRecord where
  id := memory.id
  type := memory.type
  payload := memory.payload
  envelopeContainerRef := memory.envelopeContainerRef
  lifecycle := memory.lifecycle
  visibility := some memory.visibility
  containerRef := memory.containerRef
  actorRef := memory.actorRef
  isSoftDeleted := false
  supersededById := none
  correctionReason := none
  origin := memory.origin
  originSessionId := none
  originAgentId := none

@[simp]
theorem MemoryObject.record_id (memory : MemoryObject) : memory.record.id = memory.id := rfl

/-- The row of a memory that comes with the result of a package. -/
def MemoryObject.inferredRecord (memory : MemoryObject) : MemoryObjectRecord :=
  { memory.record with origin := some "agent_inferred" }

/-- `visibility or "private"`. -/
def MemoryObjectRecord.decodedVisibility (record : MemoryObjectRecord) : Visibility :=
  record.visibility.getD .priv

/-- The container of a memory, else the one of its envelope. -/
def MemoryObjectRecord.anyContainerRef (record : MemoryObjectRecord) : Option String :=
  record.containerRef.or record.envelopeContainerRef

/-- The row of a memory that gets its successor. -/
def MemoryObjectRecord.supersededBy (successorId : String) (correctionReason : Option String)
    (record : MemoryObjectRecord) : MemoryObjectRecord :=
  { record with
    lifecycle := .superseded
    supersededById := some successorId
    correctionReason := correctionReason.or record.correctionReason }

inductive MemoryError
  | missing (memoryObjectId : String)
  | conflict (memoryObjectId : String)
  | typeMismatch
  | integrity
  | other (text : String)
  deriving DecidableEq, Repr

namespace MemoryStore

def empty : MemoryStore := ⟨Table.empty, [], MemoryIndex.empty, Table.empty, [], []⟩

def supersedesEdge (supersededId replacementId : String) : RelationRecord :=
  ⟨.memoryObject, replacementId, .supersedes, .memoryObject, supersededId⟩

/-- `list_supersession_successor_ids` of a memory that exists. -/
def successorIds (store : MemoryStore) (memoryObjectId : String) : List String :=
  let recorded := ((store.memories.get memoryObjectId).bind
    MemoryObjectRecord.supersededById).filter (· ≠ "")
  let edges := store.relations.filter fun relation =>
    relation.fromKind = .memoryObject ∧ relation.toId = memoryObjectId ∧
      relation.relationType = .supersedes ∧ relation.toKind = .memoryObject
  ((recorded.toList ++ edges.map RelationRecord.fromId).dedup).insertionSort (· ≤ ·)

def superseded (store : MemoryStore) (memoryObjectId : String) : Bool :=
  (store.memories.get memoryObjectId).any fun record => record.lifecycle = .superseded

def updateMemoryObjectLifecycle (memoryObjectId : String) (lifecycle : Lifecycle)
    (store : MemoryStore) : MemoryStore × Except MemoryError Unit :=
  transaction (fun store => do
    let _ ← orRaise (store.memories.get memoryObjectId) (.missing memoryObjectId)
    pure ({ store with
      memories := store.memories.modify memoryObjectId fun record =>
        { record with lifecycle := lifecycle } }, ())) store

def createMemoryObject (memory : MemoryObject) (store : MemoryStore) :
    MemoryStore × Except MemoryError Unit :=
  transaction (fun store => do
    let memories ← orRaise (store.memories.insertNew memory.record) .integrity
    pure ({ store with memories := memories }, ())) store

/-- `_resolve_container_ref_in_session`. -/
def resolveContainerRef (memories : Table MemoryObjectRecord)
    (sourceItems : Table Ingest.SourceItem) (entry : IndexEntryRecord) : Option String :=
  match entry.targetKind with
  | .sourceItem => (sourceItems.get entry.targetId).bind Ingest.SourceItem.containerRef
  | .memoryObject => (memories.get entry.targetId).bind MemoryObjectRecord.anyContainerRef

/-- Add the index entries of a replacement; only the lexical ones must succeed. -/
def addIndexEntries (containerOf : IndexEntryRecord → Option String) (index : MemoryIndex) :
    List IndexEntryRecord → Option MemoryIndex
  | [] => some index
  | entry :: rest =>
    match index.insertNew entry (containerOf entry), entry.indexType with
    | some added, _ => addIndexEntries containerOf added rest
    | none, .lexical => none
    | none, .vector => addIndexEntries containerOf index rest

def createExplicitSupersession (oldMemoryObjectId : String) (replacement : MemoryObject)
    (indexEntries : List IndexEntryRecord) (originSessionId originAgentId : String)
    (correctionReason : Option String) (store : MemoryStore) :
    MemoryStore × Except MemoryError Unit :=
  transaction (fun store => do
    let old ← orRaise (store.memories.get oldMemoryObjectId) (.missing oldMemoryObjectId)
    require (old.lifecycle = .active ∧ old.supersededById = none) (.conflict oldMemoryObjectId)
    let memories := store.memories.modify oldMemoryObjectId
      (MemoryObjectRecord.supersededBy replacement.id correctionReason)
    let memories ← orRaise
      (memories.insertNew
        { replacement.record with
          origin := some "agent_explicit"
          originSessionId := some originSessionId
          originAgentId := some originAgentId }) .integrity
    let index ← orRaise
      (addIndexEntries (resolveContainerRef memories store.sourceItems) store.index indexEntries)
      .integrity
    pure ({ store with memories := memories, index := index }, ())) store

def linkSupersession (oldMemoryObjectId newMemoryObjectId : String)
    (correctionReason : Option String) (store : MemoryStore) :
    MemoryStore × Except MemoryError Unit :=
  transaction (fun store => do
    let old ← orRaise (store.memories.get oldMemoryObjectId) (.missing oldMemoryObjectId)
    let _ ← orRaise (store.memories.get newMemoryObjectId) (.missing newMemoryObjectId)
    require (old.lifecycle = .active ∧ old.supersededById = none) (.conflict oldMemoryObjectId)
    pure ({ store with
      memories := store.memories.modify oldMemoryObjectId
        (MemoryObjectRecord.supersededBy newMemoryObjectId correctionReason) }, ())) store

end MemoryStore

/-- What a package says about the memories one of its new memories replaces. -/
structure SupersessionHint where
  replacementMemoryId : String
  memoryType : String
  canonicalKey : String
  containerRef : Option String
  threadRef : Option String
  visibility : Visibility
  deriving DecidableEq, Repr

/-- A slot that may have reached the promotion threshold. -/
structure PromotionHint where
  candidateMemoryId : String
  slot : Slot
  containerRef : String
  visibility : Visibility
  deriving DecidableEq, Repr

/-- What a package hands to the store; its relations are no successions. -/
structure ProcessResult where
  memoryObjects : List MemoryObject
  relations : List RelationRecord
  indexEntries : List IndexEntryRecord
  supersessionHints : List SupersessionHint
  promotionHints : List PromotionHint
  plain : ∀ relation ∈ relations, relation.relationType ≠ .supersedes

def ProcessResult.replacementIds (result : ProcessResult) : List String :=
  result.memoryObjects.map MemoryObject.id

def operationalFactType : String := "operational_fact"

def promotionThreadThreshold : ℕ := 2

/-- The slot of a payload, in which a missing value counts as an empty text. -/
def Payload.slot (payload : Payload) : Slot where
  commandFamily := payload.commandFamily.getD ""
  artifactRole := payload.artifactRole.getD ""
  scopeKind := payload.scopeKind.getD ""
  scopeRef := payload.scopeRef.getD ""
  artifactNormalized := payload.artifactNormalized.getD ""

/-- The comparison of the slot by `json_extract`, in which a missing value is null. -/
def Payload.slotCondition (slot : Slot) (payload : Payload) : Sql.Condition :=
  Sql.allOf
    [Sql.equals payload.commandFamily (some slot.commandFamily),
      Sql.equals payload.artifactRole (some slot.artifactRole),
      Sql.equals payload.scopeKind (some slot.scopeKind),
      Sql.equals payload.scopeRef (some slot.scopeRef),
      Sql.equals payload.artifactNormalized (some slot.artifactNormalized)]

/-- Whether a relation is evidence for the memory. -/
def supports (memoryObjectId : String) (relation : RelationRecord) : Bool :=
  relation.fromKind == .memoryObject && relation.fromId == memoryObjectId &&
    relation.relationType == .supportedBy

namespace MemoryStore

def addMemories (memories : Table MemoryObjectRecord) :
    List MemoryObject → Option (Table MemoryObjectRecord)
  | [] => some memories
  | memory :: rest =>
    (memories.insertNew memory.inferredRecord).bind fun added => addMemories added rest

def addEntries (containerOf : IndexEntryRecord → Option String) (index : MemoryIndex) :
    List IndexEntryRecord → Option MemoryIndex
  | [] => some index
  | entry :: rest =>
    (index.insertNew entry (containerOf entry)).bind fun added =>
      addEntries containerOf added rest

/-- The threads of the source items that support a memory. -/
def supportingThreads (store : MemoryStore) (memoryObjectId : String) : List String :=
  (store.relations.filter fun relation =>
      supports memoryObjectId relation && relation.toKind == .sourceItem).filterMap fun relation =>
    (store.sourceItems.get relation.toId).bind Ingest.SourceItem.threadRef

/-- Whether the statement that counts the threads of a slot reads the memory. -/
def countsForSlot (hint : PromotionHint) (record : MemoryObjectRecord) : Bool :=
  record.type == operationalFactType && record.containerRef == some hint.containerRef &&
    record.visibility == some hint.visibility &&
    (record.lifecycle == .candidate || record.lifecycle == .active) && !record.isSoftDeleted &&
    decide (record.payload.slotCondition hint.slot).Holds

/-- `_count_distinct_threads_for_slot_in_session`. -/
def countDistinctThreadsForSlot (store : MemoryStore) (hint : PromotionHint) : ℕ :=
  ((store.memories.rows.filter (countsForSlot hint)).flatMap fun record =>
    store.supportingThreads record.id).dedup.length

/-- Whether the hint turns the memory active once its slot has reached the threshold. -/
def promotes (hint : PromotionHint) (record : MemoryObjectRecord) : Bool :=
  record.type == operationalFactType && record.containerRef == some hint.containerRef &&
    record.visibility == some hint.visibility && record.lifecycle == .candidate &&
    !record.isSoftDeleted && record.payload.slot == hint.slot

def promoteSlot (store : MemoryStore) (hint : PromotionHint) : MemoryStore :=
  let distinctThreads := store.countDistinctThreadsForSlot hint
  if distinctThreads < promotionThreadThreshold then store
  else
    { store with
      memories := store.memories.updateAll fun record =>
        if promotes hint record then { record with lifecycle := .active } else record
      promotionLog := store.promotionLog ++ (store.memories.rows.filter (promotes hint)).map
        fun record =>
          ⟨record.id, .candidate, .active, "recurrence_threshold_met", distinctThreads⟩ }

/-- `_evaluate_promotion_hints_in_session` after the slots seen before. -/
def evaluatePromotionHints (seenSlots : List (String × Slot)) :
    List PromotionHint → MemoryStore → MemoryStore
  | [], store => store
  | hint :: rest, store =>
    if (hint.containerRef, hint.slot) ∈ seenSlots then evaluatePromotionHints seenSlots rest store
    else
      evaluatePromotionHints ((hint.containerRef, hint.slot) :: seenSlots) rest
        (store.promoteSlot hint)

/-- `_persist_process_result_in_session`. -/
def persistProcessResult (result : ProcessResult) (store : MemoryStore) :
    Except MemoryError MemoryStore := do
  let memories ← orRaise (addMemories store.memories result.memoryObjects) .integrity
  let index ← orRaise
    (addEntries (resolveContainerRef memories store.sourceItems) store.index result.indexEntries)
    .integrity
  pure (evaluatePromotionHints [] result.promotionHints
    { store with
      memories := memories
      relations := store.relations ++ result.relations
      index := index })

/-- The types that are superseded in the whole container. -/
def containerScopedSupersessionTypes : List String :=
  ["constraint_memory", "decision", "investigation_outcome"]

def storedKey (record : MemoryObjectRecord) : String :=
  strip (record.payload.canonicalKey.getD "")

/-- Whether at least half of the tokens of two keys are common to both. -/
def tokensOverlap (newKey existingKey : String) : Bool :=
  let newTokens := (splitWords newKey).dedup
  let existingTokens := (splitWords existingKey).dedup
  let common := (newTokens.filter (· ∈ existingTokens)).length
  !newTokens.isEmpty && !existingTokens.isEmpty &&
    decide (newTokens.length + existingTokens.length - common ≤ 2 * common)

/-- The three rules by which a key matches in the whole container. -/
def keysMatch (hint : SupersessionHint) (existingKey : String) : Bool :=
  existingKey == hint.canonicalKey ||
    hint.memoryType == "constraint_memory" && tokensOverlap hint.canonicalKey existingKey ||
    (hint.memoryType == "decision" || hint.memoryType == "investigation_outcome") &&
      SequenceMatcher.ratioAtLeast 85 existingKey hint.canonicalKey

/-- The memories that a hint without a thread selects. -/
def selectsInContainer (store : MemoryStore) (hint : SupersessionHint)
    (replacementIds : List String) : List MemoryObjectRecord :=
  store.memories.rows.filter fun record =>
    record.containerRef == hint.containerRef && record.type == hint.memoryType &&
      record.lifecycle == .active && decide (record.id ∉ replacementIds) &&
      record.visibility == some hint.visibility && storedKey record != "" &&
      keysMatch hint (storedKey record)

/-- The memories that a hint with a thread selects through their source items. -/
def selectsInThread (store : MemoryStore) (hint : SupersessionHint)
    (replacementIds : List String) : List MemoryObjectRecord :=
  let items := store.sourceItems.rows.filter fun item =>
    item.containerRef == hint.containerRef && item.threadRef == hint.threadRef &&
      item.visibility == some hint.visibility
  items.flatMap fun item =>
    let memoryObjectIds := (store.relations.filter fun relation =>
      relation.relationType == .supportedBy && relation.toKind == .sourceItem &&
        relation.toId == item.id && relation.fromKind == .memoryObject).map RelationRecord.fromId
    store.memories.rows.filter fun record =>
      decide (record.id ∈ memoryObjectIds) && decide (record.id ∉ replacementIds) &&
        record.lifecycle == .active && record.type == hint.memoryType &&
        record.decodedVisibility == hint.visibility && storedKey record == hint.canonicalKey

def selects (store : MemoryStore) (hint : SupersessionHint) (replacementIds : List String) :
    List MemoryObjectRecord :=
  if hint.containerRef.getD "" = "" ∨ hint.canonicalKey = "" then []
  else if hint.threadRef = none ∧ hint.memoryType ∈ containerScopedSupersessionTypes then
    store.selectsInContainer hint replacementIds
  else if hint.threadRef.getD "" = "" then []
  else store.selectsInThread hint replacementIds

local instance lawfulPairs : LawfulBEq (String × String) := inferInstance

/-- The pairs of one hint after those found before: the active memories it
selects, except those that the result itself brings. -/
def hintPairs (result : ProcessResult) (store : MemoryStore) (pairs : List (String × String))
    (hint : SupersessionHint) : List (String × String) :=
  if hint.replacementMemoryId ∈ result.replacementIds then
    (store.selects hint result.replacementIds).foldl (fun pairs record =>
      let pair := (record.id, hint.replacementMemoryId)
      if pair ∈ pairs then pairs else pairs ++ [pair]) pairs
  else pairs

/-- `_resolve_supersession_pairs_in_session`. -/
def resolveSupersessionPairs (result : ProcessResult) (store : MemoryStore) :
    List (String × String) :=
  result.supersessionHints.foldl (store.hintPairs result) []

/-- The last elements that a merge keeps. -/
def keepLast (texts : List String) : List String := texts.drop (texts.length - 16)

def appendUnique (texts : List String) (text : Option String) : List String :=
  match text with
  | none => texts
  | some text => if text = "" ∨ text ∈ texts then texts else texts ++ [text]

/-- `_merge_decision_payload_into_winner`. -/
def mergeDecisionPayload (winner loser : Payload) (loserId : String) : Payload :=
  let evidence := (loser.decisionEvidenceText.filter (· ≠ "")).or loser.investigationEvidenceText
  { winner with
    mergedFrom := keepLast (appendUnique
      ((loser.mergedFrom.map some).foldl appendUnique winner.mergedFrom) (some loserId))
    previousEvidenceText := keepLast (appendUnique
      ((loser.previousEvidenceText.map some).foldl appendUnique winner.previousEvidenceText)
      evidence)
    previousRationale := keepLast (appendUnique
      ((loser.previousRationale.map some).foldl appendUnique winner.previousRationale)
      loser.rationale) }

/-- `_reparent_supported_by_relations`: each evidence of the loser moves to the
winner unless the winner has it already. -/
def reparentSupportedBy (fromMemoryId toMemoryId : String) (seen : List String) :
    List RelationRecord → List RelationRecord
  | [] => []
  | relation :: rest =>
    if supports fromMemoryId relation then
      if relation.toId ∈ seen then reparentSupportedBy fromMemoryId toMemoryId seen rest
      else { relation with fromId := toMemoryId } ::
        reparentSupportedBy fromMemoryId toMemoryId (relation.toId :: seen) rest
    else relation :: reparentSupportedBy fromMemoryId toMemoryId seen rest

/-- The merge of a decision or an investigation outcome into its replacement. -/
def mergeIntoWinner (store : MemoryStore) (loser replacement : MemoryObjectRecord) : MemoryStore :=
  if replacement.type = "decision" ∨ replacement.type = "investigation_outcome" then
    let seen := (store.relations.filter (supports replacement.id)).map RelationRecord.toId
    { store with
      memories := store.memories.modify replacement.id fun record =>
        { record with payload := mergeDecisionPayload record.payload loser.payload loser.id }
      relations := reparentSupportedBy loser.id replacement.id seen store.relations }
  else store

/-- The store after a memory has got its successor through an edge. -/
def supersedeByEdge (store : MemoryStore) (supersededId replacementId : String) : MemoryStore :=
  { store with
    memories := store.memories.modify supersededId fun record =>
      { record with lifecycle := .superseded }
    relations := store.relations ++ [supersedesEdge supersededId replacementId]
    index := store.index.eraseTarget .memoryObject supersededId }

/-- One pair of `_apply_supersession_pairs_in_session`. -/
def applySupersessionPair (store : MemoryStore) (pair : String × String) :
    Except MemoryError MemoryStore := do
  let superseded := store.memories.get pair.1
  let replacement := store.memories.get pair.2
  let loser ← orRaise superseded (.missing pair.1)
  let winner ← orRaise replacement (.missing pair.2)
  require (loser.type = winner.type) .typeMismatch
  if loser.lifecycle = .superseded then pure store
  else pure ((store.mergeIntoWinner loser winner).supersedeByEdge pair.1 pair.2)

/-- `_apply_supersession_pairs_in_session`. -/
def applySupersessionPairs (store : MemoryStore) :
    List (String × String) → Except MemoryError MemoryStore
  | [] => pure store
  | pair :: rest => do
    let after ← store.applySupersessionPair pair
    after.applySupersessionPairs rest

/-- The body that `commit_processed_source_item`, `commit_process_result`,
`commit_process_result_and_complete_scope` and `commit_package_process_result`
share. -/
def commitProcessResult (result : ProcessResult) (supersessionPairs : List (String × String))
    (store : MemoryStore) : MemoryStore × Except MemoryError (List (String × String)) :=
  transaction (fun store => do
    let persisted ← store.persistProcessResult result
    let resolvedPairs := persisted.resolveSupersessionPairs result
    let after ← persisted.applySupersessionPairs (resolvedPairs ++ supersessionPairs)
    pure (after, resolvedPairs ++ supersessionPairs)) store

/-- `create_relation` with the edge of a supersession. -/
def createSupersedesRelation (supersededId replacementId : String) (store : MemoryStore) :
    MemoryStore :=
  { store with relations := store.relations ++ [supersedesEdge supersededId replacementId] }

def storeMemoryFlag (flag : MemoryFlagRecord) (store : MemoryStore) :
    MemoryStore × Except MemoryError Unit :=
  transaction (fun store => do
    let _ ← orRaise (store.memories.get flag.memoryObjectId) (.missing flag.memoryObjectId)
    pure ({ store with flags := store.flags ++ [flag] }, ())) store

def flagsOf (store : MemoryStore) (memoryObjectId : String) : List MemoryFlagRecord :=
  store.flags.filter fun flag => flag.memoryObjectId == memoryObjectId

def countUniqueFlagSources (store : MemoryStore) (memoryObjectId : String) (windowDays now : ℤ) :
    ℕ :=
  let recent := (store.flagsOf memoryObjectId).filter fun flag =>
    decide (now - windowDays * 86400000000 ≤ flag.flaggedAt)
  (recent.map MemoryFlagRecord.sourceRef).dedup.length

def countTotalFlags (store : MemoryStore) (memoryObjectId : String) : ℕ :=
  (store.flagsOf memoryObjectId).length

end MemoryStore

/-- The arguments of `flag_memory_object`; `inScope` is the comparison with the
target scope. -/
structure FlagRequest where
  memoryObjectId : String
  reason : String
  sourceRef : String
  immediate : Bool
  inScope : MemoryObjectRecord → Bool

structure FlagResult where
  memoryObjectId : String
  flagCount : ℕ
  uniqueSources : ℕ
  suppressed : Bool
  deriving DecidableEq, Repr

def flagSuppressionThreshold : ℕ := 2

def flagWindowDays : ℤ := 30

/-- A call of the service and what it does next. -/
inductive Process
  | supersedeReadOld (supersededId replacementId : String)
  | supersedeReadReplacement (superseded : MemoryObjectRecord) (replacementId : String)
  | supersedeUpdate (supersededId replacementId : String)
  | supersedeInsert (supersededId replacementId : String)
  | flagRead (request : FlagRequest)
  | flagStore (request : FlagRequest) (lifecycle : Lifecycle)
  | flagCount (request : FlagRequest)
  | flagSuppress (request : FlagRequest)
  | flagTotal (request : FlagRequest) (suppressed : Bool)
  | flagUnique (request : FlagRequest) (suppressed : Bool) (flagCount : ℕ)
  | finished (result : Option FlagResult)
  | failed (error : MemoryError)

namespace Process

/-- Whether the call has returned or raised. -/
def done : Process → Bool
  | finished _ => true
  | failed _ => true
  | _ => false

/-- The next step of `supersede_memory_object` or `flag_memory_object`. -/
def advance (process : Process) (now : ℤ) (store : MemoryStore) : MemoryStore × Process :=
  match process with
  | supersedeReadOld supersededId replacementId =>
    match store.memories.get supersededId with
    | none => (store, failed (.missing supersededId))
    | some superseded => (store, supersedeReadReplacement superseded replacementId)
  | supersedeReadReplacement superseded replacementId =>
    match store.memories.get replacementId with
    | none => (store, failed (.missing replacementId))
    | some replacement =>
      if superseded.type ≠ replacement.type then (store, failed .typeMismatch)
      else if superseded.lifecycle = .superseded then (store, finished none)
      else (store, supersedeUpdate superseded.id replacementId)
  | supersedeUpdate supersededId replacementId =>
    match store.updateMemoryObjectLifecycle supersededId .superseded with
    | (after, .ok _) => (after, supersedeInsert supersededId replacementId)
    | (after, .error error) => (after, failed error)
  | supersedeInsert supersededId replacementId =>
    (store.createSupersedesRelation supersededId replacementId, finished none)
  | flagRead request =>
    match store.memories.get request.memoryObjectId with
    | none => (store, failed (.missing request.memoryObjectId))
    | some memory =>
      if request.inScope memory then (store, flagStore request memory.lifecycle)
      else (store, failed (.missing request.memoryObjectId))
  | flagStore request lifecycle =>
    match store.storeMemoryFlag
        ⟨request.memoryObjectId, request.reason, request.sourceRef, now⟩ with
    | (after, .error error) => (after, failed error)
    | (after, .ok _) =>
      if lifecycle = .active then
        (after, if request.immediate then flagSuppress request else flagCount request)
      else (after, flagTotal request (lifecycle == .suppressed))
  | flagCount request =>
    if flagSuppressionThreshold ≤
        store.countUniqueFlagSources request.memoryObjectId flagWindowDays now then
      (store, flagSuppress request)
    else (store, flagTotal request false)
  | flagSuppress request =>
    match store.updateMemoryObjectLifecycle request.memoryObjectId .suppressed with
    | (after, .ok _) => (after, flagTotal request true)
    | (after, .error error) => (after, failed error)
  | flagTotal request suppressed =>
    (store, flagUnique request suppressed (store.countTotalFlags request.memoryObjectId))
  | flagUnique request suppressed total =>
    let uniqueSources := store.countUniqueFlagSources request.memoryObjectId flagWindowDays now
    (store, finished (some ⟨request.memoryObjectId, total, uniqueSources, suppressed⟩))
  | finished result => (store, finished result)
  | failed error => (store, failed error)

end Process

end Pallium.Memory
