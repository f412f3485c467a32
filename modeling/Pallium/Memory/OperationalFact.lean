import Pallium.Memory.Supersession

/-!
# Operational facts from the work traces of a thread

A rebuild of a thread finds reconnaissance events in its turns and makes of each a
candidate fact.  Candidates of one slot collapse, at most five are kept, and they
become candidate memories that the items of their events support.  Before the
result is committed it is reconciled with the facts of the store.
-/

namespace Pallium.Memory

open Pallium.Access

/-- The event that is the evidence of a candidate. -/
structure DiscoveryEvent where
  sourceItemId : String
  turnIndex : ℕ
  deriving DecidableEq, Repr

structure OperationalFactCandidate where
  commandFamily : String
  artifactRole : String
  scopeKind : String
  scopeRef : String
  subject : String
  artifact : String
  artifactNormalized : String
  evidence : List DiscoveryEvent
  deriving DecidableEq, Repr

namespace OperationalFactCandidate

/-- The key by which candidates collapse. -/
def slot (candidate : OperationalFactCandidate) : Slot where
  commandFamily := candidate.commandFamily
  artifactRole := candidate.artifactRole
  scopeKind := candidate.scopeKind
  scopeRef := candidate.scopeRef
  artifactNormalized := candidate.artifactNormalized

/-- The turn of the first evidence. -/
def turnRank (candidate : OperationalFactCandidate) : ℕ :=
  (candidate.evidence.head?.map DiscoveryEvent.turnIndex).getD 0

/-- The order in which candidates are found. -/
def Precedes (first second : OperationalFactCandidate) : Prop :=
  first.turnRank < second.turnRank ∨
    first.turnRank = second.turnRank ∧ first.artifactNormalized ≤ second.artifactNormalized

instance : DecidableRel Precedes := fun _ _ => inferInstanceAs (Decidable (_ ∨ _))

def highValueFamilies : List String :=
  ["python", "uv", "node", "npm", "pnpm", "yarn", "cargo", "go", "gradle", "docker", "make"]

def roleSpecificity : List (String × ℕ) :=
  [("interpreter", 0), ("runner", 1), ("endpoint", 2), ("version", 3), ("task", 4), ("path", 5),
    ("venv", 6)]

def familyRank (candidate : OperationalFactCandidate) : ℕ :=
  if candidate.commandFamily ∈ highValueFamilies then 0 else 1

def roleRank (candidate : OperationalFactCandidate) : ℕ :=
  (roleSpecificity.lookup candidate.artifactRole).getD 99

/-- The order in which candidates are kept where there are too many. -/
def Outranks (first second : OperationalFactCandidate) : Prop :=
  first.familyRank < second.familyRank ∨ first.familyRank = second.familyRank ∧
    (first.roleRank < second.roleRank ∨ first.roleRank = second.roleRank ∧ first.Precedes second)

instance : DecidableRel Outranks := fun _ _ => inferInstanceAs (Decidable (_ ∨ _))

/-- The first candidate of each slot that has not been seen. -/
def keepFirst (seen : List Slot) : List OperationalFactCandidate → List OperationalFactCandidate
  | [] => []
  | candidate :: rest =>
    if candidate.slot ∈ seen then keepFirst seen rest
    else candidate :: keepFirst (candidate.slot :: seen) rest

def dedupCandidates (candidates : List OperationalFactCandidate) :
    List OperationalFactCandidate :=
  (keepFirst [] candidates).insertionSort Precedes

def maxCandidatesPerRebuild : ℕ := 5

/-- `derive_operational_facts`, from the candidates of the events. -/
def deriveOperationalFacts (candidates : List OperationalFactCandidate) :
    List OperationalFactCandidate :=
  let deduped := dedupCandidates candidates
  if maxCandidatesPerRebuild < deduped.length then
    let kept := (deduped.insertionSort Outranks).take maxCandidatesPerRebuild
    deduped.filter (· ∈ kept)
  else deduped

def payload (candidate : OperationalFactCandidate) : Payload :=
  { Payload.empty with
    commandFamily := some candidate.commandFamily
    artifactRole := some candidate.artifactRole
    scopeKind := some candidate.scopeKind
    scopeRef := some candidate.scopeRef
    artifactNormalized := some candidate.artifactNormalized
    evidenceSourceItemIds := candidate.evidence.map DiscoveryEvent.sourceItemId }

/-- The text by which the fact is found. -/
def textView (candidate : OperationalFactCandidate) : String :=
  " ".intercalate ([candidate.subject, candidate.commandFamily, candidate.artifactRole,
    candidate.artifactNormalized, candidate.artifact].filter (· ≠ ""))

end OperationalFactCandidate

/-- What a reconnaissance event of a turn gives, before its evidence is added. -/
structure Finding where
  commandFamily : String
  artifactRole : String
  scopeKind : String
  scopeRef : String
  subject : String
  artifact : String
  artifactNormalized : String
  deriving DecidableEq, Repr

/-- `_recon_event_to_candidate`, for an event of the turn of an item. -/
def Finding.candidate (finding : Finding) (sourceItemId : String) (turnIndex : ℕ) :
    OperationalFactCandidate where
  commandFamily := finding.commandFamily
  artifactRole := finding.artifactRole
  scopeKind := finding.scopeKind
  scopeRef := finding.scopeRef
  subject := finding.subject
  artifact := finding.artifact
  artifactNormalized := finding.artifactNormalized
  evidence := [⟨sourceItemId, turnIndex⟩]

/-- The scope of the thread that is rebuilt. -/
structure ThreadAggregate where
  containerRef : String
  visibility : Visibility
  threadRef : String
  threaded : threadRef ≠ ""

/-- The new ids of a memory and of its index entry. -/
structure FactId where
  memoryId : String
  entryId : String
  named : memoryId ≠ ""

def candidateToMemoryObject (id : FactId) (candidate : OperationalFactCandidate)
    (aggregate : ThreadAggregate) : MemoryObject where
  id := id.memoryId
  type := operationalFactType
  payload := candidate.payload
  envelopeContainerRef := none
  lifecycle := .candidate
  visibility := aggregate.visibility
  containerRef := some aggregate.containerRef
  actorRef := none
  origin := none
  named := id.named
  live := by decide

def candidateToIndexEntry (id : FactId) (candidate : OperationalFactCandidate) :
    IndexEntryRecord where
  id := id.entryId
  targetKind := .memoryObject
  targetId := id.memoryId
  indexType := .lexical
  textView := candidate.textView

/-- The relations of a fact to the items of its evidence, one for each item. -/
def candidateRelations (id : FactId) (candidate : OperationalFactCandidate) :
    List RelationRecord :=
  (((candidate.evidence.map DiscoveryEvent.sourceItemId).filter (· ≠ "")).eraseDups).map
    fun sourceItemId => ⟨.memoryObject, id.memoryId, .supportedBy, .sourceItem, sourceItemId⟩

def taskTrace (id : FactId) (aggregate : ThreadAggregate) : MemoryObject where
  id := id.memoryId
  type := "task_trace"
  payload := Payload.empty
  envelopeContainerRef := none
  lifecycle := .active
  visibility := aggregate.visibility
  containerRef := some aggregate.containerRef
  actorRef := none
  origin := none
  named := id.named
  live := by decide

/-- A rebuild of the traces of a thread: the items in the window of the thread, what is
found in their turns, and the ids and texts that it draws. -/
structure TraceRebuild where
  aggregate : ThreadAggregate
  window : List String
  findings : Ingest.SourceItem → List Finding
  traceId : FactId
  traceText : String
  ids : ℕ → FactId
  distinct : ∀ index, (ids index).memoryId ≠ traceId.memoryId

namespace TraceRebuild

/-- The items of the thread, in the order of its turns. -/
def traceItems (rebuild : TraceRebuild) (store : MemoryStore) : List Ingest.SourceItem :=
  rebuild.window.filterMap fun sourceItemId =>
    (store.sourceItems.get sourceItemId).filter fun item =>
      item.containerRef == some rebuild.aggregate.containerRef &&
        item.threadRef == some rebuild.aggregate.threadRef &&
        item.visibility == some rebuild.aggregate.visibility

/-- The candidates of all events in the turns of the thread. -/
def candidates (rebuild : TraceRebuild) (store : MemoryStore) : List OperationalFactCandidate :=
  (rebuild.traceItems store).zipIdx.flatMap fun turn =>
    (rebuild.findings turn.1).map fun finding => finding.candidate turn.1.id turn.2

/-- The derived candidates with the ids of their memories. -/
def facts (rebuild : TraceRebuild) (store : MemoryStore) :
    List (FactId × OperationalFactCandidate) :=
  (OperationalFactCandidate.deriveOperationalFacts (rebuild.candidates store)).mapIdx
    fun index candidate => (rebuild.ids index, candidate)

theorem relationType_of_mem_candidateRelations {id : FactId}
    {candidate : OperationalFactCandidate} {relation : RelationRecord}
    (hmem : relation ∈ candidateRelations id candidate) :
    relation.relationType = .supportedBy ∧ relation.fromKind = .memoryObject ∧
      relation.fromId = id.memoryId ∧ relation.toKind = .sourceItem := by
  obtain ⟨sourceItemId, -, rfl⟩ := List.mem_map.mp hmem
  exact ⟨rfl, rfl, rfl, rfl⟩

def buildThreadSummary (rebuild : TraceRebuild) (store : MemoryStore) : ProcessResult :=
  if (rebuild.traceItems store).isEmpty then ⟨[], [], [], [], [], nofun⟩
  else
    let facts := rebuild.facts store
    { memoryObjects := taskTrace rebuild.traceId rebuild.aggregate ::
        facts.map fun fact => candidateToMemoryObject fact.1 fact.2 rebuild.aggregate
      relations := facts.flatMap fun fact => candidateRelations fact.1 fact.2
      indexEntries := ⟨rebuild.traceId.entryId, .memoryObject, rebuild.traceId.memoryId, .lexical,
        rebuild.traceText⟩ :: facts.map fun fact => candidateToIndexEntry fact.1 fact.2
      supersessionHints := []
      promotionHints := []
      plain := by
        intro relation hrelation
        obtain ⟨fact, -, hfact⟩ := List.mem_flatMap.mp hrelation
        rw [(relationType_of_mem_candidateRelations hfact).1]
        decide }

end TraceRebuild

/-- `_infer_thread_ref` and `_thread_ref_for_row`: the thread of the first item of the
evidence that has one. -/
def inferThreadRef (store : MemoryStore) (payloads : List Payload) : Option String :=
  (payloads.flatMap Payload.evidenceSourceItemIds).findSome? fun sourceItemId =>
    ((store.sourceItems.get sourceItemId).bind Ingest.SourceItem.threadRef).filter (· ≠ "")

/-- The memories whose slot has been claimed, by a slot before or a memory before. -/
def duplicateIds (slots : List Slot) : List MemoryObject → List String
  | [] => []
  | memory :: rest =>
    if memory.payload.slot ∈ slots then memory.id :: duplicateIds slots rest
    else duplicateIds (memory.payload.slot :: slots) rest

def MemoryStore.factsOf (store : MemoryStore) (containerRef : String) (lifecycle : Lifecycle) :
    List MemoryObjectRecord :=
  store.memories.rows.filter fun record =>
    record.type == operationalFactType && record.lifecycle == lifecycle &&
      record.containerRef == some containerRef

namespace ProcessResult

def factsWith (result : ProcessResult) (lifecycle : Lifecycle) : List MemoryObject :=
  result.memoryObjects.filter fun memory =>
    memory.type == operationalFactType && memory.lifecycle == lifecycle

def dedupCandidatesIntraThread (result : ProcessResult) (store : MemoryStore)
    (containerRef : String) : ProcessResult :=
  let candidateFacts := result.factsWith .candidate
  match inferThreadRef store (candidateFacts.map MemoryObject.payload) with
  | none => result
  | some threadRef =>
    let existing := (store.factsOf containerRef .candidate).filter fun record =>
      !record.isSoftDeleted && inferThreadRef store [record.payload] == some threadRef
    let dropped := duplicateIds (existing.map fun record => record.payload.slot) candidateFacts
    if dropped.isEmpty then result
    else
      { memoryObjects := result.memoryObjects.filter fun memory =>
          !(memory.type == operationalFactType && decide (memory.id ∈ dropped))
        relations := result.relations.filter fun relation =>
          !(relation.fromKind == .memoryObject && decide (relation.fromId ∈ dropped))
        indexEntries := result.indexEntries.filter fun entry => decide (entry.targetId ∉ dropped)
        supersessionHints := result.supersessionHints
        promotionHints := result.promotionHints
        plain := fun relation hrelation => result.plain relation (List.mem_of_mem_filter hrelation) }

/-- `_append_promotion_hints_for_kept_candidates`. -/
def appendPromotionHints (result : ProcessResult) (containerRef : String)
    (visibility : Visibility) : ProcessResult :=
  { result with
    promotionHints := result.promotionHints ++
      ((result.factsWith .candidate).filter fun memory =>
        let slot := memory.payload.slot
        slot.commandFamily != "" && slot.scopeKind != "" && slot.scopeRef != "" &&
          slot.artifactNormalized != "").map fun memory =>
        ⟨memory.id, memory.payload.slot, containerRef, visibility⟩ }

/-- The part of `reconcile_process_result` for active facts. -/
def dedupActiveFacts (result : ProcessResult) (store : MemoryStore) (containerRef : String) :
    ProcessResult :=
  let activeFacts := result.factsWith .active
  if activeFacts.isEmpty then result
  else
    let slots := (store.factsOf containerRef .active).map fun record => record.payload.slot
    let dropped := duplicateIds slots activeFacts
    if dropped.isEmpty then result
    else
      { result with
        memoryObjects := result.memoryObjects.filter fun memory =>
          memory.type != operationalFactType ||
            decide (memory.id ∈ activeFacts.map MemoryObject.id ∧ memory.id ∉ dropped)
        indexEntries := result.indexEntries.filter fun entry => decide (entry.targetId ∉ dropped) }

/-- `reconcile_process_result`. -/
def reconcile (result : ProcessResult) (store : MemoryStore) (containerRef : String)
    (visibility : Visibility) : ProcessResult :=
  let deduped :=
    if (result.factsWith .candidate).isEmpty then result
    else result.dedupCandidatesIntraThread store containerRef
  (deduped.appendPromotionHints containerRef visibility).dedupActiveFacts store containerRef

end ProcessResult

end Pallium.Memory
