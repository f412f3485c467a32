import Pallium.Memory.Supersession

/-!
# Explicit writes of memories

An agent stores a memory, corrects one in place, or supersedes one by a new one.
Each of the three calls the store several times, and each call is one transaction.
A call that supersedes or corrects does its writing in one of them; a call that
remembers spreads it over four.
-/

namespace Pallium.Memory

open Pallium.Access Pallium.Calls Pallium.Faults Pallium.Text Pallium.Transaction

/-- `_W3_ALLOWED_MEMORY_TYPES`. -/
def allowedMemoryTypes : List String :=
  ["decision", "investigation_outcome", "constraint_memory", "operational_fact", "note"]

/-- The normalizations that an explicit write applies. -/
structure ExplicitRules where
  normalizeForIndex : String → String
  validateExplicitContainerRef : Option String → Option String

/-- The provenance fields of a request. -/
structure Provenance where
  containerRef : Option String
  actorRef : Option String
  threadRef : Option String
  visibility : Option Visibility
  agentRef : Option String
  originSessionId : Option String
  originAgentId : Option String

structure ValidProvenance where
  containerRef : String
  actorRef : String
  threadRef : String
  agentRef : String
  visibility : Visibility
  deriving DecidableEq, Repr

/-- What an explicit write raises. -/
inductive ExplicitError
  | memoryType (type : String)
  | threadRefMismatch
  | agentRefMismatch
  | containerRef
  | missingProvenance (names : List String)
  | visibility
  | outOfScope (memoryObjectId : String)
  | store (error : MemoryError)
  | storeFailed
  deriving DecidableEq, Repr

/-- A reference and its older name must agree where both are given. -/
def mergeRefs (ref origin : Option String) (mismatch : ExplicitError) :
    Except ExplicitError (Option String) :=
  match ref, origin with
  | none, _ => .ok origin
  | some given, none => .ok (some given)
  | some given, some other => if given = other then .ok (some given) else .error mismatch

/-- Whether a reference is given and not blank. -/
def isGiven (ref : Option String) : Bool := ref.any fun given => strip given != ""

def validateExplicitProvenance (rules : ExplicitRules) (provenance : Provenance) :
    Except ExplicitError ValidProvenance := do
  let threadRef ← mergeRefs provenance.threadRef provenance.originSessionId .threadRefMismatch
  let agentRef ← mergeRefs provenance.agentRef provenance.originAgentId .agentRefMismatch
  let containerRef ← orRaise
    (rules.validateExplicitContainerRef provenance.containerRef) .containerRef
  let missing :=
    [("actor_ref", provenance.actorRef), ("thread_ref", threadRef), ("agent_ref", agentRef)].filter
      fun named => !isGiven named.2
  require (missing = []) (.missingProvenance (missing.map Prod.fst))
  let visibility ← orRaise (provenance.visibility.filter (· ≠ .pub)) .visibility
  pure
    { containerRef := containerRef
      actorRef := provenance.actorRef.getD ""
      threadRef := threadRef.getD ""
      agentRef := agentRef.getD ""
      visibility := visibility }

/-- A memory with its origin; a session or an agent that is not given stays. -/
def MemoryObjectRecord.withOrigin (origin : String) (originSessionId originAgentId : Option String)
    (record : MemoryObjectRecord) : MemoryObjectRecord :=
  { record with
    origin := some origin
    originSessionId := originSessionId.or record.originSessionId
    originAgentId := originAgentId.or record.originAgentId }

def MemoryObjectRecord.corrected (newPayload : Payload) (correctionReason : String)
    (record : MemoryObjectRecord) : MemoryObjectRecord :=
  { record with
    payload := newPayload
    correctionReason := some correctionReason }

namespace MemoryStore

def markMemoryOrigin (memoryObjectId origin : String)
    (originSessionId originAgentId : Option String) (store : MemoryStore) :
    MemoryStore × Except MemoryError Unit :=
  transaction (fun store => do
    require (origin ∈ ["agent_explicit", "agent_inferred", "user_requested"]) (.other origin)
    let _ ← orRaise (store.memories.get memoryObjectId) (.missing memoryObjectId)
    pure ({ store with
      memories := store.memories.modify memoryObjectId
        (MemoryObjectRecord.withOrigin origin originSessionId originAgentId) }, ())) store

def createIndexEntry (entry : IndexEntryRecord) (store : MemoryStore) :
    MemoryStore × Except MemoryError Unit :=
  transaction (fun store => do
    let index ← orRaise (store.index.insertNew entry
      (resolveContainerRef store.memories store.sourceItems entry)) .integrity
    pure ({ store with index := index }, ())) store

def correctMemoryPayload (memoryObjectId : String) (newPayload : Payload)
    (correctionReason : String) (indexEntries : List IndexEntryRecord) (store : MemoryStore) :
    MemoryStore × Except MemoryError Unit :=
  transaction (fun store => do
    let existing ← orRaise (store.memories.get memoryObjectId) (.missing memoryObjectId)
    require (existing.lifecycle = .active ∧ existing.supersededById = none)
      (.conflict memoryObjectId)
    let memories := store.memories.modify memoryObjectId
      (MemoryObjectRecord.corrected newPayload correctionReason)
    let index ← orRaise
      (addIndexEntries (resolveContainerRef memories store.sourceItems)
        (store.index.eraseTarget .memoryObject memoryObjectId) indexEntries) .integrity
    pure ({ store with memories := memories, index := index }, ())) store

end MemoryStore

/-- The calls of the store. -/
inductive ExplicitCall
  | getMemoryObject (memoryObjectId : String)
  | listIndexEntries (memoryObjectId : String)
  | createMemoryObject (memory : MemoryObject)
  | markMemoryOrigin (memoryObjectId origin : String)
      (originSessionId originAgentId : Option String)
  | createIndexEntry (entry : IndexEntryRecord)
  | correctMemoryPayload (memoryObjectId : String) (newPayload : Payload)
      (correctionReason : String) (indexEntries : List IndexEntryRecord)
  | createExplicitSupersession (oldMemoryObjectId : String) (replacement : MemoryObject)
      (indexEntries : List IndexEntryRecord) (originSessionId originAgentId : String)
      (correctionReason : Option String)

/-- What a call returns or raises. -/
def ExplicitCall.Answer : ExplicitCall → Type
  | getMemoryObject _ => Except MemoryError MemoryObjectRecord
  | listIndexEntries _ => Except MemoryError (List IndexEntryRecord)
  | _ => Except MemoryError Unit

/-- The entries that a transaction writes: its savepoint drops a vector entry that fails. -/
def keptEntries (savepointFails : Bool) (indexEntries : List IndexEntryRecord) :
    List IndexEntryRecord :=
  indexEntries.filter fun entry => !(savepointFails && entry.indexType == .vector)

/-- What the store does with a call. -/
def answerExplicit (savepointFails : Bool) :
    (call : ExplicitCall) → MemoryStore → MemoryStore × call.Answer
  | .getMemoryObject memoryObjectId, store =>
    (store, orRaise (store.memories.get memoryObjectId) (.missing memoryObjectId))
  | .listIndexEntries memoryObjectId, store =>
    (store, .ok (store.index.entries.rows.filter
      (IndexEntryRecord.targets .memoryObject memoryObjectId)))
  | .createMemoryObject memory, store => store.createMemoryObject memory
  | .markMemoryOrigin memoryObjectId origin originSessionId originAgentId, store =>
    store.markMemoryOrigin memoryObjectId origin originSessionId originAgentId
  | .createIndexEntry entry, store => store.createIndexEntry entry
  | .correctMemoryPayload memoryObjectId newPayload correctionReason indexEntries, store =>
    store.correctMemoryPayload memoryObjectId newPayload correctionReason
      (keptEntries savepointFails indexEntries)
  | .createExplicitSupersession oldMemoryObjectId replacement indexEntries originSessionId
        originAgentId correctionReason, store =>
      store.createExplicitSupersession oldMemoryObjectId replacement
        (keptEntries savepointFails indexEntries) originSessionId originAgentId correctionReason

/-- A call of the service: it returns the id of the memory it wrote, or raises. -/
abbrev ExplicitProgram : Type :=
  Program ExplicitCall.Answer (Except ExplicitError String)

/-- Go on with what a call returned. -/
def returned {α : Type} (next : α → ExplicitProgram) : Except MemoryError α → ExplicitProgram
  | .ok value => next value
  | .error error => .done (.error (.store error))

/-- A storage call that raises ends the call of the service. -/
def attempt (call : ExplicitCall) (next : call.Answer → ExplicitProgram) : ExplicitProgram :=
  ask (.error .storeFailed) call next

/-- The new ids that a call draws. -/
structure ExplicitIds where
  memoryId : String
  lexicalEntryId : String
  vectorEntryId : String
  named : memoryId ≠ ""

def lexicalEntry (rules : ExplicitRules) (ids : ExplicitIds) (memoryObjectId text : String) :
    IndexEntryRecord where
  id := ids.lexicalEntryId
  targetKind := .memoryObject
  targetId := memoryObjectId
  indexType := .lexical
  textView := rules.normalizeForIndex text

def vectorEntry (ids : ExplicitIds) (memoryObjectId text : String) : IndexEntryRecord where
  id := ids.vectorEntryId
  targetKind := .memoryObject
  targetId := memoryObjectId
  indexType := .vector
  textView := text

def explicitWriteIndexEntries (rules : ExplicitRules) (ids : ExplicitIds)
    (memoryObjectId text : String) : List IndexEntryRecord :=
  [lexicalEntry rules ids memoryObjectId text, vectorEntry ids memoryObjectId text]

structure RememberRequest where
  text : String
  type : String
  confidence : Option Rat
  evidence : List String
  provenance : Provenance

/-- The memory that `remember_memory` stores. -/
def RememberRequest.memory (request : RememberRequest) (ids : ExplicitIds)
    (provenance : ValidProvenance) : MemoryObject where
  id := ids.memoryId
  type := request.type
  payload :=
    { Payload.empty with
      statement := some request.text
      confidence := request.confidence
      evidence := request.evidence
      source := some "agent_explicit_write" }
  envelopeContainerRef := none
  lifecycle := .active
  visibility := provenance.visibility
  containerRef := some provenance.containerRef
  actorRef := some provenance.actorRef
  origin := some "agent_explicit"
  named := ids.named
  live := nofun

def rememberMemory (rules : ExplicitRules) (ids : ExplicitIds) (request : RememberRequest) :
    ExplicitProgram :=
  if request.type ∉ allowedMemoryTypes then .done (.error (.memoryType request.type))
  else
    match validateExplicitProvenance rules request.provenance with
    | .error error => .done (.error error)
    | .ok provenance =>
      let memory := request.memory ids provenance
      attempt (.createMemoryObject memory) <| returned fun _ =>
        attempt (.markMemoryOrigin memory.id "agent_explicit" (some provenance.threadRef)
            (some provenance.agentRef)) <| returned fun _ =>
          attempt (.createIndexEntry (lexicalEntry rules ids memory.id request.text)) <|
            returned fun _ =>
              -- the vector entry is optional: whatever becomes of it, the call returns
              .call (.createIndexEntry (vectorEntry ids memory.id request.text)) fun _ =>
                .done (.ok memory.id)

structure CorrectRequest where
  memoryObjectId : String
  correctedText : String
  reason : String
  inScope : MemoryObjectRecord → Bool

def CorrectRequest.newPayload (request : CorrectRequest) (existing : MemoryObjectRecord) : Payload :=
  { existing.payload with
    statement := some request.correctedText
    source := some "agent_explicit_correction" }

/-- `correct_memory` up to the work on the vector index, which writes none of the
tables. -/
def correctMemory (rules : ExplicitRules) (ids : ExplicitIds) (request : CorrectRequest) :
    ExplicitProgram :=
  attempt (.getMemoryObject request.memoryObjectId) <| returned fun existing =>
    if request.inScope existing then
      attempt (.listIndexEntries request.memoryObjectId) <| returned fun _ =>
        attempt (.correctMemoryPayload request.memoryObjectId (request.newPayload existing)
            request.reason (explicitWriteIndexEntries rules ids request.memoryObjectId
              request.correctedText)) <| returned fun _ =>
          .done (.ok request.memoryObjectId)
    else .done (.error (.outOfScope existing.id))

structure SupersedeRequest where
  newText : String
  supersedesId : String
  reason : Option String
  type : Option String
  provenance : Provenance
  inScope : MemoryObjectRecord → Bool

/-- `type or old.type`. -/
def SupersedeRequest.resolvedType (request : SupersedeRequest) (old : MemoryObjectRecord) :
    String :=
  if request.type.getD "" = "" then old.type else request.type.getD ""

/-- The memory that `supersede_memory` stores. -/
def SupersedeRequest.memory (request : SupersedeRequest) (ids : ExplicitIds)
    (provenance : ValidProvenance) (old : MemoryObjectRecord) : MemoryObject where
  id := ids.memoryId
  type := request.resolvedType old
  payload :=
    { Payload.empty with
      statement := some request.newText
      source := some "agent_explicit_supersede"
      supersedesId := some request.supersedesId }
  envelopeContainerRef := none
  lifecycle := .active
  visibility := provenance.visibility
  containerRef := some provenance.containerRef
  actorRef := some provenance.actorRef
  origin := some "agent_explicit"
  named := ids.named
  live := nofun

def supersedeMemory (rules : ExplicitRules) (ids : ExplicitIds) (request : SupersedeRequest) :
    ExplicitProgram :=
  attempt (.getMemoryObject request.supersedesId) <| returned fun old =>
    if request.inScope old then
      match validateExplicitProvenance rules request.provenance with
      | .error error => .done (.error error)
      | .ok provenance =>
        if request.resolvedType old ∉ allowedMemoryTypes then
          .done (.error (.memoryType (request.resolvedType old)))
        else
          let memory := request.memory ids provenance old
          attempt (.createExplicitSupersession request.supersedesId memory
              (explicitWriteIndexEntries rules ids memory.id request.newText)
              provenance.threadRef provenance.agentRef request.reason) <| returned fun _ =>
            .done (.ok memory.id)
    else .done (.error (.outOfScope old.id))

end Pallium.Memory
