import Pallium.Ingest.Storage

/-!
# Ingest of source items

An ingest settles the relay attribution of the item, returns an item that is
already stored, and otherwise creates the item and then its index entries.  Text
functions of the host (the canonical form of a container, redaction, the check of
the work references in metadata, the forms in which content is indexed and
embedded) and the configured packages are given.
-/

namespace Pallium.Ingest

open Pallium.Access Pallium.Calls Pallium.Text

/-- A configured package. -/
structure Plugin where
  name : String
  parallelProcessing : Bool
  requiresVisibilityContext : Bool
  deriving DecidableEq, Repr

/-- The configuration of the service and the text functions it uses. -/
structure Setup extends WorkRefRules where
  configuredUseCases : List String
  defaultUseCase : String
  semanticPlugins : List Plugin
  canonicalizeContainerRef : String → String
  sanitizeWorkRefMetadata : Option Json → Option Json
  normalizeForIndex : String → String
  embeddingText : SourceItem → Option String

structure IngestRequest where
  sourceType : String
  sourceId : String
  content : String
  metadata : Option Json
  useCase : Option String
  actorRef : Option String
  role : Option String
  containerRef : Option String
  threadRef : Option String
  artifactKind : Option String
  visibility : Option Visibility
  sourceTurnId : Option String
  relayName : Option String
  relayAttributionState : AttributionState

/-- The identifiers that an ingest draws and the clock reading it uses. -/
structure Draws where
  itemId : String
  lexicalEntryId : String
  vectorEntryId : String
  now : ℤ
  deriving DecidableEq, Repr

structure IngestResult where
  sourceItemId : String
  indexEntryIds : List String
  processingStatus : Queue.ProcessingStatus
  processingError : Option String
  deriving DecidableEq, Repr

inductive IngestError
  | storage
  | integrity (error : IntegrityError)
  | snapshotConflict (text : String)
  | value (text : String)
  | missing (sourceItemId : String)
  deriving DecidableEq, Repr

abbrev IngestProgram := Program Request.Answer (Except IngestError IngestResult)

def sourceItemContentTextView : String := "source_item.content"

def sourceItemVectorTextView : String := "source_content.embedding"

def roleHistorySourceTypes : List String := ["codex", "claude-code", "opencode", "hermes"]

section Validation

/-- The categories `Cc`, `Zl` and `Zp`. -/
def isControl (c : Char) : Bool :=
  c.toNat < 0x20 || (0x7F ≤ c.toNat && c.toNat ≤ 0x9F) || c.toNat == 0x2028 || c.toNat == 0x2029

/-- `str.lower` of a character, as far as it yields characters of an alias: the
Kelvin sign is the only character outside ASCII that does. -/
def lowerChar (c : Char) : Char := if c.toNat == 0x212A then 'k' else c.toLower

/-- Whether the character may stand in an alias after the first place. -/
def isAliasChar (c : Char) : Bool :=
  ('a' ≤ c && c ≤ 'z') || ('0' ≤ c && c ≤ '9') || c == '_' || c == '-'

/-- `validate_alias`, without a value where it raises. -/
def validateAlias (value : String) : Option String :=
  if value = "" || value ≠ strip value || 32 < value.length || value.toList.any isControl then none
  else
    match value.toList.map lowerChar with
    | [] => none
    | first :: rest =>
      if first ≠ '_' ∧ first ≠ '-' ∧ isAliasChar first ∧ rest.all isAliasChar then
        some (String.ofList (first :: rest))
      else none

/-- A control character in the sense of a turn id. -/
def isTurnControl (c : Char) : Bool :=
  c.toNat < 0x20 || (0x7F ≤ c.toNat && c.toNat ≤ 0x9F)

/-- Whether the turn id can key a turn. -/
def validTurnId (sourceTurnId : String) : Bool :=
  sourceTurnId ≠ "" && sourceTurnId == strip sourceTurnId && sourceTurnId.length ≤ 512 &&
    !sourceTurnId.toList.any isTurnControl

end Validation

/-- Whether the request is for a user or assistant row of a role history. -/
def IngestRequest.roleHistorySource (request : IngestRequest) : Bool :=
  roleHistorySourceTypes.contains request.sourceType &&
    (request.role == some "user" || request.role == some "assistant")

/-- The turn of a request whose key is valid. -/
def IngestRequest.validTurn (request : IngestRequest) (containerRef : Option String) :
    Option TurnKey :=
  match request.sourceTurnId, containerRef, request.threadRef with
  | some sourceTurnId, some containerRef, some threadRef =>
    if validTurnId sourceTurnId ∧ containerRef ≠ "" ∧ strip threadRef ≠ "" then
      some ⟨request.sourceType, containerRef, threadRef, sourceTurnId⟩
    else none
  | _, _, _ => none

section Redaction

variable (redactSensitive : String → String)

mutual

def redactIngestValue : Json → Json
  | .string value => .string (redactSensitive value)
  | .array items => .array (redactIngestItems items)
  | .object fields => .object (redactIngestFields fields)
  | value => value

def redactIngestItems : List Json → List Json
  | [] => []
  | item :: rest => redactIngestValue item :: redactIngestItems rest

def redactIngestFields : List (String × Json) → List (String × Json)
  | [] => []
  | (name, value) :: rest => (name, redactIngestValue value) :: redactIngestFields rest

end

end Redaction

/-- What an ingest settles about the attribution of its item. -/
structure Attribution where
  roleHistorySource : Bool
  sourceTurnId : Option String
  relayName : Option String
  relayAttributionState : AttributionState
  priorTurnSnapshot : Option SourceItem

/-- The name and state that a user row with a valid key asks for. -/
def IngestRequest.requestedAttribution (request : IngestRequest) :
    Option String × AttributionState :=
  match request.relayAttributionState with
  | .named =>
    match request.relayName.bind validateAlias with
    | some canonicalName => (some canonicalName, .named)
    | none => (none, .unavailable)
  | .unnamed => if request.relayName.isNone then (none, .unnamed) else (none, .unavailable)
  | .unavailable => (none, .unavailable)
  | .unknown => (none, .unavailable)

def conflict (text : String) : IngestProgram := .done (.error (.snapshotConflict text))

/-- Look up the user row of the turn. -/
def findSnapshot (turn : TurnKey) (next : Option SourceItem → IngestProgram) : IngestProgram :=
  ask (.error .storage) (.findSourceTurnSnapshot turn) fun found =>
    match found with
    | .error () => conflict "conflicting source turn snapshot"
    | .ok snapshot => next snapshot

/-- Settle the attribution.  A user row keeps to the row that its turn already has;
an assistant row takes over the attribution of the user row of its turn. -/
def resolveAttribution (request : IngestRequest) (containerRef : Option String)
    (next : Attribution → IngestProgram) : IngestProgram :=
  if request.roleHistorySource then
    match request.validTurn containerRef with
    | none => next ⟨true, none, none, .unavailable, none⟩
    | some turn =>
      findSnapshot turn fun snapshot =>
        if request.role = some "user" then
          let (relayName, state) := request.requestedAttribution
          match snapshot with
          | none => next ⟨true, some turn.sourceTurnId, relayName, state, none⟩
          | some prior =>
            if prior.forgottenAt.isSome then conflict "source turn snapshot has been forgotten"
            else if prior.relayName ≠ relayName ∨ prior.relayAttributionState ≠ state then
              conflict "conflicting source turn snapshot"
            else next ⟨true, some turn.sourceTurnId, relayName, state, some prior⟩
        else
          match snapshot with
          | none => conflict "source turn snapshot is unavailable"
          | some prior =>
            if prior.forgottenAt.isSome then conflict "source turn snapshot has been forgotten"
            else
              next ⟨true, some turn.sourceTurnId, prior.relayName,
                prior.relayAttributionState, some prior⟩
  else next ⟨false, none, none, .unknown, none⟩

def validateRoleSourceDedupe (existing : SourceItem) (request : IngestRequest)
    (containerRef : Option String) (attribution : Attribution) : Except IngestError Unit :=
  if !attribution.roleHistorySource then .ok ()
  else if existing.forgottenAt.isSome ∨ existing.role ≠ request.role ∨
      existing.containerRef ≠ containerRef ∨ existing.threadRef ≠ request.threadRef ∨
      existing.sourceTurnId ≠ attribution.sourceTurnId then
    .error (.snapshotConflict "conflicting source item identity")
  else if attribution.sourceTurnId.isSome ∧
      (existing.relayName ≠ attribution.relayName ∨
        existing.relayAttributionState ≠ attribution.relayAttributionState) then
    .error (.snapshotConflict "conflicting source turn snapshot")
  else .ok ()

def buildIngestResult (item : SourceItem) : IngestProgram :=
  ask (.error .storage) (.listIndexEntriesForTarget item.id) fun entries =>
    .done (.ok ⟨item.id, entries.map IndexEntry.id, item.processingStatus, item.processingError⟩)

/-- `build_source_item_vector_entry`, whose failures are swallowed. -/
def buildSourceItemVectorEntry (setup : Setup) (draws : Draws) (item : SourceItem)
    (next : IngestProgram) : IngestProgram :=
  match setup.embeddingText item with
  | none => next
  | some text =>
    .call (.findIndexEntry item.id .vector sourceItemVectorTextView) fun found =>
      match found with
      | none => next
      | some (some _) => next
      | some none =>
        .call (.createIndexEntry
          ⟨draws.vectorEntryId, item.id, .vector, text, sourceItemVectorTextView⟩)
          fun _ => next

/-- Return the stored item under the source id. -/
def returnExisting (setup : Setup) (draws : Draws) (request : IngestRequest)
    (containerRef : Option String) (attribution : Attribution) (existing : SourceItem) :
    IngestProgram :=
  match validateRoleSourceDedupe existing request containerRef attribution with
  | .error error => .done (.error error)
  | .ok () => buildSourceItemVectorEntry setup draws existing (buildIngestResult existing)

/-- The packages that process an item of the requested package. -/
def Setup.activePackages (setup : Setup) (requestedPackage : String) : List Plugin :=
  (setup.semanticPlugins.find? fun plugin => plugin.name == requestedPackage).toList ++
    setup.semanticPlugins.filter fun plugin =>
      plugin.name != requestedPackage && plugin.parallelProcessing

def newSourceItem (setup : Setup) (draws : Draws) (request : IngestRequest)
    (containerRef : Option String) (attribution : Attribution) (requestedPackage : String)
    (activePackages skipPackages : List Plugin) : SourceItem :=
  let skipped := !activePackages.isEmpty && skipPackages.length == activePackages.length
  { id := draws.itemId
    sourceType := request.sourceType
    sourceId := request.sourceId
    content :=
      if request.artifactKind = some "note" ∨ request.content = "" then request.content
      else setup.redactSensitive request.content
    metadata :=
      setup.sanitizeWorkRefMetadata
        (if request.artifactKind = some "note" then request.metadata
        else request.metadata.map (redactIngestValue setup.redactSensitive))
    actorRef := request.actorRef
    role := request.role
    containerRef := containerRef
    threadRef := request.threadRef
    artifactKind := request.artifactKind
    visibility := request.visibility
    sourceTurnId := attribution.sourceTurnId
    relayName := attribution.relayName
    relayAttributionState := attribution.relayAttributionState
    useCase :=
      if setup.semanticPlugins.any fun plugin => plugin.name == requestedPackage then
        some requestedPackage
      else none
    processingStatus :=
      if skipped then .skipped else if activePackages.isEmpty then .completed else .pending
    processingError := if skipped then some "visibility_context_required" else none
    createdAt := draws.now
    forgottenAt := none }

/-- After an integrity error: the item may be stored by now, or the turn may have
its user row. -/
def recover (request : IngestRequest) (containerRef : Option String) (attribution : Attribution)
    (error : IntegrityError) : IngestProgram :=
  ask (.error .storage) (.findSourceItem request.sourceType request.sourceId) fun found =>
    match found with
    | some existing =>
      match validateRoleSourceDedupe existing request containerRef attribution with
      | .error error => .done (.error error)
      | .ok () => buildIngestResult existing
    | none =>
      match request.validTurn containerRef with
      | some turn =>
        if error = .userTurn ∧ attribution.roleHistorySource ∧ request.role = some "user" then
          findSnapshot turn fun snapshot =>
            match snapshot with
            | none => .done (.error (.integrity error))
            | some prior =>
              if prior.forgottenAt.isSome ∨ prior.relayName ≠ attribution.relayName ∨
                  prior.relayAttributionState ≠ attribution.relayAttributionState then
                conflict "conflicting source turn snapshot"
              else buildIngestResult prior
        else .done (.error (.integrity error))
      | none => .done (.error (.integrity error))

/-- Create the item, and then its index entries. -/
def createItem (setup : Setup) (draws : Draws) (request : IngestRequest)
    (containerRef : Option String) (attribution : Attribution) : IngestProgram :=
  let requestedPackage := (request.useCase.filter (· ≠ "")).getD setup.defaultUseCase
  if request.useCase.isSome ∧ requestedPackage ∉ setup.configuredUseCases then
    .done (.error (.value ("Unsupported use case: " ++ requestedPackage)))
  else
    let activePackages := setup.activePackages requestedPackage
    let skipPackages := activePackages.filter fun plugin =>
      plugin.requiresVisibilityContext && (containerRef.isNone || request.visibility.isNone)
    let item := newSourceItem setup draws request containerRef attribution requestedPackage
      activePackages skipPackages
    ask (.error .storage)
      (.createSourceItemWithPackages item (activePackages.map Plugin.name)
        (skipPackages.map Plugin.name) draws.now) fun created =>
      match created with
      | .error error => recover request containerRef attribution error
      | .ok () =>
        ask (.error .storage)
          (.createIndexEntry ⟨draws.lexicalEntryId, item.id, .lexical,
            setup.normalizeForIndex item.content, sourceItemContentTextView⟩) fun indexed =>
          match indexed with
          | .error error => .done (.error (.integrity error))
          | .ok () =>
            buildSourceItemVectorEntry setup draws item
              (ask (.error .storage) (.getSourceItem item.id) fun stored =>
                match stored with
                | none => .done (.error (.missing item.id))
                | some stored => buildIngestResult stored)

def ingestItem (setup : Setup) (draws : Draws) (request : IngestRequest) : IngestProgram :=
  let containerRef := request.containerRef.map setup.canonicalizeContainerRef
  resolveAttribution request containerRef fun attribution =>
    ask (.error .storage) (.findSourceItem request.sourceType request.sourceId) fun found =>
      match found with
      | some existing => returnExisting setup draws request containerRef attribution existing
      | none =>
        if request.role = some "user" ∧ attribution.roleHistorySource then
          match attribution.priorTurnSnapshot with
          | some prior => buildIngestResult prior
          | none => createItem setup draws request containerRef attribution
        else createItem setup draws request containerRef attribution

end Pallium.Ingest
