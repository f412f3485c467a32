import Pallium.Access.Visibility
import Pallium.Access.WorkRef
import Pallium.Core.Calls
import Pallium.Queue.PackageTasks

/-!
# Storage of ingested source items

The tables that an ingest reads and writes, with the two unique indexes of source
items: no two items share a source id, and no two user rows of a role history
share a turn.  Every call is one transaction.  The package tasks of an item are
created together with it; its entry in the full-text table is written together
with its lexical index entry.
-/

namespace Pallium.Ingest

open Pallium.Access

inductive AttributionState
  | named
  | unnamed
  | unavailable
  | unknown
  deriving DecidableEq, Repr

/-- The columns of `source_items` that an ingest reads or writes, and the time at
which the item was forgotten. -/
structure SourceItem where
  id : String
  sourceType : String
  sourceId : String
  content : String
  metadata : Option Json
  actorRef : Option String
  role : Option String
  containerRef : Option String
  threadRef : Option String
  artifactKind : Option String
  visibility : Option Visibility
  sourceTurnId : Option String
  relayName : Option String
  relayAttributionState : AttributionState
  useCase : Option String
  processingStatus : Queue.ProcessingStatus
  processingError : Option String
  createdAt : ℤ
  forgottenAt : Option ℤ

structure SourceItemWorkRef where
  sourceItemId : String
  workRef : String
  deriving DecidableEq, Repr

inductive IndexType
  | lexical
  | vector
  deriving DecidableEq, Repr

/-- An index entry of a source item. -/
structure IndexEntry where
  id : String
  targetId : String
  indexType : IndexType
  textView : String
  textViewName : String
  deriving DecidableEq, Repr

/-- A row of `lexical_fts`. -/
structure LexicalRow where
  indexEntryId : String
  targetId : String
  textView : String
  textViewName : String
  containerRef : Option String
  deriving DecidableEq, Repr

instance : Keyed SourceItem String := ⟨SourceItem.id⟩
instance : Keyed IndexEntry String := ⟨IndexEntry.id⟩

structure Storage where
  sourceItems : Table SourceItem
  workRefs : List SourceItemWorkRef
  packageTasks : Table Queue.PackageProcessingStatusRecord
  indexEntries : Table IndexEntry
  lexicalRows : List LexicalRow

def Storage.empty : Storage := ⟨Table.empty, [], Table.empty, Table.empty, []⟩

/-- The columns of the unique index of user turns. -/
structure TurnKey where
  sourceType : String
  containerRef : String
  threadRef : String
  sourceTurnId : String
  deriving DecidableEq, Repr

/-- The turn of an item, if none of the columns of the index is null. -/
def SourceItem.turnKey (item : SourceItem) : Option TurnKey :=
  item.containerRef.bind fun containerRef =>
    item.threadRef.bind fun threadRef =>
      item.sourceTurnId.map fun sourceTurnId =>
        ⟨item.sourceType, containerRef, threadRef, sourceTurnId⟩

/-- Whether the item is a user row of the turn. -/
def SourceItem.isUserOf (turn : TurnKey) (item : SourceItem) : Bool :=
  item.role == some "user" && item.turnKey == some turn

/-- The row of an item: the column `visibility` takes its default if it is given no
value. -/
def SourceItem.record (item : SourceItem) : SourceItem :=
  { item with visibility := item.visibility.or (some .priv) }

/-- Which constraint an insertion violates. -/
inductive IntegrityError
  | sourceItemId
  | sourceId
  | userTurn
  | package
  | indexEntryId
  deriving DecidableEq, Repr

/-- An exact target of a bulk forget. -/
structure MemoryTargetScope where
  containerRef : String
  actorRef : String
  visibility : Visibility

structure ForgetScope where
  containerRef : String
  threadRef : Option String
  target : Option MemoryTargetScope

/-- Whether a bulk forget reaches the item. -/
def ForgetScope.covers (scope : ForgetScope) (item : SourceItem) : Bool :=
  item.containerRef == some scope.containerRef &&
    scope.threadRef.all (fun threadRef => item.threadRef == some threadRef) &&
    scope.target.all fun target =>
      item.containerRef == some target.containerRef && item.actorRef == some target.actorRef &&
        item.visibility == some target.visibility

namespace Storage

def findSourceItem (storage : Storage) (sourceType sourceId : String) : Option SourceItem :=
  storage.sourceItems.rows.find? fun item =>
    item.sourceType == sourceType && item.sourceId == sourceId

/-- `find_source_turn_snapshot`, which fails if there are several. -/
def findSourceTurnSnapshot (storage : Storage) (turn : TurnKey) :
    Except Unit (Option SourceItem) :=
  match (storage.sourceItems.rows.filter (SourceItem.isUserOf turn)).take 2 with
  | [] => .ok none
  | [item] => .ok (some item)
  | _ => .error ()

/-- `_sync_source_item_work_refs_in_session`. -/
def syncSourceItemWorkRefs (rules : WorkRefRules) (sourceItemId : String) (metadata : Option Json)
    (workRefs : List SourceItemWorkRef) : List SourceItemWorkRef :=
  workRefs.filter (fun row => row.sourceItemId != sourceItemId) ++
    (rules.workRefsFromMetadata metadata).map fun workRef => ⟨sourceItemId, workRef⟩

def createSourceItemWithPackages (rules : WorkRefRules) (storage : Storage) (item : SourceItem)
    (packageNames skipPackages : List String) (now : ℤ) : Except IntegrityError Storage :=
  if item.turnKey.any fun turn =>
      item.role == some "user" && storage.sourceItems.rows.any (SourceItem.isUserOf turn) then
    .error .userTurn
  else if (storage.findSourceItem item.sourceType item.sourceId).isSome then .error .sourceId
  else
    match storage.sourceItems.insertNew item.record with
    | none => .error .sourceItemId
    | some sourceItems =>
      match Queue.addPackageTasks item.id skipPackages (some item.createdAt) now
          storage.packageTasks packageNames with
      | none => .error .package
      | some packageTasks =>
        .ok { storage with
          sourceItems := sourceItems
          workRefs := syncSourceItemWorkRefs rules item.id item.metadata storage.workRefs
          packageTasks := packageTasks }

def createIndexEntry (storage : Storage) (entry : IndexEntry) : Except IntegrityError Storage :=
  match storage.indexEntries.insertNew entry with
  | none => .error .indexEntryId
  | some indexEntries =>
    .ok { storage with
      indexEntries := indexEntries
      lexicalRows :=
        match entry.indexType with
        | .lexical =>
          storage.lexicalRows ++
            [{ indexEntryId := entry.id
               targetId := entry.targetId
               textView := entry.textView
               textViewName := entry.textViewName
               containerRef :=
                (storage.sourceItems.get entry.targetId).bind SourceItem.containerRef }]
        | .vector => storage.lexicalRows }

def findIndexEntry (storage : Storage) (targetId : String) (indexType : IndexType)
    (textViewName : String) : Option IndexEntry :=
  storage.indexEntries.rows.find? fun entry =>
    entry.targetId == targetId && entry.indexType == indexType &&
      entry.textViewName == textViewName

def listIndexEntriesForTarget (storage : Storage) (targetId : String) : List IndexEntry :=
  storage.indexEntries.rows.filter fun entry => entry.targetId == targetId

/-- `forget_source_item`; an item that is forgotten already stays as it is. -/
def forgetSourceItem (storage : Storage) (sourceItemId : String) (forgottenAt : ℤ) : Storage :=
  { storage with
    sourceItems := storage.sourceItems.modify sourceItemId fun item =>
      { item with forgottenAt := item.forgottenAt.or (some forgottenAt) } }

def forgetSourceScope (storage : Storage) (scope : ForgetScope) (forgottenAt : ℤ) : Storage :=
  { storage with
    sourceItems := storage.sourceItems.updateAll fun item =>
      if scope.covers item then
        { item with forgottenAt := item.forgottenAt.or (some forgottenAt) }
      else item }

end Storage

/-- The calls of an ingest. -/
inductive Request
  | findSourceItem (sourceType sourceId : String)
  | findSourceTurnSnapshot (turn : TurnKey)
  | createSourceItemWithPackages (item : SourceItem) (packageNames skipPackages : List String)
      (now : ℤ)
  | createIndexEntry (entry : IndexEntry)
  | findIndexEntry (targetId : String) (indexType : IndexType) (textViewName : String)
  | getSourceItem (sourceItemId : String)
  | listIndexEntriesForTarget (targetId : String)

/-- What each call returns. -/
def Request.Answer : Request → Type
  | findSourceItem _ _ => Option SourceItem
  | findSourceTurnSnapshot _ => Except Unit (Option SourceItem)
  | createSourceItemWithPackages _ _ _ _ => Except IntegrityError Unit
  | createIndexEntry _ => Except IntegrityError Unit
  | findIndexEntry _ _ _ => Option IndexEntry
  | getSourceItem _ => Option SourceItem
  | listIndexEntriesForTarget _ => List IndexEntry

/-- A write takes effect or leaves the storage as it was. -/
def Storage.write (storage : Storage) (result : Except IntegrityError Storage) :
    Storage × Except IntegrityError Unit :=
  match result with
  | .error error => (storage, .error error)
  | .ok after => (after, .ok ())

def answer (rules : WorkRefRules) :
    (request : Request) → Storage → Storage × request.Answer
  | .findSourceItem sourceType sourceId, storage =>
    (storage, storage.findSourceItem sourceType sourceId)
  | .findSourceTurnSnapshot turn, storage => (storage, storage.findSourceTurnSnapshot turn)
  | .createSourceItemWithPackages item packageNames skipPackages now, storage =>
    storage.write
      (storage.createSourceItemWithPackages rules item packageNames skipPackages now)
  | .createIndexEntry entry, storage => storage.write (storage.createIndexEntry entry)
  | .findIndexEntry targetId indexType textViewName, storage =>
    (storage, storage.findIndexEntry targetId indexType textViewName)
  | .getSourceItem sourceItemId, storage => (storage, storage.sourceItems.get sourceItemId)
  | .listIndexEntriesForTarget targetId, storage =>
    (storage, storage.listIndexEntriesForTarget targetId)

end Pallium.Ingest
