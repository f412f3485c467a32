import Pallium.Core.Calendar
import Pallium.Core.Table
import Pallium.Workstreams.Signals

/-!
# The assignment cascade

An item joins the open workstream with which it shares its strongest signal, or one that
was touched shortly before in its thread.  Otherwise its signals open a workstream whose
id is their hash, and an item without signals gets an id of its container, thread and
time bucket.
-/

namespace Pallium.Workstreams

open Pallium.Calendar

/-- The container and visibility whose workstreams are searched together. -/
structure Scope where
  containerRef : String
  visibility : String
  deriving DecidableEq, Repr

/-- A workstream in the registry.  Its last touch is always set. -/
structure WorkstreamRecord where
  workstreamId : String
  containerRef : String
  visibility : String
  workRefs : Finset String
  filePaths : Finset String
  fileDirs : Finset String
  symbols : Finset String
  commands : Finset String
  titles : Finset String
  titleNgrams : Finset (List String)
  anchors : Finset String
  lastTouchedThread : Option String
  lastTouchedAt : ℤ
  openedAt : ℤ
  closed : Bool
  deriving DecidableEq

instance : Keyed WorkstreamRecord String := ⟨WorkstreamRecord.workstreamId⟩

@[simp]
theorem key_workstreamRecord (record : WorkstreamRecord) : key record = record.workstreamId := rfl

/-- The registry in the order in which its workstreams were added. -/
abbrev Registry := Table WorkstreamRecord

/-- The signals on which an item and a workstream are compared, the strongest first. -/
inductive Kind
  | workRefs
  | fileDirs
  | symbols
  | titleNgrams
  | anchors
  deriving DecidableEq, Repr

def Kind.all : List Kind := [.workRefs, .fileDirs, .symbols, .titleNgrams, .anchors]

inductive Stage
  | workRefsMatch
  | filePathOverlap
  | symbolOverlap
  | explicitTitleMatch
  | subjectAnchorMatch
  | sameThreadRecency
  | openNew
  | selfRefAttach
  | unknownPseudoId
  deriving DecidableEq, Repr

/-- The stage at which a kind of signal is compared. -/
def Kind.stage : Kind → Stage
  | .workRefs => .workRefsMatch
  | .fileDirs => .filePathOverlap
  | .symbols => .symbolOverlap
  | .titleNgrams => .explicitTitleMatch
  | .anchors => .subjectAnchorMatch

namespace WorkstreamRecord

variable (host : Host) (record : WorkstreamRecord) (signals : ItemSignals)

def scope : Scope := ⟨record.containerRef, record.visibility⟩

def mergeSignals : WorkstreamRecord :=
  { record with
    workRefs := record.workRefs ∪ signals.workRefs
    filePaths := record.filePaths ∪ signals.filePaths
    fileDirs := record.fileDirs ∪ signals.fileDirs
    symbols := record.symbols ∪ signals.symbols
    commands := record.commands ∪ signals.commands
    titles := record.titles ∪ signals.titles
    titleNgrams := record.titleNgrams ∪ signals.titleNgrams host
    anchors := record.anchors ∪ signals.anchors }

def attach (threadRef : Option String) (createdAt : ℤ) : WorkstreamRecord :=
  { record.mergeSignals host signals with
    lastTouchedThread := threadRef
    lastTouchedAt := createdAt }

/-- Whether the item shares a value of the kind with the workstream. -/
def overlaps : Kind → Bool
  | .workRefs => (signals.workRefs ∩ record.workRefs).Nonempty
  | .fileDirs => (signals.fileDirs ∩ record.fileDirs).Nonempty
  | .symbols => (signals.symbols ∩ record.symbols).Nonempty
  | .titleNgrams => (signals.titleNgrams host ∩ record.titleNgrams).Nonempty
  | .anchors => (signals.anchors ∩ record.anchors).Nonempty

/-- `_signals_subset_of`. -/
def covers : Bool :=
  signals.workRefs ⊆ record.workRefs && signals.fileDirs ⊆ record.fileDirs &&
    signals.symbols ⊆ record.symbols && signals.titleNgrams host ⊆ record.titleNgrams &&
      signals.anchors ⊆ record.anchors

/-- Both sides have values, and none in common. -/
def disjointSets (values others : Finset String) : Bool :=
  values ≠ ∅ && others ≠ ∅ && values ∩ others = ∅

def stronglyDisagrees : Bool :=
  disjointSets signals.workRefs record.workRefs || disjointSets signals.fileDirs record.fileDirs ||
    disjointSets signals.anchors record.anchors

end WorkstreamRecord

/-- `RECENCY_WINDOW`, thirty minutes in microseconds. -/
def recencyWindow : ℤ := 30 * 60 * 1000000

/-- Fourteen days in microseconds. -/
def openWindow : ℤ := 14 * 86400 * 1000000

/-- The record after an access that closes it if its scope is searched and it was touched
too long ago. -/
def WorkstreamRecord.expire (scope : Scope) (now : ℤ) (record : WorkstreamRecord) :
    WorkstreamRecord :=
  if record.scope = scope ∧ record.lastTouchedAt < now - openWindow then
    { record with closed := true }
  else record

/-- The order in which open workstreams are searched. -/
def mostRecentFirst (left right : WorkstreamRecord) : Prop :=
  right.lastTouchedAt ≤ left.lastTouchedAt

instance : DecidableRel mostRecentFirst := fun _ _ => inferInstanceAs (Decidable (_ ≤ _))

namespace Registry

variable (registry : Registry) (scope : Scope) (now : ℤ)

/-- The registry after the expired workstreams of a scope were closed. -/
def close : Registry := registry.updateAll fun record => record.expire scope now

/-- `open_records` of the registry in which the expired ones are closed: the most recent
first. -/
def openRecords : List WorkstreamRecord :=
  ((registry.close scope now).rows.filter fun record =>
    record.scope = scope && !record.closed).insertionSort mostRecentFirst

end Registry

/-- `watermark_for`: the bucket of five minutes. -/
def watermarkFor (createdAt : ℤ) : String :=
  let seconds := createdAt / 1000000
  let (year, month, day) := civil (seconds / 86400)
  let ofDay := seconds % 86400
  padded 4 year ++ padded 2 month ++ padded 2 day ++ "T" ++ padded 2 (ofDay / 3600) ++
    padded 2 (ofDay / 60 % 60 / 5 * 5)

def unknownPseudoId (containerRef : String) (threadRef : Option String) (watermark : String) :
    String :=
  "unknown:" ++ containerRef ++ ":" ++ (if threadRef.getD "" = "" then "NULL" else threadRef.getD "")
    ++ ":" ++ watermark

/-- What the cascade decides for an item. -/
inductive Choice
  | attach (stage : Stage) (workstreamId : String)
  | openNew
  | unknown
  deriving DecidableEq, Repr

section Cascade

variable (host : Host) (signals : ItemSignals) (threadRef : Option String) (createdAt : ℤ)
  (opened : List WorkstreamRecord)

/-- The first open workstream that shares a value of the strongest kind that is shared. -/
def findOverlap : Option (Kind × WorkstreamRecord) :=
  Kind.all.findSome? fun kind =>
    (opened.find? fun record => record.overlaps host signals kind).map fun record => (kind, record)

/-- The workstream may take the item because its thread touched it shortly before. -/
def WorkstreamRecord.recent (record : WorkstreamRecord) : Bool :=
  threadRef.isSome && record.lastTouchedThread = threadRef &&
    createdAt - record.lastTouchedAt ≤ recencyWindow && !record.stronglyDisagrees signals

/-- What is chosen when no open workstream shares a signal or was touched shortly before:
strong signals open a workstream unless the most recent one has them all. -/
def chooseAlone : Choice :=
  if signals.hasAnyStrong then
    match opened.head? with
    | none => .openNew
    | some mostRecent =>
      if mostRecent.covers host signals then .attach .selfRefAttach mostRecent.workstreamId
      else .openNew
  else .unknown

/-- The stages of the cascade over the open workstreams. -/
def choose : Choice :=
  match findOverlap host signals opened with
  | some (kind, record) => .attach kind.stage record.workstreamId
  | none =>
    match opened.find? fun record => record.recent signals threadRef createdAt with
    | some record => .attach .sameThreadRecency record.workstreamId
    | none => chooseAlone host signals opened

end Cascade

/-- The assigned workstream and the stage that found it.  Its kind is unknown exactly at
the last stage. -/
structure AssignmentResult where
  workstreamId : String
  stage : Stage
  deriving DecidableEq, Repr

/-- The record of a workstream that an item opens. -/
def openedRecord (host : Host) (scope : Scope) (signals : ItemSignals) (threadRef : Option String)
    (createdAt : ℤ) (workstreamId : String) : WorkstreamRecord where
  workstreamId := workstreamId
  containerRef := scope.containerRef
  visibility := scope.visibility
  workRefs := signals.workRefs
  filePaths := signals.filePaths
  fileDirs := signals.fileDirs
  symbols := signals.symbols
  commands := signals.commands
  titles := signals.titles
  titleNgrams := signals.titleNgrams host
  anchors := signals.anchors
  lastTouchedThread := threadRef
  lastTouchedAt := createdAt
  openedAt := createdAt
  closed := false

/-- `assign_workstream_for_item`.  It raises if the signals that open a workstream give it
no id. -/
def assignWorkstreamForItem (host : Host) (scope : Scope) (signals : ItemSignals)
    (threadRef : Option String) (createdAt : ℤ) (registry : Registry) :
    Option (Registry × AssignmentResult) :=
  let opened := registry.openRecords scope createdAt
  let closed := registry.close scope createdAt
  match choose host signals threadRef createdAt opened with
  | .attach stage workstreamId =>
    some (closed.modify workstreamId fun record =>
      record.attach host signals threadRef createdAt, ⟨workstreamId, stage⟩)
  | .openNew =>
    (signals.resolvedId host).map fun workstreamId =>
      (closed.set (openedRecord host scope signals threadRef createdAt workstreamId),
        ⟨workstreamId, .openNew⟩)
  | .unknown =>
    some (closed, ⟨unknownPseudoId scope.containerRef threadRef (watermarkFor createdAt),
      .unknownPseudoId⟩)

end Pallium.Workstreams
