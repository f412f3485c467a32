import Pallium.Queue.PackageTasks

/-!
# Source items of the processing queue

A source item without package tasks is claimed, failed and committed as a whole.
The claim passes over items that have unfinished tasks.  When packages are
disabled, their tasks and the items without tasks of their use case are skipped;
what becomes of their rebuild requests is left to the rest of the database.
-/

namespace Pallium.Queue

open Pallium.Transaction

variable {σ : Type}

namespace SourceItemRecord

/-- What a claim of items selects, apart from their tasks. -/
def eligible (now : ℤ) (maxAttempts : ℕ) (item : SourceItemRecord) : Bool :=
  item.useCase.isSome && decide (item.processingAttempts < maxAttempts) &&
    match item.processingStatus with
    | .pending => item.processingNextAttemptAt.all fun retry => retry ≤ now
    | .failed => item.processingNextAttemptAt.any fun retry => retry ≤ now
    | .processing => item.processingLeaseExpiresAt.any fun lease => lease ≤ now
    | .completed => false
    | .skipped => false

def claim (workerId : String) (leaseSeconds now : ℤ) (item : SourceItemRecord) :
    SourceItemRecord :=
  { item with
    processingStatus := .processing
    processingAttempts := item.processingAttempts + 1
    processingClaimedBy := some workerId
    processingClaimedAt := some now
    processingLeaseExpiresAt := some (now + max 1 leaseSeconds * 1000000)
    processingNextAttemptAt := none }

/-- Whether the claim of the worker with this attempt number is current. -/
def heldBy (workerId : String) (attempts : ℕ) (item : SourceItemRecord) : Bool :=
  item.processingStatus == .processing && item.processingClaimedBy == some workerId &&
    item.processingAttempts == attempts

/-- `failureCategory` is what the call writes to the metadata, if it does. -/
def fail (error : String) (nextAttemptAt : Option ℤ) (final : Bool)
    (failureCategory : Option (Option String)) (finishedAt : ℤ) (item : SourceItemRecord) :
    SourceItemRecord :=
  { item with
    processingStatus := if final then .failed else .pending
    processingError := some error
    processingClaimedBy := none
    processingClaimedAt := none
    processingLeaseExpiresAt := none
    processingCompletedAt := if final then some finishedAt else none
    processingNextAttemptAt := nextAttemptAt
    failureCategory := failureCategory.getD item.failureCategory }

def complete (failureCategory : Option (Option String)) (finishedAt : ℤ)
    (item : SourceItemRecord) : SourceItemRecord :=
  { item with
    processingStatus := .completed
    processingCompletedAt := some finishedAt
    processingError := none
    processingClaimedBy := none
    processingClaimedAt := none
    processingLeaseExpiresAt := none
    processingNextAttemptAt := none
    failureCategory := failureCategory.getD item.failureCategory }

/-- The item of a disabled package. -/
def cancel (finishedAt : ℤ) (item : SourceItemRecord) : SourceItemRecord :=
  { item with
    processingStatus := .skipped
    processingError := some "package_disabled"
    processingClaimedBy := none
    processingClaimedAt := none
    processingLeaseExpiresAt := none
    processingCompletedAt := some finishedAt
    processingNextAttemptAt := none }

end SourceItemRecord

/-- The task of a disabled package. -/
def PackageProcessingStatusRecord.cancel (finishedAt : ℤ) (record : PackageProcessingStatusRecord) :
    PackageProcessingStatusRecord :=
  { record.unclaim with
    status := .skipped
    error := some "package_disabled"
    completedAt := some finishedAt
    nextAttemptAt := none }

/-- The states in which work is cancelled. -/
def ProcessingStatus.open (status : ProcessingStatus) : Bool :=
  status == .pending || status == .failed || status == .processing

namespace QueueStore

/-- Whether the item has a pending or processing task. -/
def unfinished (store : QueueStore σ) (sourceItemId : String) : Bool :=
  (store.tasksOf sourceItemId).any fun record =>
    record.status == .pending || record.status == .processing

end QueueStore

def itemOrder (left right : SourceItemRecord) : Prop :=
  left.createdAt < right.createdAt ∨ left.createdAt = right.createdAt ∧ left.id ≤ right.id

instance : DecidableRel itemOrder := fun _ _ => inferInstanceAs (Decidable (_ ∨ _ ∧ _))

/-- The eligible item without unfinished tasks which is next in order. -/
def QueueStore.nextItem (store : QueueStore σ) (maxAttempts : ℕ) (now : ℤ) :
    Option SourceItemRecord :=
  let candidates := store.sourceItems.rows.filter fun item =>
    item.eligible now maxAttempts && !store.unfinished item.id
  (candidates.insertionSort itemOrder).head?

def claimNextSourceItem (workerId : String) (leaseSeconds : ℤ) (maxAttempts : ℕ) (now : ℤ)
    (store : QueueStore σ) : QueueStore σ × Option SourceItemRecord :=
  match store.nextItem maxAttempts now with
  | none => (store, none)
  | some item =>
    ({ store with
        sourceItems := store.sourceItems.modify item.id
          (SourceItemRecord.claim workerId leaseSeconds now) },
      some (item.claim workerId leaseSeconds now))

/-- Whether a call for the item is turned away: a worker has to hold the claim. -/
def SourceItemRecord.fenced (item : SourceItemRecord) (workerId : Option String)
    (attempts : Option ℕ) : Except QueueError Bool :=
  match workerId with
  | none => pure false
  | some worker => do
    let number ← orRaise attempts (.value "attempts is required with worker_id")
    pure (!item.heldBy worker number)

def failSourceItemProcessingBody (sourceItemId error : String) (nextAttemptAt : Option ℤ)
    (final : Bool) (failureCategory : Option (Option String)) (workerId : Option String)
    (attempts : Option ℕ) (finishedAt : ℤ) (store : QueueStore σ) :
    Except QueueError (QueueStore σ × Bool) := do
  let item ← orRaise (store.sourceItems.get sourceItemId) (.other sourceItemId)
  let fenced ← item.fenced workerId attempts
  if fenced then pure (store, false)
  else
    pure ({ store with
      sourceItems := store.sourceItems.modify sourceItemId
        (SourceItemRecord.fail error nextAttemptAt final failureCategory finishedAt) }, true)

def failSourceItemProcessing (sourceItemId error : String) (nextAttemptAt : Option ℤ)
    (final : Bool) (failureCategory : Option (Option String)) (workerId : Option String)
    (attempts : Option ℕ) (finishedAt : ℤ) (store : QueueStore σ) :
    QueueStore σ × Except QueueError Bool :=
  transaction
    (failSourceItemProcessingBody sourceItemId error nextAttemptAt final failureCategory workerId
      attempts finishedAt) store

def commitProcessedSourceItemBody (sourceItemId : String) (persist : Persist σ)
    (failureCategory : Option (Option String)) (workerId : Option String) (attempts : Option ℕ)
    (finishedAt : ℤ) (store : QueueStore σ) :
    Except QueueError (QueueStore σ × Option (List (String × String))) := do
  let item ← orRaise (store.sourceItems.get sourceItemId) (.other sourceItemId)
  let fenced ← item.fenced workerId attempts
  if fenced then pure (store, none)
  else do
    let (rest, pairs) ← persist store.rest
    pure ({ store with
      sourceItems := store.sourceItems.modify sourceItemId
        (SourceItemRecord.complete failureCategory finishedAt)
      rest := rest }, some pairs)

def commitProcessedSourceItem (sourceItemId : String) (persist : Persist σ)
    (failureCategory : Option (Option String)) (workerId : Option String) (attempts : Option ℕ)
    (finishedAt : ℤ) (store : QueueStore σ) :
    QueueStore σ × Except QueueError (Option (List (String × String))) :=
  transaction
    (commitProcessedSourceItemBody sourceItemId persist failureCategory workerId attempts
      finishedAt) store

structure CancelCounts where
  packageTasks : ℕ
  legacySourceItems : ℕ
  rebuildScopes : ℕ
  deriving DecidableEq, Repr

namespace QueueStore

/-- Skip the open tasks of the packages and bring their items up to date. -/
def cancelTasks (store : QueueStore σ) (packageNames : List String) (finishedAt : ℤ) :
    QueueStore σ :=
  let cancelled := fun record : PackageProcessingStatusRecord =>
    packageNames.contains record.packageName && record.status.open
  let tasks := store.tasks.rows.filter cancelled
  let store :=
    { store with
      tasks := store.tasks.updateAll fun record =>
        if cancelled record then record.cancel finishedAt else record }
  (tasks.map PackageProcessingStatusRecord.sourceItemId).dedup.foldl
    (fun synced sourceItemId => synced.syncSourceItem sourceItemId finishedAt) store

/-- Whether the item has no tasks and is open work of one of the packages. -/
def legacyOpen (store : QueueStore σ) (packageNames : List String) (item : SourceItemRecord) :
    Bool :=
  item.useCase.any packageNames.contains && item.processingStatus.open &&
    (store.tasksOf item.id).isEmpty

/-- Skip the open items of the packages that have no tasks. -/
def cancelItems (store : QueueStore σ) (packageNames : List String) (finishedAt : ℤ) :
    QueueStore σ :=
  { store with
    sourceItems := store.sourceItems.updateAll fun item =>
      if store.legacyOpen packageNames item then item.cancel finishedAt else item }

end QueueStore

/-- `cancel_disabled_package_work`, where `clearScopes` clears the rebuild
requests of the packages and counts them. -/
def cancelDisabledPackageWork (packageNames : List String) (clearScopes : σ → σ × ℕ)
    (finishedAt : ℤ) (store : QueueStore σ) : QueueStore σ × CancelCounts :=
  if packageNames.isEmpty then (store, ⟨0, 0, 0⟩)
  else
    let tasks := store.tasks.rows.countP fun record =>
      packageNames.contains record.packageName && record.status.open
    let store := store.cancelTasks packageNames finishedAt
    let items := store.sourceItems.rows.countP (store.legacyOpen packageNames)
    let store := store.cancelItems packageNames finishedAt
    let scopes := clearScopes store.rest
    ({ store with rest := scopes.1 }, ⟨tasks, items, scopes.2⟩)

/-- `create_source_item` of an item that is to be processed as a whole. -/
def createSourceItem (item : SourceItemRecord) (store : QueueStore σ) :
    QueueStore σ × Except QueueError Unit :=
  transaction (fun store => do
    let sourceItems ← orRaise (store.sourceItems.insertNew item) .integrity
    pure ({ store with sourceItems := sourceItems }, ())) store

end Pallium.Queue
