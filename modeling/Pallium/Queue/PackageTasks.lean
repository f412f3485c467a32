import Pallium.Core.Run
import Pallium.Core.Table
import Pallium.Core.Transaction

/-!
# Package tasks of the processing queue

Every source item has a task for each package that processes it.  Workers claim
a task under a lease, and commit its result or record its failure while the
task still shows their worker id and attempt number; an operator requeues the
failed tasks of an item.  Every operation is one write transaction.  What a
commit persists besides its task lives in the rest `σ` of the database and is
left to the caller.
-/

namespace Pallium.Queue

open Pallium.Transaction

inductive ProcessingStatus
  | pending
  | processing
  | completed
  | failed
  | skipped
  deriving DecidableEq, Repr

/-- A row of `package_processing_status`. -/
structure PackageProcessingStatusRecord where
  sourceItemId : String
  packageName : String
  status : ProcessingStatus
  attempts : ℕ
  error : Option String
  claimedBy : Option String
  claimedAt : Option ℤ
  leaseExpiresAt : Option ℤ
  completedAt : Option ℤ
  nextAttemptAt : Option ℤ
  sourceItemCreatedAt : Option ℤ
  createdAt : ℤ
  deriving DecidableEq, Repr

/-- The part of a row of `source_items` that concerns its processing, with the
failure category of its observability metadata. -/
structure SourceItemRecord where
  id : String
  createdAt : ℤ
  useCase : Option String
  processingStatus : ProcessingStatus
  processingAttempts : ℕ
  processingError : Option String
  processingClaimedBy : Option String
  processingClaimedAt : Option ℤ
  processingLeaseExpiresAt : Option ℤ
  processingCompletedAt : Option ℤ
  processingNextAttemptAt : Option ℤ
  failureCategory : Option String
  deriving DecidableEq, Repr

instance : Keyed PackageProcessingStatusRecord (String × String) :=
  ⟨fun record => (record.sourceItemId, record.packageName)⟩
instance : Keyed SourceItemRecord String := ⟨SourceItemRecord.id⟩

@[simp]
theorem key_packageProcessingStatusRecord (record : PackageProcessingStatusRecord) :
    key record = (record.sourceItemId, record.packageName) := rfl

structure QueueStore (σ : Type) where
  tasks : Table PackageProcessingStatusRecord
  sourceItems : Table SourceItemRecord
  rest : σ

inductive QueueError
  | missing (sourceItemId packageName : String)
  | integrity
  | value (text : String)
  | other (text : String)
  deriving DecidableEq, Repr

variable {σ : Type}

namespace PackageProcessingStatusRecord

/-- The task leaves its claim. -/
def unclaim (record : PackageProcessingStatusRecord) : PackageProcessingStatusRecord :=
  { record with claimedBy := none, claimedAt := none, leaseExpiresAt := none }

def terminal (record : PackageProcessingStatusRecord) : Bool :=
  record.status == .completed || record.status == .skipped || record.status == .failed

/-- A processing task whose lease has run out after the last attempt. -/
def expiredAtLimit (now : ℤ) (maxAttempts : ℕ) (record : PackageProcessingStatusRecord) : Bool :=
  record.status == .processing && decide (maxAttempts ≤ record.attempts) &&
    record.leaseExpiresAt.any fun lease => lease ≤ now

/-- `_finalize_expired_package_leases_at_attempt_limit` of one task. -/
def finalize (now : ℤ) (record : PackageProcessingStatusRecord) : PackageProcessingStatusRecord :=
  { record.unclaim with
    status := .failed
    error := (record.error.filter (· ≠ "")).or
      (some "processing lease expired after maximum attempts")
    completedAt := some now
    nextAttemptAt := none }

/-- What a claim selects. -/
def eligible (now : ℤ) (maxAttempts : ℕ) (record : PackageProcessingStatusRecord) : Bool :=
  decide (record.attempts < maxAttempts) &&
    match record.status with
    | .pending => record.nextAttemptAt.all fun retry => retry ≤ now
    | .failed => record.nextAttemptAt.any fun retry => retry ≤ now
    | .processing => record.leaseExpiresAt.any fun lease => lease ≤ now
    | .completed => false
    | .skipped => false

/-- The task as a claim leaves it. -/
def claim (workerId : String) (leaseSeconds now : ℤ) (record : PackageProcessingStatusRecord) :
    PackageProcessingStatusRecord :=
  { record with
    status := .processing
    attempts := record.attempts + 1
    claimedBy := some workerId
    claimedAt := some now
    leaseExpiresAt := some (now + max 1 leaseSeconds * 1000000)
    nextAttemptAt := none }

/-- Whether the claim of the worker with this attempt number is current. -/
def heldBy (workerId : String) (attempts : Option ℕ) (record : PackageProcessingStatusRecord) :
    Bool :=
  record.status == .processing && record.claimedBy == some workerId &&
    some record.attempts == attempts

def fail (error : String) (nextAttemptAt : Option ℤ) (final : Bool) (finishedAt : ℤ)
    (record : PackageProcessingStatusRecord) : PackageProcessingStatusRecord :=
  { record.unclaim with
    status := if final then .failed else .pending
    error := some error
    completedAt := if final then some finishedAt else none
    nextAttemptAt := nextAttemptAt }

def complete (finishedAt : ℤ) (record : PackageProcessingStatusRecord) :
    PackageProcessingStatusRecord :=
  { record.unclaim with
    status := .completed
    completedAt := some finishedAt
    error := none
    nextAttemptAt := none }

/-- A failed task that is to be processed anew. -/
def requeue (record : PackageProcessingStatusRecord) : PackageProcessingStatusRecord :=
  { record.unclaim with
    status := .pending
    attempts := 0
    error := none
    completedAt := none
    nextAttemptAt := none }

end PackageProcessingStatusRecord

namespace QueueStore

def tasksOf (store : QueueStore σ) (sourceItemId : String) : List PackageProcessingStatusRecord :=
  store.tasks.rows.filter fun record => record.sourceItemId == sourceItemId

/-- `_sync_source_item_if_all_packages_terminal`. -/
def syncSourceItem (store : QueueStore σ) (sourceItemId : String) (finishedAt : ℤ) :
    QueueStore σ :=
  let records := store.tasksOf sourceItemId
  if records.isEmpty || !records.all PackageProcessingStatusRecord.terminal then store
  else
    let failed := records.find? fun record => record.status == .failed
    { store with
      sourceItems := store.sourceItems.modify sourceItemId fun item =>
        { item with
          processingStatus := if failed.isSome then .failed else .completed
          processingCompletedAt := some finishedAt
          processingError := failed.bind PackageProcessingStatusRecord.error
          processingClaimedBy := none
          processingClaimedAt := none
          processingLeaseExpiresAt := none
          processingNextAttemptAt := none
          processingAttempts := (records.map PackageProcessingStatusRecord.attempts).sum } }

/-- `_finalize_expired_package_leases_at_attempt_limit`. -/
def finalizeExpired (store : QueueStore σ) (now : ℤ) (maxAttempts : ℕ) : QueueStore σ :=
  let expired := store.tasks.rows.filter (PackageProcessingStatusRecord.expiredAtLimit now maxAttempts)
  let store :=
    { store with
      tasks := store.tasks.updateAll fun record =>
        if record.expiredAtLimit now maxAttempts then record.finalize now else record }
  (expired.map PackageProcessingStatusRecord.sourceItemId).dedup.foldl
    (fun synced sourceItemId => synced.syncSourceItem sourceItemId now) store

end QueueStore

def taskOrder (left right : PackageProcessingStatusRecord) : Prop :=
  let leftCreated := left.sourceItemCreatedAt.getD left.createdAt
  let rightCreated := right.sourceItemCreatedAt.getD right.createdAt
  leftCreated < rightCreated ∨ leftCreated = rightCreated ∧
    (left.sourceItemId < right.sourceItemId ∨ left.sourceItemId = right.sourceItemId ∧
      left.packageName ≤ right.packageName)

instance : DecidableRel taskOrder := fun _ _ =>
  inferInstanceAs (Decidable (_ ∨ _ ∧ (_ ∨ _ ∧ _)))

/-- What a claim gives to its worker: the task and its number of attempts. -/
structure ClaimedTask where
  sourceItemId : String
  packageName : String
  attempts : ℕ
  deriving DecidableEq, Repr

/-- The eligible task among those that are `wanted` which is next in order. -/
def QueueStore.nextTask (store : QueueStore σ) (wanted : PackageProcessingStatusRecord → Bool)
    (maxAttempts : ℕ) (now : ℤ) : Option PackageProcessingStatusRecord :=
  let candidates := store.tasks.rows.filter fun record =>
    wanted record && record.eligible now maxAttempts
  (candidates.insertionSort taskOrder).head?

/-- The update with which a worker claims the next task. -/
def claimTask (wanted : PackageProcessingStatusRecord → Bool) (workerId : String)
    (leaseSeconds : ℤ) (maxAttempts : ℕ) (now : ℤ) (store : QueueStore σ) :
    QueueStore σ × Option ClaimedTask :=
  let store := store.finalizeExpired now maxAttempts
  match store.nextTask wanted maxAttempts now with
  | none => (store, none)
  | some record =>
    ({ store with
        tasks := store.tasks.modify (key record)
          (PackageProcessingStatusRecord.claim workerId leaseSeconds now) },
      some ⟨record.sourceItemId, record.packageName, record.attempts + 1⟩)

/-- `claim_next_package_task`.  A task without its source item is claimed but not
returned. -/
def claimNextPackageTask (workerId : String) (leaseSeconds : ℤ) (maxAttempts : ℕ) (now : ℤ)
    (store : QueueStore σ) : QueueStore σ × Option ClaimedTask :=
  let (store, claimed) := claimTask (fun _ => true) workerId leaseSeconds maxAttempts now store
  (store, claimed.filter fun task => (store.sourceItems.get task.sourceItemId).isSome)

def claimNextPackageTaskForItem (sourceItemId workerId : String) (leaseSeconds : ℤ)
    (maxAttempts : ℕ) (now : ℤ) (store : QueueStore σ) : QueueStore σ × Option ClaimedTask :=
  claimTask (fun record => record.sourceItemId == sourceItemId) workerId leaseSeconds maxAttempts
    now store

def failPackageTaskBody (sourceItemId packageName error : String) (nextAttemptAt : Option ℤ)
    (final : Bool) (workerId : Option String) (attempts : Option ℕ) (finishedAt : ℤ)
    (store : QueueStore σ) : Except QueueError (QueueStore σ × Bool) := do
  let record ← orRaise (store.tasks.get (sourceItemId, packageName))
    (.missing sourceItemId packageName)
  if workerId.any fun worker => !record.heldBy worker attempts then pure (store, false)
  else
    let store :=
      { store with
        tasks := store.tasks.modify (sourceItemId, packageName)
          (PackageProcessingStatusRecord.fail error nextAttemptAt final finishedAt) }
    pure (if final then store.syncSourceItem sourceItemId finishedAt else store, true)

def failPackageTask (sourceItemId packageName error : String) (nextAttemptAt : Option ℤ)
    (final : Bool) (workerId : Option String) (attempts : Option ℕ) (finishedAt : ℤ)
    (store : QueueStore σ) : QueueStore σ × Except QueueError Bool :=
  transaction
    (failPackageTaskBody sourceItemId packageName error nextAttemptAt final workerId attempts
      finishedAt) store

/-- What a commit persists in the rest of the database, and the supersession
pairs it returns. -/
abbrev Persist (σ : Type) := σ → Except QueueError (σ × List (String × String))

def commitPackageProcessResultBody (sourceItemId : String) (persist : Persist σ)
    (packageName workerId : Option String) (attempts : Option ℕ) (finishedAt : ℤ)
    (store : QueueStore σ) :
    Except QueueError (QueueStore σ × Option (List (String × String))) :=
  match workerId with
  | none => do
    let (rest, pairs) ← persist store.rest
    pure ({ store with rest := rest }, some pairs)
  | some worker => do
    require (packageName.isSome ∧ attempts.isSome)
      (.value "package_name and attempts are required with worker_id")
    let taskKey := (sourceItemId, packageName.getD "")
    if (store.tasks.get taskKey).any (PackageProcessingStatusRecord.heldBy worker attempts) then do
      let (rest, pairs) ← persist store.rest
      let store :=
        { store with
          tasks := store.tasks.modify taskKey (PackageProcessingStatusRecord.complete finishedAt)
          rest := rest }
      pure (store.syncSourceItem sourceItemId finishedAt, some pairs)
    else pure (store, none)

def commitPackageProcessResult (sourceItemId : String) (persist : Persist σ)
    (packageName workerId : Option String) (attempts : Option ℕ) (finishedAt : ℤ)
    (store : QueueStore σ) :
    QueueStore σ × Except QueueError (Option (List (String × String))) :=
  transaction
    (commitPackageProcessResultBody sourceItemId persist packageName workerId attempts
      finishedAt) store

/-- The order in which failed items are retried; items without a completion time
come first. -/
def retryOrder (left right : SourceItemRecord) : Prop :=
  match left.processingCompletedAt, right.processingCompletedAt with
  | none, some _ => True
  | some _, none => False
  | none, none => left.id ≤ right.id
  | some first, some second => first < second ∨ first = second ∧ left.id ≤ right.id

instance : DecidableRel retryOrder := fun left right => by
  unfold retryOrder
  cases left.processingCompletedAt <;> cases right.processingCompletedAt <;> infer_instance

/-- Whether a source item has failed tasks, or failed without tasks. -/
def QueueStore.retryable (store : QueueStore σ) (sourceItemId : String) : Bool :=
  (store.tasksOf sourceItemId).isEmpty ||
    (store.tasksOf sourceItemId).any fun record => record.status == .failed

/-- Requeue one source item with its failed tasks. -/
def QueueStore.requeueItem (store : QueueStore σ) (sourceItemId : String) : QueueStore σ :=
  let tasks := store.tasks.updateAll fun record =>
    if record.sourceItemId == sourceItemId && record.status == .failed then record.requeue
    else record
  let store := { store with tasks := tasks }
  { store with
    sourceItems := store.sourceItems.modify sourceItemId fun item =>
      { item with
        processingStatus := .pending
        processingAttempts :=
          ((store.tasksOf sourceItemId).map PackageProcessingStatusRecord.attempts).sum
        processingError := none
        processingClaimedBy := none
        processingClaimedAt := none
        processingLeaseExpiresAt := none
        processingCompletedAt := none
        processingNextAttemptAt := none
        failureCategory := none } }

def QueueStore.failedTasks (store : QueueStore σ) (sourceItemId : String) : ℕ :=
  (store.tasksOf sourceItemId).countP fun record => record.status == .failed

structure RetryCounts where
  sourceItems : ℕ
  packageTasks : ℕ
  deriving DecidableEq, Repr

/-- The loop of a retry over the selected items. -/
def retryItems (limit : ℤ) (counts : RetryCounts) (store : QueueStore σ) :
    List String → QueueStore σ × RetryCounts
  | [] => (store, counts)
  | sourceItemId :: rest =>
    if store.retryable sourceItemId then
      let counts : RetryCounts :=
        ⟨counts.sourceItems + 1, counts.packageTasks + store.failedTasks sourceItemId⟩
      let store := store.requeueItem sourceItemId
      if limit ≤ counts.sourceItems then (store, counts) else retryItems limit counts store rest
    else retryItems limit counts store rest

/-- `retry_failed_source_items`.  A negative limit does not limit the selection. -/
def retryFailedSourceItems (failureCategory : String) (limit : ℤ) (store : QueueStore σ) :
    QueueStore σ × RetryCounts :=
  let failed := store.sourceItems.rows.filter fun item =>
    item.processingStatus == .failed && item.failureCategory == some failureCategory
  let ordered := failed.insertionSort retryOrder
  let selected := if limit < 0 then ordered else ordered.take limit.toNat
  retryItems limit ⟨0, 0⟩ store (selected.map SourceItemRecord.id)

def addPackageTasks (sourceItemId : String) (skipPackages : List String)
    (sourceItemCreatedAt : Option ℤ) (now : ℤ) (tasks : Table PackageProcessingStatusRecord) :
    List String → Option (Table PackageProcessingStatusRecord)
  | [] => some tasks
  | packageName :: rest =>
    let record : PackageProcessingStatusRecord :=
      { sourceItemId := sourceItemId
        packageName := packageName
        status := if packageName ∈ skipPackages then .skipped else .pending
        attempts := 0
        error := none
        claimedBy := none
        claimedAt := none
        leaseExpiresAt := none
        completedAt := none
        nextAttemptAt := none
        sourceItemCreatedAt := sourceItemCreatedAt
        createdAt := now }
    (tasks.insertNew record).bind fun tasks =>
      addPackageTasks sourceItemId skipPackages sourceItemCreatedAt now tasks rest

def createSourceItemWithPackagesBody (item : SourceItemRecord)
    (packageNames skipPackages : List String) (now : ℤ) (store : QueueStore σ) :
    Except QueueError (QueueStore σ × Unit) := do
  let sourceItems ← orRaise (store.sourceItems.insertNew item) .integrity
  let tasks ← orRaise
    (addPackageTasks item.id skipPackages (some item.createdAt) now store.tasks packageNames)
    .integrity
  pure ({ store with sourceItems := sourceItems, tasks := tasks }, ())

def createSourceItemWithPackages (item : SourceItemRecord)
    (packageNames skipPackages : List String) (now : ℤ) (store : QueueStore σ) :
    QueueStore σ × Except QueueError Unit :=
  transaction (createSourceItemWithPackagesBody item packageNames skipPackages now) store

def createPackageProcessingRecords (sourceItemId : String)
    (packageNames skipPackages : List String) (now : ℤ) (store : QueueStore σ) :
    QueueStore σ × Except QueueError Unit :=
  transaction (fun store => do
    let createdAt := (store.sourceItems.get sourceItemId).map SourceItemRecord.createdAt
    let tasks ← orRaise
      (addPackageTasks sourceItemId skipPackages createdAt now store.tasks packageNames) .integrity
    pure ({ store with tasks := tasks }, ())) store

/-- `update_source_item_metadata` with a failure category. -/
def updateFailureCategory (sourceItemId : String) (failureCategory : Option String)
    (store : QueueStore σ) : QueueStore σ :=
  { store with
    sourceItems := store.sourceItems.modify sourceItemId fun item =>
      { item with failureCategory := failureCategory } }

section Rows

variable {store : QueueStore σ}

@[simp]
theorem tasks_syncSourceItem (store : QueueStore σ) (sourceItemId : String) (finishedAt : ℤ) :
    (store.syncSourceItem sourceItemId finishedAt).tasks = store.tasks := by
  unfold QueueStore.syncSourceItem
  simp only
  split <;> rfl

theorem get_finalizeExpired (store : QueueStore σ) (now : ℤ) (maxAttempts : ℕ)
    (task : String × String) :
    (store.finalizeExpired now maxAttempts).tasks.get task =
      (store.tasks.get task).map fun record =>
        if record.expiredAtLimit now maxAttempts then record.finalize now else record := by
  have hsynced : ∀ (sourceItemIds : List String) (start : QueueStore σ),
      (sourceItemIds.foldl (fun synced sourceItemId => synced.syncSourceItem sourceItemId now)
        start).tasks = start.tasks := by
    intro sourceItemIds
    induction sourceItemIds with
    | nil => exact fun start => rfl
    | cons sourceItemId rest ih =>
      intro start
      rw [List.foldl_cons, ih, tasks_syncSourceItem]
  unfold QueueStore.finalizeExpired
  simp only [hsynced]
  refine Table.get_updateAll _ (fun record => ?_) task
  split <;> rfl

section

variable (wanted : PackageProcessingStatusRecord → Bool) (workerId : String) (leaseSeconds : ℤ)
  (maxAttempts : ℕ) (now : ℤ) (store : QueueStore σ)

/-- A claim finalizes expired leases and then claims nothing or one eligible task. -/
theorem claimTask_cases :
    (∀ task, (claimTask wanted workerId leaseSeconds maxAttempts now store).1.tasks.get task =
          (store.finalizeExpired now maxAttempts).tasks.get task) ∧
        (claimTask wanted workerId leaseSeconds maxAttempts now store).2 = none ∨
      ∃ record, (store.finalizeExpired now maxAttempts).tasks.get (key record) = some record ∧
        (∀ task, (claimTask wanted workerId leaseSeconds maxAttempts now store).1.tasks.get task =
          if task = key record then some (record.claim workerId leaseSeconds now)
          else (store.finalizeExpired now maxAttempts).tasks.get task) ∧
        (claimTask wanted workerId leaseSeconds maxAttempts now store).2 =
          some ⟨record.sourceItemId, record.packageName, record.attempts + 1⟩ ∧
        record.eligible now maxAttempts := by
  unfold claimTask
  simp only
  cases hnext : (store.finalizeExpired now maxAttempts).nextTask wanted maxAttempts now with
  | none => exact Or.inl ⟨fun task => rfl, rfl⟩
  | some record =>
    have hmem := List.mem_of_mem_head? (Option.mem_def.mpr hnext)
    rw [List.mem_insertionSort] at hmem
    obtain ⟨hmem, hwanted⟩ := List.mem_filter.mp hmem
    have hget := Table.get_of_mem hmem
    refine Or.inr ⟨record, hget, fun task => ?_, rfl, (Bool.and_eq_true_iff.mp hwanted).2⟩
    refine Table.get_modify_of_get ?_ hget task
    exact fun row => rfl

theorem claimed_claimTask :
    (claimTask wanted workerId leaseSeconds maxAttempts now store).2 =
      ((store.finalizeExpired now maxAttempts).nextTask wanted maxAttempts now).map
        fun record => ⟨record.sourceItemId, record.packageName, record.attempts + 1⟩ := by
  unfold claimTask
  simp only
  split
  · next hnext => rw [hnext, Option.map_none]
  · next record hnext => rw [hnext, Option.map_some]

end

theorem store_claimNextPackageTask (workerId : String) (leaseSeconds : ℤ) (maxAttempts : ℕ)
    (now : ℤ) (store : QueueStore σ) :
    (claimNextPackageTask workerId leaseSeconds maxAttempts now store).1 =
      (claimTask (fun _ => true) workerId leaseSeconds maxAttempts now store).1 := rfl

/-- A worker's failure is recorded exactly if its claim is current. -/
theorem failPackageTask_cases (task : String × String) (token : String × ℕ) (error : String)
    (nextAttemptAt : Option ℤ) (final : Bool) (now : ℤ) (store : QueueStore σ) :
    (∃ record after, store.tasks.get task = some record ∧ record.heldBy token.1 (some token.2) ∧
        failPackageTask task.1 task.2 error nextAttemptAt final (some token.1) (some token.2) now
          store = (after, .ok true) ∧
        ∀ other, after.tasks.get other =
          if other = task then some (record.fail error nextAttemptAt final now)
          else store.tasks.get other) ∨
      ∃ answer, failPackageTask task.1 task.2 error nextAttemptAt final (some token.1)
          (some token.2) now store = (store, answer) ∧ answer ≠ .ok true := by
  unfold failPackageTask
  rcases transaction_cases (failPackageTaskBody task.1 task.2 error nextAttemptAt final
      (some token.1) (some token.2) now) store with
    ⟨after, recorded, hbody, htransaction⟩ | ⟨failure, -, htransaction⟩
  · rw [htransaction]
    simp only [failPackageTaskBody, bind_eq_ok, orRaise_eq_ok] at hbody
    obtain ⟨record, hget, hbody⟩ := hbody
    split at hbody
    · simp only [pure_eq_ok, Prod.mk.injEq] at hbody
      obtain ⟨rfl, rfl⟩ := hbody
      exact Or.inr ⟨_, rfl, by simp⟩
    · next hheld =>
        simp only [pure_eq_ok, Prod.mk.injEq] at hbody
        obtain ⟨rfl, rfl⟩ := hbody
        refine Or.inl ⟨record, _, hget, by simpa using hheld, rfl, fun other => ?_⟩
        rw [apply_ite QueueStore.tasks, tasks_syncSourceItem, ite_self]
        refine Table.get_modify_of_get ?_ hget other
        exact fun row => rfl
  · rw [htransaction]
    exact Or.inr ⟨_, rfl, by simp⟩

/-- A worker's result is persisted exactly if its claim is current and the rest
of the database takes it. -/
theorem commitPackageProcessResult_cases (task : String × String) (token : String × ℕ)
    (persist : Persist σ) (now : ℤ) (store : QueueStore σ) :
    (∃ record after pairs, store.tasks.get task = some record ∧
        record.heldBy token.1 (some token.2) ∧
        commitPackageProcessResult task.1 persist (some task.2) (some token.1) (some token.2) now
          store = (after, .ok (some pairs)) ∧
        ∀ other, after.tasks.get other =
          if other = task then some (record.complete now) else store.tasks.get other) ∨
      ∃ answer, commitPackageProcessResult task.1 persist (some task.2) (some token.1)
          (some token.2) now store = (store, answer) ∧ ∀ pairs, answer ≠ .ok (some pairs) := by
  unfold commitPackageProcessResult
  rcases transaction_cases (commitPackageProcessResultBody task.1 persist (some task.2)
      (some token.1) (some token.2) now) store with
    ⟨after, recorded, hbody, htransaction⟩ | ⟨failure, -, htransaction⟩
  · rw [htransaction]
    simp only [commitPackageProcessResultBody, bind_eq_ok, require_eq_ok] at hbody
    obtain ⟨-, -, hbody⟩ := hbody
    split at hbody
    · next hheld =>
        simp only [bind_eq_ok, pure_eq_ok, Prod.mk.injEq] at hbody
        obtain ⟨⟨rest, pairs⟩, -, rfl, rfl⟩ := hbody
        rw [Option.getD_some, Prod.mk.eta] at hheld
        cases hget : store.tasks.get task with
        | none =>
          rw [hget] at hheld
          cases hheld
        | some record =>
          rw [hget, Option.any_some] at hheld
          refine Or.inl ⟨record, _, pairs, rfl, hheld, rfl, fun other => ?_⟩
          rw [tasks_syncSourceItem]
          refine Table.get_modify_of_get ?_ hget other
          exact fun row => rfl
    · simp only [pure_eq_ok, Prod.mk.injEq] at hbody
      obtain ⟨rfl, rfl⟩ := hbody
      exact Or.inr ⟨_, rfl, by simp⟩
  · rw [htransaction]
    exact Or.inr ⟨_, rfl, by simp⟩

/-- A task is left alone, or it had failed and is requeued. -/
def LeftOrRequeued (before after : Option PackageProcessingStatusRecord) : Prop :=
  after = before ∨
    ∃ record, before = some record ∧ record.status = .failed ∧ after = some record.requeue

theorem leftOrRequeued_requeueItem (store : QueueStore σ) (sourceItemId : String)
    (task : String × String) :
    LeftOrRequeued (store.tasks.get task) ((store.requeueItem sourceItemId).tasks.get task) := by
  have hget : (store.requeueItem sourceItemId).tasks.get task =
      (store.tasks.get task).map fun record =>
        if record.sourceItemId == sourceItemId && record.status == .failed then record.requeue
        else record := by
    refine Table.get_updateAll _ (fun record => ?_) task
    split <;> rfl
  rw [hget]
  cases store.tasks.get task with
  | none => exact Or.inl rfl
  | some record =>
    rw [Option.map_some]
    split
    · next hfailed =>
        rw [Bool.and_eq_true, beq_iff_eq, beq_iff_eq] at hfailed
        exact Or.inr ⟨record, rfl, hfailed.2, rfl⟩
    · exact Or.inl rfl

theorem LeftOrRequeued.trans {before middle after : Option PackageProcessingStatusRecord}
    (hfirst : LeftOrRequeued before middle) (hsecond : LeftOrRequeued middle after) :
    LeftOrRequeued before after := by
  rcases hfirst with rfl | ⟨record, rfl, hfailed, rfl⟩
  · exact hsecond
  · rcases hsecond with rfl | ⟨other, hother, hagain, -⟩
    · exact Or.inr ⟨record, rfl, hfailed, rfl⟩
    · cases hother
      cases hagain

theorem leftOrRequeued_retryItems (limit : ℤ) (counts : RetryCounts) (store : QueueStore σ)
    (sourceItemIds : List String) (task : String × String) :
    LeftOrRequeued (store.tasks.get task)
      ((retryItems limit counts store sourceItemIds).1.tasks.get task) := by
  induction sourceItemIds generalizing counts store with
  | nil => exact Or.inl rfl
  | cons sourceItemId rest ih =>
    unfold retryItems
    split
    · simp only
      have hfirst := leftOrRequeued_requeueItem store sourceItemId task
      split
      · exact hfirst
      · exact hfirst.trans (ih _ _)
    · exact ih _ _

/-- Tasks that are added have not been claimed; the others stay. -/
def KeptOrAdded (before after : Option PackageProcessingStatusRecord) : Prop :=
  after = before ∨
    before = none ∧ ∃ record, after = some record ∧ record.attempts = 0 ∧ record.status ≠ .processing

theorem keptOrAdded_addPackageTasks {sourceItemId : String} {skipPackages : List String}
    {sourceItemCreatedAt : Option ℤ} {now : ℤ} {packageNames : List String}
    {tasks after : Table PackageProcessingStatusRecord}
    (hadd : addPackageTasks sourceItemId skipPackages sourceItemCreatedAt now tasks packageNames =
      some after) (task : String × String) :
    KeptOrAdded (tasks.get task) (after.get task) := by
  induction packageNames generalizing tasks with
  | nil =>
    cases hadd
    exact Or.inl rfl
  | cons packageName rest ih =>
    obtain ⟨middle, hinsert, hrest⟩ := Option.bind_eq_some_iff.mp hadd
    have hmiddle := Table.get_insertNew hinsert task
    rcases ih hrest with hkept | ⟨hnone, hadded⟩
    · rw [hkept, hmiddle]
      by_cases htask : task = (sourceItemId, packageName)
      · rw [key_packageProcessingStatusRecord, if_pos htask, htask]
        refine Or.inr ⟨Table.get_eq_none_of_insertNew hinsert, _, rfl, rfl, ?_⟩
        simp only
        split <;> simp
      · rw [key_packageProcessingStatusRecord, if_neg htask]
        exact Or.inl rfl
    · rw [hmiddle, key_packageProcessingStatusRecord] at hnone
      by_cases htask : task = (sourceItemId, packageName)
      · rw [if_pos htask] at hnone
        cases hnone
      · rw [if_neg htask] at hnone
        exact Or.inr ⟨hnone, hadded⟩

theorem keptOrAdded_create (record : SourceItemRecord) (packageNames skipPackages : List String)
    (now : ℤ) (store : QueueStore σ) (task : String × String) :
    KeptOrAdded (store.tasks.get task)
      ((createSourceItemWithPackages record packageNames skipPackages now store).1.tasks.get
        task) := by
  unfold createSourceItemWithPackages
  rcases transaction_cases (createSourceItemWithPackagesBody record packageNames skipPackages now)
      store with ⟨after, result, hbody, htransaction⟩ | ⟨error, -, htransaction⟩
  · rw [htransaction]
    simp only [createSourceItemWithPackagesBody, bind_eq_ok, orRaise_eq_ok, pure_eq_ok,
      Prod.mk.injEq] at hbody
    obtain ⟨sourceItems, -, tasks, hadd, rfl, -⟩ := hbody
    exact keptOrAdded_addPackageTasks hadd task
  · rw [htransaction]
    exact Or.inl rfl

theorem keptOrAdded_createRecords (sourceItemId : String) (packageNames skipPackages : List String)
    (now : ℤ) (store : QueueStore σ) (task : String × String) :
    KeptOrAdded (store.tasks.get task)
      ((createPackageProcessingRecords sourceItemId packageNames skipPackages now
        store).1.tasks.get task) := by
  unfold createPackageProcessingRecords
  refine @transaction_related _ _ _ _ _
    (fun before after : QueueStore σ => KeptOrAdded (before.tasks.get task) (after.tasks.get task))
    (Or.inl rfl) fun after result hbody => ?_
  simp only [bind_eq_ok, orRaise_eq_ok, pure_eq_ok, Prod.mk.injEq] at hbody
  obtain ⟨tasks, hadd, rfl, -⟩ := hbody
  exact keptOrAdded_addPackageTasks hadd task

end Rows

end Pallium.Queue
