import Pallium.Queue.SourceItems

/-!
# Runs of the processing queue

The operations of ingest, of workers and of operators on one queue with a fixed
number of attempts.  A worker records a failure as final when its attempt was the
last one or when trying again is pointless.  `Move` lists the few elementary ways
in which an operation changes the queue; every operation is a sequence of moves,
and what all moves preserve holds in every run.
-/

namespace Pallium.Queue

open Pallium.Run Pallium.Transaction

variable {σ : Type}

/-- The source item of an ingest that activates the packages and skips some of
them for want of a scope. -/
def ingestedItem (sourceItemId : String) (createdAt : ℤ) (useCase : Option String)
    (activePackages skipPackages : List String) (failureCategory : Option String) (now : ℤ) :
    SourceItemRecord :=
  let skipped := !activePackages.isEmpty && skipPackages.length == activePackages.length
  let status : ProcessingStatus :=
    if activePackages.isEmpty then .completed else if skipped then .skipped else .pending
  { id := sourceItemId
    createdAt := createdAt
    useCase := useCase
    processingStatus := status
    processingAttempts := 0
    processingError := if skipped then some "visibility_context_required" else none
    processingClaimedBy := none
    processingClaimedAt := none
    processingLeaseExpiresAt := none
    processingCompletedAt := if status = .pending then none else some now
    processingNextAttemptAt := none
    failureCategory := failureCategory }

/-- A pending source item without tasks. -/
def pendingItem (sourceItemId : String) (createdAt : ℤ) (useCase : Option String) :
    SourceItemRecord where
  id := sourceItemId
  createdAt := createdAt
  useCase := useCase
  processingStatus := .pending
  processingAttempts := 0
  processingError := none
  processingClaimedBy := none
  processingClaimedAt := none
  processingLeaseExpiresAt := none
  processingCompletedAt := none
  processingNextAttemptAt := none
  failureCategory := none

/-- Whether a worker records its failure as final. -/
def finalFailure (maxAttempts attempts : ℕ) (permanent : Bool) : Bool :=
  permanent || decide (maxAttempts ≤ attempts)

/-- When a failed attempt is to be repeated. -/
def nextAttempt (maxAttempts attempts : ℕ) (permanent : Bool) (retryAt : Option ℤ) : Option ℤ :=
  if finalFailure maxAttempts attempts permanent then none else retryAt

/-- The operations on the queue.  Outcomes carry the worker id and the attempt
number of a claim. -/
inductive ProcessingOp (σ : Type)
  | ingest (sourceItemId : String) (createdAt : ℤ) (useCase : Option String)
      (activePackages : List String) (requiresScope : String → Bool)
      (failureCategory : Option String) (now : ℤ)
  | createItem (sourceItemId : String) (createdAt : ℤ) (useCase : Option String)
  | claimTask (workerId : String) (leaseSeconds now : ℤ)
  | claimTaskForItem (sourceItemId workerId : String) (leaseSeconds now : ℤ)
  | claimItem (workerId : String) (leaseSeconds now : ℤ)
  | commitTask (task : String × String) (workerId : String) (attempts : ℕ) (persist : Persist σ)
      (now : ℤ)
  | failTask (task : String × String) (workerId : String) (attempts : ℕ) (error : String)
      (permanent : Bool) (retryAt : Option ℤ) (now : ℤ)
  | commitItem (sourceItemId workerId : String) (attempts : ℕ) (persist : Persist σ)
      (failureCategory : Option (Option String)) (now : ℤ)
  | failItem (sourceItemId workerId : String) (attempts : ℕ) (error : String) (permanent : Bool)
      (retryAt : Option ℤ) (failureCategory : Option (Option String)) (now : ℤ)
  | noteFailure (sourceItemId : String) (failureCategory : Option String)
  | cancelDisabled (packageNames : List String) (clearScopes : σ → σ × ℕ) (now : ℤ)
  | retry (failureCategory : String) (limit : ℤ)

namespace ProcessingOp

def step (maxAttempts : ℕ) (store : QueueStore σ) : ProcessingOp σ → QueueStore σ
  | ingest sourceItemId createdAt useCase activePackages requiresScope failureCategory now =>
    let skipPackages := activePackages.filter requiresScope
    (createSourceItemWithPackages
      (ingestedItem sourceItemId createdAt useCase activePackages skipPackages failureCategory
        now) activePackages skipPackages now store).1
  | createItem sourceItemId createdAt useCase =>
    (createSourceItem (pendingItem sourceItemId createdAt useCase) store).1
  | claimTask workerId leaseSeconds now =>
    (claimNextPackageTask workerId leaseSeconds maxAttempts now store).1
  | claimTaskForItem sourceItemId workerId leaseSeconds now =>
    (claimNextPackageTaskForItem sourceItemId workerId leaseSeconds maxAttempts now store).1
  | claimItem workerId leaseSeconds now =>
    (claimNextSourceItem workerId leaseSeconds maxAttempts now store).1
  | commitTask task workerId attempts persist now =>
    (commitPackageProcessResult task.1 persist (some task.2) (some workerId) (some attempts) now
      store).1
  | failTask task workerId attempts error permanent retryAt now =>
    (failPackageTask task.1 task.2 error (nextAttempt maxAttempts attempts permanent retryAt)
      (finalFailure maxAttempts attempts permanent) (some workerId) (some attempts) now store).1
  | commitItem sourceItemId workerId attempts persist failureCategory now =>
    (commitProcessedSourceItem sourceItemId persist failureCategory (some workerId)
      (some attempts) now store).1
  | failItem sourceItemId workerId attempts error permanent retryAt failureCategory now =>
    (failSourceItemProcessing sourceItemId error
      (nextAttempt maxAttempts attempts permanent retryAt)
      (finalFailure maxAttempts attempts permanent) failureCategory (some workerId)
      (some attempts) now store).1
  | noteFailure sourceItemId failureCategory =>
    updateFailureCategory sourceItemId failureCategory store
  | cancelDisabled packageNames clearScopes now =>
    (cancelDisabledPackageWork packageNames clearScopes now store).1
  | retry failureCategory limit => (retryFailedSourceItems failureCategory limit store).1

end ProcessingOp

def emptyQueue (rest : σ) : QueueStore σ := ⟨Table.empty, Table.empty, rest⟩

/-- The queue after a run. -/
def processed (maxAttempts : ℕ) (rest : σ) (ops : List (ProcessingOp σ)) : QueueStore σ :=
  run (ProcessingOp.step maxAttempts) (emptyQueue rest) ops

section Moves

namespace QueueStore

/-- Rewrite tasks and then bring the listed items up to date. -/
def closeTasks (store : QueueStore σ)
    (change : PackageProcessingStatusRecord → PackageProcessingStatusRecord)
    (sourceItemIds : List String) (finishedAt : ℤ) : QueueStore σ :=
  sourceItemIds.foldl (fun synced sourceItemId => synced.syncSourceItem sourceItemId finishedAt)
    { store with tasks := store.tasks.updateAll change }

end QueueStore

/-- The task is final and will not be tried again. -/
structure Closed (record changed : PackageProcessingStatusRecord) : Prop where
  terminal : changed.terminal
  quiet : changed.nextAttemptAt = none
  skipped : record.status = .skipped → changed.status = .skipped

/-- A worker's outcome for an item that it holds. -/
structure Concluded (maxAttempts : ℕ) (item changed : SourceItemRecord) : Prop where
  held : item.processingStatus = .processing
  status : changed.processingStatus = .completed ∨ changed.processingStatus = .failed ∨
    changed.processingStatus = .pending ∧ changed.processingAttempts < maxAttempts

/-- The elementary changes of a queue. -/
inductive Move (maxAttempts : ℕ) (before : QueueStore σ) : QueueStore σ → Prop
  | rest (rest : σ) : Move maxAttempts before { before with rest := rest }
  | ingested {item : SourceItemRecord} {sourceItems : Table SourceItemRecord}
      {tasks : Table PackageProcessingStatusRecord} {packageNames skipPackages : List String}
      {now : ℤ}
      (hinsert : before.sourceItems.insertNew item = some sourceItems)
      (hadd : addPackageTasks item.id skipPackages (some item.createdAt) now before.tasks
        packageNames = some tasks)
      (hpending : ∀ packageName ∈ packageNames, packageName ∉ skipPackages →
        item.processingStatus = .pending)
      (hattempts : item.processingAttempts = 0) (hquiet : item.processingNextAttemptAt = none)
      (hidle : item.processingStatus ≠ .processing) :
      Move maxAttempts before { before with sourceItems := sourceItems, tasks := tasks }
  | created {item : SourceItemRecord} {sourceItems : Table SourceItemRecord}
      (hinsert : before.sourceItems.insertNew item = some sourceItems)
      (hstatus : item.processingStatus = .pending) (hattempts : item.processingAttempts = 0) :
      Move maxAttempts before { before with sourceItems := sourceItems }
  | closed {change : PackageProcessingStatusRecord → PackageProcessingStatusRecord}
      {sourceItemIds : List String} {now : ℤ}
      (hkey : ∀ record, key (change record) = key record)
      (hchange : ∀ task record, before.tasks.get task = some record → change record = record ∨
        Closed record (change record) ∧ record.sourceItemId ∈ sourceItemIds) :
      Move maxAttempts before (before.closeTasks change sourceItemIds now)
  | claimed {record : PackageProcessingStatusRecord} {workerId : String} {leaseSeconds now : ℤ}
      (hget : before.tasks.get (key record) = some record)
      (heligible : record.eligible now maxAttempts) :
      Move maxAttempts before
        { before with
          tasks := before.tasks.modify (key record)
            (PackageProcessingStatusRecord.claim workerId leaseSeconds now) }
  | retried {record : PackageProcessingStatusRecord} {error : String} {retryAt : Option ℤ}
      {now : ℤ} (hget : before.tasks.get (key record) = some record)
      (hheld : record.status = .processing) (hattempts : record.attempts < maxAttempts) :
      Move maxAttempts before
        { before with
          tasks := before.tasks.modify (key record)
            (PackageProcessingStatusRecord.fail error retryAt false now) }
  | requeued {sourceItemId : String} (hretryable : before.retryable sourceItemId) :
      Move maxAttempts before (before.requeueItem sourceItemId)
  | itemClaimed {item : SourceItemRecord} {workerId : String} {leaseSeconds now : ℤ}
      (hget : before.sourceItems.get item.id = some item)
      (heligible : item.eligible now maxAttempts) (hfinished : before.unfinished item.id = false) :
      Move maxAttempts before
        { before with
          sourceItems := before.sourceItems.modify item.id
            (SourceItemRecord.claim workerId leaseSeconds now) }
  | itemConcluded {item : SourceItemRecord} {change : SourceItemRecord → SourceItemRecord}
      (hget : before.sourceItems.get item.id = some item)
      (hid : ∀ other : SourceItemRecord, (change other).id = other.id)
      (hconcluded : Concluded maxAttempts item (change item)) :
      Move maxAttempts before
        { before with sourceItems := before.sourceItems.modify item.id change }
  | itemsCancelled (packageNames : List String) (now : ℤ) :
      Move maxAttempts before (before.cancelItems packageNames now)
  | noted (sourceItemId : String) (failureCategory : Option String) :
      Move maxAttempts before (updateFailureCategory sourceItemId failureCategory before)

/-- A sequence of moves. -/
abbrev Moves (maxAttempts : ℕ) (before after : QueueStore σ) : Prop :=
  Relation.ReflTransGen (Move maxAttempts) before after

variable {maxAttempts : ℕ} {store after : QueueStore σ} {record : PackageProcessingStatusRecord}

theorem finalizeExpired_move (store : QueueStore σ) (now : ℤ) :
    Move maxAttempts store (store.finalizeExpired now maxAttempts) := by
  apply Move.closed
  · intro record
    split
    · rfl
    · rfl
  · intro task record hget
    split
    · next hexpired =>
        refine Or.inr ⟨⟨rfl, rfl, fun hskipped => ?_⟩, ?_⟩
        · simp only [PackageProcessingStatusRecord.expiredAtLimit, hskipped] at hexpired
          cases hexpired
        · rw [List.mem_dedup]
          apply List.mem_map_of_mem
          exact List.mem_filter.mpr ⟨Table.mem_of_get hget, hexpired⟩
    · exact Or.inl rfl

theorem nextTask_eq_some {wanted : PackageProcessingStatusRecord → Bool} {now : ℤ}
    (hnext : store.nextTask wanted maxAttempts now = some record) :
    store.tasks.get (key record) = some record ∧ record.eligible now maxAttempts := by
  have hmem := List.mem_of_mem_head? (Option.mem_def.mpr hnext)
  rw [List.mem_insertionSort, List.mem_filter, Bool.and_eq_true] at hmem
  exact ⟨Table.get_of_mem hmem.1, hmem.2.2⟩

theorem claimTask_moves (wanted : PackageProcessingStatusRecord → Bool) (workerId : String)
    (leaseSeconds now : ℤ) (store : QueueStore σ) :
    Moves maxAttempts store (claimTask wanted workerId leaseSeconds maxAttempts now store).1 := by
  unfold claimTask
  simp only
  have hfinalized : Moves maxAttempts store (store.finalizeExpired now maxAttempts) :=
    .single (finalizeExpired_move store now)
  split
  · exact hfinalized
  · next record hnext =>
      obtain ⟨hget, heligible⟩ := nextTask_eq_some hnext
      exact hfinalized.tail (.claimed hget heligible)

theorem nextItem_eq_some {now : ℤ} {item : SourceItemRecord}
    (hnext : store.nextItem maxAttempts now = some item) :
    store.sourceItems.get item.id = some item ∧ item.eligible now maxAttempts ∧
      store.unfinished item.id = false := by
  have hmem := List.mem_of_mem_head? (Option.mem_def.mpr hnext)
  rw [List.mem_insertionSort, List.mem_filter, Bool.and_eq_true, Bool.not_eq_true'] at hmem
  exact ⟨Table.get_of_mem hmem.1, hmem.2⟩

variable (sourceItemId workerId : String)

theorem claimNextSourceItem_moves (leaseSeconds now : ℤ) (store : QueueStore σ) :
    Moves maxAttempts store
      (claimNextSourceItem workerId leaseSeconds maxAttempts now store).1 := by
  unfold claimNextSourceItem
  split
  · exact .refl
  · next item hnext =>
      obtain ⟨hget, heligible, hfinished⟩ := nextItem_eq_some hnext
      exact .single (.itemClaimed hget heligible hfinished)

theorem processing_of_heldBy {workerId : String}
    {attempts : ℕ} (hheld : record.heldBy workerId (some attempts)) :
    record.status = .processing ∧ record.attempts = attempts := by
  simp only [PackageProcessingStatusRecord.heldBy, Bool.and_eq_true, beq_iff_eq,
    Option.some.injEq] at hheld
  exact ⟨hheld.1.1, hheld.2⟩

/-- An outcome of a held task closes it and brings its item up to date. -/
theorem close_move {task : String × String}
    {change : PackageProcessingStatusRecord → PackageProcessingStatusRecord} {now : ℤ}
    (hget : store.tasks.get task = some record) (hheld : record.status = .processing)
    (hkey : ∀ other, key (change other) = key other) (hterminal : (change record).terminal)
    (hquiet : (change record).nextAttemptAt = none) :
    Move maxAttempts store
      ({ store with tasks := store.tasks.modify task change }.syncSourceItem task.1 now) := by
  apply @Move.closed _ maxAttempts store (fun other => if key other = task then change other else other)
    [task.1] now
  · intro other
    split
    · exact hkey other
    · rfl
  · intro otherTask other hother
    split
    · next hsame =>
        have hstored := Table.key_of_get hother
        rw [hsame] at hstored
        rw [← hstored, hget] at hother
        cases hother
        refine Or.inr ⟨⟨hterminal, hquiet, fun hskipped => ?_⟩, ?_⟩
        · rw [hheld] at hskipped
          cases hskipped
        · rw [List.mem_singleton, ← hsame]
          rfl
    · exact Or.inl rfl

theorem failTask_moves (task : String × String) (workerId : String) (attempts : ℕ)
    (error : String) (permanent : Bool) (retryAt : Option ℤ) (now : ℤ) (store : QueueStore σ) :
    Moves maxAttempts store
      ((ProcessingOp.failTask task workerId attempts error permanent retryAt now).step maxAttempts
        store) := by
  apply transaction_related .refl
  intro after recorded hbody
  simp only [failPackageTaskBody, bind_eq_ok, orRaise_eq_ok] at hbody
  obtain ⟨record, hget, hbody⟩ := hbody
  split at hbody
  · simp only [pure_eq_ok, Prod.mk.injEq] at hbody
    exact hbody.1 ▸ .refl
  · next hfenced =>
      simp only [pure_eq_ok, Prod.mk.injEq] at hbody
      obtain ⟨rfl, -⟩ := hbody
      have hheldBy : record.heldBy workerId (some attempts) := by
        rw [Option.any_some, Bool.not_eq_true', Bool.not_eq_false] at hfenced
        exact hfenced
      obtain ⟨hheld, hattempts⟩ := processing_of_heldBy hheldBy
      obtain rfl : (record.sourceItemId, record.packageName) = task := Table.key_of_get hget
      cases hfinal : finalFailure maxAttempts attempts permanent with
      | true =>
        apply Relation.ReflTransGen.single
        rw [if_pos rfl]
        apply close_move hget hheld
        · exact fun other => rfl
        · rfl
        · simp only [PackageProcessingStatusRecord.fail, nextAttempt, hfinal, if_true]
      | false =>
        apply Relation.ReflTransGen.single
        rw [if_neg Bool.false_ne_true]
        apply @Move.retried _ maxAttempts store record
        · exact hget
        · exact hheld
        · simp only [finalFailure, Bool.or_eq_false_iff, decide_eq_false_iff_not, not_le] at hfinal
          rw [hattempts]
          exact hfinal.2

theorem commitTask_moves (task : String × String) (workerId : String) (attempts : ℕ)
    (persist : Persist σ) (now : ℤ) (store : QueueStore σ) :
    Moves maxAttempts store
      ((ProcessingOp.commitTask task workerId attempts persist now).step maxAttempts store) := by
  apply transaction_related .refl
  intro after pairs hbody
  simp only [commitPackageProcessResultBody, bind_eq_ok, require_eq_ok] at hbody
  obtain ⟨-, -, hbody⟩ := hbody
  split at hbody
  · next hheld =>
      simp only [bind_eq_ok, pure_eq_ok, Prod.mk.injEq] at hbody
      obtain ⟨⟨rest, found⟩, -, rfl, -⟩ := hbody
      rw [Option.getD_some, Prod.mk.eta, Option.any_eq_true] at hheld
      obtain ⟨record, hget, hheldBy⟩ := hheld
      have hpersisted : Moves maxAttempts store { store with rest := rest } :=
        .single (.rest rest)
      apply hpersisted.tail
      apply @close_move _ maxAttempts { store with rest := rest } record task
      · exact hget
      · exact (processing_of_heldBy hheldBy).1
      · exact fun other => rfl
      · rfl
      · rfl
  · simp only [pure_eq_ok, Prod.mk.injEq] at hbody
    exact hbody.1 ▸ .refl

theorem retryItems_moves (limit : ℤ) (counts : RetryCounts) (store : QueueStore σ)
    (sourceItemIds : List String) :
    Moves maxAttempts store (retryItems limit counts store sourceItemIds).1 := by
  induction sourceItemIds generalizing counts store with
  | nil => exact .refl
  | cons sourceItemId rest ih =>
    unfold retryItems
    split
    · next hretryable =>
        simp only
        have hrequeued : Moves maxAttempts store (store.requeueItem sourceItemId) :=
          .single (.requeued hretryable)
        split
        · exact hrequeued
        · exact hrequeued.trans (ih _ _)
    · exact ih _ _

theorem cancelTasks_move (packageNames : List String) (now : ℤ) (store : QueueStore σ) :
    Move maxAttempts store (store.cancelTasks packageNames now) := by
  apply Move.closed
  · intro record
    split
    · rfl
    · rfl
  · intro task record hget
    split
    · next hcancelled =>
        refine Or.inr ⟨⟨rfl, rfl, fun _ => rfl⟩, ?_⟩
        rw [List.mem_dedup]
        apply List.mem_map_of_mem
        exact List.mem_filter.mpr ⟨Table.mem_of_get hget, hcancelled⟩
    · exact Or.inl rfl

theorem cancelDisabledPackageWork_moves (packageNames : List String) (clearScopes : σ → σ × ℕ)
    (now : ℤ) (store : QueueStore σ) :
    Moves maxAttempts store
      (cancelDisabledPackageWork packageNames clearScopes now store).1 := by
  unfold cancelDisabledPackageWork
  split
  · exact .refl
  · have hcancelled : Moves maxAttempts store (store.cancelTasks packageNames now) :=
      .single (cancelTasks_move packageNames now store)
    exact (hcancelled.tail (.itemsCancelled packageNames now)).tail (.rest _)

theorem processing_of_unfenced {item : SourceItemRecord} {workerId : String} {attempts : ℕ}
    {fenced : Bool} (hfence : item.fenced (some workerId) (some attempts) = .ok fenced)
    (hpassed : fenced ≠ true) :
    item.processingStatus = .processing ∧ item.processingAttempts = attempts := by
  simp only [SourceItemRecord.fenced, bind_eq_ok, orRaise_eq_ok, pure_eq_ok,
    Option.some.injEq] at hfence
  obtain ⟨number, rfl, rfl⟩ := hfence
  rw [ne_eq, Bool.not_eq_true', Bool.not_eq_false] at hpassed
  simp only [SourceItemRecord.heldBy, Bool.and_eq_true, beq_iff_eq] at hpassed
  exact ⟨hpassed.1.1, hpassed.2⟩

theorem failItem_moves (attempts : ℕ) (error : String) (permanent : Bool) (retryAt : Option ℤ)
    (failureCategory : Option (Option String)) (now : ℤ) (store : QueueStore σ) :
    Moves maxAttempts store
      ((ProcessingOp.failItem sourceItemId workerId attempts error permanent retryAt
        failureCategory now).step maxAttempts store) := by
  apply transaction_related .refl
  intro after recorded hbody
  simp only [failSourceItemProcessingBody, bind_eq_ok, orRaise_eq_ok] at hbody
  obtain ⟨item, hget, fenced, hfence, hbody⟩ := hbody
  obtain rfl : item.id = sourceItemId := Table.key_of_get hget
  split at hbody
  · simp only [pure_eq_ok, Prod.mk.injEq] at hbody
    exact hbody.1 ▸ .refl
  · next hpassed =>
      obtain ⟨hheld, hattempts⟩ := processing_of_unfenced hfence hpassed
      simp only [pure_eq_ok, Prod.mk.injEq] at hbody
      obtain ⟨rfl, -⟩ := hbody
      apply Relation.ReflTransGen.single
      apply Move.itemConcluded hget
      · exact fun other => rfl
      · refine ⟨hheld, ?_⟩
        cases hfinal : finalFailure maxAttempts attempts permanent with
        | true => exact Or.inr (Or.inl rfl)
        | false =>
          simp only [finalFailure, Bool.or_eq_false_iff, decide_eq_false_iff_not,
            not_le] at hfinal
          exact Or.inr (Or.inr ⟨rfl, hattempts ▸ hfinal.2⟩)

theorem commitItem_moves (attempts : ℕ) (persist : Persist σ)
    (failureCategory : Option (Option String)) (now : ℤ) (store : QueueStore σ) :
    Moves maxAttempts store
      ((ProcessingOp.commitItem sourceItemId workerId attempts persist failureCategory now).step
        maxAttempts store) := by
  apply transaction_related .refl
  intro after recorded hbody
  simp only [commitProcessedSourceItemBody, bind_eq_ok, orRaise_eq_ok] at hbody
  obtain ⟨item, hget, fenced, hfence, hbody⟩ := hbody
  obtain rfl : item.id = sourceItemId := Table.key_of_get hget
  split at hbody
  · simp only [pure_eq_ok, Prod.mk.injEq] at hbody
    exact hbody.1 ▸ .refl
  · next hpassed =>
      simp only [bind_eq_ok, pure_eq_ok, Prod.mk.injEq] at hbody
      obtain ⟨⟨rest, pairs⟩, -, rfl, -⟩ := hbody
      have hpersisted : Moves maxAttempts store { store with rest := rest } :=
        .single (.rest rest)
      apply hpersisted.tail
      apply @Move.itemConcluded _ maxAttempts { store with rest := rest } item
      · exact hget
      · exact fun other => rfl
      · exact ⟨(processing_of_unfenced hfence hpassed).1, Or.inl rfl⟩

theorem ingest_moves (createdAt : ℤ) (useCase : Option String) (activePackages : List String)
    (requiresScope : String → Bool) (failureCategory : Option String) (now : ℤ)
    (store : QueueStore σ) :
    Moves maxAttempts store
      ((ProcessingOp.ingest sourceItemId createdAt useCase activePackages requiresScope
        failureCategory now).step maxAttempts store) := by
  apply transaction_related .refl
  intro after result hbody
  simp only [createSourceItemWithPackagesBody, bind_eq_ok, orRaise_eq_ok, pure_eq_ok,
    Prod.mk.injEq] at hbody
  obtain ⟨sourceItems, hinsert, tasks, hadd, rfl, -⟩ := hbody
  apply Relation.ReflTransGen.single
  apply Move.ingested hinsert hadd
  · intro packageName hmem hkept
    have hsome : activePackages.isEmpty = false := by
      rw [List.isEmpty_eq_false_iff]
      exact List.ne_nil_of_mem hmem
    have hfewer : ((activePackages.filter requiresScope).length == activePackages.length) =
        false := by
      rw [beq_eq_false_iff_ne]
      intro hlength
      apply hkept
      rw [List.length_filter_eq_length_iff] at hlength
      exact List.mem_filter.mpr ⟨hmem, hlength packageName hmem⟩
    simp only [ingestedItem, hsome, hfewer, Bool.and_false, Bool.false_eq_true, if_false]
  · rfl
  · rfl
  · intro hprocessing
    unfold ingestedItem at hprocessing
    simp only at hprocessing
    split at hprocessing
    · cases hprocessing
    · split at hprocessing <;> cases hprocessing

theorem createItem_moves (createdAt : ℤ) (useCase : Option String) (store : QueueStore σ) :
    Moves maxAttempts store
      ((ProcessingOp.createItem sourceItemId createdAt useCase).step maxAttempts store) := by
  apply transaction_related .refl
  intro after result hbody
  simp only [bind_eq_ok, orRaise_eq_ok, pure_eq_ok, Prod.mk.injEq] at hbody
  obtain ⟨sourceItems, hinsert, rfl, -⟩ := hbody
  exact .single (.created hinsert rfl rfl)

theorem ProcessingOp.step_moves (maxAttempts : ℕ) (store : QueueStore σ) (op : ProcessingOp σ) :
    Moves maxAttempts store (op.step maxAttempts store) := by
  cases op with
  | ingest sourceItemId createdAt useCase activePackages requiresScope failureCategory now =>
    exact ingest_moves sourceItemId createdAt useCase activePackages requiresScope
      failureCategory now store
  | createItem sourceItemId createdAt useCase =>
    exact createItem_moves sourceItemId createdAt useCase store
  | claimTask workerId leaseSeconds now => exact claimTask_moves _ workerId leaseSeconds now store
  | claimTaskForItem sourceItemId workerId leaseSeconds now =>
    exact claimTask_moves _ workerId leaseSeconds now store
  | claimItem workerId leaseSeconds now =>
    exact claimNextSourceItem_moves workerId leaseSeconds now store
  | commitTask task workerId attempts persist now =>
    exact commitTask_moves task workerId attempts persist now store
  | failTask task workerId attempts error permanent retryAt now =>
    exact failTask_moves task workerId attempts error permanent retryAt now store
  | commitItem sourceItemId workerId attempts persist failureCategory now =>
    exact commitItem_moves sourceItemId workerId attempts persist failureCategory now store
  | failItem sourceItemId workerId attempts error permanent retryAt failureCategory now =>
    exact failItem_moves sourceItemId workerId attempts error permanent retryAt failureCategory
      now store
  | noteFailure sourceItemId failureCategory => exact .single (.noted sourceItemId failureCategory)
  | cancelDisabled packageNames clearScopes now =>
    exact cancelDisabledPackageWork_moves packageNames clearScopes now store
  | retry failureCategory limit => exact retryItems_moves limit ⟨0, 0⟩ store _

theorem processed_invariant {invariant : QueueStore σ → Prop} {rest : σ}
    (hstart : invariant (emptyQueue rest))
    (hmove : ∀ before after, Move maxAttempts before after → invariant before → invariant after)
    (ops : List (ProcessingOp σ)) : invariant (processed maxAttempts rest ops) := by
  apply run_invariant hstart
  intro store op hstore
  have hmoves := op.step_moves maxAttempts store
  generalize op.step maxAttempts store = after at hmoves
  induction hmoves with
  | refl => exact hstore
  | tail _ hlast ih => exact hmove _ _ hlast ih

end Moves

end Pallium.Queue
