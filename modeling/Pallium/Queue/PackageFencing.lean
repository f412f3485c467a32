import Pallium.Core.AttemptFence
import Pallium.Queue.PackageTasks

/-!
# Fencing of package tasks

A run of the queue keeps a ledger beside the store: the claims of every task in
their order, the outcomes they recorded, and how many of the claims were made
before an operator last requeued the task.  A worker commits or fails with the
worker id and the attempt number of its claim.  Each task is an item fenced by
attempt numbers whose counter a retry resets.
-/

namespace Pallium.Queue

open Pallium.Run Pallium.Transaction Pallium.AttemptFence
open PackageProcessingStatusRecord (expiredAtLimit requeue)

/-- The key of a task: its source item and its package. -/
abbrev TaskKey := String × String

structure PackageClaim where
  sourceItemId : String
  packageName : String
  workerId : String
  attempts : ℕ
  deriving DecidableEq, Repr

def PackageClaim.task (claim : PackageClaim) : TaskKey := (claim.sourceItemId, claim.packageName)

/-- What the worker presents with an outcome. -/
def PackageClaim.token (claim : PackageClaim) : String × ℕ := (claim.workerId, claim.attempts)

variable {σ : Type}

structure QueueRun (σ : Type) where
  store : QueueStore σ
  claims : List PackageClaim
  outcomes : List (TaskKey × ℕ)
  retired : TaskKey → ℕ

/-- The operations of workers and operators.  A worker fails or commits a task
for the claim of that task with the given number. -/
inductive QueueOp (σ : Type)
  | create (item : SourceItemRecord) (packageNames skipPackages : List String) (now : ℤ)
  | createRecords (sourceItemId : String) (packageNames skipPackages : List String) (now : ℤ)
  | claimNext (workerId : String) (leaseSeconds : ℤ) (maxAttempts : ℕ) (now : ℤ)
  | claimNextForItem (sourceItemId workerId : String) (leaseSeconds : ℤ) (maxAttempts : ℕ)
      (now : ℤ)
  | fail (task : TaskKey) (index : ℕ) (error : String) (nextAttemptAt : Option ℤ) (final : Bool)
      (now : ℤ)
  | commit (task : TaskKey) (index : ℕ) (persist : Persist σ) (now : ℤ)
  | noteFailure (sourceItemId : String) (failureCategory : Option String)
  | retry (failureCategory : String) (limit : ℤ)

namespace QueueRun

def tokensOf (queue : QueueRun σ) (task : TaskKey) : List (String × ℕ) :=
  (queue.claims.filter fun claim => claim.task = task).map PackageClaim.token

/-- The claims that have recorded an outcome of a task. -/
def settledOf (queue : QueueRun σ) (task : TaskKey) : List ℕ :=
  (queue.outcomes.filter fun outcome => outcome.1 = task).map Prod.snd

def newClaim (queue : QueueRun σ) : QueueOp σ → Option PackageClaim
  | .claimNext workerId leaseSeconds maxAttempts now =>
    (claimTask (fun _ => true) workerId leaseSeconds maxAttempts now queue.store).2.map
      fun claimed => ⟨claimed.sourceItemId, claimed.packageName, workerId, claimed.attempts⟩
  | .claimNextForItem sourceItemId workerId leaseSeconds maxAttempts now =>
    (claimNextPackageTaskForItem sourceItemId workerId leaseSeconds maxAttempts now
      queue.store).2.map
      fun claimed => ⟨claimed.sourceItemId, claimed.packageName, workerId, claimed.attempts⟩
  | _ => none

/-- The call of a worker that fails a task, and what it returns. -/
def failCall (queue : QueueRun σ) (task : TaskKey) (token : String × ℕ) (error : String)
    (nextAttemptAt : Option ℤ) (final : Bool) (now : ℤ) :
    QueueStore σ × Except QueueError Bool :=
  failPackageTask task.1 task.2 error nextAttemptAt final (some token.1) (some token.2) now
    queue.store

/-- The call of a worker that commits a result, and what it returns. -/
def commitCall (queue : QueueRun σ) (task : TaskKey) (token : String × ℕ) (persist : Persist σ)
    (now : ℤ) : QueueStore σ × Except QueueError (Option (List (String × String))) :=
  commitPackageProcessResult task.1 persist (some task.2) (some token.1) (some token.2) now
    queue.store

/-- The outcome an operation records: the task and the number of the claim. -/
def newOutcome (queue : QueueRun σ) : QueueOp σ → Option (TaskKey × ℕ)
  | .fail task index error nextAttemptAt final now =>
    (queue.tokensOf task)[index]?.bind fun token =>
      match (queue.failCall task token error nextAttemptAt final now).2 with
      | .ok true => some (task, index)
      | _ => none
  | .commit task index persist now =>
    (queue.tokensOf task)[index]?.bind fun token =>
      match (queue.commitCall task token persist now).2 with
      | .ok (some _) => some (task, index)
      | _ => none
  | _ => none

def nextStore (queue : QueueRun σ) : QueueOp σ → QueueStore σ
  | .create item packageNames skipPackages now =>
    (createSourceItemWithPackages item packageNames skipPackages now queue.store).1
  | .createRecords sourceItemId packageNames skipPackages now =>
    (createPackageProcessingRecords sourceItemId packageNames skipPackages now queue.store).1
  | .claimNext workerId leaseSeconds maxAttempts now =>
    (claimNextPackageTask workerId leaseSeconds maxAttempts now queue.store).1
  | .claimNextForItem sourceItemId workerId leaseSeconds maxAttempts now =>
    (claimNextPackageTaskForItem sourceItemId workerId leaseSeconds maxAttempts now
      queue.store).1
  | .fail task index error nextAttemptAt final now =>
    match (queue.tokensOf task)[index]? with
    | none => queue.store
    | some token => (queue.failCall task token error nextAttemptAt final now).1
  | .commit task index persist now =>
    match (queue.tokensOf task)[index]? with
    | none => queue.store
    | some token => (queue.commitCall task token persist now).1
  | .noteFailure sourceItemId failureCategory =>
    updateFailureCategory sourceItemId failureCategory queue.store
  | .retry failureCategory limit => (retryFailedSourceItems failureCategory limit queue.store).1

/-- Whether the operation is a retry that requeues the task. -/
def requeues (queue : QueueRun σ) (op : QueueOp σ) (task : TaskKey) : Bool :=
  match op with
  | .retry _ _ =>
    (queue.store.tasks.get task).any (fun record => record.status == .failed) &&
      ((queue.nextStore op).tasks.get task).any fun record => record.status == .pending
  | _ => false

/-- The store and the ledger after an operation. -/
def step (queue : QueueRun σ) (op : QueueOp σ) : QueueRun σ where
  store := queue.nextStore op
  claims := queue.claims ++ (queue.newClaim op).toList
  outcomes := queue.outcomes ++ (queue.newOutcome op).toList
  retired := fun task =>
    if queue.requeues op task then (queue.tokensOf task).length else queue.retired task

/-- An empty queue over the rest of a database. -/
def empty (rest : σ) : QueueRun σ := ⟨⟨Table.empty, Table.empty, rest⟩, [], [], fun _ => 0⟩

def reached (rest : σ) (ops : List (QueueOp σ)) : QueueRun σ := run step (empty rest) ops

/-- The worker that asks for a task, and the task that is next for it. -/
def polls (queue : QueueRun σ) : QueueOp σ → Option (String × PackageProcessingStatusRecord)
  | .claimNext workerId _ maxAttempts now =>
    ((queue.store.finalizeExpired now maxAttempts).nextTask (fun _ => true) maxAttempts
      now).map fun record => (workerId, record)
  | .claimNextForItem sourceItemId workerId _ maxAttempts now =>
    ((queue.store.finalizeExpired now maxAttempts).nextTask
      (fun record => record.sourceItemId == sourceItemId) maxAttempts now).map
        fun record => (workerId, record)
  | _ => none

/-- The task that is next for a worker was not, before its last requeue, claimed
by that worker when its attempts stood where they stand now. -/
def FreshPoll (queue : QueueRun σ) (op : QueueOp σ) : Prop :=
  ∀ poll ∈ queue.polls op,
    (poll.1, poll.2.attempts + 1) ∉
      (queue.tokensOf (key poll.2)).take (queue.retired (key poll.2))

/-- The outcome the operation records, if any, is that of the latest claim. -/
def LatestOutcome (queue : QueueRun σ) (op : QueueOp σ) : Prop :=
  ∀ outcome ∈ queue.newOutcome op, outcome.2 + 1 = (queue.tokensOf outcome.1).length

/-- The worker whose claim of the task is current. -/
def holderOf (record : Option PackageProcessingStatusRecord) : Option String :=
  record.bind fun found => if found.status = .processing then found.claimedBy else none

def attemptsOf (record : Option PackageProcessingStatusRecord) : ℕ :=
  (record.map PackageProcessingStatusRecord.attempts).getD 0

/-- A task as a fenced item. -/
def item (queue : QueueRun σ) (task : TaskKey) : Item String where
  holder := holderOf (queue.store.tasks.get task)
  attempts := attemptsOf (queue.store.tasks.get task)
  tokens := queue.tokensOf task
  retired := queue.retired task
  settled := queue.settledOf task

/-- Whether the operation is a claim that finds the lease of the task expired
after the last attempt. -/
def releases (queue : QueueRun σ) (task : TaskKey) : QueueOp σ → Bool
  | .claimNext _ _ maxAttempts now => (queue.store.tasks.get task).any
      (PackageProcessingStatusRecord.expiredAtLimit now maxAttempts)
  | .claimNextForItem _ _ _ maxAttempts now => (queue.store.tasks.get task).any
      (PackageProcessingStatusRecord.expiredAtLimit now maxAttempts)
  | _ => false

/-- What an operation does to a task. -/
def eventsOf (queue : QueueRun σ) (task : TaskKey) (op : QueueOp σ) : List (Event String) :=
  (if queue.releases task op then [.release] else []) ++
    ((queue.newClaim op).filter fun claim => claim.task = task).toList.map
      (fun claim => .claim claim.workerId) ++
    ((queue.newOutcome op).filter fun outcome => outcome.1 = task).toList.map
      (fun outcome => .settle outcome.2) ++
    if queue.requeues op task then [.reset] else []

section Simulation

variable (queue : QueueRun σ) (op : QueueOp σ) (task : TaskKey)

theorem tokensOf_step :
    (queue.step op).tokensOf task = queue.tokensOf task ++
      ((queue.newClaim op).filter fun claim => claim.task = task).toList.map
        PackageClaim.token := by
  simp only [tokensOf, step, List.filter_append, List.map_append]
  congr 2
  cases queue.newClaim op with
  | none => rfl
  | some claim =>
    by_cases htask : claim.task = task
    · simp [Option.filter, htask]
    · simp [Option.filter, htask]

theorem settledOf_step :
    (queue.step op).settledOf task = queue.settledOf task ++
      ((queue.newOutcome op).filter fun outcome => outcome.1 = task).toList.map Prod.snd := by
  simp only [settledOf, step, List.filter_append, List.map_append]
  congr 2
  cases queue.newOutcome op with
  | none => rfl
  | some outcome =>
    by_cases htask : outcome.1 = task
    · simp [Option.filter, htask]
    · simp [Option.filter, htask]

theorem item_step_eq :
    (queue.step op).item task =
      { holder := holderOf ((queue.nextStore op).tasks.get task)
        attempts := attemptsOf ((queue.nextStore op).tasks.get task)
        tokens := queue.tokensOf task ++
          ((queue.newClaim op).filter fun claim => claim.task = task).toList.map
            PackageClaim.token
        retired := if queue.requeues op task then (queue.tokensOf task).length
          else queue.retired task
        settled := queue.settledOf task ++
          ((queue.newOutcome op).filter fun outcome => outcome.1 = task).toList.map Prod.snd } := by
  rw [← tokensOf_step, ← settledOf_step]
  rfl

variable {queue op task}

theorem item_step_quiet (hclaim : (queue.newClaim op).filter (fun claim => claim.task = task) = none)
    (houtcome : (queue.newOutcome op).filter (fun outcome => outcome.1 = task) = none)
    (hrequeues : queue.requeues op task = false) :
    (queue.step op).item task =
      { queue.item task with
        holder := holderOf ((queue.nextStore op).tasks.get task)
        attempts := attemptsOf ((queue.nextStore op).tasks.get task) } := by
  rw [item_step_eq, hclaim, houtcome, hrequeues]
  simp [item]

theorem holderOf_keptOrAdded {before after : Option PackageProcessingStatusRecord}
    (hkept : KeptOrAdded before after) :
    holderOf after = holderOf before ∧ attemptsOf after = attemptsOf before := by
  rcases hkept with rfl | ⟨rfl, record, rfl, hattempts, hstatus⟩
  · exact ⟨rfl, rfl⟩
  · simp [holderOf, attemptsOf, hattempts, hstatus]

/-- Finalizing the expired leases releases the tasks and keeps their attempts. -/
theorem holderOf_finalizeExpired (store : QueueStore σ) (now : ℤ) (maxAttempts : ℕ)
    (task : TaskKey) :
    holderOf ((store.finalizeExpired now maxAttempts).tasks.get task) =
        (if (store.tasks.get task).any
            (expiredAtLimit now maxAttempts) then none
          else holderOf (store.tasks.get task)) ∧
      attemptsOf ((store.finalizeExpired now maxAttempts).tasks.get task) =
        attemptsOf (store.tasks.get task) := by
  rw [get_finalizeExpired]
  cases store.tasks.get task with
  | none => exact ⟨rfl, rfl⟩
  | some record =>
    rw [Option.map_some, Option.any_some]
    by_cases hexpired : record.expiredAtLimit now maxAttempts = true
    · rw [if_pos hexpired, if_pos hexpired]
      exact ⟨rfl, rfl⟩
    · rw [if_neg hexpired, if_neg hexpired]
      exact ⟨rfl, rfl⟩

/-- The task of an expired lease, and then its claim. -/
theorem claimed_step (queue : QueueRun σ) (op : QueueOp σ) (task : TaskKey)
    (wanted : PackageProcessingStatusRecord → Bool) (workerId : String) (leaseSeconds : ℤ) (maxAttempts : ℕ) (now : ℤ)
    (hstore : (queue.nextStore op).tasks =
      (claimTask wanted workerId leaseSeconds maxAttempts now queue.store).1.tasks)
    (hclaim : queue.newClaim op =
      (claimTask wanted workerId leaseSeconds maxAttempts now queue.store).2.map
        fun claimed => ⟨claimed.sourceItemId, claimed.packageName, workerId, claimed.attempts⟩)
    (houtcome : queue.newOutcome op = none) (hrequeues : queue.requeues op task = false)
    (hreleases : queue.releases task op = (queue.store.tasks.get task).any
      (expiredAtLimit now maxAttempts)) :
    (queue.step op).item task = run Item.step (queue.item task) (queue.eventsOf task op) ∧
      ∀ claim ∈ queue.newClaim op, claim.task = task →
        claim.attempts = (queue.item task).attempts + 1 := by
  obtain ⟨hholder, hattempts⟩ := holderOf_finalizeExpired queue.store now maxAttempts task
  have hevents : queue.eventsOf task op = (if queue.releases task op then [.release] else []) ++
      ((queue.newClaim op).filter fun claim => claim.task = task).toList.map
        (fun claim => .claim claim.workerId) := by
    simp [eventsOf, houtcome, hrequeues]
  have hreleased : run Item.step (queue.item task)
      (if queue.releases task op then [.release] else []) =
        { queue.item task with
          holder := holderOf ((queue.store.finalizeExpired now maxAttempts).tasks.get task) } := by
    rw [hholder, ← hreleases]
    split <;> rfl
  rw [hevents, run_append, hreleased]
  rcases claimTask_cases wanted workerId leaseSeconds maxAttempts now queue.store with
    ⟨hget, hnone⟩ | ⟨record, hrecord, hget, hsome, -⟩
  · rw [hnone, Option.map_none] at hclaim
    rw [hclaim]
    refine ⟨?_, fun _ hclaimed => nomatch hclaimed⟩
    rw [item_step_quiet (by rw [hclaim]; rfl) (by rw [houtcome]; rfl) hrequeues, hstore, hget,
      hattempts]
    rfl
  · rw [hsome, Option.map_some] at hclaim
    rw [hclaim]
    by_cases htask : (record.sourceItemId, record.packageName) = task
    · have hclaimed : (some (⟨record.sourceItemId, record.packageName, workerId,
          record.attempts + 1⟩ : PackageClaim)).filter (fun claim => claim.task = task) =
            some ⟨record.sourceItemId, record.packageName, workerId, record.attempts + 1⟩ := by
        simp [PackageClaim.task, Option.filter, htask]
      have hcount : record.attempts = attemptsOf (queue.store.tasks.get task) := by
        rw [← hattempts, ← htask]
        exact (congrArg attemptsOf hrecord).symm
      constructor
      · rw [item_step_eq, hclaim, hclaimed, houtcome, hrequeues, hstore, hget,
          key_packageProcessingStatusRecord, if_pos htask.symm]
        simp [item, holderOf, attemptsOf, PackageProcessingStatusRecord.claim, Item.step,
          PackageClaim.token, hcount]
      · rintro claim hmem -
        cases hmem
        exact congrArg (· + 1) hcount
    · have hclaimed : (some (⟨record.sourceItemId, record.packageName, workerId,
          record.attempts + 1⟩ : PackageClaim)).filter (fun claim => claim.task = task) = none := by
        simp [PackageClaim.task, Option.filter, htask]
      constructor
      · rw [hclaimed, item_step_quiet (by rw [hclaim, hclaimed]) (by rw [houtcome]; rfl) hrequeues,
          hstore, hget, key_packageProcessingStatusRecord, if_neg (Ne.symm htask), hattempts]
        rfl
      · intro claim hmem hother
        cases hmem
        exact absurd hother htask

/-- An outcome that a worker presents for a claim of the task is recorded if the claim is
current, and otherwise nothing changes. -/
def OutcomeEffect (queue : QueueRun σ) (op : QueueOp σ) (task : TaskKey) (index : ℕ) : Prop :=
  (queue.newOutcome op = none ∧ queue.nextStore op = queue.store) ∨
    ∃ token record next, queue.newOutcome op = some (task, index) ∧
      (queue.tokensOf task)[index]? = some token ∧
      queue.store.tasks.get task = some record ∧ record.heldBy token.1 (some token.2) ∧
      next.status ≠ .processing ∧ next.attempts = record.attempts ∧
      ∀ other, (queue.nextStore op).tasks.get other =
        if other = task then some next else queue.store.tasks.get other

theorem outcome_step (queue : QueueRun σ) (op : QueueOp σ) (task other : TaskKey) (index : ℕ)
    (hclaim : queue.newClaim op = none) (hrequeues : queue.requeues op other = false)
    (hreleases : queue.releases other op = false) (hstep : queue.OutcomeEffect op task index) :
    (queue.step op).item other = run Item.step (queue.item other) (queue.eventsOf other op) ∧
      ∀ outcome ∈ queue.newOutcome op, outcome.1 = other →
        (queue.item other).Current outcome.2 := by
  have hevents : queue.eventsOf other op =
      ((queue.newOutcome op).filter fun outcome => outcome.1 = other).toList.map
        (fun outcome => .settle outcome.2) := by
    simp [eventsOf, hclaim, hrequeues, hreleases]
  rw [hevents]
  rcases hstep with ⟨hnone, hstore⟩ |
    ⟨token, record, next, hsome, htoken, hrecord, hheld, hstatus, hattempts, hget⟩
  · rw [hnone]
    refine ⟨?_, fun _ houtcome => nomatch houtcome⟩
    rw [item_step_quiet (by rw [hclaim]; rfl) (by rw [hnone]; rfl) hrequeues, hstore]
    rfl
  · rw [hsome]
    by_cases htask : task = other
    · subst htask
      have hrecorded : (some (task, index)).filter (fun outcome => outcome.1 = task) =
          some (task, index) := by
        simp [Option.filter]
      simp only [PackageProcessingStatusRecord.heldBy, Bool.and_eq_true, beq_iff_eq,
        Option.some.injEq] at hheld
      obtain ⟨⟨hprocessing, hworker⟩, hnumber⟩ := hheld
      have hcurrent : (queue.item task).Current index := by
        refine ⟨token.1, ?_, ?_⟩
        · simp [item, holderOf, hrecord, hprocessing, hworker]
        · simp only [item, attemptsOf, hrecord, Option.map_some, Option.getD_some, hnumber, htoken]
      constructor
      · rw [item_step_eq, hclaim, hsome, hrecorded, hrequeues, hget, if_pos rfl]
        change _ = Item.step (queue.item task) (.settle index)
        rw [Item.step_settle, if_pos hcurrent]
        simp [item, holderOf, attemptsOf, hstatus, hattempts, hrecord]
      · intro outcome houtcome _
        cases houtcome
        exact hcurrent
    · have hrecorded : (some (task, index)).filter (fun outcome => outcome.1 = other) = none := by
        simp [Option.filter, htask]
      constructor
      · rw [hrecorded, item_step_quiet (by rw [hclaim]; rfl) (by rw [hsome, hrecorded]) hrequeues,
          hget, if_neg (Ne.symm htask)]
        rfl
      · intro outcome houtcome hother
        cases houtcome
        exact absurd hother htask

theorem failed_effect (queue : QueueRun σ) (task : TaskKey) (index : ℕ) (error : String)
    (nextAttemptAt : Option ℤ) (final : Bool) (now : ℤ) :
    queue.OutcomeEffect (.fail task index error nextAttemptAt final now) task index := by
  simp only [OutcomeEffect, newOutcome, nextStore]
  cases htoken : (queue.tokensOf task)[index]? with
  | none => exact Or.inl ⟨rfl, rfl⟩
  | some token =>
    rcases failPackageTask_cases task token error nextAttemptAt final now queue.store with
      ⟨record, after, hrecord, hheld, hcall, hget⟩ | ⟨answer, hcall, hrefused⟩
    · simp only [Option.bind_some, failCall, hcall]
      exact Or.inr ⟨token, record, record.fail error nextAttemptAt final now, trivial, rfl,
        hrecord, hheld, by cases final <;> simp [PackageProcessingStatusRecord.fail], rfl, hget⟩
    · simp only [Option.bind_some, failCall, hcall]
      exact Or.inl ⟨trivial, trivial⟩

theorem committed_effect (queue : QueueRun σ) (task : TaskKey) (index : ℕ) (persist : Persist σ)
    (now : ℤ) : queue.OutcomeEffect (.commit task index persist now) task index := by
  simp only [OutcomeEffect, newOutcome, nextStore]
  cases htoken : (queue.tokensOf task)[index]? with
  | none => exact Or.inl ⟨rfl, rfl⟩
  | some token =>
    rcases commitPackageProcessResult_cases task token persist now queue.store with
      ⟨record, after, pairs, hrecord, hheld, hcall, hget⟩ | ⟨answer, hcall, hrefused⟩
    · simp only [Option.bind_some, commitCall, hcall]
      exact Or.inr ⟨token, record, record.complete now, trivial, rfl, hrecord, hheld,
        by simp [PackageProcessingStatusRecord.complete], rfl, hget⟩
    · simp only [Option.bind_some, commitCall, hcall]
      exact Or.inl ⟨trivial, trivial⟩

theorem retried_step (queue : QueueRun σ) (failureCategory : String) (limit : ℤ) (task : TaskKey) :
    (queue.step (.retry failureCategory limit)).item task =
      run Item.step (queue.item task) (queue.eventsOf task (.retry failureCategory limit)) := by
  have hleft : LeftOrRequeued (queue.store.tasks.get task)
      ((queue.nextStore (.retry failureCategory limit)).tasks.get task) :=
    leftOrRequeued_retryItems limit _ queue.store _ task
  have hevents : queue.eventsOf task (.retry failureCategory limit) =
      if queue.requeues (.retry failureCategory limit) task then [.reset] else [] := by
    simp [eventsOf, releases, newClaim, newOutcome]
  rw [hevents]
  rcases hleft with hsame | ⟨record, hrecord, hfailed, hafter⟩
  · have hrequeues : queue.requeues (.retry failureCategory limit) task = false := by
      simp only [requeues, hsame]
      cases queue.store.tasks.get task with
      | none => rfl
      | some record => cases hstatus : record.status <;> simp [hstatus]
    rw [item_step_quiet rfl rfl hrequeues, hrequeues, hsame]
    rfl
  · have hrequeues : queue.requeues (.retry failureCategory limit) task = true := by
      simp [requeues, hrecord, hafter, hfailed, requeue]
    rw [item_step_eq, hrequeues, hafter]
    simp [item, holderOf, attemptsOf, requeue, Item.step, newClaim,
      newOutcome, PackageProcessingStatusRecord.unclaim]

theorem item_step (task : TaskKey) (queue : QueueRun σ) (op : QueueOp σ) :
    (queue.step op).item task = run Item.step (queue.item task) (queue.eventsOf task op) := by
  cases op with
  | create record packageNames skipPackages now =>
    have hkept := holderOf_keptOrAdded
      (keptOrAdded_create record packageNames skipPackages now queue.store task)
    rw [item_step_quiet rfl rfl rfl, nextStore, hkept.1, hkept.2]
    rfl
  | createRecords sourceItemId packageNames skipPackages now =>
    have hkept := holderOf_keptOrAdded
      (keptOrAdded_createRecords sourceItemId packageNames skipPackages now queue.store task)
    rw [item_step_quiet rfl rfl rfl, nextStore, hkept.1, hkept.2]
    rfl
  | claimNext workerId leaseSeconds maxAttempts now =>
    exact (claimed_step queue _ task (fun _ => true) workerId leaseSeconds maxAttempts now rfl rfl
      rfl rfl rfl).1
  | claimNextForItem sourceItemId workerId leaseSeconds maxAttempts now =>
    exact (claimed_step queue _ task _ workerId leaseSeconds maxAttempts now rfl rfl rfl rfl
      rfl).1
  | fail failed index error nextAttemptAt final now =>
    exact (outcome_step queue _ failed task index rfl rfl rfl
      (failed_effect queue failed index error nextAttemptAt final now)).1
  | commit committed index persist now =>
    exact (outcome_step queue _ committed task index rfl rfl rfl
      (committed_effect queue committed index persist now)).1
  | noteFailure sourceItemId failureCategory =>
    rw [item_step_quiet rfl rfl rfl]
    rfl
  | retry failureCategory limit => exact retried_step queue failureCategory limit task

theorem attempts_newClaim (task : TaskKey) (queue : QueueRun σ) (op : QueueOp σ) :
    ∀ claim ∈ queue.newClaim op, claim.task = task →
      claim.attempts = (queue.item task).attempts + 1 := by
  cases op with
  | claimNext workerId leaseSeconds maxAttempts now =>
    exact (claimed_step queue _ task (fun _ => true) workerId leaseSeconds maxAttempts now rfl rfl
      rfl rfl rfl).2
  | claimNextForItem sourceItemId workerId leaseSeconds maxAttempts now =>
    exact (claimed_step queue _ task _ workerId leaseSeconds maxAttempts now rfl rfl rfl rfl
      rfl).2
  | _ => exact fun _ hclaim => nomatch hclaim

theorem along_fresh_of_quiet {start : Item String} {events : List (Event String)}
    (hevents : ∀ event ∈ events, ∀ claimer, event ≠ .claim claimer) :
    Along Item.step Item.Fresh start events := by
  refine (Along.of_forall hevents).mono fun current event hevent => ?_
  cases event with
  | claim claimer => exact absurd rfl (hevent claimer)
  | _ => trivial

theorem along_fresh_iff (task : TaskKey) (queue : QueueRun σ) (op : QueueOp σ) :
    Along Item.step Item.Fresh (queue.item task) (queue.eventsOf task op) ↔
      ∀ claim ∈ queue.newClaim op, claim.task = task →
        claim.token ∉ (queue.tokensOf task).take (queue.retired task) := by
  have hattempts := attempts_newClaim task queue op
  have hreleased : ∀ released : Bool, ∃ holder,
      run Item.step (queue.item task) (if released then [.release] else []) =
        { queue.item task with holder := holder } := by
    intro released
    cases released with
    | true => exact ⟨none, rfl⟩
    | false => exact ⟨(queue.item task).holder, rfl⟩
  rw [eventsOf, along_append, along_append, along_append]
  rw [and_iff_left (along_fresh_of_quiet ?_), and_iff_left (along_fresh_of_quiet ?_),
    and_iff_right (along_fresh_of_quiet ?_)]
  · obtain ⟨holder, hholder⟩ := hreleased _
    rw [hholder]
    cases hclaim : queue.newClaim op with
    | none => simp
    | some claim =>
      have hcount := hattempts claim hclaim
      by_cases htask : claim.task = task
      · have hfresh : Item.Fresh { queue.item task with holder := holder }
            (.claim claim.workerId) ↔
              claim.token ∉ (queue.tokensOf task).take (queue.retired task) := by
          rw [PackageClaim.token, hcount htask]
          rfl
        simp [Option.filter, htask, hfresh]
      · simp [Option.filter, htask]
  · intro event hevent claimer
    split at hevent
    · rw [List.mem_singleton.mp hevent]
      simp
    · cases hevent
  · intro event hevent claimer
    obtain ⟨outcome, -, rfl⟩ := List.mem_map.mp hevent
    simp
  · intro event hevent claimer
    split at hevent
    · rw [List.mem_singleton.mp hevent]
      simp
    · cases hevent

theorem newClaim_eq (queue : QueueRun σ) (op : QueueOp σ) :
    queue.newClaim op = (queue.polls op).map fun poll =>
      ⟨poll.2.sourceItemId, poll.2.packageName, poll.1, poll.2.attempts + 1⟩ := by
  cases op with
  | claimNext workerId leaseSeconds maxAttempts now =>
    simp only [newClaim, polls, claimed_claimTask, Option.map_map]
    rfl
  | claimNextForItem sourceItemId workerId leaseSeconds maxAttempts now =>
    simp only [newClaim, polls, claimNextPackageTaskForItem, claimed_claimTask, Option.map_map]
    rfl
  | _ => rfl

theorem freshPoll_iff (queue : QueueRun σ) (op : QueueOp σ) :
    queue.FreshPoll op ↔
      ∀ task, Along Item.step Item.Fresh (queue.item task) (queue.eventsOf task op) := by
  simp only [along_fresh_iff, newClaim_eq, Option.mem_map]
  constructor
  · rintro hfresh task claim ⟨poll, hpoll, rfl⟩ rfl
    exact hfresh poll hpoll
  · intro hfresh poll hpoll
    exact hfresh (key poll.2) _ ⟨poll, hpoll, rfl⟩ rfl

theorem latestOutcome_of_events (queue : QueueRun σ) (op : QueueOp σ)
    (hlatest : ∀ task, Along Item.step Item.LatestOnly (queue.item task)
      (queue.eventsOf task op)) :
    queue.LatestOutcome op := by
  intro outcome houtcome
  have hevents : queue.eventsOf outcome.1 op = [.settle outcome.2] ∧
      (queue.item outcome.1).Current outcome.2 := by
    have hfilter : (queue.newOutcome op).filter (fun other => other.1 = outcome.1) =
        some outcome := by
      rw [Option.mem_def.mp houtcome]
      simp [Option.filter]
    cases op with
    | fail task index error nextAttemptAt final now =>
      refine ⟨?_, (outcome_step queue _ task outcome.1 index rfl rfl rfl
        (failed_effect queue task index error nextAttemptAt final now)).2 outcome houtcome rfl⟩
      simp [eventsOf, hfilter, releases, newClaim, requeues]
    | commit task index persist now =>
      refine ⟨?_, (outcome_step queue _ task outcome.1 index rfl rfl rfl
        (committed_effect queue task index persist now)).2 outcome houtcome rfl⟩
      simp [eventsOf, hfilter, releases, newClaim, requeues]
    | _ => nomatch houtcome
  have hevent := hlatest outcome.1
  rw [hevents.1] at hevent
  exact hevent.1 hevents.2

end Simulation

/-- What happens to a task in a run. -/
def eventsAlong (rest : σ) (ops : List (QueueOp σ)) (task : TaskKey) : List (Event String) :=
  translation step (fun queue op => queue.eventsOf task op) (empty rest) ops

variable (rest : σ) (ops : List (QueueOp σ))

theorem item_reached (task : TaskKey) :
    (reached rest ops).item task = run Item.step Item.unclaimed (eventsAlong rest ops task) :=
  @run_translation _ _ step _ _ (fun queue : QueueRun σ => queue.item task) Item.step
    (fun queue op => queue.eventsOf task op) (item_step task) (empty rest) ops

theorem along_events (allowed : Item String → Event String → Prop) :
    (∀ task, Along Item.step allowed Item.unclaimed (eventsAlong rest ops task)) ↔
      Along step (fun queue op => ∀ task, Along Item.step allowed (queue.item task)
        (queue.eventsOf task op)) (empty rest) ops := by
  rw [along_forall]
  exact forall_congr' fun task =>
    @along_translation _ _ step _ _ (fun queue : QueueRun σ => queue.item task) Item.step
      (fun queue op => queue.eventsOf task op) (item_step task) (empty rest) ops allowed

/-- No two claims of a task share their token, an outcome is recorded only for
the latest claim of its task, and no claim records two of them, exactly if no
worker asks for a requeued task that it claimed at the same number of attempts
before. -/
theorem package_task_fencing :
    ((∀ task, ((reached rest ops).tokensOf task).Nodup) ∧
        Along step LatestOutcome (empty rest) ops ∧
        ∀ task, ((reached rest ops).settledOf task).Nodup) ↔
      Along step FreshPoll (empty rest) ops := by
  have htokens : ∀ task, (reached rest ops).tokensOf task =
      (run Item.step Item.unclaimed (eventsAlong rest ops task)).tokens := by
    intro task
    rw [← item_reached]
    rfl
  have hsettled : ∀ task, (reached rest ops).settledOf task =
      (run Item.step Item.unclaimed (eventsAlong rest ops task)).settled := by
    intro task
    rw [← item_reached]
    rfl
  simp only [htokens, hsettled]
  constructor
  · rintro ⟨hdistinct, -, -⟩
    have hfresh := (along_events rest ops Item.Fresh).mp fun task =>
      Item.Ordered.unclaimed.fresh_of_nodup (hdistinct task)
    exact hfresh.mono fun queue op => (freshPoll_iff queue op).mpr
  · intro hops
    have hfresh := (along_events rest ops Item.Fresh).mpr
      (hops.mono fun queue op => (freshPoll_iff queue op).mp)
    have hfenced := fun task => (fenced_iff (eventsAlong rest ops task)).mpr (hfresh task)
    have hlatest := (along_events rest ops Item.LatestOnly).mp fun task => (hfenced task).2.2
    exact ⟨fun task => (hfenced task).1, hlatest.mono latestOutcome_of_events,
      fun task => (hfenced task).2.1⟩

section Stale

/-- A source item with one package, whose worker fails, is retried by an operator
and claims the task once more. -/
def staleOps : List (QueueOp Unit) :=
  [.create ⟨"item", 0, some "package", .pending, 0, none, none, none, none, none, none, none⟩ ["package"] [] 0,
    .claimNext "worker" 60 3 1,
    .fail ("item", "package") 0 "boom" none true 2,
    .noteFailure "item" (some "transient"),
    .retry "transient" 10,
    .claimNext "worker" 60 3 3,
    .commit ("item", "package") 0 (fun rest => .ok (rest, [])) 4]

/-- The retry makes the second claim indistinguishable from the first, whose
result is then recorded. -/
theorem package_task_fencing_stale :
    (reached () staleOps).tokensOf ("item", "package") = [("worker", 1), ("worker", 1)] ∧
      (reached () staleOps).outcomes = [(("item", "package"), 0), (("item", "package"), 0)] ∧
      ¬((∀ task, ((reached () staleOps).tokensOf task).Nodup) ∧
        Along step LatestOutcome (empty ()) staleOps ∧
        ∀ task, ((reached () staleOps).settledOf task).Nodup) := by
  have htokens : (reached () staleOps).tokensOf ("item", "package") =
      [("worker", 1), ("worker", 1)] := by decide +kernel
  refine ⟨htokens, by decide +kernel, ?_⟩
  rintro ⟨hdistinct, -, -⟩
  have htask := hdistinct ("item", "package")
  rw [htokens] at htask
  exact absurd htask (by decide)

end Stale

end QueueRun

end Pallium.Queue
