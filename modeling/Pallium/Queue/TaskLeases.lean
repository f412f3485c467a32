import Pallium.Queue.PackageFencing

/-!
# The lease of a package task

A worker that has claimed a task holds it until its lease runs out.  As long as the clocks of
other claims read less than that, none of them is given the task, and until an outcome of the
task is recorded the worker can record its own.
-/

namespace Pallium.Queue

open Pallium.Run Pallium.Transaction

variable {σ : Type} {queue : QueueRun σ} {store : QueueStore σ} {task : TaskKey}
  {token : String × ℕ} {deadline : ℤ}

/-- The task is held with the token until the deadline. -/
def TaskLeased (token : String × ℕ) (deadline : ℤ)
    (found : Option PackageProcessingStatusRecord) : Prop :=
  ∃ record, found = some record ∧ record.heldBy token.1 (some token.2) = true ∧
    record.leaseExpiresAt = some deadline

/-- The clock of a claim and when its lease runs out. -/
def QueueOp.claimTimes : QueueOp σ → Option (ℤ × ℤ)
  | claimNext _ leaseSeconds _ now | claimNextForItem _ _ leaseSeconds _ now =>
    some (now, now + max 1 leaseSeconds * 1000000)
  | _ => none

/-- The operation records no outcome of the task, and does not claim after the deadline. -/
def QueueRun.Within (task : TaskKey) (deadline : ℤ) (queue : QueueRun σ) (op : QueueOp σ) :
    Prop :=
  (∀ times ∈ op.claimTimes, times.1 < deadline) ∧ ∀ outcome ∈ queue.newOutcome op,
    outcome.1 ≠ task

section Claims

variable {wanted : PackageProcessingStatusRecord → Bool} {workerId : String}
  {leaseSeconds now : ℤ} {maxAttempts : ℕ}

theorem taskLeased_claimTask {claimed : ClaimedTask}
    (hclaimed : (claimTask wanted workerId leaseSeconds maxAttempts now store).2 = some claimed) :
    TaskLeased (workerId, claimed.attempts) (now + max 1 leaseSeconds * 1000000)
      ((claimTask wanted workerId leaseSeconds maxAttempts now store).1.tasks.get
        (claimed.sourceItemId, claimed.packageName)) := by
  rcases claimTask_cases wanted workerId leaseSeconds maxAttempts now store with
    ⟨-, hnone⟩ | ⟨record, -, hget, hsome, -⟩
  · cases hnone.symm.trans hclaimed
  · obtain rfl := Option.eq_some_unique hsome hclaimed
    refine ⟨_, (hget _).trans (if_pos rfl), ?_, rfl⟩
    simp [PackageProcessingStatusRecord.heldBy, PackageProcessingStatusRecord.claim]

/-- A task is given to a claim only when its lease has run out. -/
theorem TaskLeased.claimTask (hleased : TaskLeased token deadline (store.tasks.get task))
    (hbefore : now < deadline) :
    TaskLeased token deadline
        ((claimTask wanted workerId leaseSeconds maxAttempts now store).1.tasks.get task) ∧
      ∀ claimed ∈ (Queue.claimTask wanted workerId leaseSeconds maxAttempts now store).2,
        (claimed.sourceItemId, claimed.packageName) ≠ task := by
  obtain ⟨record, hget, hheld, hlease⟩ := hleased
  have hkept : (store.finalizeExpired now maxAttempts).tasks.get task = some record := by
    rw [get_finalizeExpired, hget, Option.map_some, if_neg]
    simp [PackageProcessingStatusRecord.expiredAtLimit, hlease, hbefore]
  rcases claimTask_cases wanted workerId leaseSeconds maxAttempts now store with
    ⟨hsame, hnone⟩ | ⟨other, hother, hafter, hsome, heligible⟩
  · rw [hsame, hnone]
    exact ⟨⟨record, hkept, hheld, hlease⟩, fun _ hclaimed => absurd hclaimed (by simp)⟩
  · have hne : task ≠ key other := by
      rintro rfl
      obtain rfl := Option.eq_some_unique hkept hother
      simp only [PackageProcessingStatusRecord.heldBy, Bool.and_eq_true, beq_iff_eq] at hheld
      simp [PackageProcessingStatusRecord.eligible, hheld.1.1, hlease] at heligible
      omega
    rw [hafter, if_neg hne, hsome]
    refine ⟨⟨record, hkept, hheld, hlease⟩, fun claimed hclaimed => ?_⟩
    cases hclaimed
    exact hne.symm

end Claims

theorem TaskLeased.keptOrAdded {before after : Option PackageProcessingStatusRecord}
    (hleased : TaskLeased token deadline before) (hkept : KeptOrAdded before after) :
    TaskLeased token deadline after := by
  rcases hkept with rfl | ⟨rfl, -⟩
  · exact hleased
  · obtain ⟨record, hnone, -⟩ := hleased
    cases hnone

theorem TaskLeased.leftOrRequeued {before after : Option PackageProcessingStatusRecord}
    (hleased : TaskLeased token deadline before) (hleft : LeftOrRequeued before after) :
    TaskLeased token deadline after := by
  rcases hleft with rfl | ⟨failed, rfl, hfailed, -⟩
  · exact hleased
  · obtain ⟨record, hsame, hheld, -⟩ := hleased
    cases hsame
    simp [PackageProcessingStatusRecord.heldBy, hfailed] at hheld

theorem TaskLeased.outcome (hleased : TaskLeased token deadline (queue.store.tasks.get task))
    {op : QueueOp σ} {acted : TaskKey} {index : ℕ} (heffect : queue.OutcomeEffect op acted index)
    (hnone : ∀ outcome ∈ queue.newOutcome op, outcome.1 ≠ task) :
    TaskLeased token deadline ((queue.nextStore op).tasks.get task) := by
  rcases heffect with ⟨-, hstore⟩ | ⟨_, _, next, hsome, -, -, -, -, -, hget⟩
  · rwa [hstore]
  · rw [hget, if_neg (hnone _ hsome).symm]
    exact hleased

theorem TaskLeased.step (hleased : TaskLeased token deadline (queue.store.tasks.get task))
    {op : QueueOp σ} (hwithin : queue.Within task deadline op) :
    TaskLeased token deadline ((queue.step op).store.tasks.get task) ∧
      ∀ claim ∈ queue.newClaim op, claim.task ≠ task := by
  have hquiet : queue.newClaim op = none → ∀ claim ∈ queue.newClaim op, claim.task ≠ task :=
    fun hnone claim hclaim => by cases hnone.symm.trans hclaim
  cases op with
  | create item packageNames skipPackages now =>
    exact ⟨hleased.keptOrAdded (keptOrAdded_create item packageNames skipPackages now _ task),
      hquiet rfl⟩
  | createRecords sourceItemId packageNames skipPackages now =>
    exact ⟨hleased.keptOrAdded
      (keptOrAdded_createRecords sourceItemId packageNames skipPackages now _ task), hquiet rfl⟩
  | claimNext _ _ _ now | claimNextForItem _ _ _ _ now =>
    obtain ⟨hkept, hothers⟩ := hleased.claimTask (hwithin.1 _ rfl)
    refine ⟨hkept, fun claim hclaim => ?_⟩
    obtain ⟨claimed, hclaimed, rfl⟩ := Option.mem_map.mp hclaim
    exact hothers claimed hclaimed
  | fail failed index error nextAttemptAt final now =>
    exact ⟨hleased.outcome (queue.failed_effect failed index error nextAttemptAt final now)
      hwithin.2, hquiet rfl⟩
  | commit committed index persist now =>
    exact ⟨hleased.outcome (queue.committed_effect committed index persist now) hwithin.2,
      hquiet rfl⟩
  | noteFailure => exact ⟨hleased, hquiet rfl⟩
  | retry failureCategory limit =>
    exact ⟨hleased.leftOrRequeued (leftOrRequeued_retryItems limit _ queue.store _ task),
      hquiet rfl⟩

theorem taskLeased_newClaim {op : QueueOp σ} {claim : PackageClaim} {times : ℤ × ℤ}
    (hclaim : queue.newClaim op = some claim) (htimes : op.claimTimes = some times) :
    TaskLeased claim.token times.2 ((queue.step op).store.tasks.get claim.task) := by
  cases op with
  | claimNext _ _ _ _ | claimNextForItem _ _ _ _ _ =>
    obtain ⟨claimed, hclaimed, rfl⟩ := Option.map_eq_some_iff.mp hclaim
    cases htimes
    exact taskLeased_claimTask hclaimed
  | _ => cases hclaim

/-- Until its lease runs out, a claimed task is given to nobody else, and as long as no outcome
of the task is recorded the worker that holds it can fail it or commit its result. -/
theorem task_lease_exclusive {op : QueueOp σ} {ops : List (QueueOp σ)} {claim : PackageClaim}
    {times : ℤ × ℤ} (hclaim : queue.newClaim op = some claim)
    (htimes : op.claimTimes = some times)
    (hwithin : Along QueueRun.step (QueueRun.Within claim.task times.2) (queue.step op) ops) :
    Along QueueRun.step (fun current later => ∀ other ∈ current.newClaim later,
        other.task ≠ claim.task) (queue.step op) ops ∧
      ∀ final, final = run QueueRun.step (queue.step op) ops →
        (∀ error nextAttemptAt failed now, (final.failCall claim.task claim.token error
          nextAttemptAt failed now).2 = .ok true) ∧
        ∀ persist rest pairs now, persist final.store.rest = .ok (rest, pairs) →
          (final.commitCall claim.task claim.token persist now).2 = .ok (some pairs) := by
  have hstart := taskLeased_newClaim hclaim htimes
  constructor
  · exact (@Along.with_invariant _ _ _ _ _ _ hwithin (fun current : QueueRun σ =>
      TaskLeased claim.token times.2 (current.store.tasks.get claim.task)) hstart
        fun _ _ hguard hleased => (hleased.step hguard).1).mono
          fun _ _ hboth => (hboth.2.step hboth.1).2
  · rintro final rfl
    obtain ⟨record, hget, hheld, -⟩ := @Along.invariant _ _ _ _ _ _ hwithin
      (fun current : QueueRun σ =>
        TaskLeased claim.token times.2 (current.store.tasks.get claim.task)) hstart
        fun _ _ hguard hleased => (hleased.step hguard).1
    generalize run QueueRun.step (queue.step op) ops = final at hget
    constructor
    · intro error nextAttemptAt failed now
      exact congrArg Prod.snd (transaction_of_ok (bind_eq_ok.mpr
        ⟨record, orRaise_eq_ok.mpr hget, (if_neg (by simp [hheld])).trans rfl⟩))
    · intro persist rest pairs now hpersist
      have hcurrent : (final.store.tasks.get claim.task).any
          (PackageProcessingStatusRecord.heldBy claim.token.1 (some claim.token.2)) = true := by
        rw [hget]
        exact hheld
      exact congrArg Prod.snd (transaction_of_ok (bind_eq_ok.mpr
        ⟨(), require_eq_ok.mpr ⟨rfl, rfl⟩, by
          refine (if_pos hcurrent).trans ?_
          exact bind_eq_ok.mpr ⟨(rest, pairs), hpersist, rfl⟩⟩))

/-- Another worker asks for a task meanwhile. -/
theorem task_lease_exclusive_asked :
    ((QueueRun.reached () (QueueRun.staleOps.take 2 ++ [.claimNext "other" 60 3 2])).failCall
      ("item", "package") ("worker", 1) "boom" none true 3).2 = .ok true := by
  refine ((@task_lease_exclusive _ (QueueRun.reached () (QueueRun.staleOps.take 1))
    (.claimNext "worker" 60 3 1) [.claimNext "other" 60 3 2] ⟨"item", "package", "worker", 1⟩
    (1, 60000001) (by decide +kernel) rfl ⟨⟨?_, ?_⟩, trivial⟩).2 _ rfl).1 "boom" none true 3
  · simp [QueueOp.claimTimes]
  · simp [QueueRun.newOutcome]

end Pallium.Queue
