import Pallium.Core.Table
import Pallium.Core.Run

/-!
# Rebuild requests of thread scopes

A row of `thread_processing_leases` records that a scope has to be rebuilt and
which worker is rebuilding it.  Commits of processed items request a rebuild,
workers claim a requested scope under a lease and complete it.  Every
operation is one write transaction; the timestamps, in microseconds, are
arguments, because the code reads its clock before it waits for the write lock.
-/

namespace Pallium.Queue

structure ThreadProcessingScope where
  scopeKey : String
  useCase : String
  containerRef : String
  threadRef : Option String
  visibility : String
  deriving DecidableEq, Repr

/-- A row of `thread_processing_leases`. -/
structure ThreadProcessingLeaseRecord where
  scopeKey : String
  useCase : String
  containerRef : String
  threadRef : Option String
  visibility : Option String
  requestedAt : Option ℤ
  processingClaimedBy : Option String
  processingClaimedAt : Option ℤ
  processingLeaseExpiresAt : Option ℤ
  processingCompletedAt : Option ℤ
  collectionWatermarkAt : Option ℤ
  createdAt : ℤ
  updatedAt : ℤ
  deriving DecidableEq, Repr

instance : Keyed ThreadProcessingLeaseRecord String := ⟨ThreadProcessingLeaseRecord.scopeKey⟩

@[simp]
theorem key_threadProcessingLeaseRecord (record : ThreadProcessingLeaseRecord) :
    key record = record.scopeKey := rfl

/-- `ThreadProcessingLease` as a successful claim returns it. -/
structure ThreadProcessingLease where
  scopeKey : String
  useCase : String
  containerRef : String
  threadRef : Option String
  visibility : String
  requestedAt : ℤ
  processingClaimedBy : String
  processingClaimedAt : ℤ
  processingLeaseExpiresAt : ℤ
  collectionWatermarkAt : Option ℤ
  deriving DecidableEq, Repr

/-- The table of thread scopes. -/
abbrev ThreadScopes := Table ThreadProcessingLeaseRecord

/-- `_to_thread_processing_lease`; `none` is the `ValueError` of an incomplete
lease. -/
def toThreadProcessingLease (record : ThreadProcessingLeaseRecord) :
    Option ThreadProcessingLease :=
  match record.requestedAt, record.processingClaimedAt, record.processingLeaseExpiresAt,
      record.processingClaimedBy with
  | some requestedAt, some claimedAt, some leaseExpiresAt, some claimedBy =>
    some {
      scopeKey := record.scopeKey
      useCase := record.useCase
      containerRef := record.containerRef
      threadRef := record.threadRef
      visibility := match record.visibility with
        | none => "private"
        | some visibility => if visibility = "" then "private" else visibility
      requestedAt := requestedAt
      processingClaimedBy := claimedBy
      processingClaimedAt := claimedAt
      processingLeaseExpiresAt := leaseExpiresAt
      collectionWatermarkAt := record.collectionWatermarkAt }
  | _, _, _, _ => none

/-! ## Requests -/

/-- The later of the recorded request and a new one. -/
def laterRequest (existingRequestedAt : Option ℤ) (requestedAt : ℤ) : ℤ :=
  match existingRequestedAt with
  | none => requestedAt
  | some existing => if existing < requestedAt then requestedAt else existing

/-- The row of a scope that is requested for the first time. -/
def newScopeRecord (scope : ThreadProcessingScope) (requestedAt : ℤ) :
    ThreadProcessingLeaseRecord where
  scopeKey := scope.scopeKey
  useCase := scope.useCase
  containerRef := scope.containerRef
  threadRef := scope.threadRef
  visibility := some scope.visibility
  requestedAt := some requestedAt
  processingClaimedBy := none
  processingClaimedAt := none
  processingLeaseExpiresAt := none
  processingCompletedAt := none
  collectionWatermarkAt := none
  createdAt := requestedAt
  updatedAt := requestedAt

/-- `_upsert_thread_processing_scope_in_session`. -/
def upsertThreadProcessingScope (scopes : ThreadScopes) (scope : ThreadProcessingScope)
    (requestedAt : ℤ) : ThreadScopes :=
  match scopes.get scope.scopeKey with
  | none => (scopes.insertNew (newScopeRecord scope requestedAt)).getD scopes
  | some _ =>
    scopes.modify scope.scopeKey
      (fun record => { record with
        requestedAt := some (laterRequest record.requestedAt requestedAt)
        updatedAt := requestedAt })

/-- The part of `commit_package_process_result` and `commit_processed_source_item`
that touches the scopes; a commit whose own claim is stale writes nothing. -/
def requestRebuilds (scopes : ThreadScopes) (claimIsCurrent : Bool)
    (threadRebuildScope containerRebuildScope : Option ThreadProcessingScope)
    (finishedAt : ℤ) : ThreadScopes :=
  if claimIsCurrent then
    let threadRequested := match threadRebuildScope with
      | none => scopes
      | some scope => upsertThreadProcessingScope scopes scope finishedAt
    match containerRebuildScope with
    | none => threadRequested
    | some scope => upsertThreadProcessingScope threadRequested scope finishedAt
  else scopes

/-- The request that such a commit makes for a scope. -/
def requestedIn (claimIsCurrent : Bool)
    (threadRebuildScope containerRebuildScope : Option ThreadProcessingScope) (finishedAt : ℤ)
    (scopeKey : String) : Option ℤ :=
  if claimIsCurrent ∧ (threadRebuildScope.map ThreadProcessingScope.scopeKey = some scopeKey ∨
      containerRebuildScope.map ThreadProcessingScope.scopeKey = some scopeKey) then
    some finishedAt
  else none

/-! ## Claims -/

/-- The `WHERE` clause of both claims. -/
def Claimable (record : ThreadProcessingLeaseRecord) (claimedAt : ℤ) : Prop :=
  record.requestedAt.isSome ∧ ∀ expiresAt ∈ record.processingLeaseExpiresAt, expiresAt ≤ claimedAt

instance (record : ThreadProcessingLeaseRecord) (claimedAt : ℤ) :
    Decidable (Claimable record claimedAt) :=
  inferInstanceAs (Decidable (_ ∧ _))

/-- The `SET` clause of both claims. -/
def setClaim (workerId : String) (leaseSeconds claimedAt : ℤ)
    (record : ThreadProcessingLeaseRecord) : ThreadProcessingLeaseRecord :=
  { record with
    processingClaimedBy := some workerId
    processingClaimedAt := some claimedAt
    processingLeaseExpiresAt := some (claimedAt + max 1 leaseSeconds * 1000000)
    updatedAt := claimedAt }

@[simp]
theorem scopeKey_setClaim (workerId : String) (leaseSeconds claimedAt : ℤ)
    (record : ThreadProcessingLeaseRecord) :
    (setClaim workerId leaseSeconds claimedAt record).scopeKey = record.scopeKey := rfl

/-- The update of the chosen row and the lease that is returned. -/
def claimRecord (scopes : ThreadScopes) (record : ThreadProcessingLeaseRecord)
    (workerId : String) (leaseSeconds claimedAt : ℤ) :
    ThreadScopes × Option ThreadProcessingLease :=
  match toThreadProcessingLease (setClaim workerId leaseSeconds claimedAt record) with
  | none => (scopes, none)
  | some lease =>
    (scopes.modify record.scopeKey (setClaim workerId leaseSeconds claimedAt), some lease)

def claimThreadProcessingScope (scopes : ThreadScopes) (scope : ThreadProcessingScope)
    (workerId : String) (leaseSeconds claimedAt : ℤ) :
    ThreadScopes × Option ThreadProcessingLease :=
  match scopes.get scope.scopeKey with
  | none => (scopes, none)
  | some record =>
    if Claimable record claimedAt then
      claimRecord scopes record workerId leaseSeconds claimedAt
    else (scopes, none)

/-- `ORDER BY requested_at, created_at, scope_key`. -/
def claimOrder (left right : ThreadProcessingLeaseRecord) : Bool :=
  decide (toLex (left.requestedAt.getD 0, toLex (left.createdAt, left.scopeKey)) ≤
    toLex (right.requestedAt.getD 0, toLex (right.createdAt, right.scopeKey)))

def claimNextThreadProcessingScope (scopes : ThreadScopes) (workerId : String)
    (leaseSeconds claimedAt : ℤ) : ThreadScopes × Option ThreadProcessingLease :=
  match ((scopes.rows.filter fun record =>
      decide (Claimable record claimedAt)).mergeSort claimOrder).head? with
  | none => (scopes, none)
  | some record => claimRecord scopes record workerId leaseSeconds claimedAt

/-! ## Completions -/

/-- `pending_after`: the recorded request is later than the claim. -/
def pendingAfter (record : ThreadProcessingLeaseRecord) (claimedAt : ℤ) : Bool :=
  match record.requestedAt with
  | none => false
  | some requestedAt => decide (claimedAt < requestedAt)

/-- The assignments of both completions. -/
def setCompleted (pending : Bool) (finishedAt : ℤ) (collectionWatermarkAt : Option ℤ)
    (record : ThreadProcessingLeaseRecord) : ThreadProcessingLeaseRecord :=
  { record with
    requestedAt := if pending then record.requestedAt else none
    processingCompletedAt := some finishedAt
    processingClaimedBy := none
    processingClaimedAt := none
    processingLeaseExpiresAt := none
    collectionWatermarkAt := collectionWatermarkAt.or record.collectionWatermarkAt
    updatedAt := finishedAt }

@[simp]
theorem scopeKey_setCompleted (pending : Bool) (finishedAt : ℤ)
    (collectionWatermarkAt : Option ℤ) (record : ThreadProcessingLeaseRecord) :
    (setCompleted pending finishedAt collectionWatermarkAt record).scopeKey =
      record.scopeKey := rfl

/-- The common part of both completions: `none` is the `KeyError` of a missing
row, `some none` the refusal of a lost claim. -/
def completeRecord (scopes : ThreadScopes) (scopeKey workerId : String)
    (claimedAt finishedAt : ℤ) (collectionWatermarkAt : Option ℤ) :
    ThreadScopes × Option (Option Bool) :=
  match scopes.get scopeKey with
  | none => (scopes, none)
  | some record =>
    if record.processingClaimedBy = some workerId ∧
        record.processingClaimedAt = some claimedAt then
      (scopes.modify scopeKey
        (setCompleted (pendingAfter record claimedAt) finishedAt collectionWatermarkAt),
        some (some (pendingAfter record claimedAt)))
    else (scopes, some none)

def completeThreadProcessingScope (scopes : ThreadScopes) (scopeKey workerId : String)
    (claimedAt finishedAt : ℤ) : ThreadScopes × Option (Option Bool) :=
  completeRecord scopes scopeKey workerId claimedAt finishedAt none

/-- The part of `commit_process_result_and_complete_scope` that touches the
scopes. -/
def commitProcessResultAndCompleteScope (scopes : ThreadScopes) (scopeKey workerId : String)
    (claimedAt finishedAt : ℤ) (collectionWatermarkAt : Option ℤ) :
    ThreadScopes × Option (Option Bool) :=
  completeRecord scopes scopeKey workerId claimedAt finishedAt collectionWatermarkAt

/-! ## What the operations do to a row -/

section Rows

variable {scopes : ThreadScopes} {scopeKey workerId : String} {claimedAt : ℤ}
  {record : ThreadProcessingLeaseRecord}

theorem get_upsert (scopes : ThreadScopes) (scope : ThreadProcessingScope) (requestedAt : ℤ)
    (scopeKey : String) :
    (upsertThreadProcessingScope scopes scope requestedAt).get scopeKey =
      if scopeKey = scope.scopeKey then
        match scopes.get scopeKey with
        | none => some (newScopeRecord scope requestedAt)
        | some record => some { record with
            requestedAt := some (laterRequest record.requestedAt requestedAt)
            updatedAt := requestedAt }
      else scopes.get scopeKey := by
  unfold upsertThreadProcessingScope
  cases hget : scopes.get scope.scopeKey with
  | none =>
    obtain ⟨after, hafter⟩ := Table.insertNew_isSome
      (show scopes.get (key (newScopeRecord scope requestedAt)) = none from hget)
    rw [hafter, Option.getD_some, Table.get_insertNew hafter]
    by_cases hkey : scopeKey = scope.scopeKey
    · rw [if_pos hkey, hkey, hget]
      exact if_pos rfl
    · rw [if_neg hkey]
      exact if_neg hkey
  | some record =>
    simp only
    rw [Table.get_modify _ _ (by simp)]
    by_cases hkey : scopeKey = scope.scopeKey
    · rw [if_pos hkey, if_pos hkey, hkey, hget, Option.map_some]
    · rw [if_neg hkey, if_neg hkey]

/-- A claim hands out nothing and changes nothing, or it hands out the lease of
the one claimable row it marks as claimed. -/
def ClaimEffect (scopes : ThreadScopes) (workerId : String) (leaseSeconds claimedAt : ℤ)
    (outcome : ThreadScopes × Option ThreadProcessingLease) : Prop :=
  outcome = (scopes, none) ∨
    ∃ record lease, scopes.get record.scopeKey = some record ∧ Claimable record claimedAt ∧
      toThreadProcessingLease (setClaim workerId leaseSeconds claimedAt record) = some lease ∧
      outcome =
        (scopes.modify record.scopeKey (setClaim workerId leaseSeconds claimedAt), some lease)

theorem claimRecord_effect (hget : scopes.get record.scopeKey = some record)
    (hclaimable : Claimable record claimedAt) (workerId : String) (leaseSeconds : ℤ) :
    ClaimEffect scopes workerId leaseSeconds claimedAt
      (claimRecord scopes record workerId leaseSeconds claimedAt) := by
  unfold claimRecord
  cases hlease : toThreadProcessingLease (setClaim workerId leaseSeconds claimedAt record) with
  | none => exact Or.inl rfl
  | some lease => exact Or.inr ⟨record, lease, hget, hclaimable, hlease, rfl⟩

theorem claimThreadProcessingScope_effect (scopes : ThreadScopes) (scope : ThreadProcessingScope)
    (workerId : String) (leaseSeconds claimedAt : ℤ) :
    ClaimEffect scopes workerId leaseSeconds claimedAt
      (claimThreadProcessingScope scopes scope workerId leaseSeconds claimedAt) := by
  unfold claimThreadProcessingScope
  cases hget : scopes.get scope.scopeKey with
  | none => exact Or.inl rfl
  | some record =>
    by_cases hclaimable : Claimable record claimedAt
    · have hkey : record.scopeKey = scope.scopeKey := Table.key_of_get hget
      simp only [if_pos hclaimable]
      exact claimRecord_effect (hkey ▸ hget) hclaimable workerId leaseSeconds
    · simp only [if_neg hclaimable]
      exact Or.inl rfl

theorem claimNextThreadProcessingScope_effect (scopes : ThreadScopes) (workerId : String)
    (leaseSeconds claimedAt : ℤ) :
    ClaimEffect scopes workerId leaseSeconds claimedAt
      (claimNextThreadProcessingScope scopes workerId leaseSeconds claimedAt) := by
  unfold claimNextThreadProcessingScope
  cases hhead : ((scopes.rows.filter fun record =>
      decide (Claimable record claimedAt)).mergeSort claimOrder).head? with
  | none => exact Or.inl rfl
  | some record =>
    have hsorted := List.mem_of_mem_head? hhead
    rw [List.mem_mergeSort, List.mem_filter] at hsorted
    exact claimRecord_effect (Table.get_of_mem hsorted.1) (of_decide_eq_true hsorted.2) workerId
      leaseSeconds

/-- The lease that a claim returns shows the claimed row. -/
theorem toThreadProcessingLease_setClaim {leaseSeconds : ℤ} {lease : ThreadProcessingLease}
    (hlease : toThreadProcessingLease (setClaim workerId leaseSeconds claimedAt record) =
      some lease) :
    lease.scopeKey = record.scopeKey ∧ lease.processingClaimedBy = workerId ∧
      lease.processingClaimedAt = claimedAt ∧ record.requestedAt = some lease.requestedAt ∧
      lease.useCase = record.useCase ∧ lease.containerRef = record.containerRef ∧
      lease.threadRef = record.threadRef ∧
      (∀ visibility, record.visibility = some visibility → visibility ≠ "" →
        lease.visibility = visibility) ∧
      lease.collectionWatermarkAt = record.collectionWatermarkAt := by
  unfold toThreadProcessingLease setClaim at hlease
  cases hrequested : record.requestedAt with
  | none => simp [hrequested] at hlease
  | some requestedAt =>
    simp only [hrequested, Option.some.injEq] at hlease
    subst hlease
    refine ⟨rfl, rfl, rfl, rfl, rfl, rfl, rfl, ?_, rfl⟩
    intro visibility hvisibility hne
    simp only [hvisibility, if_neg hne]

theorem scopeKey_of_claimThreadProcessingScope {scope : ThreadProcessingScope}
    {leaseSeconds : ℤ} {lease : ThreadProcessingLease}
    (hlease : (claimThreadProcessingScope scopes scope workerId leaseSeconds claimedAt).2 =
      some lease) : lease.scopeKey = scope.scopeKey := by
  unfold claimThreadProcessingScope at hlease
  cases hget : scopes.get scope.scopeKey with
  | none => simp [hget] at hlease
  | some record =>
    have hkey : record.scopeKey = scope.scopeKey := Table.key_of_get hget
    simp only [hget] at hlease
    split at hlease
    · unfold claimRecord at hlease
      split at hlease
      · cases hlease
      · next claimed hclaimed =>
        rw [← Option.some.inj hlease, (toThreadProcessingLease_setClaim hclaimed).1, hkey]
    · cases hlease

/-- A completion is refused and changes nothing, or it completes the row whose
claim it names. -/
theorem completeRecord_cases (scopes : ThreadScopes) (scopeKey workerId : String)
    (claimedAt finishedAt : ℤ) (watermark : Option ℤ) :
    ((completeRecord scopes scopeKey workerId claimedAt finishedAt watermark).1 = scopes ∧
        ∀ pending, (completeRecord scopes scopeKey workerId claimedAt finishedAt watermark).2 ≠
          some (some pending)) ∨
      ∃ record, scopes.get scopeKey = some record ∧
        record.processingClaimedBy = some workerId ∧
        record.processingClaimedAt = some claimedAt ∧
        completeRecord scopes scopeKey workerId claimedAt finishedAt watermark =
          (scopes.modify scopeKey
            (setCompleted (pendingAfter record claimedAt) finishedAt watermark),
            some (some (pendingAfter record claimedAt))) := by
  unfold completeRecord
  cases hget : scopes.get scopeKey with
  | none => exact Or.inl ⟨rfl, fun _ heq => by cases heq⟩
  | some record =>
    by_cases hcurrent : record.processingClaimedBy = some workerId ∧
        record.processingClaimedAt = some claimedAt
    · exact Or.inr ⟨record, rfl, hcurrent.1, hcurrent.2, by simp only [if_pos hcurrent]⟩
    · simp only [if_neg hcurrent]
      exact Or.inl ⟨trivial, fun _ heq => by cases heq⟩

end Rows

/-! ## The operations of all workers -/

/-- The transactions on thread scopes with their arguments. -/
inductive ScopeOp where
  | commitPackageProcessResult (claimIsCurrent : Bool)
      (threadRebuildScope containerRebuildScope : Option ThreadProcessingScope)
      (finishedAt : ℤ)
  | commitProcessedSourceItem (claimIsCurrent : Bool)
      (threadRebuildScope containerRebuildScope : Option ThreadProcessingScope)
      (finishedAt : ℤ)
  | claimThreadProcessingScope (scope : ThreadProcessingScope) (workerId : String)
      (leaseSeconds claimedAt : ℤ)
  | claimNextThreadProcessingScope (workerId : String) (leaseSeconds claimedAt : ℤ)
  | completeThreadProcessingScope (scopeKey workerId : String) (claimedAt finishedAt : ℤ)
  | commitProcessResultAndCompleteScope (scopeKey workerId : String)
      (claimedAt finishedAt : ℤ) (collectionWatermarkAt : Option ℤ)
  deriving DecidableEq, Repr

/-- What a transaction returns to its caller. -/
inductive ScopeOutcome where
  | committed
  | claimed (lease : Option ThreadProcessingLease)
  | completed (pendingAfter : Option Bool)
  | keyError
  deriving DecidableEq, Repr

/-- The outcome of a completion as its caller sees it. -/
def ofCompletion (result : ThreadScopes × Option (Option Bool)) :
    ThreadScopes × ScopeOutcome :=
  match result.2 with
  | none => (result.1, .keyError)
  | some pendingAfter => (result.1, .completed pendingAfter)

namespace ScopeOp

/-- One transaction: the table it leaves and what it returns. -/
def execute (scopes : ThreadScopes) : ScopeOp → ThreadScopes × ScopeOutcome
  | commitPackageProcessResult claimIsCurrent threadScope containerScope finishedAt =>
    (requestRebuilds scopes claimIsCurrent threadScope containerScope finishedAt, .committed)
  | commitProcessedSourceItem claimIsCurrent threadScope containerScope finishedAt =>
    (requestRebuilds scopes claimIsCurrent threadScope containerScope finishedAt, .committed)
  | claimThreadProcessingScope scope workerId leaseSeconds claimedAt =>
    let result := Queue.claimThreadProcessingScope scopes scope workerId leaseSeconds claimedAt
    (result.1, .claimed result.2)
  | claimNextThreadProcessingScope workerId leaseSeconds claimedAt =>
    let result := Queue.claimNextThreadProcessingScope scopes workerId leaseSeconds claimedAt
    (result.1, .claimed result.2)
  | completeThreadProcessingScope scopeKey workerId claimedAt finishedAt =>
    ofCompletion
      (Queue.completeThreadProcessingScope scopes scopeKey workerId claimedAt finishedAt)
  | commitProcessResultAndCompleteScope scopeKey workerId claimedAt finishedAt watermark =>
    ofCompletion (Queue.commitProcessResultAndCompleteScope scopes scopeKey workerId claimedAt
      finishedAt watermark)

/-- The table a transaction leaves. -/
def step (scopes : ThreadScopes) (op : ScopeOp) : ThreadScopes := (op.execute scopes).1

section

variable (scopes : ThreadScopes) (scopeKey workerId : String) (claimedAt finishedAt : ℤ)

theorem step_complete :
    step scopes (completeThreadProcessingScope scopeKey workerId claimedAt finishedAt) =
      (completeRecord scopes scopeKey workerId claimedAt finishedAt none).1 := by
  simp only [step, execute, ofCompletion, Queue.completeThreadProcessingScope]
  split <;> rfl

theorem step_commitAndComplete (watermark : Option ℤ) :
    step scopes (commitProcessResultAndCompleteScope scopeKey workerId claimedAt finishedAt
        watermark) =
      (completeRecord scopes scopeKey workerId claimedAt finishedAt watermark).1 := by
  simp only [step, execute, ofCompletion, Queue.commitProcessResultAndCompleteScope]
  split <;> rfl

end

/-- The timestamp of the request that the transaction commits for a scope. -/
def requestFor (scopeKey : String) : ScopeOp → Option ℤ
  | commitPackageProcessResult claimIsCurrent threadScope containerScope finishedAt
  | commitProcessedSourceItem claimIsCurrent threadScope containerScope finishedAt =>
    requestedIn claimIsCurrent threadScope containerScope finishedAt scopeKey
  | _ => none

/-- The scope, worker and claim time that a completion names. -/
def completes : ScopeOp → Option (String × String × ℤ)
  | completeThreadProcessingScope scopeKey workerId claimedAt _ =>
    some (scopeKey, workerId, claimedAt)
  | commitProcessResultAndCompleteScope scopeKey workerId claimedAt _ _ =>
    some (scopeKey, workerId, claimedAt)
  | _ => none

/-- The transaction hands out a claim of the scope. -/
def Claims (scopeKey : String) (scopes : ThreadScopes) (op : ScopeOp) : Prop :=
  ∃ lease, (op.execute scopes).2 = .claimed (some lease) ∧ lease.scopeKey = scopeKey

end ScopeOp

/-- A rebuild of the scope is requested. -/
def Pending (scopes : ThreadScopes) (scopeKey : String) : Prop :=
  ((scopes.get scopeKey).bind ThreadProcessingLeaseRecord.requestedAt).isSome

instance (scopes : ThreadScopes) (scopeKey : String) : Decidable (Pending scopes scopeKey) :=
  inferInstanceAs (Decidable (_ = true))

end Pallium.Queue
