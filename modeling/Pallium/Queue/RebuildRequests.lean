import Pallium.Queue.ThreadScope

/-!
# Which rebuild requests survive a completion

A completion clears the request of its scope unless the recorded request is
later than the claim.  Along a run in which nobody else claims the scope, the
recorded request is the latest of the one found at the claim and those
committed since, so the completion keeps a request exactly if one of these
carries a timestamp later than the claim.  Both timestamps were read before
the write lock was taken, so a request that commits after the claim can carry
an earlier timestamp.
-/

namespace Pallium.Queue

open Pallium.Run

variable {scopes : ThreadScopes} {scopeKey workerId : String} {claimedAt requestedAt : ℤ}
  {lease : ThreadProcessingLease} {ops : List ScopeOp}

/-- The scope is claimed by a worker and its recorded request has a timestamp. -/
def Held (scopes : ThreadScopes) (scopeKey workerId : String)
    (claimedAt requestedAt : ℤ) : Prop :=
  ∃ record, scopes.get scopeKey = some record ∧
    record.processingClaimedBy = some workerId ∧
    record.processingClaimedAt = some claimedAt ∧
    record.requestedAt = some requestedAt

/-- The scope is known and nobody has claimed it. -/
def Released (scopes : ThreadScopes) (scopeKey : String) : Prop :=
  ∃ record, scopes.get scopeKey = some record ∧ record.processingClaimedBy = none

/-- The recorded request after a transaction that may request the scope. -/
def advanced (requestedAt : ℤ) : Option ℤ → ℤ
  | none => requestedAt
  | some finishedAt => laterRequest (some requestedAt) finishedAt

@[simp]
theorem advanced_none (requestedAt : ℤ) : advanced requestedAt none = requestedAt := rfl

theorem lt_advanced_iff {request : Option ℤ} :
    claimedAt < advanced requestedAt request ↔
      claimedAt < requestedAt ∨ ∃ finishedAt, request = some finishedAt ∧ claimedAt < finishedAt := by
  cases request with
  | none => simp [advanced]
  | some finishedAt =>
    simp only [advanced, laterRequest, Option.some.injEq, exists_eq_left']
    split <;> omega

theorem laterRequest_idem (existing : Option ℤ) (requested : ℤ) :
    laterRequest (some (laterRequest existing requested)) requested =
      laterRequest existing requested := by
  cases existing with
  | none => simp [laterRequest]
  | some existing =>
    simp only [laterRequest]
    split <;> simp_all

/-! ## What one transaction does to a claim -/

theorem Held.upsert (hheld : Held scopes scopeKey workerId claimedAt requestedAt)
    (scope : ThreadProcessingScope) (finishedAt : ℤ) :
    Held (upsertThreadProcessingScope scopes scope finishedAt) scopeKey workerId claimedAt
      (advanced requestedAt (if scope.scopeKey = scopeKey then some finishedAt else none)) := by
  obtain ⟨record, hget, hworker, hclaimed, hrequested⟩ := hheld
  rw [Held, get_upsert, hget]
  by_cases hscope : scopeKey = scope.scopeKey
  · rw [if_pos hscope, if_pos hscope.symm]
    exact ⟨_, rfl, hworker, hclaimed, by rw [advanced, ← hrequested]⟩
  · rw [if_neg hscope, if_neg (Ne.symm hscope)]
    exact ⟨record, rfl, hworker, hclaimed, hrequested⟩

theorem Released.upsert (hreleased : Released scopes scopeKey) (scope : ThreadProcessingScope)
    (finishedAt : ℤ) :
    Released (upsertThreadProcessingScope scopes scope finishedAt) scopeKey := by
  obtain ⟨record, hget, hworker⟩ := hreleased
  rw [Released, get_upsert, hget]
  by_cases hscope : scopeKey = scope.scopeKey
  · rw [if_pos hscope]
    exact ⟨_, rfl, hworker⟩
  · rw [if_neg hscope]
    exact ⟨record, rfl, hworker⟩

theorem Held.requestRebuilds (hheld : Held scopes scopeKey workerId claimedAt requestedAt)
    (claimIsCurrent : Bool) (threadScope containerScope : Option ThreadProcessingScope)
    (finishedAt : ℤ) :
    Held (requestRebuilds scopes claimIsCurrent threadScope containerScope finishedAt) scopeKey
      workerId claimedAt
      (advanced requestedAt
        (requestedIn claimIsCurrent threadScope containerScope finishedAt scopeKey)) := by
  simp only [requestedIn]
  cases claimIsCurrent with
  | false => simpa [Queue.requestRebuilds] using hheld
  | true =>
    cases threadScope with
    | none =>
      cases containerScope with
      | none => simpa [Queue.requestRebuilds] using hheld
      | some container => simpa [Queue.requestRebuilds] using hheld.upsert container finishedAt
    | some thread =>
      have hthread := hheld.upsert thread finishedAt
      cases containerScope with
      | none => simpa [Queue.requestRebuilds] using hthread
      | some container =>
        have hboth := hthread.upsert container finishedAt
        by_cases hthreadKey : thread.scopeKey = scopeKey
        · by_cases hcontainerKey : container.scopeKey = scopeKey
          · simpa [Queue.requestRebuilds, hthreadKey, hcontainerKey, advanced,
              laterRequest_idem] using hboth
          · simpa [Queue.requestRebuilds, hthreadKey, hcontainerKey, advanced] using hboth
        · simpa [Queue.requestRebuilds, hthreadKey, advanced] using hboth

/-- What a request for one scope keeps, the requests of a commit keep. -/
theorem requestRebuilds_invariant {invariant : ThreadScopes → Prop} {finishedAt : ℤ}
    (hupsert : ∀ current scope, invariant current →
      invariant (upsertThreadProcessingScope current scope finishedAt))
    (hscopes : invariant scopes) (claimIsCurrent : Bool)
    (threadScope containerScope : Option ThreadProcessingScope) :
    invariant (requestRebuilds scopes claimIsCurrent threadScope containerScope finishedAt) := by
  cases claimIsCurrent with
  | false => exact hscopes
  | true =>
    cases threadScope with
    | none =>
      cases containerScope with
      | none => exact hscopes
      | some container => exact hupsert _ container hscopes
    | some thread =>
      cases containerScope with
      | none => exact hupsert _ thread hscopes
      | some container => exact hupsert _ container (hupsert _ thread hscopes)

section Claims

variable {claimer : String} {leaseSeconds observedAt : ℤ}
  {outcome : ThreadScopes × Option ThreadProcessingLease}

theorem get_of_claim_other (heffect : ClaimEffect scopes claimer leaseSeconds observedAt outcome)
    (hother : ∀ lease, outcome.2 = some lease → lease.scopeKey ≠ scopeKey) :
    outcome.1.get scopeKey = scopes.get scopeKey := by
  rcases heffect with hnone | ⟨record, lease, -, -, hlease, houtcome⟩
  · rw [hnone]
  · subst houtcome
    refine Table.get_modify_of_ne _ (by simp) (Ne.symm ?_)
    rw [← (toThreadProcessingLease_setClaim hlease).1]
    exact hother lease rfl

theorem held_of_claim (heffect : ClaimEffect scopes claimer leaseSeconds observedAt outcome)
    {lease : ThreadProcessingLease} (hreturned : outcome.2 = some lease) :
    Held outcome.1 lease.scopeKey lease.processingClaimedBy lease.processingClaimedAt
      lease.requestedAt := by
  rcases heffect with hnone | ⟨record, claimed, hget, -, hlease, houtcome⟩
  · rw [hnone] at hreturned
    cases hreturned
  · subst houtcome
    obtain rfl : claimed = lease := Option.some.inj hreturned
    obtain ⟨hkey, hworker, hclaimed, hrequested, -⟩ := toThreadProcessingLease_setClaim hlease
    rw [hkey, hworker, hclaimed]
    refine ⟨setClaim claimer leaseSeconds observedAt record, ?_, rfl, rfl, hrequested⟩
    simp only
    rw [Table.get_modify_self _ _ (by simp), hget, Option.map_some]

end Claims

/-- A completion by the holder releases the scope and keeps the request exactly
if it is later than the claim; a completion by anyone else is refused. -/
theorem Held.completeRecord (hheld : Held scopes scopeKey workerId claimedAt requestedAt)
    (otherKey otherWorker : String) (otherClaimedAt finishedAt : ℤ) (watermark : Option ℤ) :
    (otherKey = scopeKey ∧ otherWorker = workerId ∧ otherClaimedAt = claimedAt ∧
        Released (completeRecord scopes otherKey otherWorker otherClaimedAt finishedAt
          watermark).1 scopeKey ∧
        (Pending (completeRecord scopes otherKey otherWorker otherClaimedAt finishedAt
          watermark).1 scopeKey ↔ claimedAt < requestedAt)) ∨
      (¬ (otherKey = scopeKey ∧ otherWorker = workerId ∧ otherClaimedAt = claimedAt) ∧
        Held (completeRecord scopes otherKey otherWorker otherClaimedAt finishedAt
          watermark).1 scopeKey workerId claimedAt requestedAt) := by
  obtain ⟨record, hget, hworker, hclaimed, hrequested⟩ := hheld
  by_cases hcurrent : otherKey = scopeKey ∧ otherWorker = workerId ∧ otherClaimedAt = claimedAt
  · obtain ⟨rfl, rfl, rfl⟩ := hcurrent
    have hafter : (Queue.completeRecord scopes otherKey otherWorker otherClaimedAt finishedAt
        watermark).1.get otherKey =
        some (setCompleted (pendingAfter record otherClaimedAt) finishedAt watermark record) := by
      simp only [Queue.completeRecord, hget, if_pos (And.intro hworker hclaimed)]
      rw [Table.get_modify_self _ _ (by simp), hget, Option.map_some]
    refine Or.inl ⟨rfl, rfl, rfl, ⟨_, hafter, rfl⟩, ?_⟩
    rw [Pending, hafter, Option.bind_some, setCompleted, pendingAfter, hrequested]
    by_cases hlate : otherClaimedAt < requestedAt <;> simp [hlate]
  · refine Or.inr ⟨hcurrent, ?_⟩
    rcases completeRecord_cases scopes otherKey otherWorker otherClaimedAt finishedAt watermark
      with ⟨hsame, -⟩ | ⟨completed, hother, hotherWorker, hotherClaimed, hresult⟩
    · rw [hsame]
      exact ⟨record, hget, hworker, hclaimed, hrequested⟩
    · have hne : otherKey ≠ scopeKey := by
        rintro rfl
        obtain rfl : completed = record := Option.eq_some_unique hother hget
        rw [hworker, Option.some.injEq] at hotherWorker
        rw [hclaimed, Option.some.injEq] at hotherClaimed
        exact hcurrent ⟨rfl, hotherWorker.symm, hotherClaimed.symm⟩
      rw [hresult]
      exact ⟨record, (Table.get_modify_of_ne _ (by simp) (Ne.symm hne)).trans hget, hworker,
        hclaimed, hrequested⟩

/-- Nobody completes a scope that nobody has claimed. -/
theorem Released.completeRecord (hreleased : Released scopes scopeKey)
    (otherKey otherWorker : String) (otherClaimedAt finishedAt : ℤ) (watermark : Option ℤ) :
    Released (completeRecord scopes otherKey otherWorker otherClaimedAt finishedAt
        watermark).1 scopeKey ∧
      ∀ pending, otherKey = scopeKey →
        (completeRecord scopes otherKey otherWorker otherClaimedAt finishedAt watermark).2 ≠
          some (some pending) := by
  obtain ⟨record, hget, hworker⟩ := hreleased
  rcases completeRecord_cases scopes otherKey otherWorker otherClaimedAt finishedAt watermark
    with ⟨hsame, hrefused⟩ | ⟨completed, hother, hotherWorker, -, hresult⟩
  · rw [hsame]
    exact ⟨⟨record, hget, hworker⟩, fun pending _ => hrefused pending⟩
  · have hne : otherKey ≠ scopeKey := by
      rintro rfl
      obtain rfl : completed = record := Option.eq_some_unique hother hget
      rw [hworker] at hotherWorker
      cases hotherWorker
    rw [hresult]
    exact ⟨⟨record, (Table.get_modify_of_ne _ (by simp) (Ne.symm hne)).trans hget, hworker⟩,
      fun _ heq => absurd heq hne⟩

/-! ## What a run does to a row -/

theorem ScopeOp.step_cases (op : ScopeOp) (hunclaimed : ¬ op.Claims scopeKey scopes) :
    (∃ claimIsCurrent threadScope containerScope finishedAt,
      op.step scopes = requestRebuilds scopes claimIsCurrent threadScope containerScope finishedAt ∧
      op.requestFor scopeKey =
        requestedIn claimIsCurrent threadScope containerScope finishedAt scopeKey) ∨
    op.requestFor scopeKey = none ∧ ((op.step scopes).get scopeKey = scopes.get scopeKey ∨
      ∃ otherKey otherWorker otherClaimedAt finishedAt watermark,
        op.completes = some (otherKey, otherWorker, otherClaimedAt) ∧ op.step scopes =
          (completeRecord scopes otherKey otherWorker otherClaimedAt finishedAt watermark).1) := by
  cases op with
  | commitPackageProcessResult claimIsCurrent threadScope containerScope finishedAt =>
    exact Or.inl ⟨claimIsCurrent, threadScope, containerScope, finishedAt, rfl, rfl⟩
  | commitProcessedSourceItem claimIsCurrent threadScope containerScope finishedAt =>
    exact Or.inl ⟨claimIsCurrent, threadScope, containerScope, finishedAt, rfl, rfl⟩
  | claimThreadProcessingScope scope claimer leaseSeconds observedAt =>
    exact Or.inr ⟨rfl, Or.inl (get_of_claim_other
      (claimThreadProcessingScope_effect scopes scope claimer leaseSeconds observedAt)
      fun lease hlease hkey => hunclaimed ⟨lease, congrArg ScopeOutcome.claimed hlease, hkey⟩)⟩
  | claimNextThreadProcessingScope claimer leaseSeconds observedAt =>
    exact Or.inr ⟨rfl, Or.inl (get_of_claim_other
      (claimNextThreadProcessingScope_effect scopes claimer leaseSeconds observedAt)
      fun lease hlease hkey => hunclaimed ⟨lease, congrArg ScopeOutcome.claimed hlease, hkey⟩)⟩
  | completeThreadProcessingScope otherKey otherWorker otherClaimedAt finishedAt =>
    exact Or.inr ⟨rfl, Or.inr ⟨_, _, _, _, _, rfl, ScopeOp.step_complete ..⟩⟩
  | commitProcessResultAndCompleteScope otherKey otherWorker otherClaimedAt finishedAt mark =>
    exact Or.inr ⟨rfl, Or.inr ⟨_, _, _, _, _, rfl, ScopeOp.step_commitAndComplete ..⟩⟩

theorem Held.step (hheld : Held scopes scopeKey workerId claimedAt requestedAt) (op : ScopeOp)
    (hunclaimed : ¬ op.Claims scopeKey scopes) :
    Held (op.step scopes) scopeKey workerId claimedAt
        (advanced requestedAt (op.requestFor scopeKey)) ∨
      Released (op.step scopes) scopeKey := by
  rcases op.step_cases hunclaimed with ⟨_, _, _, _, hstep, hrequest⟩ |
    ⟨hrequest, hsame | ⟨_, _, _, _, _, -, hstep⟩⟩
  · rw [hstep, hrequest]
    exact Or.inl (hheld.requestRebuilds ..)
  · rw [hrequest]
    exact Or.inl (by rwa [Held, hsame])
  · rw [hstep, hrequest]
    exact (hheld.completeRecord ..).symm.imp And.right fun hcurrent => hcurrent.2.2.2.1

theorem Released.step (hreleased : Released scopes scopeKey) (op : ScopeOp)
    (hunclaimed : ¬ op.Claims scopeKey scopes) : Released (op.step scopes) scopeKey := by
  rcases op.step_cases hunclaimed with ⟨_, _, _, _, hstep, -⟩ |
    ⟨-, hsame | ⟨_, _, _, _, _, -, hstep⟩⟩
  · rw [hstep]
    exact @requestRebuilds_invariant _ (Released · scopeKey) _
      (fun _ scope hbefore => hbefore.upsert scope _) hreleased ..
  · rwa [Released, hsame]
  · rw [hstep]
    exact (hreleased.completeRecord ..).1

theorem Released.run (hreleased : Released scopes scopeKey)
    (hunclaimed : Along ScopeOp.step (fun current op => ¬ op.Claims scopeKey current) scopes ops) :
    Released (run ScopeOp.step scopes ops) scopeKey := by
  have hpreserved : ∀ (current : ThreadScopes) (op : ScopeOp), ¬ op.Claims scopeKey current →
      Released current scopeKey → Released (op.step current) scopeKey :=
    fun _ op hop hcurrent => Released.step hcurrent op hop
  exact Along.invariant hunclaimed hreleased hpreserved

/-- The same over a run: the recorded request is later than the claim exactly
if it was so from the start or such a request was committed since. -/
theorem Held.run (hheld : Held scopes scopeKey workerId claimedAt requestedAt)
    (hunclaimed : Along ScopeOp.step (fun current op => ¬ op.Claims scopeKey current) scopes ops) :
    (∃ recordedAt, Held (run ScopeOp.step scopes ops) scopeKey workerId claimedAt recordedAt ∧
      (claimedAt < recordedAt ↔ claimedAt < requestedAt ∨
        ∃ op ∈ ops, ∃ finishedAt, op.requestFor scopeKey = some finishedAt ∧
          claimedAt < finishedAt)) ∨
      Released (run ScopeOp.step scopes ops) scopeKey := by
  induction ops generalizing scopes requestedAt with
  | nil => exact Or.inl ⟨requestedAt, hheld, by simp⟩
  | cons first rest ih =>
    obtain ⟨hfirst, hrest⟩ := hunclaimed
    rcases hheld.step first hfirst with hnext | hreleased
    · rcases ih hnext hrest with ⟨recordedAt, hafter, hlate⟩ | hreleased
      · refine Or.inl ⟨recordedAt, hafter, hlate.trans ?_⟩
        simp only [lt_advanced_iff, List.mem_cons, exists_eq_or_imp, or_assoc]
      · exact Or.inr hreleased
    · exact Or.inr (hreleased.run hrest)

/-- The clock of a claim. -/
def ScopeOp.clock : ScopeOp → Option ℤ
  | claimThreadProcessingScope _ _ _ claimedAt | claimNextThreadProcessingScope _ _ claimedAt =>
    some claimedAt
  | _ => none

theorem effect_of_claimed {claim : ScopeOp}
    (hclaim : (claim.execute scopes).2 = .claimed (some lease)) :
    ∃ claimer leaseSeconds observedAt outcome,
      ClaimEffect scopes claimer leaseSeconds observedAt outcome ∧ outcome.2 = some lease ∧
        claim.step scopes = outcome.1 ∧ claim.clock = some observedAt := by
  cases claim with
  | commitPackageProcessResult => cases hclaim
  | commitProcessedSourceItem => cases hclaim
  | claimThreadProcessingScope scope claimer leaseSeconds observedAt =>
    exact ⟨_, _, _, _,
      claimThreadProcessingScope_effect scopes scope claimer leaseSeconds observedAt,
      ScopeOutcome.claimed.inj hclaim, rfl, rfl⟩
  | claimNextThreadProcessingScope claimer leaseSeconds observedAt =>
    exact ⟨_, _, _, _, claimNextThreadProcessingScope_effect scopes claimer leaseSeconds observedAt,
      ScopeOutcome.claimed.inj hclaim, rfl, rfl⟩
  | completeThreadProcessingScope otherKey otherWorker otherClaimedAt finishedAt =>
    simp only [ScopeOp.execute, ofCompletion] at hclaim
    split at hclaim <;> cases hclaim
  | commitProcessResultAndCompleteScope otherKey otherWorker otherClaimedAt finishedAt mark =>
    simp only [ScopeOp.execute, ofCompletion] at hclaim
    split at hclaim <;> cases hclaim

theorem held_of_claimed {claim : ScopeOp}
    (hclaim : (claim.execute scopes).2 = .claimed (some lease)) :
    Held (claim.step scopes) lease.scopeKey lease.processingClaimedBy lease.processingClaimedAt
      lease.requestedAt := by
  obtain ⟨_, _, _, _, heffect, hreturned, hstep, -⟩ := effect_of_claimed hclaim
  rw [hstep]
  exact held_of_claim heffect hreturned

theorem completion_eq {completion : ScopeOp}
    (hcompletes : completion.completes = some (scopeKey, workerId, claimedAt)) :
    ∃ finishedAt mark, ∀ current : ThreadScopes,
      completion.execute current =
        ofCompletion (completeRecord current scopeKey workerId claimedAt finishedAt mark) := by
  cases completion with
  | completeThreadProcessingScope otherKey otherWorker otherClaimedAt finishedAt =>
    simp only [ScopeOp.completes, Option.some.injEq, Prod.mk.injEq] at hcompletes
    obtain ⟨rfl, rfl, rfl⟩ := hcompletes
    exact ⟨finishedAt, none, fun _ => rfl⟩
  | commitProcessResultAndCompleteScope otherKey otherWorker otherClaimedAt finishedAt mark =>
    simp only [ScopeOp.completes, Option.some.injEq, Prod.mk.injEq] at hcompletes
    obtain ⟨rfl, rfl, rfl⟩ := hcompletes
    exact ⟨finishedAt, mark, fun _ => rfl⟩
  | _ => cases hcompletes

/-- A worker claims a scope, any transactions follow that do not claim the
scope again, and the worker completes its claim.  The scope is then still
requested exactly if the request found at the claim, or one committed since,
carries a timestamp later than the claim's. -/
theorem pending_after_completion_iff {claim completion : ScopeOp} {ops : List ScopeOp}
    {lease : ThreadProcessingLease} {pendingAfter : Bool}
    (hclaim : (claim.execute scopes).2 = .claimed (some lease))
    (hunclaimed : Along ScopeOp.step (fun current op => ¬ op.Claims lease.scopeKey current)
      (claim.step scopes) ops)
    (hcompletes : completion.completes =
      some (lease.scopeKey, lease.processingClaimedBy, lease.processingClaimedAt))
    (hcompletion : (completion.execute (run ScopeOp.step (claim.step scopes) ops)).2 =
      .completed (some pendingAfter)) :
    Pending (completion.step (run ScopeOp.step (claim.step scopes) ops)) lease.scopeKey ↔
      lease.processingClaimedAt < lease.requestedAt ∨
        ∃ op ∈ ops, ∃ finishedAt, op.requestFor lease.scopeKey = some finishedAt ∧
          lease.processingClaimedAt < finishedAt := by
  obtain ⟨finishedAt, mark, hcompleted⟩ := completion_eq hcompletes
  have hexecute := hcompleted (run ScopeOp.step (claim.step scopes) ops)
  have hstep : completion.step (run ScopeOp.step (claim.step scopes) ops) =
      (completeRecord (run ScopeOp.step (claim.step scopes) ops) lease.scopeKey
        lease.processingClaimedBy lease.processingClaimedAt finishedAt mark).1 := by
    rw [ScopeOp.step, hexecute, ofCompletion]
    split <;> rfl
  rw [hstep]
  rcases (held_of_claimed hclaim).run hunclaimed with ⟨recordedAt, hheld, hlate⟩ | hreleased
  · rcases hheld.completeRecord lease.scopeKey lease.processingClaimedBy
      lease.processingClaimedAt finishedAt mark with ⟨-, -, -, -, hpending⟩ | ⟨hother, -⟩
    · exact hpending.trans hlate
    · exact absurd ⟨rfl, rfl, rfl⟩ hother
  · have hrefused := (hreleased.completeRecord lease.scopeKey lease.processingClaimedBy
      lease.processingClaimedAt finishedAt mark).2 pendingAfter rfl
    rw [hexecute, ofCompletion] at hcompletion
    split at hcompletion
    · cases hcompletion
    · next outcome houtcome =>
      rw [ScopeOutcome.completed.inj hcompletion] at houtcome
      exact absurd houtcome hrefused

/-! ## A lost request -/

/-- The scope of the runs below. -/
def exampleScope : ThreadProcessingScope := ⟨"scope", "notes", "container", some "thread", "private"⟩

/-- The claim of the run below, taken at time 100. -/
def exampleClaim : ScopeOp := .claimThreadProcessingScope exampleScope "worker" 60 100

/-- A scope requested at time 10. -/
def requestedScopes : ThreadScopes :=
  ScopeOp.step Table.empty (.commitPackageProcessResult true (some exampleScope) none 10)

/-- A commit whose timestamp was read before the claim's, but which acquires
the write lock after the claim. -/
def lateCommit : ScopeOp := .commitPackageProcessResult true (some exampleScope) none 50

/-- The completion of the claim. -/
def exampleCompletion : ScopeOp := .completeThreadProcessingScope "scope" "worker" 100 200

/-- The lease that the claim returns. -/
def exampleLease : ThreadProcessingLease where
  scopeKey := "scope"
  useCase := "notes"
  containerRef := "container"
  threadRef := some "thread"
  visibility := "private"
  requestedAt := 10
  processingClaimedBy := "worker"
  processingClaimedAt := 100
  processingLeaseExpiresAt := 60000100
  collectionWatermarkAt := none

/-- The request of the late commit is gone after the completion. -/
theorem lateCommit_is_lost :
    (exampleClaim.execute requestedScopes).2 = .claimed (some exampleLease) ∧
      lateCommit.requestFor exampleLease.scopeKey = some 50 ∧
      (exampleCompletion.execute
        (run ScopeOp.step (exampleClaim.step requestedScopes) [lateCommit])).2 =
          .completed (some false) ∧
      ¬ Pending (exampleCompletion.step
        (run ScopeOp.step (exampleClaim.step requestedScopes) [lateCommit]))
          exampleLease.scopeKey := by
  decide

/-- A commit whose timestamp is later than the claim's is kept. -/
theorem pending_after_completion_later :
    Pending (exampleCompletion.step (run ScopeOp.step (exampleClaim.step requestedScopes)
      [.commitPackageProcessResult true (some exampleScope) none 150])) "scope" := by
  have hunclaimed : Along ScopeOp.step
      (fun current op => ¬ op.Claims exampleLease.scopeKey current)
      (exampleClaim.step requestedScopes)
      [.commitPackageProcessResult true (some exampleScope) none 150] := by
    refine ⟨?_, trivial⟩
    rintro ⟨lease, hlease, -⟩
    cases hlease
  have hcompletion : (exampleCompletion.execute (run ScopeOp.step
      (exampleClaim.step requestedScopes)
      [.commitPackageProcessResult true (some exampleScope) none 150])).2 =
        .completed (some true) := by
    decide
  refine (pending_after_completion_iff
    (by decide : (exampleClaim.execute requestedScopes).2 = .claimed (some exampleLease))
    hunclaimed (by decide : exampleCompletion.completes = _) hcompletion).mpr (Or.inr ?_)
  exact ⟨_, List.mem_singleton_self _, 150, by decide, by decide⟩

end Pallium.Queue
