import Pallium.Queue.RebuildRequests

/-!
# The lease of a scope

A worker that has claimed a scope holds it until its lease runs out.  As long as the clocks of
other claims read less than that, none of them is given the scope, and the worker can complete
its claim, whatever is requested or completed meanwhile.
-/

namespace Pallium.Queue

open Pallium.Run

variable {scopes : ThreadScopes} {scopeKey : String} {lease : ThreadProcessingLease}

/-- By whom a row is claimed, since when and until when. -/
def ThreadProcessingLeaseRecord.claim (record : ThreadProcessingLeaseRecord) :
    Option String × Option ℤ × Option ℤ :=
  (record.processingClaimedBy, record.processingClaimedAt, record.processingLeaseExpiresAt)

def Leased (scopes : ThreadScopes) (lease : ThreadProcessingLease) : Prop :=
  ∃ record, scopes.get lease.scopeKey = some record ∧ record.claim =
    (some lease.processingClaimedBy, some lease.processingClaimedAt,
      some lease.processingLeaseExpiresAt)

/-- The transaction does not complete the lease, and does not claim after it has run out. -/
def ScopeOp.Within (lease : ThreadProcessingLease) (op : ScopeOp) : Prop :=
  (∀ now ∈ op.clock, now < lease.processingLeaseExpiresAt) ∧ op.completes ≠
    some (lease.scopeKey, lease.processingClaimedBy, lease.processingClaimedAt)

theorem claim_of_toThreadProcessingLease {record : ThreadProcessingLeaseRecord}
    (hlease : toThreadProcessingLease record = some lease) :
    lease.scopeKey = record.scopeKey ∧ record.claim =
      (some lease.processingClaimedBy, some lease.processingClaimedAt,
        some lease.processingLeaseExpiresAt) := by
  unfold toThreadProcessingLease at hlease
  split at hlease
  · next hrequested hclaimed hexpires hworker =>
      cases hlease
      exact ⟨rfl, by rw [ThreadProcessingLeaseRecord.claim, hclaimed, hexpires, hworker]⟩
  · cases hlease

theorem leased_of_claimed {claim : ScopeOp}
    (hclaim : (claim.execute scopes).2 = .claimed (some lease)) :
    Leased (claim.step scopes) lease := by
  obtain ⟨_, _, _, _, heffect, hreturned, hstep, -⟩ := effect_of_claimed hclaim
  rcases heffect with rfl | ⟨record, claimed, hget, -, hclaimed, rfl⟩
  · cases hreturned
  · cases hreturned
    obtain ⟨hkey, hrecorded⟩ := claim_of_toThreadProcessingLease hclaimed
    refine ⟨_, ?_, hrecorded⟩
    rw [hstep, hkey, scopeKey_setClaim, Table.get_modify_self _ _ (by simp), hget, Option.map_some]

/-- A scope is given to a claim only when the lease on it has run out. -/
theorem ScopeOp.Claims.expired {op : ScopeOp} (hclaims : op.Claims scopeKey scopes) :
    ∃ record now, scopes.get scopeKey = some record ∧ op.clock = some now ∧
      Claimable record now := by
  obtain ⟨given, hgiven, rfl⟩ := hclaims
  obtain ⟨_, _, now, _, heffect, hreturned, -, hclock⟩ := effect_of_claimed hgiven
  rcases heffect with rfl | ⟨record, claimed, hget, hclaimable, hclaimed, rfl⟩
  · cases hreturned
  · cases hreturned
    have hkey := (toThreadProcessingLease_setClaim hclaimed).1
    exact ⟨record, now, hkey ▸ hget, hclock, hclaimable⟩

theorem Leased.upsert (hleased : Leased scopes lease) (scope : ThreadProcessingScope)
    (finishedAt : ℤ) : Leased (upsertThreadProcessingScope scopes scope finishedAt) lease := by
  obtain ⟨record, hget, hclaim⟩ := hleased
  rw [Leased, get_upsert, hget]
  split
  · exact ⟨_, rfl, hclaim⟩
  · exact ⟨record, rfl, hclaim⟩

theorem Leased.step (hleased : Leased scopes lease) {op : ScopeOp} (hwithin : op.Within lease) :
    Leased (op.step scopes) lease ∧ ¬ op.Claims lease.scopeKey scopes := by
  obtain ⟨record, hget, hclaim⟩ := id hleased
  have hunclaimed : ¬ op.Claims lease.scopeKey scopes := by
    intro hclaims
    obtain ⟨found, now, hfound, hclock, -, hexpired⟩ := hclaims.expired
    obtain rfl := Option.eq_some_unique hget hfound
    have hbefore := hwithin.1 now hclock
    have hafter := hexpired _ (Prod.mk.inj (Prod.mk.inj hclaim).2).2
    omega
  refine ⟨?_, hunclaimed⟩
  rcases op.step_cases hunclaimed with ⟨_, _, _, _, hstep, -⟩ |
    ⟨-, hsame | ⟨otherKey, otherWorker, otherClaimedAt, _, _, hcompletes, hstep⟩⟩
  · rw [hstep]
    exact @requestRebuilds_invariant _ (Leased · lease) _
      (fun _ scope hbefore => hbefore.upsert scope _) hleased ..
  · rwa [Leased, hsame]
  · rw [hstep]
    rcases completeRecord_cases scopes otherKey otherWorker otherClaimedAt _ _ with
      ⟨hrefused, -⟩ | ⟨completed, hother, hworker, hclaimed, haccepted⟩
    · rwa [hrefused]
    · rw [haccepted]
      refine ⟨record, (Table.get_modify_of_ne _ (by simp) ?_).trans hget, hclaim⟩
      rintro rfl
      obtain rfl := Option.eq_some_unique hget hother
      rw [ThreadProcessingLeaseRecord.claim, hworker, hclaimed] at hclaim
      simp only [Prod.mk.injEq, Option.some.injEq] at hclaim
      obtain ⟨rfl, rfl, -⟩ := hclaim
      exact hwithin.2 hcompletes

/-- Until its lease runs out, a claimed scope is given to nobody else, and the worker that holds
it can complete its claim. -/
theorem lease_exclusive {claim : ScopeOp} {ops : List ScopeOp}
    (hclaim : (claim.execute scopes).2 = .claimed (some lease))
    (hwithin : ∀ op ∈ ops, op.Within lease) :
    Along ScopeOp.step (fun current op => ¬ op.Claims lease.scopeKey current) (claim.step scopes)
        ops ∧
      ∀ completion : ScopeOp, completion.completes =
          some (lease.scopeKey, lease.processingClaimedBy, lease.processingClaimedAt) →
        ∃ pendingAfter, (completion.execute (run ScopeOp.step (claim.step scopes) ops)).2 =
          .completed (some pendingAfter) := by
  have hleased := leased_of_claimed hclaim
  generalize claim.step scopes = current at hleased
  induction ops generalizing current with
  | nil =>
    refine ⟨trivial, fun completion hcompletes => ?_⟩
    obtain ⟨finishedAt, mark, hcompleted⟩ := completion_eq hcompletes
    obtain ⟨record, hget, hrecord⟩ := hleased
    obtain ⟨hworker, hrest⟩ := Prod.mk.inj hrecord
    refine ⟨pendingAfter record lease.processingClaimedAt, ?_⟩
    rw [run_nil, hcompleted current, completeRecord, hget]
    simp only [if_pos (And.intro hworker (Prod.mk.inj hrest).1), ofCompletion]
  | cons first rest ih =>
    obtain ⟨hnext, hunclaimed⟩ := hleased.step (hwithin first List.mem_cons_self)
    obtain ⟨halong, hcompletion⟩ :=
      ih (fun op hop => hwithin op (List.mem_cons_of_mem first hop)) _ hnext
    exact ⟨⟨hunclaimed, halong⟩, hcompletion⟩

/-- Another worker tries to claim the scope meanwhile. -/
theorem lease_exclusive_attempt :
    ∃ pendingAfter, (exampleCompletion.execute (run ScopeOp.step
      (exampleClaim.step requestedScopes)
      [.claimThreadProcessingScope exampleScope "other" 60 200])).2 =
        .completed (some pendingAfter) := by
  refine (@lease_exclusive requestedScopes exampleLease exampleClaim _ (by decide) ?_).2
    exampleCompletion (by decide)
  simp [ScopeOp.Within, ScopeOp.clock, ScopeOp.completes, exampleLease]

end Pallium.Queue
