import Pallium.Memory.HistoricalUpdate
import Pallium.Memory.SuccessionGraph

/-!
# Guidance over all runs

As long as the operations keep the supersession graph consistent, a chain of successors neither
branches nor turns back, so guidance about an outdated memory never ends in a conflict or cycle.
-/

namespace Pallium.Memory

open ChainWalk Relation Pallium.Run

variable {run : MemoryRun} {view : GuidanceView} {requester : Requester}
  {outdated : MemoryObjectRecord}

/-- Guidance names the current replacement, or says that the chain is too long or leads to what
may not be shown. -/
def Resolves (view : GuidanceView) (store : MemoryStore) (requester : Requester)
    (outdated : MemoryObjectRecord) : Prop :=
  (∃ current, CurrentReplacement store requester outdated current ∧
    historicalUpdate view store requester outdated = currentUpdate view outdated current) ∨
  ∃ status, (status = .chainLimit ∨ status = .unavailable) ∧
    historicalUpdate view store requester outdated = plainUpdate outdated status

theorem mem_successorsOf {store : MemoryStore} {memoryId next : String}
    (hmem : next ∈ successorsOf store memoryId) : store.Successor memoryId next := by
  unfold successorsOf at hmem
  split at hmem
  · exact hmem
  · cases hmem

/-- A chain leads on from each of its memories. -/
theorem Leads.between {store : MemoryStore} {before hops : ℕ} {first last : String}
    (hfirst : Leads store outdated before first) (hlast : Leads store outdated hops last)
    (hbefore : before ≤ hops) : store.Leads first last := by
  induction hlast with
  | refl =>
    obtain rfl := Nat.le_zero.mp hbefore
    cases hfirst
    exact .refl
  | @hop hops node next hreach honly hadmits ih =>
    rcases Nat.lt_or_eq_of_le hbefore with hearlier | rfl
    · have hnext : next ∈ successorsOf store node := honly ▸ List.mem_singleton_self next
      exact (ih (Nat.le_of_lt_succ hearlier)).tail (mem_successorsOf hnext)
    · obtain rfl := hfirst.unique (hreach.hop honly hadmits)
      exact .refl

theorem MemoryRun.Consistent.unresolved (hconsistent : run.Consistent)
    {status : ReplacementStatus} (hunresolved : Unresolved run.store requester outdated status) :
    status = .chainLimit ∨ status = .unavailable := by
  cases hunresolved with
  | @conflict hops memoryId hbound hleads hseveral =>
    have hlength := hconsistent.length_successorIds memoryId
    unfold successorsOf at hseveral
    split at hseveral
    · omega
    · cases hseveral
  | cycle hturns =>
    obtain ⟨hops, memoryId, next, -, hleads, honly, before, hbefore, hagain⟩ := hturns
    have hnext : next ∈ successorsOf run.store memoryId := honly ▸ List.mem_singleton_self next
    have hback : run.store.Leads next memoryId := Leads.between hagain hleads hbefore
    exact absurd (TransGen.tail' hback (mem_successorsOf hnext))
      (hconsistent.sound.chained.acyclic next)
  | chainLimit => exact Or.inl rfl
  | ended => exact Or.inr rfl
  | broken => exact Or.inr rfl

/-- In every run that keeps the graph consistent, guidance resolves. -/
theorem guidance_resolves (view : GuidanceView) (requester : Requester)
    (outdated : MemoryObjectRecord) {ops : List MemoryOp}
    (hops : Along MemoryRun.step MemoryRun.Meets MemoryRun.empty ops) :
    Resolves view (MemoryRun.reached ops).store requester outdated := by
  have hconsistent : (MemoryRun.reached ops).Consistent :=
    hops.invariant MemoryRun.consistent_empty fun _ _ hmeets hbefore => hbefore.step hmeets
  rcases replaced_or_unresolved (MemoryRun.reached ops).store requester outdated with
    ⟨current, hcurrent⟩ | ⟨status, hunresolved⟩
  · exact Or.inl ⟨current, hcurrent, hcurrent.reported⟩
  · exact Or.inr ⟨status, hconsistent.unresolved hunresolved, hunresolved.reported⟩

/-- The guidance about a memory that a link supersedes. -/
theorem guidance_resolves_link :
    Resolves ⟨fun _ => "", id, fun _ => 0⟩ (MemoryRun.reached MemoryRun.linkOps).store
      ⟨none, none, none⟩ (MemoryRun.plainMemory "a" (by decide)).record := by
  refine guidance_resolves _ _ _ ⟨trivial, trivial, fun _ hleads => ?_, trivial⟩
  have hfree : (MemoryRun.reached (MemoryRun.linkOps.take 2)).store.successorIds "b" = [] := by
    decide +kernel
  have hsame := (reflTransGen_iff_eq fun next hnext => ?_).mp hleads
  · exact absurd hsame (by decide)
  · have hnone : next ∈ (MemoryRun.reached (MemoryRun.linkOps.take 2)).store.successorIds "b" :=
      hnext
    rw [hfree] at hnone
    exact List.not_mem_nil hnone

end Pallium.Memory
