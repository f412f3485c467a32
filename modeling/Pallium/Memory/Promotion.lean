import Pallium.Memory.OperationalFact
import Pallium.Memory.Replacement
import Pallium.Memory.SuccessionGraph

/-!
# The promotion of operational facts

A commit evaluates its promotion hints once the result is stored: where the facts of
a slot come from two threads, the candidates of the slot become active together, and
each gets a row in the promotion log.  Nothing else makes a candidate active, and no
memory becomes a candidate again, so each memory is logged once at most.
-/

namespace Pallium.Memory

open Pallium.Run Pallium.Transaction

namespace MemoryStore

/-- How often the promotion of a memory is logged. -/
def logCount (store : MemoryStore) (memoryObjectId : String) : ℕ :=
  store.promotionLog.countP fun row => row.memoryObjectId == memoryObjectId

/-- The part of `_persist_process_result_in_session` before the promotions. -/
def addProcessResult (result : ProcessResult) (store : MemoryStore) :
    Except MemoryError MemoryStore := do
  let memories ← orRaise (addMemories store.memories result.memoryObjects) .integrity
  let index ← orRaise
    (addEntries (resolveContainerRef memories store.sourceItems) store.index result.indexEntries)
    .integrity
  pure { store with
    memories := memories
    relations := store.relations ++ result.relations
    index := index }

/-- The hints whose slot has not been seen before. -/
def firstHints (seenSlots : List (String × Slot)) : List PromotionHint → List PromotionHint
  | [] => []
  | hint :: rest =>
    if (hint.containerRef, hint.slot) ∈ seenSlots then firstHints seenSlots rest
    else hint :: firstHints ((hint.containerRef, hint.slot) :: seenSlots) rest

/-- Whether one of the hints promotes the record. -/
def promotedBy (store : MemoryStore) (hints : List PromotionHint) (record : MemoryObjectRecord) :
    Bool :=
  hints.any fun hint =>
    promotes hint record && decide (promotionThreadThreshold ≤ store.countDistinctThreadsForSlot hint)

section Evaluation

variable {store persisted : MemoryStore} {hint : PromotionHint} {record : MemoryObjectRecord}

theorem persistProcessResult_eq_ok {result : ProcessResult} :
    store.persistProcessResult result = .ok persisted ↔
      ∃ added, store.addProcessResult result = .ok added ∧
        persisted = evaluatePromotionHints [] result.promotionHints added := by
  simp only [persistProcessResult, addProcessResult, bind_eq_ok, orRaise_eq_ok, pure_eq_ok]
  constructor
  · rintro ⟨memories, hmemories, index, hindex, rfl⟩
    exact ⟨_, ⟨memories, hmemories, index, hindex, rfl⟩, rfl⟩
  · rintro ⟨added, ⟨memories, hmemories, index, hindex, rfl⟩, rfl⟩
    exact ⟨memories, hmemories, index, hindex, rfl⟩

theorem evaluatePromotionHints_eq (seenSlots : List (String × Slot)) (hints : List PromotionHint)
    (store : MemoryStore) :
    evaluatePromotionHints seenSlots hints store =
      (firstHints seenSlots hints).foldl promoteSlot store := by
  induction hints generalizing seenSlots store with
  | nil => rfl
  | cons hint rest ih =>
    rw [evaluatePromotionHints, firstHints]
    split
    · exact ih seenSlots store
    · exact ih _ _

theorem mem_of_mem_firstHints {seenSlots : List (String × Slot)} {hints : List PromotionHint}
    (hmem : hint ∈ firstHints seenSlots hints) : hint ∈ hints := by
  induction hints generalizing seenSlots with
  | nil => exact hmem
  | cons head rest ih =>
    rw [firstHints] at hmem
    split at hmem
    · exact List.mem_cons_of_mem head (ih hmem)
    · rcases List.mem_cons.mp hmem with rfl | hlater
      · exact List.mem_cons_self
      · exact List.mem_cons_of_mem head (ih hlater)

theorem promotes_candidate (hpromotes : promotes hint record = true) :
    record.lifecycle = .candidate := by
  simp only [promotes, Bool.and_eq_true, beq_iff_eq] at hpromotes
  exact hpromotes.1.1.2

theorem rows_promoteSlot (store : MemoryStore) (hint : PromotionHint) :
    (store.promoteSlot hint).memories.rows = store.memories.rows.map fun record =>
      if promotes hint record &&
          decide (promotionThreadThreshold ≤ store.countDistinctThreadsForSlot hint) then
        { record with lifecycle := .active }
      else record := by
  unfold promoteSlot
  simp only
  split
  · next hbelow =>
      have hnot : decide (promotionThreadThreshold ≤ store.countDistinctThreadsForSlot hint) =
          false := decide_eq_false (Nat.not_le.mpr hbelow)
      simp [hnot]
  · next hreached =>
      rw [decide_eq_true (Nat.not_lt.mp hreached), Table.rows_updateAll]
      · simp only [Bool.and_true]
      · intro record
        split
        · rfl
        · rfl

/-- A promotion changes no count, because candidates count as active facts do. -/
theorem count_promoteSlot (store : MemoryStore) (hint other : PromotionHint) :
    (store.promoteSlot hint).countDistinctThreadsForSlot other =
      store.countDistinctThreadsForSlot other := by
  have hothers : (store.promoteSlot hint).relations = store.relations ∧
      (store.promoteSlot hint).sourceItems = store.sourceItems :=
    ⟨(promoteSlot_promoted store hint).relations, (promoteSlot_promoted store hint).sourceItems⟩
  have hthreads : (store.promoteSlot hint).supportingThreads = store.supportingThreads := by
    funext memoryObjectId
    rw [supportingThreads, supportingThreads, hothers.1, hothers.2]
  rw [countDistinctThreadsForSlot, countDistinctThreadsForSlot, hthreads, rows_promoteSlot,
    List.filter_map, List.flatMap_map]
  simp only [apply_ite MemoryObjectRecord.id, ite_self]
  congr 3
  apply List.filter_congr
  intro record _
  simp only [Function.comp_apply]
  split
  · next hpromoted =>
      rw [Bool.and_eq_true] at hpromoted
      simp only [countsForSlot, promotes_candidate hpromoted.1]
      rfl
  · rfl

theorem promotes_active (hint : PromotionHint) (record : MemoryObjectRecord) :
    promotes hint { record with lifecycle := .active } = false := by
  have hlifecycle : (Lifecycle.active == Lifecycle.candidate) = false := rfl
  simp only [promotes, hlifecycle, Bool.and_false, Bool.false_and]

theorem promotedBy_active (store : MemoryStore) (hints : List PromotionHint)
    (record : MemoryObjectRecord) :
    store.promotedBy hints { record with lifecycle := .active } = false := by
  rw [promotedBy, List.any_eq_false]
  intro hint _
  rw [promotes_active]
  exact Bool.false_ne_true

theorem promotedBy_promoteSlot (store : MemoryStore) (hint : PromotionHint)
    (hints : List PromotionHint) :
    (store.promoteSlot hint).promotedBy hints = store.promotedBy hints := by
  funext record
  simp only [promotedBy, count_promoteSlot]

theorem promotedBy_cons (store : MemoryStore) (hint : PromotionHint)
    (hints : List PromotionHint) (record : MemoryObjectRecord) :
    store.promotedBy (hint :: hints) record =
      (promotes hint record &&
          decide (promotionThreadThreshold ≤ store.countDistinctThreadsForSlot hint) ||
        store.promotedBy hints record) := rfl

theorem get_promoteSlot_eq (store : MemoryStore) (hint : PromotionHint) (memoryObjectId : String) :
    (store.promoteSlot hint).memories.get memoryObjectId =
      (store.memories.get memoryObjectId).map fun record =>
        if promotes hint record &&
            decide (promotionThreadThreshold ≤ store.countDistinctThreadsForSlot hint) then
          { record with lifecycle := .active }
        else record := by
  rw [get_promoteSlot]
  split
  · next hbelow =>
      have hnot : decide (promotionThreadThreshold ≤ store.countDistinctThreadsForSlot hint) =
          false := decide_eq_false (Nat.not_le.mpr hbelow)
      simp [hnot]
  · next hreached =>
      rw [decide_eq_true (Nat.not_lt.mp hreached)]
      simp only [Bool.and_true]

theorem get_promoteSlots (hints : List PromotionHint) (store : MemoryStore)
    (memoryObjectId : String) :
    (hints.foldl promoteSlot store).memories.get memoryObjectId =
      (store.memories.get memoryObjectId).map fun record =>
        if store.promotedBy hints record then { record with lifecycle := .active } else record := by
  induction hints generalizing store with
  | nil =>
    rw [List.foldl_nil]
    exact Option.map_id'.symm
  | cons hint rest ih =>
    rw [List.foldl_cons, ih, get_promoteSlot_eq, promotedBy_promoteSlot, Option.map_map]
    congr 1
    funext record
    rw [Function.comp_apply, promotedBy_cons]
    cases hpromotes : promotes hint record &&
        decide (promotionThreadThreshold ≤ store.countDistinctThreadsForSlot hint)
    · simp
    · simp [promotedBy_active]

theorem logCount_promoteSlot (store : MemoryStore) (hint : PromotionHint)
    (memoryObjectId : String) :
    (store.promoteSlot hint).logCount memoryObjectId =
      store.logCount memoryObjectId +
        if (store.memories.get memoryObjectId).any fun record => promotes hint record &&
          decide (promotionThreadThreshold ≤ store.countDistinctThreadsForSlot hint) then 1 else 0 := by
  unfold promoteSlot
  simp only
  split
  · next hbelow =>
      have hnot : decide (promotionThreadThreshold ≤ store.countDistinctThreadsForSlot hint) =
          false := decide_eq_false (Nat.not_le.mpr hbelow)
      simp [hnot]
  · next hreached =>
      rw [decide_eq_true (Nat.not_lt.mp hreached), logCount, List.countP_append, List.countP_map,
        List.countP_filter]
      simp only [Bool.and_true]
      congr 1
      exact Table.countP_key store.memories memoryObjectId (promotes hint)

theorem logCount_promoteSlots (hints : List PromotionHint) (store : MemoryStore)
    (memoryObjectId : String) :
    (hints.foldl promoteSlot store).logCount memoryObjectId =
      store.logCount memoryObjectId +
        if (store.memories.get memoryObjectId).any (store.promotedBy hints) then 1 else 0 := by
  induction hints generalizing store with
  | nil =>
    rw [List.foldl_nil]
    cases store.memories.get memoryObjectId <;> rfl
  | cons hint rest ih =>
    rw [List.foldl_cons, ih, logCount_promoteSlot, get_promoteSlot_eq, promotedBy_promoteSlot]
    cases hrecord : store.memories.get memoryObjectId with
    | none => rfl
    | some record =>
      rw [Option.map_some, Option.any_some, Option.any_some, Option.any_some, promotedBy_cons]
      cases hpromotes : promotes hint record &&
          decide (promotionThreadThreshold ≤ store.countDistinctThreadsForSlot hint)
      · simp
      · simp [promotedBy_active]

end Evaluation

section Aging

/-- Everything but a promotion keeps the log and the memories, and changes a lifecycle
to superseded or suppressed at most. -/
structure Ages (before after : MemoryStore) : Prop where
  log : after.promotionLog = before.promotionLog
  memories : ∀ memoryObjectId record, before.memories.get memoryObjectId = some record →
    ∃ next, after.memories.get memoryObjectId = some next ∧
      (next.lifecycle = record.lifecycle ∨ next.lifecycle = .superseded ∨
        next.lifecycle = .suppressed)

variable {before middle after store : MemoryStore}

theorem Ages.refl (store : MemoryStore) : store.Ages store :=
  ⟨rfl, fun _ record hrecord => ⟨record, hrecord, Or.inl rfl⟩⟩

theorem Ages.trans (hfirst : before.Ages middle) (hsecond : middle.Ages after) :
    before.Ages after where
  log := hsecond.log.trans hfirst.log
  memories memoryObjectId record hrecord := by
    obtain ⟨next, hnext, hchange⟩ := hfirst.memories memoryObjectId record hrecord
    obtain ⟨last, hlast, hlater⟩ := hsecond.memories memoryObjectId next hnext
    refine ⟨last, hlast, ?_⟩
    rcases hlater with hsame | hended
    · rw [hsame]
      exact hchange
    · exact Or.inr hended

theorem Ages.of_memories (hlog : after.promotionLog = before.promotionLog)
    (hmemories : after.memories = before.memories) : before.Ages after :=
  ⟨hlog, fun _ record hrecord => ⟨record, hmemories ▸ hrecord, Or.inl rfl⟩⟩

theorem Ages.modify {memoryObjectId : String} {change : MemoryObjectRecord → MemoryObjectRecord}
    (hmemories : after.memories = before.memories.modify memoryObjectId change)
    (hlog : after.promotionLog = before.promotionLog)
    (hkey : ∀ record, (change record).id = record.id)
    (hlifecycle : ∀ record, (change record).lifecycle = record.lifecycle ∨
      (change record).lifecycle = .superseded ∨ (change record).lifecycle = .suppressed) :
    before.Ages after where
  log := hlog
  memories other record hrecord := by
    rw [hmemories, Table.get_modify _ _ hkey, hrecord, Option.map_some]
    split
    · exact ⟨change record, rfl, hlifecycle record⟩
    · exact ⟨record, rfl, Or.inl rfl⟩

theorem Ages.insertNew {record : MemoryObjectRecord}
    (hinsert : before.memories.insertNew record = some after.memories)
    (hlog : after.promotionLog = before.promotionLog) : before.Ages after where
  log := hlog
  memories other found hfound := by
    refine ⟨found, ?_, Or.inl rfl⟩
    rw [Table.get_insertNew hinsert]
    split
    · next hsame =>
        rw [hsame, Table.get_eq_none_of_insertNew hinsert] at hfound
        cases hfound
    · exact hfound

theorem ages_addProcessResult {result : ProcessResult} {added : MemoryStore}
    (hadd : store.addProcessResult result = .ok added) : store.Ages added := by
  simp only [addProcessResult, bind_eq_ok, orRaise_eq_ok, pure_eq_ok] at hadd
  obtain ⟨memories, hmemories, index, -, rfl⟩ := hadd
  obtain ⟨hbrought, hstored, -⟩ := get_addMemories hmemories
  refine ⟨rfl, fun memoryObjectId record hrecord => ⟨record, ?_, Or.inl rfl⟩⟩
  change memories.get memoryObjectId = some record
  rw [hstored memoryObjectId, hrecord]
  intro hmem
  obtain ⟨memory, hmemory, rfl⟩ := List.mem_map.mp hmem
  rw [(hbrought memory hmemory).1] at hrecord
  cases hrecord

theorem ages_mergeIntoWinner (store : MemoryStore) (loser winner : MemoryObjectRecord) :
    store.Ages (store.mergeIntoWinner loser winner) := by
  have hlog : (store.mergeIntoWinner loser winner).promotionLog = store.promotionLog := by
    unfold mergeIntoWinner
    split
    · rfl
    · rfl
  obtain ⟨change, -, hget⟩ := get_mergeIntoWinner store loser winner
  refine ⟨hlog, fun memoryObjectId record hrecord => ?_⟩
  rw [hget, hrecord, Option.map_some]
  split
  · exact ⟨_, rfl, Or.inl rfl⟩
  · exact ⟨record, rfl, Or.inl rfl⟩

theorem ages_supersedeByEdge (store : MemoryStore) (supersededId replacementId : String) :
    store.Ages (store.supersedeByEdge supersededId replacementId) := by
  exact Ages.modify rfl rfl (fun _ => rfl) fun _ => Or.inr (Or.inl rfl)

theorem ages_applySupersessionPairs {pairs : List (String × String)}
    (happly : store.applySupersessionPairs pairs = .ok after) : store.Ages after := by
  induction pairs generalizing store with
  | nil =>
    obtain rfl := Except.ok.inj happly
    exact Ages.refl store
  | cons pair rest ih =>
    simp only [applySupersessionPairs, bind_eq_ok] at happly
    obtain ⟨middle, hfirst, hrest⟩ := happly
    apply Ages.trans _ (ih hrest)
    simp only [applySupersessionPair, bind_eq_ok, orRaise_eq_ok, require_eq_ok] at hfirst
    obtain ⟨loser, -, winner, -, -, -, hfirst⟩ := hfirst
    split at hfirst
    · cases hfirst
      exact Ages.refl store
    · obtain rfl := (Except.ok.inj hfirst).symm
      exact (ages_mergeIntoWinner store loser winner).trans (ages_supersedeByEdge _ _ _)

theorem ages_createMemoryObject (memory : MemoryObject) (store : MemoryStore) :
    store.Ages (store.createMemoryObject memory).1 := by
  unfold createMemoryObject
  refine transaction_related (Ages.refl store) fun after result hbody => ?_
  simp only [bind_eq_ok, orRaise_eq_ok, pure_eq_ok, Prod.mk.injEq] at hbody
  obtain ⟨memories, hinsert, rfl, -⟩ := hbody
  exact Ages.insertNew hinsert rfl

theorem ages_createExplicitSupersession (oldMemoryObjectId : String) (replacement : MemoryObject)
    (indexEntries : List IndexEntryRecord) (originSessionId originAgentId : String)
    (correctionReason : Option String) (store : MemoryStore) :
    store.Ages (store.createExplicitSupersession oldMemoryObjectId replacement indexEntries
      originSessionId originAgentId correctionReason).1 := by
  unfold createExplicitSupersession
  refine transaction_related (Ages.refl store) fun after result hbody => ?_
  simp only [bind_eq_ok, orRaise_eq_ok, require_eq_ok, pure_eq_ok, Prod.mk.injEq] at hbody
  obtain ⟨old, -, -, -, memories, hinsert, index, -, rfl, -⟩ := hbody
  have hmodified : store.Ages { store with
      memories := store.memories.modify oldMemoryObjectId
        (MemoryObjectRecord.supersededBy replacement.id correctionReason) } :=
    Ages.modify rfl rfl (fun _ => rfl) fun _ => Or.inr (Or.inl rfl)
  exact hmodified.trans (Ages.insertNew hinsert rfl)

theorem ages_linkSupersession (oldMemoryObjectId newMemoryObjectId : String)
    (correctionReason : Option String) (store : MemoryStore) :
    store.Ages (store.linkSupersession oldMemoryObjectId newMemoryObjectId correctionReason).1 := by
  unfold linkSupersession
  refine transaction_related (Ages.refl store) fun after result hbody => ?_
  simp only [bind_eq_ok, orRaise_eq_ok, require_eq_ok, pure_eq_ok, Prod.mk.injEq] at hbody
  obtain ⟨old, -, new, -, -, -, rfl, -⟩ := hbody
  exact Ages.modify rfl rfl (fun _ => rfl) fun _ => Or.inr (Or.inl rfl)

theorem ages_updateMemoryObjectLifecycle (memoryObjectId : String) {lifecycle : Lifecycle}
    (hended : lifecycle = .superseded ∨ lifecycle = .suppressed) (store : MemoryStore) :
    store.Ages (store.updateMemoryObjectLifecycle memoryObjectId lifecycle).1 := by
  unfold updateMemoryObjectLifecycle
  refine transaction_related (Ages.refl store) fun after result hbody => ?_
  simp only [bind_eq_ok, orRaise_eq_ok, pure_eq_ok, Prod.mk.injEq] at hbody
  obtain ⟨record, -, rfl, -⟩ := hbody
  exact Ages.modify rfl rfl (fun _ => rfl) fun _ => Or.inr hended

theorem ages_storeMemoryFlag (flag : MemoryFlagRecord) (store : MemoryStore) :
    store.Ages (store.storeMemoryFlag flag).1 := by
  unfold storeMemoryFlag
  refine transaction_related (Ages.refl store) fun after result hbody => ?_
  simp only [bind_eq_ok, orRaise_eq_ok, pure_eq_ok, Prod.mk.injEq] at hbody
  obtain ⟨record, -, rfl, -⟩ := hbody
  exact Ages.of_memories rfl rfl

theorem ages_advance (process : Process) (now : ℤ) (store : MemoryStore) :
    store.Ages (process.advance now store).1 := by
  cases process with
  | supersedeUpdate supersededId replacementId =>
    have hages := ages_updateMemoryObjectLifecycle supersededId
      (Or.inl (rfl : Lifecycle.superseded = .superseded)) store
    simp only [Process.advance]
    split
    · next after result hupdate =>
        rw [hupdate] at hages
        exact hages
    · next after error hupdate =>
        rw [hupdate] at hages
        exact hages
  | supersedeInsert supersededId replacementId => exact Ages.of_memories rfl rfl
  | flagStore request lifecycle =>
    have hages := ages_storeMemoryFlag
      ⟨request.memoryObjectId, request.reason, request.sourceRef, now⟩ store
    simp only [Process.advance]
    split
    · next after error hflag =>
        rw [hflag] at hages
        exact hages
    · next after result hflag =>
        rw [hflag] at hages
        split <;> exact hages
  | flagSuppress request =>
    have hages := ages_updateMemoryObjectLifecycle request.memoryObjectId
      (Or.inr (rfl : Lifecycle.suppressed = .suppressed)) store
    simp only [Process.advance]
    split
    · next after result hupdate =>
        rw [hupdate] at hages
        exact hages
    · next after error hupdate =>
        rw [hupdate] at hages
        exact hages
  | _ =>
    rw [(Process.advance_of_not_writes now store rfl).1]
    exact Ages.refl store

end Aging

def softDeleteMemory (memoryObjectId : String) (store : MemoryStore) :
    MemoryStore × Except MemoryError Bool :=
  transaction (fun store => do
    let record ← orRaise (store.memories.get memoryObjectId) (.missing memoryObjectId)
    if record.isSoftDeleted then pure (store, false)
    else pure ({ store with
      memories := store.memories.modify memoryObjectId fun record =>
        { record with isSoftDeleted := true } }, true)) store

def createSourceItem (item : Ingest.SourceItem) (store : MemoryStore) :
    MemoryStore × Except MemoryError Unit :=
  transaction (fun store => do
    let sourceItems ← orRaise (store.sourceItems.insertNew item) .integrity
    pure ({ store with sourceItems := sourceItems }, ())) store

theorem ages_softDeleteMemory (memoryObjectId : String) (store : MemoryStore) :
    store.Ages (store.softDeleteMemory memoryObjectId).1 := by
  unfold softDeleteMemory
  refine transaction_related (Ages.refl store) fun after result hbody => ?_
  simp only [bind_eq_ok, orRaise_eq_ok] at hbody
  obtain ⟨record, -, hbody⟩ := hbody
  split at hbody
  · obtain ⟨rfl, -⟩ := Prod.mk.inj (Except.ok.inj hbody)
    exact Ages.refl store
  · obtain ⟨rfl, -⟩ := Prod.mk.inj (Except.ok.inj hbody)
    exact Ages.modify rfl rfl (fun _ => rfl) fun _ => Or.inl rfl

theorem ages_createSourceItem (item : Ingest.SourceItem) (store : MemoryStore) :
    store.Ages (store.createSourceItem item).1 := by
  unfold createSourceItem
  refine transaction_related (Ages.refl store) fun after result hbody => ?_
  simp only [bind_eq_ok, orRaise_eq_ok, pure_eq_ok, Prod.mk.injEq] at hbody
  obtain ⟨sourceItems, -, rfl, -⟩ := hbody
  exact Ages.of_memories rfl rfl

section Logging

variable {store added persisted after : MemoryStore} {hint : PromotionHint}
  {record : MemoryObjectRecord}

/-- Each memory is logged once at most, and a logged memory is no candidate. -/
structure Logged (store : MemoryStore) : Prop where
  once : ∀ memoryObjectId, store.logCount memoryObjectId ≤ 1
  settled : ∀ memoryObjectId, 0 < store.logCount memoryObjectId →
    ∃ record, store.memories.get memoryObjectId = some record ∧ record.lifecycle ≠ .candidate

theorem logged_empty : MemoryStore.empty.Logged where
  once _ := Nat.zero_le 1
  settled _ hlogged := absurd hlogged (Nat.lt_irrefl 0)

theorem Ages.logCount (hages : store.Ages after) (memoryObjectId : String) :
    after.logCount memoryObjectId = store.logCount memoryObjectId := by
  rw [MemoryStore.logCount, MemoryStore.logCount, hages.log]

theorem Ages.logged (hages : store.Ages after) (hlogged : store.Logged) : after.Logged where
  once memoryObjectId := by
    rw [hages.logCount]
    exact hlogged.once memoryObjectId
  settled memoryObjectId hcount := by
    rw [hages.logCount] at hcount
    obtain ⟨record, hrecord, hsettled⟩ := hlogged.settled memoryObjectId hcount
    obtain ⟨next, hnext, hchange⟩ := hages.memories memoryObjectId record hrecord
    refine ⟨next, hnext, ?_⟩
    rcases hchange with hsame | hended | hended
    · rw [hsame]
      exact hsettled
    · rw [hended]
      decide
    · rw [hended]
      decide

theorem promotedBy_candidate {hints : List PromotionHint}
    (hpromoted : store.promotedBy hints record = true) : record.lifecycle = .candidate := by
  obtain ⟨hint, -, hpromotes⟩ := List.any_eq_true.mp hpromoted
  rw [Bool.and_eq_true] at hpromotes
  exact promotes_candidate hpromotes.1

theorem Logged.logCount_eq_zero (hlogged : store.Logged) {memoryObjectId : String}
    (hrecord : store.memories.get memoryObjectId = some record)
    (hcandidate : record.lifecycle = .candidate) : store.logCount memoryObjectId = 0 := by
  by_contra hcount
  obtain ⟨other, hother, hsettled⟩ := hlogged.settled memoryObjectId (Nat.pos_of_ne_zero hcount)
  rw [hrecord] at hother
  exact hsettled (Option.some.inj hother ▸ hcandidate)

theorem Logged.promoteSlots (hlogged : store.Logged) (hints : List PromotionHint) :
    (hints.foldl promoteSlot store).Logged where
  once memoryObjectId := by
    rw [logCount_promoteSlots]
    cases hrecord : store.memories.get memoryObjectId with
    | none => exact hlogged.once memoryObjectId
    | some record =>
      rw [Option.any_some]
      split
      · next hpromoted =>
          rw [hlogged.logCount_eq_zero hrecord (promotedBy_candidate hpromoted)]
      · exact hlogged.once memoryObjectId
  settled memoryObjectId hcount := by
    rw [logCount_promoteSlots] at hcount
    cases hrecord : store.memories.get memoryObjectId with
    | none =>
      rw [hrecord] at hcount
      obtain ⟨record, hsome, -⟩ := hlogged.settled memoryObjectId hcount
      rw [hrecord] at hsome
      cases hsome
    | some record =>
      rw [get_promoteSlots, hrecord, Option.map_some]
      rw [hrecord, Option.any_some] at hcount
      split at hcount
      · next hpromoted =>
          rw [if_pos hpromoted]
          exact ⟨_, rfl, nofun⟩
      · next hpromoted =>
          rw [if_neg hpromoted]
          obtain ⟨other, hother, hsettled⟩ := hlogged.settled memoryObjectId hcount
          rw [hrecord] at hother
          exact ⟨record, rfl, Option.some.inj hother ▸ hsettled⟩

/-- A commit changes nothing, or it adds the result, promotes, and then supersedes. -/
theorem commitProcessResult_cases (result : ProcessResult)
    (supersessionPairs : List (String × String)) (store : MemoryStore) :
    (∃ error, store.commitProcessResult result supersessionPairs = (store, .error error)) ∨
      ∃ added after resolved,
        store.commitProcessResult result supersessionPairs = (after, .ok resolved) ∧
          store.addProcessResult result = .ok added ∧
          store.persistProcessResult result =
            .ok ((firstHints [] result.promotionHints).foldl promoteSlot added) ∧
          ((firstHints [] result.promotionHints).foldl promoteSlot added).Ages after := by
  rcases commitProcessResult_steps result supersessionPairs store with
    herror | ⟨persisted, final, hpersist, happly, hcommit⟩
  · exact Or.inl herror
  · obtain ⟨added, hadded, hpersisted⟩ := persistProcessResult_eq_ok.mp hpersist
    rw [evaluatePromotionHints_eq] at hpersisted
    have hages := ages_applySupersessionPairs happly
    rw [hpersisted] at hpersist hages
    exact Or.inr ⟨added, final, _, hcommit, hadded, hpersist, hages⟩

theorem Logged.commit (hlogged : store.Logged) (result : ProcessResult)
    (supersessionPairs : List (String × String)) :
    (store.commitProcessResult result supersessionPairs).1.Logged := by
  rcases commitProcessResult_cases result supersessionPairs store with
    ⟨error, hcommit⟩ | ⟨added, after, resolved, hcommit, hadded, -, hages⟩
  · rw [hcommit]
    exact hlogged
  · rw [hcommit]
    exact hages.logged (((ages_addProcessResult hadded).logged hlogged).promoteSlots _)

end Logging

section Threads

variable {store : MemoryStore} {hint : PromotionHint}

/-- A candidate or active fact of the slot that is not deleted comes from the thread. -/
def SupportedIn (store : MemoryStore) (hint : PromotionHint) (threadRef : String) : Prop :=
  ∃ fact ∈ store.memories.rows, fact.type = operationalFactType ∧
    fact.containerRef = some hint.containerRef ∧ fact.visibility = some hint.visibility ∧
    (fact.lifecycle = .candidate ∨ fact.lifecycle = .active) ∧ fact.isSoftDeleted = false ∧
    fact.payload.slot = hint.slot ∧ ∃ relation ∈ store.relations, ∃ item,
      supports fact.id relation = true ∧ relation.toKind = .sourceItem ∧
        store.sourceItems.get relation.toId = some item ∧ item.threadRef = some threadRef

theorem slotCondition_holds_iff {slot : Slot} {payload : Payload} :
    (payload.slotCondition slot).Holds ↔
      payload.commandFamily = some slot.commandFamily ∧
        payload.artifactRole = some slot.artifactRole ∧ payload.scopeKind = some slot.scopeKind ∧
        payload.scopeRef = some slot.scopeRef ∧
        payload.artifactNormalized = some slot.artifactNormalized := by
  simp [Payload.slotCondition, Sql.holds_allOf]

theorem slot_of_slotCondition {slot : Slot} {payload : Payload}
    (hslot : (payload.slotCondition slot).Holds) : payload.slot = slot := by
  obtain ⟨hfamily, hrole, hkind, href, hnormalized⟩ := slotCondition_holds_iff.mp hslot
  rw [Payload.slot, hfamily, hrole, hkind, href, hnormalized]
  rfl

theorem slotCondition_payload_iff (candidate : OperationalFactCandidate) (slot : Slot) :
    (candidate.payload.slotCondition slot).Holds ↔ candidate.payload.slot = slot := by
  refine ⟨slot_of_slotCondition, ?_⟩
  rintro rfl
  exact slotCondition_holds_iff.mpr ⟨rfl, rfl, rfl, rfl, rfl⟩

theorem supportedIn_of_mem {threadRef : String}
    (hmem : threadRef ∈ (store.memories.rows.filter (countsForSlot hint)).flatMap fun record =>
      store.supportingThreads record.id) : store.SupportedIn hint threadRef := by
  obtain ⟨fact, hfact, hthread⟩ := List.mem_flatMap.mp hmem
  obtain ⟨hrow, hcounts⟩ := List.mem_filter.mp hfact
  obtain ⟨relation, hrelation, hitem⟩ := List.mem_filterMap.mp hthread
  obtain ⟨hstored, hsupports⟩ := List.mem_filter.mp hrelation
  obtain ⟨item, hget, hthreadRef⟩ := Option.bind_eq_some_iff.mp hitem
  simp only [countsForSlot, Bool.and_eq_true, Bool.or_eq_true, beq_iff_eq, Bool.not_eq_true',
    decide_eq_true_eq] at hcounts
  obtain ⟨⟨⟨⟨⟨htype, hcontainer⟩, hvisibility⟩, hlifecycle⟩, hdeleted⟩, hslot⟩ := hcounts
  rw [Bool.and_eq_true, beq_iff_eq] at hsupports
  exact ⟨fact, hrow, htype, hcontainer, hvisibility, hlifecycle, hdeleted,
    slot_of_slotCondition hslot, relation, hstored, item, hsupports.1, hsupports.2, hget,
    hthreadRef⟩

theorem exists_two_threads
    (hcount : promotionThreadThreshold ≤ store.countDistinctThreadsForSlot hint) :
    ∃ first second, first ≠ second ∧ store.SupportedIn hint first ∧
      store.SupportedIn hint second := by
  have hthreads : ∀ threadRef ∈ ((store.memories.rows.filter (countsForSlot hint)).flatMap
      fun record => store.supportingThreads record.id).dedup, store.SupportedIn hint threadRef :=
    fun threadRef hmem => supportedIn_of_mem (List.mem_dedup.mp hmem)
  have hnodup := List.nodup_dedup ((store.memories.rows.filter (countsForSlot hint)).flatMap
    fun record => store.supportingThreads record.id)
  rw [countDistinctThreadsForSlot] at hcount
  match hdistinct : ((store.memories.rows.filter (countsForSlot hint)).flatMap
      fun record => store.supportingThreads record.id).dedup with
  | [] =>
    rw [hdistinct] at hcount
    exact absurd hcount (by decide)
  | [only] =>
    rw [hdistinct] at hcount
    exact absurd hcount (by simp [promotionThreadThreshold])
  | first :: second :: rest =>
    rw [hdistinct] at hthreads hnodup
    refine ⟨first, second, fun hsame => ?_, hthreads first List.mem_cons_self,
      hthreads second (List.mem_cons_of_mem first List.mem_cons_self)⟩
    rw [hsame] at hnodup
    exact (List.nodup_cons.mp hnodup).1 List.mem_cons_self

theorem countsForSlot_iff (hint : PromotionHint) {record : MemoryObjectRecord}
    {candidate : OperationalFactCandidate} (hpayload : record.payload = candidate.payload) :
    countsForSlot hint record = true ↔
      (record.lifecycle = .candidate ∨ record.lifecycle = .active) ∧
        promotes hint { record with lifecycle := .candidate } = true := by
  simp only [countsForSlot, promotes, hpayload, Bool.and_eq_true, Bool.or_eq_true, beq_iff_eq,
    Bool.not_eq_true', decide_eq_true_eq, slotCondition_payload_iff]
  tauto

end Threads

/-- What goes with the promotion of a candidate: two threads support the slot, and all
its candidates become active and get the one row in the log that they have. -/
structure PromotesTogether (added persisted after : MemoryStore) (hint : PromotionHint) :
    Prop where
  threads : ∃ first second, first ≠ second ∧ added.SupportedIn hint first ∧
    added.SupportedIn hint second
  together : ∀ record ∈ added.memories.rows, promotes hint record = true →
    persisted.memories.get record.id = some { record with lifecycle := .active } ∧
      added.logCount record.id = 0 ∧ after.logCount record.id = 1

/-- A candidate that is active after the promotions has been promoted with its slot. -/
theorem promotesTogether_of_active {added after : MemoryStore} {hints : List PromotionHint}
    (hlogged : added.Logged) (hages : (hints.foldl promoteSlot added).Ages after)
    {record : MemoryObjectRecord} (hrecord : record ∈ added.memories.rows)
    (hcandidate : record.lifecycle = .candidate)
    (hactive : ((hints.foldl promoteSlot added).memories.get record.id).map
      MemoryObjectRecord.lifecycle = some .active) :
    ∃ hint ∈ hints, promotes hint record = true ∧
      PromotesTogether added (hints.foldl promoteSlot added) after hint := by
  have hget : added.memories.get record.id = some record := Table.get_of_mem hrecord
  have hpromoted : added.promotedBy hints record = true := by
    by_contra hnot
    rw [get_promoteSlots, hget, Option.map_some, if_neg hnot, Option.map_some, hcandidate]
      at hactive
    cases hactive
  obtain ⟨hint, hhint, hpromotes⟩ := List.any_eq_true.mp hpromoted
  rw [Bool.and_eq_true, decide_eq_true_eq] at hpromotes
  refine ⟨hint, hhint, hpromotes.1, exists_two_threads hpromotes.2, fun other hother hsame => ?_⟩
  have hotherGet : added.memories.get other.id = some other := Table.get_of_mem hother
  have hotherPromoted : added.promotedBy hints other = true :=
    List.any_eq_true.mpr ⟨hint, hhint, by rw [hsame, decide_eq_true hpromotes.2]; rfl⟩
  have hzero := hlogged.logCount_eq_zero hotherGet (promotes_candidate hsame)
  refine ⟨?_, hzero, ?_⟩
  · rw [get_promoteSlots, hotherGet, Option.map_some, if_pos hotherPromoted]
  · rw [hages.logCount, logCount_promoteSlots, hotherGet, Option.any_some, hotherPromoted, hzero]
    rfl

end MemoryStore

/-- What happens to the store: an operation on memories, a soft deletion or a new item. -/
inductive FactOp
  | memory (op : MemoryOp)
  | softDelete (memoryObjectId : String)
  | ingest (item : Ingest.SourceItem)

namespace FactOp

open MemoryStore

def step (run : MemoryRun) : FactOp → MemoryRun
  | .memory op => run.step op
  | .softDelete memoryObjectId =>
    { run with store := (run.store.softDeleteMemory memoryObjectId).1 }
  | .ingest item => { run with store := (run.store.createSourceItem item).1 }

def reached (ops : List FactOp) : MemoryRun := Run.run step MemoryRun.empty ops

/-- How a step treats candidates. -/
structure Sound (run : MemoryRun) (op : FactOp) : Prop where
  /-- Only in a commit a candidate becomes active. -/
  committed : ∀ record ∈ run.store.memories.rows, record.lifecycle = .candidate →
    ((step run op).store.memories.get record.id).map MemoryObjectRecord.lifecycle =
        some .active →
      ∃ result supersessionPairs resolved, op = .memory (.commit result supersessionPairs) ∧
        (run.store.commitProcessResult result supersessionPairs).2 = .ok resolved
  /-- In a commit the candidates of a slot become active together. -/
  together : ∀ result supersessionPairs resolved,
    op = .memory (.commit result supersessionPairs) →
      (run.store.commitProcessResult result supersessionPairs).2 = .ok resolved →
        ∃ added persisted, run.store.addProcessResult result = .ok added ∧
          run.store.persistProcessResult result = .ok persisted ∧
          ∀ record ∈ added.memories.rows, record.lifecycle = .candidate →
            ((step run op).store.memories.get record.id).map MemoryObjectRecord.lifecycle =
                some .active →
              ∃ hint ∈ result.promotionHints, promotes hint record = true ∧
                PromotesTogether added persisted (step run op).store hint

variable {run : MemoryRun}

theorem ages_step (op : FactOp)
    (hop : ∀ result supersessionPairs, op ≠ .memory (.commit result supersessionPairs)) :
    run.store.Ages (step run op).store := by
  cases op with
  | softDelete memoryObjectId => exact ages_softDeleteMemory memoryObjectId run.store
  | ingest item => exact ages_createSourceItem item run.store
  | memory op =>
    cases op with
    | create memory => exact ages_createMemoryObject memory run.store
    | createExplicit oldMemoryObjectId replacement indexEntries originSessionId originAgentId
        correctionReason =>
        exact ages_createExplicitSupersession _ _ _ _ _ _ run.store
    | link oldMemoryObjectId newMemoryObjectId correctionReason =>
      exact ages_linkSupersession _ _ _ run.store
    | commit result supersessionPairs => exact absurd rfl (hop result supersessionPairs)
    | supersede supersededId replacementId => exact Ages.refl run.store
    | flag request => exact Ages.refl run.store
    | advance index now =>
      simp only [step, MemoryRun.step]
      split
      · exact Ages.refl run.store
      · exact ages_advance _ now run.store
    | fail index error =>
      simp only [step, MemoryRun.step]
      split
      · exact Ages.refl run.store
      · split
        · exact Ages.refl run.store
        · exact Ages.refl run.store

theorem logged_step (op : FactOp) (hlogged : run.store.Logged) : (step run op).store.Logged := by
  by_cases hcommit : ∃ result supersessionPairs, op = .memory (.commit result supersessionPairs)
  · obtain ⟨result, supersessionPairs, rfl⟩ := hcommit
    exact hlogged.commit result supersessionPairs
  · apply (ages_step op _).logged hlogged
    intro result supersessionPairs hsame
    exact hcommit ⟨result, supersessionPairs, hsame⟩

theorem active_of_ages {store after : MemoryStore} (hages : store.Ages after)
    {memoryObjectId : String} {record : MemoryObjectRecord}
    (hrecord : store.memories.get memoryObjectId = some record)
    (hactive : (after.memories.get memoryObjectId).map MemoryObjectRecord.lifecycle =
      some .active) : record.lifecycle = .active := by
  obtain ⟨next, hnext, hchange⟩ := hages.memories memoryObjectId record hrecord
  rw [hnext, Option.map_some] at hactive
  rw [Option.some.inj hactive] at hchange
  rcases hchange with hsame | hended | hended
  · exact hsame.symm
  · cases hended
  · cases hended

theorem sound_step (op : FactOp) (hlogged : run.store.Logged) : Sound run op where
  committed record hrecord hcandidate hactive := by
    have hget : run.store.memories.get record.id = some record := Table.get_of_mem hrecord
    have hinactive : record.lifecycle ≠ .active := by
      rw [hcandidate]
      exact nofun
    by_cases hcommit : ∃ result supersessionPairs, op = .memory (.commit result supersessionPairs)
    · obtain ⟨result, supersessionPairs, rfl⟩ := hcommit
      rcases commitProcessResult_cases result supersessionPairs run.store with
        ⟨error, herror⟩ | ⟨added, after, resolved, hok, -⟩
      · have hsame : (step run (.memory (.commit result supersessionPairs))).store = run.store :=
          congrArg Prod.fst herror
        rw [hsame] at hactive
        exact absurd (active_of_ages (Ages.refl run.store) hget hactive) hinactive
      · exact ⟨result, supersessionPairs, resolved, rfl, congrArg Prod.snd hok⟩
    · refine absurd (active_of_ages (ages_step op ?_) hget hactive) hinactive
      exact fun result supersessionPairs hsame => hcommit ⟨result, supersessionPairs, hsame⟩
  together result supersessionPairs resolved hop hresolved := by
    subst hop
    rcases commitProcessResult_cases result supersessionPairs run.store with
      ⟨error, herror⟩ | ⟨added, after, other, hok, hadded, hpersisted, hages⟩
    · rw [herror] at hresolved
      cases hresolved
    · have hafter : (step run (.memory (.commit result supersessionPairs))).store = after :=
        congrArg Prod.fst hok
      refine ⟨added, _, hadded, hpersisted, fun record hrecord hcandidate hactive => ?_⟩
      rw [hafter] at hactive ⊢
      have hget : added.memories.get record.id = some record := Table.get_of_mem hrecord
      have hpersistedActive : (((firstHints [] result.promotionHints).foldl promoteSlot
          added).memories.get record.id).map MemoryObjectRecord.lifecycle = some .active := by
        have hpromoted := get_promoteSlots (firstHints [] result.promotionHints) added record.id
        rw [hget, Option.map_some] at hpromoted
        rw [hpromoted, Option.map_some, active_of_ages hages hpromoted hactive]
      obtain ⟨hint, hhint, hpromotes, htogether⟩ := promotesTogether_of_active
        ((ages_addProcessResult hadded).logged hlogged) hages hrecord hcandidate hpersistedActive
      exact ⟨hint, mem_of_mem_firstHints hhint, hpromotes, htogether⟩

/-- In every run a candidate becomes active only in a commit that promotes its slot as a
whole, and no memory is logged twice. -/
theorem promotion_sound (ops : List FactOp) :
    Along step Sound MemoryRun.empty ops ∧
      (∀ memoryObjectId, (reached ops).store.logCount memoryObjectId ≤ 1) ∧
      ∀ (hint : PromotionHint) (record : MemoryObjectRecord) (candidate : OperationalFactCandidate),
        record.payload = candidate.payload →
          (countsForSlot hint record = true ↔
            (record.lifecycle = .candidate ∨ record.lifecycle = .active) ∧
              promotes hint { record with lifecycle := .candidate } = true) := by
  have halways : Along step (fun _ _ => True) MemoryRun.empty ops :=
    Along.of_forall fun _ _ => trivial
  have hpreserved : ∀ (run : MemoryRun) (op : FactOp), True → run.store.Logged →
      (step run op).store.Logged :=
    fun run op _ hlogged => logged_step op hlogged
  have hreached : (reached ops).store.Logged :=
    halways.invariant logged_empty hpreserved
  exact ⟨(halways.with_invariant logged_empty hpreserved).mono
      fun run op hrun => sound_step op hrun.2, hreached.once,
    fun hint record candidate hpayload => countsForSlot_iff hint hpayload⟩

end FactOp

end Pallium.Memory
