import Pallium.Memory.Promotion

/-!
# One fact for each thread and slot

A rebuild derives the facts of its thread anew and drops those whose slot the thread
has a candidate for.  It does not look at facts that have been promoted, so a thread
keeps one fact for a slot as long as no rebuild derives a slot for which the thread
has an active fact.  What refers to a dropped fact is dropped with it.
-/

namespace Pallium.Memory

open Pallium.Run Pallium.Transaction

section Derivation

open OperationalFactCandidate

variable {rebuild : TraceRebuild} {store : MemoryStore}

section

variable {candidates : List OperationalFactCandidate} {candidate : OperationalFactCandidate}

theorem mem_of_mem_keepFirst {seen : List Slot} (hmem : candidate ∈ keepFirst seen candidates) :
    candidate ∈ candidates := by
  induction candidates generalizing seen with
  | nil => exact hmem
  | cons head rest ih =>
    rw [keepFirst] at hmem
    split at hmem
    · exact List.mem_cons_of_mem head (ih hmem)
    · rcases List.mem_cons.mp hmem with rfl | hlater
      · exact List.mem_cons_self
      · exact List.mem_cons_of_mem head (ih hlater)

theorem mem_of_mem_deriveOperationalFacts
    (hmem : candidate ∈ deriveOperationalFacts candidates) : candidate ∈ candidates := by
  have hdeduped : candidate ∈ dedupCandidates candidates := by
    unfold deriveOperationalFacts at hmem
    simp only at hmem
    split at hmem
    · exact List.mem_of_mem_filter hmem
    · exact hmem
  exact mem_of_mem_keepFirst ((List.mem_insertionSort _).mp hdeduped)

end

theorem of_mem_traceItems {item : Ingest.SourceItem} (hmem : item ∈ rebuild.traceItems store) :
    store.sourceItems.get item.id = some item ∧
      item.threadRef = some rebuild.aggregate.threadRef := by
  obtain ⟨sourceItemId, -, hfound⟩ := List.mem_filterMap.mp hmem
  obtain ⟨hget, hscope⟩ := Option.filter_eq_some_iff.mp hfound
  obtain rfl : item.id = sourceItemId := Table.key_of_get hget
  simp only [Bool.and_eq_true, beq_iff_eq] at hscope
  exact ⟨hget, hscope.1.2⟩

theorem evidence_of_mem_facts {fact : FactId × OperationalFactCandidate}
    (hmem : fact ∈ rebuild.facts store) :
    ∃ item ∈ rebuild.traceItems store, ∃ turnIndex, fact.2.evidence = [⟨item.id, turnIndex⟩] := by
  obtain ⟨index, hindex, rfl⟩ := List.mem_mapIdx.mp hmem
  have hcandidate := mem_of_mem_deriveOperationalFacts (List.getElem_mem hindex)
  obtain ⟨turn, hturn, hfinding⟩ := List.mem_flatMap.mp hcandidate
  obtain ⟨finding, -, hsame⟩ := List.mem_map.mp hfinding
  refine ⟨turn.1, List.fst_mem_of_mem_zipIdx hturn, turn.2, ?_⟩
  rw [← hsame]
  rfl

end Derivation

namespace MemoryStore

/-- The evidence of the payload is one item of the thread. -/
def From (store : MemoryStore) (payload : Payload) (threadRef : String) : Prop :=
  ∃ sourceItemId item, payload.evidenceSourceItemIds = [sourceItemId] ∧
    store.sourceItems.get sourceItemId = some item ∧ item.threadRef = some threadRef ∧
      threadRef ≠ ""

/-- Some evidence of the memory comes from the thread. -/
def ComesFrom (store : MemoryStore) (record : MemoryObjectRecord) (threadRef : String) : Prop :=
  ∃ sourceItemId ∈ record.payload.evidenceSourceItemIds, ∃ item,
    store.sourceItems.get sourceItemId = some item ∧ item.threadRef = some threadRef

section Threads

variable {store : MemoryStore} {payload : Payload} {threadRef : String}

theorem From.eq_of_comesFrom {record : MemoryObjectRecord} {other : String}
    (hfrom : store.From record.payload threadRef) (hcomes : store.ComesFrom record other) :
    other = threadRef := by
  obtain ⟨sourceItemId, item, hevidence, hget, hthread, -⟩ := hfrom
  obtain ⟨otherId, hmem, otherItem, hotherGet, hotherThread⟩ := hcomes
  rw [hevidence, List.mem_singleton] at hmem
  rw [hmem, hget] at hotherGet
  rw [← Option.some.inj hotherGet, hthread] at hotherThread
  exact (Option.some.inj hotherThread).symm

theorem From.comesFrom {record : MemoryObjectRecord}
    (hfrom : store.From record.payload threadRef) : store.ComesFrom record threadRef := by
  obtain ⟨sourceItemId, item, hevidence, hget, hthread, -⟩ := hfrom
  exact ⟨sourceItemId, hevidence ▸ List.mem_singleton_self sourceItemId, item, hget, hthread⟩

theorem inferThreadRef_of_from {payloads : List Payload} (hne : payloads ≠ [])
    (hfrom : ∀ payload ∈ payloads, store.From payload threadRef) :
    inferThreadRef store payloads = some threadRef := by
  cases payloads with
  | nil => exact absurd rfl hne
  | cons payload rest =>
    obtain ⟨sourceItemId, item, hevidence, hget, hthread, hnonempty⟩ :=
      hfrom payload List.mem_cons_self
    rw [inferThreadRef, List.flatMap_cons, hevidence, List.singleton_append,
      List.findSome?_cons_of_isSome]
    · rw [hget, Option.bind_some, hthread, Option.filter_some, if_pos (by simpa using hnonempty)]
    · rw [hget, Option.bind_some, hthread, Option.filter_some, if_pos (by simpa using hnonempty)]
      rfl

end Threads

end MemoryStore

section Duplicates

variable {memories : List MemoryObject} {slots : List Slot} {memory other : MemoryObject}

theorem slot_not_mem_of_kept (hmem : memory ∈ memories)
    (hkept : memory.id ∉ duplicateIds slots memories) : memory.payload.slot ∉ slots := by
  induction memories generalizing slots with
  | nil => exact absurd hmem List.not_mem_nil
  | cons head rest ih =>
    rw [duplicateIds] at hkept
    split at hkept
    · rw [List.mem_cons, not_or] at hkept
      rcases List.mem_cons.mp hmem with rfl | hlater
      · exact absurd rfl hkept.1
      · exact ih hlater hkept.2
    · next hfree =>
        rcases List.mem_cons.mp hmem with rfl | hlater
        · exact hfree
        · exact fun hclaimed => ih hlater hkept (List.mem_cons_of_mem _ hclaimed)

theorem eq_of_kept (hmem : memory ∈ memories) (hother : other ∈ memories)
    (hkept : memory.id ∉ duplicateIds slots memories)
    (hotherKept : other.id ∉ duplicateIds slots memories)
    (hslot : memory.payload.slot = other.payload.slot) : memory = other := by
  induction memories generalizing slots with
  | nil => exact absurd hmem List.not_mem_nil
  | cons head rest ih =>
    rw [duplicateIds] at hkept hotherKept
    split at hkept
    · next hclaimed =>
        rw [if_pos hclaimed] at hotherKept
        rw [List.mem_cons, not_or] at hkept hotherKept
        rcases List.mem_cons.mp hmem with rfl | hlater
        · exact absurd rfl hkept.1
        · rcases List.mem_cons.mp hother with rfl | hotherLater
          · exact absurd rfl hotherKept.1
          · exact ih hlater hotherLater hkept.2 hotherKept.2
    · next hfree =>
        rw [if_neg hfree] at hotherKept
        rcases List.mem_cons.mp hmem with rfl | hlater
        · rcases List.mem_cons.mp hother with rfl | hotherLater
          · rfl
          · exact absurd (hslot ▸ List.mem_cons_self)
              (slot_not_mem_of_kept hotherLater hotherKept)
        · rcases List.mem_cons.mp hother with rfl | hotherLater
          · exact absurd (hslot ▸ List.mem_cons_self) (slot_not_mem_of_kept hlater hkept)
          · exact ih hlater hotherLater hkept hotherKept

end Duplicates

/-- What a rebuild hands to the store. -/
def TraceRebuild.result (rebuild : TraceRebuild) (store : MemoryStore) : ProcessResult :=
  (rebuild.buildThreadSummary store).reconcile store rebuild.aggregate.containerRef
    rebuild.aggregate.visibility

/-- The slots for which the thread has a candidate. -/
def TraceRebuild.claimedSlots (rebuild : TraceRebuild) (store : MemoryStore) : List Slot :=
  ((store.factsOf rebuild.aggregate.containerRef .candidate).filter fun record =>
    !record.isSoftDeleted &&
      inferThreadRef store [record.payload] == some rebuild.aggregate.threadRef).map
    fun record => record.payload.slot

section Reconciliation

variable {rebuild : TraceRebuild} {store : MemoryStore} {memory other : MemoryObject}
  {fact : FactId × OperationalFactCandidate}

theorem fact_of_mem_buildThreadSummary
    (hmem : memory ∈ (rebuild.buildThreadSummary store).memoryObjects)
    (htype : memory.type = operationalFactType) :
    ∃ fact ∈ rebuild.facts store,
      memory = candidateToMemoryObject fact.1 fact.2 rebuild.aggregate := by
  unfold TraceRebuild.buildThreadSummary at hmem
  split at hmem
  · exact absurd hmem List.not_mem_nil
  · rcases List.mem_cons.mp hmem with rfl | hfact
    · exact absurd htype (by change ¬ ("task_trace" = operationalFactType); decide)
    · obtain ⟨fact, hfact, hsame⟩ := List.mem_map.mp hfact
      exact ⟨fact, hfact, hsame.symm⟩

theorem from_of_mem_facts (hfact : fact ∈ rebuild.facts store) :
    store.From fact.2.payload rebuild.aggregate.threadRef := by
  obtain ⟨item, hitem, turnIndex, hevidence⟩ := evidence_of_mem_facts hfact
  obtain ⟨hget, hthread⟩ := of_mem_traceItems hitem
  refine ⟨item.id, item, ?_, hget, hthread, rebuild.aggregate.threaded⟩
  rw [OperationalFactCandidate.payload, hevidence]
  rfl

theorem lifecycle_of_mem_buildThreadSummary
    (hmem : memory ∈ (rebuild.buildThreadSummary store).memoryObjects)
    (htype : memory.type = operationalFactType) : memory.lifecycle = .candidate := by
  obtain ⟨fact, -, rfl⟩ := fact_of_mem_buildThreadSummary hmem htype
  rfl

theorem mem_factsWith_iff {result : ProcessResult} {lifecycle : Lifecycle} :
    memory ∈ result.factsWith lifecycle ↔ memory ∈ result.memoryObjects ∧
      memory.type = operationalFactType ∧ memory.lifecycle = lifecycle := by
  rw [ProcessResult.factsWith, List.mem_filter, Bool.and_eq_true, beq_iff_eq, beq_iff_eq]

/-- The ids of the facts that are dropped. -/
def TraceRebuild.droppedIds (rebuild : TraceRebuild) (store : MemoryStore) : List String :=
  duplicateIds (rebuild.claimedSlots store)
    ((rebuild.buildThreadSummary store).factsWith .candidate)

/-- What is left of a result when the facts with the ids are dropped. -/
def ProcessResult.Without (built : ProcessResult) (ids : List String) (left : ProcessResult) :
    Prop :=
  left.memoryObjects = built.memoryObjects.filter (fun memory =>
      !(memory.type == operationalFactType && decide (memory.id ∈ ids))) ∧
    left.relations = built.relations.filter (fun relation =>
      !(relation.fromKind == .memoryObject && decide (relation.fromId ∈ ids))) ∧
    left.indexEntries = built.indexEntries.filter (fun entry => decide (entry.targetId ∉ ids))

/-- What the reconciliation of a summary leaves: what does not belong to a dropped fact. -/
theorem result_eq (rebuild : TraceRebuild) (store : MemoryStore) :
    (rebuild.buildThreadSummary store).Without (rebuild.droppedIds store)
      (rebuild.result store) := by
  generalize hbuilt : rebuild.buildThreadSummary store = built
  have hactive : ∀ deduped : ProcessResult, deduped.memoryObjects ⊆ built.memoryObjects →
      ∀ containerRef visibility,
        (deduped.appendPromotionHints containerRef visibility).dedupActiveFacts store
          containerRef = deduped.appendPromotionHints containerRef visibility := by
    intro deduped hsubset containerRef visibility
    have hnone : (deduped.appendPromotionHints containerRef visibility).factsWith .active = [] := by
      rw [List.eq_nil_iff_forall_not_mem]
      intro memory hmem
      obtain ⟨hmemory, htype, hlifecycle⟩ := mem_factsWith_iff.mp hmem
      have hcandidate := lifecycle_of_mem_buildThreadSummary (hbuilt ▸ hsubset hmemory) htype
      rw [hlifecycle] at hcandidate
      cases hcandidate
    rw [ProcessResult.dedupActiveFacts, hnone]
    rfl
  have hfilter : rebuild.droppedIds store = [] →
      built.Without (rebuild.droppedIds store) built := by
    intro hempty
    simp [ProcessResult.Without, hempty]
  have hdropped : rebuild.droppedIds store =
      duplicateIds (rebuild.claimedSlots store) (built.factsWith .candidate) := by
    rw [TraceRebuild.droppedIds, hbuilt]
  rw [TraceRebuild.result, ProcessResult.reconcile, hbuilt]
  by_cases hnone : built.factsWith .candidate = []
  · rw [hnone, List.isEmpty_nil, if_pos rfl, hactive built (List.Subset.refl _)]
    apply hfilter
    rw [hdropped, hnone]
    rfl
  · have hthread : inferThreadRef store ((built.factsWith .candidate).map MemoryObject.payload) =
        some rebuild.aggregate.threadRef := by
      apply MemoryStore.inferThreadRef_of_from
      · exact fun hnil => hnone (List.map_eq_nil_iff.mp hnil)
      · intro payload hpayload
        obtain ⟨memory, hmemory, rfl⟩ := List.mem_map.mp hpayload
        obtain ⟨hmem, htype, -⟩ := mem_factsWith_iff.mp hmemory
        obtain ⟨fact, hfact, rfl⟩ := fact_of_mem_buildThreadSummary (hbuilt ▸ hmem) htype
        exact from_of_mem_facts hfact
    have hnonempty : ¬ (built.factsWith .candidate).isEmpty = true :=
      fun hisEmpty => hnone (List.isEmpty_iff.mp hisEmpty)
    rw [if_neg hnonempty]
    by_cases hempty : rebuild.droppedIds store = []
    · have hkeeps : built.dedupCandidatesIntraThread store rebuild.aggregate.containerRef =
          built := by
        simp only [ProcessResult.dedupCandidatesIntraThread, hthread]
        apply if_pos
        rw [List.isEmpty_iff, ← hempty, hdropped]
        rfl
      rw [hkeeps, hactive built (List.Subset.refl _)]
      exact hfilter hempty
    · have hdrops : built.Without (rebuild.droppedIds store)
          (built.dedupCandidatesIntraThread store rebuild.aggregate.containerRef) := by
        have hnot : ¬ (duplicateIds (rebuild.claimedSlots store)
            (built.factsWith .candidate)).isEmpty = true := by
          rw [← hdropped, List.isEmpty_iff]
          exact hempty
        simp only [ProcessResult.dedupCandidatesIntraThread, hthread]
        rw [hdropped]
        unfold TraceRebuild.claimedSlots at hnot ⊢
        rw [if_neg hnot]
        exact ⟨rfl, rfl, rfl⟩
      rw [hactive _ (hdrops.1 ▸ List.filter_subset_self _)]
      exact hdrops

theorem fact_of_mem_result (hmem : memory ∈ (rebuild.result store).memoryObjects)
    (htype : memory.type = operationalFactType) :
    (∃ fact ∈ rebuild.facts store,
        memory = candidateToMemoryObject fact.1 fact.2 rebuild.aggregate) ∧
      memory.payload.slot ∉ rebuild.claimedSlots store := by
  rw [(result_eq rebuild store).1, List.mem_filter] at hmem
  obtain ⟨hbuilt, hkept⟩ := hmem
  simp only [htype, beq_self_eq_true, Bool.true_and, Bool.not_eq_true', decide_eq_false_iff_not]
    at hkept
  refine ⟨fact_of_mem_buildThreadSummary hbuilt htype, slot_not_mem_of_kept ?_ hkept⟩
  exact mem_factsWith_iff.mpr ⟨hbuilt, htype, lifecycle_of_mem_buildThreadSummary hbuilt htype⟩

theorem eq_of_mem_result (hmem : memory ∈ (rebuild.result store).memoryObjects)
    (hother : other ∈ (rebuild.result store).memoryObjects)
    (htype : memory.type = operationalFactType) (hotherType : other.type = operationalFactType)
    (hslot : memory.payload.slot = other.payload.slot) : memory = other := by
  rw [(result_eq rebuild store).1, List.mem_filter] at hmem hother
  obtain ⟨hbuilt, hkept⟩ := hmem
  obtain ⟨hotherBuilt, hotherKept⟩ := hother
  simp only [htype, hotherType, beq_self_eq_true, Bool.true_and, Bool.not_eq_true',
    decide_eq_false_iff_not] at hkept hotherKept
  exact eq_of_kept
    (mem_factsWith_iff.mpr ⟨hbuilt, htype, lifecycle_of_mem_buildThreadSummary hbuilt htype⟩)
    (mem_factsWith_iff.mpr
      ⟨hotherBuilt, hotherType, lifecycle_of_mem_buildThreadSummary hotherBuilt hotherType⟩)
    hkept hotherKept hslot

theorem mem_replacementIds_of_fact
    (hbuilt : candidateToMemoryObject fact.1 fact.2 rebuild.aggregate ∈
      (rebuild.buildThreadSummary store).memoryObjects)
    (hkept : fact.1.memoryId ∉ rebuild.droppedIds store) :
    fact.1.memoryId ∈ (rebuild.result store).replacementIds := by
  apply List.mem_map.mpr
  refine ⟨candidateToMemoryObject fact.1 fact.2 rebuild.aggregate, ?_, rfl⟩
  rw [(result_eq rebuild store).1, List.mem_filter]
  refine ⟨hbuilt, ?_⟩
  have hnot : decide ((candidateToMemoryObject fact.1 fact.2 rebuild.aggregate).id ∈
      rebuild.droppedIds store) = false := decide_eq_false hkept
  rw [hnot, Bool.and_false]
  rfl

theorem relation_of_mem_result {relation : RelationRecord}
    (hmem : relation ∈ (rebuild.result store).relations) :
    relation.fromKind = .memoryObject ∧
      relation.fromId ∈ (rebuild.result store).replacementIds ∧
        relation.toKind = .sourceItem := by
  rw [(result_eq rebuild store).2.1, List.mem_filter] at hmem
  obtain ⟨hbuilt, hkept⟩ := hmem
  unfold TraceRebuild.buildThreadSummary at hbuilt
  split at hbuilt
  · exact absurd hbuilt List.not_mem_nil
  · next hitems =>
      obtain ⟨fact, hfact, hrelation⟩ := List.mem_flatMap.mp hbuilt
      obtain ⟨-, hfromKind, hfromId, htoKind⟩ :=
        TraceRebuild.relationType_of_mem_candidateRelations hrelation
      rw [hfromKind, hfromId, beq_self_eq_true, Bool.true_and, Bool.not_eq_true',
        decide_eq_false_iff_not] at hkept
      refine ⟨hfromKind, hfromId ▸ mem_replacementIds_of_fact ?_ hkept, htoKind⟩
      rw [TraceRebuild.buildThreadSummary, if_neg hitems]
      exact List.mem_cons_of_mem _ (List.mem_map_of_mem hfact)

theorem entry_of_mem_result {entry : IndexEntryRecord}
    (hmem : entry ∈ (rebuild.result store).indexEntries) :
    entry.targetKind = .memoryObject ∧
      entry.targetId ∈ (rebuild.result store).replacementIds := by
  rw [(result_eq rebuild store).2.2, List.mem_filter, decide_eq_true_eq] at hmem
  obtain ⟨hbuilt, hkept⟩ := hmem
  unfold TraceRebuild.buildThreadSummary at hbuilt
  split at hbuilt
  · exact absurd hbuilt List.not_mem_nil
  · next hitems =>
      rcases List.mem_cons.mp hbuilt with rfl | hfact
      · refine ⟨rfl, List.mem_map.mpr ⟨taskTrace rebuild.traceId rebuild.aggregate, ?_, rfl⟩⟩
        rw [(result_eq rebuild store).1, List.mem_filter]
        refine ⟨?_, rfl⟩
        rw [TraceRebuild.buildThreadSummary, if_neg hitems]
        exact List.mem_cons_self
      · obtain ⟨derived, hderived, rfl⟩ := List.mem_map.mp hfact
        refine ⟨rfl, mem_replacementIds_of_fact ?_ hkept⟩
        rw [TraceRebuild.buildThreadSummary, if_neg hitems]
        exact List.mem_cons_of_mem _ (List.mem_map_of_mem hderived)

theorem not_mem_replacementIds_of_dropped {memoryObjectId : String}
    (hdropped : memoryObjectId ∈ rebuild.droppedIds store)
    (hother : memoryObjectId ≠ rebuild.traceId.memoryId) :
    memoryObjectId ∉ (rebuild.result store).replacementIds := by
  intro hmem
  obtain ⟨memory, hmemory, rfl⟩ := List.mem_map.mp hmem
  rw [(result_eq rebuild store).1, List.mem_filter] at hmemory
  obtain ⟨hbuilt, hkept⟩ := hmemory
  have htype : memory.type = operationalFactType := by
    unfold TraceRebuild.buildThreadSummary at hbuilt
    split at hbuilt
    · exact absurd hbuilt List.not_mem_nil
    · rcases List.mem_cons.mp hbuilt with rfl | hfact
      · exact absurd rfl hother
      · obtain ⟨fact, -, rfl⟩ := List.mem_map.mp hfact
        rfl
  rw [htype, beq_self_eq_true, Bool.true_and, decide_eq_true hdropped] at hkept
  cases hkept

end Reconciliation

end Pallium.Memory
