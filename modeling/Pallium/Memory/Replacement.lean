import Pallium.Memory.Commit

/-!
# What a supersession leaves behind

A commit applies its pairs one by one.  In between, every memory that has already
got its replacement is out of the index, has one edge more, and its evidence has
moved if its type merges; the memories of the result gain evidence and are never
superseded, and everything else is as it was before the first pair.
-/

namespace Pallium.Memory

open Pallium.Transaction

/-- The types whose evidence moves to the replacement. -/
def MergesEvidence (memoryType : String) : Prop :=
  memoryType = "decision" ∨ memoryType = "investigation_outcome"

/-- A memory without what a merge or a supersession changes. -/
def MemoryObjectRecord.outline (record : MemoryObjectRecord) : MemoryObjectRecord :=
  { record with payload := Payload.empty, lifecycle := .active }

namespace MemoryStore

section Edge

variable {store : MemoryStore} {supersededId replacementId memoryObjectId : String}

theorem get_supersedeByEdge (store : MemoryStore) (memoryObjectId : String) :
    (store.supersedeByEdge supersededId replacementId).memories.get memoryObjectId =
      if memoryObjectId = supersededId then
        (store.memories.get memoryObjectId).map fun record =>
          { record with lifecycle := .superseded }
      else store.memories.get memoryObjectId := by
  apply Table.get_modify
  exact fun record => rfl

theorem superseded_supersedeByEdge (hknown : (store.memories.get supersededId).isSome) :
    (store.supersedeByEdge supersededId replacementId).superseded memoryObjectId =
      (decide (memoryObjectId = supersededId) || store.superseded memoryObjectId) := by
  rw [superseded, get_supersedeByEdge]
  by_cases hsame : memoryObjectId = supersededId
  · obtain ⟨record, hrecord⟩ := Option.isSome_iff_exists.mp hknown
    simp [hsame, hrecord]
  · simp [hsame, superseded]

theorem outline_supersedeByEdge (store : MemoryStore) (memoryObjectId : String) :
    ((store.supersedeByEdge supersededId replacementId).memories.get memoryObjectId).map
        MemoryObjectRecord.outline =
      (store.memories.get memoryObjectId).map MemoryObjectRecord.outline := by
  rw [get_supersedeByEdge]
  split
  · rw [Option.map_map]
    rfl
  · rfl

theorem supportCount_supersedeByEdge (store : MemoryStore) (memoryObjectId toId : String) :
    supportCount (store.supersedeByEdge supersededId replacementId).relations memoryObjectId toId =
      supportCount store.relations memoryObjectId toId := by
  change List.countP _ (store.relations ++ _) = _
  rw [List.countP_append, List.countP_singleton]
  simp [supports, supersedesEdge, supportCount]

theorem count_supersedeByEdge (store : MemoryStore) (source target : String) :
    (store.supersedeByEdge supersededId replacementId).relations.count
        (supersedesEdge source target) =
      store.relations.count (supersedesEdge source target) +
        if source = supersededId ∧ target = replacementId then 1 else 0 := by
  change List.count _ (store.relations ++ _) = _
  rw [List.count_append, List.count_singleton]
  congr 1
  apply if_congr _ rfl rfl
  rw [beq_iff_eq, supersedesEdge_inj, eq_comm, @eq_comm _ replacementId]

theorem successionCount_supersedeByEdge (store : MemoryStore) (memoryObjectId : String) :
    successionCount (store.supersedeByEdge supersededId replacementId).relations memoryObjectId =
      successionCount store.relations memoryObjectId +
        if memoryObjectId = supersededId then 1 else 0 := by
  change List.countP _ (store.relations ++ _) = _
  rw [List.countP_append, List.countP_singleton, successionCount]
  congr 1
  by_cases hsame : memoryObjectId = supersededId
  · simp [supersedesEdge, hsame]
  · simp [supersedesEdge, hsame, Ne.symm hsame]

end Edge

section Merge

variable {store : MemoryStore} {loser winner : MemoryObjectRecord} {memoryObjectId toId : String}

/-- A merge changes the payload of the replacement, though neither slot nor evidence, and
that alone. -/
theorem get_mergeIntoWinner (store : MemoryStore) (loser winner : MemoryObjectRecord) :
    ∃ change : Payload → Payload, (∀ payload, (change payload).slot = payload.slot ∧
        (change payload).evidenceSourceItemIds = payload.evidenceSourceItemIds) ∧
      ∀ memoryObjectId, (store.mergeIntoWinner loser winner).memories.get memoryObjectId =
        if memoryObjectId = winner.id then
          (store.memories.get memoryObjectId).map fun record =>
            { record with payload := change record.payload }
        else store.memories.get memoryObjectId := by
  unfold mergeIntoWinner
  split
  · refine ⟨fun payload => mergeDecisionPayload payload loser.payload loser.id,
      fun payload => ⟨rfl, rfl⟩, fun memoryObjectId => ?_⟩
    apply Table.get_modify
    exact fun record => rfl
  · refine ⟨id, fun payload => ⟨rfl, rfl⟩, fun memoryObjectId => ?_⟩
    split
    · exact Option.map_id'.symm
    · rfl

section

variable (store : MemoryStore) (loser winner : MemoryObjectRecord) (memoryObjectId : String)

theorem superseded_mergeIntoWinner :
    (store.mergeIntoWinner loser winner).superseded memoryObjectId =
      store.superseded memoryObjectId := by
  obtain ⟨change, -, hget⟩ := get_mergeIntoWinner store loser winner
  rw [superseded, hget, superseded]
  split
  · exact Option.any_map
  · rfl

theorem map_mergeIntoWinner {α : Type} {view : MemoryObjectRecord → α}
    (hview : ∀ record payload, view { record with payload := payload } = view record) :
    ((store.mergeIntoWinner loser winner).memories.get memoryObjectId).map view =
      (store.memories.get memoryObjectId).map view := by
  obtain ⟨change, -, hget⟩ := get_mergeIntoWinner store loser winner
  rw [hget]
  split
  · rw [Option.map_map]
    exact congrArg (Option.map · _) (funext fun record => hview record _)
  · rfl

theorem isSome_mergeIntoWinner :
    ((store.mergeIntoWinner loser winner).memories.get memoryObjectId).isSome =
      (store.memories.get memoryObjectId).isSome := by
  have hsame := @map_mergeIntoWinner store loser winner memoryObjectId _ (fun _ => ())
    fun _ _ => rfl
  simpa only [Option.isSome_map] using congrArg Option.isSome hsame

end

theorem mergeIntoWinner_of_not (hmerges : ¬ MergesEvidence winner.type) :
    store.mergeIntoWinner loser winner = store :=
  if_neg hmerges

theorem relations_mergeIntoWinner (hmerges : MergesEvidence winner.type) :
    (store.mergeIntoWinner loser winner).relations =
      reparentSupportedBy loser.id winner.id
        ((store.relations.filter (supports winner.id)).map RelationRecord.toId)
        store.relations :=
  congrArg MemoryStore.relations (if_pos hmerges)

section

variable (store : MemoryStore) (loser winner : MemoryObjectRecord)

theorem index_mergeIntoWinner :
    (store.mergeIntoWinner loser winner).index = store.index := by
  unfold mergeIntoWinner
  split
  · rfl
  · rfl

theorem sourceItems_mergeIntoWinner :
    (store.mergeIntoWinner loser winner).sourceItems = store.sourceItems := by
  unfold mergeIntoWinner
  split
  · rfl
  · rfl

theorem successionCount_mergeIntoWinner (memoryObjectId : String) :
    successionCount (store.mergeIntoWinner loser winner).relations memoryObjectId =
      successionCount store.relations memoryObjectId := by
  by_cases hmerges : MergesEvidence winner.type
  · rw [relations_mergeIntoWinner hmerges]
    exact successionCount_reparent
  · rw [mergeIntoWinner_of_not hmerges]

end

theorem mem_supportedTargets_iff :
    toId ∈ (store.relations.filter (supports memoryObjectId)).map RelationRecord.toId ↔
      0 < supportCount store.relations memoryObjectId toId := by
  rw [supportCount, List.countP_pos_iff, List.mem_map]
  constructor
  · rintro ⟨relation, hrelation, rfl⟩
    have hsupports := List.mem_filter.mp hrelation
    exact ⟨relation, hsupports.1, by simp [hsupports.2]⟩
  · rintro ⟨relation, hrelation, hcounted⟩
    rw [Bool.and_eq_true, beq_iff_eq] at hcounted
    exact ⟨relation, List.mem_filter.mpr ⟨hrelation, hcounted.1⟩, hcounted.2⟩

theorem supportCount_mergeIntoWinner_winner (hmerges : MergesEvidence winner.type)
    (hne : loser.id ≠ winner.id) (toId : String) :
    supportCount (store.mergeIntoWinner loser winner).relations winner.id toId =
      supportCount store.relations winner.id toId +
        if supportCount store.relations winner.id toId = 0 ∧
          0 < supportCount store.relations loser.id toId then 1 else 0 := by
  rw [relations_mergeIntoWinner hmerges, supportCount_reparent_to hne]
  congr 2
  rw [mem_supportedTargets_iff, Nat.pos_iff_ne_zero, not_not]

theorem supportCount_mergeIntoWinner_of_ne (hloser : memoryObjectId ≠ loser.id)
    (hwinner : memoryObjectId ≠ winner.id) (toId : String) :
    supportCount (store.mergeIntoWinner loser winner).relations memoryObjectId toId =
      supportCount store.relations memoryObjectId toId := by
  by_cases hmerges : MergesEvidence winner.type
  · rw [relations_mergeIntoWinner hmerges]
    exact supportCount_reparent_of_ne hloser hwinner
  · rw [mergeIntoWinner_of_not hmerges]

theorem count_mergeIntoWinner (store : MemoryStore) (loser winner : MemoryObjectRecord)
    (source target : String) :
    (store.mergeIntoWinner loser winner).relations.count (supersedesEdge source target) =
      store.relations.count (supersedesEdge source target) := by
  by_cases hmerges : MergesEvidence winner.type
  · rw [relations_mergeIntoWinner hmerges]
    exact count_reparentSupportedBy source target
  · rw [mergeIntoWinner_of_not hmerges]

theorem mem_relations_mergeIntoWinner {relation : RelationRecord}
    (hmem : relation ∈ (store.mergeIntoWinner loser winner).relations) :
    ∃ original ∈ store.relations,
      relation = original ∨ relation = { original with fromId := winner.id } := by
  by_cases hmerges : MergesEvidence winner.type
  · rw [relations_mergeIntoWinner hmerges] at hmem
    exact original_of_mem_reparentSupportedBy hmem
  · rw [mergeIntoWinner_of_not hmerges] at hmem
    exact ⟨relation, hmem, Or.inl rfl⟩

end Merge

section Pairs

/-- Whether the evidence of the memory moves when it is superseded. -/
def Merges (store : MemoryStore) (memoryObjectId : String) : Prop :=
  ∃ record, store.memories.get memoryObjectId = some record ∧ MergesEvidence record.type

/-- Whether an edge more leads from the replacement to the memory than before. -/
def Replaces (before after : MemoryStore) (supersededId replacementId : String) : Prop :=
  before.relations.count (supersedesEdge supersededId replacementId) <
    after.relations.count (supersedesEdge supersededId replacementId)

instance (before after : MemoryStore) (supersededId replacementId : String) :
    Decidable (before.Replaces after supersededId replacementId) :=
  inferInstanceAs (Decidable (_ < _))

/-- All evidence consists of source items. -/
def Sourced (relations : List RelationRecord) : Prop :=
  ∀ relation ∈ relations, relation.relationType = .supportedBy → relation.toKind = .sourceItem

instance (relations : List RelationRecord) : Decidable (Sourced relations) :=
  inferInstanceAs (Decidable (∀ relation ∈ relations, _ → _))

/-- What holds of a memory that has got its replacement since `base`. -/
structure Replaced (base store : MemoryStore) (supersededId replacementId : String) : Prop where
  types : (base.memories.get supersededId).map MemoryObjectRecord.type =
    (base.memories.get replacementId).map MemoryObjectRecord.type
  edge : base.Replaces store supersededId replacementId
  once : successionCount store.relations supersededId =
    successionCount base.relations supersededId + 1
  entries : ∀ entry ∈ store.index.entries.rows,
    ¬(entry.targetKind = .memoryObject ∧ entry.targetId = supersededId)
  lexicalRows : ∀ row ∈ store.index.lexicalRows,
    ¬(row.targetKind = .memoryObject ∧ row.targetId = supersededId)
  evidence : base.Merges supersededId → ∀ toId,
    0 < supportCount base.relations supersededId toId →
      0 < supportCount store.relations replacementId toId

/-- What holds between two pairs, for the replacements `ids` of all pairs and the
store `base` before the first pair. -/
structure Merging (ids : List String) (pairs : List (String × String))
    (base store : MemoryStore) : Prop where
  sourceItems : store.sourceItems = base.sourceItems
  outline : ∀ memoryObjectId,
    (store.memories.get memoryObjectId).map MemoryObjectRecord.outline =
      (base.memories.get memoryObjectId).map MemoryObjectRecord.outline
  persistent : ∀ memoryObjectId, base.superseded memoryObjectId = true →
    store.superseded memoryObjectId = true
  lifecycles : ∀ memoryObjectId ∈ ids,
    (store.memories.get memoryObjectId).map MemoryObjectRecord.lifecycle =
      (base.memories.get memoryObjectId).map MemoryObjectRecord.lifecycle
  fresh : ∀ memoryObjectId ∈ ids,
    store.superseded memoryObjectId = base.superseded memoryObjectId
  gained : ∀ memoryObjectId ∈ ids, ∀ toId,
    supportCount base.relations memoryObjectId toId ≤
        supportCount store.relations memoryObjectId toId ∧
      supportCount store.relations memoryObjectId toId ≤
        max 1 (supportCount base.relations memoryObjectId toId)
  kept : ∀ memoryObjectId, memoryObjectId ∉ ids →
    (store.superseded memoryObjectId = base.superseded memoryObjectId ∨
      ¬ base.Merges memoryObjectId) → ∀ toId,
    supportCount store.relations memoryObjectId toId =
      supportCount base.relations memoryObjectId toId
  successions : ∀ memoryObjectId,
    store.superseded memoryObjectId = base.superseded memoryObjectId →
      successionCount store.relations memoryObjectId =
        successionCount base.relations memoryObjectId
  replaced : ∀ memoryObjectId, base.superseded memoryObjectId = false →
    store.superseded memoryObjectId = true → ∃ replacementId,
      (memoryObjectId, replacementId) ∈ pairs ∧ base.Replaced store memoryObjectId replacementId
  sourced : Sourced base.relations → Sourced store.relations
  count_le : ∀ source target, base.relations.count (supersedesEdge source target) ≤
    store.relations.count (supersedesEdge source target)
  edges : ∀ memoryObjectId replacementId, base.Replaces store memoryObjectId replacementId →
    (memoryObjectId, replacementId) ∈ pairs ∧ base.superseded memoryObjectId = false ∧
      store.superseded memoryObjectId = true ∧ base.Replaced store memoryObjectId replacementId
  origins : ∀ memoryObjectId ∈ ids, ∀ toId,
    0 < supportCount store.relations memoryObjectId toId →
      0 < supportCount base.relations memoryObjectId toId ∨ ∃ supersededId,
        base.Replaces store supersededId memoryObjectId ∧ base.Merges supersededId ∧
          0 < supportCount base.relations supersededId toId

variable {ids : List String} {pairs : List (String × String)} {base store after : MemoryStore}
  {memoryObjectId : String} {pair : String × String} {supersededId replacementId : String}

theorem Merging.refl (ids : List String) (pairs : List (String × String)) (store : MemoryStore) :
    Merging ids pairs store store where
  sourceItems := rfl
  outline _ := rfl
  persistent _ := id
  lifecycles _ _ := rfl
  fresh _ _ := rfl
  gained _ _ _ := ⟨Nat.le_refl _, Nat.le_max_right _ _⟩
  kept _ _ _ _ := rfl
  successions _ _ := rfl
  replaced _ hlive hsuperseded := absurd hsuperseded (by rw [hlive]; exact Bool.false_ne_true)
  sourced := id
  count_le _ _ := Nat.le_refl _
  edges _ _ hedge := absurd hedge (Nat.lt_irrefl _)
  origins _ _ _ hsupports := Or.inl hsupports

theorem Merging.types (hmerging : Merging ids pairs base store) (memoryObjectId : String) :
    (store.memories.get memoryObjectId).map MemoryObjectRecord.type =
      (base.memories.get memoryObjectId).map MemoryObjectRecord.type := by
  have houtline := congrArg (Option.map MemoryObjectRecord.type) (hmerging.outline memoryObjectId)
  rw [Option.map_map, Option.map_map] at houtline
  exact houtline

theorem merges_iff {record : MemoryObjectRecord}
    (htype : some record.type = (base.memories.get memoryObjectId).map MemoryObjectRecord.type) :
    base.Merges memoryObjectId ↔ MergesEvidence record.type := by
  obtain ⟨found, hfound, hsame⟩ := Option.map_eq_some_iff.mp htype.symm
  constructor
  · rintro ⟨other, hother, hmerges⟩
    rw [hfound] at hother
    rw [← hsame, Option.some.inj hother]
    exact hmerges
  · intro hmerges
    exact ⟨found, hfound, hsame ▸ hmerges⟩

/-- What a pair that applies does: the superseded memory loses its place in the
index, and of the evidence only its own may move. -/
structure Superseding (before after : MemoryStore) (supersededId replacementId : String) :
    Prop where
  sourceItems : after.sourceItems = before.sourceItems
  outline : ∀ memoryObjectId,
    (after.memories.get memoryObjectId).map MemoryObjectRecord.outline =
      (before.memories.get memoryObjectId).map MemoryObjectRecord.outline
  superseded : ∀ memoryObjectId, after.superseded memoryObjectId =
    (decide (memoryObjectId = supersededId) || before.superseded memoryObjectId)
  lifecycles : ∀ memoryObjectId, memoryObjectId ≠ supersededId →
    (after.memories.get memoryObjectId).map MemoryObjectRecord.lifecycle =
      (before.memories.get memoryObjectId).map MemoryObjectRecord.lifecycle
  index : after.index = before.index.eraseTarget .memoryObject supersededId
  successions : ∀ memoryObjectId, successionCount after.relations memoryObjectId =
    successionCount before.relations memoryObjectId +
      if memoryObjectId = supersededId then 1 else 0
  edges : ∀ source target, after.relations.count (supersedesEdge source target) =
    before.relations.count (supersedesEdge source target) +
      if source = supersededId ∧ target = replacementId then 1 else 0
  sourced : Sourced before.relations → Sourced after.relations
  others : ∀ memoryObjectId, memoryObjectId ≠ supersededId → memoryObjectId ≠ replacementId →
    ∀ toId, supportCount after.relations memoryObjectId toId =
      supportCount before.relations memoryObjectId toId
  moved : before.Merges supersededId → ∀ toId,
    supportCount after.relations replacementId toId =
      supportCount before.relations replacementId toId +
        if supportCount before.relations replacementId toId = 0 ∧
          0 < supportCount before.relations supersededId toId then 1 else 0
  unmoved : ¬ before.Merges supersededId → ∀ memoryObjectId toId,
    supportCount after.relations memoryObjectId toId =
      supportCount before.relations memoryObjectId toId

theorem applySupersessionPair_eq_ok (hne : pair.1 ≠ pair.2)
    (happly : store.applySupersessionPair pair = .ok after) :
    (store.memories.get pair.1).map MemoryObjectRecord.type =
        (store.memories.get pair.2).map MemoryObjectRecord.type ∧
      (store.superseded pair.1 = true ∧ after = store ∨
        store.superseded pair.1 = false ∧ store.Superseding after pair.1 pair.2) := by
  simp only [applySupersessionPair, bind_eq_ok, orRaise_eq_ok, require_eq_ok] at happly
  obtain ⟨loser, hloser, winner, hwinner, -, htype, happly⟩ := happly
  have hloserId : loser.id = pair.1 := Table.key_of_get hloser
  have hwinnerId : winner.id = pair.2 := Table.key_of_get hwinner
  have hmerges : store.Merges pair.1 ↔ MergesEvidence winner.type := by
    rw [← htype]
    exact merges_iff (by rw [hloser, Option.map_some])
  have hids : loser.id ≠ winner.id := hloserId ▸ hwinnerId ▸ hne
  refine ⟨by rw [hloser, hwinner, Option.map_some, Option.map_some, htype], ?_⟩
  split at happly
  · next hsuperseded =>
      refine Or.inl ⟨?_, (Except.ok.inj happly).symm⟩
      rw [superseded, hloser, Option.any_some, hsuperseded]
      rfl
  · next hlive =>
      obtain rfl := (Except.ok.inj happly).symm
      refine Or.inr ⟨?_, ?_⟩
      · rw [superseded, hloser, Option.any_some]
        exact decide_eq_false hlive
      · refine ⟨sourceItems_mergeIntoWinner store loser winner, fun memoryObjectId => ?_,
          fun memoryObjectId => ?_, fun memoryObjectId hother => ?_, ?_,
          fun memoryObjectId => ?_, fun source target => ?_,
          fun hsourced relation hrelation hevidence => ?_,
          fun memoryObjectId hfirst hsecond toId => ?_, fun hmoves toId => ?_,
          fun hstays memoryObjectId toId => ?_⟩
        · rw [outline_supersedeByEdge, map_mergeIntoWinner _ _ _ _ fun _ _ => rfl]
        · rw [superseded_supersedeByEdge, superseded_mergeIntoWinner]
          rw [isSome_mergeIntoWinner, hloser]
          rfl
        · rw [get_supersedeByEdge, if_neg hother, map_mergeIntoWinner _ _ _ _ fun _ _ => rfl]
        · rw [supersedeByEdge, index_mergeIntoWinner]
        · rw [successionCount_supersedeByEdge, successionCount_mergeIntoWinner]
        · rw [count_supersedeByEdge, count_mergeIntoWinner]
        · rcases List.mem_append.mp hrelation with hmerged | hedge
          · obtain ⟨original, horiginal, rfl | rfl⟩ := mem_relations_mergeIntoWinner hmerged
            · exact hsourced relation horiginal hevidence
            · exact hsourced original horiginal hevidence
          · rw [List.mem_singleton.mp hedge] at hevidence
            cases hevidence
        · rw [supportCount_supersedeByEdge]
          exact supportCount_mergeIntoWinner_of_ne (hloserId ▸ hfirst) (hwinnerId ▸ hsecond) toId
        · rw [supportCount_supersedeByEdge, ← hwinnerId, ← hloserId]
          exact supportCount_mergeIntoWinner_winner (hmerges.mp hmoves) hids toId
        · rw [supportCount_supersedeByEdge, mergeIntoWinner_of_not (mt hmerges.mpr hstays)]

theorem Superseding.supportCount_le {supersededId replacementId memoryObjectId : String}
    (hstep : store.Superseding after supersededId replacementId)
    (hne : memoryObjectId ≠ supersededId) (toId : String) :
    supportCount store.relations memoryObjectId toId ≤
      supportCount after.relations memoryObjectId toId := by
  by_cases hmerges : store.Merges supersededId
  · by_cases hreplacement : memoryObjectId = replacementId
    · rw [hreplacement, hstep.moved hmerges]
      exact Nat.le_add_right _ _
    · rw [hstep.others memoryObjectId hne hreplacement]
  · rw [hstep.unmoved hmerges]

theorem Replaced.step (hreplaced : base.Replaced store supersededId replacementId)
    (hstep : store.Superseding after pair.1 pair.2) (hother : supersededId ≠ pair.1)
    (hreplacement : replacementId ≠ pair.1) :
    base.Replaced after supersededId replacementId where
  types := hreplaced.types
  edge := Nat.lt_of_lt_of_le hreplaced.edge (hstep.edges _ _ ▸ Nat.le_add_right _ _)
  once := by
    rw [hstep.successions, if_neg hother]
    exact hreplaced.once
  entries entry hentry := by
    rw [hstep.index] at hentry
    exact hreplaced.entries entry (MemoryIndex.mem_entries_eraseTarget.mp hentry).1
  lexicalRows row hrow := by
    rw [hstep.index] at hrow
    exact hreplaced.lexicalRows row (MemoryIndex.mem_lexicalRows_eraseTarget.mp hrow).1
  evidence hmerges toId hsupports := by
    have hbefore := hreplaced.evidence hmerges toId hsupports
    exact Nat.lt_of_lt_of_le hbefore (hstep.supportCount_le hreplacement toId)

/-- The memory that a pair supersedes gets all that goes with its replacement. -/
theorem Superseding.replaced (hstep : store.Superseding after supersededId replacementId)
    (htypes : (base.memories.get supersededId).map MemoryObjectRecord.type =
      (base.memories.get replacementId).map MemoryObjectRecord.type)
    (hmerges : base.Merges supersededId ↔ store.Merges supersededId)
    (hsuccessions : successionCount store.relations supersededId =
      successionCount base.relations supersededId)
    (hsupports : ∀ toId, supportCount store.relations supersededId toId =
      supportCount base.relations supersededId toId)
    (hedge : base.relations.count (supersedesEdge supersededId replacementId) ≤
      store.relations.count (supersedesEdge supersededId replacementId)) :
    base.Replaced after supersededId replacementId where
  types := htypes
  edge := by
    rw [Replaces, hstep.edges, if_pos ⟨rfl, rfl⟩]
    exact Nat.lt_succ_of_le hedge
  once := by
    rw [hstep.successions, if_pos rfl, hsuccessions]
  entries entry hentry := by
    rw [hstep.index] at hentry
    exact (MemoryIndex.mem_entries_eraseTarget.mp hentry).2
  lexicalRows row hrow := by
    rw [hstep.index] at hrow
    exact (MemoryIndex.mem_lexicalRows_eraseTarget.mp hrow).2
  evidence hmoves toId hpositive := by
    rw [hstep.moved (hmerges.mp hmoves), hsupports]
    split
    · exact Nat.succ_pos _
    · next hnot =>
        by_contra hzero
        exact hnot ⟨Nat.eq_zero_of_not_pos hzero, hpositive⟩

theorem Merging.merges_iff (hmerging : Merging ids pairs base store) (memoryObjectId : String) :
    store.Merges memoryObjectId ↔ base.Merges memoryObjectId := by
  have htypes := hmerging.types memoryObjectId
  constructor
  · rintro ⟨record, hrecord, hmerges⟩
    rw [hrecord, Option.map_some] at htypes
    exact (MemoryStore.merges_iff htypes).mpr hmerges
  · rintro ⟨record, hrecord, hmerges⟩
    rw [hrecord, Option.map_some] at htypes
    exact (MemoryStore.merges_iff htypes.symm).mpr hmerges

section Step

variable {supersededId replacementId : String}

theorem Superseding.superseded_of_ne (hstep : store.Superseding after supersededId replacementId)
    (hne : memoryObjectId ≠ supersededId) :
    after.superseded memoryObjectId = store.superseded memoryObjectId := by
  rw [hstep.superseded, decide_eq_false hne, Bool.false_or]

theorem Superseding.superseded_self (hstep : store.Superseding after supersededId replacementId) :
    after.superseded supersededId = true := by
  rw [hstep.superseded, decide_eq_true rfl, Bool.true_or]

variable (hmerging : Merging ids pairs base store)
include hmerging

theorem Merging.live
    (hlive : store.superseded memoryObjectId = false) : base.superseded memoryObjectId = false := by
  by_contra hsuperseded
  rw [Bool.not_eq_false] at hsuperseded
  rw [hmerging.persistent memoryObjectId hsuperseded] at hlive
  exact Bool.false_ne_true hlive.symm

theorem Merging.supportCount_eq
    (hnew : memoryObjectId ∉ ids) (hlive : store.superseded memoryObjectId = false)
    (toId : String) :
    supportCount store.relations memoryObjectId toId =
      supportCount base.relations memoryObjectId toId :=
  hmerging.kept memoryObjectId hnew (Or.inl (hlive.trans (hmerging.live hlive).symm)) toId

variable (hstep : store.Superseding after supersededId replacementId)
include hstep

/-- A replacement gains evidence, but none that it has already. -/
theorem Merging.gained_step
    (hne : memoryObjectId ≠ supersededId) (hids : memoryObjectId ∈ ids) (toId : String) :
    supportCount base.relations memoryObjectId toId ≤
        supportCount after.relations memoryObjectId toId ∧
      supportCount after.relations memoryObjectId toId ≤
        max 1 (supportCount base.relations memoryObjectId toId) := by
  obtain ⟨hlower, hupper⟩ := hmerging.gained memoryObjectId hids toId
  refine ⟨Nat.le_trans hlower (hstep.supportCount_le hne toId), ?_⟩
  by_cases hmoves : store.Merges supersededId
  · by_cases hwinner : memoryObjectId = replacementId
    · rw [hwinner] at hupper hlower ⊢
      rw [hstep.moved hmoves]
      split
      · next hmissing => omega
      · exact hupper
    · rw [hstep.others memoryObjectId hne hwinner]
      exact hupper
  · rw [hstep.unmoved hmoves]
    exact hupper

/-- The evidence of memories that are neither superseded nor in the result stays. -/
theorem Merging.kept_step
    (hlive : store.superseded supersededId = false) (hsecond : replacementId ∈ ids)
    (hids : memoryObjectId ∉ ids)
    (hcases : after.superseded memoryObjectId = base.superseded memoryObjectId ∨
      ¬ base.Merges memoryObjectId) (toId : String) :
    supportCount after.relations memoryObjectId toId =
      supportCount base.relations memoryObjectId toId := by
  have hwinner : memoryObjectId ≠ replacementId := fun hwinner => hids (hwinner ▸ hsecond)
  by_cases hloser : memoryObjectId = supersededId
  · rw [hloser] at hcases hids ⊢
    have hstays : ¬ base.Merges supersededId := by
      rcases hcases with hunchanged | hstays
      · rw [hstep.superseded_self, hmerging.live hlive] at hunchanged
        cases hunchanged
      · exact hstays
    rw [hstep.unmoved (mt (hmerging.merges_iff supersededId).mp hstays)]
    exact hmerging.supportCount_eq hids hlive toId
  · rw [hstep.others memoryObjectId hloser hwinner]
    rw [hstep.superseded_of_ne hloser] at hcases
    exact hmerging.kept memoryObjectId hids hcases toId

/-- The evidence of a replacement is its own or that of a memory it replaces. -/
theorem Merging.origins_step
    (hlive : store.superseded supersededId = false) (hfirst : supersededId ∉ ids)
    (hids : memoryObjectId ∈ ids) (toId : String)
    (hsupports : 0 < supportCount after.relations memoryObjectId toId) :
    0 < supportCount base.relations memoryObjectId toId ∨ ∃ otherId,
      base.Replaces after otherId memoryObjectId ∧ base.Merges otherId ∧
        0 < supportCount base.relations otherId toId := by
  by_cases hbefore : 0 < supportCount store.relations memoryObjectId toId
  · rcases hmerging.origins memoryObjectId hids toId hbefore with hown | ⟨otherId, hedge, hother⟩
    · exact Or.inl hown
    · refine Or.inr ⟨otherId, Nat.lt_of_lt_of_le hedge ?_, hother⟩
      rw [hstep.edges]
      exact Nat.le_add_right _ _
  · have hmoves : store.Merges supersededId := by
      by_contra hstays
      rw [hstep.unmoved hstays] at hsupports
      exact hbefore hsupports
    have hwinner : memoryObjectId = replacementId := by
      by_contra hother
      rw [hstep.others memoryObjectId (fun hloser => hfirst (hloser ▸ hids)) hother] at hsupports
      exact hbefore hsupports
    rw [hwinner] at hsupports hbefore ⊢
    rw [hstep.moved hmoves] at hsupports
    refine Or.inr ⟨supersededId, ?_, (hmerging.merges_iff supersededId).mp hmoves, ?_⟩
    · rw [Replaces, hstep.edges, if_pos ⟨rfl, rfl⟩]
      exact Nat.lt_succ_of_le (hmerging.count_le _ _)
    · rw [← hmerging.supportCount_eq hfirst hlive]
      split at hsupports
      · next hmissing => exact hmissing.2
      · exact absurd hsupports hbefore

end Step

theorem Merging.step (hpairs : ∀ pair ∈ pairs, pair.1 ∉ ids ∧ pair.2 ∈ ids)
    (hmerging : Merging ids pairs base store) (hmem : pair ∈ pairs)
    (happly : store.applySupersessionPair pair = .ok after) : Merging ids pairs base after := by
  obtain ⟨hfirst, hsecond⟩ := hpairs pair hmem
  have hne : pair.1 ≠ pair.2 := fun hsame => hfirst (hsame ▸ hsecond)
  have hids : ∀ memoryObjectId ∈ ids, memoryObjectId ≠ pair.1 :=
    fun memoryObjectId hmemory hloser => hfirst (hloser ▸ hmemory)
  obtain ⟨htypes, ⟨-, rfl⟩ | ⟨hlive, hstep⟩⟩ := applySupersessionPair_eq_ok hne happly
  · exact hmerging
  rw [hmerging.types, hmerging.types] at htypes
  have hreplaced : base.Replaced after pair.1 pair.2 :=
    hstep.replaced htypes (hmerging.merges_iff pair.1).symm
      (hmerging.successions pair.1 (hlive.trans (hmerging.live hlive).symm))
      (hmerging.supportCount_eq hfirst hlive) (hmerging.count_le _ _)
  refine
    { sourceItems := hstep.sourceItems.trans hmerging.sourceItems
      outline := fun memoryObjectId =>
        (hstep.outline memoryObjectId).trans (hmerging.outline memoryObjectId)
      persistent := fun memoryObjectId hpersistent => ?_
      lifecycles := fun memoryObjectId hmemory =>
        (hstep.lifecycles memoryObjectId (hids memoryObjectId hmemory)).trans
          (hmerging.lifecycles memoryObjectId hmemory)
      fresh := fun memoryObjectId hmemory =>
        (hstep.superseded_of_ne (hids memoryObjectId hmemory)).trans
          (hmerging.fresh memoryObjectId hmemory)
      gained := fun memoryObjectId hmemory =>
        hmerging.gained_step hstep (hids memoryObjectId hmemory) hmemory
      kept := fun memoryObjectId hmemory => hmerging.kept_step hstep hlive hsecond hmemory
      successions := fun memoryObjectId hunchanged => ?_
      replaced := fun memoryObjectId hunsuperseded hnow => ?_
      sourced := fun hsourced => hstep.sourced (hmerging.sourced hsourced)
      count_le := fun source target => ?_
      edges := fun memoryObjectId replacementId hedge => ?_
      origins := fun memoryObjectId hmemory => hmerging.origins_step hstep hlive hfirst hmemory }
  · rw [hstep.superseded, hmerging.persistent memoryObjectId hpersistent, Bool.or_true]
  · have hloser : memoryObjectId ≠ pair.1 := by
      rintro rfl
      rw [hstep.superseded_self, hmerging.live hlive] at hunchanged
      cases hunchanged
    rw [hstep.successions, if_neg hloser]
    exact hmerging.successions memoryObjectId
      ((hstep.superseded_of_ne hloser).symm.trans hunchanged)
  · by_cases hloser : memoryObjectId = pair.1
    · rw [hloser]
      exact ⟨pair.2, hmem, hreplaced⟩
    · rw [hstep.superseded_of_ne hloser] at hnow
      obtain ⟨replacementId, hpair, hbefore⟩ :=
        hmerging.replaced memoryObjectId hunsuperseded hnow
      exact ⟨replacementId, hpair,
        hbefore.step hstep hloser (hids replacementId (hpairs _ hpair).2)⟩
  · rw [hstep.edges]
    exact Nat.le_add_right_of_le (hmerging.count_le source target)
  · by_cases hpair : memoryObjectId = pair.1 ∧ replacementId = pair.2
    · rw [hpair.1, hpair.2]
      exact ⟨hmem, hmerging.live hlive, hstep.superseded_self, hreplaced⟩
    · rw [Replaces, hstep.edges, if_neg hpair, Nat.add_zero] at hedge
      obtain ⟨hknown, hbase, hnow, hbefore⟩ := hmerging.edges memoryObjectId replacementId hedge
      have hloser : memoryObjectId ≠ pair.1 := by
        rintro rfl
        rw [hlive] at hnow
        cases hnow
      exact ⟨hknown, hbase, (hstep.superseded_of_ne hloser).trans hnow,
        hbefore.step hstep hloser (hids replacementId (hpairs _ hknown).2)⟩

theorem Merging.run (hpairs : ∀ pair ∈ pairs, pair.1 ∉ ids ∧ pair.2 ∈ ids)
    (hmerging : Merging ids pairs base store) {rest : List (String × String)}
    (hrest : ∀ pair ∈ rest, pair ∈ pairs)
    (happly : store.applySupersessionPairs rest = .ok after) : Merging ids pairs base after := by
  induction rest generalizing store with
  | nil =>
    cases happly
    exact hmerging
  | cons pair rest ih =>
    simp only [applySupersessionPairs, bind_eq_ok] at happly
    obtain ⟨middle, hfirst, happly⟩ := happly
    exact ih (hmerging.step hpairs (hrest pair List.mem_cons_self) hfirst)
      (List.forall_mem_cons.mp hrest).2 happly

end Pairs

section Result

variable {store persisted after : MemoryStore} {result : ProcessResult}
  {pairs : List (String × String)}

/-- What the store has got once the result is stored. -/
structure Persisted (result : ProcessResult) (store persisted : MemoryStore) : Prop where
  sourceItems : persisted.sourceItems = store.sourceItems
  relations : persisted.relations = store.relations ++ result.relations
  distinct : result.replacementIds.Nodup
  brought : ∀ memory ∈ result.memoryObjects, store.memories.get memory.id = none ∧
    (persisted.memories.get memory.id).map MemoryObjectRecord.outline =
      some memory.inferredRecord.outline ∧
    (memory.lifecycle = .active →
      (persisted.memories.get memory.id).map MemoryObjectRecord.lifecycle = some .active)
  stored : ∀ memoryObjectId, memoryObjectId ∉ result.replacementIds →
    (persisted.memories.get memoryObjectId).map MemoryObjectRecord.outline =
      (store.memories.get memoryObjectId).map MemoryObjectRecord.outline
  superseded : ∀ memoryObjectId,
    persisted.superseded memoryObjectId = store.superseded memoryObjectId

theorem outline_promoted {before after : MemoryStore} (hpromoted : before.Promoted after)
    (memoryObjectId : String) :
    (after.memories.get memoryObjectId).map MemoryObjectRecord.outline =
      (before.memories.get memoryObjectId).map MemoryObjectRecord.outline := by
  rcases hpromoted.memories memoryObjectId with hsame | ⟨record, hrecord, -, -, hactive⟩
  · rw [hsame]
  · rw [hrecord, hactive]
    rfl

theorem superseded_promoted {before after : MemoryStore} (hpromoted : before.Promoted after)
    (memoryObjectId : String) : after.superseded memoryObjectId = before.superseded memoryObjectId := by
  rcases hpromoted.memories memoryObjectId with hsame | ⟨record, hrecord, -, hcandidate, hactive⟩
  · rw [superseded, hsame, superseded]
  · rw [superseded, hactive, superseded, hrecord, Option.any_some, Option.any_some, hcandidate]
    rfl

theorem persistProcessResult_persisted
    (hpersist : store.persistProcessResult result = .ok persisted) :
    Persisted result store persisted := by
  simp only [persistProcessResult, bind_eq_ok, orRaise_eq_ok, pure_eq_ok] at hpersist
  obtain ⟨memories, hadd, index, -, rfl⟩ := hpersist
  obtain ⟨hbrought, hstored, hdistinct⟩ := get_addMemories hadd
  have hpromoted := evaluatePromotionHints_promoted result.promotionHints
    { store with
      memories := memories
      relations := store.relations ++ result.relations
      index := index } []
  refine ⟨hpromoted.sourceItems, hpromoted.relations, hdistinct, fun memory hmemory => ?_,
    fun memoryObjectId hmem => ?_, fun memoryObjectId => ?_⟩
  · obtain ⟨hfree, hadded⟩ := hbrought memory hmemory
    refine ⟨hfree, ?_, fun hactive => ?_⟩
    · rw [outline_promoted hpromoted]
      exact congrArg (Option.map MemoryObjectRecord.outline) hadded
    · rcases hpromoted.memories memory.id with hsame | ⟨record, -, -, -, hnow⟩
      · rw [hsame]
        calc (memories.get memory.id).map MemoryObjectRecord.lifecycle
            = some memory.lifecycle := congrArg (Option.map MemoryObjectRecord.lifecycle) hadded
          _ = some .active := congrArg some hactive
      · rw [hnow]
        rfl
  · rw [outline_promoted hpromoted]
    exact congrArg (Option.map MemoryObjectRecord.outline) (hstored memoryObjectId hmem)
  · rw [superseded_promoted hpromoted]
    by_cases hmem : memoryObjectId ∈ result.replacementIds
    · obtain ⟨memory, hmemory, rfl⟩ := List.mem_map.mp hmem
      obtain ⟨hfree, hadded⟩ := hbrought memory hmemory
      change (memories.get memory.id).any _ = (store.memories.get memory.id).any _
      rw [hadded, hfree, Option.any_some, Option.any_none]
      exact decide_eq_false memory.live
    · change (memories.get memoryObjectId).any _ = (store.memories.get memoryObjectId).any _
      rw [hstored memoryObjectId hmem]

theorem commitProcessResult_eq_ok
    (hcommit : store.commitProcessResult result [] = (after, .ok pairs)) :
    ∃ persisted, store.persistProcessResult result = .ok persisted ∧
      pairs = persisted.resolveSupersessionPairs result ∧
        Merging result.replacementIds pairs persisted after := by
  rcases commitProcessResult_steps result [] store with
    ⟨error, herror⟩ | ⟨persisted, final, hpersist, happly, hok⟩
  · cases hcommit.symm.trans herror
  · rw [List.append_nil] at happly hok
    cases hcommit.symm.trans hok
    exact ⟨persisted, hpersist, rfl, (Merging.refl _ _ persisted).run
      (fun pair hpair => ⟨fst_not_mem_replacementIds hpair, (mem_resolveSupersessionPairs hpair).1⟩)
      (fun pair hpair => hpair) happly⟩

/-- A memory of the store that the commit of the result supersedes. -/
structure SupersededBy (result : ProcessResult) (store after : MemoryStore)
    (loser : MemoryObjectRecord) (hint : SupersessionHint) (winner : MemoryObject) : Prop where
  hinted : hint ∈ result.supersessionHints
  brought : winner ∈ result.memoryObjects
  replacement : hint.replacementMemoryId = winner.id
  type : loser.type = winner.type
  visibility : loser.decodedVisibility = hint.visibility
  located : hint.containerRef.getD "" ≠ ""
  containerRef : hint.threadRef = none → loser.containerRef = hint.containerRef
  edge : store.Replaces after loser.id winner.id
  once : successionCount after.relations loser.id = successionCount store.relations loser.id + 1
  entries : ∀ entry ∈ after.index.entries.rows,
    ¬(entry.targetKind = .memoryObject ∧ entry.targetId = loser.id)
  lexicalRows : ∀ row ∈ after.index.lexicalRows,
    ¬(row.targetKind = .memoryObject ∧ row.targetId = loser.id)
  evidence : MergesEvidence loser.type → ∀ toId,
    0 < supportCount (store.relations ++ result.relations) loser.id toId →
      supportCount after.relations winner.id toId =
        max 1 (supportCount (store.relations ++ result.relations) winner.id toId)

theorem successionCount_append (result : ProcessResult) (relations : List RelationRecord)
    (memoryObjectId : String) :
    successionCount (relations ++ result.relations) memoryObjectId =
      successionCount relations memoryObjectId := by
  rw [successionCount, List.countP_append, successionCount, Nat.add_eq_left, List.countP_eq_zero]
  intro relation hrelation hcounted
  simp only [Bool.and_eq_true, beq_iff_eq] at hcounted
  exact result.plain relation hrelation hcounted.1.1

theorem replaces_persisted_iff (hpersisted : Persisted result store persisted)
    (supersededId replacementId : String) :
    persisted.Replaces after supersededId replacementId ↔
      store.Replaces after supersededId replacementId := by
  have hplain : result.relations.count (supersedesEdge supersededId replacementId) = 0 := by
    rw [List.count_eq_zero]
    exact fun hmem => result.plain _ hmem rfl
  rw [Replaces, Replaces, hpersisted.relations, List.count_append, hplain, Nat.add_zero]

/-- A pair that has applied supersedes a memory of the store as one of the hints says. -/
theorem supersededBy_of_replaced (hpersisted : Persisted result store persisted)
    (hmerging : Merging result.replacementIds pairs persisted after) {loser : MemoryObjectRecord}
    (hloser : loser ∈ store.memories.rows) {replacementId : String}
    (hpair : (loser.id, replacementId) ∈ persisted.resolveSupersessionPairs result)
    (hreplaced : persisted.Replaced after loser.id replacementId) :
    ∃ hint winner, winner.id = replacementId ∧ SupersededBy result store after loser hint winner := by
  have hget : store.memories.get loser.id = some loser := Table.get_of_mem hloser
  obtain ⟨hids, hint, hhint, hreplacement, record, hselected, hid⟩ :=
    mem_resolveSupersessionPairs hpair
  obtain ⟨hrow, hnew, -, -, hvisibility, hcontainer⟩ := selects_scope hselected
  obtain ⟨winner, hwinner, rfl⟩ := List.mem_map.mp hids
  have hsame : loser.id = record.id := hid
  have hrecord : persisted.memories.get loser.id = some record := by
    rw [hsame]
    exact Table.get_of_mem hrow
  have houtline : record.outline = loser.outline := by
    have hstored := hpersisted.stored loser.id (hsame ▸ hnew)
    rw [hrecord, hget] at hstored
    exact Option.some.inj hstored
  have htype : some loser.type = some winner.type := by
    have htypes := hreplaced.types
    have hbrought := congrArg (Option.map MemoryObjectRecord.type)
      (hpersisted.brought winner hwinner).2.1
    rw [Option.map_map] at hbrought
    rw [hrecord, Option.map_some] at htypes
    calc some loser.type = some record.type :=
          congrArg (fun outline => some outline.type) houtline.symm
      _ = some winner.type := htypes.trans hbrought
  have hmerges : persisted.Merges loser.id ↔ MergesEvidence loser.type := by
    apply merges_iff
    rw [hrecord, Option.map_some]
    exact congrArg (fun outline => some outline.type) houtline.symm
  refine ⟨hint, winner, rfl,
    { hinted := hhint
      brought := hwinner
      replacement := hreplacement.symm
      type := Option.some.inj htype
      visibility := ?_
      located := selects_located hselected
      containerRef := fun hthread => ?_
      edge := (replaces_persisted_iff hpersisted _ _).mp hreplaced.edge
      once := ?_
      entries := hreplaced.entries
      lexicalRows := hreplaced.lexicalRows
      evidence := fun hmoves toId hsupports => ?_ }⟩
  · rw [← hvisibility]
    exact (congrArg MemoryObjectRecord.decodedVisibility houtline).symm
  · rw [← (hcontainer hthread).2]
    exact (congrArg MemoryObjectRecord.containerRef houtline).symm
  · rw [hreplaced.once, hpersisted.relations, successionCount_append]
  · rw [← hpersisted.relations] at hsupports ⊢
    have hpositive := hreplaced.evidence (hmerges.mpr hmoves) toId hsupports
    obtain ⟨hlower, hupper⟩ := hmerging.gained winner.id hids toId
    omega

/-- A commit supersedes none of the memories of its result, and a memory of the store
only by a memory of the result and as a hint says; but for the evidence that moves,
no memory loses any. -/
theorem commitProcessResult_supersedes {pairs : List (String × String)}
    (hcommit : store.commitProcessResult result [] = (after, .ok pairs)) :
    (∀ memory ∈ result.memoryObjects, after.superseded memory.id = false) ∧
      (∀ loser ∈ store.memories.rows, loser.lifecycle ≠ .superseded →
        after.superseded loser.id = true →
          ∃ hint winner, SupersededBy result store after loser hint winner) ∧
      ∀ memoryObjectId,
        (∀ toId, supportCount (store.relations ++ result.relations) memoryObjectId toId ≤
          supportCount after.relations memoryObjectId toId) ∨
        ∃ loser ∈ store.memories.rows, loser.id = memoryObjectId ∧ MergesEvidence loser.type ∧
          loser.lifecycle ≠ .superseded ∧ after.superseded memoryObjectId = true := by
  obtain ⟨persisted, hpersist, rfl, hmerging⟩ := commitProcessResult_eq_ok hcommit
  have hpersisted := persistProcessResult_persisted hpersist
  refine ⟨fun memory hmemory => ?_, fun loser hloser hlive hsuperseded => ?_,
    fun memoryObjectId => ?_⟩
  · rw [hmerging.fresh memory.id (List.mem_map_of_mem hmemory), hpersisted.superseded, superseded,
      (hpersisted.brought memory hmemory).1]
    rfl
  · have hget : store.memories.get loser.id = some loser := Table.get_of_mem hloser
    have hbase : persisted.superseded loser.id = false := by
      rw [hpersisted.superseded, superseded, hget, Option.any_some]
      exact decide_eq_false hlive
    obtain ⟨replacementId, hpair, hreplaced⟩ := hmerging.replaced loser.id hbase hsuperseded
    obtain ⟨hint, winner, -, hby⟩ :=
      supersededBy_of_replaced hpersisted hmerging hloser hpair hreplaced
    exact ⟨hint, winner, hby⟩
  · by_cases hids : memoryObjectId ∈ result.replacementIds
    · refine Or.inl fun toId => ?_
      rw [← hpersisted.relations]
      exact (hmerging.gained memoryObjectId hids toId).1
    · by_cases hcases : after.superseded memoryObjectId = persisted.superseded memoryObjectId ∨
          ¬ persisted.Merges memoryObjectId
      · refine Or.inl fun toId => ?_
        rw [← hpersisted.relations, hmerging.kept memoryObjectId hids hcases toId]
      · rw [not_or, not_not] at hcases
        obtain ⟨hchanged, record, hrecord, hmerges⟩ := hcases
        have hstored := hpersisted.stored memoryObjectId hids
        rw [hrecord, Option.map_some, eq_comm, Option.map_eq_some_iff] at hstored
        obtain ⟨loser, hget, houtline⟩ := hstored
        have hbefore : persisted.superseded memoryObjectId = false := by
          by_contra hsuperseded
          rw [Bool.not_eq_false] at hsuperseded
          exact hchanged ((hmerging.persistent memoryObjectId hsuperseded).trans hsuperseded.symm)
        refine Or.inr ⟨loser, Table.mem_of_get hget, Table.key_of_get hget, ?_, ?_, ?_⟩
        · have htype := congrArg MemoryObjectRecord.type houtline
          change loser.type = record.type at htype
          exact htype ▸ hmerges
        · rw [hpersisted.superseded, superseded, hget, Option.any_some] at hbefore
          exact of_decide_eq_false hbefore
        · rw [hbefore] at hchanged
          exact Bool.eq_true_of_not_eq_false hchanged

section Crossing

/-- A decision about one matter. -/
def keyedDecision (id : String) (visibility : Access.Visibility) (hnamed : id ≠ "") :
    MemoryObject where
  id := id
  type := "decision"
  payload := { Payload.empty with canonicalKey := some "storage engine" }
  envelopeContainerRef := none
  lifecycle := .active
  visibility := visibility
  containerRef := some "project"
  actorRef := none
  origin := none
  named := hnamed
  live := Lifecycle.active_ne_superseded

/-- A store with a private decision that one turn supports. -/
def decisionStore : MemoryStore :=
  { (MemoryStore.empty.createMemoryObject (keyedDecision "old" .priv (by decide))).1 with
    relations := [⟨.memoryObject, "old", .supportedBy, .sourceItem, "turn"⟩] }

/-- A new decision that everyone may see, whose hint says it is private and whose
evidence is listed twice. -/
def crossingResult : ProcessResult where
  memoryObjects := [keyedDecision "new" .pub (by decide)]
  relations := [⟨.memoryObject, "new", .supportedBy, .sourceItem, "turn"⟩,
    ⟨.memoryObject, "new", .supportedBy, .sourceItem, "turn"⟩]
  indexEntries := []
  supersessionHints := [⟨"new", "decision", "storage engine", some "project", none, .priv⟩]
  promotionHints := []
  plain := by decide

theorem commitProcessResult_supersedes_crossing :
    (decisionStore.commitProcessResult crossingResult []).1.superseded "new" = false :=
  (commitProcessResult_supersedes
    (show decisionStore.commitProcessResult crossingResult [] =
      ((decisionStore.commitProcessResult crossingResult []).1, .ok [("old", "new")]) from
      Prod.ext rfl (by decide +kernel))).1 (keyedDecision "new" .pub (by decide))
    List.mem_cons_self

/-- A hint that differs from its replacement supersedes a private memory by a public
one, and evidence of both that the result lists twice stays so. -/
theorem commitProcessResult_crosses :
    ∃ loser ∈ decisionStore.memories.rows, ∃ winner ∈ crossingResult.memoryObjects,
      loser.lifecycle = .active ∧
        (decisionStore.commitProcessResult crossingResult []).1.superseded loser.id = true ∧
        supersedesEdge loser.id winner.id ∈
          (decisionStore.commitProcessResult crossingResult []).1.relations ∧
        loser.visibility ≠ some winner.visibility ∧
        supportCount decisionStore.relations loser.id "turn" = 1 ∧
        supportCount (decisionStore.commitProcessResult crossingResult []).1.relations
          winner.id "turn" = 2 := by
  refine ⟨(keyedDecision "old" .priv (by decide)).record, List.mem_singleton_self _,
    keyedDecision "new" .pub (by decide), List.mem_singleton_self _, rfl, ?_⟩
  decide +kernel

end Crossing

end Result

end MemoryStore

end Pallium.Memory
