import Pallium.Memory.FactSlots

/-!
# The facts of a thread over all rebuilds

Nothing but a rebuild brings facts, and everything else a store does to a fact keeps
its slot and its thread.  So the invariant, one live fact for each thread and slot,
is carried by what a rebuild adds: a slot that it brings is claimed neither by a
candidate of the thread, which reconciliation looks at, nor by an active fact of the
thread, which it does not.
-/

namespace Pallium.Memory

open Pallium.Run Pallium.Transaction

/-- A fact that is neither deleted nor superseded. -/
structure MemoryObjectRecord.LiveFact (record : MemoryObjectRecord) : Prop where
  type : record.type = operationalFactType
  kept : record.isSoftDeleted = false
  current : record.lifecycle ≠ .superseded

instance : DecidablePred MemoryObjectRecord.LiveFact := fun record =>
  decidable_of_iff (record.type = operationalFactType ∧ record.isSoftDeleted = false ∧
      record.lifecycle ≠ .superseded)
    ⟨fun hlive => ⟨hlive.1, hlive.2.1, hlive.2.2⟩,
      fun hlive => ⟨hlive.type, hlive.kept, hlive.current⟩⟩

namespace MemoryStore

instance (store : MemoryStore) (record : MemoryObjectRecord) (threadRef : String) :
    Decidable (store.ComesFrom record threadRef) :=
  decidable_of_iff (∃ sourceItemId ∈ record.payload.evidenceSourceItemIds,
      (store.sourceItems.get sourceItemId).any fun item => item.threadRef = some threadRef)
    (by simp only [ComesFrom, Option.any_eq_true, decide_eq_true_eq])

/-- A thread has one live fact for a slot in a container and a visibility. -/
def OnePerSlot (store : MemoryStore) : Prop :=
  ∀ first ∈ store.memories.rows, ∀ second ∈ store.memories.rows,
    first.LiveFact → second.LiveFact → first.containerRef = second.containerRef →
      first.visibility = second.visibility → first.payload.slot = second.payload.slot →
        ∀ threadRef, store.ComesFrom first threadRef → store.ComesFrom second threadRef →
          first = second

/-- The facts are candidates, active or superseded, and each has its evidence in one thread. -/
def Traced (store : MemoryStore) : Prop :=
  ∀ record ∈ store.memories.rows, record.type = operationalFactType →
    record.lifecycle ≠ .suppressed ∧ ∃ threadRef, store.From record.payload threadRef

/-- A record that may be what another has become. -/
structure Becomes (record next : MemoryObjectRecord) : Prop where
  type : next.type = record.type
  containerRef : next.containerRef = record.containerRef
  visibility : next.visibility = record.visibility
  slot : next.payload.slot = record.payload.slot
  evidence : next.payload.evidenceSourceItemIds = record.payload.evidenceSourceItemIds
  deleted : record.isSoftDeleted = true → next.isSoftDeleted = true
  lifecycle : next.lifecycle = record.lifecycle ∨ next.lifecycle = .superseded ∨
    record.lifecycle = .candidate ∧ next.lifecycle = .active

theorem Becomes.refl (record : MemoryObjectRecord) : Becomes record record :=
  ⟨rfl, rfl, rfl, rfl, rfl, id, Or.inl rfl⟩

/-- Nothing is added but source items, and each memory keeps its slot and its evidence. -/
structure KeepsFacts (before after : MemoryStore) : Prop where
  sourceItems : ∀ sourceItemId item, before.sourceItems.get sourceItemId = some item →
    after.sourceItems.get sourceItemId = some item
  memories : ∀ memoryObjectId next, after.memories.get memoryObjectId = some next →
    ∃ record, before.memories.get memoryObjectId = some record ∧ Becomes record next

section Keeping

variable {store before middle after : MemoryStore} {record next : MemoryObjectRecord}
  {threadRef : String}

theorem Becomes.trans {last : MemoryObjectRecord} (hfirst : Becomes record next)
    (hsecond : Becomes next last) : Becomes record last where
  type := hsecond.type.trans hfirst.type
  containerRef := hsecond.containerRef.trans hfirst.containerRef
  visibility := hsecond.visibility.trans hfirst.visibility
  slot := hsecond.slot.trans hfirst.slot
  evidence := hsecond.evidence.trans hfirst.evidence
  deleted := fun hdeleted => hsecond.deleted (hfirst.deleted hdeleted)
  lifecycle := by
    rcases hsecond.lifecycle with hsame | hended | ⟨hcandidate, hactive⟩
    · rw [hsame]
      exact hfirst.lifecycle
    · exact Or.inr (Or.inl hended)
    · rcases hfirst.lifecycle with hsame | hended | ⟨-, hearlier⟩
      · exact Or.inr (Or.inr ⟨hsame ▸ hcandidate, hactive⟩)
      · rw [hended] at hcandidate
        cases hcandidate
      · rw [hearlier] at hcandidate
        cases hcandidate

theorem KeepsFacts.refl (store : MemoryStore) : store.KeepsFacts store :=
  ⟨fun _ _ hget => hget, fun _ next hnext => ⟨next, hnext, Becomes.refl next⟩⟩

theorem KeepsFacts.trans (hfirst : before.KeepsFacts middle) (hsecond : middle.KeepsFacts after) :
    before.KeepsFacts after where
  sourceItems sourceItemId item hget :=
    hsecond.sourceItems sourceItemId item (hfirst.sourceItems sourceItemId item hget)
  memories memoryObjectId last hlast := by
    obtain ⟨next, hnext, hlater⟩ := hsecond.memories memoryObjectId last hlast
    obtain ⟨record, hrecord, hearlier⟩ := hfirst.memories memoryObjectId next hnext
    exact ⟨record, hrecord, hearlier.trans hlater⟩

theorem KeepsFacts.modify {memoryObjectId : String}
    {change : MemoryObjectRecord → MemoryObjectRecord}
    (hmemories : after.memories = before.memories.modify memoryObjectId change)
    (hsourceItems : after.sourceItems = before.sourceItems)
    (hkey : ∀ record, (change record).id = record.id)
    (hbecomes : ∀ record, Becomes record (change record)) : before.KeepsFacts after where
  sourceItems sourceItemId item hget := hsourceItems ▸ hget
  memories other next hnext := by
    rw [hmemories, Table.get_modify _ _ hkey] at hnext
    split at hnext
    · obtain ⟨record, hrecord, rfl⟩ := Option.map_eq_some_iff.mp hnext
      exact ⟨record, hrecord, hbecomes record⟩
    · exact ⟨next, hnext, Becomes.refl next⟩

theorem From.keep (hkeeps : before.KeepsFacts after) {payload other : Payload}
    (hevidence : other.evidenceSourceItemIds = payload.evidenceSourceItemIds)
    (hfrom : before.From payload threadRef) : after.From other threadRef := by
  obtain ⟨sourceItemId, item, hsingle, hget, hthread, hnonempty⟩ := hfrom
  exact ⟨sourceItemId, item, hevidence.trans hsingle,
    hkeeps.sourceItems sourceItemId item hget, hthread, hnonempty⟩

section

variable (hkeeps : before.KeepsFacts after) (htraced : before.Traced)
include hkeeps htraced

theorem Traced.keep :
    after.Traced := by
  intro next hnext htype
  obtain ⟨record, hrecord, hbecomes⟩ := hkeeps.memories next.id next (Table.get_of_mem hnext)
  obtain ⟨hlifecycle, threadRef, hfrom⟩ :=
    htraced record (Table.mem_of_get hrecord) (hbecomes.type ▸ htype)
  refine ⟨?_, threadRef, hfrom.keep hkeeps hbecomes.evidence⟩
  rcases hbecomes.lifecycle with hsame | hended | ⟨-, hactive⟩
  · rw [hsame]
    exact hlifecycle
  · rw [hended]
    exact nofun
  · rw [hactive]
    exact nofun

theorem KeepsFacts.live (hnext : next ∈ after.memories.rows) (hlive : next.LiveFact) :
    ∃ record ∈ before.memories.rows, record.id = next.id ∧ record.LiveFact ∧
      Becomes record next ∧
        ∀ threadRef, after.ComesFrom next threadRef → before.ComesFrom record threadRef := by
  obtain ⟨record, hrecord, hbecomes⟩ := hkeeps.memories next.id next (Table.get_of_mem hnext)
  have hrow : record ∈ before.memories.rows := Table.mem_of_get hrecord
  have htype : record.type = operationalFactType := hbecomes.type ▸ hlive.type
  obtain ⟨-, ownThread, hfrom⟩ := htraced record hrow htype
  refine ⟨record, hrow, Table.key_of_get hrecord, ⟨htype, ?_, ?_⟩, hbecomes, ?_⟩
  · by_contra hdeleted
    have hnextDeleted := hbecomes.deleted (Bool.eq_true_of_not_eq_false hdeleted)
    rw [hlive.kept] at hnextDeleted
    cases hnextDeleted
  · intro hsuperseded
    rcases hbecomes.lifecycle with hsame | hended | ⟨hcandidate, -⟩
    · exact hlive.current (hsame.trans hsuperseded)
    · exact hlive.current hended
    · rw [hcandidate] at hsuperseded
      cases hsuperseded
  · intro threadRef hcomes
    have hown : threadRef = ownThread := (hfrom.keep hkeeps hbecomes.evidence).eq_of_comesFrom hcomes
    exact hown ▸ hfrom.comesFrom

theorem OnePerSlot.keep (hone : before.OnePerSlot) : after.OnePerSlot := by
  intro first hfirst second hsecond hfirstLive hsecondLive hcontainer hvisibility hslot threadRef
    hfirstFrom hsecondFrom
  obtain ⟨record, hrecord, hid, hlive, hbecomes, hthread⟩ := hkeeps.live htraced hfirst hfirstLive
  obtain ⟨other, hother, hotherId, hotherLive, hotherBecomes, hotherThread⟩ :=
    hkeeps.live htraced hsecond hsecondLive
  have hsame : record = other := by
    apply hone record hrecord other hother hlive hotherLive
    · rw [← hbecomes.containerRef, ← hotherBecomes.containerRef, hcontainer]
    · rw [← hbecomes.visibility, ← hotherBecomes.visibility, hvisibility]
    · rw [← hbecomes.slot, ← hotherBecomes.slot, hslot]
    · exact hthread threadRef hfirstFrom
    · exact hotherThread threadRef hsecondFrom
  have hids : first.id = second.id := by
    rw [← hid, ← hotherId, hsame]
  have hget : after.memories.get first.id = some first := Table.get_of_mem hfirst
  rw [hids] at hget
  exact Option.eq_some_unique hget (Table.get_of_mem hsecond)

end

theorem keepsFacts_promoteSlots (hints : List PromotionHint) (store : MemoryStore) :
    store.KeepsFacts (hints.foldl promoteSlot store) where
  sourceItems sourceItemId item hget := by
    have hsame : (hints.foldl promoteSlot store).sourceItems = store.sourceItems := by
      induction hints generalizing store with
      | nil => rfl
      | cons hint rest ih =>
        rw [List.foldl_cons, ih, (promoteSlot_promoted store hint).sourceItems]
        rw [(promoteSlot_promoted store hint).sourceItems]
        exact hget
    exact hsame ▸ hget
  memories memoryObjectId next hnext := by
    rw [get_promoteSlots] at hnext
    obtain ⟨record, hrecord, rfl⟩ := Option.map_eq_some_iff.mp hnext
    refine ⟨record, hrecord, ?_⟩
    split
    · next hpromoted =>
        exact ⟨rfl, rfl, rfl, rfl, rfl, id, Or.inr (Or.inr ⟨promotedBy_candidate hpromoted, rfl⟩)⟩
    · exact Becomes.refl record

theorem keepsFacts_mergeIntoWinner (store : MemoryStore) (loser winner : MemoryObjectRecord) :
    store.KeepsFacts (store.mergeIntoWinner loser winner) := by
  obtain ⟨change, hpayload, hget⟩ := get_mergeIntoWinner store loser winner
  refine ⟨fun sourceItemId item hitem => ?_, fun memoryObjectId next hnext => ?_⟩
  · rw [sourceItems_mergeIntoWinner]
    exact hitem
  · rw [hget] at hnext
    split at hnext
    · obtain ⟨record, hrecord, rfl⟩ := Option.map_eq_some_iff.mp hnext
      obtain ⟨hslot, hevidence⟩ := hpayload record.payload
      exact ⟨record, hrecord, rfl, rfl, rfl, hslot, hevidence, id, Or.inl rfl⟩
    · exact ⟨next, hnext, Becomes.refl next⟩

theorem keepsFacts_supersedeByEdge (store : MemoryStore) (supersededId replacementId : String) :
    store.KeepsFacts (store.supersedeByEdge supersededId replacementId) :=
  KeepsFacts.modify rfl rfl (fun _ => rfl)
    fun _ => ⟨rfl, rfl, rfl, rfl, rfl, id, Or.inr (Or.inl rfl)⟩

theorem keepsFacts_softDeleteMemory (memoryObjectId : String) (store : MemoryStore) :
    store.KeepsFacts (store.softDeleteMemory memoryObjectId).1 := by
  unfold softDeleteMemory
  refine transaction_related (KeepsFacts.refl store) fun after result hbody => ?_
  simp only [bind_eq_ok, orRaise_eq_ok] at hbody
  obtain ⟨record, -, hbody⟩ := hbody
  split at hbody
  · obtain ⟨rfl, -⟩ := Prod.mk.inj (Except.ok.inj hbody)
    exact KeepsFacts.refl store
  · obtain ⟨rfl, -⟩ := Prod.mk.inj (Except.ok.inj hbody)
    exact KeepsFacts.modify rfl rfl (fun _ => rfl)
      fun _ => ⟨rfl, rfl, rfl, rfl, rfl, fun _ => rfl, Or.inl rfl⟩

theorem keepsFacts_createSourceItem (item : Ingest.SourceItem) (store : MemoryStore) :
    store.KeepsFacts (store.createSourceItem item).1 := by
  unfold createSourceItem
  refine transaction_related (KeepsFacts.refl store) fun after result hbody => ?_
  simp only [bind_eq_ok, orRaise_eq_ok, pure_eq_ok, Prod.mk.injEq] at hbody
  obtain ⟨sourceItems, hinsert, rfl, -⟩ := hbody
  refine ⟨fun sourceItemId found hfound => ?_, (KeepsFacts.refl store).memories⟩
  change sourceItems.get sourceItemId = some found
  rw [Table.get_insertNew hinsert]
  split
  · next hsame =>
      rw [hsame, Table.get_eq_none_of_insertNew hinsert] at hfound
      cases hfound
  · exact hfound

end Keeping

section References

/-- A relation or an index entry refers to the memory. -/
def Referenced (store : MemoryStore) (memoryObjectId : String) : Prop :=
  (∃ relation ∈ store.relations,
      relation.fromKind = .memoryObject ∧ relation.fromId = memoryObjectId ∨
        relation.toKind = .memoryObject ∧ relation.toId = memoryObjectId) ∨
    ∃ entry ∈ store.index.entries.rows,
      entry.targetKind = .memoryObject ∧ entry.targetId = memoryObjectId

/-- What a relation or an index entry refers to is stored. -/
def Closed (store : MemoryStore) : Prop :=
  ∀ memoryObjectId, store.Referenced memoryObjectId →
    (store.memories.get memoryObjectId).isSome

variable {store before after : MemoryStore} {memoryObjectId : String}

theorem Referenced.of_eq (hrelations : after.relations = before.relations)
    (hindex : after.index = before.index) (hreferenced : after.Referenced memoryObjectId) :
    before.Referenced memoryObjectId := by
  unfold Referenced at hreferenced ⊢
  rw [hrelations, hindex] at hreferenced
  exact hreferenced

theorem Closed.of_eq (hclosed : before.Closed) (hrelations : after.relations = before.relations)
    (hindex : after.index = before.index)
    (hstored : ∀ memoryObjectId, (before.memories.get memoryObjectId).isSome →
      (after.memories.get memoryObjectId).isSome) : after.Closed :=
  fun memoryObjectId hreferenced =>
    hstored memoryObjectId (hclosed memoryObjectId (hreferenced.of_eq hrelations hindex))

theorem isSome_promoteSlots (hints : List PromotionHint) (store : MemoryStore)
    (memoryObjectId : String) :
    ((hints.foldl promoteSlot store).memories.get memoryObjectId).isSome =
      (store.memories.get memoryObjectId).isSome := by
  rw [get_promoteSlots, Option.isSome_map]

theorem promoted_promoteSlots (hints : List PromotionHint) (store : MemoryStore) :
    store.Promoted (hints.foldl promoteSlot store) := by
  induction hints generalizing store with
  | nil => exact Promoted.refl store
  | cons hint rest ih => exact (promoteSlot_promoted store hint).trans (ih _)

theorem Closed.promoteSlots (hclosed : store.Closed) (hints : List PromotionHint) :
    (hints.foldl promoteSlot store).Closed := by
  apply hclosed.of_eq (promoted_promoteSlots hints store).relations
    (promoted_promoteSlots hints store).index
  intro memoryObjectId hstored
  rw [isSome_promoteSlots]
  exact hstored

theorem Closed.pair {loser winner : MemoryObjectRecord} (hclosed : store.Closed)
    (hloser : store.memories.get loser.id = some loser)
    (hwinner : store.memories.get winner.id = some winner) :
    ((store.mergeIntoWinner loser winner).supersedeByEdge loser.id winner.id).Closed := by
  have hstored : ∀ memoryObjectId, (store.memories.get memoryObjectId).isSome →
      (((store.mergeIntoWinner loser winner).supersedeByEdge loser.id winner.id).memories.get
        memoryObjectId).isSome := by
    intro memoryObjectId hsome
    rw [get_supersedeByEdge]
    split
    · rw [Option.isSome_map, isSome_mergeIntoWinner]
      exact hsome
    · rw [isSome_mergeIntoWinner]
      exact hsome
  have hloserStored : (store.memories.get loser.id).isSome := hloser ▸ rfl
  have hwinnerStored : (store.memories.get winner.id).isSome := hwinner ▸ rfl
  intro memoryObjectId hreferenced
  apply hstored
  rcases hreferenced with ⟨relation, hrelation, hends⟩ | ⟨entry, hentry, htarget⟩
  · rcases List.mem_append.mp hrelation with hmerged | hedge
    · obtain ⟨original, horiginal, hsame⟩ := mem_relations_mergeIntoWinner hmerged
      have hknown : ∀ memoryObjectId,
          original.fromKind = .memoryObject ∧ original.fromId = memoryObjectId ∨
            original.toKind = .memoryObject ∧ original.toId = memoryObjectId →
          (store.memories.get memoryObjectId).isSome :=
        fun other hother => hclosed other (Or.inl ⟨original, horiginal, hother⟩)
      rcases hsame with rfl | rfl
      · exact hknown memoryObjectId hends
      · rcases hends with ⟨-, rfl⟩ | hto
        · exact hwinnerStored
        · exact hknown memoryObjectId (Or.inr hto)
    · obtain rfl := List.mem_singleton.mp hedge
      rcases hends with ⟨-, rfl⟩ | ⟨-, rfl⟩
      · exact hwinnerStored
      · exact hloserStored
  · have hkept := (MemoryIndex.mem_entries_eraseTarget.mp hentry).1
    rw [index_mergeIntoWinner] at hkept
    exact hclosed memoryObjectId (Or.inr ⟨entry, hkept, htarget⟩)

/-- Nothing that refers to memories has changed. -/
structure SameReferences (before after : MemoryStore) : Prop where
  relations : after.relations = before.relations
  index : after.index = before.index

theorem Closed.ages (hclosed : before.Closed) (hages : before.Ages after)
    (hsame : before.SameReferences after) : after.Closed := by
  apply hclosed.of_eq hsame.relations hsame.index
  intro memoryObjectId hstored
  obtain ⟨record, hrecord⟩ := Option.isSome_iff_exists.mp hstored
  obtain ⟨next, hnext, -⟩ := hages.memories memoryObjectId record hrecord
  rw [hnext]
  rfl

theorem sameReferences_softDeleteMemory (memoryObjectId : String) (store : MemoryStore) :
    store.SameReferences (store.softDeleteMemory memoryObjectId).1 := by
  unfold softDeleteMemory
  refine transaction_related (SameReferences.mk rfl rfl) fun after result hbody => ?_
  simp only [bind_eq_ok, orRaise_eq_ok] at hbody
  obtain ⟨record, -, hbody⟩ := hbody
  split at hbody
  · obtain ⟨rfl, -⟩ := Prod.mk.inj (Except.ok.inj hbody)
    exact ⟨rfl, rfl⟩
  · obtain ⟨rfl, -⟩ := Prod.mk.inj (Except.ok.inj hbody)
    exact ⟨rfl, rfl⟩

theorem sameReferences_createSourceItem (item : Ingest.SourceItem) (store : MemoryStore) :
    store.SameReferences (store.createSourceItem item).1 := by
  unfold createSourceItem
  refine transaction_related (SameReferences.mk rfl rfl) fun after result hbody => ?_
  simp only [bind_eq_ok, orRaise_eq_ok, pure_eq_ok, Prod.mk.injEq] at hbody
  obtain ⟨sourceItems, -, rfl, -⟩ := hbody
  exact ⟨rfl, rfl⟩

theorem closed_empty : MemoryStore.empty.Closed := by
  rintro memoryObjectId (⟨relation, hrelation, -⟩ | ⟨entry, hentry, -⟩)
  · exact absurd hrelation List.not_mem_nil
  · exact absurd hentry List.not_mem_nil

theorem KeepsFacts.get_eq_none (hkeeps : before.KeepsFacts after)
    (habsent : before.memories.get memoryObjectId = none) :
    after.memories.get memoryObjectId = none := by
  cases hafter : after.memories.get memoryObjectId with
  | none => rfl
  | some next =>
    obtain ⟨record, hrecord, -⟩ := hkeeps.memories memoryObjectId next hafter
    rw [habsent] at hrecord
    cases hrecord

end References

section Commits

variable {store : MemoryStore}

variable {result : ProcessResult} {supersessionPairs : List (String × String)}

def Absent (memoryObjectId : String) (store : MemoryStore) : Prop :=
  store.memories.get memoryObjectId = none

/-- What additions, promotions and pairs preserve, a commit preserves. -/
theorem commitProcessResult_invariant {Invariant : MemoryStore → Prop} (hstore : Invariant store)
    (hadded : ∀ added, store.addProcessResult result = .ok added → Invariant added)
    (hpromoted : ∀ (hints : List PromotionHint) current, Invariant current →
      Invariant (hints.foldl promoteSlot current))
    (hpair : ∀ current loser winner, Invariant current →
      current.memories.get loser.id = some loser → current.memories.get winner.id = some winner →
        Invariant ((current.mergeIntoWinner loser winner).supersedeByEdge loser.id winner.id)) :
    Invariant (store.commitProcessResult result supersessionPairs).1 := by
  have hpairs : ∀ pairs current after, Invariant current →
      current.applySupersessionPairs pairs = .ok after → Invariant after := by
    intro pairs
    induction pairs with
    | nil =>
      intro current after hcurrent happly
      cases happly
      exact hcurrent
    | cons pair rest ih =>
      intro current after hcurrent happly
      simp only [applySupersessionPairs, bind_eq_ok] at happly
      obtain ⟨middle, hfirst, hrest⟩ := happly
      apply ih middle after _ hrest
      simp only [applySupersessionPair, bind_eq_ok, orRaise_eq_ok, require_eq_ok] at hfirst
      obtain ⟨loser, hloser, winner, hwinner, -, -, hfirst⟩ := hfirst
      have hloserId : loser.id = pair.1 := Table.key_of_get hloser
      have hwinnerId : winner.id = pair.2 := Table.key_of_get hwinner
      split at hfirst
      · cases hfirst
        exact hcurrent
      · obtain rfl := (Except.ok.inj hfirst).symm
        rw [← hloserId, ← hwinnerId]
        exact hpair current loser winner hcurrent (hloserId ▸ hloser) (hwinnerId ▸ hwinner)
  rcases commitProcessResult_steps result supersessionPairs store with
    ⟨error, hcommit⟩ | ⟨persisted, final, hpersist, happly, hcommit⟩
  · rw [hcommit]
    exact hstore
  · obtain ⟨added, hadd, hpersisted⟩ := persistProcessResult_eq_ok.mp hpersist
    rw [evaluatePromotionHints_eq] at hpersisted
    rw [hpersisted] at happly
    rw [hcommit]
    exact hpairs _ _ _ (hpromoted _ added (hadded added hadd)) happly

theorem keepsFacts_pair (store : MemoryStore) (loser winner : MemoryObjectRecord)
    (supersededId replacementId : String) :
    store.KeepsFacts
      ((store.mergeIntoWinner loser winner).supersedeByEdge supersededId replacementId) :=
  (keepsFacts_mergeIntoWinner store loser winner).trans (keepsFacts_supersedeByEdge _ _ _)

theorem mem_added {added : MemoryStore} (hadd : store.addProcessResult result = .ok added)
    {record : MemoryObjectRecord} (hrecord : record ∈ added.memories.rows) :
    record ∈ store.memories.rows ∨ ∃ memory ∈ result.memoryObjects, record = memory.inferredRecord := by
  simp only [addProcessResult, bind_eq_ok, orRaise_eq_ok, pure_eq_ok] at hadd
  obtain ⟨memories, hmemories, index, -, rfl⟩ := hadd
  obtain ⟨hbrought, hstored, -⟩ := get_addMemories hmemories
  have hget : memories.get record.id = some record := Table.get_of_mem hrecord
  by_cases hmem : record.id ∈ result.memoryObjects.map MemoryObject.id
  · obtain ⟨memory, hmemory, hid⟩ := List.mem_map.mp hmem
    have hnew := (hbrought memory hmemory).2
    rw [hid, hget] at hnew
    exact Or.inr ⟨memory, hmemory, Option.some.inj hnew⟩
  · rw [hstored record.id hmem] at hget
    exact Or.inl (Table.mem_of_get hget)

theorem isSome_added {added : MemoryStore} (hadd : store.addProcessResult result = .ok added)
    (memoryObjectId : String) :
    (added.memories.get memoryObjectId).isSome ↔
      (store.memories.get memoryObjectId).isSome ∨ memoryObjectId ∈ result.replacementIds := by
  simp only [addProcessResult, bind_eq_ok, orRaise_eq_ok, pure_eq_ok] at hadd
  obtain ⟨memories, hmemories, index, -, rfl⟩ := hadd
  obtain ⟨hbrought, hstored, -⟩ := get_addMemories hmemories
  change (memories.get memoryObjectId).isSome ↔ _
  by_cases hmem : memoryObjectId ∈ result.replacementIds
  · obtain ⟨memory, hmemory, rfl⟩ := List.mem_map.mp hmem
    rw [(hbrought memory hmemory).2]
    exact ⟨fun _ => Or.inr hmem, fun _ => rfl⟩
  · rw [hstored memoryObjectId hmem]
    exact ⟨Or.inl, fun heither => heither.resolve_right hmem⟩

theorem commitProcessResult_absent
    {memoryObjectId : String} (habsent : store.memories.get memoryObjectId = none)
    (hother : memoryObjectId ∉ result.replacementIds) :
    (store.commitProcessResult result supersessionPairs).1.memories.get memoryObjectId = none := by
  have hkeep : ∀ {current after : MemoryStore}, current.KeepsFacts after →
      Absent memoryObjectId current → Absent memoryObjectId after :=
    fun hkeeps hcurrent => hkeeps.get_eq_none hcurrent
  have hafter : Absent memoryObjectId (store.commitProcessResult result supersessionPairs).1 := by
    apply commitProcessResult_invariant habsent
    · intro added hadd
      rw [Absent, ← Option.not_isSome_iff_eq_none, isSome_added hadd]
      exact fun hstored => hstored.elim (fun hsome => by rw [habsent] at hsome; cases hsome) hother
    · exact fun hints current hcurrent => hkeep (keepsFacts_promoteSlots hints current) hcurrent
    · exact fun current loser winner hcurrent _ _ => hkeep (keepsFacts_pair _ _ _ _ _) hcurrent
  exact hafter

theorem mem_addEntries {containerOf : IndexEntryRecord → Option String}
    {entries : List IndexEntryRecord} {index after : MemoryIndex} {entry : IndexEntryRecord}
    (hadd : addEntries containerOf index entries = some after)
    (hentry : entry ∈ after.entries.rows) : entry ∈ index.entries.rows ∨ entry ∈ entries := by
  induction entries generalizing index with
  | nil =>
    cases hadd
    exact Or.inl hentry
  | cons head rest ih =>
    obtain ⟨middle, hinsert, hrest⟩ := Option.bind_eq_some_iff.mp hadd
    rcases ih hrest with hmiddle | hlater
    · rw [Table.rows_insertNew (MemoryIndex.insertNew_eq_some hinsert).1, List.mem_append]
        at hmiddle
      rcases hmiddle with hbefore | hnew
      · exact Or.inl hbefore
      · exact Or.inr (List.mem_singleton.mp hnew ▸ List.mem_cons_self)
    · exact Or.inr (List.mem_cons_of_mem head hlater)

end Commits

end MemoryStore

section Rebuilds

open MemoryStore

variable {rebuild : TraceRebuild} {store added : MemoryStore}

variable {result : ProcessResult} {memoryObjectId : String}

/-- No fact that the rebuild derives has the slot of an active fact of the thread. -/
def TraceRebuild.Meets (rebuild : TraceRebuild) (store : MemoryStore) : Prop :=
  ∀ fact ∈ rebuild.facts store, ∀ record ∈ store.memories.rows,
    record.LiveFact → record.lifecycle = .active →
      record.containerRef = some rebuild.aggregate.containerRef →
        record.visibility = some rebuild.aggregate.visibility →
          store.ComesFrom record rebuild.aggregate.threadRef →
            record.payload.slot ≠ fact.2.slot

instance : Decidable (rebuild.Meets store) :=
  inferInstanceAs (Decidable (∀ fact ∈ rebuild.facts store, ∀ record ∈ store.memories.rows,
    record.LiveFact → _ → _ → _ → _ → _))

section

variable (hadd : store.addProcessResult result = .ok added)
include hadd

theorem sourceItems_added :
    added.sourceItems = store.sourceItems := by
  simp only [addProcessResult, bind_eq_ok, orRaise_eq_ok, pure_eq_ok] at hadd
  obtain ⟨memories, -, index, -, rfl⟩ := hadd
  rfl

theorem comesFrom_added
    {record : MemoryObjectRecord} {threadRef : String} :
    added.ComesFrom record threadRef ↔ store.ComesFrom record threadRef := by
  rw [ComesFrom, ComesFrom, sourceItems_added hadd]

theorem from_added {payload : Payload}
    {threadRef : String} :
    added.From payload threadRef ↔ store.From payload threadRef := by
  rw [From, From, sourceItems_added hadd]

end

theorem from_of_brought {memory : MemoryObject}
    (hmemory : memory ∈ (rebuild.result store).memoryObjects)
    (htype : memory.type = operationalFactType) :
    store.From memory.payload rebuild.aggregate.threadRef := by
  obtain ⟨⟨fact, hfact, rfl⟩, -⟩ := fact_of_mem_result hmemory htype
  exact from_of_mem_facts hfact

theorem MemoryStore.Traced.add (htraced : store.Traced)
    (hadd : store.addProcessResult (rebuild.result store) = .ok added) : added.Traced := by
  intro record hrecord htype
  rcases mem_added hadd hrecord with hstored | ⟨memory, hmemory, rfl⟩
  · obtain ⟨hlifecycle, threadRef, hfrom⟩ := htraced record hstored htype
    exact ⟨hlifecycle, threadRef, (from_added hadd).mpr hfrom⟩
  · refine ⟨?_, rebuild.aggregate.threadRef, (from_added hadd).mpr (from_of_brought hmemory htype)⟩
    obtain ⟨⟨fact, -, rfl⟩, -⟩ := fact_of_mem_result hmemory htype
    exact nofun

/-- A live fact of the thread does not have the slot of a fact that the rebuild adds:
a candidate has claimed its slot, and the rebuild derives no slot of an active fact. -/
theorem slot_ne_of_stored (htraced : store.Traced) (hmeets : rebuild.Meets store)
    {memory : MemoryObject} (hmemory : memory ∈ (rebuild.result store).memoryObjects)
    (htype : memory.type = operationalFactType) {record : MemoryObjectRecord}
    (hrecord : record ∈ store.memories.rows) (hlive : record.LiveFact)
    (hcontainer : record.containerRef = some rebuild.aggregate.containerRef)
    (hvisibility : record.visibility = some rebuild.aggregate.visibility)
    (hcomes : store.ComesFrom record rebuild.aggregate.threadRef) :
    record.payload.slot ≠ memory.payload.slot := by
  obtain ⟨⟨fact, hfact, rfl⟩, hfree⟩ := fact_of_mem_result hmemory htype
  obtain ⟨hsuppressed, ownThread, hfrom⟩ := htraced record hrecord hlive.type
  cases hlifecycle : record.lifecycle with
  | active => exact hmeets fact hfact record hrecord hlive hlifecycle hcontainer hvisibility hcomes
  | superseded => exact absurd hlifecycle hlive.current
  | suppressed => exact absurd hlifecycle hsuppressed
  | candidate =>
    intro hslot
    apply hfree
    have hthread : inferThreadRef store [record.payload] = some rebuild.aggregate.threadRef := by
      apply inferThreadRef_of_from (List.cons_ne_nil _ _)
      intro payload hpayload
      rw [List.mem_singleton.mp hpayload, hfrom.eq_of_comesFrom hcomes]
      exact hfrom
    refine List.mem_map.mpr ⟨record, List.mem_filter.mpr ⟨?_, ?_⟩, hslot⟩
    · rw [factsOf, List.mem_filter, hlive.type, hlifecycle, hcontainer]
      exact ⟨hrecord, by simp⟩
    · rw [hlive.kept, hthread, beq_self_eq_true]
      rfl

theorem MemoryStore.OnePerSlot.add (hone : store.OnePerSlot) (htraced : store.Traced)
    (hmeets : rebuild.Meets store)
    (hadd : store.addProcessResult (rebuild.result store) = .ok added) : added.OnePerSlot := by
  -- what the rebuild adds is apart from what is stored
  have happart : ∀ memory ∈ (rebuild.result store).memoryObjects,
      ∀ record ∈ store.memories.rows, memory.inferredRecord.LiveFact → record.LiveFact →
        memory.inferredRecord.containerRef = record.containerRef →
          memory.inferredRecord.visibility = record.visibility →
            ∀ threadRef, store.ComesFrom memory.inferredRecord threadRef →
              store.ComesFrom record threadRef → record.payload.slot ≠ memory.payload.slot := by
    intro memory hmemory record hrecord hnew hlive hcontainer hvisibility threadRef hnewFrom hfrom
    have hthread : threadRef = rebuild.aggregate.threadRef :=
      MemoryStore.From.eq_of_comesFrom (from_of_brought hmemory hnew.type) hnewFrom
    obtain ⟨⟨fact, -, hsame⟩, -⟩ := fact_of_mem_result hmemory hnew.type
    apply slot_ne_of_stored htraced hmeets hmemory hnew.type hrecord hlive
    · rw [← hcontainer, hsame]
      rfl
    · rw [← hvisibility, hsame]
      rfl
    · exact hthread ▸ hfrom
  intro first hfirst second hsecond hfirstLive hsecondLive hcontainer hvisibility hslot threadRef
    hfirstFrom hsecondFrom
  rw [comesFrom_added hadd] at hfirstFrom hsecondFrom
  rcases mem_added hadd hfirst with hfirstStored | ⟨memory, hmemory, rfl⟩
  · rcases mem_added hadd hsecond with hsecondStored | ⟨other, hother, rfl⟩
    · exact hone first hfirstStored second hsecondStored hfirstLive hsecondLive hcontainer
        hvisibility hslot threadRef hfirstFrom hsecondFrom
    · exact absurd hslot (happart other hother first hfirstStored hsecondLive hfirstLive
        hcontainer.symm hvisibility.symm threadRef hsecondFrom hfirstFrom)
  · rcases mem_added hadd hsecond with hsecondStored | ⟨other, hother, rfl⟩
    · exact absurd hslot.symm (happart memory hmemory second hsecondStored hfirstLive hsecondLive
        hcontainer hvisibility threadRef hfirstFrom hsecondFrom)
    · rw [eq_of_mem_result hmemory hother hfirstLive.type hsecondLive.type hslot]

theorem MemoryStore.Closed.add (hclosed : store.Closed)
    (hadd : store.addProcessResult (rebuild.result store) = .ok added) : added.Closed := by
  have hstored := isSome_added hadd
  simp only [addProcessResult, bind_eq_ok, orRaise_eq_ok, pure_eq_ok] at hadd
  obtain ⟨memories, -, index, hindex, rfl⟩ := hadd
  intro memoryObjectId hreferenced
  apply (hstored memoryObjectId).mpr
  rcases hreferenced with ⟨relation, hrelation, hends⟩ | ⟨entry, hentry, htarget⟩
  · rcases List.mem_append.mp hrelation with hbefore | hnew
    · exact Or.inl (hclosed memoryObjectId (Or.inl ⟨relation, hbefore, hends⟩))
    · obtain ⟨-, hfromId, htoKind⟩ := relation_of_mem_result hnew
      rcases hends with ⟨-, rfl⟩ | ⟨hkind, -⟩
      · exact Or.inr hfromId
      · rw [htoKind] at hkind
        cases hkind
  · rcases mem_addEntries hindex hentry with hbefore | hnew
    · exact Or.inl (hclosed memoryObjectId (Or.inr ⟨entry, hbefore, htarget⟩))
    · exact Or.inr (htarget.2 ▸ (entry_of_mem_result hnew).2)

theorem mem_of_mem_duplicateIds {slots : List Slot} {memories : List MemoryObject}
    (hmem : memoryObjectId ∈ duplicateIds slots memories) :
    ∃ memory ∈ memories, memory.id = memoryObjectId := by
  induction memories generalizing slots with
  | nil => exact absurd hmem List.not_mem_nil
  | cons head rest ih =>
    have hrest : ∀ slots, memoryObjectId ∈ duplicateIds slots rest →
        ∃ memory ∈ head :: rest, memory.id = memoryObjectId := by
      intro slots hlater
      obtain ⟨memory, hmemory, hid⟩ := ih hlater
      exact ⟨memory, List.mem_cons_of_mem head hmemory, hid⟩
    rw [duplicateIds] at hmem
    split at hmem
    · rcases List.mem_cons.mp hmem with rfl | hlater
      · exact ⟨head, List.mem_cons_self, rfl⟩
      · exact hrest _ hlater
    · exact hrest _ hmem

theorem fact_of_mem_droppedIds (hdropped : memoryObjectId ∈ rebuild.droppedIds store) :
    ∃ fact ∈ rebuild.facts store, fact.1.memoryId = memoryObjectId := by
  obtain ⟨memory, hmemory, rfl⟩ := mem_of_mem_duplicateIds hdropped
  obtain ⟨hbuilt, htype, -⟩ := mem_factsWith_iff.mp hmemory
  obtain ⟨fact, hfact, rfl⟩ := fact_of_mem_buildThreadSummary hbuilt htype
  exact ⟨fact, hfact, rfl⟩

theorem memoryId_ne_traceId {fact : FactId × OperationalFactCandidate}
    (hfact : fact ∈ rebuild.facts store) : fact.1.memoryId ≠ rebuild.traceId.memoryId := by
  obtain ⟨index, -, rfl⟩ := List.mem_mapIdx.mp hfact
  exact rebuild.distinct index

theorem eq_of_mem_replacementIds (hmem : memoryObjectId ∈ (rebuild.result store).replacementIds) :
    memoryObjectId = rebuild.traceId.memoryId ∨
      ∃ fact ∈ rebuild.facts store, fact.1.memoryId = memoryObjectId := by
  obtain ⟨memory, hmemory, rfl⟩ := List.mem_map.mp hmem
  rw [(result_eq rebuild store).1, List.mem_filter] at hmemory
  have hbuilt := hmemory.1
  unfold TraceRebuild.buildThreadSummary at hbuilt
  split at hbuilt
  · exact absurd hbuilt List.not_mem_nil
  · rcases List.mem_cons.mp hbuilt with rfl | hlater
    · exact Or.inl rfl
    · obtain ⟨fact, hfact, rfl⟩ := List.mem_map.mp hlater
      exact Or.inr ⟨fact, hfact, rfl⟩

end Rebuilds

/-- What carries the invariant: facts are traced to their threads, and a thread has one
live fact for a slot. -/
structure FactsSound (store : MemoryStore) : Prop where
  traced : store.Traced
  onePerSlot : store.OnePerSlot

theorem FactsSound.keep {before after : MemoryStore} (hsound : FactsSound before)
    (hkeeps : before.KeepsFacts after) : FactsSound after where
  traced := hsound.traced.keep hkeeps
  onePerSlot := hsound.onePerSlot.keep hkeeps hsound.traced

theorem factsSound_empty : FactsSound MemoryStore.empty where
  traced := List.forall_mem_nil _
  onePerSlot := List.forall_mem_nil _

/-- What happens to the facts of a store: the commit of a rebuild, a soft deletion or a
new item. -/
inductive RebuildOp
  | commit (rebuild : TraceRebuild) (supersessionPairs : List (String × String))
  | softDelete (memoryObjectId : String)
  | ingest (item : Ingest.SourceItem)

/-- A store and the facts that reconciliation has dropped. -/
structure RebuildRun where
  store : MemoryStore
  dropped : List String

namespace RebuildOp

open MemoryStore

def step (run : RebuildRun) : RebuildOp → RebuildRun
  | .commit rebuild supersessionPairs =>
    { store := (run.store.commitProcessResult (rebuild.result run.store) supersessionPairs).1
      dropped := run.dropped ++ rebuild.droppedIds run.store }
  | .softDelete memoryObjectId =>
    { run with store := (run.store.softDeleteMemory memoryObjectId).1 }
  | .ingest item => { run with store := (run.store.createSourceItem item).1 }

def empty : RebuildRun := ⟨MemoryStore.empty, []⟩

def reached (ops : List RebuildOp) : RebuildRun := Run.run step empty ops

/-- A rebuild derives no slot for which its thread has an active fact. -/
def Meets (run : RebuildRun) : RebuildOp → Prop
  | .commit rebuild _ => rebuild.Meets run.store
  | _ => True

/-- The ids that a rebuild draws are new. -/
def Fresh (run : RebuildRun) : RebuildOp → Prop
  | .commit rebuild _ =>
    rebuild.traceId.memoryId ∉ run.dropped ∧ ∀ fact ∈ rebuild.facts run.store,
      fact.1.memoryId ∉ run.dropped ∧ run.store.memories.get fact.1.memoryId = none
  | _ => True

instance decidableMeets (run : RebuildRun) : ∀ op, Decidable (Meets run op)
  | .commit rebuild _ => inferInstanceAs (Decidable (rebuild.Meets run.store))
  | .softDelete _ => isTrue trivial
  | .ingest _ => isTrue trivial

instance decidableFresh (run : RebuildRun) : ∀ op, Decidable (Fresh run op)
  | .commit _ _ => inferInstanceAs (Decidable (_ ∧ ∀ fact ∈ _, _ ∧ _))
  | .softDelete _ => isTrue trivial
  | .ingest _ => isTrue trivial

variable (run : RebuildRun) (op : RebuildOp)

theorem factsSound_step (hmeets : Meets run op) (hsound : FactsSound run.store) :
    FactsSound (step run op).store := by
  cases op with
  | softDelete memoryObjectId => exact hsound.keep (keepsFacts_softDeleteMemory _ _)
  | ingest item => exact hsound.keep (keepsFacts_createSourceItem _ _)
  | commit rebuild supersessionPairs =>
    exact commitProcessResult_invariant hsound
      (fun added hadd => ⟨hsound.traced.add hadd, hsound.onePerSlot.add hsound.traced hmeets hadd⟩)
      (fun hints current hcurrent => hcurrent.keep (keepsFacts_promoteSlots hints current))
      (fun current loser winner hcurrent _ _ => hcurrent.keep (keepsFacts_pair _ _ _ _ _))

theorem closed_step (hclosed : run.store.Closed) :
    (step run op).store.Closed := by
  cases op with
  | softDelete memoryObjectId =>
    exact hclosed.ages (ages_softDeleteMemory _ _) (sameReferences_softDeleteMemory _ _)
  | ingest item =>
    exact hclosed.ages (ages_createSourceItem _ _) (sameReferences_createSourceItem _ _)
  | commit rebuild supersessionPairs =>
    exact commitProcessResult_invariant hclosed (fun added hadd => hclosed.add hadd)
      (fun hints current hcurrent => hcurrent.promoteSlots hints)
      (fun current loser winner hcurrent hloser hwinner => hcurrent.pair hloser hwinner)

/-- What has been dropped is not stored. -/
def DroppedAbsent (run : RebuildRun) : Prop :=
  ∀ memoryObjectId ∈ run.dropped, run.store.memories.get memoryObjectId = none

theorem droppedAbsent_step (hfresh : Fresh run op) (habsent : DroppedAbsent run) :
    DroppedAbsent (step run op) := by
  cases op with
  | softDelete memoryObjectId =>
    exact fun dropped hdropped =>
      (keepsFacts_softDeleteMemory memoryObjectId run.store).get_eq_none (habsent dropped hdropped)
  | ingest item =>
    exact fun dropped hdropped =>
      (keepsFacts_createSourceItem item run.store).get_eq_none (habsent dropped hdropped)
  | commit rebuild supersessionPairs =>
    obtain ⟨htrace, hfacts⟩ := hfresh
    intro memoryObjectId hdropped
    have habsentBefore : run.store.memories.get memoryObjectId = none ∧
        memoryObjectId ∉ (rebuild.result run.store).replacementIds := by
      rcases List.mem_append.mp hdropped with hbefore | hnow
      · refine ⟨habsent memoryObjectId hbefore, fun hbrought => ?_⟩
        rcases eq_of_mem_replacementIds hbrought with rfl | ⟨fact, hfact, rfl⟩
        · exact htrace hbefore
        · exact (hfacts fact hfact).1 hbefore
      · have hother : memoryObjectId ≠ rebuild.traceId.memoryId := by
          obtain ⟨fact, hfact, rfl⟩ := fact_of_mem_droppedIds hnow
          exact memoryId_ne_traceId hfact
        obtain ⟨fact, hfact, hid⟩ := fact_of_mem_droppedIds hnow
        exact ⟨hid ▸ (hfacts fact hfact).2, not_mem_replacementIds_of_dropped hnow hother⟩
    apply commitProcessResult_absent habsentBefore.1 habsentBefore.2

/-- As long as no rebuild derives a slot for which its thread has an active fact, every
thread has one live fact for a slot; and nothing ever refers to a dropped fact. -/
theorem facts_one_per_slot (ops : List RebuildOp) :
    (Along step Meets empty ops → (reached ops).store.OnePerSlot) ∧
      (reached ops).store.Closed ∧
      (Along step Fresh empty ops →
        ∀ memoryObjectId ∈ (reached ops).dropped, ¬ (reached ops).store.Referenced memoryObjectId) := by
  have hclosed : (reached ops).store.Closed := by
    have halways : Along step (fun _ _ => True) empty ops := Along.of_forall fun _ _ => trivial
    exact halways.invariant closed_empty fun run op _ hrun => closed_step run op hrun
  refine ⟨fun hmeets => ?_, hclosed, fun hfresh memoryObjectId hdropped hreferenced => ?_⟩
  · have hsound : FactsSound (reached ops).store :=
      hmeets.invariant factsSound_empty factsSound_step
    exact hsound.onePerSlot
  · have habsent : DroppedAbsent (reached ops) :=
      hfresh.invariant (fun _ hmem => absurd hmem List.not_mem_nil) droppedAbsent_step
    have hstored := hclosed memoryObjectId hreferenced
    rw [habsent memoryObjectId hdropped] at hstored
    cases hstored

def threadTurn (id threadRef : String) : Ingest.SourceItem where
  id := id
  sourceType := "conversation"
  sourceId := id
  content := "uv run pytest"
  metadata := none
  actorRef := none
  role := some "assistant"
  containerRef := some "project"
  threadRef := some threadRef
  artifactKind := none
  visibility := some .pub
  sourceTurnId := none
  relayName := none
  relayAttributionState := .unnamed
  useCase := none
  processingStatus := .completed
  processingError := none
  createdAt := 0
  forgottenAt := none

/-- A rebuild of a thread with one turn, which finds the runner of the project. -/
def runnerRebuild (turnId threadRef traceId factId : String) (hthreaded : threadRef ≠ "")
    (htrace : traceId ≠ "") (hfact : factId ≠ "") (hdistinct : factId ≠ traceId) :
    TraceRebuild where
  aggregate := ⟨"project", .pub, threadRef, hthreaded⟩
  window := [turnId]
  findings _ := [⟨"uv", "runner", "project", "project", "uv runner", "uv run", "uv run"⟩]
  traceId := ⟨traceId, "entry of " ++ traceId, htrace⟩
  traceText := "trace"
  ids _ := ⟨factId, "entry of " ++ factId, hfact⟩
  distinct _ := hdistinct

/-- A thread that is rebuilt twice. -/
def repeatedOps : List RebuildOp :=
  [.ingest (threadTurn "turn" "thread"),
    .commit (runnerRebuild "turn" "thread" "trace" "fact" (by decide) (by decide) (by decide)
      (by decide)) [],
    .commit (runnerRebuild "turn" "thread" "later trace" "later fact" (by decide) (by decide)
      (by decide) (by decide)) []]

theorem facts_one_per_slot_repeated :
    (reached repeatedOps).store.OnePerSlot ∧ (reached repeatedOps).dropped = ["later fact"] ∧
      ¬ (reached repeatedOps).store.Referenced "later fact" := by
  have hdropped : (reached repeatedOps).dropped = ["later fact"] := by decide +kernel
  refine ⟨(facts_one_per_slot repeatedOps).1 (by decide +kernel), hdropped, ?_⟩
  apply (facts_one_per_slot repeatedOps).2.2 (by decide +kernel)
  rw [hdropped]
  exact List.mem_singleton_self _

/-- A thread that is rebuilt again after its fact has been promoted. -/
def promotedOps : List RebuildOp :=
  [.ingest (threadTurn "turn" "thread"), .ingest (threadTurn "other turn" "other thread"),
    .commit (runnerRebuild "turn" "thread" "trace" "fact" (by decide) (by decide) (by decide)
      (by decide)) [],
    .commit (runnerRebuild "other turn" "other thread" "other trace" "other fact" (by decide)
      (by decide) (by decide) (by decide)) [],
    .commit (runnerRebuild "turn" "thread" "later trace" "later fact" (by decide) (by decide)
      (by decide) (by decide)) []]

/-- The promoted fact of a thread and the one that is derived again are both live. -/
theorem facts_repeat_after_promotion :
    ∃ first ∈ (reached promotedOps).store.memories.rows,
      ∃ second ∈ (reached promotedOps).store.memories.rows,
        first.LiveFact ∧ second.LiveFact ∧ first.containerRef = second.containerRef ∧
          first.visibility = second.visibility ∧ first.payload.slot = second.payload.slot ∧
          (reached promotedOps).store.ComesFrom first "thread" ∧
          (reached promotedOps).store.ComesFrom second "thread" ∧ first ≠ second ∧
          ¬ (reached promotedOps).store.OnePerSlot := by
  have hrepeat : ∃ first ∈ (reached promotedOps).store.memories.rows,
      ∃ second ∈ (reached promotedOps).store.memories.rows,
        first.LiveFact ∧ second.LiveFact ∧ first.containerRef = second.containerRef ∧
          first.visibility = second.visibility ∧ first.payload.slot = second.payload.slot ∧
          (reached promotedOps).store.ComesFrom first "thread" ∧
          (reached promotedOps).store.ComesFrom second "thread" ∧ first ≠ second := by
    decide +kernel
  obtain ⟨first, hfirst, second, hsecond, hlive, hlater, hcontainer, hvisibility, hslot, hfrom,
    hlaterFrom, hne⟩ := hrepeat
  refine ⟨first, hfirst, second, hsecond, hlive, hlater, hcontainer, hvisibility, hslot, hfrom,
    hlaterFrom, hne, fun hone => hne ?_⟩
  exact hone first hfirst second hsecond hlive hlater hcontainer hvisibility hslot "thread" hfrom
    hlaterFrom

end RebuildOp

end Pallium.Memory
