import Pallium.Retention.Chunks

/-!
# What retention leaves behind

Every chunk only takes rows away, and whatever refers to a row that it deletes goes with
the row.  The chunk of the source items deletes items that qualify in the store as it is
when the chunk begins.
-/

namespace Pallium.Retention

open Pallium.Memory (RelationRecord TargetKind MemoryIndex)

namespace RetentionStore

/-- The source item or the memory is stored. -/
def Stored (store : RetentionStore) : TargetKind → String → Prop
  | .sourceItem, sourceItemId => (store.sourceItems.get sourceItemId).isSome
  | .memoryObject, memoryObjectId => (store.memories.get memoryObjectId).isSome

instance (store : RetentionStore) (targetKind : TargetKind) (targetId : String) :
    Decidable (store.Stored targetKind targetId) := by
  cases targetKind with
  | memoryObject => exact inferInstanceAs (Decidable (_ = _))
  | sourceItem => exact inferInstanceAs (Decidable (_ = _))

/-- A relation, an index entry or a full-text row refers to the target. -/
def Referenced (store : RetentionStore) (targetKind : TargetKind) (targetId : String) : Prop :=
  (∃ relation ∈ store.relations, touches targetKind targetId relation = true) ∨
    (∃ entry ∈ store.index.entries.rows,
      entry.targetKind = targetKind ∧ entry.targetId = targetId) ∨
      ∃ row ∈ store.index.lexicalRows, row.targetKind = targetKind ∧ row.targetId = targetId

/-- Rows are only taken away, and with a deleted row what refers to it. -/
structure Erases (before after : RetentionStore) : Prop where
  stored : ∀ targetKind targetId, after.Stored targetKind targetId →
    before.Stored targetKind targetId
  referenced : ∀ targetKind targetId, after.Referenced targetKind targetId →
    before.Referenced targetKind targetId
  clean : ∀ targetKind targetId, before.Stored targetKind targetId →
    ¬ after.Stored targetKind targetId → ¬ after.Referenced targetKind targetId

variable {before middle after store : RetentionStore}

theorem Erases.refl (store : RetentionStore) : store.Erases store :=
  ⟨fun _ _ hstored => hstored, fun _ _ hreferenced => hreferenced,
    fun _ _ hstored hgone => absurd hstored hgone⟩

theorem Erases.trans (hfirst : before.Erases middle) (hsecond : middle.Erases after) :
    before.Erases after where
  stored targetKind targetId hstored :=
    hfirst.stored targetKind targetId (hsecond.stored targetKind targetId hstored)
  referenced targetKind targetId hreferenced :=
    hfirst.referenced targetKind targetId (hsecond.referenced targetKind targetId hreferenced)
  clean targetKind targetId hstored hgone := by
    by_cases hmiddle : middle.Stored targetKind targetId
    · exact hsecond.clean targetKind targetId hmiddle hgone
    · exact fun hreferenced => hfirst.clean targetKind targetId hstored hmiddle
        (hsecond.referenced targetKind targetId hreferenced)

theorem Erases.of_same (hrelations : after.relations = before.relations)
    (hindex : after.index = before.index)
    (hstored : ∀ targetKind targetId,
      after.Stored targetKind targetId ↔ before.Stored targetKind targetId) :
    before.Erases after where
  stored targetKind targetId := (hstored targetKind targetId).mp
  referenced targetKind targetId hreferenced := by
    unfold Referenced at hreferenced ⊢
    rw [hrelations, hindex] at hreferenced
    exact hreferenced
  clean targetKind targetId hbefore hgone :=
    absurd ((hstored targetKind targetId).mpr hbefore) hgone

/-- Nothing refers to a target whose relations and entries have been deleted, and nothing
else is added. -/
theorem referenced_of_erased {targetKind otherKind : TargetKind} {targetId otherId : String}
    (hrelations : after.relations = before.relations.filter fun relation =>
      !touches targetKind targetId relation)
    (hindex : after.index = before.index.eraseTarget targetKind targetId)
    (hreferenced : after.Referenced otherKind otherId) :
    before.Referenced otherKind otherId ∧ ¬ (otherKind = targetKind ∧ otherId = targetId) := by
  unfold Referenced at hreferenced
  rw [hrelations, hindex] at hreferenced
  rcases hreferenced with ⟨relation, hrelation, htouches⟩ | ⟨entry, hentry, htarget⟩ |
    ⟨row, hrow, htarget⟩
  · obtain ⟨hmem, hkept⟩ := List.mem_filter.mp hrelation
    refine ⟨Or.inl ⟨relation, hmem, htouches⟩, ?_⟩
    rintro ⟨rfl, rfl⟩
    rw [htouches] at hkept
    cases hkept
  · obtain ⟨hmem, hkept⟩ := MemoryIndex.mem_entries_eraseTarget.mp hentry
    refine ⟨Or.inr (Or.inl ⟨entry, hmem, htarget⟩), ?_⟩
    rintro ⟨rfl, rfl⟩
    exact hkept htarget
  · obtain ⟨hmem, hkept⟩ := MemoryIndex.mem_lexicalRows_eraseTarget.mp hrow
    refine ⟨Or.inr (Or.inr ⟨row, hmem, htarget⟩), ?_⟩
    rintro ⟨rfl, rfl⟩
    exact hkept htarget

/-- The deletion of one row with what refers to it. -/
theorem Erases.of_erased {targetKind : TargetKind} {targetId : String}
    (hrelations : after.relations = before.relations.filter fun relation =>
      !touches targetKind targetId relation)
    (hindex : after.index = before.index.eraseTarget targetKind targetId)
    (hstored : ∀ otherKind otherId, after.Stored otherKind otherId ↔
      before.Stored otherKind otherId ∧ ¬ (otherKind = targetKind ∧ otherId = targetId)) :
    before.Erases after where
  stored otherKind otherId hafter := ((hstored otherKind otherId).mp hafter).1
  referenced otherKind otherId hreferenced :=
    (referenced_of_erased hrelations hindex hreferenced).1
  clean otherKind otherId hbefore hgone hreferenced :=
    hgone ((hstored otherKind otherId).mpr
      ⟨hbefore, (referenced_of_erased hrelations hindex hreferenced).2⟩)

section Cascades

theorem erases_eraseSourceItem (store : RetentionStore) (sourceItemId : String) :
    store.Erases (store.eraseSourceItem sourceItemId) := by
  refine Erases.of_erased rfl rfl fun otherKind otherId => ?_
  cases otherKind with
  | memoryObject => exact ⟨fun hstored => ⟨hstored, nofun⟩, And.left⟩
  | sourceItem =>
    change ((store.sourceItems.erase sourceItemId).get otherId).isSome ↔
      (store.sourceItems.get otherId).isSome ∧ _
    rw [Table.get_erase]
    by_cases hsame : otherId = sourceItemId
    · simp [hsame]
    · simp [hsame]

theorem erases_deleteMemoryObjectCascade (store : RetentionStore) (memoryObjectId : String) :
    store.Erases (store.deleteMemoryObjectCascade memoryObjectId).1 := by
  unfold deleteMemoryObjectCascade
  cases store.memories.get memoryObjectId with
  | none => exact Erases.refl store
  | some memory =>
    refine Erases.of_erased rfl rfl fun otherKind otherId => ?_
    cases otherKind with
    | sourceItem => exact ⟨fun hstored => ⟨hstored, nofun⟩, And.left⟩
    | memoryObject =>
      change ((store.memories.erase memoryObjectId).get otherId).isSome ↔
        (store.memories.get otherId).isSome ∧ _
      rw [Table.get_erase]
      by_cases hsame : otherId = memoryObjectId
      · simp [hsame]
      · simp [hsame]

end Cascades

section Items

/-- The items and the row of the maintenance are as they were. -/
structure KeepsItems (before after : RetentionStore) : Prop where
  sourceItems : after.sourceItems = before.sourceItems
  maintenance : after.maintenance = before.maintenance

theorem KeepsItems.refl (store : RetentionStore) : store.KeepsItems store := ⟨rfl, rfl⟩

theorem KeepsItems.trans (hfirst : before.KeepsItems middle) (hsecond : middle.KeepsItems after) :
    before.KeepsItems after :=
  ⟨hsecond.sourceItems.trans hfirst.sourceItems, hsecond.maintenance.trans hfirst.maintenance⟩

theorem keepsItems_deleteMemoryObjectCascade (store : RetentionStore) (memoryObjectId : String) :
    store.KeepsItems (store.deleteMemoryObjectCascade memoryObjectId).1 := by
  unfold deleteMemoryObjectCascade
  split
  · exact KeepsItems.refl store
  · exact ⟨rfl, rfl⟩

/-- Memories are erased, and the items are as they were. -/
structure Forgets (before after : RetentionStore) : Prop where
  erases : before.Erases after
  keepsItems : before.KeepsItems after

theorem Forgets.refl (store : RetentionStore) : store.Forgets store :=
  ⟨Erases.refl store, KeepsItems.refl store⟩

theorem Forgets.trans (hfirst : before.Forgets middle) (hsecond : middle.Forgets after) :
    before.Forgets after :=
  ⟨hfirst.erases.trans hsecond.erases, hfirst.keepsItems.trans hsecond.keepsItems⟩

theorem forgets_deleteMemoryObjectCascade (store : RetentionStore) (memoryObjectId : String) :
    store.Forgets (store.deleteMemoryObjectCascade memoryObjectId).1 :=
  ⟨erases_deleteMemoryObjectCascade store memoryObjectId,
    keepsItems_deleteMemoryObjectCascade store memoryObjectId⟩

theorem forgets_deleteOrphanMemoryObjectIfNeeded (policy : MemoryRetentionPolicy)
    (deleted : RetentionStore × RetentionRunStats) (memoryObjectId : String) :
    deleted.1.Forgets (deleteOrphanMemoryObjectIfNeeded policy deleted memoryObjectId).1 := by
  unfold deleteOrphanMemoryObjectIfNeeded
  simp only
  split
  · exact Forgets.refl deleted.1
  · split
    · exact Forgets.refl deleted.1
    · split
      · exact Forgets.refl deleted.1
      · split
        · exact Forgets.refl deleted.1
        · exact forgets_deleteMemoryObjectCascade deleted.1 memoryObjectId

/-- A relation between stores that every deletion keeps holds over all of them. -/
theorem foldl_related {α : Type} {delete : RetentionStore × RetentionRunStats → α →
      RetentionStore × RetentionRunStats} {related : RetentionStore → RetentionStore → Prop}
    (hrefl : ∀ store, related store store)
    (htrans : ∀ {before middle after}, related before middle → related middle after →
      related before after)
    (hdelete : ∀ (deleted : RetentionStore × RetentionRunStats) (item : α),
      related deleted.1 (delete deleted item).1) (items : List α)
    (deleted : RetentionStore × RetentionRunStats) :
    related deleted.1 (items.foldl delete deleted).1 := by
  induction items generalizing deleted with
  | nil => exact hrefl deleted.1
  | cons item rest ih => exact htrans (hdelete deleted item) (ih (delete deleted item))

theorem forgets_deleteOrphans (policy : MemoryRetentionPolicy) (memoryObjectIds : List String)
    (deleted : RetentionStore × RetentionRunStats) :
    deleted.1.Forgets
      (memoryObjectIds.foldl (deleteOrphanMemoryObjectIfNeeded policy) deleted).1 :=
  foldl_related Forgets.refl Forgets.trans (forgets_deleteOrphanMemoryObjectIfNeeded policy) _ _

theorem erases_deleteSourceItemCascade (policy : MemoryRetentionPolicy)
    (deleted : RetentionStore × RetentionRunStats) (sourceItemId : String) :
    deleted.1.Erases (deleteSourceItemCascade policy deleted sourceItemId).1 := by
  unfold deleteSourceItemCascade
  simp only
  split
  · exact Erases.refl deleted.1
  · apply (erases_eraseSourceItem deleted.1 sourceItemId).trans
    exact (forgets_deleteOrphans policy _ (deleted.1.eraseSourceItem sourceItemId, _)).erases

theorem get_deleteSourceItemCascade (policy : MemoryRetentionPolicy)
    (deleted : RetentionStore × RetentionRunStats) (sourceItemId otherId : String)
    (hother : otherId ≠ sourceItemId) :
    (deleteSourceItemCascade policy deleted sourceItemId).1.sourceItems.get otherId =
      deleted.1.sourceItems.get otherId := by
  unfold deleteSourceItemCascade
  simp only
  split
  · rfl
  · rw [(forgets_deleteOrphans policy _ _).keepsItems.sourceItems]
    change (deleted.1.sourceItems.erase sourceItemId).get otherId = _
    rw [Table.get_erase, if_neg hother]

theorem get_deleteSourceItems (policy : MemoryRetentionPolicy) (sourceItemIds : List String)
    (deleted : RetentionStore × RetentionRunStats) {otherId : String}
    (hother : otherId ∉ sourceItemIds) :
    (sourceItemIds.foldl (deleteSourceItemCascade policy) deleted).1.sourceItems.get otherId =
      deleted.1.sourceItems.get otherId := by
  induction sourceItemIds generalizing deleted with
  | nil => rfl
  | cons head rest ih =>
    rw [List.mem_cons, not_or] at hother
    rw [List.foldl_cons, ih _ hother.2, get_deleteSourceItemCascade policy deleted _ _ hother.1]

end Items

section Memories

theorem erases_resolveMemoryObjectFreshness (store : RetentionStore)
    (record : MemoryObjectRecord) : store.Erases (store.resolveMemoryObjectFreshness record) := by
  refine Erases.of_same rfl rfl fun targetKind targetId => ?_
  cases targetKind with
  | sourceItem => exact Iff.rfl
  | memoryObject =>
    change ((store.memories.modify record.id _).get targetId).isSome ↔
      (store.memories.get targetId).isSome
    rw [Table.get_modify]
    · split
      · rw [Option.isSome_map]
      · exact Iff.rfl
    · exact fun _ => rfl

variable {cutoff : ℤ} {limit : ℕ} (records : List MemoryObjectRecord) (deletedCount : ℕ)
  (deleted : RetentionStore × RetentionRunStats)

theorem forgets_deleteStale :
    deleted.1.Forgets (deleteStale cutoff limit records deletedCount deleted).1 := by
  induction records generalizing deletedCount deleted with
  | nil => exact Forgets.refl deleted.1
  | cons record rest ih =>
    have hresolved : deleted.1.Forgets (deleted.1.resolveMemoryObjectFreshness record) :=
      ⟨erases_resolveMemoryObjectFreshness deleted.1 record, rfl, rfl⟩
    rw [deleteStale]
    split
    · exact Forgets.refl deleted.1
    · simp only
      split
      · apply hresolved.trans
        exact ih deletedCount (deleted.1.resolveMemoryObjectFreshness record, deleted.2)
      · apply (hresolved.trans (forgets_deleteMemoryObjectCascade _ record.id)).trans
        exact ih (deletedCount + 1) (_, deleted.2.merge _)

end Memories

section Metadata

theorem isSome_stripDebugMetadata (sourceItems : Table SourceItemRecord)
    (sourceItemId otherId : String) :
    ((stripDebugMetadata sourceItems sourceItemId).get otherId).isSome =
      (sourceItems.get otherId).isSome := by
  unfold stripDebugMetadata
  rw [Table.get_modify]
  · split
    · exact Option.isSome_map
    · rfl
  · exact fun _ => rfl

theorem isSome_stripAll (sourceItemIds : List String) (sourceItems : Table SourceItemRecord)
    (otherId : String) :
    ((sourceItemIds.foldl stripDebugMetadata sourceItems).get otherId).isSome =
      (sourceItems.get otherId).isSome := by
  induction sourceItemIds generalizing sourceItems with
  | nil => rfl
  | cons head rest ih => rw [List.foldl_cons, ih, isSome_stripDebugMetadata]

end Metadata

section Chunks

variable {policy : MemoryRetentionPolicy} {now : ℤ} {limit : ℕ}

variable {lease : Option RetentionLease} {leaseNow : ℤ} {prepared : Prepared}
  {stats : RetentionRunStats}

section

variable (store : RetentionStore)

theorem forgets_runSupersededMemoryRetentionChunk (now : ℤ) (limit : ℕ) :
    store.Forgets (store.runSupersededMemoryRetentionChunk now limit).1 :=
  @foldl_related _ deleteMemoryObject _ Forgets.refl Forgets.trans
    (fun deleted memoryObjectId => forgets_deleteMemoryObjectCascade deleted.1 memoryObjectId)
    _ (store, .zero)

theorem forgets_runStaleWorkingMemoryRetentionChunk (policy : MemoryRetentionPolicy) (now : ℤ)
    (limit : ℕ) : store.Forgets (store.runStaleWorkingMemoryRetentionChunk policy now limit).1 :=
  forgets_deleteStale _ 0 (store, .zero)

theorem erases_runDebugMetadataStrippingChunk (now : ℤ) (limit : ℕ) :
    store.Erases (store.runDebugMetadataStrippingChunk now limit).1 := by
  refine Erases.of_same rfl rfl fun targetKind targetId => ?_
  cases targetKind with
  | memoryObject => exact Iff.rfl
  | sourceItem =>
    change (Table.get (List.foldl stripDebugMetadata store.sourceItems _) targetId).isSome ↔
      (store.sourceItems.get targetId).isSome
    rw [isSome_stripAll]

end

variable (hcommit : store.commitSourceChunk policy now lease leaseNow prepared = .ok (some
  (after, stats)))
include hcommit

theorem commitSourceChunk_eq_ok :
    store.markerUnchanged prepared = true ∧
      ∃ deleted : RetentionStore × RetentionRunStats,
        deleted = (store.eligibleIds policy now prepared).foldl (deleteSourceItemCascade policy)
          (store, store.checkedStats policy now prepared) ∧
        after = { deleted.1 with
          maintenance := some (moveCursor prepared (store.maintenance.getD .new)) } := by
  unfold commitSourceChunk at hcommit
  split at hcommit
  · cases hcommit
  · next hmarker =>
      split at hcommit
      · cases hcommit
      · refine ⟨by simpa using hmarker, _, rfl, ?_⟩
        exact (congrArg Prod.fst (Option.some.inj (Except.ok.inj hcommit))).symm

theorem erases_commitSourceChunk : store.Erases after := by
  obtain ⟨-, deleted, hdeleted, rfl⟩ := commitSourceChunk_eq_ok hcommit
  have herases : store.Erases deleted.1 := by
    rw [hdeleted]
    exact foldl_related Erases.refl Erases.trans (erases_deleteSourceItemCascade policy) _
      (store, store.checkedStats policy now prepared)
  refine herases.trans (Erases.of_same rfl rfl fun targetKind targetId => ?_)
  cases targetKind with
  | memoryObject => exact Iff.rfl
  | sourceItem => exact Iff.rfl

theorem eligible_of_commitSourceChunk {sourceItemId : String}
    (hstored : store.Stored .sourceItem sourceItemId)
    (hgone : ¬ after.Stored .sourceItem sourceItemId) :
    sourceItemId ∈ store.eligibleIds policy now prepared := by
  obtain ⟨-, deleted, hdeleted, rfl⟩ := commitSourceChunk_eq_ok hcommit
  by_contra hother
  apply hgone
  change (deleted.1.sourceItems.get sourceItemId).isSome
  rw [hdeleted, get_deleteSourceItems policy _ _ hother]
  exact hstored

end Chunks

section Protection

variable {policy : MemoryRetentionPolicy} {now : ℤ} {sourceItemId : String}

def Supports (store : RetentionStore) (sourceItemId : String) (memory : MemoryObjectRecord) :
    Prop :=
  memory ∈ store.memories.rows ∧ ∃ relation ∈ store.relations,
    relation.relationType = .supportedBy ∧ relation.fromKind = .memoryObject ∧
      relation.fromId = memory.id ∧ relation.toKind = .sourceItem ∧ relation.toId = sourceItemId

/-- An active durable memory, or an active working memory that is fresh at the time, is
supported by the item. -/
def Protected (store : RetentionStore) (policy : MemoryRetentionPolicy) (now : ℤ)
    (sourceItemId : String) : Prop :=
  ∃ memory, store.Supports sourceItemId memory ∧ memory.lifecycle = .active ∧
    (memory.type ∈ policy.durableTypes ∨
      memory.type ∈ policy.workingTypes ∧ now < store.freshness memory + workingMemoryTtl)

/-- A worker holds the item at the time. -/
def Leased (store : RetentionStore) (now : ℤ) (sourceItemId : String) : Prop :=
  ∃ record worker expiresAt, store.sourceItems.get sourceItemId = some record ∧
    record.processingClaimedBy = some worker ∧ worker ≠ "" ∧
      record.processingLeaseExpiresAt = some expiresAt ∧ now < expiresAt

theorem sourceItemIsProtected_iff :
    store.sourceItemIsProtected policy now sourceItemId = true ↔
      store.Protected policy now sourceItemId := by
  simp only [sourceItemIsProtected, List.any_filter, List.any_eq_true, Bool.and_eq_true,
    beq_iff_eq]
  constructor
  · rintro ⟨relation, hrelation, ⟨⟨⟨hkind, htarget⟩, htype⟩, hfrom⟩, hmemory⟩
    cases hget : store.memories.get relation.fromId with
    | none =>
      rw [hget] at hmemory
      cases hmemory
    | some memory =>
      rw [hget] at hmemory
      simp only [Bool.and_eq_true, Bool.or_eq_true, beq_iff_eq, decide_eq_true_eq] at hmemory
      refine ⟨memory, ⟨Table.mem_of_get hget, relation, hrelation, htype, hfrom,
        (Table.key_of_get hget).symm, hkind, htarget⟩, hmemory.1, ?_⟩
      rcases hmemory.2 with hdurable | ⟨hworking, hfresh⟩
      · exact Or.inl hdurable
      · exact Or.inr ⟨hworking, by omega⟩
  · rintro ⟨memory, ⟨hrow, relation, hrelation, htype, hfrom, hid, hkind, htarget⟩, hactive,
      hprotects⟩
    refine ⟨relation, hrelation, ⟨⟨⟨hkind, htarget⟩, htype⟩, hfrom⟩, ?_⟩
    have hget : store.memories.get memory.id = some memory := Table.get_of_mem hrow
    rw [hid, hget]
    simp only [Bool.and_eq_true, Bool.or_eq_true, beq_iff_eq, decide_eq_true_eq]
    refine ⟨hactive, ?_⟩
    rcases hprotects with hdurable | ⟨hworking, hfresh⟩
    · exact Or.inl hdurable
    · exact Or.inr ⟨hworking, by omega⟩

theorem Protected.earlier {later : ℤ} (hlater : now ≤ later)
    (hprotected : store.Protected policy later sourceItemId) :
    store.Protected policy now sourceItemId := by
  obtain ⟨memory, hsupports, hactive, hprotects⟩ := hprotected
  refine ⟨memory, hsupports, hactive, ?_⟩
  rcases hprotects with hdurable | ⟨hworking, hfresh⟩
  · exact Or.inl hdurable
  · exact Or.inr ⟨hworking, by omega⟩

theorem spared_of_eligible {prepared : Prepared}
    (heligible : sourceItemId ∈ store.eligibleIds policy now prepared) {later : ℤ}
    (hlater : now ≤ later) :
    ¬ store.Protected policy later sourceItemId ∧ ¬ store.Leased later sourceItemId := by
  have hchecks := (List.mem_filter.mp heligible).2
  simp only [Bool.and_eq_true, Bool.not_eq_true'] at hchecks
  obtain ⟨hexpired, hunprotected⟩ := hchecks
  constructor
  · intro hprotected
    rw [sourceItemIsProtected_iff.mpr (hprotected.earlier hlater)] at hunprotected
    cases hunprotected
  · rintro ⟨record, worker, expiresAt, hget, hworker, hnamed, hexpires, hlive⟩
    rw [stillExpired, hget, Option.any_some] at hexpired
    simp only [SourceItemRecord.hasActiveLease, hworker, hexpires, Option.getD_some,
      Option.any_some, Bool.and_eq_true, Bool.not_eq_true', Bool.and_eq_false_iff, bne_eq_false_iff_eq,
      decide_eq_false_iff_not] at hexpired
    rcases hexpired.2 with hempty | hover
    · exact hnamed hempty
    · exact hover (by omega)

end Protection

end RetentionStore

end Pallium.Retention
