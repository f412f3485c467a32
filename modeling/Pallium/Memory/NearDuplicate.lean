import Pallium.Core.FirstClaim
import Pallium.Memory.Promotion

/-!
# Near-duplicate conclusions of a thread

The rebuild of a thread compares its new decisions and investigation outcomes with
the prior conclusions that are supported by the thread, and gives a hint for each
prior conclusion that a new one repeats, word by word or nearly.  The hint carries
the key of the prior conclusion and no thread, so the commit looks for that key in
the whole container.
-/

namespace Pallium.Memory

open Pallium.Text Pallium.Transaction Pallium.FirstClaim MemoryStore

/-- `thread_conclusion_types` of the package, which are also the types that the
emission of hints looks at. -/
def threadConclusionTypes : List String := ["decision", "investigation_outcome"]

/-- Conclusions by their ids. -/
structure ThreadConclusions where
  records : List MemoryObjectRecord
  distinct : (records.map MemoryObjectRecord.id).Nodup

namespace ThreadConclusions

def empty : ThreadConclusions := ⟨[], List.nodup_nil⟩

/-- A conclusion that is already there keeps its place. -/
def add (conclusions : ThreadConclusions) (record : MemoryObjectRecord) : ThreadConclusions :=
  if hknown : record.id ∈ conclusions.records.map MemoryObjectRecord.id then conclusions
  else
    { records := conclusions.records ++ [record]
      distinct := by
        rw [List.map_append, List.map_singleton]
        exact conclusions.distinct.append (List.nodup_singleton _)
          (List.disjoint_singleton.mpr hknown) }

end ThreadConclusions

/-- `list_memory_objects_for_source_items`, for one of the items. -/
def MemoryStore.memoryObjectsForSourceItem (store : MemoryStore) (sourceItemId : String) :
    List MemoryObjectRecord :=
  (store.relations.filter fun relation =>
      relation.relationType == .supportedBy && relation.toKind == .sourceItem &&
        relation.toId == sourceItemId && relation.fromKind == .memoryObject).filterMap
    fun relation => (store.memories.get relation.fromId).filter fun record =>
      !record.isSoftDeleted &&
        (record.lifecycle == .active || record.lifecycle == .superseded ||
          record.lifecycle == .suppressed)

def collectThreadConclusions (store : MemoryStore) (threadItems : List String) :
    ThreadConclusions :=
  let supported := threadItems.flatMap store.memoryObjectsForSourceItem
  (supported.filter fun record =>
    record.lifecycle == .active && decide (record.type ∈ threadConclusionTypes)).foldl
      ThreadConclusions.add .empty

/-- The conclusions of an incremental rebuild, which adds those of the items before
its window. -/
def collectAllConclusions (store : MemoryStore) (threadItems allThreadItems : List String) :
    ThreadConclusions :=
  (collectThreadConclusions store allThreadItems).records.foldl ThreadConclusions.add
    (collectThreadConclusions store threadItems)

def MemoryObject.canonicalKey (memory : MemoryObject) : String :=
  strip (memory.payload.canonicalKey.getD "")

def supersedesPrior (newCanonicalKey : String) (oldMemoryObject : MemoryObjectRecord) : Bool :=
  newCanonicalKey != "" && storedKey oldMemoryObject != "" &&
    (storedKey oldMemoryObject == newCanonicalKey ||
      SequenceMatcher.ratioAtLeast 85 (storedKey oldMemoryObject) newCanonicalKey)

/-- Whether a new memory repeats a prior conclusion. -/
def repeatsPrior (new : MemoryObject) (old : MemoryObjectRecord) : Bool :=
  decide (new.type ∈ threadConclusionTypes) && old.type == new.type && old.id != new.id &&
    supersedesPrior new.canonicalKey old

namespace MemoryStore

section Application

variable {store after : MemoryStore} {pair : String × String}

/-- Superseded memories stay so, and a memory gets a successor only when it becomes superseded. -/
def Settles (store after : MemoryStore) : Prop :=
  (∀ memoryObjectId, store.superseded memoryObjectId = true →
    after.superseded memoryObjectId = true) ∧
  ∀ memoryObjectId,
    successionCount after.relations memoryObjectId = successionCount store.relations memoryObjectId ∨
      successionCount after.relations memoryObjectId =
          successionCount store.relations memoryObjectId + 1 ∧
        store.superseded memoryObjectId = false ∧ after.superseded memoryObjectId = true

/-- One pair leaves its memory superseded and records at most one successor for it. -/
theorem applySupersessionPair_settles (happly : store.applySupersessionPair pair = .ok after) :
    after.superseded pair.1 = true ∧ store.Settles after := by
  simp only [applySupersessionPair, bind_eq_ok, orRaise_eq_ok, require_eq_ok] at happly
  obtain ⟨loser, hloser, winner, -, -, -, happly⟩ := happly
  split at happly
  · next hsuperseded =>
      cases happly
      have hknown : store.superseded pair.1 = true := by
        rw [superseded, hloser, Option.any_some, hsuperseded]
        rfl
      exact ⟨hknown, fun _ hbefore => hbefore, fun _ => Or.inl rfl⟩
  · next hlive =>
      cases happly
      have hafter : ∀ memoryObjectId,
          ((store.mergeIntoWinner loser winner).supersedeByEdge pair.1 pair.2).superseded
              memoryObjectId =
            (decide (memoryObjectId = pair.1) || store.superseded memoryObjectId) := by
        intro memoryObjectId
        rw [superseded_supersedeByEdge, superseded_mergeIntoWinner]
        rw [isSome_mergeIntoWinner, hloser]
        rfl
      refine ⟨by simp [hafter], fun memoryObjectId hbefore => ?_, fun memoryObjectId => ?_⟩
      · rw [hafter, hbefore, Bool.or_true]
      · rw [successionCount_supersedeByEdge, successionCount_mergeIntoWinner, hafter]
        by_cases hsame : memoryObjectId = pair.1
        · have hbefore : store.superseded memoryObjectId = false := by
            rw [superseded, hsame, hloser, Option.any_some]
            exact decide_eq_false hlive
          rw [if_pos hsame]
          exact Or.inr ⟨rfl, hbefore, by simp [hsame]⟩
        · rw [if_neg hsame]
          exact Or.inl rfl

/-- All pairs together leave their memories superseded, and no memory gets more than
one successor from them. -/
theorem applySupersessionPairs_settles {pairs : List (String × String)}
    (happly : store.applySupersessionPairs pairs = .ok after) :
    (∀ pair ∈ pairs, after.superseded pair.1 = true) ∧ store.Settles after := by
  induction pairs generalizing store with
  | nil =>
    cases happly
    exact ⟨List.forall_mem_nil _, fun _ hbefore => hbefore,
      fun _ => Or.inl rfl⟩
  | cons head rest ih =>
    simp only [applySupersessionPairs, bind_eq_ok] at happly
    obtain ⟨middle, hfirst, hrest⟩ := happly
    obtain ⟨hhead, hkept, hcount⟩ := applySupersessionPair_settles hfirst
    obtain ⟨hothers, hkeptLater, hcountLater⟩ := ih hrest
    refine ⟨fun pair hpair => ?_, fun memoryObjectId hbefore => ?_, fun memoryObjectId => ?_⟩
    · rcases List.mem_cons.mp hpair with rfl | hlater
      · exact hkeptLater _ hhead
      · exact hothers pair hlater
    · exact hkeptLater _ (hkept _ hbefore)
    · rcases hcount memoryObjectId with hsame | ⟨hmore, hbefore, hsuperseded⟩
      · rcases hcountLater memoryObjectId with hsameLater | ⟨hmoreLater, hlive, hdone⟩
        · exact Or.inl (hsameLater.trans hsame)
        · refine Or.inr ⟨by rw [hmoreLater, hsame], ?_, hdone⟩
          by_contra hsuperseded
          rw [hkept _ (Bool.eq_true_of_not_eq_false hsuperseded)] at hlive
          cases hlive
      · rcases hcountLater memoryObjectId with hsameLater | ⟨-, hlive, -⟩
        · exact Or.inr ⟨hsameLater.trans hmore, hbefore, hkeptLater _ hsuperseded⟩
        · rw [hsuperseded] at hlive
          cases hlive

end Application

section Resolution

variable {store : MemoryStore} {result : ProcessResult} {hint : SupersessionHint}

variable {pairs : List (String × String)}

theorem mem_hintPairs_of_mem {pair : String × String} (hmem : pair ∈ pairs) :
    pair ∈ store.hintPairs result pairs hint := by
  unfold hintPairs
  split
  · refine List.foldlRecOn (motive := fun found : List (String × String) => pair ∈ found) _ _
      hmem (fun found hfound record _ => ?_)
    simp only
    split
    · exact hfound
    · exact List.mem_append_left _ hfound
  · exact hmem

theorem mem_hintPairs_of_selects {record : MemoryObjectRecord}
    (hreplacement : hint.replacementMemoryId ∈ result.replacementIds)
    (hselected : record ∈ store.selects hint result.replacementIds) :
    (record.id, hint.replacementMemoryId) ∈ store.hintPairs result pairs hint := by
  rw [hintPairs, if_pos hreplacement]
  generalize store.selects hint result.replacementIds = selected at hselected
  induction selected generalizing pairs with
  | nil => exact absurd hselected List.not_mem_nil
  | cons head rest ih =>
    rw [List.foldl_cons]
    rcases List.mem_cons.mp hselected with rfl | hlater
    · refine List.foldlRecOn (motive := fun found : List (String × String) =>
        (record.id, hint.replacementMemoryId) ∈ found) _ _ ?_ (fun found hfound other _ => ?_)
      · simp only
        split
        · next hknown => exact hknown
        · exact List.mem_append_right _ (List.mem_singleton_self _)
      · simp only
        split
        · exact hfound
        · exact List.mem_append_left _ hfound
    · exact ih hlater

theorem mem_resolveSupersessionPairs_of_selects {record : MemoryObjectRecord}
    (hhint : hint ∈ result.supersessionHints)
    (hreplacement : hint.replacementMemoryId ∈ result.replacementIds)
    (hselected : record ∈ store.selects hint result.replacementIds) :
    (record.id, hint.replacementMemoryId) ∈ store.resolveSupersessionPairs result := by
  rw [resolveSupersessionPairs]
  obtain ⟨earlier, later, hsplit⟩ := List.append_of_mem hhint
  rw [hsplit, List.foldl_append, List.foldl_cons]
  refine List.foldlRecOn (motive := fun found : List (String × String) =>
    (record.id, hint.replacementMemoryId) ∈ found) _ _ ?_ (fun found hfound other _ => ?_)
  · exact mem_hintPairs_of_selects hreplacement hselected
  · exact mem_hintPairs_of_mem hfound

theorem exists_applied_of_commit {supersessionPairs : List (String × String)} {after : MemoryStore}
    (hcommit : store.commitProcessResult result supersessionPairs = (after, .ok pairs)) :
    ∃ persisted, store.persistProcessResult result = .ok persisted ∧
      persisted.applySupersessionPairs
        (persisted.resolveSupersessionPairs result ++ supersessionPairs) = .ok after := by
  rcases commitProcessResult_steps result supersessionPairs store with
    ⟨error, herror⟩ | ⟨persisted, final, hpersist, happly, hok⟩
  · cases hcommit.symm.trans herror
  · cases hcommit.symm.trans hok
    exact ⟨persisted, hpersist, happly⟩

end Resolution

end MemoryStore

/-- A rebuild of a thread by `build_thread_summary`: the conclusions that were read
for it and what the model's answer brought. -/
structure ThreadRebuild where
  aggregate : ThreadAggregate
  conclusions : ThreadConclusions
  memoryObjects : List MemoryObject
  relations : List RelationRecord
  indexEntries : List IndexEntryRecord
  plain : ∀ relation ∈ relations, relation.relationType ≠ .supersedes

namespace ThreadRebuild

/-- The prior conclusions for which a hint is emitted, each with its new memory;
`already_paired` holds the ids of the former. -/
def pairings (rebuild : ThreadRebuild) : List (MemoryObject × MemoryObjectRecord) :=
  claims repeatsPrior MemoryObjectRecord.id rebuild.memoryObjects rebuild.conclusions.records

/-- The hint for a prior conclusion. -/
def hint (rebuild : ThreadRebuild) (pairing : MemoryObject × MemoryObjectRecord) :
    SupersessionHint where
  replacementMemoryId := pairing.1.id
  memoryType := pairing.1.type
  canonicalKey := storedKey pairing.2
  containerRef := some rebuild.aggregate.containerRef
  threadRef := none
  visibility := rebuild.aggregate.visibility

/-- What `build_thread_summary` returns. -/
def result (rebuild : ThreadRebuild) : ProcessResult where
  memoryObjects := rebuild.memoryObjects
  relations := rebuild.relations
  indexEntries := rebuild.indexEntries
  supersessionHints := rebuild.pairings.map rebuild.hint
  promotionHints := []
  plain := rebuild.plain

variable {rebuild : ThreadRebuild} {store after : MemoryStore}
  {pairing : MemoryObject × MemoryObjectRecord}

section Emission

theorem mem_pairings :
    pairing ∈ rebuild.pairings ↔
      pairing.2 ∈ rebuild.conclusions.records ∧
        rebuild.memoryObjects.find? (repeatsPrior · pairing.2) = some pairing.1 :=
  mem_claims rebuild.conclusions.distinct

theorem eq_of_mem_pairings {other : MemoryObject × MemoryObjectRecord}
    (hfirst : pairing ∈ rebuild.pairings) (hsecond : other ∈ rebuild.pairings)
    (hsame : pairing.2.id = other.2.id) : pairing = other :=
  List.inj_on_of_nodup_map (claims_nodup rebuild.memoryObjects rebuild.conclusions.records)
    hfirst hsecond hsame

theorem repeatsPrior_of_mem (hpairing : pairing ∈ rebuild.pairings) :
    pairing.1 ∈ rebuild.memoryObjects ∧ repeatsPrior pairing.1 pairing.2 := by
  have hfirst := (mem_pairings.mp hpairing).2
  have hrepeats := List.find?_some hfirst
  exact ⟨List.mem_of_find?_eq_some hfirst, hrepeats⟩

end Emission

/-- Whether a source item of the thread supports the memory. -/
def supportsMemory (rebuild : ThreadRebuild) (store : MemoryStore) (memoryObjectId : String) :
    Bool :=
  store.relations.any fun relation =>
    supports memoryObjectId relation && relation.toKind == .sourceItem &&
      (store.sourceItems.get relation.toId).any fun item =>
        item.containerRef == some rebuild.aggregate.containerRef &&
          item.threadRef == some rebuild.aggregate.threadRef

/-- Whether the key of a prior conclusion is not the key of the new memory that it is
paired with. -/
def isNearDuplicate (pairing : MemoryObject × MemoryObjectRecord) : Bool :=
  storedKey pairing.2 != pairing.1.canonicalKey

/-- The memory is superseded by the commit, and the hint for the prior conclusion
selects it. -/
structure SupersededThrough (rebuild : ThreadRebuild) (store after : MemoryStore)
    (pairing : MemoryObject × MemoryObjectRecord) (record : MemoryObjectRecord) : Prop where
  stored : store.memories.get record.id = some record
  active : record.lifecycle = .active
  superseded : after.superseded record.id = true
  selected : ∃ persisted, store.persistProcessResult rebuild.result = .ok persisted ∧
    record ∈ persisted.selects (rebuild.hint pairing) rebuild.result.replacementIds

/-- Near duplicates are superseded within the thread, whatever else is superseded
repeats a key, and nothing is paired or replaced twice. -/
structure StaysInThread (rebuild : ThreadRebuild) (store after : MemoryStore) : Prop where
  nearDuplicates : ∀ pairing ∈ rebuild.pairings, isNearDuplicate pairing → ∀ record,
    rebuild.SupersededThrough store after pairing record →
      rebuild.supportsMemory store record.id
  others : ∀ pairing ∈ rebuild.pairings, ∀ record,
    rebuild.SupersededThrough store after pairing record →
      (∀ other ∈ rebuild.pairings, isNearDuplicate other →
        ¬rebuild.SupersededThrough store after other record) →
      storedKey record = pairing.1.canonicalKey
  pairedOnce : ∀ pairing ∈ rebuild.pairings, ∀ other ∈ rebuild.pairings,
    pairing.2.id = other.2.id → pairing.1 = other.1
  replacedOnce : ∀ memoryObjectId, successionCount after.relations memoryObjectId ≤
    successionCount store.relations memoryObjectId + 1

/-- Whether the key of a prior conclusion reaches a stored memory. -/
def reaches (rebuild : ThreadRebuild) (store : MemoryStore) (prior record : MemoryObjectRecord) :
    Bool :=
  decide (record ∈ store.memories.rows) && record.lifecycle == .active &&
    record.type == prior.type && record.containerRef == some rebuild.aggregate.containerRef &&
    record.visibility == some rebuild.aggregate.visibility && storedKey record != "" &&
    (storedKey record == storedKey prior ||
      SequenceMatcher.ratioAtLeast 85 (storedKey record) (storedKey prior))

/-- The new memory that a prior conclusion is repeated by. -/
def repeatedBy (rebuild : ThreadRebuild) (prior : MemoryObjectRecord) : Option MemoryObject :=
  rebuild.memoryObjects.find? (repeatsPrior · prior)

/-- What the commit needs of the stored memories: whatever the key of a nearly
repeated conclusion reaches is supported by the thread, and whatever the key of a
conclusion repeated word by word reaches has that key, or is reached by the key of a
nearly repeated one. -/
def KeysApart (rebuild : ThreadRebuild) (store : MemoryStore) : Prop :=
  rebuild.aggregate.containerRef ≠ "" →
    ∀ prior ∈ rebuild.conclusions.records, ∀ new, rebuild.repeatedBy prior = some new →
      ∀ record, rebuild.reaches store prior record →
        if storedKey prior = new.canonicalKey then
          storedKey record = storedKey prior ∨
            ∃ other ∈ rebuild.conclusions.records, ∃ repeating,
              rebuild.repeatedBy other = some repeating ∧
                storedKey other ≠ repeating.canonicalKey ∧ rebuild.reaches store other record
        else rebuild.supportsMemory store record.id

section Hints

variable {persisted : MemoryStore} {record : MemoryObjectRecord}

theorem mem_persisted_iff (hpersist : store.persistProcessResult rebuild.result = .ok persisted) :
    record ∈ persisted.memories.rows ∧ record.id ∉ rebuild.result.replacementIds ↔
      record ∈ store.memories.rows := by
  simp only [persistProcessResult, bind_eq_ok, orRaise_eq_ok, pure_eq_ok] at hpersist
  obtain ⟨memories, hadd, index, -, rfl⟩ := hpersist
  obtain ⟨hbrought, hstored, -⟩ := get_addMemories hadd
  change record ∈ memories.rows ∧ record.id ∉ rebuild.memoryObjects.map MemoryObject.id ↔ _
  rw [Table.mem_rows_iff, Table.mem_rows_iff]
  constructor
  · rintro ⟨hget, hother⟩
    exact (hstored record.id hother).symm.trans hget
  · intro hget
    have hother : record.id ∉ rebuild.memoryObjects.map MemoryObject.id := by
      intro hmem
      obtain ⟨memory, hmemory, hsame⟩ := List.mem_map.mp hmem
      have hfree := (hbrought memory hmemory).1
      rw [hsame, show store.memories.get record.id = some record from hget] at hfree
      cases hfree
    exact ⟨(hstored record.id hother).trans hget, hother⟩

theorem mem_selects_hint_iff (hpersist : store.persistProcessResult rebuild.result = .ok persisted)
    (hrepeats : repeatsPrior pairing.1 pairing.2) :
    record ∈ persisted.selects (rebuild.hint pairing) rebuild.result.replacementIds ↔
      rebuild.aggregate.containerRef ≠ "" ∧ rebuild.reaches store pairing.2 record := by
  simp only [repeatsPrior, supersedesPrior, Bool.and_eq_true, beq_iff_eq, bne_iff_ne,
    decide_eq_true_eq] at hrepeats
  obtain ⟨⟨⟨hconclusion, htype⟩, -⟩, ⟨-, hkey⟩, -⟩ := hrepeats
  have hcontainer : pairing.1.type ∈ containerScopedSupersessionTypes :=
    List.mem_cons_of_mem _ hconclusion
  have hsimilar : pairing.1.type = "decision" ∨ pairing.1.type = "investigation_outcome" := by
    simpa [threadConclusionTypes] using hconclusion
  have hconstraint : pairing.1.type ≠ "constraint_memory" := by
    rcases hsimilar with hdecision | hinvestigation
    · rw [hdecision]
      decide
    · rw [hinvestigation]
      decide
  by_cases hlocated : rebuild.aggregate.containerRef = ""
  · have hnowhere : (rebuild.hint pairing).containerRef.getD "" = "" := hlocated
    rw [selects, if_pos (Or.inl hnowhere)]
    exact iff_of_false List.not_mem_nil fun hreaches => hreaches.1 hlocated
  · have hsearched : ¬((rebuild.hint pairing).containerRef.getD "" = "" ∨
        (rebuild.hint pairing).canonicalKey = "") := by
      rintro (hnowhere | hempty)
      · exact hlocated hnowhere
      · exact hkey hempty
    rw [selects, if_neg hsearched, if_pos ⟨rfl, hcontainer⟩, selectsInContainer, List.mem_filter]
    simp only [keysMatch, hint, reaches, Bool.and_eq_true, Bool.or_eq_true, beq_iff_eq,
      bne_iff_ne, decide_eq_true_eq, hconstraint, hsimilar, htype, false_and, or_false,
      true_and, ne_eq, hlocated, not_false_eq_true, ← mem_persisted_iff hpersist]
    constructor
    · rintro ⟨hmem, ⟨⟨⟨⟨⟨hin, hsameType⟩, hactive⟩, hother⟩, hvisibility⟩, hnamed⟩, hmatch⟩
      exact ⟨⟨⟨⟨⟨⟨⟨hmem, hother⟩, hactive⟩, hsameType⟩, hin⟩, hvisibility⟩, hnamed⟩, hmatch⟩
    · rintro ⟨⟨⟨⟨⟨⟨⟨hmem, hother⟩, hactive⟩, hsameType⟩, hin⟩, hvisibility⟩, hnamed⟩, hmatch⟩
      exact ⟨hmem, ⟨⟨⟨⟨⟨hin, hsameType⟩, hactive⟩, hother⟩, hvisibility⟩, hnamed⟩, hmatch⟩

variable {supersessionPairs pairs : List (String × String)}
  (hcommit : store.commitProcessResult rebuild.result supersessionPairs = (after, .ok pairs))
include hcommit

theorem supersededThrough_iff (hpairing : pairing ∈ rebuild.pairings) :
    rebuild.SupersededThrough store after pairing record ↔
      rebuild.aggregate.containerRef ≠ "" ∧ rebuild.reaches store pairing.2 record := by
  obtain ⟨persisted, hpersist, happly⟩ := exists_applied_of_commit hcommit
  obtain ⟨hbrought, hrepeats⟩ := repeatsPrior_of_mem hpairing
  constructor
  · intro hsuperseded
    obtain ⟨other, hother, hselected⟩ := hsuperseded.selected
    exact (mem_selects_hint_iff hother hrepeats).mp hselected
  · intro hreaches
    have hselected := (mem_selects_hint_iff hpersist hrepeats).mpr hreaches
    have hresolved := mem_resolveSupersessionPairs_of_selects
      (List.mem_map_of_mem hpairing : rebuild.hint pairing ∈ rebuild.result.supersessionHints)
      (List.mem_map_of_mem hbrought) hselected
    obtain ⟨hrow, hother, hactive, -⟩ := selects_scope hselected
    exact
      { stored := Table.get_of_mem ((mem_persisted_iff hpersist).mp ⟨hrow, hother⟩)
        active := hactive
        superseded := (applySupersessionPairs_settles happly).1 _
          (List.mem_append_left _ hresolved)
        selected := ⟨persisted, hpersist, hselected⟩ }

theorem successionCount_commit_le (memoryObjectId : String) :
    successionCount after.relations memoryObjectId ≤
      successionCount store.relations memoryObjectId + 1 := by
  obtain ⟨persisted, hpersist, happly⟩ := exists_applied_of_commit hcommit
  have hpersisted : successionCount persisted.relations memoryObjectId =
      successionCount store.relations memoryObjectId := by
    rw [(persistProcessResult_persisted hpersist).relations]
    exact successionCount_append rebuild.result store.relations memoryObjectId
  rcases (applySupersessionPairs_settles happly).2.2 memoryObjectId with hsame | ⟨hmore, -⟩
  · rw [hsame, hpersisted]
    exact Nat.le_succ _
  · rw [hmore, hpersisted]

end Hints

/-- A committed rebuild keeps its near duplicates in the thread exactly if the keys of
the repeated conclusions reach no other memories. -/
theorem staysInThread_iff {supersessionPairs pairs : List (String × String)}
    (hcommit : store.commitProcessResult rebuild.result supersessionPairs = (after, .ok pairs)) :
    rebuild.StaysInThread store after ↔ rebuild.KeysApart store := by
  have hpaired : ∀ {prior new}, prior ∈ rebuild.conclusions.records →
      rebuild.repeatedBy prior = some new → (new, prior) ∈ rebuild.pairings :=
    fun hprior hnew => mem_pairings.mpr ⟨hprior, hnew⟩
  constructor
  · intro hstays hlocated prior hprior new hnew record hreaches
    have hpairing := hpaired hprior hnew
    have hsuperseded := (supersededThrough_iff hcommit hpairing).mpr ⟨hlocated, hreaches⟩
    split
    · next hexact =>
        by_contra hnone
        rw [not_or] at hnone
        refine hnone.1 (hexact ▸ hstays.others _ hpairing record hsuperseded ?_)
        intro other hother hnear hthrough
        obtain ⟨hconclusion, hrepeated⟩ := mem_pairings.mp hother
        exact hnone.2 ⟨other.2, hconclusion, other.1, hrepeated, bne_iff_ne.mp hnear,
          ((supersededThrough_iff hcommit hother).mp hthrough).2⟩
    · next hnear =>
        exact hstays.nearDuplicates _ hpairing (bne_iff_ne.mpr hnear) record hsuperseded
  · intro hapart
    refine ⟨fun pairing hpairing hnear record hsuperseded => ?_,
      fun pairing hpairing record hsuperseded hnone => ?_,
      fun pairing hpairing other hother hsame =>
        congrArg Prod.fst (eq_of_mem_pairings hpairing hother hsame),
      successionCount_commit_le hcommit⟩
    · obtain ⟨hlocated, hreaches⟩ := (supersededThrough_iff hcommit hpairing).mp hsuperseded
      obtain ⟨hconclusion, hrepeated⟩ := mem_pairings.mp hpairing
      have hreached := hapart hlocated pairing.2 hconclusion pairing.1 hrepeated record hreaches
      rwa [if_neg (bne_iff_ne.mp hnear)] at hreached
    · obtain ⟨hlocated, hreaches⟩ := (supersededThrough_iff hcommit hpairing).mp hsuperseded
      obtain ⟨hconclusion, hrepeated⟩ := mem_pairings.mp hpairing
      have hreached := hapart hlocated pairing.2 hconclusion pairing.1 hrepeated record hreaches
      split at hreached
      · next hexact =>
          rcases hreached with hsame | ⟨other, hother, repeating, hrepeats, hdiffers, hreach⟩
          · exact hsame.trans hexact
          · have hnear := hpaired hother hrepeats
            exact absurd ((supersededThrough_iff hcommit hnear).mpr ⟨hlocated, hreach⟩)
              (hnone _ hnear (bne_iff_ne.mpr hdiffers))
      · next hdiffers =>
          exact absurd hsuperseded (hnone pairing hpairing (bne_iff_ne.mpr hdiffers))

section Crossing

def threadDecision (id canonicalKey : String) (hnamed : id ≠ "") : MemoryObject where
  id := id
  type := "decision"
  payload := { Payload.empty with canonicalKey := some canonicalKey }
  envelopeContainerRef := none
  lifecycle := .active
  visibility := .pub
  containerRef := some "project"
  actorRef := none
  origin := none
  named := hnamed
  live := Lifecycle.active_ne_superseded

def threadMessage (id threadRef : String) : Ingest.SourceItem where
  id := id
  sourceType := "chat_message"
  sourceId := id
  content := "cache the results in redis"
  metadata := none
  actorRef := none
  role := some "user"
  containerRef := some "project"
  threadRef := some threadRef
  artifactKind := some "message"
  visibility := some .pub
  sourceTurnId := none
  relayName := none
  relayAttributionState := .unnamed
  useCase := none
  processingStatus := .completed
  processingError := none
  createdAt := 0
  forgottenAt := none

/-- A decision of the thread `first` and the same decision of the thread `second`. -/
def twoThreads : MemoryStore :=
  { MemoryStore.empty with
    memories := ⟨[(threadDecision "prior" "cache results in redis" (by decide)).record,
      (threadDecision "other" "cache results in redis" (by decide)).record], by decide⟩
    relations := [⟨.memoryObject, "prior", .supportedBy, .sourceItem, "one"⟩,
      ⟨.memoryObject, "other", .supportedBy, .sourceItem, "two"⟩]
    sourceItems := ⟨[threadMessage "one" "first", threadMessage "two" "second"], by decide⟩ }

theorem rewording_named : "new" ≠ "" := by decide

/-- The rebuild of the thread `first` brings the decision in other words. -/
def rewordingRebuild : ThreadRebuild where
  aggregate := ⟨"project", .pub, "first", by decide⟩
  conclusions := collectThreadConclusions twoThreads ["one"]
  memoryObjects := [threadDecision "new" "cache the results in redis" rewording_named]
  relations := [⟨.memoryObject, "new", .supportedBy, .sourceItem, "one"⟩]
  indexEntries := []
  plain := by decide

theorem commit_rewordingRebuild :
    twoThreads.commitProcessResult rewordingRebuild.result [] =
      ((twoThreads.commitProcessResult rewordingRebuild.result []).1,
        .ok [("prior", "new"), ("other", "new")]) := by
  have hpairs : (twoThreads.commitProcessResult rewordingRebuild.result []).2 =
      .ok [("prior", "new"), ("other", "new")] := by
    decide +kernel
  rw [← hpairs]

theorem staysInThread_iff_rewording :
    rewordingRebuild.StaysInThread twoThreads
        (twoThreads.commitProcessResult rewordingRebuild.result []).1 ↔
      rewordingRebuild.KeysApart twoThreads :=
  staysInThread_iff commit_rewordingRebuild

/-- A near duplicate within the thread supersedes the decision of the other thread,
whose key is not the new one. -/
theorem rewording_leaves_thread :
    ¬rewordingRebuild.StaysInThread twoThreads
        (twoThreads.commitProcessResult rewordingRebuild.result []).1 ∧
      (twoThreads.commitProcessResult rewordingRebuild.result []).1.superseded "other" = true ∧
      rewordingRebuild.supportsMemory twoThreads "other" = false := by
  refine ⟨fun hstays => ?_, by decide +kernel, by decide +kernel⟩
  have hpairing : (threadDecision "new" "cache the results in redis" (by decide),
      (threadDecision "prior" "cache results in redis" (by decide)).record) ∈
        rewordingRebuild.pairings :=
    mem_pairings.mpr ⟨by decide +kernel, List.find?_cons_of_pos (by decide +kernel)⟩
  have hsupported := hstays.nearDuplicates _ hpairing (by decide +kernel)
    (threadDecision "other" "cache results in redis" (by decide)).record
    ((supersededThrough_iff commit_rewordingRebuild hpairing).mpr (by decide +kernel))
  revert hsupported
  decide +kernel

end Crossing

end ThreadRebuild

end Pallium.Memory
