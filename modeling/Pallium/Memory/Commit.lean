import Pallium.Memory.Supersession

/-!
# What a commit does

The parts of a commit, each with what it changes.  Promotions change lifecycles of
candidates only.  A hint selects active memories of its type and scope.  A pair
that applies supersedes its memory, removes it from the index, and moves the
evidence of a decision or an investigation outcome to the replacement.
-/

namespace Pallium.Memory

open Pallium.Transaction

/-- How often the memory is supported by the target. -/
def supportCount (relations : List RelationRecord) (memoryObjectId toId : String) : ℕ :=
  relations.countP fun relation => supports memoryObjectId relation && relation.toId == toId

/-- How often a successor of the memory is recorded. -/
def successionCount (relations : List RelationRecord) (memoryObjectId : String) : ℕ :=
  relations.countP fun relation =>
    relation.relationType == .supersedes && relation.toKind == .memoryObject &&
      relation.toId == memoryObjectId

namespace MemoryStore

section Promotion

/-- Promotions turn candidates active, and change nothing else but the log. -/
structure Promoted (before after : MemoryStore) : Prop where
  relations : after.relations = before.relations
  index : after.index = before.index
  sourceItems : after.sourceItems = before.sourceItems
  flags : after.flags = before.flags
  memories : ∀ memoryObjectId, after.memories.get memoryObjectId =
      before.memories.get memoryObjectId ∨
    ∃ record, before.memories.get memoryObjectId = some record ∧
      record.type = operationalFactType ∧ record.lifecycle = .candidate ∧
      after.memories.get memoryObjectId = some { record with lifecycle := .active }

variable {before after : MemoryStore}

theorem Promoted.refl (store : MemoryStore) : store.Promoted store :=
  ⟨rfl, rfl, rfl, rfl, fun _ => Or.inl rfl⟩

theorem Promoted.trans {middle : MemoryStore} (hfirst : before.Promoted middle)
    (hsecond : middle.Promoted after) : before.Promoted after where
  relations := hsecond.relations.trans hfirst.relations
  index := hsecond.index.trans hfirst.index
  sourceItems := hsecond.sourceItems.trans hfirst.sourceItems
  flags := hsecond.flags.trans hfirst.flags
  memories memoryObjectId := by
    rcases hfirst.memories memoryObjectId with hsame | ⟨record, hrecord, htype, hcandidate, hactive⟩
    · rw [← hsame]
      exact hsecond.memories memoryObjectId
    · right
      rcases hsecond.memories memoryObjectId with hsame | ⟨other, hother, -, hlifecycle, -⟩
      · exact ⟨record, hrecord, htype, hcandidate, hsame.trans hactive⟩
      · rw [hactive] at hother
        rw [← Option.some.inj hother] at hlifecycle
        cases hlifecycle

theorem get_promoteSlot (store : MemoryStore) (hint : PromotionHint) (memoryObjectId : String) :
    (store.promoteSlot hint).memories.get memoryObjectId =
      if store.countDistinctThreadsForSlot hint < promotionThreadThreshold then
        store.memories.get memoryObjectId
      else
        (store.memories.get memoryObjectId).map fun record =>
          if promotes hint record then { record with lifecycle := .active } else record := by
  unfold promoteSlot
  simp only
  split
  · rfl
  · apply Table.get_updateAll
    intro record
    split
    · rfl
    · rfl

theorem promoteSlot_promoted (store : MemoryStore) (hint : PromotionHint) :
    store.Promoted (store.promoteSlot hint) := by
  have hother : (store.promoteSlot hint).relations = store.relations ∧
      (store.promoteSlot hint).index = store.index ∧
        (store.promoteSlot hint).sourceItems = store.sourceItems ∧
          (store.promoteSlot hint).flags = store.flags := by
    unfold promoteSlot
    simp only
    split
    · exact ⟨rfl, rfl, rfl, rfl⟩
    · exact ⟨rfl, rfl, rfl, rfl⟩
  refine ⟨hother.1, hother.2.1, hother.2.2.1, hother.2.2.2, fun memoryObjectId => ?_⟩
  rw [get_promoteSlot]
  split
  · exact Or.inl rfl
  · cases hrecord : store.memories.get memoryObjectId with
    | none => exact Or.inl rfl
    | some record =>
      rw [Option.map_some]
      split
      · next hpromotes =>
          simp only [promotes, Bool.and_eq_true, beq_iff_eq] at hpromotes
          exact Or.inr ⟨record, rfl, hpromotes.1.1.1.1.1, hpromotes.1.1.2, rfl⟩
      · exact Or.inl rfl

theorem evaluatePromotionHints_promoted (hints : List PromotionHint) (store : MemoryStore)
    (seenSlots : List (String × Slot)) :
    store.Promoted (evaluatePromotionHints seenSlots hints store) := by
  induction hints generalizing store seenSlots with
  | nil => exact Promoted.refl store
  | cons hint rest ih =>
    rw [evaluatePromotionHints]
    split
    · exact ih store seenSlots
    · exact (promoteSlot_promoted store hint).trans (ih _ _)

end Promotion

section Additions

/-- The memories that a result brings are new, and the others stay as they are. -/
theorem get_addMemories {memoryObjects : List MemoryObject} {memories after :
    Table MemoryObjectRecord} (hadd : addMemories memories memoryObjects = some after) :
    (∀ memory ∈ memoryObjects, memories.get memory.id = none ∧
        after.get memory.id = some memory.inferredRecord) ∧
      (∀ memoryObjectId, memoryObjectId ∉ memoryObjects.map MemoryObject.id →
        after.get memoryObjectId = memories.get memoryObjectId) ∧
      (memoryObjects.map MemoryObject.id).Nodup := by
  induction memoryObjects generalizing memories with
  | nil =>
    cases hadd
    exact ⟨fun memory hmemory => (List.not_mem_nil hmemory).elim, fun memoryObjectId _ => rfl,
      List.nodup_nil⟩
  | cons head rest ih =>
    obtain ⟨middle, hinsert, hrest⟩ := Option.bind_eq_some_iff.mp hadd
    obtain ⟨hbrought, hstored, hnodup⟩ := ih hrest
    have hget : ∀ memoryObjectId, middle.get memoryObjectId =
        if memoryObjectId = head.id then some head.inferredRecord
        else memories.get memoryObjectId :=
      Table.get_insertNew hinsert
    have hhead : head.id ∉ rest.map MemoryObject.id := by
      intro hmem
      obtain ⟨memory, hmemory, hsame⟩ := List.mem_map.mp hmem
      have hfree := (hbrought memory hmemory).1
      rw [hget, if_pos hsame] at hfree
      cases hfree
    refine ⟨fun memory hmemory => ?_, fun memoryObjectId hmem => ?_,
      List.nodup_cons.mpr ⟨hhead, hnodup⟩⟩
    · rcases List.mem_cons.mp hmemory with rfl | hlater
      · refine ⟨Table.get_eq_none_of_insertNew hinsert, ?_⟩
        rw [hstored memory.id hhead, hget, if_pos rfl]
      · obtain ⟨hfree, hafter⟩ := hbrought memory hlater
        have hne : memory.id ≠ head.id := by
          intro hsame
          exact hhead (hsame ▸ List.mem_map_of_mem hlater)
        rw [hget, if_neg hne] at hfree
        exact ⟨hfree, hafter⟩
    · rw [List.map_cons, List.mem_cons, not_or] at hmem
      rw [hstored memoryObjectId hmem.2, hget, if_neg hmem.1]

end Additions

section Selection

variable {store : MemoryStore} {hint : SupersessionHint} {replacementIds : List String}
  {record : MemoryObjectRecord}

variable {result : ProcessResult} {pair : String × String}

theorem selects_scope (hmem : record ∈ store.selects hint replacementIds) :
    record ∈ store.memories.rows ∧ record.id ∉ replacementIds ∧ record.lifecycle = .active ∧
      record.type = hint.memoryType ∧ record.decodedVisibility = hint.visibility ∧
      (hint.threadRef = none → record.type ∈ containerScopedSupersessionTypes ∧
        record.containerRef = hint.containerRef) := by
  unfold selects at hmem
  split at hmem
  · exact absurd hmem List.not_mem_nil
  · split at hmem
    · next hscoped =>
        obtain ⟨hrow, hselected⟩ := List.mem_filter.mp hmem
        simp only [Bool.and_eq_true, beq_iff_eq, decide_eq_true_eq] at hselected
        obtain ⟨⟨⟨⟨⟨⟨hcontainer, htype⟩, hactive⟩, hnew⟩, hvisibility⟩, -⟩, -⟩ := hselected
        refine ⟨hrow, hnew, hactive, htype, ?_, fun _ => ⟨htype ▸ hscoped.2, hcontainer⟩⟩
        rw [MemoryObjectRecord.decodedVisibility, hvisibility]
        rfl
    · split at hmem
      · exact absurd hmem List.not_mem_nil
      · next hthread =>
          obtain ⟨item, -, hitem⟩ := List.mem_flatMap.mp hmem
          obtain ⟨hrow, hselected⟩ := List.mem_filter.mp hitem
          simp only [Bool.and_eq_true, beq_iff_eq, decide_eq_true_eq] at hselected
          obtain ⟨⟨⟨⟨⟨-, hnew⟩, hactive⟩, htype⟩, hvisibility⟩, -⟩ := hselected
          refine ⟨hrow, hnew, hactive, htype, hvisibility, fun hnone => ?_⟩
          rw [hnone] at hthread
          exact absurd rfl hthread

theorem selects_located (hmem : record ∈ store.selects hint replacementIds) :
    hint.containerRef.getD "" ≠ "" := by
  intro hempty
  rw [selects, if_pos (Or.inl hempty)] at hmem
  exact List.not_mem_nil hmem

theorem mem_hintPairs {pairs : List (String × String)}
    (hmem : pair ∈ store.hintPairs result pairs hint) :
    pair ∈ pairs ∨ pair.2 ∈ result.replacementIds ∧ pair.2 = hint.replacementMemoryId ∧
      ∃ record ∈ store.selects hint result.replacementIds, pair.1 = record.id := by
  unfold hintPairs at hmem
  split at hmem
  · next hreplacement =>
      refine List.foldlRecOn (motive := fun found : List (String × String) => ∀ known ∈ found,
        known ∈ pairs ∨ known.2 ∈ result.replacementIds ∧ known.2 = hint.replacementMemoryId ∧
          ∃ record ∈ store.selects hint result.replacementIds, known.1 = record.id) _ _
        (fun known hknown => Or.inl hknown) (fun found hfound record hrecord => ?_) pair hmem
      simp only
      split
      · exact hfound
      · intro known hknown
        rcases List.mem_append.mp hknown with hbefore | hnew
        · exact hfound known hbefore
        · obtain rfl := List.mem_singleton.mp hnew
          exact Or.inr ⟨hreplacement, rfl, record, hrecord, rfl⟩
  · exact Or.inl hmem

theorem mem_resolveSupersessionPairs (hmem : pair ∈ store.resolveSupersessionPairs result) :
    pair.2 ∈ result.replacementIds ∧ ∃ hint ∈ result.supersessionHints,
      pair.2 = hint.replacementMemoryId ∧
        ∃ record ∈ store.selects hint result.replacementIds, pair.1 = record.id := by
  refine List.foldlRecOn (motive := fun found : List (String × String) => ∀ known ∈ found,
    known.2 ∈ result.replacementIds ∧ ∃ hint ∈ result.supersessionHints,
      known.2 = hint.replacementMemoryId ∧
        ∃ record ∈ store.selects hint result.replacementIds, known.1 = record.id) _ _
    (fun known hknown => absurd hknown List.not_mem_nil)
    (fun found hfound hint hhint known hknown => ?_) pair hmem
  rcases mem_hintPairs hknown with hbefore | ⟨hids, hreplacement, hselected⟩
  · exact hfound known hbefore
  · exact ⟨hids, hint, hhint, hreplacement, hselected⟩

theorem fst_not_mem_replacementIds (hmem : pair ∈ store.resolveSupersessionPairs result) :
    pair.1 ∉ result.replacementIds := by
  obtain ⟨-, hint, -, -, record, hrecord, hid⟩ := mem_resolveSupersessionPairs hmem
  rw [hid]
  exact (selects_scope hrecord).2.1

end Selection

section Reparenting

variable {fromMemoryId toMemoryId memoryObjectId toId : String} {seen : List String}
  {relations : List RelationRecord}

variable {relation : RelationRecord}

theorem supportCount_cons_of_supports (rest : List RelationRecord)
    (hsupports : supports memoryObjectId relation) :
    supportCount (relation :: rest) memoryObjectId toId =
      supportCount rest memoryObjectId toId + if relation.toId = toId then 1 else 0 := by
  rw [supportCount, List.countP_cons, hsupports, Bool.true_and]
  simp only [beq_iff_eq]
  rfl

theorem supportCount_cons_of_not (rest : List RelationRecord)
    (hsupports : ¬ supports memoryObjectId relation) :
    supportCount (relation :: rest) memoryObjectId toId = supportCount rest memoryObjectId toId := by
  apply List.countP_cons_of_neg
  intro hboth
  exact hsupports (Bool.and_eq_true _ _ ▸ hboth).1

theorem supports_moved (hsupports : supports fromMemoryId relation) :
    supports toMemoryId { relation with fromId := toMemoryId } := by
  simp only [supports, Bool.and_eq_true, beq_iff_eq] at hsupports ⊢
  exact ⟨⟨hsupports.1.1, trivial⟩, hsupports.2⟩

theorem not_supports_moved (hne : toMemoryId ≠ memoryObjectId) :
    ¬ supports memoryObjectId { relation with fromId := toMemoryId } := by
  simp only [supports, Bool.and_eq_true, beq_iff_eq]
  exact fun hmoved => hne hmoved.1.2

theorem not_supports_of_ne (hsupports : supports fromMemoryId relation)
    (hne : memoryObjectId ≠ fromMemoryId) :
    ¬ supports memoryObjectId relation := by
  simp only [supports, Bool.and_eq_true, beq_iff_eq] at hsupports ⊢
  exact fun hother => hne (hother.1.2.symm.trans hsupports.1.2)

theorem supportCount_reparent_to (hne : fromMemoryId ≠ toMemoryId) :
    supportCount (reparentSupportedBy fromMemoryId toMemoryId seen relations) toMemoryId toId =
      supportCount relations toMemoryId toId +
        if toId ∉ seen ∧ 0 < supportCount relations fromMemoryId toId then 1 else 0 := by
  induction relations generalizing seen with
  | nil => simp [reparentSupportedBy, supportCount]
  | cons relation rest ih =>
    unfold reparentSupportedBy
    by_cases hsupports : supports fromMemoryId relation
    · have hnot : ¬ supports toMemoryId relation := not_supports_of_ne hsupports (Ne.symm hne)
      rw [if_pos hsupports, supportCount_cons_of_not rest hnot,
        supportCount_cons_of_supports rest hsupports]
      split
      · next hseen =>
          rw [ih]
          by_cases hsame : relation.toId = toId
          · have hmem : toId ∈ seen := hsame ▸ hseen
            simp [hmem]
          · simp [hsame]
      · next hseen =>
          rw [supportCount_cons_of_supports _ (supports_moved hsupports), ih]
          by_cases hsame : relation.toId = toId
          · have hmem : toId ∉ seen := hsame ▸ hseen
            simp [hsame, hmem]
          · have hother : toId ≠ relation.toId := Ne.symm hsame
            simp [hsame, hother]
    · rw [if_neg hsupports, supportCount_cons_of_not rest hsupports]
      by_cases hto : supports toMemoryId relation
      · rw [supportCount_cons_of_supports _ hto, supportCount_cons_of_supports _ hto, ih]
        omega
      · rw [supportCount_cons_of_not _ hto, supportCount_cons_of_not _ hto]
        exact ih

theorem supportCount_reparent_of_ne (hfrom : memoryObjectId ≠ fromMemoryId)
    (hto : memoryObjectId ≠ toMemoryId) :
    supportCount (reparentSupportedBy fromMemoryId toMemoryId seen relations) memoryObjectId toId =
      supportCount relations memoryObjectId toId := by
  induction relations generalizing seen with
  | nil => rfl
  | cons relation rest ih =>
    unfold reparentSupportedBy
    split
    · next hsupports =>
        rw [supportCount_cons_of_not rest (not_supports_of_ne hsupports hfrom)]
        split
        · exact ih
        · rw [supportCount_cons_of_not _ (not_supports_moved (Ne.symm hto))]
          exact ih
    · by_cases hother : supports memoryObjectId relation
      · rw [supportCount_cons_of_supports _ hother, supportCount_cons_of_supports _ hother, ih]
      · rw [supportCount_cons_of_not _ hother, supportCount_cons_of_not _ hother]
        exact ih

theorem successionCount_reparent :
    successionCount (reparentSupportedBy fromMemoryId toMemoryId seen relations) memoryObjectId =
      successionCount relations memoryObjectId := by
  induction relations generalizing seen with
  | nil => rfl
  | cons relation rest ih =>
    unfold reparentSupportedBy
    split
    · next hsupports =>
        have htype : relation.relationType = .supportedBy := by
          simp only [supports, Bool.and_eq_true, beq_iff_eq] at hsupports
          exact hsupports.2
        have hnot : successionCount (relation :: rest) memoryObjectId =
            successionCount rest memoryObjectId := List.countP_cons_of_neg (by simp [htype])
        rw [hnot]
        split
        · exact ih
        · exact (List.countP_cons_of_neg (by simp [htype])).trans ih
    · rw [successionCount, successionCount, List.countP_cons, List.countP_cons]
      exact congrArg (· + _) ih

theorem count_reparentSupportedBy (source target : String) :
    (reparentSupportedBy fromMemoryId toMemoryId seen relations).count
        (supersedesEdge source target) =
      relations.count (supersedesEdge source target) := by
  induction relations generalizing seen with
  | nil => rfl
  | cons relation rest ih =>
    unfold reparentSupportedBy
    split
    · next hsupports =>
        have hkind : relation.relationType = .supportedBy := by
          simp only [supports, Bool.and_eq_true, beq_iff_eq] at hsupports
          exact hsupports.2
        have hne : ∀ moved : String, { relation with fromId := moved } ≠
            supersedesEdge source target := by
          intro moved hsame
          have htype := congrArg RelationRecord.relationType hsame
          rw [show ({ relation with fromId := moved } : RelationRecord).relationType =
            relation.relationType from rfl, hkind] at htype
          cases htype
        rw [List.count_cons_of_ne (hne relation.fromId)]
        split
        · exact ih
        · rw [List.count_cons_of_ne (hne toMemoryId)]
          exact ih
    · rw [List.count_cons, List.count_cons, ih]

theorem mem_reparentSupportedBy (source target : String) :
    supersedesEdge source target ∈ reparentSupportedBy fromMemoryId toMemoryId seen relations ↔
      supersedesEdge source target ∈ relations := by
  rw [← List.count_pos_iff, count_reparentSupportedBy, List.count_pos_iff]

theorem original_of_mem_reparentSupportedBy
    (hmem : relation ∈ reparentSupportedBy fromMemoryId toMemoryId seen relations) :
    ∃ original ∈ relations,
      relation = original ∨ relation = { original with fromId := toMemoryId } := by
  induction relations generalizing seen with
  | nil => exact absurd hmem List.not_mem_nil
  | cons head rest ih =>
    have hrest : ∀ seen, relation ∈ reparentSupportedBy fromMemoryId toMemoryId seen rest →
        ∃ original ∈ head :: rest,
          relation = original ∨ relation = { original with fromId := toMemoryId } := by
      intro seen hlater
      obtain ⟨original, horiginal, hsame⟩ := ih hlater
      exact ⟨original, List.mem_cons_of_mem head horiginal, hsame⟩
    unfold reparentSupportedBy at hmem
    split at hmem
    · split at hmem
      · exact hrest _ hmem
      · rcases List.mem_cons.mp hmem with hmoved | hlater
        · exact ⟨head, List.mem_cons_self, Or.inr hmoved⟩
        · exact hrest _ hlater
    · rcases List.mem_cons.mp hmem with hsame | hlater
      · exact ⟨head, List.mem_cons_self, Or.inl hsame⟩
      · exact hrest _ hlater

theorem supersedesEdge_inj {source target otherSource otherTarget : String} :
    supersedesEdge source target = supersedesEdge otherSource otherTarget ↔
      source = otherSource ∧ target = otherTarget := by
  simp only [supersedesEdge, RelationRecord.mk.injEq, true_and, and_true]
  exact and_comm

end Reparenting

/-- A commit fails and changes nothing, or applies the resolved and the given pairs to what it
persists. -/
theorem commitProcessResult_steps (result : ProcessResult)
    (supersessionPairs : List (String × String)) (store : MemoryStore) :
    (∃ error, store.commitProcessResult result supersessionPairs = (store, .error error)) ∨
      ∃ persisted after, store.persistProcessResult result = .ok persisted ∧
        persisted.applySupersessionPairs
          (persisted.resolveSupersessionPairs result ++ supersessionPairs) = .ok after ∧
        store.commitProcessResult result supersessionPairs =
          (after, .ok (persisted.resolveSupersessionPairs result ++ supersessionPairs)) := by
  unfold commitProcessResult
  rcases transaction_cases (fun store : MemoryStore => do
    let persisted ← store.persistProcessResult result
    let resolvedPairs := persisted.resolveSupersessionPairs result
    let after ← persisted.applySupersessionPairs (resolvedPairs ++ supersessionPairs)
    pure (after, resolvedPairs ++ supersessionPairs)) store with
    ⟨after, resolved, hbody, hcommit⟩ | ⟨error, -, hcommit⟩
  · simp only [bind_eq_ok, pure_eq_ok, Prod.mk.injEq] at hbody
    obtain ⟨persisted, hpersist, final, happly, rfl, rfl⟩ := hbody
    exact Or.inr ⟨persisted, final, hpersist, happly, hcommit⟩
  · exact Or.inl ⟨error, hcommit⟩

end MemoryStore

end Pallium.Memory
