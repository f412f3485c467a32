import Pallium.Core.Clocked
import Pallium.Search.Leaders
import Pallium.Search.Vector

/-!
# Queries while the store changes

Between two reads of a query other writers may forget source items, delete rows, or
supersede memories.  Whatever they do, the source items that a query returns are there
and remembered at its last read, because that read drops the others.  A row that the
index found and that is deleted before the query has filtered it makes the query raise.
-/

namespace Pallium.Search

open Pallium.Access
open Pallium.Clocked
open Pallium.Memory (MemoryStore MemoryObjectRecord IndexEntryRecord TargetKind Requester)
open Pallium.Ingest (SourceItem)

variable {rules : WorkRefRules}

section Writers

variable {sourceItemId : String}

/-- Mark a source item as forgotten, unless it is already. -/
def forget (scope : SourceItem → Bool) (now : ℤ) (item : SourceItem) : SourceItem :=
  if scope item && item.forgottenAt.isNone then { item with forgottenAt := some now } else item

/-- What another writer commits.  The other tables change along with these. -/
inductive Commit (before after : SearchStore rules) : Prop
  | forgets (scope : SourceItem → Bool) (now : ℤ)
      (hsources : after.memory.sourceItems = before.memory.sourceItems.updateAll (forget scope now))
      (hmemories : after.memory.memories = before.memory.memories)
  | deletes (sourceIds memoryIds : List String)
      (hsources : after.memory.sourceItems =
        before.memory.sourceItems.eraseAll fun item => decide (item.id ∈ sourceIds))
      (hmemories : after.memory.memories =
        before.memory.memories.eraseAll fun record => decide (record.id ∈ memoryIds))
  | supersedes (hsources : after.memory.sourceItems = before.memory.sourceItems)
      (hmemories : ∀ memoryObjectId, (before.memory.memories.get memoryObjectId).isSome →
        (after.memory.memories.get memoryObjectId).isSome)

/-- The store at each read of a query that starts with this store. -/
structure Interleaving (store : SearchStore rules) (shared : ℕ → SearchStore rules) : Prop where
  starts : shared 0 = store
  commits : ∀ moment, Relation.ReflTransGen Commit (shared moment) (shared (moment + 1))

/-- Whether a source item is forgotten or gone. -/
def SearchStore.isGone (store : SearchStore rules) (sourceItemId : String) : Bool :=
  (store.memory.sourceItems.get sourceItemId).all fun item => item.forgottenAt.isSome

theorem forget_id (scope : SourceItem → Bool) (now : ℤ) (item : SourceItem) :
    (forget scope now item).id = item.id := by
  unfold forget
  split
  · rfl
  · rfl

theorem forget_forgottenAt {scope : SourceItem → Bool} {now : ℤ} {item : SourceItem}
    (hforgotten : item.forgottenAt.isSome) : (forget scope now item).forgottenAt.isSome := by
  unfold forget
  split
  · rfl
  · exact hforgotten

theorem Commit.isGone {before after : SearchStore rules} (hcommit : Commit before after)
    (hgone : before.isGone sourceItemId) : after.isGone sourceItemId := by
  unfold SearchStore.isGone at hgone ⊢
  cases hcommit with
  | forgets scope now hsources hmemories =>
    have hget : after.memory.sourceItems.get sourceItemId =
        (before.memory.sourceItems.get sourceItemId).map (forget scope now) := by
      rw [hsources]
      exact Table.get_updateAll _ (forget_id scope now) sourceItemId
    rw [hget]
    cases hfound : before.memory.sourceItems.get sourceItemId with
    | none => rfl
    | some item =>
      rw [hfound] at hgone
      exact forget_forgottenAt hgone
  | deletes sourceIds memoryIds hsources hmemories =>
    rw [Option.all_eq_true] at hgone ⊢
    intro item hitem
    have hmem := Table.mem_of_get hitem
    rw [hsources] at hmem
    have hbefore := Table.get_of_mem (List.mem_filter.mp hmem).1
    have hid : item.id = sourceItemId := Table.key_of_get hitem
    exact hgone item (hid ▸ hbefore)
  | supersedes hsources hmemories =>
    rw [hsources]
    exact hgone

theorem isGone_of_commits {before after : SearchStore rules}
    (hcommits : Relation.ReflTransGen Commit before after) (hgone : before.isGone sourceItemId) :
    after.isGone sourceItemId := by
  induction hcommits with
  | refl => exact hgone
  | tail _ hcommit ih => exact hcommit.isGone ih

theorem Interleaving.isGone {store : SearchStore rules} {shared : ℕ → SearchStore rules}
    (hshared : Interleaving store shared) {moment later : ℕ} (hlater : moment ≤ later)
    (hgone : (shared moment).isGone sourceItemId) :
    (shared later).isGone sourceItemId := by
  induction later, hlater using Nat.le_induction with
  | base => exact hgone
  | succ later _ ih => exact isGone_of_commits (hshared.commits later) ih

end Writers

section SharedReads

variable (fullText : FullText)

/-- The vector reads of a store that does not change. -/
def SearchStore.vectorReads (store : SearchStore rules) : VectorReads Option where
  toReads := store.reads fullText
  getIndexEntries indexEntryIds :=
    some (store.memory.index.entries.rows.filter fun entry => decide (entry.id ∈ indexEntryIds))
  getIndexEntry indexEntryId := store.memory.index.entries.get indexEntryId
  getSourceItemProjections indexEntryIds :=
    some ((store.memory.index.entries.rows.filter fun entry =>
      decide (entry.id ∈ indexEntryIds)).map fun entry =>
        (entry, if entry.targetKind = .sourceItem then
          store.memory.sourceItems.get entry.targetId else none))
  getSourceItemVectorCandidates refs :=
    some ((((store.memory.index.entries.rows.filter fun entry =>
      entry.targetKind == .sourceItem && entry.indexType == .vector).filterMap fun entry =>
        ((store.memory.sourceItems.get entry.targetId).filter fun item =>
          refs.any fun ref => decide (⟨item.id, ref⟩ ∈ store.workRefs)).map fun item =>
            (entry, item))).mergeSort fun first later => decide (first.1.id ≤ later.1.id))

/-- Each read is answered by the store of its moment. -/
def sharedReads (shared : ℕ → SearchStore rules) : VectorReads Clocked where
  exactRows tokens filters :=
    readAt fun moment => ((shared moment).reads fullText).exactRows tokens filters
  topRows tokens targetKind limit :=
    readAt fun moment => ((shared moment).reads fullText).topRows tokens targetKind limit
  getSourceItems sourceItemIds :=
    readAt fun moment => ((shared moment).reads fullText).getSourceItems sourceItemIds
  getSourceItem sourceItemId :=
    readAt fun moment => ((shared moment).reads fullText).getSourceItem sourceItemId
  getMemoryObject memoryObjectId :=
    readAt fun moment => ((shared moment).reads fullText).getMemoryObject memoryObjectId
  getEvidenceForMemoryObject memoryObjectId :=
    readAt fun moment => ((shared moment).reads fullText).getEvidenceForMemoryObject memoryObjectId
  getIndexEntries indexEntryIds :=
    readAt fun moment => ((shared moment).vectorReads fullText).getIndexEntries indexEntryIds
  getIndexEntry indexEntryId :=
    readAt fun moment => ((shared moment).vectorReads fullText).getIndexEntry indexEntryId
  getSourceItemProjections indexEntryIds :=
    readAt fun moment => ((shared moment).vectorReads fullText).getSourceItemProjections indexEntryIds
  getSourceItemVectorCandidates refs :=
    readAt fun moment => ((shared moment).vectorReads fullText).getSourceItemVectorCandidates refs

end SharedReads

section Claims

/-- The query raises nothing. -/
def Returns (program : Clocked (List QueryResultItem)) : Prop :=
  ∃ results readCount, program.runAt 0 = (some results, readCount)

/-- No source item that is forgotten or gone at the last read, or before it, is returned. -/
def Drops (shared : ℕ → SearchStore rules) (program : Clocked (List QueryResultItem)) : Prop :=
  ∀ results readCount, program.runAt 0 = (some results, readCount) →
    ∀ moment < readCount, ∀ item score, .sourceHit item score ∈ results →
      (shared moment).isGone item.id = false

/-- Queries tolerate concurrent deletion and forgetting. -/
structure Tolerates (shared : ℕ → SearchStore rules)
    (program : Clocked (List QueryResultItem)) : Prop where
  returns : Returns program
  drops : Drops shared program

end Claims

section Returning

variable {fullText : FullText} {shared : ℕ → SearchStore rules} {start : ℕ}

/-- From a moment on a target can be read whenever it is looked at. -/
def Readable (start : ℕ) (shared : ℕ → SearchStore rules)
    (getSourceItem : String → Clocked SourceItem) (targetKind : TargetKind) (targetId : String) :
    Prop :=
  match targetKind with
  | .memoryObject =>
    ∀ moment, start ≤ moment → ((shared moment).memory.memories.get targetId).isSome
  | .sourceItem => Succeeds start (getSourceItem targetId)

variable {getSourceItem : String → Clocked SourceItem} {targetKind : TargetKind}
  {targetId : String}

theorem succeeds_matchesFilters
    (hreadable : Readable start shared getSourceItem targetKind targetId)
    (filters : Option QueryFilters) :
    Succeeds start (matchesFilters rules (sharedReads fullText shared).toReads getSourceItem
      targetKind targetId filters) := by
  cases targetKind with
  | memoryObject =>
    have hmemory : Succeeds start ((sharedReads fullText shared).getMemoryObject targetId) :=
      succeeds_readAt hreadable
    refine hmemory.bind fun record => ?_
    split
    · exact succeeds_pure false
    · cases filters with
      | none => exact succeeds_pure true
      | some filters =>
        dsimp only
        split
        · exact succeeds_pure false
        · have hevidence : Succeeds start
              ((sharedReads fullText shared).getEvidenceForMemoryObject targetId) :=
            succeeds_readAt fun _ _ => rfl
          exact hevidence.bind fun evidence => succeeds_pure _
  | sourceItem =>
    have hitem : Succeeds start (getSourceItem targetId) := hreadable
    refine hitem.bind fun item => ?_
    split
    · exact succeeds_pure false
    · exact succeeds_pure _

theorem succeeds_targetVisibilityAndContainer
    (hreadable : Readable start shared getSourceItem targetKind targetId) :
    Succeeds start (targetVisibilityAndContainer (sharedReads fullText shared).toReads
      getSourceItem targetKind targetId) := by
  cases targetKind with
  | memoryObject =>
    have hmemory : Succeeds start ((sharedReads fullText shared).getMemoryObject targetId) :=
      succeeds_readAt hreadable
    exact hmemory.bind fun record => succeeds_pure _
  | sourceItem =>
    have hitem : Succeeds start (getSourceItem targetId) := hreadable
    exact hitem.bind fun item => succeeds_pure _

theorem succeeds_revalidate (results : List QueryResultItem) :
    Succeeds start (revalidate (sharedReads fullText shared).toReads results) := by
  unfold revalidate
  split
  · exact succeeds_pure results
  · have hread : Succeeds start
        ((sharedReads fullText shared).getSourceItems (emittedSourceIds results)) :=
      succeeds_readAt fun _ _ => rfl
    exact hread.bind fun revalidated => succeeds_pure _

theorem succeeds_prefetch (sourceItemIds : List String) :
    Succeeds start (prefetch (sharedReads fullText shared).toReads sourceItemIds) := by
  unfold prefetch
  split
  · exact succeeds_pure []
  · exact succeeds_readAt fun _ _ => rfl

theorem forward_getMemoryObject (memoryObjectId : String) (score : ℚ) :
    Forward (do
      let record ← (sharedReads fullText shared).getMemoryObject memoryObjectId
      let evidence ← (sharedReads fullText shared).getEvidenceForMemoryObject memoryObjectId
      return some (QueryResultItem.memoryHit record score evidence)) :=
  (forward_readAt _).bind fun _ => (forward_readAt _).bind fun _ => forward_pure _

end Returning

section Lexical

variable {fullText : FullText} {shared : ℕ → SearchStore rules} {start : ℕ}
  (search : IndexSearch)

/-- The target of a row is there at every read. -/
def Kept (shared : ℕ → SearchStore rules) (found : FtsMatch) : Prop :=
  ∀ moment, (shared moment).holds found.target

theorem Kept.readable {found : FtsMatch} (hkept : Kept shared found)
    (prefetched : List SourceItem) :
    Readable start shared (readSourceItem (sharedReads fullText shared).toReads prefetched)
      found.targetKind found.targetId := by
  obtain ⟨indexEntryId, targetKind, targetId, bm25⟩ := found
  cases targetKind with
  | memoryObject => exact fun moment _ => hkept moment
  | sourceItem =>
    change Succeeds start (readSourceItem _ prefetched targetId)
    unfold readSourceItem
    split
    · exact succeeds_pure _
    · exact succeeds_readAt fun moment _ => hkept moment

theorem succeeds_admits {getSourceItem : String → Clocked SourceItem} {found : FtsMatch}
    (hreadable : Readable start shared getSourceItem found.targetKind found.targetId) :
    Succeeds start
      (search.admits rules (sharedReads fullText shared).toReads getSourceItem found) := by
  refine (succeeds_matchesFilters hreadable search.filters).bind fun matched => ?_
  split
  · exact (succeeds_targetVisibilityAndContainer hreadable).bind fun scope => succeeds_pure _
  · exact succeeds_pure false

variable (prefetched : List SourceItem)

theorem succeeds_scanRows {rows : List FtsMatch} (hrows : ∀ found ∈ rows, Kept shared found)
    (hits : List FtsMatch) (seen : List (TargetKind × String)) :
    Succeeds start (search.scanRows rules (sharedReads fullText shared).toReads
      (readSourceItem (sharedReads fullText shared).toReads prefetched) rows hits seen) := by
  induction rows generalizing hits seen with
  | nil => exact succeeds_pure _
  | cons found rest ih =>
    rw [List.forall_mem_cons] at hrows
    rw [IndexSearch.scanRows]
    split
    · exact ih hrows.2 hits seen
    · dsimp only
      split
      · exact ih hrows.2 hits _
      · refine (succeeds_admits search (hrows.1.readable prefetched)).bind fun admitted => ?_
        split
        · split
          · exact succeeds_pure _
          · exact ih hrows.2 _ _
        · exact ih hrows.2 hits _

theorem succeeds_scanPages {pages : List (List FtsMatch)}
    (hpages : ∀ rows ∈ pages, ∀ found ∈ rows, Kept shared found) (hits : List FtsMatch)
    (seen : List (TargetKind × String)) :
    Succeeds start
      (search.scanPages rules (sharedReads fullText shared).toReads pages hits seen) := by
  induction pages generalizing hits seen with
  | nil => exact succeeds_pure hits
  | cons rows rest ih =>
    rw [List.forall_mem_cons] at hpages
    rw [IndexSearch.scanPages]
    split
    · exact succeeds_pure hits
    · refine (succeeds_prefetch _).bind fun prefetched => ?_
      refine (succeeds_scanRows search prefetched hpages.1 hits seen).bind fun progress => ?_
      obtain ⟨found, after⟩ := progress
      dsimp only
      split
      · exact succeeds_pure found
      · exact ih hpages.2 found after

theorem succeeds_hydrate (hit : FtsMatch) :
    Succeeds start (hydrate (sharedReads fullText shared).toReads prefetched hit) := by
  unfold hydrate
  split
  · exact succeeds_tryCatch (forward_getMemoryObject _ _) (succeeds_pure none)
  · split
    · exact succeeds_pure _
    · exact succeeds_tryCatch ((forward_readAt _).bind fun _ => forward_pure _)
        (succeeds_pure none)

theorem succeeds_hydrateHits (limit : ℕ) (hits : List FtsMatch) (seen : List (TargetKind × String))
    (results : List QueryResultItem) :
    Succeeds start (hydrateHits (sharedReads fullText shared).toReads prefetched limit hits seen
      results) := by
  induction hits generalizing seen results with
  | nil => exact succeeds_pure results
  | cons hit rest ih =>
    rw [hydrateHits]
    split
    · exact ih seen results
    · refine (succeeds_hydrate prefetched hit).bind fun item => ?_
      cases item with
      | none => exact ih _ results
      | some item =>
        dsimp only
        split
        · exact succeeds_pure _
        · exact ih _ _

end Lexical

section LexicalQueries

variable (fullText : FullText) (query : LexicalQuery)

/-- The rows that the index read finds. -/
def LexicalQuery.found (store : SearchStore rules) : List FtsMatch :=
  if query.failsClosed then []
  else if query.tokens.isEmpty &&
      (!query.isBlank || !exactSourceWorkQuery query.filters query.targetKind) then []
  else if query.search.isExact then store.exactRows fullText query.tokens query.filters
  else store.topRows fullText query.tokens query.targetKind query.search.pageSize

variable {fullText query} {store : SearchStore rules} {shared : ℕ → SearchStore rules}

theorem nil_notMem_fetchPages (size : ℕ) (page rows : List FtsMatch) :
    [] ∉ fetchPages size page rows := by
  induction rows generalizing page with
  | nil =>
    rw [fetchPages]
    cases page with
    | nil => exact List.not_mem_nil
    | cons head tail => exact List.not_mem_cons_of_ne_of_not_mem (List.cons_ne_nil _ _).symm List.not_mem_nil
  | cons row rest ih =>
    rw [fetchPages]
    split
    · exact List.not_mem_cons_of_ne_of_not_mem (List.append_ne_nil_of_right_ne_nil _ (List.cons_ne_nil _ _)).symm (ih [])
    · exact ih (page ++ [row])

variable (fullText) in
theorem runAt_pages (hstart : shared 0 = store) (hopen : query.failsClosed = false)
    (hasks : (query.tokens.isEmpty &&
      (!query.isBlank || !exactSourceWorkQuery query.filters query.targetKind)) = false) :
    ∃ pages, (query.search.pages (sharedReads fullText shared).toReads).runAt 0 =
        (some pages, 1) ∧ pages.flatten = query.found fullText store ∧ [] ∉ pages := by
  subst hstart
  rw [LexicalQuery.found, hopen, hasks, if_neg Bool.false_ne_true, if_neg Bool.false_ne_true,
    IndexSearch.pages]
  cases hexact : query.search.isExact with
  | true =>
    have hsize : ([] : List FtsMatch).length < query.search.pageSize :=
      Nat.lt_of_lt_of_le Nat.one_pos (le_max_right _ _)
    let rows := (shared 0).exactRows fullText query.tokens query.filters
    refine ⟨fetchPages query.search.pageSize [] rows, ?_, (fetchPages_filled [] rows hsize).2,
      nil_notMem_fetchPages _ [] rows⟩
    rw [if_pos rfl]
    rfl
  | false =>
    let rows := (shared 0).topRows fullText query.tokens query.targetKind query.search.pageSize
    refine ⟨if rows.isEmpty then [] else [rows], ?_, ?_, ?_⟩
    · rw [if_neg Bool.false_ne_true]
      rfl
    · rw [if_neg Bool.false_ne_true]
      cases hrows : rows with
      | nil => exact hrows.symm
      | cons first rest => exact (List.append_nil _).trans hrows.symm
    · cases hrows : rows with
      | nil => exact List.not_mem_nil
      | cons first rest => exact List.not_mem_cons_of_ne_of_not_mem (List.cons_ne_nil _ _).symm List.not_mem_nil

theorem returns_of_kept (hstart : shared 0 = store)
    (hkept : ∀ found ∈ query.found fullText store, Kept shared found) :
    Returns (query.run rules (sharedReads fullText shared).toReads) := by
  rw [LexicalQuery.run]
  split
  · exact ⟨[], 0, rfl⟩
  · next hopen =>
      split
      · exact ⟨[], 0, rfl⟩
      · next hasks =>
          have hrest : ∀ hits, Succeeds 0 (do
              let prefetched ← prefetch (sharedReads fullText shared).toReads
                ((hits.filter fun hit : FtsMatch => hit.targetKind == .sourceItem).map
                  FtsMatch.targetId)
              let results ← hydrateHits (sharedReads fullText shared).toReads prefetched
                query.limit hits [] []
              revalidate (sharedReads fullText shared).toReads results) := by
            intro hits
            refine (succeeds_prefetch _).bind fun prefetched => ?_
            exact (succeeds_hydrateHits prefetched query.limit hits [] []).bind
              fun results => succeeds_revalidate results
          have hsearch : ∃ hits later, (query.search.run rules
              (sharedReads fullText shared).toReads).runAt 0 = (some hits, later) := by
            rw [IndexSearch.run]
            split
            · exact ⟨[], 0, rfl⟩
            · obtain ⟨pages, hpages, hflatten, -⟩ := runAt_pages fullText hstart
                (Bool.eq_false_iff.mpr hopen) (Bool.eq_false_iff.mpr hasks)
              have hrows : ∀ rows ∈ pages, ∀ found ∈ rows, Kept shared found := by
                intro rows hrows found hfound
                apply hkept
                rw [← hflatten]
                exact List.mem_flatten.mpr ⟨rows, hrows, hfound⟩
              have hsucceeds : Succeeds 1 (query.search.scanPages rules
                  (sharedReads fullText shared).toReads pages [] []) :=
                succeeds_scanPages query.search hrows [] []
              obtain ⟨hits, later, hscan, -, -⟩ := hsucceeds 1 (le_refl 1)
              rw [runAt_bind_some hpages, runAt_bind_some hscan]
              exact ⟨_, later, rfl⟩
          obtain ⟨hits, later, hhits⟩ := hsearch
          obtain ⟨results, last, hresults, -, -⟩ := hrest hits later (Nat.zero_le later)
          exact ⟨results, last, (runAt_bind_some hhits _).trans hresults⟩

end LexicalQueries

section LastRead

variable {fullText : FullText} {store : SearchStore rules} {shared : ℕ → SearchStore rules}

/-- The source items among the results are there and remembered at the last read. -/
def Remembered (shared : ℕ → SearchStore rules) (results : List QueryResultItem)
    (readCount : ℕ) : Prop :=
  ∀ item score, .sourceHit item score ∈ results →
    ∃ last, readCount = last + 1 ∧ (shared last).isGone item.id = false

theorem remembered_nil (readCount : ℕ) : Remembered shared [] readCount :=
  fun _ _ hmem => absurd hmem List.not_mem_nil

theorem isGone_of_lookup {sourceItemIds : List String} {sourceItemId : String} {item : SourceItem}
    (hlookup : lookup (store.memory.sourceItems.rows.filter fun item =>
      decide (item.id ∈ sourceItemIds)) sourceItemId = some item)
    (hremembered : item.forgottenAt.isNone) : store.isGone sourceItemId = false := by
  have hmem := (List.mem_filter.mp (List.mem_of_find?_eq_some hlookup)).1
  have hfound := List.find?_some hlookup
  have hid : item.id = sourceItemId := eq_of_beq hfound
  have hget : store.memory.sourceItems.get item.id = some item := Table.get_of_mem hmem
  rw [SearchStore.isGone, ← hid, hget]
  change item.forgottenAt.isSome = false
  rw [Option.isSome_eq_false_iff]
  exact hremembered

theorem ensures_revalidate (results : List QueryResultItem) :
    Ensures (revalidate (sharedReads fullText shared).toReads results) (Remembered shared) := by
  unfold revalidate
  split
  · next hempty =>
      apply ensures_pure
      intro readCount item score hmem
      have hemitted : item.id ∈ emittedSourceIds results :=
        List.mem_filterMap.mpr ⟨_, hmem, rfl⟩
      rw [List.isEmpty_iff.mp hempty] at hemitted
      exact absurd hemitted List.not_mem_nil
  · intro clock kept readCount hrun
    obtain ⟨hkept, rfl⟩ := Prod.mk.inj hrun
    cases hkept
    intro item score hmem
    obtain ⟨found, hlookup, hremembered⟩ := (Option.any_eq_true _ _).mp (List.mem_filter.mp hmem).2
    exact ⟨clock, rfl, isGone_of_lookup hlookup hremembered⟩

theorem drops_of_ensures (hshared : Interleaving store shared)
    {program : Clocked (List QueryResultItem)} (hensures : Ensures program (Remembered shared)) :
    Drops shared program := by
  intro results readCount hrun moment hmoment item score hmem
  obtain ⟨last, rfl, hlast⟩ := hensures 0 results readCount hrun item score hmem
  rw [← Bool.not_eq_true] at hlast ⊢
  exact fun hgone => hlast (hshared.isGone (Nat.lt_succ_iff.mp hmoment) hgone)

theorem LexicalQuery.ensures_run (query : LexicalQuery) :
    Ensures (query.run rules (sharedReads fullText shared).toReads) (Remembered shared) := by
  rw [LexicalQuery.run]
  split
  · exact ensures_pure remembered_nil
  · split
    · exact ensures_pure remembered_nil
    · exact ensures_bind fun hits => ensures_bind fun prefetched =>
        ensures_bind fun results => ensures_revalidate results

end LastRead

section VectorQueries

variable {fullText : FullText} {shared : ℕ → SearchStore rules} {start : ℕ}
  (query : VectorQuery)

theorem runAt_confirm {revalidated : List SourceItem} (hits : List ResolvedHit) (clock : ℕ) :
    ∃ results, (query.confirm rules (sharedReads fullText shared) revalidated hits).runAt clock =
        (some results, clock) ∧
      ∀ item score, .sourceHit item score ∈ results →
        item.forgottenAt.isNone ∧ ∃ sourceItemId, lookup revalidated sourceItemId = some item := by
  induction hits with
  | nil => exact ⟨[], rfl, fun _ _ hmem => absurd hmem List.not_mem_nil⟩
  | cons hit rest ih =>
    obtain ⟨results, hrest, hresults⟩ := ih
    rw [VectorQuery.confirm]
    cases hlookup : lookup revalidated hit.entry.targetId with
    | none => exact ⟨results, hrest, hresults⟩
    | some item =>
      dsimp only
      have hknown : (knownSourceItem revalidated hit.entry.targetId : Clocked SourceItem) =
          pure item := by
        rw [knownSourceItem, hlookup]
      have hadmits : ∃ admitted, (query.admits rules (sharedReads fullText shared)
          (knownSourceItem revalidated) .sourceItem hit.entry.targetId).runAt clock =
            (some admitted, clock) := by
        rw [VectorQuery.admits, matchesFilters, targetVisibilityAndContainer, hknown]
        simp only [pure_bind]
        split
        · exact ⟨_, rfl⟩
        · rw [pure_bind]
          split
          · exact ⟨_, rfl⟩
          · exact ⟨_, rfl⟩
      split
      · exact ⟨results, hrest, hresults⟩
      · next hremembered =>
          obtain ⟨admitted, hadmitted⟩ := hadmits
          rw [runAt_bind_some hadmitted]
          cases admitted with
          | false => exact ⟨results, hrest, hresults⟩
          | true =>
            rw [if_pos rfl, runAt_bind_some hrest]
            refine ⟨_, rfl, ?_⟩
            intro other score hmem
            rcases List.mem_cons.mp hmem with hsame | hother
            · obtain ⟨rfl, -⟩ := QueryResultItem.sourceHit.inj hsame
              rw [Bool.not_eq_true, Option.isSome_eq_false_iff] at hremembered
              exact ⟨hremembered, _, hlookup⟩
            · exact hresults other score hother

theorem VectorQuery.ensures_run (answers : Option VectorAnswers) :
    Ensures (query.run rules (sharedReads fullText shared) answers) (Remembered shared) := by
  unfold VectorQuery.run
  split
  · exact ensures_pure remembered_nil
  · split
    · exact ensures_pure remembered_nil
    · cases answers with
      | none => exact ensures_pure remembered_nil
      | some answers =>
        refine ensures_bind fun progress => ?_
        split
        · intro clock results readCount hrun
          let sourceItemIds := progress.pending.map fun hit => hit.entry.targetId
          let revalidated := (shared clock).memory.sourceItems.rows.filter fun item =>
            decide (item.id ∈ sourceItemIds)
          have hread : ((sharedReads fullText shared).getSourceItems sourceItemIds).runAt clock =
              (some revalidated, clock + 1) := rfl
          obtain ⟨confirmed, hconfirm, hconfirmed⟩ := @runAt_confirm rules fullText shared query
            revalidated progress.pending (clock + 1)
          rw [runAt_bind_some hread, hconfirm] at hrun
          obtain ⟨hsame, rfl⟩ := Prod.mk.inj hrun
          cases hsame
          intro item score hmem
          obtain ⟨hremembered, sourceItemId, hlookup⟩ := hconfirmed item score hmem
          have hfound := List.find?_some hlookup
          have hid : item.id = sourceItemId := eq_of_beq hfound
          rw [← hid] at hlookup
          exact ⟨clock, rfl, isGone_of_lookup hlookup hremembered⟩
        · exact ensures_revalidate progress.results

/-- An entry of the vector index for a memory that the query may take in. -/
structure VectorQuery.Finds (query : VectorQuery) (answers : VectorAnswers)
    (entry : IndexEntryRecord) : Prop where
  memory : entry.targetKind = .memoryObject
  asked : query.targetKind.all (entry.targetKind == ·)
  similar : ∃ hit ∈ answers.batches.flatten, hit.entryId = entry.id ∧
    query.minSimilarity ≤ hit.similarity

/-- The memories that the query finds are there from then on. -/
def VectorQuery.Keeps (query : VectorQuery) (answers : VectorAnswers)
    (shared : ℕ → SearchStore rules) : Prop :=
  ∀ moment, ∀ entry ∈ (shared moment).memory.index.entries.rows, query.Finds answers entry →
    ∀ later, moment ≤ later → ((shared later).memory.memories.get entry.targetId).isSome

/-- The memories of a batch that the walk looks at are there from a moment on. -/
def KeepsBatch (shared : ℕ → SearchStore rules) (query : VectorQuery) (batch : ResolvedBatch)
    (start : ℕ) (hits : List ResolvedHit) : Prop :=
  ∀ hit ∈ hits, query.passesOver batch hit = false → hit.entry.targetKind = .memoryObject →
    ∀ moment, start ≤ moment → ((shared moment).memory.memories.get hit.entry.targetId).isSome

variable {query}

theorem readable_of_taken {batch : ResolvedBatch} {hit : ResolvedHit}
    (htaken : query.passesOver batch hit = false)
    (hmemory : hit.entry.targetKind = .memoryObject → ∀ moment, start ≤ moment →
      ((shared moment).memory.memories.get hit.entry.targetId).isSome) :
    Readable start shared (knownSourceItem batch.sourceItems) hit.entry.targetKind
      hit.entry.targetId := by
  cases hkind : hit.entry.targetKind with
  | memoryObject => exact hmemory hkind
  | sourceItem =>
    rw [VectorQuery.passesOver, Bool.or_eq_false_iff, Bool.or_eq_false_iff] at htaken
    have hknown := htaken.1.2
    rw [hkind, beq_self_eq_true, Bool.true_and, Option.isNone_eq_false_iff] at hknown
    obtain ⟨item, hitem⟩ := Option.isSome_iff_exists.mp hknown
    change Succeeds start (knownSourceItem _ _)
    rw [knownSourceItem, hitem]
    exact succeeds_pure item

theorem forward_knownSourceItem (sourceItems : List SourceItem) (sourceItemId : String) :
    Forward (knownSourceItem sourceItems sourceItemId) := by
  unfold knownSourceItem
  split
  · exact forward_pure _
  · exact forward_throw

variable (query)

theorem succeeds_takeIn (batch : ResolvedBatch) (progress : VectorProgress) (hit : ResolvedHit) :
    Succeeds start (query.takeIn (sharedReads fullText shared) batch progress hit) := by
  unfold VectorQuery.takeIn
  split
  · exact (succeeds_tryCatch (forward_getMemoryObject _ _) (succeeds_pure none)).bind
      fun item => succeeds_pure _
  · split
    · exact succeeds_pure _
    · exact (succeeds_tryCatch ((forward_knownSourceItem _ _).bind fun _ => forward_pure _)
        (succeeds_pure none)).bind fun item => succeeds_pure _

theorem succeeds_scanHits {batch : ResolvedBatch} {hits : List ResolvedHit}
    (hkeeps : KeepsBatch shared query batch start hits) (progress : VectorProgress) :
    Succeeds start
      (query.scanHits rules (sharedReads fullText shared) batch hits progress) := by
  induction hits generalizing progress with
  | nil => exact succeeds_pure progress
  | cons hit rest ih =>
    rw [KeepsBatch, List.forall_mem_cons] at hkeeps
    rw [VectorQuery.scanHits]
    split
    · exact ih hkeeps.2 progress
    · next htaken =>
        rw [Bool.not_eq_true] at htaken
        have hreadable := readable_of_taken htaken (hkeeps.1 htaken)
        have hadmits : Succeeds start (query.admits rules (sharedReads fullText shared)
            (knownSourceItem batch.sourceItems) hit.entry.targetKind hit.entry.targetId) := by
          refine (succeeds_matchesFilters hreadable query.filters).bind fun matched => ?_
          split
          · exact (succeeds_targetVisibilityAndContainer hreadable).bind
              fun scope => succeeds_pure _
          · exact succeeds_pure false
        refine hadmits.bind fun admitted => ?_
        split
        · split
          · exact ih hkeeps.2 progress
          · refine (succeeds_takeIn query batch _ hit).bind fun taken => ?_
            split
            · exact succeeds_pure taken
            · exact ih hkeeps.2 taken
        · exact ih hkeeps.2 progress

theorem succeeds_scanBatches {resolve : List VectorHit → Clocked ResolvedBatch}
    {batches : List (List VectorHit)}
    (hresolve : ∀ hits ∈ batches, ∀ start, Yields start (resolve hits) fun batch later =>
      KeepsBatch shared query batch later batch.hits) (progress : VectorProgress) :
    Succeeds start
      (query.scanBatches rules (sharedReads fullText shared) resolve batches progress) := by
  induction batches generalizing progress start with
  | nil => exact succeeds_pure progress
  | cons hits rest ih =>
    rw [List.forall_mem_cons] at hresolve
    rw [VectorQuery.scanBatches]
    refine (hresolve.1 start).bind fun batch middle _ hbatch => ?_
    refine (succeeds_scanHits query hbatch progress).bind fun after => ?_
    split
    · exact succeeds_pure after
    · exact ih hresolve.2 after

theorem keepsBatch_of_sourceOnly (hsource : query.sourceOnly) (batch : ResolvedBatch)
    (hits : List ResolvedHit) : KeepsBatch shared query batch start hits := by
  intro hit _ htaken hmemory
  rw [VectorQuery.passesOver, eq_of_beq hsource, hmemory] at htaken
  cases htaken

/-- A hit that was resolved by an entry of the index, read at some moment until now. -/
def ResolvedFrom (shared : ℕ → SearchStore rules) (hits : List VectorHit) (now : ℕ)
    (hit : ResolvedHit) : Prop :=
  (∃ moment ≤ now, hit.entry ∈ (shared moment).memory.index.entries.rows) ∧
    ⟨hit.entry.id, hit.similarity⟩ ∈ hits

theorem ResolvedFrom.mono {hits wider : List VectorHit} {now later : ℕ} {hit : ResolvedHit}
    (hresolved : ResolvedFrom shared hits now hit) (hlater : now ≤ later)
    (hwider : hits ⊆ wider) : ResolvedFrom shared wider later hit := by
  obtain ⟨⟨moment, hmoment, hentry⟩, hraw⟩ := hresolved
  exact ⟨⟨moment, hmoment.trans hlater, hentry⟩, hwider hraw⟩

theorem yields_getIndexEntry (hit : VectorHit) :
    Yields start
      (tryCatchThe Unit (do
        let entry ← (sharedReads fullText shared).getIndexEntry hit.entryId
        return some entry) fun _ => return none)
      fun entry now => ∀ found, entry = some found → found.id = hit.entryId ∧
        ∃ moment ≤ now, found ∈ (shared moment).memory.index.entries.rows := by
  refine yields_tryCatch ((forward_readAt _).bind fun _ => forward_pure _) ?_
    (yields_pure fun _ _ _ hnone => by cases hnone)
  intro clock entry now hrun found hfound
  rw [runAt_bind] at hrun
  cases hread : (shared clock).memory.index.entries.get hit.entryId with
  | none =>
    have hraises : ((sharedReads fullText shared).getIndexEntry hit.entryId).runAt clock =
        (none, clock + 1) := Prod.ext hread rfl
    rw [hraises] at hrun
    cases hrun
  | some other =>
    have hreads : ((sharedReads fullText shared).getIndexEntry hit.entryId).runAt clock =
        (some other, clock + 1) := Prod.ext hread rfl
    rw [hreads] at hrun
    obtain ⟨hsame, rfl⟩ := Prod.mk.inj hrun
    obtain rfl := Option.some.inj (Option.some.inj hsame |>.trans hfound)
    exact ⟨Table.key_of_get hread, clock, Nat.le_succ clock, Table.mem_of_get hread⟩

theorem yields_resolvedEntry {resolving : Clocked (List ResolvedHit)} {hit : VectorHit}
    {rest : List VectorHit}
    (hrest : Yields start resolving fun resolved now =>
      ∀ other ∈ resolved, ResolvedFrom shared rest now other)
    (entry : Option IndexEntryRecord)
    (hfound : ∀ found, entry = some found → found.id = hit.entryId ∧
      ∃ moment ≤ start, found ∈ (shared moment).memory.index.entries.rows) :
    Yields start (do
        let others ← resolving
        match entry with
        | none => return others
        | some entry => return ⟨entry, hit.similarity⟩ :: others)
      fun resolved now => ∀ other ∈ resolved, ResolvedFrom shared (hit :: rest) now other := by
  refine hrest.bind fun resolved last hlast hresolved => ?_
  have hothers : ∀ clock, last ≤ clock → ∀ other ∈ resolved,
      ResolvedFrom shared (hit :: rest) clock other :=
    fun clock hclock other hother =>
      (hresolved other hother).mono hclock (List.subset_cons_self hit rest)
  cases entry with
  | none => exact yields_pure hothers
  | some entry =>
    refine yields_pure fun clock hclock other hother => ?_
    rcases List.mem_cons.mp hother with rfl | hrested
    · obtain ⟨hid, moment, hmoment, hmem⟩ := hfound entry rfl
      refine ⟨⟨moment, hmoment.trans (hlast.trans hclock), hmem⟩, ?_⟩
      rw [hid]
      exact List.mem_cons_self
    · exact hothers clock hclock other hrested

theorem yields_resolveEntries {known : List IndexEntryRecord}
    (hknown : ∀ entry ∈ known, ∃ moment ≤ start,
      entry ∈ (shared moment).memory.index.entries.rows) (hits : List VectorHit) :
    Yields start (VectorQuery.resolveEntries (sharedReads fullText shared) known hits)
      fun resolved now => ∀ hit ∈ resolved, ResolvedFrom shared hits now hit := by
  induction hits generalizing start with
  | nil => exact yields_pure fun _ _ _ hmem => absurd hmem List.not_mem_nil
  | cons hit rest ih =>
    rw [VectorQuery.resolveEntries]
    have hlater : ∀ middle, start ≤ middle → ∀ entry ∈ known, ∃ moment ≤ middle,
        entry ∈ (shared moment).memory.index.entries.rows := by
      intro middle hmiddle entry hmem
      obtain ⟨moment, hmoment, hrow⟩ := hknown entry hmem
      exact ⟨moment, hmoment.trans hmiddle, hrow⟩
    cases hfind : known.find? fun entry => entry.id == hit.entryId with
    | none =>
      exact (yields_getIndexEntry hit).bind fun entry middle hmiddle =>
        yields_resolvedEntry (ih (hlater middle hmiddle)) entry
    | some entry =>
      refine Yields.bind (yields_pure fun clock hclock found hfound => ?_)
        fun entry middle hmiddle => yields_resolvedEntry (ih (hlater middle hmiddle)) entry
      cases hfound
      have hid := List.find?_some hfind
      obtain ⟨moment, hmoment, hmem⟩ := hknown entry (List.mem_of_find?_eq_some hfind)
      exact ⟨eq_of_beq hid, moment, hmoment.trans hclock, hmem⟩

theorem yields_resolveTargets {answers : VectorAnswers} (hkeeps : query.Keeps answers shared)
    {hits : List VectorHit} (hhits : hits ∈ answers.batches) :
    Yields start (query.resolveTargets (sharedReads fullText shared) hits) fun batch later =>
      KeepsBatch shared query batch later batch.hits := by
  have hbatch : ∀ (known : List IndexEntryRecord) (middle : ℕ),
      (∀ entry ∈ known, ∃ moment ≤ middle,
        entry ∈ (shared moment).memory.index.entries.rows) →
      Yields middle (do
          let resolved ← VectorQuery.resolveEntries (sharedReads fullText shared) known hits
          let sourceItems ← prefetch (sharedReads fullText shared).toReads
            ((resolved.filter fun hit => hit.entry.targetKind == .sourceItem &&
              !query.belowFloor hit.similarity).map fun hit => hit.entry.targetId)
          return {
            hits := resolved
            sourceItems := sourceItems
            matchingBelowFloor := resolved.any fun hit =>
              query.targetKind == some hit.entry.targetKind && query.belowFloor hit.similarity })
        fun batch later => KeepsBatch shared query batch later batch.hits := by
    intro known middle hknown
    refine (yields_resolveEntries hknown hits).bind fun resolved last _ hresolved => ?_
    refine (succeeds_prefetch _).bind fun sourceItems => ?_
    refine yields_pure fun clock hclock hit hhit htaken hmemory moment hmoment => ?_
    obtain ⟨⟨earlier, hearlier, hentry⟩, hraw⟩ := hresolved hit hhit
    have hfinds : query.Finds answers hit.entry := by
      rw [VectorQuery.passesOver, Bool.or_eq_false_iff, Bool.or_eq_false_iff] at htaken
      refine ⟨hmemory, ?_, _, List.mem_flatten.mpr ⟨hits, hhits, hraw⟩, rfl, ?_⟩
      · cases hkind : query.targetKind with
        | none => rfl
        | some targetKind =>
          have hsame := htaken.1.1
          rw [hkind, Option.any_some, bne_eq_false_iff_eq] at hsame
          exact beq_iff_eq.mpr hsame
      · exact not_lt.mp (of_decide_eq_false htaken.2)
    exact hkeeps earlier hit.entry hentry hfinds moment
      (hearlier.trans (hclock.trans hmoment))
  unfold VectorQuery.resolveTargets
  cases hits with
  | nil => exact hbatch [] start fun _ hmem => absurd hmem List.not_mem_nil
  | cons first rest =>
    have hread : Yields start ((sharedReads fullText shared).getIndexEntries
        ((first :: rest).map VectorHit.entryId)) fun known later =>
          ∀ entry ∈ known, ∃ moment ≤ later,
            entry ∈ (shared moment).memory.index.entries.rows := by
      refine yields_readAt fun clock _ => ⟨_, rfl, fun entry hmem => ?_⟩
      exact ⟨clock, Nat.le_succ clock, (List.mem_filter.mp hmem).1⟩
    exact hread.bind fun known middle _ => hbatch known middle

theorem succeeds_readProjections (chunks : List (List String)) :
    Succeeds start (VectorQuery.readProjections (sharedReads fullText shared) chunks) := by
  induction chunks with
  | nil => exact succeeds_pure []
  | cons chunk rest ih =>
    have hread : Succeeds start
        ((sharedReads fullText shared).getSourceItemProjections chunk) :=
      succeeds_readAt fun _ _ => rfl
    exact hread.bind fun found => ih.bind fun others => succeeds_pure _

theorem VectorQuery.returns_of_keeps {answers : Option VectorAnswers}
    (hkeeps : ∀ known, answers = some known → query.Keeps known shared) :
    Returns (query.run rules (sharedReads fullText shared) answers) := by
  unfold VectorQuery.run
  split
  · exact ⟨[], 0, rfl⟩
  · split
    · exact ⟨[], 0, rfl⟩
    · cases answers with
      | none => exact ⟨[], 0, rfl⟩
      | some answers =>
        have hscan : Succeeds 0 (query.scan rules (sharedReads fullText shared) answers) := by
          unfold VectorQuery.scan
          split
          · next hfast =>
              have hsource : query.sourceOnly := by
                rw [VectorQuery.isFast, Bool.and_eq_true, Bool.and_eq_true] at hfast
                exact hfast.1.1
              have hread : Succeeds 0 ((sharedReads fullText shared).getSourceItemVectorCandidates
                  (askedWorkRefs query.filters)) :=
                succeeds_readAt fun _ _ => rfl
              refine hread.bind fun candidates => ?_
              exact succeeds_scanBatches query (fun hits _ start => yields_pure fun clock _ =>
                keepsBatch_of_sourceOnly query hsource _ _) _
          · apply succeeds_scanBatches
            intro hits hhits start
            split
            · next hsource =>
                exact (succeeds_readProjections _).bind fun projections =>
                  yields_pure fun clock _ => keepsBatch_of_sourceOnly query hsource _ _
            · exact yields_resolveTargets query (hkeeps answers rfl) hhits
        have hrun : Succeeds 0 (do
            let progress ← query.scan rules (sharedReads fullText shared) answers
            if query.sourceOnly && !progress.pending.isEmpty then do
              let revalidated ← (sharedReads fullText shared).getSourceItems
                (progress.pending.map fun hit => hit.entry.targetId)
              query.confirm rules (sharedReads fullText shared) revalidated progress.pending
            else revalidate (sharedReads fullText shared).toReads progress.results) := by
          refine hscan.bind fun progress => ?_
          split
          · have hread : Succeeds 0 ((sharedReads fullText shared).getSourceItems
                (progress.pending.map fun hit => hit.entry.targetId)) :=
              succeeds_readAt fun _ _ => rfl
            refine hread.bind fun revalidated clock _ => ?_
            obtain ⟨results, hresults, -⟩ := runAt_confirm query progress.pending clock
            exact ⟨results, clock, hresults, le_refl clock, trivial⟩
          · exact succeeds_revalidate progress.results
        obtain ⟨results, readCount, hreturns, -, -⟩ := hrun 0 (le_refl 0)
        exact ⟨results, readCount, hreturns⟩

end VectorQueries

section Deletion

variable {fullText : FullText}

/-- A store without rows. -/
def SearchStore.none (rules : WorkRefRules) : SearchStore rules where
  memory := ⟨Table.empty, [], Memory.MemoryIndex.empty, Table.empty, [], []⟩
  workRefs := []
  occurredAt _ := Option.none
  memory_indexed := fun _ hmem => absurd hmem List.not_mem_nil
  source_indexed := fun _ hmem => absurd hmem List.not_mem_nil
  synced := fun _ hmem => absurd hmem List.not_mem_nil

/-- After the first read of a query every row is deleted. -/
def deletedAfterFirst (store : SearchStore rules) : ℕ → SearchStore rules
  | 0 => store
  | _ + 1 => SearchStore.none rules

theorem interleaving_deletedAfterFirst (store : SearchStore rules) :
    Interleaving store (deletedAfterFirst store) := by
  refine ⟨rfl, fun moment => ?_⟩
  cases moment with
  | zero =>
    apply Relation.ReflTransGen.single
    refine Commit.deletes (store.memory.sourceItems.rows.map SourceItem.id)
      (store.memory.memories.rows.map MemoryObjectRecord.id) (Table.eq_of_rows ?_)
      (Table.eq_of_rows ?_)
    · symm
      apply List.filter_eq_nil_iff.mpr
      intro item hitem hkept
      rw [Bool.not_eq_true'] at hkept
      exact of_decide_eq_false hkept (List.mem_map_of_mem hitem)
    · symm
      apply List.filter_eq_nil_iff.mpr
      intro record hrecord hkept
      rw [Bool.not_eq_true'] at hkept
      exact of_decide_eq_false hkept (List.mem_map_of_mem hrecord)
  | succ moment => exact Relation.ReflTransGen.refl

theorem runAt_prefetch_deleted (store : SearchStore rules) (sourceItemIds : List String)
    (moment : ℕ) :
    ∃ later, (prefetch (sharedReads fullText (deletedAfterFirst store)).toReads
      sourceItemIds).runAt (moment + 1) = (some [], later + 1) := by
  unfold prefetch
  split
  · exact ⟨moment, rfl⟩
  · exact ⟨moment + 1, rfl⟩

theorem raises_admits (store : SearchStore rules) (search : IndexSearch) (found : FtsMatch)
    (moment : ℕ) :
    ((search.admits rules (sharedReads fullText (deletedAfterFirst store)).toReads
      (readSourceItem (sharedReads fullText (deletedAfterFirst store)).toReads []) found).runAt
        (moment + 1)).1 = Option.none := by
  obtain ⟨indexEntryId, targetKind, targetId, bm25⟩ := found
  unfold IndexSearch.admits
  apply raises_bind
  cases targetKind with
  | memoryObject => exact raises_bind rfl _
  | sourceItem => exact raises_bind rfl _

theorem nonpositive_of_found {store : SearchStore rules} {query : LexicalQuery} {found : FtsMatch}
    (hfound : found ∈ query.found fullText store) : found.bm25 ≤ 0 := by
  unfold LexicalQuery.found at hfound
  split at hfound
  · exact absurd hfound List.not_mem_nil
  · split at hfound
    · exact absurd hfound List.not_mem_nil
    · split at hfound
      · exact (sound_of_exactRows hfound).nonpositive
      · exact (sound_of_matching
          (List.mem_filter.mp (List.mem_mergeSort.mp (List.mem_of_mem_take hfound))).1).nonpositive

theorem not_returns_deleted {store : SearchStore rules} {query : LexicalQuery}
    (hfound : query.found fullText store ≠ []) :
    ¬ Returns (query.run rules (sharedReads fullText (deletedAfterFirst store)).toReads) := by
  have hopen : query.failsClosed = false := by
    rw [← Bool.not_eq_true]
    intro hclosed
    exact hfound (if_pos hclosed)
  have hasks : (query.tokens.isEmpty &&
      (!query.isBlank || !exactSourceWorkQuery query.filters query.targetKind)) = false := by
    rw [← Bool.not_eq_true]
    intro hnothing
    rw [LexicalQuery.found, hopen, if_neg Bool.false_ne_true, if_pos hnothing] at hfound
    exact hfound rfl
  obtain ⟨pages, hpages, hflatten, hfull⟩ := runAt_pages fullText
    (interleaving_deletedAfterFirst store).starts hopen hasks
  have hproceeds : (query.search.tokens.isEmpty && !query.search.isStructural) = false := by
    change (query.tokens.isEmpty &&
      !(exactSourceWorkQuery query.filters query.targetKind && query.tokens.isEmpty)) = false
    revert hasks
    cases query.tokens.isEmpty with
    | false => exact fun _ => rfl
    | true =>
      cases exactSourceWorkQuery query.filters query.targetKind with
      | false => rw [Bool.not_false, Bool.or_true]; exact id
      | true => exact fun _ => rfl
  have hlimit : 0 < query.search.limit := by
    have hpositive := query.limit_pos
    change 0 < if _ then query.limit else query.limit * 4
    split
    · exact hpositive
    · exact Nat.mul_pos hpositive (by decide)
  have hscan : ((query.search.scanPages rules
      (sharedReads fullText (deletedAfterFirst store)).toReads pages [] []).runAt 1).1 =
        Option.none := by
    cases pages with
    | nil => exact absurd hflatten.symm hfound
    | cons rows rest =>
      cases rows with
      | nil => exact absurd List.mem_cons_self hfull
      | cons found others =>
        have hmem : found ∈ query.found fullText store := by
          rw [← hflatten]
          exact List.mem_cons_self
        have hfloor : (!query.search.isStructural && decide (-found.bm25 < 0)) = false := by
          rw [decide_eq_false (not_lt.mpr (neg_nonneg.mpr (nonpositive_of_found hmem))),
            Bool.and_false]
        have hroom : ¬ query.search.limit ≤ ([] : List FtsMatch).length :=
          Nat.not_le.mpr hlimit
        rw [IndexSearch.scanPages, if_neg hroom]
        obtain ⟨later, hprefetched⟩ := @runAt_prefetch_deleted _ fullText store
          (((found :: others).filter fun found => found.targetKind == .sourceItem).map
            FtsMatch.targetId) 0
        rw [runAt_bind_some hprefetched]
        apply raises_bind
        rw [IndexSearch.scanRows, decide_eq_false List.not_mem_nil, Bool.and_false,
          if_neg Bool.false_ne_true]
        dsimp only
        rw [hfloor, if_neg Bool.false_ne_true]
        exact raises_bind (raises_admits store query.search found later) _
  rintro ⟨results, readCount, hrun⟩
  have hraises : ((query.run rules
      (sharedReads fullText (deletedAfterFirst store)).toReads).runAt 0).1 = Option.none := by
    rw [LexicalQuery.run, hopen, hasks, if_neg Bool.false_ne_true, if_neg Bool.false_ne_true]
    apply raises_bind
    rw [IndexSearch.run, hproceeds, if_neg Bool.false_ne_true, runAt_bind_some hpages]
    exact raises_bind hscan _
  rw [hrun] at hraises
  cases hraises

end Deletion

section Tolerance

variable (fullText : FullText)

end Tolerance

end Pallium.Search
