import Pallium.Core.Ranking
import Pallium.Search.Lexical

/-!
# What a lexical query returns when nothing changes

With every read from the same store a query raises nothing, and its results are the
leaders of the rows that it looked at.  A query with exact filters looks at all rows.
Any other query looks at four rows for each result, so its results lead all rows
exactly if enough targets own one of these.
-/

namespace Pallium.Search

open Pallium.Access
open Pallium.Memory (MemoryStore MemoryObjectRecord LexicalRow TargetKind Requester)
open Pallium.Ingest (SourceItem SourceItemWorkRef)
open Pallium.Ranking

variable {rules : WorkRefRules} {fullText : FullText} {store : SearchStore rules}

namespace SearchStore

/-- The reads of a store that does not change. -/
def reads (fullText : FullText) (store : SearchStore rules) : Reads Option where
  exactRows tokens filters := some (store.exactRows fullText tokens filters)
  topRows tokens targetKind limit := some (store.topRows fullText tokens targetKind limit)
  getSourceItems sourceItemIds :=
    some (store.memory.sourceItems.rows.filter fun item => decide (item.id ∈ sourceItemIds))
  getSourceItem sourceItemId := store.memory.sourceItems.get sourceItemId
  getMemoryObject memoryObjectId := store.memory.memories.get memoryObjectId
  getEvidenceForMemoryObject memoryObjectId := some (store.memory.evidence memoryObjectId)

/-- Whether a target is filtered in and visible. -/
def admits (store : SearchStore rules) (filters : Option QueryFilters) (requester : Requester)
    (target : TargetKind × String) : Bool :=
  match target.1 with
  | .memoryObject =>
    (store.memory.memories.get target.2).any fun record =>
      store.memory.matchesFilters record filters &&
        requester.sees record.decodedVisibility record.anyContainerRef record.actorRef
  | .sourceItem =>
    (store.memory.sourceItems.get target.2).any fun item =>
      item.forgottenAt.isNone && filters.all (sourceItemMatchesFilters rules item) &&
        requester.sees (item.visibility.getD .priv) item.containerRef item.actorRef

/-- Whether the row of a target is there. -/
def holds (store : SearchStore rules) (target : TargetKind × String) : Bool :=
  match target.1 with
  | .memoryObject => (store.memory.memories.get target.2).isSome
  | .sourceItem => (store.memory.sourceItems.get target.2).isSome

end SearchStore

section Reading

theorem readSourceItem_eq {sourceItemIds : List String} {prefetched : List SourceItem}
    (hprefetched : prefetch (store.reads fullText) sourceItemIds = some prefetched)
    (sourceItemId : String) :
    readSourceItem (store.reads fullText) prefetched sourceItemId =
      store.memory.sourceItems.get sourceItemId := by
  unfold readSourceItem
  cases hlookup : lookup prefetched sourceItemId with
  | none => rfl
  | some item =>
    have hmem : item ∈ prefetched := List.mem_of_find?_eq_some hlookup
    have hfound := List.find?_some hlookup
    have hid : item.id = sourceItemId := eq_of_beq hfound
    unfold prefetch at hprefetched
    split at hprefetched
    · cases hprefetched
      exact absurd hmem List.not_mem_nil
    · cases hprefetched
      have hget := Table.get_of_mem (List.mem_filter.mp hmem).1
      rw [← hid]
      exact hget.symm

theorem lookup_of_get {sourceItemIds : List String} {item : SourceItem}
    (hget : store.memory.sourceItems.get item.id = some item) (hid : item.id ∈ sourceItemIds) :
    lookup (store.memory.sourceItems.rows.filter fun item => decide (item.id ∈ sourceItemIds))
      item.id = some item := by
  cases hlookup : lookup (store.memory.sourceItems.rows.filter fun item =>
      decide (item.id ∈ sourceItemIds)) item.id with
  | none =>
    have hitem := List.find?_eq_none.mp hlookup item
      (List.mem_filter.mpr ⟨Table.mem_of_get hget, decide_eq_true hid⟩)
    exact absurd (beq_self_eq_true item.id) hitem
  | some found =>
    have hmem := (List.mem_filter.mp (List.mem_of_find?_eq_some hlookup)).1
    have hfound := List.find?_some hlookup
    have hsame : found.id = item.id := eq_of_beq hfound
    have hother : store.memory.sourceItems.get found.id = some found := Table.get_of_mem hmem
    rw [hsame, hget] at hother
    exact hother.symm

theorem evidenceMatches_eq (record : MemoryObjectRecord) (filters : QueryFilters) :
    store.memory.matchesFilters record (some filters) =
      (record.lifecycle == .active && !record.isSoftDeleted &&
        Memory.agreesIfKnown filters.actorRef record.actorRef &&
          evidenceMatches record (store.memory.evidence record.id) filters) := rfl

variable (fullText) in
theorem admits_eq (search : IndexSearch) {getSourceItem : String → Option SourceItem}
    (hget : ∀ sourceItemId, getSourceItem sourceItemId = store.memory.sourceItems.get sourceItemId)
    {found : FtsMatch} (hholds : store.holds found.target) :
    search.admits rules (store.reads fullText) getSourceItem found =
      some (store.admits search.filters search.requester found.target) := by
  obtain ⟨indexEntryId, targetKind, targetId, bm25⟩ := found
  cases targetKind with
  | sourceItem =>
    obtain ⟨item, hitem⟩ := Option.isSome_iff_exists.mp hholds
    simp only [FtsMatch.target] at hitem
    have hfilters : matchesFilters rules (store.reads fullText) getSourceItem .sourceItem
        targetId search.filters =
          some (item.forgottenAt.isNone &&
            search.filters.all (sourceItemMatchesFilters rules item)) := by
      simp only [matchesFilters, hget, hitem, Option.bind_eq_bind, Option.bind_some]
      cases item.forgottenAt with
      | none => rfl
      | some forgottenAt => rfl
    have hscope : targetVisibilityAndContainer (store.reads fullText) getSourceItem .sourceItem
        targetId = some (item.visibility.getD .priv, item.containerRef, item.actorRef) := by
      simp only [targetVisibilityAndContainer, hget, hitem, Option.bind_eq_bind,
        Option.bind_some]
      rfl
    have hadmits : store.admits search.filters search.requester (.sourceItem, targetId) =
        (item.forgottenAt.isNone && search.filters.all (sourceItemMatchesFilters rules item) &&
          search.requester.sees (item.visibility.getD .priv) item.containerRef
            item.actorRef) := by
      simp only [SearchStore.admits, hitem, Option.any_some]
    simp only [IndexSearch.admits, hfilters, hscope, FtsMatch.target, hadmits,
      Option.bind_eq_bind, Option.bind_some]
    cases item.forgottenAt.isNone && search.filters.all (sourceItemMatchesFilters rules item) with
    | false => rfl
    | true => rfl
  | memoryObject =>
    obtain ⟨record, hrecord⟩ := Option.isSome_iff_exists.mp hholds
    simp only [FtsMatch.target] at hrecord
    have hid : record.id = targetId := Table.key_of_get hrecord
    have hread : (store.reads fullText).getMemoryObject targetId = some record := hrecord
    have hfilters : matchesFilters rules (store.reads fullText) getSourceItem .memoryObject
        targetId search.filters = some (store.memory.matchesFilters record search.filters) := by
      simp only [matchesFilters, hread, Option.bind_eq_bind, Option.bind_some]
      by_cases hlive : record.lifecycle = .active ∧ record.isSoftDeleted = false
      · cases search.filters with
        | none => simp [hlive.1, hlive.2, MemoryStore.matchesFilters]
        | some filters =>
          rw [evidenceMatches_eq, hid]
          have hevidence : (store.reads fullText).getEvidenceForMemoryObject targetId =
              some (store.memory.evidence targetId) := rfl
          cases hactor : Memory.agreesIfKnown filters.actorRef record.actorRef with
          | false => simp [hlive.1, hlive.2, hactor]
          | true => simp [hlive.1, hlive.2, hactor, hevidence]
      · have hdead : (record.lifecycle != .active || record.isSoftDeleted) = true := by
          rw [Bool.or_eq_true, bne_iff_ne]
          by_contra hboth
          rw [not_or, not_not, Bool.not_eq_true] at hboth
          exact hlive hboth
        have hrefused : store.memory.matchesFilters record search.filters = false := by
          have hboth : (record.lifecycle == .active && !record.isSoftDeleted) = false := by
            rw [← Bool.not_eq_true, Bool.and_eq_true, beq_iff_eq, Bool.not_eq_true']
            exact hlive
          cases search.filters with
          | none => exact hboth
          | some filters => rw [evidenceMatches_eq, hboth, Bool.false_and, Bool.false_and]
        rw [if_pos hdead, hrefused]
        rfl
    have hscope : targetVisibilityAndContainer (store.reads fullText) getSourceItem .memoryObject
        targetId =
          some (record.decodedVisibility, record.anyContainerRef, record.actorRef) := by
      simp only [targetVisibilityAndContainer, hread, Option.bind_eq_bind, Option.bind_some]
      rfl
    have hadmits : store.admits search.filters search.requester (.memoryObject, targetId) =
        (store.memory.matchesFilters record search.filters &&
          search.requester.sees record.decodedVisibility record.anyContainerRef
            record.actorRef) := by
      simp only [SearchStore.admits, hrecord, Option.any_some]
    simp only [IndexSearch.admits, hfilters, hscope, FtsMatch.target, hadmits,
      Option.bind_eq_bind, Option.bind_some]
    cases store.memory.matchesFilters record search.filters with
    | false => rfl
    | true => rfl

end Reading

section Scan

variable (search : IndexSearch)

/-- The targets that a search admits. -/
def admitted (store : SearchStore rules) (rows : List FtsMatch) : List FtsMatch :=
  rows.filter fun found => store.admits search.filters search.requester found.target

/-- A row whose target is there, with a score of the index. -/
structure Sound (store : SearchStore rules) (found : FtsMatch) : Prop where
  holds : store.holds found.target
  nonpositive : found.bm25 ≤ 0

theorem Sound.above_floor {found : FtsMatch} (hsound : Sound store found) :
    (!search.isStructural && decide (-found.bm25 < 0)) = false := by
  rw [decide_eq_false (not_lt.mpr (neg_nonneg.mpr hsound.nonpositive)), Bool.and_false]

theorem admitted_nil : admitted search store [] = [] := rfl

theorem admitted_cons (found : FtsMatch) (rows : List FtsMatch) :
    admitted search store (found :: rows) =
      if store.admits search.filters search.requester found.target then
        found :: admitted search store rows
      else admitted search store rows :=
  List.filter_cons

theorem admitted_append (rows others : List FtsMatch) :
    admitted search store (rows ++ others) =
      admitted search store rows ++ admitted search store others :=
  List.filter_append ..

/-- The rows of a walk that are looked at: with exact filters the first of each target. -/
def candidates (seen : List (TargetKind × String)) (rows : List FtsMatch) : List FtsMatch :=
  if search.isExact then firsts FtsMatch.target seen rows else rows

def seenAfter (found : FtsMatch) (seen : List (TargetKind × String)) :
    List (TargetKind × String) :=
  if search.isExact then found.target :: seen else seen

theorem candidates_cons (seen : List (TargetKind × String)) (found : FtsMatch)
    (rows : List FtsMatch) :
    candidates search seen (found :: rows) =
      if search.isExact && decide (found.target ∈ seen) then candidates search seen rows
      else found :: candidates search (seenAfter search found seen) rows := by
  unfold candidates seenAfter
  cases search.isExact with
  | false => rfl
  | true =>
    simp only [if_true, Bool.true_and, decide_eq_true_eq]
    rw [firsts]
    by_cases hseen : found.target ∈ seen
    · rw [if_pos hseen, if_pos hseen]
    · rw [if_neg hseen, if_neg hseen]

variable (fullText) in
/-- What a walk over a page returns: the first hits, and while there is room for more,
the targets that it has seen. -/
theorem scanRows_eq {getSourceItem : String → Option SourceItem}
    (hget : ∀ sourceItemId, getSourceItem sourceItemId = store.memory.sourceItems.get sourceItemId)
    {rows hits : List FtsMatch} (hrows : ∀ found ∈ rows, Sound store found)
    (hlimit : hits.length < search.limit) (seen : List (TargetKind × String)) :
    ∃ after, search.scanRows rules (store.reads fullText) getSourceItem rows hits seen =
        some ((hits ++ admitted search store (candidates search seen rows)).take search.limit,
          after) ∧
      ((hits ++ admitted search store (candidates search seen rows)).length < search.limit →
        search.isExact = true →
          ∀ target, target ∈ after ↔ target ∈ rows.map FtsMatch.target ∨ target ∈ seen) := by
  induction rows generalizing hits seen with
  | nil =>
    refine ⟨seen, ?_, fun _ _ target => (or_iff_right List.not_mem_nil).symm⟩
    have hnone : candidates search seen [] = [] := by
      unfold candidates
      split
      · rfl
      · rfl
    rw [hnone, admitted, List.filter_nil, List.append_nil, List.take_of_length_le hlimit.le]
    rfl
  | cons head rest ih =>
    rw [List.forall_mem_cons] at hrows
    have hfloor := hrows.1.above_floor search
    have hadmits := admits_eq fullText search hget hrows.1.holds
    rw [IndexSearch.scanRows, candidates_cons]
    by_cases hseen : (search.isExact && decide (head.target ∈ seen)) = true
    · rw [if_pos hseen, if_pos hseen]
      obtain ⟨after, hscan, hafter⟩ := ih hrows.2 hlimit seen
      refine ⟨after, hscan, fun hroom hexact target => ?_⟩
      rw [hafter hroom hexact, List.map_cons, List.mem_cons]
      rw [Bool.and_eq_true, decide_eq_true_iff] at hseen
      constructor
      · rintro (hmem | hmem)
        · exact Or.inl (Or.inr hmem)
        · exact Or.inr hmem
      · rintro ((rfl | hmem) | hmem)
        · exact Or.inr hseen.2
        · exact Or.inl hmem
        · exact Or.inr hmem
    · rw [if_neg hseen, if_neg hseen, hfloor, admitted_cons]
      simp only [Bool.false_eq_true, if_false, hadmits, Option.bind_eq_bind, Option.bind_some]
      have hlater : ∀ after : List (TargetKind × String), search.isExact = true →
          (∀ target, target ∈ after ↔
            target ∈ rest.map FtsMatch.target ∨ target ∈ seenAfter search head seen) →
          ∀ target, target ∈ after ↔
            target ∈ (head :: rest).map FtsMatch.target ∨ target ∈ seen := by
        intro after hexact hafter target
        rw [hafter, seenAfter, if_pos hexact, List.map_cons, List.mem_cons, List.mem_cons]
        tauto
      cases hpicks : store.admits search.filters search.requester head.target with
      | false =>
        simp only [Bool.false_eq_true, if_false]
        obtain ⟨after, hscan, hafter⟩ := ih hrows.2 hlimit (seenAfter search head seen)
        exact ⟨after, hscan, fun hroom hexact => hlater after hexact (hafter hroom hexact)⟩
      | true =>
        simp only [if_true]
        rw [List.append_cons hits head (admitted search store _)]
        split
        · next hfull =>
            have hlength : (hits ++ [head]).length = search.limit := by
              rw [List.length_append, List.length_singleton] at hfull ⊢
              omega
            refine ⟨seenAfter search head seen, ?_, fun hroom => ?_⟩
            · rw [← hlength, List.take_left]
              rfl
            · rw [List.length_append] at hroom
              omega
        · next hroom =>
            obtain ⟨after, hscan, hafter⟩ :=
              ih hrows.2 (Nat.lt_of_not_le hroom) (seenAfter search head seen)
            exact ⟨after, hscan, fun hroom hexact => hlater after hexact (hafter hroom hexact)⟩

/-- Every page but the last is full. -/
def Filled (size : ℕ) : List (List FtsMatch) → Prop
  | [] => True
  | page :: pages => (page.length < size → pages = []) ∧ Filled size pages

theorem fetchPages_filled {size : ℕ} (page rows : List FtsMatch) (hpage : page.length < size) :
    Filled size (fetchPages size page rows) ∧ (fetchPages size page rows).flatten = page ++ rows := by
  induction rows generalizing page with
  | nil =>
    rw [fetchPages]
    cases page with
    | nil => exact ⟨trivial, rfl⟩
    | cons head tail => exact ⟨⟨fun _ => rfl, trivial⟩, rfl⟩
  | cons row rest ih =>
    have hsize : 0 < size := Nat.zero_lt_of_lt hpage
    rw [fetchPages]
    split
    · next hfull =>
        obtain ⟨hfilled, hflatten⟩ := ih [] hsize
        refine ⟨⟨fun hshort => ?_, hfilled⟩, ?_⟩
        · rw [hfull] at hshort
          exact absurd hshort (lt_irrefl _)
        · rw [List.flatten_cons, hflatten, List.nil_append, ← List.append_cons]
    · next hroom =>
        have hlength : (page ++ [row]).length < size := by
          rw [List.length_append, List.length_singleton] at hroom ⊢
          omega
        obtain ⟨hfilled, hflatten⟩ := ih (page ++ [row]) hlength
        exact ⟨hfilled, hflatten.trans (List.append_cons ..).symm⟩

variable (fullText store) in
theorem exists_prefetch (sourceItemIds : List String) :
    ∃ prefetched, prefetch (store.reads fullText) sourceItemIds = some prefetched := by
  unfold prefetch
  split
  · exact ⟨[], rfl⟩
  · exact ⟨_, rfl⟩

/-- The walk over the pages of an exact search is one over all their rows. -/
theorem scanPages_of_exact (hexact : search.isExact = true) {pages : List (List FtsMatch)}
    (hfilled : Filled search.pageSize pages) {hits : List FtsMatch}
    (hrows : ∀ found ∈ pages.flatten, Sound store found) (hlimit : hits.length ≤ search.limit)
    (seen : List (TargetKind × String)) :
    search.scanPages rules (store.reads fullText) pages hits seen =
      some ((hits ++ admitted search store (firsts FtsMatch.target seen pages.flatten)).take
        search.limit) := by
  induction pages generalizing hits seen with
  | nil =>
    rw [List.flatten_nil, firsts, admitted, List.filter_nil, List.append_nil,
      List.take_of_length_le hlimit]
    rfl
  | cons page pages ih =>
    rw [IndexSearch.scanPages]
    split
    · next hfull =>
        have hlength : hits.length = search.limit := le_antisymm hlimit hfull
        rw [← hlength, List.take_left]
        rfl
    · next hroom =>
        have hsound : ∀ found ∈ page, Sound store found :=
          fun found hmem => hrows found (List.mem_append_left _ hmem)
        have hrest : ∀ found ∈ pages.flatten, Sound store found :=
          fun found hmem => hrows found (List.mem_append_right _ hmem)
        obtain ⟨prefetched, hprefetched⟩ := exists_prefetch fullText store
          ((page.filter fun found => found.targetKind == .sourceItem).map FtsMatch.targetId)
        obtain ⟨after, hscan, hafter⟩ := scanRows_eq fullText search
          (readSourceItem_eq hprefetched) hsound (Nat.lt_of_not_le hroom) seen
        have hcandidates : candidates search seen page = firsts FtsMatch.target seen page := by
          rw [candidates, if_pos hexact]
        rw [hcandidates] at hscan hafter
        have hlater : firsts FtsMatch.target seen (page ++ pages.flatten) =
            firsts FtsMatch.target seen page ++
              firsts FtsMatch.target (page.map FtsMatch.target ++ seen) pages.flatten :=
          firsts_append (fun _ => List.mem_append) pages.flatten
        rw [List.flatten_cons, hlater, admitted_append, ← List.append_assoc]
        simp only [hprefetched, hscan, Option.bind_eq_bind, Option.bind_some, hexact,
          Bool.not_true, Bool.false_or, decide_eq_true_eq]
        split
        · next hshort =>
            rw [hfilled.1 hshort, List.flatten_nil, firsts, admitted_nil, List.append_nil]
            rfl
        · rw [ih hfilled.2 hrest (List.length_take_le _ _) after]
          congr 1
          by_cases hspace : (hits ++ admitted search store
              (firsts FtsMatch.target seen page)).length < search.limit
          · rw [List.take_of_length_le hspace.le]
            congr 3
            apply firsts_congr
            intro target _
            rw [hafter hspace hexact, List.mem_append]
          · have hfull := Nat.le_of_not_lt hspace
            rw [List.take_append_of_le_length hfull, List.take_append_of_le_length]
            · rw [List.take_take, min_self]
            · rw [List.length_take]
              exact le_min (le_refl _) hfull

end Scan

section Order

/-- The score of a row, the higher the better. -/
def FtsMatch.score (found : FtsMatch) : ℚ := -found.bm25

variable {tie : FtsMatch → FtsMatch → Bool}

theorem score_le_of_byScoreThen {first later : FtsMatch} (hbefore : byScoreThen tie first later) :
    later.score ≤ first.score := by
  rw [byScoreThen, Bool.or_eq_true, Bool.and_eq_true, decide_eq_true_iff, beq_iff_eq] at hbefore
  apply neg_le_neg
  rcases hbefore with hless | ⟨hsame, -⟩
  · exact hless.le
  · exact hsame.le

theorem byScoreThen_trans
    (htie : ∀ first middle later, tie first middle → tie middle later → tie first later)
    (first middle later : FtsMatch) (hfirst : byScoreThen tie first middle)
    (hlater : byScoreThen tie middle later) : byScoreThen tie first later := by
  rw [byScoreThen, Bool.or_eq_true, Bool.and_eq_true, decide_eq_true_iff, beq_iff_eq] at *
  rcases hfirst with hless | ⟨hsame, hbefore⟩
  · rcases hlater with hmore | ⟨hequal, -⟩
    · exact Or.inl (hless.trans hmore)
    · exact Or.inl (hequal ▸ hless)
  · rcases hlater with hmore | ⟨hequal, hafter⟩
    · exact Or.inl (hsame ▸ hmore)
    · exact Or.inr ⟨hsame.trans hequal, htie _ _ _ hbefore hafter⟩

theorem byScoreThen_total (htie : ∀ first later, tie first later || tie later first)
    (first later : FtsMatch) : byScoreThen tie first later || byScoreThen tie later first := by
  have hties := htie first later
  rw [Bool.or_eq_true] at hties ⊢
  simp only [byScoreThen, Bool.or_eq_true, Bool.and_eq_true, decide_eq_true_iff, beq_iff_eq]
  rcases lt_trichotomy first.bm25 later.bm25 with hless | hsame | hmore
  · exact Or.inl (Or.inl hless)
  · rcases hties with hbefore | hafter
    · exact Or.inl (Or.inr ⟨hsame, hbefore⟩)
    · exact Or.inr (Or.inr ⟨hsame.symm, hafter⟩)
  · exact Or.inr (Or.inl hmore)

theorem pairwise_byScoreThen
    (htrans : ∀ first middle later, tie first middle → tie middle later → tie first later)
    (htotal : ∀ first later, tie first later || tie later first) (rows : List FtsMatch) :
    (rows.mergeSort (byScoreThen tie)).Pairwise fun first later => later.score ≤ first.score :=
  (List.pairwise_mergeSort (byScoreThen_trans htrans) (byScoreThen_total htotal) rows).imp
    score_le_of_byScoreThen

theorem pairwise_hitBefore (hits : List FtsMatch) :
    (hits.mergeSort IndexSearch.hitBefore).Pairwise fun first later =>
      later.score ≤ first.score := by
  apply pairwise_byScoreThen
  · intro first middle later
    cases first.targetKind <;> cases middle.targetKind <;> cases later.targetKind <;> decide
  · intro first later
    cases first.targetKind <;> cases later.targetKind <;> decide

theorem pairwise_byScore (rows : List FtsMatch) :
    (rows.mergeSort byScore).Pairwise fun first later => later.score ≤ first.score := by
  have hsorted : (rows.mergeSort byScore).Pairwise fun first later =>
      byScore first later = true := by
    apply List.pairwise_mergeSort
    · intro first middle later hfirst hlater
      rw [byScore, decide_eq_true_iff] at *
      exact hfirst.trans hlater
    · intro first later
      rw [byScore, byScore, Bool.or_eq_true, decide_eq_true_iff, decide_eq_true_iff]
      exact le_total _ _
  exact hsorted.imp fun hbefore => neg_le_neg (of_decide_eq_true hbefore)

theorem pairwise_byScoreAndId (rows : List FtsMatch) :
    (rows.mergeSort byScoreAndId).Pairwise fun first later => later.score ≤ first.score := by
  apply pairwise_byScoreThen
  · intro first middle later hfirst hlater
    rw [decide_eq_true_iff] at *
    exact hfirst.trans hlater
  · intro first later
    rw [Bool.or_eq_true, decide_eq_true_iff, decide_eq_true_iff]
    exact le_total _ _

end Order

section Hydration

/-- A source item among the results is as the store has it, and not forgotten. -/
def Current (store : SearchStore rules) : QueryResultItem → Prop
  | .memoryHit _ _ _ => True
  | .sourceHit item _ =>
    store.memory.sourceItems.get item.id = some item ∧ item.forgottenAt = none

section

variable {filters : Option QueryFilters} {requester : Requester} {sourceItemIds : List String}
  {prefetched : List SourceItem}
  (hprefetched : prefetch (store.reads fullText) sourceItemIds = some prefetched)
include hprefetched

/-- A hit that is admitted is hydrated. -/
theorem hydrate_eq {hit : FtsMatch} (hadmits : store.admits filters requester hit.target) :
    ∃ item, hydrate (store.reads fullText) prefetched hit = some (some item) ∧
      item.target = hit.target ∧ Current store item := by
  obtain ⟨indexEntryId, targetKind, targetId, bm25⟩ := hit
  cases targetKind with
  | memoryObject =>
    obtain ⟨record, hrecord, -⟩ := (Option.any_eq_true _ _).mp hadmits
    simp only [FtsMatch.target] at hrecord
    refine ⟨.memoryHit record (-bm25) (store.memory.evidence targetId), ?_, ?_, trivial⟩
    · have hread : (store.reads fullText).getMemoryObject targetId = some record := hrecord
      have hevidence : (store.reads fullText).getEvidenceForMemoryObject targetId =
          some (store.memory.evidence targetId) := rfl
      simp only [hydrate, hread, hevidence]
      rfl
    · have hid : record.id = targetId := Table.key_of_get hrecord
      rw [QueryResultItem.target, FtsMatch.target, hid]
  | sourceItem =>
    obtain ⟨item, hitem, hpasses⟩ := (Option.any_eq_true _ _).mp hadmits
    simp only [FtsMatch.target] at hitem
    rw [Bool.and_eq_true, Bool.and_eq_true, Option.isNone_iff_eq_none] at hpasses
    have hid : item.id = targetId := Table.key_of_get hitem
    have hread := readSourceItem_eq hprefetched targetId
    rw [hitem] at hread
    refine ⟨.sourceHit item (-bm25), ?_, ?_, ?_, hpasses.1.1⟩
    · rw [hydrate]
      unfold readSourceItem at hread
      cases hlookup : lookup prefetched targetId with
      | some found =>
        rw [hlookup] at hread
        cases hread
        rfl
      | none =>
        rw [hlookup] at hread
        simp only at hread
        simp only [hread]
        rfl
    · rw [QueryResultItem.target, FtsMatch.target, hid]
    · rw [hid, hitem]

/-- The hydrated hits are the first of each target, as many as are asked for. -/
theorem hydrateHits_eq {limit : ℕ} {hits : List FtsMatch}
    (hadmits : ∀ hit ∈ hits, store.admits filters requester hit.target)
    (seen : List (TargetKind × String)) {results : List QueryResultItem}
    (hroom : results.length < limit) (hcurrent : ∀ item ∈ results, Current store item) :
    ∃ items, hydrateHits (store.reads fullText) prefetched limit hits seen results = some items ∧
      items.map QueryResultItem.target =
        (results.map QueryResultItem.target ++
          (firsts FtsMatch.target seen hits).map FtsMatch.target).take limit ∧
      ∀ item ∈ items, Current store item := by
  induction hits generalizing seen results with
  | nil =>
    refine ⟨results, rfl, ?_, hcurrent⟩
    rw [firsts, List.map_nil, List.append_nil, List.take_of_length_le]
    rw [List.length_map]
    exact hroom.le
  | cons head rest ih =>
    rw [List.forall_mem_cons] at hadmits
    rw [hydrateHits, firsts]
    by_cases hseen : head.target ∈ seen
    · rw [if_pos hseen, if_pos hseen]
      exact ih hadmits.2 seen hroom hcurrent
    · rw [if_neg hseen, if_neg hseen]
      obtain ⟨item, hitem, htarget, hnow⟩ := hydrate_eq hprefetched hadmits.1
      simp only [hitem, Option.bind_eq_bind, Option.bind_some]
      have hall : ∀ other ∈ results ++ [item], Current store other := by
        intro other hother
        rcases List.mem_append.mp hother with hbefore | hnew
        · exact hcurrent other hbefore
        · rw [List.mem_singleton.mp hnew]
          exact hnow
      have hsplit : results.map QueryResultItem.target ++
          (head :: firsts FtsMatch.target (head.target :: seen) rest).map FtsMatch.target =
            (results ++ [item]).map QueryResultItem.target ++
              (firsts FtsMatch.target (head.target :: seen) rest).map FtsMatch.target := by
        rw [List.map_cons, List.map_append, List.map_singleton, htarget, ← List.append_cons]
      rw [hsplit]
      split
      · next hfull =>
          refine ⟨results ++ [item], rfl, ?_, hall⟩
          have hlength : ((results ++ [item]).map QueryResultItem.target).length = limit := by
            rw [List.length_append, List.length_singleton] at hfull
            rw [List.length_map, List.length_append, List.length_singleton]
            omega
          rw [← hlength, List.take_left]
      · next hspace => exact ih hadmits.2 _ (Nat.lt_of_not_le hspace) hall

end

theorem revalidate_eq {results : List QueryResultItem}
    (hcurrent : ∀ item ∈ results, Current store item) :
    revalidate (store.reads fullText) results = some results := by
  unfold revalidate
  split
  · rfl
  · have hkept : results.filter (staysEmitted (store.memory.sourceItems.rows.filter fun item =>
        decide (item.id ∈ emittedSourceIds results))) = results := by
      apply List.filter_eq_self.mpr
      intro result hresult
      cases result with
      | memoryHit record score evidence => rfl
      | sourceHit item score =>
        obtain ⟨hget, hremembered⟩ := hcurrent _ hresult
        have hid : item.id ∈ emittedSourceIds results :=
          List.mem_filterMap.mpr ⟨_, hresult, rfl⟩
        rw [staysEmitted, lookup_of_get hget hid, Option.any_some, hremembered]
        rfl
    exact congrArg some hkept

end Hydration

section Query

variable (query : LexicalQuery)

variable {found : FtsMatch} {filters : Option QueryFilters}

/-- The rows of the store that match a token, belong to the targets asked for, and are
admitted. -/
def eligibleRows (fullText : FullText) (store : SearchStore rules) (query : LexicalQuery) :
    List FtsMatch :=
  (store.matching fullText query.tokens).filter fun found =>
    query.targetKind.all (found.targetKind == ·) && !query.failsClosed &&
      store.admits query.filters query.requester found.target

theorem sound_of_matching {tokens : List String} (hfound : found ∈ store.matching fullText tokens) :
    Sound store found := by
  obtain ⟨row, hrow, hmatch⟩ := List.mem_filterMap.mp hfound
  obtain ⟨score, hscore, rfl⟩ := Option.map_eq_some_iff.mp hmatch
  refine ⟨?_, fullText.nonpositive hscore⟩
  rw [SearchStore.holds, FtsMatch.target]
  cases hkind : row.targetKind with
  | memoryObject => exact store.memory_indexed row hrow hkind
  | sourceItem => exact store.source_indexed row hrow hkind

theorem sound_of_exactRows {tokens : List String}
    (hfound : found ∈ store.exactRows fullText tokens filters) :
    Sound store found := by
  rw [SearchStore.exactRows] at hfound
  split at hfound
  · obtain ⟨item, hitem, rfl⟩ := List.mem_map.mp hfound
    have hmem := (List.mem_filter.mp (List.mem_mergeSort.mp hitem)).1
    have hget : store.memory.sourceItems.get item.id = some item := Table.get_of_mem hmem
    refine ⟨?_, le_refl _⟩
    rw [SearchStore.holds, FtsMatch.target, hget]
    rfl
  · exact sound_of_matching (List.mem_filter.mp (List.mem_mergeSort.mp hfound)).1

theorem pairwise_exactRows (tokens : List String) (filters : Option QueryFilters) :
    (store.exactRows fullText tokens filters).Pairwise fun first later =>
      later.score ≤ first.score := by
  rw [SearchStore.exactRows]
  split
  · rw [List.pairwise_map]
    exact List.pairwise_of_forall fun _ _ => le_refl _
  · split
    · exact pairwise_byScore _
    · exact pairwise_byScoreAndId _

variable (fullText) in
/-- From the hits of the index to the results. -/
theorem results_of_hits {limit : ℕ} (hlimit : 0 < limit) {requester : Requester}
    {hits : List FtsMatch} (hadmits : ∀ hit ∈ hits, store.admits filters requester hit.target) :
    ∃ results, (do
        let prefetched ← prefetch (store.reads fullText)
          (((hits.mergeSort IndexSearch.hitBefore).filter fun hit =>
            hit.targetKind == .sourceItem).map FtsMatch.targetId)
        let results ← hydrateHits (store.reads fullText) prefetched limit
          (hits.mergeSort IndexSearch.hitBefore) [] []
        revalidate (store.reads fullText) results) = some results ∧
      Leaders FtsMatch.target FtsMatch.score hits limit
        (results.map QueryResultItem.target) := by
  obtain ⟨prefetched, hprefetched⟩ := exists_prefetch fullText store
    (((hits.mergeSort IndexSearch.hitBefore).filter fun hit =>
      hit.targetKind == .sourceItem).map FtsMatch.targetId)
  have hsorted : ∀ hit ∈ hits.mergeSort IndexSearch.hitBefore,
      store.admits filters requester hit.target :=
    fun hit hhit => hadmits hit (List.mem_mergeSort.mp hhit)
  obtain ⟨results, hresults, htargets, hcurrent⟩ := hydrateHits_eq hprefetched hsorted [] hlimit
    (fun item hitem => absurd hitem List.not_mem_nil)
  refine ⟨results, ?_, ?_⟩
  · simp only [hprefetched, hresults, Option.bind_eq_bind, Option.bind_some]
    exact revalidate_eq hcurrent
  · rw [htargets, List.map_nil, List.nil_append, ← List.map_take]
    exact (leaders_firsts (pairwise_hitBefore hits) limit).congr fun _ => List.mem_mergeSort

variable (fullText store) in
/-- A query with exact filters returns the leaders of all rows of its pages. -/
theorem run_of_exact (hopen : query.failsClosed = false)
    (hexact : exactSourceFilterQuery query.filters query.targetKind = true)
    (hasked : query.tokens.isEmpty = true →
      query.isBlank = true ∧ exactSourceWorkQuery query.filters query.targetKind = true) :
    ∃ results, query.run rules (store.reads fullText) = some results ∧
      Leaders FtsMatch.target FtsMatch.score
        (admitted query.search store (store.exactRows fullText query.tokens query.filters))
        query.limit (results.map QueryResultItem.target) := by
  have hlimit : query.search.limit = query.limit := if_pos hexact
  have hpositive : 0 < query.search.limit := hlimit ▸ query.limit_pos
  let rows := store.exactRows fullText query.tokens query.filters
  let hits := (admitted query.search store (firsts FtsMatch.target [] rows)).take query.limit
  have hsize : query.search.pageSize = query.limit := by
    rw [IndexSearch.pageSize, hlimit]
    exact max_eq_left query.limit_pos
  have hroom : ([] : List FtsMatch).length < query.search.pageSize := hsize ▸ query.limit_pos
  obtain ⟨hfilled, hflatten⟩ := fetchPages_filled [] rows hroom
  have hscan : query.search.scanPages rules (store.reads fullText)
      (fetchPages query.search.pageSize [] rows) [] [] = some hits := by
    rw [scanPages_of_exact query.search hexact hfilled _ (Nat.zero_le _), hflatten, hlimit]
    · rfl
    · intro found hfound
      rw [hflatten] at hfound
      exact sound_of_exactRows hfound
  have hasks : (query.search.tokens.isEmpty && !query.search.isStructural) = false := by
    cases hempty : query.tokens.isEmpty with
    | false =>
      change (query.tokens.isEmpty && _) = false
      rw [hempty, Bool.false_and]
    | true =>
      have hstructural : query.search.isStructural = true := by
        change (exactSourceWorkQuery query.filters query.targetKind &&
          query.tokens.isEmpty) = true
        rw [(hasked hempty).2, hempty]
        rfl
      rw [hstructural, Bool.not_true, Bool.and_false]
  have hsearch : query.search.run rules (store.reads fullText) =
      some (hits.mergeSort IndexSearch.hitBefore) := by
    have hpages : query.search.pages (store.reads fullText) =
        some (fetchPages query.search.pageSize [] rows) := by
      have hpaged : query.search.isExact = true := hexact
      rw [IndexSearch.pages, if_pos hpaged]
      rfl
    rw [IndexSearch.run, hasks]
    simp only [Bool.false_eq_true, if_false, hpages, hscan, Option.bind_eq_bind, Option.bind_some]
    rfl
  have hadmits : ∀ hit ∈ hits, store.admits query.filters query.requester hit.target := by
    intro hit hhit
    exact (List.mem_filter.mp (List.mem_of_mem_take hhit)).2
  obtain ⟨results, hresults, hleaders⟩ := results_of_hits fullText query.limit_pos hadmits
  refine ⟨results, ?_, ?_⟩
  · have hproceeds : (query.tokens.isEmpty && (!query.isBlank ||
        !exactSourceWorkQuery query.filters query.targetKind)) = false := by
      cases hempty : query.tokens.isEmpty with
      | false => rfl
      | true =>
        rw [(hasked hempty).1, (hasked hempty).2]
        rfl
    rw [LexicalQuery.run, hopen, hproceeds]
    simp only [Bool.false_eq_true, if_false, hsearch, Option.bind_eq_bind, Option.bind_some]
    exact hresults
  · have hpicked : admitted query.search store (firsts FtsMatch.target [] rows) =
        firsts FtsMatch.target [] (admitted query.search store rows) :=
      filter_firsts (store.admits query.filters query.requester) [] rows
    have hsorted : (admitted query.search store rows).Pairwise fun first later =>
        later.score ≤ first.score :=
      (pairwise_exactRows query.tokens query.filters).filter _
    apply Leaders.of_take_firsts hsorted
    rw [← hpicked]
    exact hleaders

variable (fullText store) in
/-- Any other query returns the leaders of the rows that it fetches. -/
theorem run_of_not_exact (hopen : query.failsClosed = false)
    (hexact : exactSourceFilterQuery query.filters query.targetKind = false)
    (htokens : query.tokens.isEmpty = false) :
    ∃ results, query.run rules (store.reads fullText) = some results ∧
      Leaders FtsMatch.target FtsMatch.score
        (admitted query.search store
          (store.topRows fullText query.tokens query.targetKind (query.limit * 4)))
        query.limit (results.map QueryResultItem.target) := by
  have hlimit : query.search.limit = query.limit * 4 :=
    if_neg (by rw [hexact]; exact Bool.false_ne_true)
  have hpositive : 0 < query.search.limit := by
    rw [hlimit]
    exact Nat.mul_pos query.limit_pos (by decide)
  have hplain : query.search.isExact = false := hexact
  let rows := store.topRows fullText query.tokens query.targetKind (query.limit * 4)
  let hits := admitted query.search store rows
  have hsize : query.search.pageSize = query.limit * 4 := by
    rw [IndexSearch.pageSize, hlimit]
    exact max_eq_left (hlimit ▸ hpositive)
  have hsound : ∀ found ∈ rows, Sound store found := by
    intro found hfound
    exact sound_of_matching
      (List.mem_filter.mp (List.mem_mergeSort.mp (List.mem_of_mem_take hfound))).1
  have hfew : hits.length ≤ query.search.limit := by
    rw [hlimit]
    exact (List.length_filter_le _ _).trans (List.length_take_le _ _)
  have hscan : query.search.scanPages rules (store.reads fullText)
      (if rows.isEmpty then [] else [rows]) [] [] = some hits := by
    cases hempty : rows.isEmpty with
    | true =>
      have hnone : rows = [] := List.isEmpty_iff.mp hempty
      have hhits : hits = [] := by
        change admitted query.search store rows = []
        rw [hnone, admitted_nil]
      rw [hhits]
      rfl
    | false =>
      obtain ⟨prefetched, hprefetched⟩ := exists_prefetch fullText store
        ((rows.filter fun found => found.targetKind == .sourceItem).map FtsMatch.targetId)
      have hroom : ([] : List FtsMatch).length < query.search.limit := hpositive
      obtain ⟨after, hscan, -⟩ := scanRows_eq fullText query.search
        (readSourceItem_eq hprefetched) hsound hroom []
      have hcandidates : candidates query.search [] rows = rows := by
        rw [candidates, if_neg (by rw [hplain]; exact Bool.false_ne_true)]
      rw [hcandidates, List.nil_append, List.take_of_length_le hfew] at hscan
      simp only [Bool.false_eq_true, if_false, IndexSearch.scanPages, hprefetched, hscan,
        Option.bind_eq_bind, Option.bind_some, hplain, Bool.not_false, Bool.true_or, if_true,
        List.length_nil, Nat.le_zero]
      rw [if_neg hpositive.ne']
      rfl
  have hsearch : query.search.run rules (store.reads fullText) =
      some (hits.mergeSort IndexSearch.hitBefore) := by
    have hpages : query.search.pages (store.reads fullText) =
        some (if rows.isEmpty then [] else [rows]) := by
      rw [IndexSearch.pages, if_neg (by rw [hplain]; exact Bool.false_ne_true), hsize]
      rfl
    have hasks : (query.search.tokens.isEmpty && !query.search.isStructural) = false := by
      change (query.tokens.isEmpty && _) = false
      rw [htokens, Bool.false_and]
    rw [IndexSearch.run, hasks]
    simp only [Bool.false_eq_true, if_false, hpages, hscan, Option.bind_eq_bind, Option.bind_some]
    rfl
  have hadmits : ∀ hit ∈ hits, store.admits query.filters query.requester hit.target :=
    fun hit hhit => (List.mem_filter.mp hhit).2
  obtain ⟨results, hresults, hleaders⟩ := results_of_hits fullText query.limit_pos hadmits
  refine ⟨results, ?_, hleaders⟩
  rw [LexicalQuery.run, hopen, htokens]
  simp only [Bool.false_and, Bool.false_eq_true, if_false, hsearch, Option.bind_eq_bind,
    Option.bind_some]
  exact hresults

/-- The query returns the first targets of its eligible ranking, as many as it asks for
and there are. -/
def ReturnsLeaders (fullText : FullText) (store : SearchStore rules) (query : LexicalQuery) :
    Prop :=
  ∃ results, query.run rules (store.reads fullText) = some results ∧
    Leaders FtsMatch.target FtsMatch.score (eligibleRows fullText store query) query.limit
      (results.map QueryResultItem.target)

/-- A query by work references alone. -/
def LexicalQuery.isStructural : Bool :=
  !query.failsClosed && query.tokens.isEmpty && query.isBlank &&
    exactSourceWorkQuery query.filters query.targetKind

/-- The rows that the query fetches hold enough eligible targets.  A query with exact
filters fetches all; one by work references alone must find nothing, as no row matches. -/
def FetchesEnough (fullText : FullText) (store : SearchStore rules) (query : LexicalQuery) :
    Prop :=
  if query.isStructural then
    ∀ item ∈ store.withWorkRefs (askedWorkRefs query.filters),
      ¬ store.admits query.filters query.requester (.sourceItem, item.id)
  else
    exactSourceFilterQuery query.filters query.targetKind ∨
      min query.limit (targetCount FtsMatch.target (eligibleRows fullText store query)) ≤
        targetCount FtsMatch.target
          (admitted query.search store
            (store.topRows fullText query.tokens query.targetKind (query.limit * 4)))

theorem passesClauses_of_admits {requester : Requester} (hkind : found.targetKind = .sourceItem)
    (hadmits : store.admits filters requester found.target) :
    store.passesClauses filters found := by
  obtain ⟨indexEntryId, targetKind, targetId, bm25⟩ := found
  obtain rfl : targetKind = .sourceItem := hkind
  obtain ⟨item, hitem, hpasses⟩ := (Option.any_eq_true _ _).mp hadmits
  simp only [FtsMatch.target] at hitem
  rw [Bool.and_eq_true, Bool.and_eq_true] at hpasses
  have hid : item.id = targetId := Table.key_of_get hitem
  have hmem : item ∈ store.memory.sourceItems.rows := Table.mem_of_get hitem
  cases filters with
  | none => rfl
  | some filters =>
    have hmatches : sourceItemMatchesFilters rules item filters = true := hpasses.1.2
    simp only [sourceItemMatchesFilters, Bool.and_eq_true, Bool.or_eq_true] at hmatches
    rw [SearchStore.passesClauses, Bool.and_eq_true]
    constructor
    · change (filters.workRefs.isEmpty || filters.workRefs.any _) = true
      rcases hmatches.1.1.1.1.1.1.1 with hempty | hshared
      · rw [hempty, Bool.true_or]
      · obtain ⟨ref, href, hknown⟩ := List.any_eq_true.mp hshared
        rw [Bool.or_eq_true]
        refine Or.inr (List.any_eq_true.mpr ⟨ref, href, ?_⟩)
        rw [decide_eq_true_iff] at hknown ⊢
        rw [← hid]
        exact (store.synced item hmem ref).mpr hknown
    · rw [Option.all_eq_true]
      intro name hname
      have hasked : filters.relayName = some name := (Option.filter_eq_some_iff.mp hname).1
      simp only [hitem, Option.any_some, beq_iff_eq]
      exact agrees_iff.mp hmatches.2 name hasked

theorem mem_eligibleRows (hopen : query.failsClosed = false) :
    found ∈ eligibleRows fullText store query ↔
      found ∈ store.matching fullText query.tokens ∧
        query.targetKind.all (found.targetKind == ·) = true ∧
          store.admits query.filters query.requester found.target = true := by
  rw [eligibleRows, List.mem_filter, hopen]
  simp only [Bool.not_false, Bool.and_true, Bool.and_eq_true]

theorem mem_admitted_exactRows (hopen : query.failsClosed = false)
    (hexact : exactSourceFilterQuery query.filters query.targetKind = true)
    (htokens : query.tokens.isEmpty = false) :
    found ∈ admitted query.search store
        (store.exactRows fullText query.tokens query.filters) ↔
      found ∈ eligibleRows fullText store query := by
  have hkind : query.targetKind = some .sourceItem := by
    rw [exactSourceFilterQuery, Bool.and_eq_true] at hexact
    exact eq_of_beq hexact.1
  rw [mem_eligibleRows query hopen, admitted, List.mem_filter, SearchStore.exactRows, htokens,
    if_neg Bool.false_ne_true, List.mem_mergeSort, List.mem_filter, hkind]
  simp only [Option.all_some, Bool.and_eq_true, beq_iff_eq]
  constructor
  · rintro ⟨⟨hmatching, -, hsource⟩, hadmits⟩
    exact ⟨hmatching, hsource, hadmits⟩
  · rintro ⟨hmatching, hsource, hadmits⟩
    exact ⟨⟨hmatching, passesClauses_of_admits hsource hadmits, hsource⟩, hadmits⟩

theorem returnsLeaders_iff_of_run {results : List QueryResultItem}
    (hrun : query.run rules (store.reads fullText) = some results) :
    ReturnsLeaders fullText store query ↔
      Leaders FtsMatch.target FtsMatch.score (eligibleRows fullText store query) query.limit
        (results.map QueryResultItem.target) := by
  constructor
  · rintro ⟨others, hothers, hothersLead⟩
    rw [hrun] at hothers
    exact Option.some.inj hothers ▸ hothersLead
  · intro heligible
    exact ⟨results, hrun, heligible⟩

theorem returnsLeaders_of_none (hrun : query.run rules (store.reads fullText) = some [])
    (hnone : eligibleRows fullText store query = []) : ReturnsLeaders fullText store query := by
  refine ⟨[], hrun, ?_⟩
  rw [hnone]
  exact leaders_nil_iff.mpr rfl

/-- A query by work references alone matches no row, so it must find nothing. -/
theorem returnsLeaders_iff_of_structural (hopen : query.failsClosed = false)
    (hempty : query.tokens.isEmpty = true) (hblank : query.isBlank = true)
    (hwork : exactSourceWorkQuery query.filters query.targetKind = true)
    (hnone : eligibleRows fullText store query = []) :
    ReturnsLeaders fullText store query ↔
      ∀ item ∈ store.withWorkRefs (askedWorkRefs query.filters),
        ¬ store.admits query.filters query.requester (.sourceItem, item.id) := by
  have hexact : exactSourceFilterQuery query.filters query.targetKind = true := by
    rw [exactSourceWorkQuery, Bool.and_eq_true] at hwork
    rw [exactSourceFilterQuery, hwork.1, hwork.2]
    rfl
  obtain ⟨results, hrun, hleaders⟩ := run_of_exact fullText store query hopen hexact fun _ => ⟨hblank, hwork⟩
  rw [returnsLeaders_iff_of_run query hrun, hnone, leaders_nil_iff]
  have hrows : store.exactRows fullText query.tokens query.filters =
      ((store.withWorkRefs (askedWorkRefs query.filters)).mergeSort store.byRecency).map
        fun item => ⟨item.id, .sourceItem, item.id, 0⟩ := by
    rw [SearchStore.exactRows, if_pos hempty]
  have hnothing : results.map QueryResultItem.target = [] ↔
      admitted query.search store (store.exactRows fullText query.tokens query.filters) = [] := by
    rw [← @targetCount_eq_zero_iff _ _ _ FtsMatch.target,
      ← List.length_eq_zero_iff, hleaders.length]
    have hlimit := query.limit_pos
    omega
  rw [hnothing, admitted, List.filter_eq_nil_iff, hrows, List.forall_mem_map]
  exact forall_congr' fun item => by rw [List.mem_mergeSort]; rfl

/-- A query without exact filters looks far enough if the fetched rows hold enough targets. -/
theorem returnsLeaders_iff_of_not_exact (hopen : query.failsClosed = false)
    (hexact : exactSourceFilterQuery query.filters query.targetKind = false)
    (htokens : query.tokens.isEmpty = false) :
    ReturnsLeaders fullText store query ↔
      min query.limit (targetCount FtsMatch.target (eligibleRows fullText store query)) ≤
        targetCount FtsMatch.target
          (admitted query.search store
            (store.topRows fullText query.tokens query.targetKind (query.limit * 4))) := by
  obtain ⟨results, hrun, hleaders⟩ := run_of_not_exact fullText store query hopen hexact htokens
  let sorted := ((store.matching fullText query.tokens).filter fun found =>
    query.targetKind.all (found.targetKind == ·)).mergeSort byScore
  have htop : store.topRows fullText query.tokens query.targetKind (query.limit * 4) =
      sorted.take (query.limit * 4) := rfl
  rw [htop] at hleaders ⊢
  have hsplit : admitted query.search store sorted =
      admitted query.search store (sorted.take (query.limit * 4)) ++
        admitted query.search store (sorted.drop (query.limit * 4)) := by
    rw [← admitted_append, List.take_append_drop]
  have hsame : ∀ found, found ∈ admitted query.search store sorted ↔
      found ∈ eligibleRows fullText store query := by
    intro found
    rw [mem_eligibleRows query hopen, admitted, List.mem_filter, List.mem_mergeSort,
      List.mem_filter, and_assoc]
    rfl
  have hordered : (admitted query.search store sorted).Pairwise fun first later =>
      later.score ≤ first.score :=
    (pairwise_byScore _).filter _
  rw [hsplit, List.pairwise_append] at hordered
  have hcount : targetCount FtsMatch.target (admitted query.search store sorted) =
      targetCount FtsMatch.target (eligibleRows fullText store query) := by
    rw [targetCount, targetCount]
    congr 1
    ext target
    simp only [List.mem_toFinset, List.mem_map, hsame]
  rw [returnsLeaders_iff_of_run query hrun, ← hcount, hsplit,
    ← leaders_window_iff hordered.2.2 hleaders, ← hsplit]
  exact ⟨fun hall => hall.congr fun found => (hsame found).symm, fun hall => hall.congr hsame⟩

end Query

section Crowded

def containerTurn (id containerRef content : String) : SourceItem where
  id := id
  sourceType := "conversation"
  sourceId := id
  content := content
  metadata := none
  actorRef := none
  role := some "user"
  containerRef := some containerRef
  threadRef := none
  artifactKind := none
  visibility := some .container
  sourceTurnId := none
  relayName := none
  relayAttributionState := .unnamed
  useCase := none
  processingStatus := .completed
  processingError := none
  createdAt := 0
  forgottenAt := none

/-- Four turns of another container, and a longer one of the container at home. -/
def crowdedTurns : List SourceItem :=
  [containerTurn "t1" "elsewhere" "deploy", containerTurn "t2" "elsewhere" "deploy",
    containerTurn "t3" "elsewhere" "deploy", containerTurn "t4" "elsewhere" "deploy",
    containerTurn "t5" "home" "deploy now"]

def turnEntry (item : SourceItem) : Memory.IndexEntryRecord :=
  ⟨item.id, .sourceItem, item.id, .lexical, item.content⟩

def turnRow (item : SourceItem) : LexicalRow :=
  ⟨item.id, .sourceItem, item.id, item.content, item.containerRef⟩

/-- The turns in a store of their own. -/
def crowdedStore (rules : WorkRefRules) : SearchStore rules where
  memory :=
    { memories := Table.empty
      relations := []
      index :=
        { entries := ⟨crowdedTurns.map turnEntry, by decide⟩
          lexicalRows := crowdedTurns.map turnRow
          owned := by
            intro row hrow
            obtain ⟨item, hitem, rfl⟩ := List.mem_map.mp hrow
            exact ⟨turnEntry item, List.mem_map_of_mem hitem, rfl, rfl, rfl, rfl⟩ }
      sourceItems := ⟨crowdedTurns, by decide⟩
      promotionLog := []
      flags := [] }
  workRefs := []
  occurredAt _ := none
  memory_indexed := by
    intro row hrow hkind
    obtain ⟨item, -, rfl⟩ := List.mem_map.mp hrow
    cases hkind
  source_indexed := by decide
  synced := by
    intro item hitem ref
    have hmetadata : item.metadata = none := by
      revert item
      decide
    rw [hmetadata]
    exact iff_of_false List.not_mem_nil List.not_mem_nil

/-- The scores of five rows that all have the only token of the query. -/
def crowdedText : FullText where
  bm25 _ tokens row :=
    if tokens = ["deploy"] then
      if row.textView = "deploy" then some (-(44 / 41) / 1000000)
      else if row.textView = "deploy now" then some (-(11 / 14) / 1000000)
      else none
    else none
  nonpositive := by
    intro rows tokens row score hscore
    split at hscore
    · split at hscore
      · cases hscore
        decide +kernel
      · split at hscore
        · cases hscore
          decide +kernel
        · cases hscore
    · cases hscore
  without_tokens _ _ := rfl

/-- A query for one result from the container at home. -/
def crowdedQuery : LexicalQuery where
  isBlank := false
  tokens := ["deploy"]
  limit := 1
  filters := none
  requester := ⟨some "home", some .container, none⟩
  requireVisibility := true
  targetKind := none
  limit_pos := Nat.one_pos

/-- The rows that match, best first. -/
def crowdedMatches : List FtsMatch :=
  [⟨"t1", .sourceItem, "t1", -(44 / 41) / 1000000⟩,
    ⟨"t2", .sourceItem, "t2", -(44 / 41) / 1000000⟩,
    ⟨"t3", .sourceItem, "t3", -(44 / 41) / 1000000⟩,
    ⟨"t4", .sourceItem, "t4", -(44 / 41) / 1000000⟩,
    ⟨"t5", .sourceItem, "t5", -(11 / 14) / 1000000⟩]

theorem topRows_crowded :
    (crowdedStore ⟨id, id⟩).topRows crowdedText ["deploy"] crowdedQuery.targetKind
      (crowdedQuery.limit * 4) = crowdedMatches.take 4 := by
  have hmatches : ((crowdedStore ⟨id, id⟩).matching crowdedText ["deploy"]).filter
      (fun found => crowdedQuery.targetKind.all (found.targetKind == ·)) = crowdedMatches := by
    decide +kernel
  have hsorted : crowdedMatches.mergeSort byScore = crowdedMatches :=
    List.mergeSort_of_pairwise (by decide +kernel)
  rw [SearchStore.topRows, hmatches, hsorted]
  rfl

end Crowded

end Pallium.Search
