import Pallium.Core.Reconciliation
import Pallium.Vector.Embedder

/-!
# Reconciliation converges unless the counts agree

On a consistent index every call of `reconcile` is one step of the abstract
replica whose source is the set of stored vector entries and which never drops
an id that SQLite stores under any type.  The limit of repeated calls follows.
-/

namespace Pallium.Vector

open Pallium.Paging
open Pallium.Reconciliation

variable {ν : Type*}

namespace VectorIndex

/-- `remove` of any id on a consistent index leaves a consistent index without
that id. -/
theorem remove_spec {index : VectorIndex ν} (hindex : index.Consistent) (entryId : String) :
    (index.remove entryId).1.Consistent ∧
      (index.remove entryId).1.knownEntryIds = index.knownEntryIds.erase entryId := by
  by_cases hknown : entryId ∈ index.knownEntryIds
  · exact (remove_known hindex hknown).2
  · have hlookup : index.idToKey.lookup entryId = none := by
      rwa [AList.lookup_eq_none, ← mem_knownEntryIds]
    simp only [remove, hlookup]
    exact ⟨hindex, (Finset.erase_eq_of_notMem hknown).symm⟩

end VectorIndex

/-- The ids and types of the stored entries, which no call changes. -/
def entryShape (entries : Table IndexEntry) : List (String × String) :=
  entries.rows.map fun entry => (entry.id, entry.indexType)

theorem entryShape_update {entries after : Table IndexEntry} {entryId name version : String}
    (hupdate : updateIndexEntryProvider entries entryId name version = some after) :
    entryShape after = entryShape entries := by
  unfold updateIndexEntryProvider at hupdate
  split at hupdate
  · cases hupdate
  · rw [← Option.some.inj hupdate]
    have hkey : ∀ entry : IndexEntry, key (if key entry = entryId then
        { entry with providerName := some name, providerVersion := some version }
      else entry) = key entry := by
      intro entry
      split <;> rfl
    have hrows := Table.rows_updateAll entries hkey
    rw [entryShape, Table.modify, hrows, entryShape, List.map_map]
    refine List.map_congr_left fun entry _ => ?_
    simp only [Function.comp_apply]
    split <;> rfl

theorem updateIndexEntryProvider_isSome {entries : Table IndexEntry} {entryId : String}
    (hstored : entryId ∈ (entryShape entries).map Prod.fst) (name version : String) :
    ∃ after, updateIndexEntryProvider entries entryId name version = some after := by
  have hget : entries.get entryId ≠ none := by
    rw [Ne, Table.get_eq_none_iff, not_not]
    simpa [entryShape, key] using hstored
  obtain ⟨entry, hentry⟩ := Option.ne_none_iff_exists'.mp hget
  simp [updateIndexEntryProvider, hentry]

namespace VectorEmbedder

variable {embedder : VectorEmbedder ν}

/-- The abstract replica of an embedder's state. -/
def toReplica (embedder : VectorEmbedder ν) : Replica String where
  known := embedder.vectorIndex.knownEntryIds
  sourceCursor := embedder.reconcileAfterId
  staleCursor := embedder.reconcileStaleAfterId

theorem vectorEntryIds_eq_shape (embedder : VectorEmbedder ν) :
    embedder.vectorEntryIds =
      (((entryShape embedder.indexEntries).filter fun pair =>
        decide (pair.2 = vectorIndexType)).map Prod.fst).toFinset := by
  rw [vectorEntryIds, entryShape, List.filter_map, List.map_map]
  rfl

theorem storedIds_eq_shape (embedder : VectorEmbedder ν) :
    embedder.storedIds = ((entryShape embedder.indexEntries).map Prod.fst).toFinset := by
  rw [storedIds, entryShape, List.map_map]
  rfl

theorem vectorEntryIds_subset_storedIds (embedder : VectorEmbedder ν) :
    embedder.vectorEntryIds ⊆ embedder.storedIds := by
  intro entryId hentry
  simp only [vectorEntryIds, storedIds, List.mem_toFinset, List.mem_map, List.mem_filter]
    at hentry ⊢
  obtain ⟨entry, ⟨hmem, -⟩, rfl⟩ := hentry
  exact ⟨entry, hmem, rfl⟩

theorem mem_storedIds {entryId : String} :
    entryId ∈ embedder.storedIds ↔ (embedder.indexEntries.get entryId).isSome := by
  rw [← Option.ne_none_iff_isSome, Ne, Table.get_eq_none_iff, not_not, storedIds,
    List.mem_toFinset]
  rfl

private theorem vectorIds_nodup (embedder : VectorEmbedder ν) :
    ((embedder.indexEntries.rows.filter fun entry =>
      decide (entry.indexType = vectorIndexType)).map IndexEntry.id).Nodup :=
  (List.filter_sublist.map _).nodup embedder.indexEntries.nodup

theorem count_eq_card (embedder : VectorEmbedder ν) :
    countIndexEntriesByType embedder.indexEntries vectorIndexType =
      embedder.vectorEntryIds.card := by
  rw [vectorEntryIds, List.toFinset_card_of_nodup (vectorIds_nodup embedder), List.length_map]
  rfl

/-! ## The sorted lists of a call -/

private theorem mergeSort_pairwise_lt {ids : List String} (hnodup : ids.Nodup) :
    (ids.mergeSort fun left right => decide (left ≤ right)).Pairwise (· < ·) := by
  have hle : (ids.mergeSort fun left right => decide (left ≤ right)).Pairwise (· ≤ ·) := by
    have hsorted := @List.pairwise_mergeSort _ (fun left right : String => decide (left ≤ right))
      (fun a b c hab hbc => by simpa using le_trans (by simpa using hab) (by simpa using hbc))
      (fun a b => by simpa using le_total a b) ids
    simpa using hsorted
  have hne := (List.mergeSort_perm ids fun left right => decide (left ≤ right)).nodup_iff.mpr hnodup
  exact (hle.and hne).imp fun hpair => lt_of_le_of_ne hpair.1 hpair.2

theorem usearchIds_eq_sort (index : VectorIndex ν) :
    (index.idToKey.keys.mergeSort fun left right => decide (left ≤ right)) =
      index.knownEntryIds.sort := by
  refine (mergeSort_pairwise_lt index.idToKey.keys_nodup).eq_of_mem_iff
    (sort_pairwise_lt _) fun entryId => ?_
  rw [(List.mergeSort_perm _ _).mem_iff]
  simp [VectorIndex.knownEntryIds]

theorem entriesById_ids (embedder : VectorEmbedder ν) :
    (entriesById embedder.indexEntries vectorIndexType).map IndexEntry.id =
      embedder.vectorEntryIds.sort := by
  have hperm := (List.mergeSort_perm
    (embedder.indexEntries.rows.filter fun entry =>
      decide (entry.indexType = vectorIndexType))
    fun left right => decide (left.id ≤ right.id)).map IndexEntry.id
  have hle : ((entriesById embedder.indexEntries vectorIndexType).map IndexEntry.id).Pairwise
      (· ≤ ·) := by
    rw [List.pairwise_map]
    have hsorted := @List.pairwise_mergeSort _
      (fun left right : IndexEntry => decide (left.id ≤ right.id))
      (fun a b c hab hbc => by simpa using le_trans (by simpa using hab) (by simpa using hbc))
      (fun a b => by simpa using le_total a.id b.id)
      (embedder.indexEntries.rows.filter fun entry =>
        decide (entry.indexType = vectorIndexType))
    simpa [entriesById] using hsorted
  have hnodup := hperm.nodup_iff.mpr (vectorIds_nodup embedder)
  refine List.Pairwise.eq_of_mem_iff
    ((hle.and hnodup).imp fun hpair => lt_of_le_of_ne hpair.1 hpair.2)
    (sort_pairwise_lt _) fun entryId => ?_
  rw [Finset.mem_sort, vectorEntryIds, List.mem_toFinset]
  exact hperm.mem_iff

theorem page_ids (embedder : VectorEmbedder ν) (limit : ℕ) :
    (listIndexEntriesByTypePage embedder.indexEntries vectorIndexType
        embedder.reconcileAfterId limit).map IndexEntry.id =
      (behind embedder.reconcileAfterId embedder.vectorEntryIds.sort).take limit := by
  rw [listIndexEntriesByTypePage, List.map_take, behind, ← entriesById_ids, List.filter_map]
  rfl

/-! ## The reverse direction -/

theorem removeStale_spec (entries : Table IndexEntry) (batch : List String)
    {index : VectorIndex ν} (hindex : index.Consistent) :
    (removeStale entries index batch).1.Consistent ∧
      (removeStale entries index batch).1.knownEntryIds =
        index.knownEntryIds.filter fun entryId =>
          entryId ∈ batch → (entries.get entryId).isSome = true := by
  induction batch generalizing index with
  | nil =>
    refine ⟨hindex, ?_⟩
    ext entryId
    simp [removeStale]
  | cons head rest ih =>
    by_cases hstored : (entries.get head).isSome
    · obtain ⟨hconsistent, hknown⟩ := ih hindex
      simp only [removeStale, hstored, if_true]
      refine ⟨hconsistent, ?_⟩
      rw [hknown]
      ext entryId
      simp only [Finset.mem_filter, List.mem_cons]
      constructor
      · rintro ⟨hmem, hrest⟩
        refine ⟨hmem, ?_⟩
        rintro (rfl | hin)
        · exact hstored
        · exact hrest hin
      · rintro ⟨hmem, hall⟩
        exact ⟨hmem, fun hin => hall (Or.inr hin)⟩
    · obtain ⟨hremoved, hremovedKnown⟩ := VectorIndex.remove_spec hindex head
      obtain ⟨hconsistent, hknown⟩ := ih hremoved
      have hshape : (removeStale entries index (head :: rest)).1 =
          (removeStale entries (index.remove head).1 rest).1 := by
        rcases hremove : index.remove head with ⟨removed, outcome⟩
        cases outcome <;> simp [removeStale, hstored, hremove]
      rw [hshape]
      refine ⟨hconsistent, ?_⟩
      rw [hknown, hremovedKnown]
      ext entryId
      simp only [Finset.mem_filter, Finset.mem_erase, List.mem_cons]
      constructor
      · rintro ⟨⟨hne, hmem⟩, hrest⟩
        refine ⟨hmem, ?_⟩
        rintro (rfl | hin)
        · exact absurd rfl hne
        · exact hrest hin
      · rintro ⟨hmem, hall⟩
        refine ⟨⟨?_, hmem⟩, fun hin => hall (Or.inr hin)⟩
        rintro rfl
        exact hstored (hall (Or.inl rfl))

theorem staleCandidates_eq (staleAfterId : Option String) (usearchIds : List String) :
    staleCandidates staleAfterId usearchIds = restartCandidates staleAfterId usearchIds := by
  cases staleAfterId with
  | none => simp [staleCandidates, restartCandidates]
  | some last => simp [staleCandidates, restartCandidates, behind]

theorem sweepStale_spec (hindex : embedder.vectorIndex.Consistent) (batchSize : ℕ) :
    let candidates := restartCandidates embedder.reconcileStaleAfterId
      embedder.vectorIndex.knownEntryIds.sort
    let swept := (embedder.sweepStale batchSize).1
    swept.vectorIndex.Consistent ∧
      swept.vectorIndex.knownEntryIds =
        embedder.vectorIndex.knownEntryIds.filter
          (fun entryId => entryId ∈ candidates.take batchSize → entryId ∈ embedder.storedIds) ∧
      swept.reconcileStaleAfterId =
        (if embedder.vectorIndex.knownEntryIds = ∅ then embedder.reconcileStaleAfterId
          else restartCursor batchSize candidates) ∧
      swept.indexEntries = embedder.indexEntries ∧
      swept.reconcileAfterId = embedder.reconcileAfterId := by
  simp only [sweepStale, usearchIds_eq_sort, staleCandidates_eq]
  by_cases hempty : embedder.vectorIndex.knownEntryIds = ∅
  · simp [hempty, hindex]
  · have hsort : embedder.vectorIndex.knownEntryIds.sort ≠ [] := by
      intro hnil
      apply hempty
      rw [← Finset.card_eq_zero, ← Finset.length_sort (· ≤ ·), hnil, List.length_nil]
    rw [if_neg hsort, if_neg hempty]
    obtain ⟨hconsistent, hknown⟩ := removeStale_spec embedder.indexEntries
      ((restartCandidates embedder.reconcileStaleAfterId
        embedder.vectorIndex.knownEntryIds.sort).take batchSize) hindex
    refine ⟨hconsistent, ?_, ?_, rfl, rfl⟩
    · refine hknown.trans ?_
      ext entryId
      simp only [Finset.mem_filter, mem_storedIds]
    · simp only [restartCursor, List.length_take]
      refine if_congr ?_ rfl rfl
      omega

/-! ## The forward direction -/

variable (provider : EmbeddingProvider ν) (batchSize calls : ℕ)

/-- Adding vectors for stored ids that the index does not know succeeds and
makes exactly these ids known. -/
theorem addVectors_spec (pairs : List (IndexEntry × ν)) (hindex : embedder.vectorIndex.Consistent)
    (hnodup : (pairs.map fun pair => pair.1.id).Nodup)
    (hunknown : ∀ pair ∈ pairs, pair.1.id ∉ embedder.vectorIndex.knownEntryIds)
    (hstored : ∀ pair ∈ pairs, pair.1.id ∈ (entryShape embedder.indexEntries).map Prod.fst) :
    ∃ changed, (addVectors provider embedder pairs).2 = some changed ∧
      (addVectors provider embedder pairs).1.vectorIndex.Consistent ∧
      (addVectors provider embedder pairs).1.vectorIndex.knownEntryIds =
        embedder.vectorIndex.knownEntryIds ∪ (pairs.map fun pair => pair.1.id).toFinset ∧
      entryShape (addVectors provider embedder pairs).1.indexEntries =
        entryShape embedder.indexEntries ∧
      (addVectors provider embedder pairs).1.reconcileStaleAfterId =
        embedder.reconcileStaleAfterId := by
  induction pairs generalizing embedder with
  | nil => exact ⟨0, rfl, hindex, by simp [addVectors], rfl, rfl⟩
  | cons head rest ih =>
    obtain ⟨entry, vector⟩ := head
    rw [List.map_cons, List.nodup_cons] at hnodup
    obtain ⟨hok, hadded, haddedKnown⟩ := VectorIndex.add_unknown hindex
      (hunknown _ List.mem_cons_self) vector
    obtain ⟨entries, hupdate⟩ := updateIndexEntryProvider_isSome
      (hstored _ List.mem_cons_self) provider.modelName
      ("dim=" ++ toString provider.dimensions)
    have hshape := entryShape_update hupdate
    let next : VectorEmbedder ν :=
      { embedder with
        vectorIndex := (embedder.vectorIndex.add entry.id vector).1
        indexEntries := entries }
    have hstep : addVectors provider embedder ((entry, vector) :: rest) =
        ((addVectors provider next rest).1, (addVectors provider next rest).2.map (· + 1)) := by
      rcases hadd : embedder.vectorIndex.add entry.id vector with ⟨index, outcome⟩
      rw [hadd] at hok
      change outcome = .ok () at hok
      subst hok
      simp only [addVectors, hadd, hupdate, next]
    obtain ⟨changed, hchanged, hconsistent, hknown, hrestShape, hcursor⟩ :=
      @ih next hadded hnodup.2
        (fun pair hpair => by
          change pair.1.id ∉ (embedder.vectorIndex.add entry.id vector).1.knownEntryIds
          rw [haddedKnown, Finset.mem_insert, not_or]
          refine ⟨fun heq => hnodup.1 ?_, hunknown pair (List.mem_cons_of_mem _ hpair)⟩
          exact heq ▸ List.mem_map_of_mem (f := fun pair : IndexEntry × ν => pair.1.id) hpair)
        (fun pair hpair => by
          change pair.1.id ∈ (entryShape entries).map Prod.fst
          rw [hshape]
          exact hstored pair (List.mem_cons_of_mem _ hpair))
    rw [hstep]
    refine ⟨changed + 1, by rw [hchanged]; rfl, hconsistent, ?_, hrestShape.trans hshape, hcursor⟩
    rw [hknown]
    change (embedder.vectorIndex.add entry.id vector).1.knownEntryIds ∪ _ = _
    rw [haddedKnown]
    ext entryId
    simp only [Finset.mem_union, Finset.mem_insert, List.mem_toFinset, List.map_cons,
      List.mem_cons]
    tauto

private theorem zip_ids (missing : List IndexEntry) (vectors : List ν)
    (hlength : missing.length = vectors.length) :
    (missing.zip vectors).map (fun pair => pair.1.id) = missing.map IndexEntry.id := by
  have hfst : (missing.zip vectors).map Prod.fst = missing := List.map_fst_zip hlength.le
  calc (missing.zip vectors).map (fun pair => pair.1.id)
      = ((missing.zip vectors).map Prod.fst).map IndexEntry.id := by rw [List.map_map]; rfl
    _ = missing.map IndexEntry.id := by rw [hfst]

theorem embedMissing_spec (hindex : embedder.vectorIndex.Consistent) (batchSize : ℕ) :
    let page := (behind embedder.reconcileAfterId embedder.vectorEntryIds.sort).take batchSize
    ∃ changed, (embedMissing provider embedder batchSize).2 = some changed ∧
      (embedMissing provider embedder batchSize).1.vectorIndex.Consistent ∧
      (embedMissing provider embedder batchSize).1.vectorIndex.knownEntryIds =
        embedder.vectorIndex.knownEntryIds ∪ page.toFinset ∧
      entryShape (embedMissing provider embedder batchSize).1.indexEntries =
        entryShape embedder.indexEntries ∧
      (embedMissing provider embedder batchSize).1.reconcileAfterId = page.getLast? ∧
      (embedMissing provider embedder batchSize).1.reconcileStaleAfterId =
        embedder.reconcileStaleAfterId := by
  intro page
  have hpage := page_ids embedder batchSize
  set sqliteBatch := listIndexEntriesByTypePage embedder.indexEntries vectorIndexType
    embedder.reconcileAfterId batchSize with hbatch
  have hpageEq : page = sqliteBatch.map IndexEntry.id := hpage.symm
  by_cases hempty : sqliteBatch = []
  · have hnil : page = [] := by rw [hpageEq, hempty, List.map_nil]
    refine ⟨0, ?_⟩
    simp only [embedMissing, ← hbatch, hempty, if_true, hnil]
    exact ⟨trivial, hindex, by simp, trivial, rfl, trivial⟩
  · have hpageSorted : page.Pairwise (· < ·) :=
      (behind_pairwise (sort_pairwise_lt _)).sublist (List.take_sublist _ _)
    have hpageNodup : (sqliteBatch.map IndexEntry.id).Nodup := by
      rw [← hpageEq]
      exact hpageSorted.imp fun hlt => hlt.ne
    let missingEntries := sqliteBatch.filter fun entry =>
      decide (entry.id ∉ embedder.vectorIndex.knownEntryIds)
    let texts := missingEntries.map IndexEntry.textView
    let vectors := if texts = [] then [] else provider.embed texts
    have hlength : missingEntries.length = vectors.length := by
      change _ = (if texts = [] then [] else provider.embed texts).length
      split
      · next htexts =>
        rw [List.map_eq_nil_iff] at htexts
        rw [htexts]
        rfl
      · rw [provider.embed_length, List.length_map]
    have hids := zip_ids missingEntries vectors hlength
    have hentryOfPair : ∀ pair ∈ missingEntries.zip vectors, pair.1 ∈ missingEntries :=
      fun pair hpair => (List.of_mem_zip hpair).1
    obtain ⟨changed, hchanged, hconsistent, hknown, hshape, hcursor⟩ :=
      addVectors_spec provider (missingEntries.zip vectors) hindex
        (by
          rw [hids]
          exact (List.filter_sublist.map _).nodup hpageNodup)
        (fun pair hpair => by
          have hmem := (List.mem_filter.mp (hentryOfPair pair hpair)).2
          simpa using hmem)
        (fun pair hpair => by
          have hmem := (List.mem_filter.mp (hentryOfPair pair hpair)).1
          have hinPage : pair.1.id ∈ page := hpageEq ▸ List.mem_map_of_mem hmem
          have hsource : pair.1.id ∈ embedder.vectorEntryIds := by
            have hsorted := (mem_behind.mp (List.mem_of_mem_take hinPage)).1
            simpa using hsorted
          have hstored := vectorEntryIds_subset_storedIds embedder hsource
          rw [storedIds_eq_shape, List.mem_toFinset] at hstored
          exact hstored)
    have hstep : embedMissing provider embedder batchSize =
        ({ (addVectors provider embedder (missingEntries.zip vectors)).1 with
            reconcileAfterId := sqliteBatch.getLast?.map IndexEntry.id }, some changed) := by
      simp only [embedMissing, ← hbatch, if_neg hempty]
      rw [show (addVectors provider embedder _).2 = some changed from hchanged]
    refine ⟨changed, ?_⟩
    rw [hstep]
    refine ⟨rfl, hconsistent, ?_, hshape, ?_, hcursor⟩
    · change (addVectors provider embedder (missingEntries.zip vectors)).1.vectorIndex.knownEntryIds
        = _
      rw [hknown, hids, hpageEq]
      ext entryId
      simp only [Finset.mem_union, List.mem_toFinset, List.mem_map, missingEntries,
        List.mem_filter, decide_eq_true_eq]
      constructor
      · rintro (hmem | ⟨entry, ⟨hmem, -⟩, rfl⟩)
        · exact Or.inl hmem
        · exact Or.inr ⟨entry, hmem, rfl⟩
      · rintro (hmem | ⟨entry, hmem, rfl⟩)
        · exact Or.inl hmem
        · by_cases hentry : entry.id ∈ embedder.vectorIndex.knownEntryIds
          · exact Or.inl hentry
          · exact Or.inr ⟨entry, ⟨hmem, hentry⟩, rfl⟩
    · rw [hpageEq, List.getLast?_map]

/-! ## One call and many calls -/

theorem reconcile_spec (hindex : embedder.vectorIndex.Consistent) :
    (reconcile provider batchSize embedder).1.vectorIndex.Consistent ∧
      entryShape (reconcile provider batchSize embedder).1.indexEntries =
        entryShape embedder.indexEntries ∧
      (reconcile provider batchSize embedder).1.toReplica =
        embedder.toReplica.step embedder.vectorEntryIds embedder.storedIds batchSize := by
  by_cases hcount : countIndexEntriesByType embedder.indexEntries vectorIndexType =
      embedder.vectorIndex.entryCount
  · have hcard : embedder.vectorEntryIds.card = embedder.toReplica.known.card := by
      rw [← count_eq_card, hcount]
      exact (VectorIndex.card_knownEntryIds _).symm
    simp only [reconcile, if_pos hcount]
    refine ⟨hindex, trivial, ?_⟩
    rw [Replica.step, if_pos hcard]
    rfl
  · have hcard : embedder.vectorEntryIds.card ≠ embedder.toReplica.known.card := by
      rw [← count_eq_card]
      intro heq
      exact hcount (heq.trans (VectorIndex.card_knownEntryIds _))
    obtain ⟨hsweptIndex, hsweptKnown, hsweptCursor, hentries, hforward⟩ :=
      sweepStale_spec hindex batchSize
    obtain ⟨changed, hchanged, hconsistent, hknown, hshape, hcursor, hstale⟩ :=
      embedMissing_spec provider hsweptIndex batchSize
    have hids : (embedder.sweepStale batchSize).1.vectorEntryIds = embedder.vectorEntryIds := by
      rw [vectorEntryIds, hentries, vectorEntryIds]
    rw [hids, hforward] at hknown hcursor
    simp only [reconcile, if_neg hcount, hchanged]
    refine ⟨hconsistent, hshape.trans (by rw [hentries]), ?_⟩
    simp only [Replica.step, if_neg hcard]
    simp only [toReplica, Replica.mk.injEq]
    refine ⟨?_, hcursor, ?_⟩
    · rw [hknown, hsweptKnown]
      congr!
    · rw [hstale, hsweptCursor]
      exact if_congr Iff.rfl rfl rfl

theorem removeStale_of_stored {entries : Table IndexEntry} {batch : List String}
    (hstored : ∀ entryId ∈ batch, (entries.get entryId).isSome) (index : VectorIndex ν) :
    removeStale entries index batch = (index, 0) := by
  induction batch with
  | nil => rfl
  | cons head rest ih =>
    rw [removeStale, if_pos (hstored head List.mem_cons_self)]
    exact ih (List.forall_mem_cons.mp hstored).2

theorem reconcile_of_fixed
    (hfixed : embedder.toReplica.Fixed embedder.vectorEntryIds embedder.storedIds) :
    (reconcile provider batchSize embedder).2 = 0 ∧
      (reconcile provider batchSize embedder).1.vectorIndex = embedder.vectorIndex ∧
      (reconcile provider batchSize embedder).1.indexEntries = embedder.indexEntries ∧
      (reconcile provider batchSize embedder).1.saved = embedder.saved := by
  by_cases hcount : countIndexEntriesByType embedder.indexEntries vectorIndexType =
      embedder.vectorIndex.entryCount
  · simp [reconcile, hcount]
  · have hcard : embedder.vectorEntryIds.card ≠ embedder.toReplica.known.card := by
      rw [← count_eq_card]
      intro heq
      exact hcount (heq.trans (VectorIndex.card_knownEntryIds _))
    obtain ⟨hstale, hmissing⟩ := hfixed.resolve_left hcard
    rw [Replica.stale, Finset.sdiff_eq_empty_iff_subset] at hstale
    rw [Replica.missing, Finset.sdiff_eq_empty_iff_subset] at hmissing
    have hremove : ∀ batch : List String, (∀ entryId ∈ batch,
        entryId ∈ embedder.vectorIndex.knownEntryIds) →
        removeStale embedder.indexEntries embedder.vectorIndex batch =
          (embedder.vectorIndex, 0) := by
      intro batch hbatch
      exact removeStale_of_stored
        (fun entryId hmem => mem_storedIds.mp (hstale (hbatch entryId hmem))) _
    have hswept : ∃ cursor, embedder.sweepStale batchSize =
        ({ embedder with reconcileStaleAfterId := cursor }, 0) := by
      simp only [sweepStale, usearchIds_eq_sort, staleCandidates_eq]
      split
      · exact ⟨embedder.reconcileStaleAfterId, rfl⟩
      · rw [hremove]
        · exact ⟨_, rfl⟩
        · intro entryId hmem
          have hcandidate := List.mem_of_mem_take hmem
          rw [restartCandidates] at hcandidate
          split at hcandidate
          · simpa using hcandidate
          · simpa using (mem_behind.mp hcandidate).1
    have hembed : ∀ swept : VectorEmbedder ν, swept.vectorIndex = embedder.vectorIndex →
        swept.indexEntries = embedder.indexEntries →
        ∃ cursor, embedMissing provider swept batchSize =
          ({ swept with reconcileAfterId := cursor }, some 0) := by
      intro swept hsweptIndex hsweptEntries
      by_cases hempty : listIndexEntriesByTypePage swept.indexEntries vectorIndexType
          swept.reconcileAfterId batchSize = []
      · exact ⟨none, by simp [embedMissing, hempty]⟩
      · have hnone : (listIndexEntriesByTypePage swept.indexEntries vectorIndexType
            swept.reconcileAfterId batchSize).filter (fun entry =>
              decide (entry.id ∉ swept.vectorIndex.knownEntryIds)) = [] := by
          rw [List.filter_eq_nil_iff]
          intro entry hentry
          have hids := List.mem_map_of_mem (f := IndexEntry.id) hentry
          rw [page_ids] at hids
          have hsource : entry.id ∈ swept.vectorEntryIds := by
            simpa using (mem_behind.mp (List.mem_of_mem_take hids)).1
          rw [vectorEntryIds, hsweptEntries] at hsource
          have hknown : entry.id ∈ embedder.vectorIndex.knownEntryIds := hmissing hsource
          rw [hsweptIndex]
          simpa using hknown
        refine ⟨(listIndexEntriesByTypePage swept.indexEntries vectorIndexType
          swept.reconcileAfterId batchSize).getLast?.map IndexEntry.id, ?_⟩
        simp only [embedMissing, if_neg hempty, hnone]
        rfl
    obtain ⟨staleCursor, hsweptEq⟩ := hswept
    obtain ⟨cursor, hembedEq⟩ := hembed
      { embedder with reconcileStaleAfterId := staleCursor } rfl rfl
    simp [reconcile, hcount, hsweptEq, hembedEq]

section

variable (hindex : embedder.vectorIndex.Consistent)
include hindex

/-- Any number of calls is as many steps of the abstract replica. -/
theorem afterCalls_spec :
    (afterCalls provider batchSize calls embedder).vectorIndex.Consistent ∧
      entryShape (afterCalls provider batchSize calls embedder).indexEntries =
        entryShape embedder.indexEntries ∧
      (afterCalls provider batchSize calls embedder).toReplica =
        (Replica.step embedder.vectorEntryIds embedder.storedIds batchSize)^[calls]
          embedder.toReplica := by
  induction calls with
  | zero => exact ⟨hindex, rfl, rfl⟩
  | succ calls ih =>
    obtain ⟨hconsistent, hshape, hreplica⟩ := ih
    obtain ⟨hnext, hnextShape, hnextReplica⟩ := reconcile_spec provider batchSize hconsistent
    rw [vectorEntryIds_eq_shape, storedIds_eq_shape, hshape, ← vectorEntryIds_eq_shape,
      ← storedIds_eq_shape, hreplica,
      ← Function.iterate_succ_apply' (Replica.step _ _ batchSize)] at hnextReplica
    rw [afterCalls, Function.iterate_succ_apply']
    exact ⟨hnext, hnextShape.trans hshape, hnextReplica⟩

theorem vectorEntryIds_afterCalls :
    (afterCalls provider batchSize calls embedder).vectorEntryIds = embedder.vectorEntryIds := by
  rw [vectorEntryIds_eq_shape, (afterCalls_spec provider batchSize calls hindex).2.1,
    ← vectorEntryIds_eq_shape]

theorem storedIds_afterCalls :
    (afterCalls provider batchSize calls embedder).storedIds = embedder.storedIds := by
  rw [storedIds_eq_shape, (afterCalls_spec provider batchSize calls hindex).2.1,
    ← storedIds_eq_shape]

/-- Calls after the replica is fixed report no change and leave everything but
the cursors alone. -/
theorem afterCalls_of_fixed
    (hfixed : embedder.toReplica.Fixed embedder.vectorEntryIds embedder.storedIds) :
    (afterCalls provider batchSize calls embedder).vectorIndex = embedder.vectorIndex ∧
      (afterCalls provider batchSize calls embedder).indexEntries = embedder.indexEntries ∧
      (afterCalls provider batchSize calls embedder).saved = embedder.saved ∧
      (reconcile provider batchSize (afterCalls provider batchSize calls embedder)).2 = 0 := by
  induction calls generalizing embedder with
  | zero => exact ⟨rfl, rfl, rfl, (reconcile_of_fixed provider batchSize hfixed).1⟩
  | succ calls ih =>
    obtain ⟨hconsistent, hshape, hreplica⟩ := reconcile_spec provider batchSize hindex
    obtain ⟨-, hindexEq, hentriesEq, hsavedEq⟩ := reconcile_of_fixed provider batchSize hfixed
    have hstill : (reconcile provider batchSize embedder).1.toReplica.Fixed
        (reconcile provider batchSize embedder).1.vectorEntryIds
        (reconcile provider batchSize embedder).1.storedIds := by
      rw [vectorEntryIds, storedIds, hentriesEq, hreplica]
      exact (hfixed.step batchSize).2
    obtain ⟨hlaterIndex, hlaterEntries, hlaterSaved, hlaterCount⟩ := ih hconsistent hstill
    rw [afterCalls, Function.iterate_succ_apply]
    exact ⟨hlaterIndex.trans hindexEq, hlaterEntries.trans hentriesEq,
      hlaterSaved.trans hsavedEq, hlaterCount⟩

end

/-- After finitely many calls nothing changes any more, and then the index
holds the vector entries and the other stored ids it started with, or merely
as many ids as there are vector entries.  A start that only lacks entries or
only has stale ones ends at exactly the vector entries. -/
theorem reconcile_reaches_limit (provider : EmbeddingProvider ν) {batchSize : ℕ}
    (hbatch : 0 < batchSize) (embedder : VectorEmbedder ν)
    (hindex : embedder.vectorIndex.Consistent) :
    ∃ calls,
      (∀ later, calls ≤ later →
        (afterCalls provider batchSize later embedder).vectorIndex =
            (afterCalls provider batchSize calls embedder).vectorIndex ∧
          (afterCalls provider batchSize later embedder).indexEntries =
            (afterCalls provider batchSize calls embedder).indexEntries ∧
          (afterCalls provider batchSize later embedder).saved =
            (afterCalls provider batchSize calls embedder).saved ∧
          (reconcile provider batchSize (afterCalls provider batchSize later embedder)).2 = 0) ∧
      ((afterCalls provider batchSize calls embedder).vectorIndex.knownEntryIds =
          embedder.vectorEntryIds ∪ (embedder.vectorIndex.knownEntryIds ∩
            (embedder.storedIds \ embedder.vectorEntryIds)) ∨
        (afterCalls provider batchSize calls embedder).vectorIndex.knownEntryIds.card =
          embedder.vectorEntryIds.card) ∧
      ((embedder.vectorIndex.knownEntryIds ⊆ embedder.vectorEntryIds ∨
          embedder.vectorEntryIds ⊆ embedder.vectorIndex.knownEntryIds) →
        embedder.vectorIndex.knownEntryIds ∩
          (embedder.storedIds \ embedder.vectorEntryIds) = ∅ →
        (afterCalls provider batchSize calls embedder).vectorIndex.knownEntryIds =
          embedder.vectorEntryIds) := by
  have hsource := vectorEntryIds_subset_storedIds embedder
  obtain ⟨calls, hfixed, hlimit⟩ := Replica.exists_limit hsource hbatch embedder.toReplica
  obtain ⟨hconsistent, hshape, hreplica⟩ := afterCalls_spec provider batchSize calls hindex
  have hknown : (afterCalls provider batchSize calls embedder).vectorIndex.knownEntryIds =
      ((Replica.step embedder.vectorEntryIds embedder.storedIds batchSize)^[calls]
        embedder.toReplica).known := by
    rw [← hreplica]
    rfl
  have hfixedNow : (afterCalls provider batchSize calls embedder).toReplica.Fixed
      (afterCalls provider batchSize calls embedder).vectorEntryIds
      (afterCalls provider batchSize calls embedder).storedIds := by
    rw [vectorEntryIds_afterCalls provider batchSize calls hindex,
      storedIds_afterCalls provider batchSize calls hindex, hreplica]
    exact hfixed
  refine ⟨calls, fun later hlater => ?_, ?_, fun hsided hforeign => ?_⟩
  · obtain ⟨rest, rfl⟩ := Nat.exists_eq_add_of_le' hlater
    have hrest := afterCalls_of_fixed provider batchSize rest hconsistent hfixedNow
    rw [afterCalls, Function.iterate_add_apply]
    exact hrest
  · rw [hknown]
    exact hlimit
  · rw [hknown]
    exact Replica.known_eq_source_of_one_sided hsource hsided hforeign hlimit

end VectorEmbedder

/-! ## Concrete starts -/

theorem length_units (texts : List String) : (texts.map fun _ => ()).length = texts.length :=
  List.length_map _

/-- A provider whose vectors carry no information. -/
def unitProvider : EmbeddingProvider Unit where
  modelName := "unit"
  dimensions := 1
  embed texts := texts.map fun _ => ()
  embed_length := length_units

/-- SQLite stores the vector entry `a`. -/
def oneEntry : Table IndexEntry :=
  ⟨[⟨"a", "observation", "o", vectorIndexType, "text", none, none, none⟩], by simp⟩

/-- An index without entries. -/
def emptyIndex : VectorIndex Unit := ⟨∅, ∅, 0, ∅, "unit", 1, 1⟩

theorem emptyIndex_consistent : emptyIndex.Consistent := by
  refine ⟨fun entryId key hlookup => ?_, fun key _ => AList.notMem_empty key,
    fun entryId key hlookup => ?_⟩ <;> simp [emptyIndex] at hlookup

/-- An index that lacks the stored entry is repaired. -/
theorem reconcile_reaches_limit_oneEntry :
    ∃ calls, (VectorEmbedder.afterCalls unitProvider 1 calls
      ⟨oneEntry, emptyIndex, none, none, none⟩).vectorIndex.knownEntryIds = {"a"} := by
  obtain ⟨calls, -, -, hexact⟩ := VectorEmbedder.reconcile_reaches_limit unitProvider one_pos
    ⟨oneEntry, emptyIndex, none, none, none⟩ emptyIndex_consistent
  exact ⟨calls, hexact (Or.inl (by decide)) (by decide)⟩

/-- SQLite stores the vector entry `a`, the index knows only `b`. -/
def disjointEmbedder : VectorEmbedder Unit where
  indexEntries := oneEntry
  vectorIndex := (emptyIndex.add "b" ()).1
  saved := none
  reconcileAfterId := none
  reconcileStaleAfterId := none

/-- One stored entry and one stale id agree in number, so no call ever repairs
the index. -/
theorem reconcile_disjoint_never_converges :
    disjointEmbedder.vectorIndex.Consistent ∧
      ¬ ∃ calls, (VectorEmbedder.afterCalls unitProvider 1 calls
        disjointEmbedder).vectorIndex.knownEntryIds = disjointEmbedder.vectorEntryIds := by
  have hindex : disjointEmbedder.vectorIndex.Consistent :=
    (VectorIndex.add_unknown emptyIndex_consistent
      (show "b" ∉ emptyIndex.knownEntryIds by decide) ()).2.1
  have hcount : disjointEmbedder.toReplica.Fixed disjointEmbedder.vectorEntryIds
      disjointEmbedder.storedIds := Or.inl (by decide)
  refine ⟨hindex, ?_⟩
  rintro ⟨calls, hcalls⟩
  rw [(VectorEmbedder.afterCalls_of_fixed unitProvider 1 calls hindex hcount).1] at hcalls
  revert hcalls
  decide

end Pallium.Vector
