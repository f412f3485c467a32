import Pallium.Core.Run
import Pallium.Vector.RebuildCoordinator

/-!
# Resuming a rebuild

A rebuild in memory always holds the vectors of the entries up to its cursor.
What is on disk may lag behind: the state file is replaced after every page, the
shadow only after some of them.  If the shadow on disk holds the vectors up to
the stored cursor whenever a rebuild is interrupted, a rebuild that completes
has them all.
-/

namespace Pallium.Vector

open Pallium.Run Pallium.Paging

variable {ν : Type*}

/-- The index holds the vectors of all entries that the cursor has passed. -/
def Covers (begun : List String) (index : VectorIndex ν) (cursor : Option String) : Prop :=
  ∀ entryId ∈ begun, ¬Beyond cursor entryId → index.Holds entryId

instance (begun : List String) (index : VectorIndex ν) (cursor : Option String) :
    Decidable (Covers begun index cursor) :=
  inferInstanceAs (Decidable (∀ entryId ∈ begun, ¬Beyond cursor entryId → index.Holds entryId))

namespace RebuildTarget

variable (target : RebuildTarget ν) {entries after : Table IndexEntry} {entryId : String}

theorem mem_worded : entryId ∈ target.worded entries ↔
    ∃ entry, entries.get entryId = some entry ∧ entry.indexType = vectorIndexType ∧
      target.embeddingText entry ≠ "" := by
  simp only [worded, List.mem_map, List.mem_filter, Bool.and_eq_true, beq_iff_eq, bne_iff_ne]
  constructor
  · rintro ⟨entry, ⟨hmem, htype, htext⟩, rfl⟩
    exact ⟨entry, Table.get_of_mem hmem, htype, htext⟩
  · rintro ⟨entry, hget, htype, htext⟩
    exact ⟨entry, ⟨Table.mem_of_get hget, htype, htext⟩, Table.key_of_get hget⟩

theorem worded_insertNew {row : IndexEntry} (hinsert : entries.insertNew row = some after)
    (hworded : entryId ∈ target.worded entries) : entryId ∈ target.worded after := by
  rw [mem_worded] at hworded ⊢
  obtain ⟨entry, hget, hentry⟩ := hworded
  refine ⟨entry, ?_, hentry⟩
  rw [Table.get_insertNew hinsert]
  split
  · next hkey =>
      rw [hkey, Table.get_eq_none_of_insertNew hinsert] at hget
      cases hget
  · exact hget

theorem get_refreshTextView (entries : Table IndexEntry) (entry : IndexEntry) (entryId : String) :
    (target.refreshTextView entries entry).get entryId = if entryId = entry.id then
      (entries.get entryId).map fun stored =>
        { stored with textView := target.embeddingText stored }
      else entries.get entryId := by
  refine Table.get_modify _ _ ?_ entryId
  exact fun row => rfl

theorem worded_refresh (batch : List IndexEntry) (hworded : entryId ∈ target.worded entries) :
    entryId ∈ target.worded (batch.foldl target.refreshTextView entries) := by
  induction batch generalizing entries with
  | nil => exact hworded
  | cons head rest ih =>
    refine ih ?_
    rw [mem_worded] at hworded ⊢
    obtain ⟨entry, hget, htype, htext⟩ := hworded
    rw [get_refreshTextView, hget]
    split
    · refine ⟨_, rfl, htype, ?_⟩
      have hsame : target.embeddingText
          { entry with textView := target.embeddingText entry } =
            target.embeddingText entry := by
        unfold embeddingText
        cases target.recompute entry.targetKind entry.targetId entry.textViewName <;> rfl
      rw [hsame]
      exact htext
    · exact ⟨entry, rfl, htype, htext⟩

theorem count_refresh (batch : List IndexEntry) (entries : Table IndexEntry) :
    countIndexEntriesByType (batch.foldl target.refreshTextView entries) vectorIndexType =
      countIndexEntriesByType entries vectorIndexType := by
  induction batch generalizing entries with
  | nil => rfl
  | cons head rest ih =>
    rw [List.foldl_cons, ih]
    have hkey : ∀ row : IndexEntry, key (if key row = head.id then
        { row with textView := target.embeddingText row } else row) = key row := by
      intro row
      split <;> rfl
    simp only [countIndexEntriesByType, refreshTextView, Table.modify,
      Table.rows_updateAll entries hkey, List.filter_map, List.length_map]
    congr 2
    funext row
    simp only [Function.comp_apply]
    split <;> rfl

theorem addVectors_spec {pairs : List (String × ν)} {shadow : VectorIndex ν}
    (hmapped : shadow.Mapped) (hok : (addVectors shadow pairs).2 = .ok ()) :
    (addVectors shadow pairs).1.Mapped ∧
      (∀ entryId, entryId ∈ pairs.map Prod.fst ∨ shadow.Holds entryId →
        (addVectors shadow pairs).1.Holds entryId) := by
  induction pairs generalizing shadow with
  | nil =>
    refine ⟨hmapped, fun entryId hknown => ?_⟩
    rcases hknown with hmem | hholds
    · cases hmem
    · exact hholds
  | cons head rest ih =>
    obtain ⟨headId, vector⟩ := head
    simp only [addVectors] at hok ⊢
    split at hok
    · cases hok
    · next added hadd =>
        have hadded := @VectorIndex.Mapped.add _ shadow headId vector hmapped (by rw [hadd])
        rw [hadd] at hadded
        obtain ⟨hmappedAdded, hheld, hkept⟩ := hadded
        obtain ⟨hfinal, hholds⟩ := ih hmappedAdded hok
        refine ⟨hfinal, fun entryId hknown => hholds entryId ?_⟩
        rcases hknown with hmem | hbefore
        · rcases List.mem_cons.mp hmem with rfl | hrest
          · exact Or.inr hheld
          · exact Or.inl hrest
        · exact Or.inr (hkept entryId hbefore)

theorem mem_page {cursor : Option String} {limit : ℕ} (hlimit : 0 < limit)
    (hworded : entryId ∈ target.worded entries) (hbeyond : Beyond cursor entryId) :
    let page := listVectorEntriesPage entries cursor limit
    (∃ entry ∈ page, entry.id = entryId ∧ target.embeddingText entry ≠ "") ∨
      ∃ last, page.getLast? = some last ∧ Beyond (some last.id) entryId := by
  intro page
  obtain ⟨entry, hget, htype, htext⟩ := (target.mem_worded).mp hworded
  have hid : entry.id = entryId := Table.key_of_get hget
  let sorted := (entries.rows.filter fun entry =>
    decide (entry.indexType = vectorIndexType)).insertionSort idOrder
  have hmem : ∀ other, other ∈ sorted ↔
      other ∈ entries.rows ∧ other.indexType = vectorIndexType := fun other => by
    rw [List.mem_insertionSort, List.mem_filter, decide_eq_true_eq]
  let pending := sorted.filter fun entry => decide (Beyond cursor entry.id)
  have hpending : entry ∈ pending :=
    List.mem_filter.mpr ⟨(hmem entry).mpr ⟨Table.mem_of_get hget, htype⟩,
      by rw [hid]; exact decide_eq_true hbeyond⟩
  have hsorted : (pending.take limit ++ pending.drop limit).Pairwise idOrder := by
    rw [List.take_append_drop]
    exact (List.pairwise_insertionSort idOrder _).filter _
  rw [← List.take_append_drop limit pending, List.mem_append] at hpending
  rcases hpending with hpage | hlater
  · exact Or.inl ⟨entry, hpage, hid, htext⟩
  · have hne : page ≠ [] := by
      intro hnil
      rcases List.take_eq_nil_iff.mp (show pending.take limit = [] from hnil) with hzero | hempty
      · omega
      · rw [hempty, List.drop_nil] at hlater
        cases hlater
    have hlast := List.getLast_mem hne
    have hle := (List.pairwise_append.mp hsorted).2.2 _ hlast _ hlater
    rcases lt_or_eq_of_le (show (page.getLast hne).id ≤ entry.id from hle) with hlt | heq
    · exact Or.inr ⟨page.getLast hne, List.getLast?_eq_some_getLast hne,
        beyond_some.mpr (hid ▸ hlt)⟩
    · have hlastRow : page.getLast hne ∈ entries.rows :=
        ((hmem _).mp (List.mem_filter.mp (List.mem_of_mem_take hlast)).1).1
      have hsame : page.getLast hne = entry := by
        have hlastGet := Table.get_of_mem hlastRow
        rw [show key (page.getLast hne) = entryId from heq.trans hid, hget] at hlastGet
        exact (Option.some.inj hlastGet).symm
      exact Or.inl ⟨entry, hsame ▸ hlast, hid, htext⟩

end RebuildTarget

namespace RebuildMachine

open RebuildTarget
open IndexFiles (write ofIndex saveOrder)

variable (target : RebuildTarget ν)

/-- A rebuild that would go on from the stored cursor finds the vectors of all
entries before it in the shadow on disk. -/
def Resumable (machine : RebuildMachine ν) : Prop :=
  ∀ checkpoint ∈ machine.disk.state, checkpoint.status = .inProgress →
    checkpoint.entryCountTotal =
        countIndexEntriesByType machine.indexEntries vectorIndexType →
      machine.disk.shadow.native.isSome ∧ machine.disk.shadow.metadata.isSome →
        ∀ shadow ∈ machine.disk.shadow.load,
          Covers machine.begun shadow checkpoint.lastProcessedEntryId

instance (machine : RebuildMachine ν) : Decidable machine.Resumable := by
  unfold Resumable
  infer_instance

/-- Batches are not empty, and a rebuild is interrupted only where it can be
resumed. -/
def Meets (machine : RebuildMachine ν) : RebuildOp → Prop
  | .start batchSize _ => 0 < batchSize
  | .interrupt => machine.Resumable
  | _ => True

instance (machine : RebuildMachine ν) (op : RebuildOp) : Decidable (machine.Meets op) := by
  cases op <;> unfold Meets <;> infer_instance

/-- An index that is swapped in has a vector for every entry with text that there
was when the rebuild began. -/
def SwapsComplete (machine : RebuildMachine ν) (op : RebuildOp) : Prop :=
  ∀ index ∈ machine.swapped op, ∀ entryId ∈ machine.begun, index.Holds entryId

instance (machine : RebuildMachine ν) (op : RebuildOp) : Decidable (machine.SwapsComplete op) := by
  unfold SwapsComplete
  infer_instance

/-- The shadow in memory up to the cursor in memory. -/
structure Building (begun : List String) (stored : ℕ) (checkpoint : RebuildCheckpoint)
    (shadow : VectorIndex ν) : Prop where
  mapped : shadow.Mapped
  covers : Covers begun shadow checkpoint.lastProcessedEntryId
  counted : checkpoint.entryCountTotal ≤ stored

/-- The number of stored vector entries. -/
def stored (machine : RebuildMachine ν) : ℕ :=
  countIndexEntriesByType machine.indexEntries vectorIndexType

/-- What each phase may rely on. -/
def PhaseSound (machine : RebuildMachine ν) : RebuildPhase ν → Prop
  | .inventory _ => machine.Resumable
  | .ready checkpoint shadow => Building machine.begun machine.stored checkpoint shadow
  | .saving checkpoint shadow final remaining =>
    Building machine.begun machine.stored checkpoint shadow ∧
      (final = true → ∀ entryId ∈ machine.begun, shadow.Holds entryId) ∧
        remaining.foldl (write shadow) machine.disk.shadow = ofIndex shadow
  | .validating _ => ∃ shadow, (∀ entryId ∈ machine.begun, shadow.Holds entryId) ∧
      machine.disk.shadow = ofIndex shadow
  | .swapping _ remaining => ∃ shadow, (∀ entryId ∈ machine.begun, shadow.Holds entryId) ∧
      (remaining.foldl RebuildDisk.move machine.disk).live = ofIndex shadow
  | .reloading _ => ∃ shadow, (∀ entryId ∈ machine.begun, shadow.Holds entryId) ∧
      machine.disk.live = ofIndex shadow
  | .removingShadow _ => True
  | .removingState _ => True

/-- What holds of the entries and the files whatever the phase. -/
structure Grounded (machine : RebuildMachine ν) : Prop where
  listed : ∀ entryId ∈ machine.begun, entryId ∈ target.worded machine.indexEntries
  idMap : ∀ idMap ∈ machine.disk.shadow.idMap, idMap.Injective
  counted : ∀ checkpoint ∈ machine.disk.state, checkpoint.status = .inProgress →
    checkpoint.entryCountTotal ≤ countIndexEntriesByType machine.indexEntries vectorIndexType

structure Sound (machine : RebuildMachine ν) : Prop extends machine.Grounded target where
  idle : machine.task = none → machine.Resumable
  running : ∀ task ∈ machine.task, 0 < task.batchSize ∧ machine.PhaseSound task.phase

section Steps

variable {target} {machine : RebuildMachine ν} {task : RebuildTask ν}

variable {checkpoint : RebuildCheckpoint} {shadow : VectorIndex ν}

/-- Entries are only added. -/
structure Grown (before after : Table IndexEntry) : Prop where
  worded : ∀ entryId ∈ target.worded before, entryId ∈ target.worded after
  counted : countIndexEntriesByType before vectorIndexType ≤
    countIndexEntriesByType after vectorIndexType

theorem grown_insertNew {entries after : Table IndexEntry} {row : IndexEntry}
    (hinsert : entries.insertNew row = some after) : @Grown _ target entries after where
  worded _ hworded := target.worded_insertNew hinsert hworded
  counted := by
    rw [countIndexEntriesByType, countIndexEntriesByType, Table.rows_insertNew hinsert,
      List.filter_append, List.length_append]
    exact Nat.le_add_right _ _

variable {entries : Table IndexEntry} {backlog : List IndexEntry}

section

variable (hgrounded : machine.Grounded target)
  (hgrown : @Grown _ target machine.indexEntries entries)
include hgrounded hgrown

theorem Grounded.grow :
    Grounded target { machine with indexEntries := entries, backlog := backlog } where
  listed entryId hbegun := hgrown.worded entryId (hgrounded.listed entryId hbegun)
  idMap := hgrounded.idMap
  counted checkpoint hcheckpoint hstatus :=
    (hgrounded.counted checkpoint hcheckpoint hstatus).trans hgrown.counted

theorem Grounded.resumable_grow (hresumable : machine.Resumable) :
    Resumable { machine with indexEntries := entries, backlog := backlog } := by
  intro checkpoint hcheckpoint hstatus htotal
  have hbefore := hgrounded.counted checkpoint hcheckpoint hstatus
  have hsame : checkpoint.entryCountTotal =
      countIndexEntriesByType machine.indexEntries vectorIndexType := by
    have hafter := hgrown.counted
    have htotal' : checkpoint.entryCountTotal = countIndexEntriesByType entries vectorIndexType :=
      htotal
    omega
  exact hresumable checkpoint hcheckpoint hstatus hsame

theorem Grounded.phaseSound_grow {phase : RebuildPhase ν}
    (hphase : machine.PhaseSound phase) :
    PhaseSound { machine with indexEntries := entries, backlog := backlog } phase := by
  have hbuilding : ∀ checkpoint (shadow : VectorIndex ν),
      Building machine.begun machine.stored checkpoint shadow →
        Building machine.begun (countIndexEntriesByType entries vectorIndexType) checkpoint
          shadow :=
    fun checkpoint shadow hbuilding =>
      ⟨hbuilding.mapped, hbuilding.covers, hbuilding.counted.trans hgrown.counted⟩
  cases phase with
  | inventory created => exact hgrounded.resumable_grow hgrown hphase
  | ready checkpoint shadow => exact hbuilding _ _ hphase
  | saving checkpoint shadow final remaining =>
    exact ⟨hbuilding _ _ hphase.1, hphase.2⟩
  | _ => exact hphase

end

theorem Sound.grow (hsound : machine.Sound target)
    (hgrown : @Grown _ target machine.indexEntries entries) :
    Sound target { machine with indexEntries := entries, backlog := backlog } where
  toGrounded := hsound.toGrounded.grow hgrown
  idle hnone := hsound.toGrounded.resumable_grow hgrown (hsound.idle hnone)
  running task htask :=
    ⟨(hsound.running task htask).1,
      hsound.toGrounded.phaseSound_grow hgrown (hsound.running task htask).2⟩

theorem Grounded.setPhase (hgrounded : machine.Grounded target) (hbatch : 0 < task.batchSize)
    {phase : RebuildPhase ν} (hphase : machine.PhaseSound phase) :
    Sound target (machine.setPhase task phase) where
  toGrounded := ⟨hgrounded.listed, hgrounded.idMap, hgrounded.counted⟩
  idle hnone := nomatch hnone
  running current hcurrent := by
    cases hcurrent
    refine ⟨hbatch, ?_⟩
    cases phase <;> exact hphase

theorem Grounded.fail (hgrounded : machine.Grounded target) (checkpoint : RebuildCheckpoint) :
    Sound target (machine.fail (some checkpoint)) where
  listed := hgrounded.listed
  idMap := hgrounded.idMap
  counted saved hsaved hstatus := by
    cases hsaved
    cases hstatus
  idle _ saved hsaved hstatus := by
    cases hsaved
    cases hstatus
  running _ htask := nomatch htask

theorem Sound.fault (hsound : machine.Sound target) (htask : task ∈ machine.task) :
    Sound target (machine.fail task.phase.checkpoint) := by
  cases hphase : task.phase with
  | inventory created =>
    have hrunning := (hsound.running task htask).2
    rw [hphase] at hrunning
    exact ⟨⟨hsound.listed, hsound.idMap, hsound.counted⟩, fun _ => hrunning,
      fun _ hnone => nomatch hnone⟩
  | _ => exact hsound.toGrounded.fail _

theorem building_create (hcursor : checkpoint.lastProcessedEntryId = none)
    (hcounted : checkpoint.entryCountTotal ≤ machine.stored) :
    Building machine.begun machine.stored checkpoint target.createShadowIndex where
  mapped := VectorIndex.mapped_create _ _ _
  covers entryId _ hpassed := by
    rw [hcursor] at hpassed
    exact absurd (beyond_none entryId) hpassed
  counted := hcounted

section

variable (hgrounded : machine.Grounded target) (hbatch : 0 < task.batchSize)
include hgrounded hbatch

theorem Grounded.startOrResume (hresumable : machine.Resumable) (created : ℕ) :
    Sound target (machine.startOrResume target task created) := by
  unfold RebuildMachine.startOrResume
  simp only
  split
  · next existing hexisting =>
      obtain ⟨hstate, hstatus⟩ := Option.filter_eq_some_iff.mp hexisting
      have hprogress : existing.status = .inProgress := by simpa using hstatus
      have hcounted := hgrounded.counted existing hstate hprogress
      split
      · exact hgrounded.setPhase hbatch (building_create rfl (Nat.le_refl _))
      · next hsame =>
          rw [not_or, not_not] at hsame
          split
          · next hfiles =>
              split
              · next shadow hload =>
                  exact hgrounded.setPhase hbatch
                    ⟨IndexFiles.mapped_of_load hgrounded.idMap hload,
                      hresumable existing hstate hprogress hsame.2.symm hfiles shadow hload,
                      hcounted⟩
              · exact hgrounded.fail existing
          · exact hgrounded.setPhase hbatch (building_create rfl hcounted)
  · let fresh : RebuildCheckpoint := ⟨.inProgress, none, machine.stored, 0⟩
    have hfresh : Grounded target
        { machine with disk := { machine.disk with state := some fresh } } := by
      refine ⟨hgrounded.listed, hgrounded.idMap, fun checkpoint hcheckpoint _ => ?_⟩
      cases hcheckpoint
      exact Nat.le_refl _
    exact hfresh.setPhase hbatch (building_create rfl (Nat.le_refl _))

theorem Grounded.holds_of_empty_page
    (hbuilding : Building machine.begun machine.stored checkpoint shadow)
    (hempty : listVectorEntriesPage machine.indexEntries
      checkpoint.lastProcessedEntryId task.batchSize = []) :
    ∀ entryId ∈ machine.begun, shadow.Holds entryId := by
  intro entryId hbegun
  by_cases hbeyond : Beyond checkpoint.lastProcessedEntryId entryId
  · rcases target.mem_page hbatch (hgrounded.listed entryId hbegun) hbeyond with
      ⟨entry, hentry, -⟩ | ⟨last, hlast, -⟩
    · rw [hempty] at hentry
      cases hentry
    · rw [hempty] at hlast
      cases hlast
  · exact hbuilding.covers entryId hbegun hbeyond

/-- The shadow after a page covers the entries up to its end. -/
theorem Grounded.building_page (hbuilding : Building machine.begun machine.stored checkpoint shadow)
    {batch valid : List IndexEntry} (hpage : batch = listVectorEntriesPage machine.indexEntries
      checkpoint.lastProcessedEntryId task.batchSize)
    (hvalid : valid = batch.filter fun entry => target.embeddingText entry ≠ "")
    (hok : (addVectors shadow ((valid.map IndexEntry.id).zip
      (target.provider.embed (valid.map target.embeddingText)))).2 = .ok ()) (processed : ℕ) :
    Building machine.begun machine.stored
      { checkpoint with
        lastProcessedEntryId := batch.getLast?.map IndexEntry.id
        entryCountProcessed := processed }
      (addVectors shadow ((valid.map IndexEntry.id).zip
        (target.provider.embed (valid.map target.embeddingText)))).1 := by
  obtain ⟨hmapped, hholds⟩ := addVectors_spec hbuilding.mapped hok
  refine ⟨hmapped, fun entryId hbegun hpassed => hholds entryId ?_, hbuilding.counted⟩
  by_cases hbeyond : Beyond checkpoint.lastProcessedEntryId entryId
  · rcases target.mem_page hbatch (hgrounded.listed entryId hbegun) hbeyond with
      ⟨entry, hentry, rfl, htext⟩ | ⟨last, hlast, hlater⟩
    · refine Or.inl ?_
      rw [List.map_fst_zip (by rw [target.provider.embed_length, List.length_map, List.length_map])]
      refine List.mem_map_of_mem ?_
      rw [hvalid, hpage]
      exact List.mem_filter.mpr ⟨hentry, decide_eq_true htext⟩
    · refine absurd ?_ hpassed
      rw [← hpage] at hlast
      rw [hlast]
      exact hlater
  · exact Or.inr (hbuilding.covers entryId hbegun hbeyond)

end

theorem grown_refresh (batch : List IndexEntry) :
    @Grown _ target machine.indexEntries
      (batch.foldl target.refreshTextView machine.indexEntries) where
  worded _ hworded := target.worded_refresh batch hworded
  counted := (target.count_refresh batch machine.indexEntries).ge

theorem Grounded.processOneBatch (hgrounded : machine.Grounded target) (hbatch : 0 < task.batchSize)
    (hbuilding : Building machine.begun machine.stored checkpoint shadow) :
    Sound target (machine.processOneBatch target task checkpoint shadow) := by
  unfold RebuildMachine.processOneBatch
  simp only
  split
  · next hempty =>
      exact hgrounded.setPhase hbatch
        ⟨hbuilding, fun _ => hgrounded.holds_of_empty_page hbatch hbuilding hempty, rfl⟩
  · have hrefreshed := @Grounded.grow _ target machine _ machine.backlog hgrounded
      (grown_refresh (listVectorEntriesPage machine.indexEntries
            checkpoint.lastProcessedEntryId task.batchSize))
    split
    · exact hrefreshed.fail checkpoint
    · next added hadd =>
        have hbuilt := hgrounded.building_page hbatch hbuilding rfl rfl (by rw [hadd])
          (checkpoint.entryCountProcessed + (listVectorEntriesPage machine.indexEntries
            checkpoint.lastProcessedEntryId task.batchSize).length)
        rw [hadd, stored, ← target.count_refresh (listVectorEntriesPage machine.indexEntries
            checkpoint.lastProcessedEntryId task.batchSize)] at hbuilt
        generalize listVectorEntriesPage machine.indexEntries checkpoint.lastProcessedEntryId
          task.batchSize = batch at hrefreshed hbuilt
        let saved : RebuildCheckpoint :=
          { checkpoint with
            lastProcessedEntryId := batch.getLast?.map IndexEntry.id
            entryCountProcessed := checkpoint.entryCountProcessed + batch.length }
        have hsaved : Grounded target
            { machine with
              indexEntries := batch.foldl target.refreshTextView machine.indexEntries
              disk := { machine.disk with state := some saved } } := by
          refine ⟨hrefreshed.listed, hrefreshed.idMap, fun current hcurrent _ => ?_⟩
          cases hcurrent
          exact hbuilt.counted
        split
        · exact hsaved.fail saved
        · split
          · exact hsaved.setPhase hbatch ⟨hbuilt, fun hfinal => (nomatch hfinal), rfl⟩
          · exact hsaved.setPhase hbatch hbuilt

theorem live_swapOrder {disk : RebuildDisk ν} (hshadow : disk.shadow = ofIndex shadow) :
    (RebuildDisk.swapOrder.foldl RebuildDisk.move disk).live = ofIndex shadow := by
  obtain ⟨state, files, live, old⟩ := disk
  obtain rfl : files = ofIndex shadow := hshadow
  rfl

theorem idMap_move {disk : RebuildDisk ν} (first : FileMove)
    (hidMap : ∀ idMap ∈ disk.shadow.idMap, idMap.Injective) :
    ∀ idMap ∈ (disk.move first).shadow.idMap, idMap.Injective := by
  cases first with
  | backup file => exact hidMap
  | install file =>
    cases file with
    | idMap => exact fun _ hnone => nomatch hnone
    | native => exact hidMap
    | metadata => exact hidMap
  | discard file => exact hidMap

theorem idMap_write {files : IndexFiles ν} (hmapped : shadow.Mapped) (file : IndexFile)
    (hidMap : ∀ idMap ∈ files.idMap, idMap.Injective) :
    ∀ idMap ∈ (write shadow files file).idMap, idMap.Injective := by
  cases file with
  | idMap =>
    intro idMap hsome
    cases hsome
    exact hmapped.idMap
  | native => exact hidMap
  | metadata => exact hidMap

theorem Sound.advance (hsound : machine.Sound target) (htask : task ∈ machine.task) :
    Sound target (machine.advance target task) := by
  obtain ⟨hbatch, hphase⟩ := hsound.running task htask
  have hgrounded := hsound.toGrounded
  unfold RebuildMachine.advance
  split
  · next created heq =>
      rw [heq] at hphase
      split
      · exact hgrounded.startOrResume hbatch hphase created
      · next entry rest hbacklog =>
          split
          · next indexEntries hinsert =>
              have hgrown := @grown_insertNew _ target _ _ _ hinsert
              have hnext : Grounded target
                  { machine with indexEntries := indexEntries, backlog := rest } :=
                hgrounded.grow hgrown
              exact hnext.setPhase hbatch (hgrounded.phaseSound_grow hgrown hphase)
          · have hnext : Grounded target { machine with backlog := rest } :=
              ⟨hgrounded.listed, hgrounded.idMap, hgrounded.counted⟩
            exact hnext.setPhase hbatch hphase
  · next checkpoint shadow heq =>
      rw [heq] at hphase
      exact hgrounded.processOneBatch hbatch hphase
  · next checkpoint shadow final heq =>
      rw [heq] at hphase
      obtain ⟨hbuilding, hcomplete, hfiles⟩ := hphase
      cases final with
      | false => exact hgrounded.setPhase hbatch hbuilding
      | true => exact hgrounded.setPhase hbatch ⟨shadow, hcomplete rfl, hfiles⟩
  · next checkpoint shadow final file remaining heq =>
      rw [heq] at hphase
      obtain ⟨hbuilding, hcomplete, hfiles⟩ := hphase
      have hnext : Grounded target
          { machine with
            disk := { machine.disk with shadow := machine.disk.shadow.write shadow file } } :=
        ⟨hgrounded.listed, idMap_write hbuilding.mapped file hgrounded.idMap, hgrounded.counted⟩
      exact hnext.setPhase hbatch ⟨hbuilding, hcomplete, hfiles⟩
  · next checkpoint heq =>
      rw [heq] at hphase
      obtain ⟨shadow, hcomplete, hfiles⟩ := hphase
      split
      · exact hgrounded.fail checkpoint
      · split
        · exact hgrounded.fail checkpoint
        · exact hgrounded.setPhase hbatch ⟨shadow, hcomplete, live_swapOrder hfiles⟩
  · next checkpoint heq =>
      rw [heq] at hphase
      exact hgrounded.setPhase hbatch hphase
  · next checkpoint first remaining heq =>
      rw [heq] at hphase
      obtain ⟨shadow, hcomplete, hfiles⟩ := hphase
      have hnext : Grounded target { machine with disk := machine.disk.move first } := by
        refine ⟨hgrounded.listed, idMap_move first hgrounded.idMap, ?_⟩
        cases first <;> exact hgrounded.counted
      exact hnext.setPhase hbatch ⟨shadow, hcomplete, hfiles⟩
  · next checkpoint heq =>
      split
      · exact hgrounded.fail checkpoint
      · next newIndex hload =>
          have hnext : Grounded target { machine with holder := some newIndex } :=
            ⟨hgrounded.listed, hgrounded.idMap, hgrounded.counted⟩
          exact @Grounded.setPhase _ _ _ task hnext hbatch (.removingShadow checkpoint) trivial
  · next checkpoint heq =>
      have hnext : Grounded target
          { machine with disk := { machine.disk with shadow := IndexFiles.none } } :=
        ⟨hgrounded.listed, fun _ hnone => (nomatch hnone), hgrounded.counted⟩
      exact @Grounded.setPhase _ _ _ task hnext hbatch (.removingState checkpoint) trivial
  · exact ⟨⟨hgrounded.listed, hgrounded.idMap, fun _ hnone => (nomatch hnone)⟩,
      fun _ _ hnone => (nomatch hnone), fun _ hnone => (nomatch hnone)⟩

theorem Sound.step (hsound : machine.Sound target) {op : RebuildOp} (hmeets : machine.Meets op) :
    (machine.step target op).Sound target := by
  cases op with
  | createIndexEntry entry =>
    simp only [RebuildMachine.step]
    cases hinsert : machine.indexEntries.insertNew entry with
    | none => exact hsound
    | some indexEntries =>
      exact @Sound.grow _ _ _ _ machine.backlog hsound (grown_insertNew hinsert)
  | addSource entry =>
    exact @Sound.grow _ _ _ machine.indexEntries _ hsound ⟨fun _ hworded => hworded, Nat.le_refl _⟩
  | start batchSize shadowSaveInterval =>
    simp only [RebuildMachine.step]
    split
    · exact hsound
    · next hidle =>
        have hnone : machine.task = none := by simpa using hidle
        have hresumable := hsound.idle hnone
        cases hprogress : machine.disk.state.any fun existing => existing.status = .inProgress with
        | true =>
          rw [if_pos rfl]
          refine ⟨⟨hsound.listed, hsound.idMap, hsound.counted⟩, fun hnone => (nomatch hnone),
            fun task htask => ?_⟩
          cases htask
          exact ⟨hmeets, hresumable⟩
        | false =>
          rw [if_neg (by simp)]
          refine ⟨⟨fun _ hworded => hworded, hsound.idMap, hsound.counted⟩,
            fun hnone => (nomatch hnone), fun task htask => ?_⟩
          cases htask
          refine ⟨hmeets, fun checkpoint hcheckpoint hstatus => ?_⟩
          have hcheckpoint' : machine.disk.state = some checkpoint := hcheckpoint
          rw [hcheckpoint', Option.any_some, decide_eq_false_iff_not] at hprogress
          exact absurd hstatus hprogress
  | advance =>
    simp only [RebuildMachine.step]
    cases htask : machine.task with
    | none => exact hsound
    | some task => exact hsound.advance htask
  | interrupt =>
    exact ⟨⟨hsound.listed, hsound.idMap, hsound.counted⟩, fun _ => hmeets,
      fun _ hnone => nomatch hnone⟩
  | fault =>
    simp only [RebuildMachine.step]
    cases htask : machine.task with
    | none => exact hsound
    | some task => exact hsound.fault htask

theorem sound_initial (indexEntries : Table IndexEntry) (backlog : List IndexEntry) :
    (initial indexEntries backlog : RebuildMachine ν).Sound target where
  listed _ hbegun := (List.not_mem_nil hbegun).elim
  idMap _ hnone := nomatch hnone
  counted _ hnone := nomatch hnone
  idle _ _ hnone := nomatch hnone
  running _ hnone := nomatch hnone

theorem Sound.swapsComplete (hsound : machine.Sound target) (op : RebuildOp) :
    machine.SwapsComplete op := by
  intro index hswapped
  cases op with
  | advance =>
    simp only [swapped] at hswapped
    split at hswapped
    · next batchSize shadowSaveInterval checkpoint htask =>
        obtain ⟨-, shadow, hcomplete, hfiles⟩ := hsound.running _ htask
        obtain ⟨loaded, hload, -, hholds⟩ := IndexFiles.load_ofIndex shadow
        rw [hfiles, hload] at hswapped
        cases hswapped
        exact fun entryId hbegun => hholds entryId (hcomplete entryId hbegun)
    · cases hswapped
  | _ => cases hswapped

end Steps

/-- If every interruption leaves a shadow on disk that holds the vectors up to the
stored cursor, a rebuild that completes swaps in an index with a vector for every
entry with text that there was when it began. -/
theorem rebuild_complete (indexEntries : Table IndexEntry) (backlog : List IndexEntry)
    (ops : List RebuildOp) (hops : Along (step target) Meets (initial indexEntries backlog) ops) :
    Along (step target) SwapsComplete (initial indexEntries backlog) ops := by
  have hsound : Along (step target) (fun machine op => machine.Meets op ∧ machine.Sound target)
      (initial indexEntries backlog) ops :=
    hops.with_invariant (sound_initial indexEntries backlog)
      fun machine op hmeets hsound => hsound.step hmeets
  exact hsound.mono fun machine op hboth => hboth.2.swapsComplete op

section Interrupted

/-- Entries that are embedded as they are. -/
def plainTarget : RebuildTarget Unit :=
  ⟨⟨"model", 1, fun texts => texts.map fun _ => (), fun _ => List.length_map _⟩, 1,
    fun _ _ _ => none⟩

def plainEntry (id : String) : IndexEntry :=
  ⟨id, "source_item", id, vectorIndexType, "text", none, none, none⟩

def plainEntries : Table IndexEntry := ⟨["a", "b", "c", "d"].map plainEntry, by decide⟩

/-- A batch of one entry, with as many replacements of shadow files. -/
def batchOps (saves : ℕ) : List RebuildOp := List.replicate (1 + saves) .advance

/-- The steps from an exhausted cursor to the end of the swap. -/
def completeOps : List RebuildOp := List.replicate 19 .advance

/-- The rebuild is interrupted after the second of four batches, right after its
shadow was saved. -/
def savedOps : List RebuildOp :=
  [.start 1 2, .advance] ++ batchOps 0 ++ batchOps 4 ++
    [.interrupt, .start 1 2, .advance] ++ batchOps 0 ++ batchOps 4 ++ completeOps

theorem rebuild_complete_saved :
    (run (step plainTarget) (initial plainEntries []) savedOps).holder.isSome ∧
      Along (step plainTarget) SwapsComplete (initial plainEntries []) savedOps :=
  ⟨by decide +kernel, rebuild_complete plainTarget plainEntries [] savedOps (by decide +kernel)⟩

/-- The rebuild is interrupted after the third of four batches, while the shadow
on disk is that of the second. -/
def laggingOps : List RebuildOp :=
  [.start 1 2, .advance] ++ batchOps 0 ++ batchOps 4 ++ batchOps 0 ++
    [.interrupt, .start 1 2, .advance] ++ batchOps 4 ++ completeOps

/-- The third entry gets no vector. -/
theorem rebuild_complete_lagging :
    (run (step plainTarget) (initial plainEntries []) laggingOps).holder.map
        VectorIndex.knownEntryIds = some {"a", "b", "d"} ∧
      ¬Along (step plainTarget) SwapsComplete (initial plainEntries []) laggingOps :=
  ⟨by decide +kernel, by decide +kernel⟩

end Interrupted

end RebuildMachine

end Pallium.Vector
