import Pallium.Core.BulkUpdate
import Pallium.Purge.Database

/-!
# What a purge writes

The loops of a commit and of an undo are bulk updates of the tables.  For each row
the written texts are those of the item with its id, and no other column changes.
-/

namespace Pallium.Purge

open Pallium.Memory (TargetKind IndexType)

variable {rules : PurgeRules} {database : Database}

namespace Database

def refsOf (database : Database) (sourceItemId : String) : List (String × String) :=
  (database.workRefs.getD []).filter fun known => known.1 = sourceItemId

def ftsOf (database : Database) (indexEntryId : String) : List FtsRow :=
  database.ftsRows.filter fun row => row.indexEntryId = indexEntryId

/-- The full-text row that is written for an entry. -/
def ftsRow (database : Database) (entry : IndexRow) (textView : String) : FtsRow where
  textView := textView
  indexEntryId := entry.id
  targetKind := entry.targetKind
  targetId := entry.targetId
  textViewName := entry.textViewName
  containerRef := database.containerRefOf entry.targetKind entry.targetId

section Sources

variable {ι : Type} (rules) (keyOf contentOf : ι → String) (metadataOf : ι → Option String)

def writeSources (items : List ι) (database : Database) : Database :=
  items.foldl (fun database item =>
    database.writeSource rules (keyOf item) (contentOf item) (metadataOf item)) database

/-- The work references that go with the metadata. -/
def refsFor (sourceItemId : String) (metadataJson : Option String) : List (String × String) :=
  (rules.workRefsFromMetadata ((metadataJson.filter (· ≠ "")).bind rules.loads)).map
    (sourceItemId, ·)

variable {rules keyOf contentOf metadataOf}

theorem writeSources_tables (items : List ι) (database : Database) :
    (database.writeSources rules keyOf contentOf metadataOf items).sources =
        database.sources.modifyEach keyOf
          (fun item => SourceRow.written (contentOf item) (metadataOf item)) items ∧
      (database.writeSources rules keyOf contentOf metadataOf items).memories =
        database.memories ∧
      (database.writeSources rules keyOf contentOf metadataOf items).entries = database.entries ∧
      (database.writeSources rules keyOf contentOf metadataOf items).ftsRows = database.ftsRows := by
  induction items generalizing database with
  | nil => exact ⟨rfl, rfl, rfl, rfl⟩
  | cons head rest ih =>
    exact ih (database.writeSource rules (keyOf head) (contentOf head) (metadataOf head))

theorem refsOf_writeSource (sourceItemId content : String) (metadataJson : Option String)
    (otherId : String) :
    (database.writeSource rules sourceItemId content metadataJson).refsOf otherId =
      if otherId = sourceItemId then
        if database.workRefs.isSome ∧ (database.sources.get sourceItemId).isSome then
          refsFor rules sourceItemId metadataJson
        else []
      else database.refsOf otherId := by
  obtain ⟨memories, sources, workRefs, entries, ftsRows⟩ := database
  rw [refsOf, writeSource, syncWorkRefs]
  cases workRefs with
  | none => simp [refsOf]
  | some known =>
    simp only [Option.map_some, Option.getD_some, List.filter_append, List.filter_filter,
      Option.isSome_some, true_and, refsOf]
    by_cases hsame : otherId = sourceItemId
    · subst hsame
      have hold : (known.filter fun known =>
          decide (known.1 = otherId) && decide (known.1 ≠ otherId)) = [] := by
        apply List.filter_eq_nil_iff.mpr
        intro known _
        simp
      rw [hold, List.nil_append, if_pos rfl]
      split
      · rw [List.filter_eq_self.mpr]
        · rfl
        · intro ref href
          obtain ⟨name, -, rfl⟩ := List.mem_map.mp href
          exact decide_eq_true rfl
      · rfl
    · have hnew : ∀ refs : List String,
          (refs.map (sourceItemId, ·)).filter (fun known => decide (known.1 = otherId)) = [] := by
        intro refs
        apply List.filter_eq_nil_iff.mpr
        intro ref href
        obtain ⟨name, -, rfl⟩ := List.mem_map.mp href
        simp [Ne.symm hsame]
      rw [hnew, List.append_nil, if_neg hsame]
      apply List.filter_congr
      intro ref _
      by_cases hother : ref.1 = otherId
      · simp [hother, hsame]
      · simp [hother]

theorem isSome_workRefs_writeSources (items : List ι) (database : Database) :
    (database.writeSources rules keyOf contentOf metadataOf items).workRefs.isSome =
      database.workRefs.isSome := by
  induction items generalizing database with
  | nil => rfl
  | cons head rest ih =>
    refine (ih (database.writeSource rules _ _ _)).trans ?_
    exact Option.isSome_map

theorem isSome_get_writeSource (sourceItemId content : String) (metadataJson : Option String)
    (otherId : String) :
    ((database.writeSource rules sourceItemId content metadataJson).sources.get otherId).isSome =
      (database.sources.get otherId).isSome := by
  have hkey : ∀ row : SourceRow, key (row.written content metadataJson) = key row := fun _ => rfl
  change ((database.sources.modify sourceItemId _).get otherId).isSome = _
  rw [Table.get_modify database.sources sourceItemId hkey]
  split
  · next hsame => rw [hsame, Option.isSome_map]
  · rfl

theorem refsOf_writeSources_of_not_mem {items : List ι} {otherId : String}
    (hother : otherId ∉ items.map keyOf) :
    (database.writeSources rules keyOf contentOf metadataOf items).refsOf otherId =
      database.refsOf otherId := by
  induction items generalizing database with
  | nil => rfl
  | cons head rest ih =>
    rw [List.map_cons, List.mem_cons, not_or] at hother
    refine (ih hother.2).trans ?_
    rw [refsOf_writeSource, if_neg hother.1]

theorem refsOf_writeSources_of_mem {items : List ι} (hdistinct : (items.map keyOf).Nodup) {item : ι}
    (hitem : item ∈ items) :
    (database.writeSources rules keyOf contentOf metadataOf items).refsOf (keyOf item) =
      if database.workRefs.isSome ∧ (database.sources.get (keyOf item)).isSome then
        refsFor rules (keyOf item) (metadataOf item)
      else [] := by
  induction items generalizing database with
  | nil => exact absurd hitem List.not_mem_nil
  | cons head rest ih =>
    rw [List.map_cons, List.nodup_cons] at hdistinct
    rcases List.mem_cons.mp hitem with rfl | hlater
    · refine (refsOf_writeSources_of_not_mem hdistinct.1).trans ?_
      rw [refsOf_writeSource, if_pos rfl]
    · refine (ih hdistinct.2 hlater).trans ?_
      rw [isSome_get_writeSource]
      congr 2
      exact congrArg (· = true) Option.isSome_map

end Sources

section Entries

variable {ι : Type} (keyOf textOf : ι → String)

/-- Write the texts of several index entries. -/
def writeEntries (items : List ι) (database : Database) : Database :=
  items.foldl (fun database item => database.writeEntry (keyOf item) (textOf item)) database

variable {keyOf textOf}

variable (indexEntryId textView : String)

theorem writeEntry_tables (database : Database) :
    (database.writeEntry indexEntryId textView).entries =
        database.entries.modify indexEntryId (IndexRow.written textView) ∧
      (database.writeEntry indexEntryId textView).memories = database.memories ∧
      (database.writeEntry indexEntryId textView).sources = database.sources ∧
      (database.writeEntry indexEntryId textView).workRefs = database.workRefs := by
  unfold writeEntry
  cases hentry : database.entries.get indexEntryId with
  | none =>
    refine ⟨?_, rfl, rfl, rfl⟩
    have hkey : ∀ row : IndexRow, key (row.written textView) = key row := fun _ => rfl
    apply Table.eq_of_get (Table.keys_modify database.entries indexEntryId hkey).symm
    intro k
    rw [Table.get_modify database.entries indexEntryId hkey]
    split
    · next hsame => rw [hsame, hentry, Option.map_none]
    · rfl
  | some entry =>
    simp only
    split
    · exact ⟨rfl, rfl, rfl, rfl⟩
    · exact ⟨rfl, rfl, rfl, rfl⟩

theorem writeEntries_tables (items : List ι) (database : Database) :
    (database.writeEntries keyOf textOf items).entries =
        database.entries.modifyEach keyOf (fun item => IndexRow.written (textOf item)) items ∧
      (database.writeEntries keyOf textOf items).memories = database.memories ∧
      (database.writeEntries keyOf textOf items).sources = database.sources ∧
      (database.writeEntries keyOf textOf items).workRefs = database.workRefs := by
  induction items generalizing database with
  | nil => exact ⟨rfl, rfl, rfl, rfl⟩
  | cons head rest ih =>
    obtain ⟨hentries, hmemories, hsources, hrefs⟩ :=
      writeEntry_tables (keyOf head) (textOf head) database
    obtain ⟨hentriesAfter, hmemoriesAfter, hsourcesAfter, hrefsAfter⟩ :=
      ih (database.writeEntry (keyOf head) (textOf head))
    exact ⟨hentriesAfter.trans (by rw [hentries]; rfl), hmemoriesAfter.trans hmemories,
      hsourcesAfter.trans hsources, hrefsAfter.trans hrefs⟩

theorem ftsOf_writeEntry (otherId : String) :
    (database.writeEntry indexEntryId textView).ftsOf otherId =
      if otherId = indexEntryId then
        match database.entries.get indexEntryId with
        | some entry =>
          if entry.indexType = .lexical then [database.ftsRow entry textView]
          else database.ftsOf otherId
        | none => database.ftsOf otherId
      else database.ftsOf otherId := by
  unfold writeEntry
  cases hentry : database.entries.get indexEntryId with
  | none => simp
  | some entry =>
    have hid : entry.id = indexEntryId := Table.key_of_get hentry
    simp only
    split
    · next htype => simp [htype, ftsOf]
    · next htype =>
        simp only [htype, if_true, ftsOf, List.filter_append, List.filter_filter]
        by_cases hsame : otherId = indexEntryId
        · subst hsame
          have hold : (database.ftsRows.filter fun row =>
              decide (row.indexEntryId = otherId) && decide (row.indexEntryId ≠ otherId)) =
                [] := by
            apply List.filter_eq_nil_iff.mpr
            intro row _
            simp
          rw [hold, List.nil_append, if_pos rfl]
          simp [ftsRow, hid]
        · rw [if_neg hsame, List.filter_cons_of_neg (by simp [Ne.symm hsame]), List.filter_nil,
            List.append_nil]
          apply List.filter_congr
          intro row _
          by_cases hother : row.indexEntryId = otherId
          · simp [hother, hsame]
          · simp [hother]

theorem containerRefOf_writeEntry (targetKind : TargetKind) (targetId : String) :
    (database.writeEntry indexEntryId textView).containerRefOf targetKind targetId =
      database.containerRefOf targetKind targetId := by
  obtain ⟨-, hmemories, hsources, -⟩ := writeEntry_tables indexEntryId textView database
  cases targetKind with
  | memoryObject => rw [containerRefOf, hmemories, containerRefOf]
  | sourceItem => rw [containerRefOf, hsources, containerRefOf]

theorem ftsOf_writeEntries_of_not_mem {items : List ι} {otherId : String}
    (hother : otherId ∉ items.map keyOf) :
    (database.writeEntries keyOf textOf items).ftsOf otherId = database.ftsOf otherId := by
  induction items generalizing database with
  | nil => rfl
  | cons head rest ih =>
    rw [List.map_cons, List.mem_cons, not_or] at hother
    refine (ih hother.2).trans ?_
    rw [ftsOf_writeEntry, if_neg hother.1]

theorem ftsOf_writeEntries_of_mem {items : List ι} (hdistinct : (items.map keyOf).Nodup) {item : ι}
    (hitem : item ∈ items) :
    (database.writeEntries keyOf textOf items).ftsOf (keyOf item) =
      match database.entries.get (keyOf item) with
      | some entry =>
        if entry.indexType = .lexical then [database.ftsRow entry (textOf item)]
        else database.ftsOf (keyOf item)
      | none => database.ftsOf (keyOf item) := by
  induction items generalizing database with
  | nil => exact absurd hitem List.not_mem_nil
  | cons head rest ih =>
    rw [List.map_cons, List.nodup_cons] at hdistinct
    rcases List.mem_cons.mp hitem with rfl | hlater
    · refine (ftsOf_writeEntries_of_not_mem hdistinct.1).trans ?_
      rw [ftsOf_writeEntry, if_pos rfl]
    · have hne : keyOf item ≠ keyOf head := by
        intro hsame
        exact hdistinct.1 (hsame ▸ List.mem_map_of_mem hlater)
      have hkey : ∀ row : IndexRow, key (row.written (textOf head)) = key row := fun _ => rfl
      refine (ih hdistinct.2 hlater).trans ?_
      rw [(writeEntry_tables (keyOf head) (textOf head) database).1,
        Table.get_modify_of_ne database.entries hkey hne, ftsOf_writeEntry, if_neg hne]
      cases database.entries.get (keyOf item) with
      | none => rfl
      | some entry => simp only [ftsRow, containerRefOf_writeEntry]

end Entries

def withMemories (database : Database) (memories : Table MemoryRow) : Database :=
  { database with memories := memories }

theorem of_writes {ι κ : Type} {keyOf contentOf : ι → String} {metadataOf : ι → Option String}
    {entryKeyOf textOf : κ → String} {memories : Table MemoryRow} {items : List ι}
    {entries : List κ} {after : Database}
    (hafter : after = ((database.withMemories memories).writeSources rules keyOf contentOf
      metadataOf items).writeEntries entryKeyOf textOf entries) :
    after.memories = memories ∧
      after.sources = database.sources.modifyEach keyOf
        (fun item => SourceRow.written (contentOf item) (metadataOf item)) items ∧
      after.entries = database.entries.modifyEach entryKeyOf
        (fun entry => IndexRow.written (textOf entry)) entries := by
  subst hafter
  obtain ⟨hsources, hmemories, hkept, -⟩ := @writeSources_tables rules _ keyOf contentOf
    metadataOf items (database.withMemories memories)
  obtain ⟨hentries, hsame, hothers, -⟩ := @writeEntries_tables _ entryKeyOf textOf entries
    ((database.withMemories memories).writeSources rules keyOf contentOf metadataOf items)
  exact ⟨hsame.trans hmemories, hothers.trans hsources, hentries.trans (by rw [hkept]; rfl)⟩

theorem foldl_rewriteMemory (candidates : List MemoryCandidate) (database : Database) :
    candidates.foldl rewriteMemory database =
      database.withMemories (database.memories.modifyEach MemoryCandidate.memoryObjectId
        MemoryRow.rewritten candidates) := by
  induction candidates generalizing database with
  | nil => rfl
  | cons head rest ih => exact ih (database.rewriteMemory head)

theorem foldl_softDelete (now : String) (memoryObjectIds : List String) (database : Database) :
    memoryObjectIds.foldl (softDelete now) database =
      database.withMemories (database.memories.modifyEach id (fun _ => MemoryRow.deleted now)
        memoryObjectIds) := by
  induction memoryObjectIds generalizing database with
  | nil => rfl
  | cons head rest ih => exact ih (database.softDelete now head)

theorem foldl_restoreMemory (snapshots : List MemorySnapshot) (database : Database) :
    snapshots.foldl restoreMemory database =
      database.withMemories (database.memories.modifyEach MemorySnapshot.memoryObjectId
        MemoryRow.restored snapshots) := by
  induction snapshots generalizing database with
  | nil => rfl
  | cons head rest ih => exact ih (database.restoreMemory head)

theorem foldl_undelete (memoryObjectIds : List String) (database : Database) :
    memoryObjectIds.foldl undelete database =
      database.withMemories (database.memories.modifyEach id (fun _ => MemoryRow.undeleted)
        memoryObjectIds) := by
  induction memoryObjectIds generalizing database with
  | nil => rfl
  | cons head rest ih => exact ih (database.undelete head)

end Database

section Ids

theorem id_rewritten (candidate : MemoryCandidate) (row : MemoryRow) :
    (row.rewritten candidate).id = row.id := by
  unfold MemoryRow.rewritten
  split
  · rfl
  · rfl

theorem id_deleted {now : String} (row : MemoryRow) : (row.deleted now).id = row.id := by
  unfold MemoryRow.deleted
  split
  · rfl
  · rfl

theorem id_undeleted (row : MemoryRow) : row.undeleted.id = row.id := by
  unfold MemoryRow.undeleted
  split
  · rfl
  · rfl

end Ids

section Commit

def memoriesAfter (now : String) (plan : PurgePlan) (memories : Table MemoryRow) :
    Table MemoryRow :=
  (memories.modifyEach MemoryCandidate.memoryObjectId MemoryRow.rewritten
    plan.memoryRows).modifyEach id (fun _ => MemoryRow.deleted now) plan.regenerableIds

/-- A commit is three bulk updates after one another. -/
theorem applyPlan_eq (rules : PurgeRules) (now : String) (plan : PurgePlan)
    (database : Database) :
    applyPlan rules now plan database =
      ((database.withMemories (memoriesAfter now plan database.memories)).writeSources rules
        SourceCandidate.sourceItemId SourceCandidate.redactedContent
        SourceCandidate.redactedMetadataJson plan.sourceItems).writeEntries
          IndexCandidate.indexEntryId IndexCandidate.redactedTextView plan.indexEntries := by
  rw [applyPlan, Database.foldl_rewriteMemory, Database.foldl_softDelete]
  rfl

variable (rules) in
theorem applyPlan_tables (now : String) (plan : PurgePlan) (database : Database) :
    (applyPlan rules now plan database).memories = memoriesAfter now plan database.memories ∧
      (applyPlan rules now plan database).sources =
        database.sources.modifyEach SourceCandidate.sourceItemId
          (fun item => SourceRow.written item.redactedContent item.redactedMetadataJson)
          plan.sourceItems ∧
      (applyPlan rules now plan database).entries =
        database.entries.modifyEach IndexCandidate.indexEntryId
          (fun entry => IndexRow.written entry.redactedTextView) plan.indexEntries :=
  Database.of_writes (applyPlan_eq rules now plan database)

end Commit

end Pallium.Purge
