import Pallium.Queue.Processing

/-!
# The status of a source item and its tasks

The status of a source item summarises its package tasks.  While a task of a
tracked item is unfinished, the item is pending; once all are done, it has failed
if one of them has and is completed otherwise.  A final task is never tried
again on its own, and an item with finished tasks has no retry time, so the claim
of items without tasks passes over every tracked one.
-/

namespace Pallium.Queue

open Pallium.Run
open PackageProcessingStatusRecord (terminal)

variable {σ : Type} {maxAttempts : ℕ} {store before after : QueueStore σ}

/-- Some task of the item is pending or processing. -/
def Unfinished (store : QueueStore σ) (sourceItemId : String) : Prop :=
  ∃ packageName record, store.tasks.get (sourceItemId, packageName) = some record ∧
    record.terminal = false

/-- Some task of the item has failed. -/
def AnyFailed (store : QueueStore σ) (sourceItemId : String) : Prop :=
  ∃ packageName record, store.tasks.get (sourceItemId, packageName) = some record ∧
    record.status = .failed

/-- The item has a task that was not skipped. -/
def Tracked (store : QueueStore σ) (sourceItemId : String) : Prop :=
  ∃ packageName record, store.tasks.get (sourceItemId, packageName) = some record ∧
    record.status ≠ .skipped

/-- The item shows the state of its tasks. -/
structure Agrees (store : QueueStore σ) (sourceItemId : String) (item : SourceItemRecord) :
    Prop where
  quiet : item.processingNextAttemptAt = none
  unfinished : Unfinished store sourceItemId → item.processingStatus = .pending
  failed : ¬ Unfinished store sourceItemId → AnyFailed store sourceItemId →
    item.processingStatus = .failed
  completed : ¬ Unfinished store sourceItemId → ¬ AnyFailed store sourceItemId →
    item.processingStatus = .completed

structure StatusInvariant (store : QueueStore σ) : Prop where
  owned : ∀ task record, store.tasks.get task = some record →
    ∃ item, store.sourceItems.get task.1 = some item
  settled : ∀ task record, store.tasks.get task = some record → record.status = .failed →
    record.nextAttemptAt = none
  agrees : ∀ sourceItemId item, store.sourceItems.get sourceItemId = some item →
    Tracked store sourceItemId → Agrees store sourceItemId item

section Tasks

variable {record : PackageProcessingStatusRecord}

def SameTasks (before after : QueueStore σ) (sourceItemId : String) : Prop :=
  ∀ packageName, after.tasks.get (sourceItemId, packageName) =
    before.tasks.get (sourceItemId, packageName)

variable {sourceItemId : String} {item : SourceItemRecord}

theorem SameTasks.symm (hsame : SameTasks before after sourceItemId) :
    SameTasks after before sourceItemId :=
  fun packageName => (hsame packageName).symm

theorem Unfinished.of_same (hunfinished : Unfinished before sourceItemId)
    (hsame : SameTasks before after sourceItemId) : Unfinished after sourceItemId := by
  obtain ⟨packageName, record, hget, hopen⟩ := hunfinished
  exact ⟨packageName, record, (hsame packageName).trans hget, hopen⟩

theorem AnyFailed.of_same (hfailed : AnyFailed before sourceItemId)
    (hsame : SameTasks before after sourceItemId) : AnyFailed after sourceItemId := by
  obtain ⟨packageName, record, hget, hstatus⟩ := hfailed
  exact ⟨packageName, record, (hsame packageName).trans hget, hstatus⟩

theorem Tracked.of_same (htracked : Tracked before sourceItemId)
    (hsame : SameTasks before after sourceItemId) : Tracked after sourceItemId := by
  obtain ⟨packageName, record, hget, hstatus⟩ := htracked
  exact ⟨packageName, record, (hsame packageName).trans hget, hstatus⟩

theorem Agrees.of_same (hagrees : Agrees before sourceItemId item)
    (hsame : SameTasks before after sourceItemId) : Agrees after sourceItemId item where
  quiet := hagrees.quiet
  unfinished hunfinished := hagrees.unfinished (hunfinished.of_same hsame.symm)
  failed hfinished hfailed :=
    hagrees.failed (fun hunfinished => hfinished (hunfinished.of_same hsame))
      (hfailed.of_same hsame.symm)
  completed hfinished hnone :=
    hagrees.completed (fun hunfinished => hfinished (hunfinished.of_same hsame))
      fun hfailed => hnone (hfailed.of_same hsame)

theorem Agrees.of_pending (hquiet : item.processingNextAttemptAt = none)
    (hstatus : item.processingStatus = .pending) (hunfinished : Unfinished store sourceItemId) :
    Agrees store sourceItemId item where
  quiet := hquiet
  unfinished _ := hstatus
  failed hfinished := absurd hunfinished hfinished
  completed hfinished := absurd hunfinished hfinished

theorem Unfinished.tracked (hunfinished : Unfinished store sourceItemId) :
    Tracked store sourceItemId := by
  obtain ⟨packageName, record, hget, hopen⟩ := hunfinished
  refine ⟨packageName, record, hget, fun hskipped => ?_⟩
  rw [terminal, hskipped] at hopen
  cases hopen

theorem mem_tasksOf :
    record ∈ store.tasksOf sourceItemId ↔
      store.tasks.get (sourceItemId, record.packageName) = some record := by
  rw [QueueStore.tasksOf, List.mem_filter, beq_iff_eq]
  constructor
  · rintro ⟨hmem, rfl⟩
    exact Table.get_of_mem hmem
  · intro hget
    have hkey : (record.sourceItemId, record.packageName) = (sourceItemId, record.packageName) :=
      Table.key_of_get hget
    exact ⟨Table.mem_of_get hget, (Prod.mk.inj hkey).1⟩

theorem get_of_tasksOf {packageName : String}
    (hget : store.tasks.get (sourceItemId, packageName) = some record) :
    record ∈ store.tasksOf sourceItemId := by
  have hkey : (record.sourceItemId, record.packageName) = (sourceItemId, packageName) :=
    Table.key_of_get hget
  rw [mem_tasksOf, (Prod.mk.inj hkey).2, hget]

theorem unfinished_iff_tasksOf :
    Unfinished store sourceItemId ↔
      ¬ (store.tasksOf sourceItemId).all terminal := by
  rw [List.all_eq_true]
  constructor
  · rintro ⟨packageName, record, hget, hopen⟩ hall
    have hterminal := hall record (get_of_tasksOf hget)
    rw [hopen] at hterminal
    cases hterminal
  · intro hnot
    push Not at hnot
    obtain ⟨record, hmem, hopen⟩ := hnot
    exact ⟨record.packageName, record, mem_tasksOf.mp hmem, Bool.eq_false_iff.mpr hopen⟩

theorem anyFailed_iff_tasksOf :
    AnyFailed store sourceItemId ↔
      ((store.tasksOf sourceItemId).find? fun record => record.status == .failed).isSome := by
  rw [List.find?_isSome]
  constructor
  · rintro ⟨packageName, record, hget, hstatus⟩
    exact ⟨record, get_of_tasksOf hget, beq_iff_eq.mpr hstatus⟩
  · rintro ⟨record, hmem, hstatus⟩
    exact ⟨record.packageName, record, mem_tasksOf.mp hmem, beq_iff_eq.mp hstatus⟩

theorem unfinished_of_get {packageName : String}
    (hget : store.tasks.get (sourceItemId, packageName) = some record)
    (hopen : record.terminal = false) : store.unfinished sourceItemId = true := by
  rw [QueueStore.unfinished, List.any_eq_true]
  refine ⟨record, get_of_tasksOf hget, ?_⟩
  revert hopen
  unfold terminal
  cases record.status <;> simp

end Tasks

section Syncing

variable {sourceItemId otherId : String} {item : SourceItemRecord} {now : ℤ}

theorem sync_of_unfinished (hunfinished : Unfinished store sourceItemId) :
    store.syncSourceItem sourceItemId now = store := by
  rw [unfinished_iff_tasksOf] at hunfinished
  unfold QueueStore.syncSourceItem
  simp only
  rw [if_pos]
  rw [Bool.or_eq_true, Bool.not_eq_true']
  exact Or.inr (Bool.eq_false_iff.mpr hunfinished)

theorem sync_of_ne (hne : otherId ≠ sourceItemId) :
    (store.syncSourceItem sourceItemId now).sourceItems.get otherId =
      store.sourceItems.get otherId := by
  unfold QueueStore.syncSourceItem
  simp only
  split
  · rfl
  · exact Table.get_modify_of_ne _ (by intro row; rfl) hne

theorem sync_of_finished (hfinished : ¬ Unfinished store sourceItemId)
    (htracked : Tracked store sourceItemId)
    (hget : store.sourceItems.get sourceItemId = some item) :
    ∃ changed, (store.syncSourceItem sourceItemId now).sourceItems.get sourceItemId =
        some changed ∧ Agrees store sourceItemId changed := by
  have hskip : ((store.tasksOf sourceItemId).isEmpty ||
      !(store.tasksOf sourceItemId).all terminal) = false := by
    rw [Bool.or_eq_false_iff, List.isEmpty_eq_false_iff, Bool.not_eq_false']
    constructor
    · obtain ⟨packageName, record, hrecord, -⟩ := htracked
      exact List.ne_nil_of_mem (get_of_tasksOf hrecord)
    · rw [unfinished_iff_tasksOf, not_not] at hfinished
      exact hfinished
  unfold QueueStore.syncSourceItem
  simp only [hskip, Bool.false_eq_true, if_false]
  refine ⟨_, (Table.get_modify_self _ _ ?_).trans (congrArg (Option.map _) hget), ?_⟩
  · exact fun row => rfl
  · exact
    { quiet := rfl
      unfinished := fun hunfinished => absurd hunfinished hfinished
      failed := fun _ hfailed => if_pos (anyFailed_iff_tasksOf.mp hfailed)
      completed := fun _ hnone => if_neg fun hfailed => hnone (anyFailed_iff_tasksOf.mpr hfailed) }

/-- Every tracked item agrees with its tasks, or it is still to be brought up to
date and is pending if it has unfinished tasks. -/
def Syncable (sourceItemIds : List String) (store : QueueStore σ) : Prop :=
  ∀ sourceItemId item, store.sourceItems.get sourceItemId = some item →
    Tracked store sourceItemId → Agrees store sourceItemId item ∨
      sourceItemId ∈ sourceItemIds ∧ (Unfinished store sourceItemId →
        item.processingStatus = .pending ∧ item.processingNextAttemptAt = none)

theorem Syncable.sync {rest : List String} (hsyncable : Syncable (sourceItemId :: rest) store) :
    Syncable rest (store.syncSourceItem sourceItemId now) := by
  have hsame : ∀ otherId, SameTasks store (store.syncSourceItem sourceItemId now) otherId := by
    intro otherId packageName
    rw [tasks_syncSourceItem]
  intro otherId changed hchanged htracked
  have htrackedBefore := htracked.of_same (hsame otherId).symm
  by_cases hother : otherId = sourceItemId
  · subst hother
    left
    cases hget : store.sourceItems.get otherId with
    | none =>
      unfold QueueStore.syncSourceItem at hchanged
      simp only at hchanged
      split at hchanged
      · rw [hget] at hchanged
        cases hchanged
      · change (Table.modify _ _ _).get otherId = some changed at hchanged
        rw [Table.get_modify_self _ _ (by intro row; rfl), hget] at hchanged
        cases hchanged
    | some item =>
      by_cases hunfinished : Unfinished store otherId
      · rw [sync_of_unfinished hunfinished] at hchanged ⊢
        obtain rfl := Option.eq_some_unique hget hchanged
        rcases hsyncable otherId item hget htrackedBefore with hagrees | ⟨-, hpending⟩
        · exact hagrees
        · obtain ⟨hstatus, hquiet⟩ := hpending hunfinished
          exact Agrees.of_pending hquiet hstatus hunfinished
      · obtain ⟨found, hfound, hagrees⟩ :=
          @sync_of_finished _ store otherId item now hunfinished htrackedBefore hget
        obtain rfl := Option.eq_some_unique hfound hchanged
        exact hagrees.of_same (hsame otherId)
  · rw [sync_of_ne hother] at hchanged
    rcases hsyncable otherId changed hchanged htrackedBefore with hagrees | ⟨hlisted, hpending⟩
    · exact Or.inl (hagrees.of_same (hsame otherId))
    · right
      refine ⟨(List.mem_cons.mp hlisted).resolve_left hother, fun hunfinished => ?_⟩
      exact hpending (hunfinished.of_same (hsame otherId).symm)

theorem Syncable.fold {sourceItemIds : List String} (hsyncable : Syncable sourceItemIds store) :
    Syncable [] (sourceItemIds.foldl
      (fun synced sourceItemId => synced.syncSourceItem sourceItemId now) store) := by
  induction sourceItemIds generalizing store with
  | nil => exact hsyncable
  | cons sourceItemId rest ih =>
    rw [List.foldl_cons]
    exact ih hsyncable.sync

theorem fold_frame (sourceItemIds : List String) (store : QueueStore σ) :
    (sourceItemIds.foldl (fun synced sourceItemId => synced.syncSourceItem sourceItemId now)
        store).tasks = store.tasks ∧
      ∀ otherId, (store.sourceItems.get otherId).isSome →
        ((sourceItemIds.foldl (fun synced sourceItemId => synced.syncSourceItem sourceItemId now)
          store).sourceItems.get otherId).isSome := by
  induction sourceItemIds generalizing store with
  | nil => exact ⟨rfl, fun _ hsome => hsome⟩
  | cons sourceItemId rest ih =>
    rw [List.foldl_cons]
    obtain ⟨htasks, hitems⟩ := ih (store.syncSourceItem sourceItemId now)
    refine ⟨htasks.trans (tasks_syncSourceItem store sourceItemId now), fun otherId hsome => ?_⟩
    apply hitems
    unfold QueueStore.syncSourceItem
    simp only
    split
    · exact hsome
    · change ((Table.modify _ _ _).get otherId).isSome
      rw [Table.get_modify _ _ (by intro row; rfl)]
      split
      · rw [Option.isSome_map]
        exact hsome
      · exact hsome

end Syncing

section Moves

variable {sourceItemId : String} {item : SourceItemRecord}

variable {sourceItems : Table SourceItemRecord} {now : ℤ}

theorem Agrees.status (hagrees : Agrees store sourceItemId item) :
    item.processingStatus = .pending ∧ Unfinished store sourceItemId ∨
      ¬ Unfinished store sourceItemId ∧
        (item.processingStatus = .failed ∨ item.processingStatus = .completed) := by
  by_cases hunfinished : Unfinished store sourceItemId
  · exact Or.inl ⟨hagrees.unfinished hunfinished, hunfinished⟩
  · right
    by_cases hfailed : AnyFailed store sourceItemId
    · exact ⟨hunfinished, Or.inl (hagrees.failed hunfinished hfailed)⟩
    · exact ⟨hunfinished, Or.inr (hagrees.completed hunfinished hfailed)⟩

theorem Agrees.not_processing (hagrees : Agrees store sourceItemId item) :
    item.processingStatus ≠ .processing := by
  intro hprocessing
  rcases hagrees.status with ⟨hstatus, -⟩ | ⟨-, hstatus | hstatus⟩
  · rw [hprocessing] at hstatus
    cases hstatus
  · rw [hprocessing] at hstatus
    cases hstatus
  · rw [hprocessing] at hstatus
    cases hstatus

theorem Agrees.not_eligible (hagrees : Agrees store sourceItemId item)
    (hfinished : ¬ Unfinished store sourceItemId) : item.eligible now maxAttempts = false := by
  have hquiet := hagrees.quiet
  rcases hagrees.status with ⟨-, hunfinished⟩ | ⟨-, hstatus | hstatus⟩
  · exact absurd hunfinished hfinished
  · simp [SourceItemRecord.eligible, hstatus, hquiet]
  · simp [SourceItemRecord.eligible, hstatus]

/-- The tasks that are added are pending, or skipped if they are to be. -/
theorem addPackageTasks_cases {skipPackages : List String} {sourceItemCreatedAt : Option ℤ}
    {packageNames : List String} {tasks added : Table PackageProcessingStatusRecord}
    (hadd : addPackageTasks sourceItemId skipPackages sourceItemCreatedAt now tasks packageNames =
      some added) (task : String × String) :
    added.get task = tasks.get task ∨
      task.1 = sourceItemId ∧ ∃ record, added.get task = some record ∧
        record.nextAttemptAt = none ∧ record.attempts = 0 ∧
        (record.status = .skipped ∨
          record.status = .pending ∧ task.2 ∈ packageNames ∧ task.2 ∉ skipPackages) := by
  induction packageNames generalizing tasks with
  | nil =>
    cases hadd
    exact Or.inl rfl
  | cons packageName rest ih =>
    obtain ⟨middle, hinsert, hrest⟩ := Option.bind_eq_some_iff.mp hadd
    have hmiddle := Table.get_insertNew hinsert task
    rcases ih hrest with hkept | ⟨hitem, record, hget, hquiet, hattempts, hstatus⟩
    · rw [hkept, hmiddle, key_packageProcessingStatusRecord]
      by_cases htask : task = (sourceItemId, packageName)
      · rw [if_pos htask, htask]
        refine Or.inr ⟨rfl, _, rfl, rfl, rfl, ?_⟩
        by_cases hskip : packageName ∈ skipPackages
        · exact Or.inl (if_pos hskip)
        · exact Or.inr ⟨if_neg hskip, List.mem_cons_self, hskip⟩
      · rw [if_neg htask]
        exact Or.inl rfl
    · refine Or.inr ⟨hitem, record, hget, hquiet, hattempts, ?_⟩
      rcases hstatus with hskipped | ⟨hpending, hmem, hkept⟩
      · exact Or.inl hskipped
      · exact Or.inr ⟨hpending, List.mem_cons_of_mem _ hmem, hkept⟩

section

variable (hinvariant : StatusInvariant store)
  {change : PackageProcessingStatusRecord → PackageProcessingStatusRecord}
  {record : PackageProcessingStatusRecord}
include hinvariant

theorem StatusInvariant.get_eq_none
    (hnone : store.sourceItems.get sourceItemId = none) (packageName : String) :
    store.tasks.get (sourceItemId, packageName) = none := by
  cases hget : store.tasks.get (sourceItemId, packageName) with
  | none => rfl
  | some record =>
    obtain ⟨item, hitem⟩ := hinvariant.owned _ _ hget
    rw [hnone] at hitem
    cases hitem

theorem StatusInvariant.ingested
    {tasks : Table PackageProcessingStatusRecord} {packageNames skipPackages : List String}
    (hinsert : store.sourceItems.insertNew item = some sourceItems)
    (hadd : addPackageTasks item.id skipPackages (some item.createdAt) now store.tasks
      packageNames = some tasks)
    (hpending : ∀ packageName ∈ packageNames, packageName ∉ skipPackages →
      item.processingStatus = .pending ∧ item.processingNextAttemptAt = none) :
    StatusInvariant { store with sourceItems := sourceItems, tasks := tasks } := by
  have hitems : ∀ otherId, sourceItems.get otherId =
      if otherId = item.id then some item else store.sourceItems.get otherId :=
    fun otherId => Table.get_insertNew hinsert otherId
  have habsent : store.sourceItems.get item.id = none := Table.get_eq_none_of_insertNew hinsert
  have hnone := hinvariant.get_eq_none habsent
  refine ⟨fun task record hget => ?_, fun task record hget hfailed => ?_,
    fun otherId other hget htracked => ?_⟩
  · rcases addPackageTasks_cases hadd task with hkept | ⟨hitem, -⟩
    · obtain ⟨owner, howner⟩ := hinvariant.owned task record (hkept ▸ hget)
      refine ⟨owner, ?_⟩
      rw [hitems, if_neg, howner]
      intro hnew
      rw [hnew, habsent] at howner
      cases howner
    · exact ⟨item, by rw [hitems, if_pos hitem]⟩
  · rcases addPackageTasks_cases hadd task with hkept | ⟨-, found, hfound, hfoundQuiet, -⟩
    · exact hinvariant.settled task record (hkept ▸ hget) hfailed
    · obtain rfl := Option.eq_some_unique hfound hget
      exact hfoundQuiet
  · by_cases hnew : otherId = item.id
    · obtain rfl : item = other := by
        have hfound := (hitems otherId).symm.trans hget
        rw [if_pos hnew] at hfound
        exact Option.some.inj hfound
      obtain ⟨packageName, record, hrecord, hkept⟩ := htracked
      rcases addPackageTasks_cases hadd (otherId, packageName) with
        hsame | ⟨-, found, hfound, -, -, hstatus⟩
      · rw [hsame, hnew, hnone] at hrecord
        cases hrecord
      · obtain rfl := Option.eq_some_unique hfound hrecord
        obtain ⟨hfresh, hmem, hactive⟩ := hstatus.resolve_left hkept
        obtain ⟨hstatus, hquiet⟩ := hpending packageName hmem hactive
        refine Agrees.of_pending hquiet hstatus ⟨packageName, found, hfound, ?_⟩
        rw [terminal, hfresh]
        rfl
    · have hsame : SameTasks store { store with sourceItems := sourceItems, tasks := tasks }
          otherId := by
        intro packageName
        rcases addPackageTasks_cases hadd (otherId, packageName) with hkept | ⟨hitem, -⟩
        · exact hkept
        · exact absurd hitem hnew
      have hbefore : store.sourceItems.get otherId = some other := by
        rw [← hget]
        exact ((hitems otherId).trans (if_neg hnew)).symm
      exact (hinvariant.agrees otherId other hbefore (htracked.of_same hsame.symm)).of_same hsame

theorem StatusInvariant.created (hinsert : store.sourceItems.insertNew item = some sourceItems) :
    StatusInvariant { store with sourceItems := sourceItems } :=
  @StatusInvariant.ingested _ store item sourceItems 0 hinvariant store.tasks [] [] hinsert rfl
    fun _ hmem => absurd hmem List.not_mem_nil

theorem StatusInvariant.closed
    {sourceItemIds : List String} (hkey : ∀ record, key (change record) = key record)
    (hchange : ∀ task record, store.tasks.get task = some record → change record = record ∨
      Closed record (change record) ∧ record.sourceItemId ∈ sourceItemIds) :
    StatusInvariant (store.closeTasks change sourceItemIds now) := by
  let start : QueueStore σ := { store with tasks := store.tasks.updateAll change }
  have hget : ∀ task, start.tasks.get task = (store.tasks.get task).map change :=
    fun task => Table.get_updateAll store.tasks hkey task
  have hrow : ∀ task changed, start.tasks.get task = some changed → ∃ record,
      store.tasks.get task = some record ∧ change record = changed := by
    intro task changed hchanged
    rw [hget] at hchanged
    exact Option.map_eq_some_iff.mp hchanged
  have htrackedBefore : ∀ otherId, Tracked start otherId → Tracked store otherId := by
    rintro otherId ⟨packageName, changed, hchanged, hkept⟩
    obtain ⟨record, hrecord, rfl⟩ := hrow _ _ hchanged
    refine ⟨packageName, record, hrecord, fun hskipped => ?_⟩
    rcases hchange _ record hrecord with hsame | ⟨hclosed, -⟩
    · rw [hsame] at hkept
      exact hkept hskipped
    · exact hkept (hclosed.skipped hskipped)
  have hunfinishedBefore : ∀ otherId, Unfinished start otherId → Unfinished store otherId := by
    rintro otherId ⟨packageName, changed, hchanged, hopen⟩
    obtain ⟨record, hrecord, rfl⟩ := hrow _ _ hchanged
    refine ⟨packageName, record, hrecord, ?_⟩
    rcases hchange _ record hrecord with hsame | ⟨hclosed, -⟩
    · rw [hsame] at hopen
      exact hopen
    · rw [hclosed.terminal] at hopen
      cases hopen
  have hsyncable : Syncable sourceItemIds start := by
    intro otherId other hother htracked
    have hagrees := hinvariant.agrees otherId other hother (htrackedBefore otherId htracked)
    by_cases hlisted : otherId ∈ sourceItemIds
    · right
      refine ⟨hlisted, fun hunfinished => ?_⟩
      exact ⟨hagrees.unfinished (hunfinishedBefore otherId hunfinished), hagrees.quiet⟩
    · left
      apply hagrees.of_same
      intro packageName
      rw [hget]
      cases hrecord : store.tasks.get (otherId, packageName) with
      | none => rfl
      | some record =>
        rcases hchange _ record hrecord with hsame | ⟨-, hmem⟩
        · rw [Option.map_some, hsame]
        · have howner : (record.sourceItemId, record.packageName) = (otherId, packageName) :=
            Table.key_of_get hrecord
          rw [(Prod.mk.inj howner).1] at hmem
          exact absurd hmem hlisted
  obtain ⟨htasks, hitems⟩ := @fold_frame _ now sourceItemIds start
  have hsynced : Syncable [] (store.closeTasks change sourceItemIds now) := hsyncable.fold
  refine ⟨fun task changed hchanged => ?_, fun task changed hchanged hfailed => ?_,
    fun otherId other hother htracked => ?_⟩
  · rw [QueueStore.closeTasks, htasks] at hchanged
    obtain ⟨record, hrecord, -⟩ := hrow _ _ hchanged
    obtain ⟨owner, howner⟩ := hinvariant.owned task record hrecord
    apply Option.isSome_iff_exists.mp
    apply hitems
    exact Option.isSome_of_mem howner
  · rw [QueueStore.closeTasks, htasks] at hchanged
    obtain ⟨record, hrecord, rfl⟩ := hrow _ _ hchanged
    rcases hchange _ record hrecord with hsame | ⟨hclosed, -⟩
    · rw [hsame] at hfailed ⊢
      exact hinvariant.settled task record hrecord hfailed
    · exact hclosed.quiet
  · rcases hsynced otherId other hother htracked with hagrees | ⟨hnil, -⟩
    · exact hagrees
    · cases hnil

/-- A change between unfinished states of a task does not show in its item. -/
theorem StatusInvariant.reopened (hkey : ∀ other, key (change other) = key other)
    (hget : store.tasks.get (key record) = some record) (hopen : record.terminal = false)
    (hchanged : (change record).terminal = false) :
    StatusInvariant { store with tasks := store.tasks.modify (key record) change } := by
  let changed : QueueStore σ := { store with tasks := store.tasks.modify (key record) change }
  have hafter : ∀ task, changed.tasks.get task =
      if task = key record then some (change record) else store.tasks.get task :=
    fun task => Table.get_modify_of_get hkey hget task
  refine ⟨fun task found hfound => ?_, fun task found hfound hfailed => ?_,
    fun otherId other hother htracked => ?_⟩
  · by_cases htask : task = key record
    · exact hinvariant.owned task record (htask ▸ hget)
    · refine hinvariant.owned task found ?_
      rw [← hfound]
      exact ((hafter task).trans (if_neg htask)).symm
  · by_cases htask : task = key record
    · have hrow := (hafter task).symm.trans hfound
      rw [if_pos htask] at hrow
      rw [Option.some.inj hrow, terminal, hfailed] at hchanged
      cases hchanged
    · refine hinvariant.settled task found ?_ hfailed
      rw [← hfound]
      exact ((hafter task).trans (if_neg htask)).symm
  · by_cases howner : otherId = record.sourceItemId
    · have hbefore : Unfinished store otherId :=
        ⟨record.packageName, record, howner ▸ hget, hopen⟩
      have hstill : Unfinished changed otherId := by
        refine ⟨record.packageName, change record, ?_, hchanged⟩
        rw [hafter, howner]
        exact if_pos rfl
      have hagrees := hinvariant.agrees otherId other hother hbefore.tracked
      exact Agrees.of_pending hagrees.quiet (hagrees.unfinished hbefore) hstill
    · have hsame : SameTasks store changed otherId := by
        intro packageName
        rw [hafter, if_neg]
        intro htask
        exact howner (Prod.mk.inj htask).1
      exact (hinvariant.agrees otherId other hother (htracked.of_same hsame.symm)).of_same hsame

/-- An eligible task is unfinished, because final tasks are not tried again. -/
theorem StatusInvariant.open_of_eligible (hget : store.tasks.get (key record) = some record)
    (heligible : record.eligible now maxAttempts) : record.terminal = false := by
  have hsettled := hinvariant.settled _ record hget
  unfold PackageProcessingStatusRecord.eligible at heligible
  unfold terminal
  cases hstatus : record.status with
  | pending => rfl
  | processing => rfl
  | completed => simp [hstatus] at heligible
  | failed => simp [hstatus, hsettled hstatus] at heligible
  | skipped => simp [hstatus] at heligible

theorem StatusInvariant.requeued (hretryable : store.retryable sourceItemId) :
    StatusInvariant (store.requeueItem sourceItemId) := by
  have htasks : ∀ task, (store.requeueItem sourceItemId).tasks.get task =
      (store.tasks.get task).map fun record =>
        if record.sourceItemId == sourceItemId && record.status == .failed then record.requeue
        else record := by
    intro task
    refine Table.get_updateAll _ (fun record => ?_) task
    split
    · rfl
    · rfl
  have hitems : ∀ otherId, (store.requeueItem sourceItemId).sourceItems.get otherId =
      if otherId = sourceItemId then
        (store.sourceItems.get otherId).map fun item =>
          { item with
            processingStatus := .pending
            processingAttempts := (((store.requeueItem sourceItemId).tasksOf sourceItemId).map
              PackageProcessingStatusRecord.attempts).sum
            processingError := none
            processingClaimedBy := none
            processingClaimedAt := none
            processingLeaseExpiresAt := none
            processingCompletedAt := none
            processingNextAttemptAt := none
            failureCategory := none }
      else store.sourceItems.get otherId := by
    intro otherId
    apply Table.get_modify
    intro row
    rfl
  refine ⟨fun task changed hchanged => ?_, fun task changed hchanged hfailed => ?_,
    fun otherId other hother htracked => ?_⟩
  · rw [htasks] at hchanged
    obtain ⟨record, hrecord, -⟩ := Option.map_eq_some_iff.mp hchanged
    obtain ⟨owner, howner⟩ := hinvariant.owned task record hrecord
    rw [hitems, howner]
    split
    · exact ⟨_, rfl⟩
    · exact ⟨owner, rfl⟩
  · rw [htasks] at hchanged
    obtain ⟨record, hrecord, rfl⟩ := Option.map_eq_some_iff.mp hchanged
    split at hfailed
    · cases hfailed
    · next hkept =>
        rw [if_neg hkept]
        exact hinvariant.settled task record hrecord hfailed
  · by_cases howner : otherId = sourceItemId
    · subst howner
      rw [hitems, if_pos rfl] at hother
      obtain ⟨item, -, rfl⟩ := Option.map_eq_some_iff.mp hother
      refine Agrees.of_pending rfl rfl ?_
      rw [QueueStore.retryable, Bool.or_eq_true] at hretryable
      rcases hretryable with hempty | hany
      · obtain ⟨packageName, changed, hchanged, -⟩ := htracked
        rw [htasks] at hchanged
        obtain ⟨record, hrecord, -⟩ := Option.map_eq_some_iff.mp hchanged
        have hmem := get_of_tasksOf hrecord
        rw [List.isEmpty_iff.mp hempty] at hmem
        cases hmem
      · obtain ⟨record, hmem, hfailed⟩ := List.any_eq_true.mp hany
        have hrecord := mem_tasksOf.mp hmem
        have hid : (record.sourceItemId, record.packageName) = (otherId, record.packageName) :=
          Table.key_of_get hrecord
        refine ⟨record.packageName, record.requeue, ?_, rfl⟩
        rw [htasks, hrecord, Option.map_some, if_pos]
        rw [Bool.and_eq_true, beq_iff_eq]
        exact ⟨(Prod.mk.inj hid).1, hfailed⟩
    · have hsame : SameTasks store (store.requeueItem sourceItemId) otherId := by
        intro packageName
        rw [htasks]
        cases hrecord : store.tasks.get (otherId, packageName) with
        | none => rfl
        | some record =>
          have hid : (record.sourceItemId, record.packageName) = (otherId, packageName) :=
            Table.key_of_get hrecord
          rw [Option.map_some, if_neg]
          rw [Bool.and_eq_true, beq_iff_eq, (Prod.mk.inj hid).1]
          exact fun hboth => howner hboth.1
      rw [hitems, if_neg howner] at hother
      exact (hinvariant.agrees otherId other hother (htracked.of_same hsame.symm)).of_same hsame

/-- Changes of items leave the invariant, unless they touch the state of a
tracked one. -/
theorem StatusInvariant.itemsChanged {change : SourceItemRecord → SourceItemRecord}
    (hitems : ∀ otherId, sourceItems.get otherId = (store.sourceItems.get otherId).map change)
    (hchange : ∀ otherId other, store.sourceItems.get otherId = some other →
      Tracked store otherId → (change other).processingStatus = other.processingStatus ∧
        (change other).processingNextAttemptAt = other.processingNextAttemptAt) :
    StatusInvariant { store with sourceItems := sourceItems } := by
  refine ⟨fun task record hget => ?_, hinvariant.settled, fun otherId changed hget htracked => ?_⟩
  · obtain ⟨owner, howner⟩ := hinvariant.owned task record hget
    exact ⟨change owner, by rw [hitems, howner, Option.map_some]⟩
  · have hfound : (store.sourceItems.get otherId).map change = some changed :=
      (hitems otherId).symm.trans hget
    obtain ⟨other, hother, rfl⟩ := Option.map_eq_some_iff.mp hfound
    have htrackedBefore : Tracked store otherId := htracked
    obtain ⟨hstatus, hnext⟩ := hchange otherId other hother htrackedBefore
    have hagrees := hinvariant.agrees otherId other hother htrackedBefore
    exact
      { quiet := hnext.trans hagrees.quiet
        unfinished := fun hunfinished => hstatus.trans (hagrees.unfinished hunfinished)
        failed := fun hfinished hfailed => hstatus.trans (hagrees.failed hfinished hfailed)
        completed := fun hfinished hnone => hstatus.trans (hagrees.completed hfinished hnone) }

theorem StatusInvariant.itemChanged {change : SourceItemRecord → SourceItemRecord}
    (hid : ∀ other : SourceItemRecord, (change other).id = other.id)
    (huntracked : ¬ Tracked store sourceItemId) :
    StatusInvariant { store with sourceItems := store.sourceItems.modify sourceItemId change } := by
  apply hinvariant.itemsChanged
  · intro otherId
    apply Table.get_updateAll
    intro row
    split
    · exact hid row
    · rfl
  · intro otherId other hother htracked
    have hkey : other.id = otherId := Table.key_of_get hother
    rw [if_neg]
    · exact ⟨rfl, rfl⟩
    · intro hsame
      have howner : otherId = sourceItemId := hkey.symm.trans hsame
      rw [howner] at htracked
      exact huntracked htracked

end

theorem Move.statusInvariant (hmove : Move maxAttempts before after)
    (hinvariant : StatusInvariant before) : StatusInvariant after := by
  cases hmove with
  | rest rest =>
    exact ⟨hinvariant.owned, hinvariant.settled, fun id item hget htracked =>
      (hinvariant.agrees id item hget htracked).of_same fun _ => rfl⟩
  | ingested hinsert hadd hpending _ hquiet _ =>
    exact hinvariant.ingested hinsert hadd fun packageName hmem hactive =>
      ⟨hpending packageName hmem hactive, hquiet⟩
  | created hinsert => exact hinvariant.created hinsert
  | closed hkey hchange => exact hinvariant.closed hkey hchange
  | claimed hget heligible =>
    exact hinvariant.reopened (fun _ => rfl) hget (hinvariant.open_of_eligible hget heligible) rfl
  | retried hget hheld =>
    refine hinvariant.reopened (fun _ => rfl) hget ?_ rfl
    rw [terminal, hheld]
    rfl
  | requeued hretryable => exact hinvariant.requeued hretryable
  | @itemClaimed item workerId leaseSeconds now hget heligible hfinished =>
    refine hinvariant.itemChanged ?_ ?_
    · exact fun _ => rfl
    intro htracked
    have hnone : ¬ Unfinished before item.id := by
      rintro ⟨packageName, record, hrecord, hopen⟩
      rw [unfinished_of_get hrecord hopen] at hfinished
      cases hfinished
    rw [(hinvariant.agrees item.id item hget htracked).not_eligible hnone] at heligible
    cases heligible
  | itemConcluded hget hid hconcluded =>
    apply hinvariant.itemChanged hid
    intro htracked
    exact (hinvariant.agrees _ _ hget htracked).not_processing hconcluded.held
  | itemsCancelled packageNames now =>
    apply hinvariant.itemsChanged
    · intro otherId
      apply Table.get_updateAll
      intro row
      split
      · rfl
      · rfl
    · intro otherId other hother htracked
      have hid : other.id = otherId := Table.key_of_get hother
      obtain ⟨packageName, record, hrecord, -⟩ := htracked
      have hmem := get_of_tasksOf hrecord
      have hkept : before.legacyOpen packageNames other = false := by
        rw [QueueStore.legacyOpen, hid, List.isEmpty_eq_false_iff.mpr (List.ne_nil_of_mem hmem),
          Bool.and_false]
      rw [hkept]
      exact ⟨rfl, rfl⟩
  | noted sourceItemId failureCategory =>
    apply hinvariant.itemsChanged
    · intro otherId
      apply Table.get_updateAll
      intro row
      split
      · rfl
      · rfl
    · intro otherId other hother htracked
      split
      · exact ⟨rfl, rfl⟩
      · exact ⟨rfl, rfl⟩

theorem StatusInvariant.empty (rest : σ) : StatusInvariant (emptyQueue rest) :=
  ⟨fun _ _ hget => (nomatch hget), fun _ _ hget => (nomatch hget), fun _ _ hget => (nomatch hget)⟩

theorem processed_statusInvariant (maxAttempts : ℕ) (rest : σ) (ops : List (ProcessingOp σ)) :
    StatusInvariant (processed maxAttempts rest ops) :=
  processed_invariant (StatusInvariant.empty rest)
    (fun _ _ hmove hinvariant => hmove.statusInvariant hinvariant) ops

/-- The status of every source item with a task that was not skipped, in every
run.  It is completed or failed exactly when all its tasks are completed, skipped
or failed, and then it has failed exactly when one of them has; a failed item
has a failed task.  The claim of items without tasks never takes it. -/
theorem status_agreement (maxAttempts : ℕ) (rest : σ) (ops : List (ProcessingOp σ))
    (sourceItemId : String) (item : SourceItemRecord)
    (hget : (processed maxAttempts rest ops).sourceItems.get sourceItemId = some item)
    (htracked : Tracked (processed maxAttempts rest ops) sourceItemId) :
    ((item.processingStatus = .completed ∨ item.processingStatus = .failed) ↔
        ∀ packageName record, (processed maxAttempts rest ops).tasks.get
          (sourceItemId, packageName) = some record →
            record.status = .completed ∨ record.status = .skipped ∨ record.status = .failed) ∧
      ((∀ packageName record, (processed maxAttempts rest ops).tasks.get
          (sourceItemId, packageName) = some record →
            record.status = .completed ∨ record.status = .skipped ∨ record.status = .failed) →
        (item.processingStatus = .failed ↔
          AnyFailed (processed maxAttempts rest ops) sourceItemId)) ∧
      (item.processingStatus = .failed → AnyFailed (processed maxAttempts rest ops) sourceItemId) ∧
      ∀ workerId leaseSeconds now claimed,
        (claimNextSourceItem workerId leaseSeconds maxAttempts now
          (processed maxAttempts rest ops)).2 = some claimed → claimed.id ≠ sourceItemId := by
  have hinvariant := processed_statusInvariant maxAttempts rest ops
  generalize processed maxAttempts rest ops = store at *
  have hagrees := hinvariant.agrees sourceItemId item hget htracked
  have hdone : (∀ packageName record, store.tasks.get (sourceItemId, packageName) = some record →
      record.status = .completed ∨ record.status = .skipped ∨ record.status = .failed) ↔
        ¬ Unfinished store sourceItemId := by
    constructor
    · rintro hall ⟨packageName, record, hrecord, hopen⟩
      unfold PackageProcessingStatusRecord.terminal at hopen
      rcases hall packageName record hrecord with hstatus | hstatus | hstatus <;>
        simp [hstatus] at hopen
    · intro hfinished packageName record hrecord
      by_contra hnot
      apply hfinished
      refine ⟨packageName, record, hrecord, ?_⟩
      push Not at hnot
      simp [PackageProcessingStatusRecord.terminal, hnot]
  rw [hdone]
  refine ⟨?_, ?_, ?_, ?_⟩
  · rcases hagrees.status with ⟨hstatus, hunfinished⟩ | ⟨hfinished, hstatus | hstatus⟩
    · simp [hstatus, hunfinished]
    · simp [hstatus, hfinished]
    · simp [hstatus, hfinished]
  · intro hfinished
    constructor
    · intro hfailed
      by_contra hnone
      rw [hagrees.completed hfinished hnone] at hfailed
      cases hfailed
    · exact hagrees.failed hfinished
  · intro hfailed
    have hfinished : ¬ Unfinished store sourceItemId := by
      intro hunfinished
      rw [hagrees.unfinished hunfinished] at hfailed
      cases hfailed
    by_contra hnone
    rw [hagrees.completed hfinished hnone] at hfailed
    cases hfailed
  · intro workerId leaseSeconds now claimed hclaimed hsame
    unfold claimNextSourceItem at hclaimed
    split at hclaimed
    · cases hclaimed
    · next found hnext =>
        obtain ⟨hfound, heligible, hopen⟩ := nextItem_eq_some hnext
        have hid : found.id = sourceItemId := by
          rw [← hsame, ← Option.some.inj hclaimed]
          rfl
        rw [hid, hget] at hfound
        obtain rfl := Option.some.inj hfound
        have hfinished : ¬ Unfinished store sourceItemId := by
          rintro ⟨packageName, record, hrecord, hstill⟩
          rw [hid, unfinished_of_get hrecord hstill] at hopen
          cases hopen
        rw [hagrees.not_eligible hfinished] at heligible
        cases heligible

/-- A run whose only attempt at one of two tasks fails. -/
def halfFailed : List (ProcessingOp Unit) :=
  [.ingest "item" 0 none ["first", "second"] (fun _ => false) none 0,
    .claimTask "worker" 60 1,
    .failTask ("item", "first") "worker" 1 "refused" false none 2]

/-- The item of a failed task is pending as long as another task is unfinished. -/
theorem pending_with_failed_task :
    ((processed 1 () halfFailed).sourceItems.get "item").map SourceItemRecord.processingStatus =
        some .pending ∧
      Tracked (processed 1 () halfFailed) "item" ∧ AnyFailed (processed 1 () halfFailed) "item" := by
  have hfirst : ((processed 1 () halfFailed).tasks.get ("item", "first")).map
      PackageProcessingStatusRecord.status = some .failed := by decide
  obtain ⟨record, hrecord, hfailed⟩ := Option.map_eq_some_iff.mp hfirst
  refine ⟨by decide, ⟨"first", record, hrecord, ?_⟩, ⟨"first", record, hrecord, hfailed⟩⟩
  rw [hfailed]
  exact nofun

/-- The status agreement of the run in which both tasks of an item fail. -/
theorem status_agreement_of_failed_tasks :
    ∃ item, (processed 1 () (halfFailed ++
        [.claimTask "worker" 60 3,
          .failTask ("item", "second") "worker" 1 "refused" false none 4])).sourceItems.get
            "item" = some item ∧ item.processingStatus = .failed := by
  let ops : List (ProcessingOp Unit) := halfFailed ++
    [.claimTask "worker" 60 3, .failTask ("item", "second") "worker" 1 "refused" false none 4]
  have hitem : ((processed 1 () ops).sourceItems.get "item").isSome := by decide
  have hfirst : ((processed 1 () ops).tasks.get ("item", "first")).map
      PackageProcessingStatusRecord.status = some .failed := by decide
  have hall : ∀ record ∈ (processed 1 () ops).tasks.rows, record.status = .failed := by decide
  obtain ⟨item, hget⟩ := Option.isSome_iff_exists.mp hitem
  obtain ⟨record, hrecord, hfailed⟩ := Option.map_eq_some_iff.mp hfirst
  have htracked : Tracked (processed 1 () ops) "item" :=
    ⟨"first", record, hrecord, by rw [hfailed]; exact nofun⟩
  obtain ⟨-, hsummary, -⟩ := status_agreement 1 () ops "item" item hget htracked
  refine ⟨item, hget, (hsummary ?_).mpr ⟨"first", record, hrecord, hfailed⟩⟩
  intro packageName other hother
  exact Or.inr (Or.inr (hall other (Table.mem_of_get hother)))

end Moves

end Pallium.Queue
