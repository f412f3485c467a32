import Pallium.Rebuild.Machine

/-!
# Which runs leave no gap

A rebuild that keeps all the items it read leaves none of them uncovered: what
it does not put into its window had been read by the committed rebuild before
it.  By induction along a run every item ingested before the claim of the last
committed rebuild has been in some window.  A thread whose uncovered items
exceed the budget loses the oldest of them.
-/

namespace Pallium.Rebuild

open Pallium.Queue
open Pallium.Run

variable {setting : ThreadSetting} {state : RebuildState}

variable {item : SourceItem} {scopes : ThreadScopes}

/-! ## The window of a rebuild that keeps everything -/

theorem visibleThreadItems_eq {plugin : ThreadAggregationSemanticPlugin} {visibility : String}
    {threadItems : List SourceItem}
    (hvisible : ∀ item ∈ threadItems, item.visibility = visibility) :
    visibleThreadItems plugin visibility threadItems = threadItems := by
  unfold visibleThreadItems
  split
  · rw [List.filter_eq_self]
    intro item hitem
    exact decide_eq_true (hvisible item hitem)
  · rfl

theorem selectThreadItems_subset (watermark : Option ℤ) (allThreadItems : List SourceItem) :
    selectThreadItems watermark allThreadItems ⊆ allThreadItems := by
  unfold selectThreadItems
  split
  · exact List.filter_subset_self _
  · exact List.Subset.refl _

theorem maybeRebuildThreadSummary_eq {watermark : Option ℤ} {listed window : List SourceItem}
    (hthread : ∀ item ∈ listed, InThread setting item)
    (hwindow : maybeRebuildThreadSummary setting.plugin setting.scope.visibility watermark
      listed = some window)
    (hkeeps : KeepsAll state watermark listed) :
    window = selectThreadItems watermark listed := by
  have hsupported : listed.filter setting.plugin.supportsThreadAggregation = listed :=
    List.filter_eq_self.mpr fun item hitem => (hthread item hitem).supported
  have hvisible : visibleThreadItems setting.plugin setting.scope.visibility
      (selectThreadItems watermark listed) = selectThreadItems watermark listed :=
    visibleThreadItems_eq fun item hitem =>
      (hthread item (selectThreadItems_subset watermark listed hitem)).visibility
  simp only [maybeRebuildThreadSummary, hsupported, hvisible] at hwindow
  split at hwindow
  · cases hwindow
  · rw [applyThreadWindowBudget_of_fits hkeeps.1, Option.some.injEq] at hwindow
    exact hwindow.symm

theorem read_of_keepsAll {watermark : Option ℤ} {listed : List SourceItem}
    (hkeeps : KeepsAll state watermark listed) (hitem : item ∈ listed) :
    item ∈ selectThreadItems watermark listed ∨ item.id ∈ state.lastRead := by
  unfold selectThreadItems
  by_cases hincremental : Incremental watermark listed
  · rw [if_pos hincremental]
    by_cases hlater : ∀ last ∈ watermark, last < item.createdAt
    · exact Or.inl (List.mem_filter.mpr ⟨hitem, decide_eq_true hlater⟩)
    · refine Or.inr (hkeeps.2 hincremental item hitem fun last hlast => ?_)
      by_contra hless
      refine hlater fun other hother => ?_
      rw [Option.mem_unique hother hlast]
      exact not_le.mp hless
  · rw [if_neg hincremental]
    exact Or.inl hitem

/-! ## The invariant of the loop -/

/-- The row of the scope names the scope's thread. -/
structure RowOf (setting : ThreadSetting) (record : ThreadProcessingLeaseRecord) : Prop where
  useCase : record.useCase = setting.scope.useCase
  containerRef : record.containerRef = setting.scope.containerRef
  threadRef : record.threadRef = setting.scope.threadRef
  visibility : record.visibility = some setting.scope.visibility

/-- Every row under the scope's key is the scope's row. -/
def RowsOf (setting : ThreadSetting) (scopes : ThreadScopes) : Prop :=
  ∀ record, scopes.get setting.scope.scopeKey = some record → RowOf setting record

/-- What a running job knows about the stored items. -/
structure JobInvariant (setting : ThreadSetting) (items : Table SourceItem) (job : Job) :
    Prop where
  useCase : job.lease.useCase = setting.scope.useCase
  containerRef : job.lease.containerRef = setting.scope.containerRef
  threadRef : job.lease.threadRef = setting.scope.threadRef
  visibility : job.lease.visibility = setting.scope.visibility
  ingested : job.ingested ⊆ items.rows.map SourceItem.id
  listed : ∀ built ∈ job.build, ∀ item ∈ built.listed, item ∈ items.rows
  ingestedRead : ∀ built ∈ job.build, job.ingested ⊆ built.listed.map SourceItem.id
  window : ∀ built ∈ job.build, built.window =
    maybeRebuildThreadSummary setting.plugin setting.scope.visibility
      job.lease.collectionWatermarkAt built.listed

structure Invariant (setting : ThreadSetting) (state : RebuildState) : Prop where
  stored : ∀ item ∈ state.items.rows, InThread setting item ∧
    sourceItemEnabledForPackage state.packages setting.scope.useCase item
  rows : RowsOf setting state.scopes
  jobs : ∀ workerId job, state.jobs.get workerId = some job →
    JobInvariant setting state.items job
  covered : ∀ itemId ∈ state.lastRead, ∃ rebuild ∈ state.committed, itemId ∈ rebuild.window
  ingested : ∀ last ∈ state.committed.head?, last.ingested ⊆ last.read

theorem invariant_start (setting : ThreadSetting) : Invariant setting RebuildState.start where
  stored := fun _ hitem => by cases hitem
  rows := fun _ hget => by cases hget
  jobs := fun _ _ hget => by cases hget
  covered := fun _ hread => by cases hread
  ingested := fun _ hlast => by cases hlast

theorem RowsOf.modify (hrows : RowsOf setting scopes) (scopeKey : String)
    {change : ThreadProcessingLeaseRecord → ThreadProcessingLeaseRecord}
    (hkey : ∀ record, key (change record) = key record)
    (hchange : ∀ record, RowOf setting record → RowOf setting (change record)) :
    RowsOf setting (scopes.modify scopeKey change) := by
  intro record hget
  rw [Table.get_modify _ _ hkey] at hget
  split at hget
  · obtain ⟨before, hbefore, rfl⟩ := Option.map_eq_some_iff.mp hget
    exact hchange before (hrows before hbefore)
  · exact hrows record hget

theorem RowsOf.upsert (hrows : RowsOf setting scopes) (requestedAt : ℤ) :
    RowsOf setting (upsertThreadProcessingScope scopes setting.scope requestedAt) := by
  intro record hget
  rw [get_upsert, if_pos rfl] at hget
  cases hbefore : scopes.get setting.scope.scopeKey with
  | none =>
    rw [hbefore] at hget
    cases hget
    exact ⟨rfl, rfl, rfl, rfl⟩
  | some before =>
    rw [hbefore] at hget
    cases hget
    obtain ⟨huseCase, hcontainerRef, hthreadRef, hvisibility⟩ := hrows before hbefore
    exact ⟨huseCase, hcontainerRef, hthreadRef, hvisibility⟩

theorem RowsOf.completeRecord (hrows : RowsOf setting scopes) (scopeKey workerId : String)
    (claimedAt finishedAt : ℤ) (watermark : Option ℤ) :
    RowsOf setting
      (completeRecord scopes scopeKey workerId claimedAt finishedAt watermark).1 := by
  rcases completeRecord_cases scopes scopeKey workerId claimedAt finishedAt watermark with
    ⟨hsame, -⟩ | ⟨completed, -, -, -, hresult⟩
  · rwa [hsame]
  · rw [hresult]
    refine hrows.modify scopeKey (by simp) fun record hrecord => ?_
    obtain ⟨huseCase, hcontainerRef, hthreadRef, hvisibility⟩ := hrecord
    exact ⟨huseCase, hcontainerRef, hthreadRef, hvisibility⟩

theorem JobInvariant.mono {items after : Table SourceItem} {job : Job}
    (hjob : JobInvariant setting items job)
    (hitems : ∀ item ∈ items.rows, item ∈ after.rows) : JobInvariant setting after job where
  useCase := hjob.useCase
  containerRef := hjob.containerRef
  threadRef := hjob.threadRef
  visibility := hjob.visibility
  ingested := fun itemId hitem => by
    obtain ⟨item, hmem, rfl⟩ := List.mem_map.mp (hjob.ingested hitem)
    exact List.mem_map_of_mem (hitems item hmem)
  listed := fun built hbuilt item hitem => hitems item (hjob.listed built hbuilt item hitem)
  ingestedRead := hjob.ingestedRead
  window := hjob.window

/-! ## What each step preserves -/

theorem enabled_append {packages : List PackageProcessingStatus} {packageName : String}
    (henabled : sourceItemEnabledForPackage packages packageName item)
    {row : PackageProcessingStatus} (hother : row.sourceItemId ≠ item.id) :
    sourceItemEnabledForPackage (packages ++ [row]) packageName item := by
  simpa [sourceItemEnabledForPackage, hother] using henabled

section

variable (hinvariant : Invariant setting state)
include hinvariant

theorem Invariant.ingest (hthread : InThread setting item) :
    Invariant setting (ingest setting state item) := by
  unfold Rebuild.ingest
  split
  · exact hinvariant
  · next items hinsert =>
    have hrows : items.rows = state.items.rows ++ [item] := Table.rows_insertNew hinsert
    have hfresh : ∀ other ∈ state.items.rows, item.id ≠ other.id := by
      intro other hother heq
      have hnone := Table.get_eq_none_of_insertNew hinsert
      have hget := Table.get_of_mem hother
      rw [show key other = key item from heq.symm, hnone] at hget
      cases hget
    refine ⟨?_, hinvariant.rows, ?_, hinvariant.covered, hinvariant.ingested⟩
    · intro other hother
      change other ∈ items.rows at hother
      rw [hrows, List.mem_append, List.mem_singleton] at hother
      rcases hother with hother | rfl
      · obtain ⟨hotherThread, henabled⟩ := hinvariant.stored other hother
        exact ⟨hotherThread, enabled_append henabled (hfresh other hother)⟩
      · exact ⟨hthread, by simp [sourceItemEnabledForPackage]⟩
    · intro workerId job hget
      refine (hinvariant.jobs workerId job hget).mono fun other hother => ?_
      change other ∈ items.rows
      rw [hrows]
      exact List.mem_append_left _ hother

theorem Invariant.request (claimIsCurrent : Bool)
    (finishedAt : ℤ) :
    Invariant setting (step setting state (.request claimIsCurrent finishedAt)) := by
  refine ⟨hinvariant.stored, ?_, hinvariant.jobs, hinvariant.covered, hinvariant.ingested⟩
  change RowsOf setting (requestRebuilds state.scopes claimIsCurrent (some setting.scope) none
    finishedAt)
  cases claimIsCurrent with
  | false => exact hinvariant.rows
  | true => exact hinvariant.rows.upsert finishedAt

theorem Invariant.claim (workerId : String)
    (leaseSeconds claimedAt : ℤ) :
    Invariant setting (claim setting state workerId leaseSeconds claimedAt) := by
  have hkey := fun lease => @scopeKey_of_claimThreadProcessingScope state.scopes workerId
    claimedAt setting.scope leaseSeconds lease
  rcases claimThreadProcessingScope_effect state.scopes setting.scope workerId leaseSeconds
    claimedAt with hnone | ⟨record, lease, hget, -, hlease, houtcome⟩
  · simp only [Rebuild.claim, hnone]
    exact ⟨hinvariant.stored, hinvariant.rows, hinvariant.jobs, hinvariant.covered,
      hinvariant.ingested⟩
  · obtain ⟨hleaseKey, -, -, -, huseCase, hcontainerRef, hthreadRef, hvisibility, -⟩ :=
      toThreadProcessingLease_setClaim hlease
    have hrecord : RowOf setting record := by
      refine hinvariant.rows record ?_
      rw [← hkey lease (by rw [houtcome]), hleaseKey]
      exact hget
    simp only [Rebuild.claim, houtcome]
    refine ⟨hinvariant.stored, ?_, ?_, hinvariant.covered, hinvariant.ingested⟩
    · refine hinvariant.rows.modify record.scopeKey (by simp) fun other hother => ?_
      exact ⟨hother.useCase, hother.containerRef, hother.threadRef, hother.visibility⟩
    · intro otherId job hjob
      change (state.jobs.put ⟨workerId, lease, state.itemIds, none⟩).get otherId = some job at hjob
      rw [Table.get_put] at hjob
      split at hjob
      · cases hjob
        exact {
          useCase := huseCase.trans hrecord.useCase
          containerRef := hcontainerRef.trans hrecord.containerRef
          threadRef := hthreadRef.trans hrecord.threadRef
          visibility := hvisibility _ hrecord.visibility setting.hasVisibility
          ingested := List.Subset.refl _
          listed := fun built hbuilt => by cases hbuilt
          ingestedRead := fun built hbuilt => by cases hbuilt
          window := fun built hbuilt => by cases hbuilt }
      · exact hinvariant.jobs otherId job hjob

theorem Invariant.mem_listed :
    item ∈ listSourceItemsForThread state.items state.packages setting.scope.containerRef
        setting.threadRef setting.scope.useCase ↔ item ∈ state.items.rows := by
  rw [mem_listSourceItemsForThread]
  constructor
  · exact fun hlisted => hlisted.1
  · intro hitem
    obtain ⟨hthread, henabled⟩ := hinvariant.stored item hitem
    exact ⟨hitem, hthread.containerRef, hthread.threadRef, henabled⟩

theorem Invariant.build (workerId : String) :
    Invariant setting (build setting state workerId) := by
  unfold Rebuild.build
  cases hget : state.jobs.get workerId with
  | none => exact hinvariant
  | some job =>
    have hjob := hinvariant.jobs workerId job hget
    have hworker : job.workerId = workerId := Table.key_of_get hget
    simp only
    split
    · cases hbuild : job.build with
      | some built => exact hinvariant
      | none =>
        have hthreadRef : job.lease.threadRef = some setting.threadRef :=
          hjob.threadRef.trans setting.isThread
        simp only [hthreadRef, hjob.containerRef, hjob.useCase, hjob.visibility]
        refine ⟨hinvariant.stored, hinvariant.rows, ?_, hinvariant.covered,
          hinvariant.ingested⟩
        intro otherId other hother
        simp only [Table.get_put] at hother
        split at hother
        · cases hother
          refine ⟨hjob.useCase, hjob.containerRef, hjob.threadRef, hjob.visibility,
            hjob.ingested, ?_, ?_, ?_⟩
          · rintro built hbuilt item hitem
            cases hbuilt
            exact hinvariant.mem_listed.mp hitem
          · rintro built hbuilt itemId hitem
            cases hbuilt
            obtain ⟨item, hmem, rfl⟩ := List.mem_map.mp (hjob.ingested hitem)
            exact List.mem_map_of_mem (hinvariant.mem_listed.mpr hmem)
          · rintro built hbuilt
            cases hbuilt
            rfl
        · exact hinvariant.jobs otherId other hother
    · refine ⟨hinvariant.stored, hinvariant.rows, ?_, hinvariant.covered, hinvariant.ingested⟩
      intro otherId other hother
      simp only [Table.get_erase] at hother
      split at hother
      · cases hother
      · exact hinvariant.jobs otherId other hother

theorem Invariant.erase (workerId : String) :
    ∀ otherId other, (state.jobs.erase workerId).get otherId = some other →
      JobInvariant setting state.items other := by
  intro otherId other hother
  rw [Table.get_erase] at hother
  split at hother
  · cases hother
  · exact hinvariant.jobs otherId other hother

theorem Invariant.commit {workerId : String}
    {finishedAt : ℤ} (hkeeps : CommitsAll setting state (.commit workerId finishedAt)) :
    Invariant setting (commit state workerId finishedAt) := by
  unfold Rebuild.commit
  cases hget : state.jobs.get workerId with
  | none => exact hinvariant
  | some job =>
    have hjob := hinvariant.jobs workerId job hget
    cases hbuild : job.build with
    | none => simpa only [hbuild] using hinvariant
    | some built =>
      obtain ⟨listed, window⟩ := built
      cases window with
      | none =>
        simp only [hbuild]
        exact ⟨hinvariant.stored, hinvariant.rows.completeRecord _ _ _ _ _,
          hinvariant.erase workerId, hinvariant.covered, hinvariant.ingested⟩
      | some window =>
        have hbuilt : (⟨listed, some window⟩ : Build) ∈ job.build := hbuild
        have hrows := hinvariant.rows.completeRecord job.lease.scopeKey workerId
          job.lease.processingClaimedAt finishedAt (itemsWatermark window)
        simp only [hbuild, commitProcessResultAndCompleteScope]
        rcases completeRecord_cases state.scopes job.lease.scopeKey workerId
          job.lease.processingClaimedAt finishedAt (itemsWatermark window) with
          ⟨-, hrefused⟩ | ⟨record, hrecord, hclaimer, hclaimed, hresult⟩
        · split
          · next pending hpending => exact absurd hpending (hrefused pending)
          · exact ⟨hinvariant.stored, hrows, hinvariant.erase workerId, hinvariant.covered,
              hinvariant.ingested⟩
        · have hcurrent : claimIsCurrent state.scopes job.lease workerId := by
            rw [claimIsCurrent, hrecord]
            exact decide_eq_true ⟨hclaimer, hclaimed⟩
          have hkeepsAll := hkeeps job hget ⟨listed, some window⟩ hbuilt hcurrent
          have hwindow : window =
              selectThreadItems job.lease.collectionWatermarkAt listed := by
            have hthread : ∀ item ∈ listed, InThread setting item := fun item hitem =>
              (hinvariant.stored item (hjob.listed _ hbuilt item hitem)).1
            exact maybeRebuildThreadSummary_eq hthread (hjob.window _ hbuilt).symm hkeepsAll
          rw [hresult] at hrows ⊢
          refine ⟨hinvariant.stored, hrows, hinvariant.erase workerId, ?_, ?_⟩
          · intro itemId hread
            obtain ⟨item, hitem, rfl⟩ := List.mem_map.mp hread
            rcases read_of_keepsAll hkeepsAll hitem with hselected | hbefore
            · refine ⟨_, List.mem_cons_self, ?_⟩
              exact List.mem_map_of_mem (hwindow ▸ hselected)
            · obtain ⟨rebuild, hrebuild, hcovered⟩ := hinvariant.covered _ hbefore
              exact ⟨rebuild, List.mem_cons_of_mem _ hrebuild, hcovered⟩
          · rintro last hlast
            cases hlast
            exact hjob.ingestedRead _ hbuilt

theorem Invariant.step {op : RebuildOp}
    (hthread : OfThread setting state op) (hkeeps : CommitsAll setting state op) :
    Invariant setting (step setting state op) := by
  cases op with
  | ingest item => exact hinvariant.ingest hthread
  | request claimIsCurrent finishedAt => exact hinvariant.request claimIsCurrent finishedAt
  | claim workerId leaseSeconds claimedAt => exact hinvariant.claim workerId leaseSeconds claimedAt
  | build workerId => exact hinvariant.build workerId
  | commit workerId finishedAt => exact hinvariant.commit hkeeps

theorem Invariant.coverage : Covered state := by
  intro last hlast itemId hitem
  have hread := hinvariant.ingested last hlast hitem
  refine hinvariant.covered itemId ?_
  rw [RebuildState.lastRead]
  cases hcommitted : state.committed with
  | nil => simp [hcommitted] at hlast
  | cons newest rest =>
    rw [hcommitted] at hlast
    cases hlast
    exact hread

end

/-- A run over items of the thread in which every committed rebuild keeps all
the items it read leaves no gap. -/
theorem covered_of_commitsAll {ops : List RebuildOp}
    (hthread : Along (step setting) (OfThread setting) RebuildState.start ops)
    (hkeeps : Along (step setting) (CommitsAll setting) RebuildState.start ops) :
    Covered (run (step setting) RebuildState.start ops) := by
  have hinvariant : Invariant setting (run (step setting) RebuildState.start ops) :=
    (hthread.and hkeeps).invariant (invariant_start setting) fun current op hop hcurrent =>
      hcurrent.step hop.1 hop.2
  exact hinvariant.coverage

/-! ## A thread longer than the budget at its first rebuild -/

/-- A plugin that takes every item. -/
def examplePlugin : ThreadAggregationSemanticPlugin := ⟨fun _ => true, true⟩

/-- The thread of the runs below. -/
def exampleSetting : ThreadSetting where
  plugin := examplePlugin
  scope := ⟨"scope", "notes", "container", some "thread", "private"⟩
  threadRef := "thread"
  isThread := rfl
  hasVisibility := by decide

/-- An item of the thread. -/
def exampleItem (id content : String) (createdAt : ℤ) : SourceItem :=
  ⟨id, "container", some "thread", "private", none, content, createdAt, "pending", none⟩

/-- The two items of the thread. -/
def exampleItems (content : String) : List SourceItem :=
  [exampleItem "a" content 1, exampleItem "b" content 2]

/-- Ingest both items, request the rebuild and claim it. -/
def claimOnce (content : String) : List RebuildOp :=
  [.ingest (exampleItem "a" content 1), .ingest (exampleItem "b" content 2),
    .request true 4, .claim "worker" 60 5]

/-- The same run followed by the rebuild. -/
def rebuildOnce (content : String) : List RebuildOp :=
  claimOnce content ++ [.build "worker", .commit "worker" 6]

/-- Two items that fit into the budget are both covered. -/
theorem covered_of_commitsAll_short :
    Covered (run (step exampleSetting) RebuildState.start (rebuildOnce "short")) :=
  covered_of_commitsAll (by decide) (by decide)

private theorem exampleItems_window {content : String}
    (hlong : threadWindowBudgetChars < Text.strippedLength content + Text.strippedLength content) :
    maybeRebuildThreadSummary examplePlugin "private" none (exampleItems content) =
      some [exampleItem "b" content 2] := by
  have hchars : ∀ id createdAt, itemChars (exampleItem id content createdAt) =
      Text.strippedLength content := fun _ _ => rfl
  have hwindow : applyThreadWindowBudget (exampleItems content) =
      [exampleItem "b" content 2] := by
    simp only [exampleItems, applyThreadWindowBudget, List.reverse_cons, List.reverse_nil,
      List.nil_append, List.cons_append, extendWindow, hchars]
    simp [hlong]
  have hvisible : visibleThreadItems examplePlugin "private" (selectThreadItems none
      ((exampleItems content).filter examplePlugin.supportsThreadAggregation)) =
      exampleItems content := rfl
  simp only [maybeRebuildThreadSummary, hvisible, hwindow]
  exact if_neg fun hshort => absurd hshort.1 (by simp [exampleItems])

def claimedState (content : String) : RebuildState :=
  run (step exampleSetting) RebuildState.start (claimOnce content)

/-- The job of the claim. -/
def exampleJob : Job where
  workerId := "worker"
  lease := ⟨"scope", "notes", "container", some "thread", "private", 4, "worker", 5, 60000005, none⟩
  ingested := ["a", "b"]
  build := none

private theorem build_claimedState (content : String) :
    build exampleSetting (claimedState content) "worker" =
      { claimedState content with
        jobs := (claimedState content).jobs.put { exampleJob with
          build := some ⟨exampleItems content, maybeRebuildThreadSummary examplePlugin "private"
            none (exampleItems content)⟩ } } := by
  have hjob : (claimedState content).jobs.get "worker" = some exampleJob := rfl
  have hlisted : listSourceItemsForThread (claimedState content).items
      (claimedState content).packages "container" "thread" "notes" = exampleItems content := rfl
  simp only [build, hjob, exampleJob]
  rw [hlisted]
  rfl

private theorem rebuildOnce_drops {content : String}
    (hlong : threadWindowBudgetChars < Text.strippedLength content + Text.strippedLength content) :
    ¬ Pending (run (step exampleSetting) RebuildState.start (rebuildOnce content)).scopes "scope" ∧
      ¬ Covered (run (step exampleSetting) RebuildState.start (rebuildOnce content)) := by
  have hrun : run (step exampleSetting) RebuildState.start (rebuildOnce content) =
      commit (build exampleSetting (claimedState content) "worker") "worker" 6 := by
    rw [rebuildOnce, run_append, run_cons, run_cons, run_nil]
    simp only [step, claimedState]
  rw [hrun, build_claimedState, exampleItems_window hlong]
  refine ⟨?_, ?_⟩
  · intro hpending
    cases hpending
  intro hcovered
  obtain ⟨rebuild, hrebuild, hitem⟩ := hcovered ⟨["b"], ["a", "b"], ["a", "b"]⟩ rfl "a" (by decide)
  obtain rfl : rebuild = ⟨["b"], ["a", "b"], ["a", "b"]⟩ := List.mem_singleton.mp hrebuild
  exact absurd hitem (by decide)

private theorem rebuildOnce_ofThread (content : String) :
    Along (step exampleSetting) (OfThread exampleSetting) RebuildState.start
      (rebuildOnce content) := by
  have hitem : ∀ id createdAt, InThread exampleSetting (exampleItem id content createdAt) :=
    fun _ _ => ⟨rfl, rfl, rfl, rfl⟩
  exact ⟨hitem "a" 1, hitem "b" 2, trivial, trivial, trivial, trivial, trivial⟩

private theorem strippedLength_replicate (count : ℕ) :
    Text.strippedLength (String.ofList (List.replicate count 'x')) = count := by
  rw [Text.strippedLength, Text.stripped_of_no_space, List.length_replicate]
  intro c hc
  rw [List.eq_of_mem_replicate hc]
  decide

/-- Ten thousand characters. -/
def longContent : String := String.ofList (List.replicate 10000 'x')

private theorem strippedLength_longContent : Text.strippedLength longContent = 10000 :=
  strippedLength_replicate 10000

/-- With two items of ten thousand characters each the first rebuild covers
only the newer one, and no rebuild is pending afterwards. -/
theorem rebuildOnce_leaves_gap :
    Along (step exampleSetting) (OfThread exampleSetting) RebuildState.start
        (rebuildOnce longContent) ∧
      ¬ Pending (run (step exampleSetting) RebuildState.start
        (rebuildOnce longContent)).scopes "scope" ∧
      ¬ Covered (run (step exampleSetting) RebuildState.start (rebuildOnce longContent)) := by
  refine ⟨rebuildOnce_ofThread longContent, rebuildOnce_drops ?_⟩
  rw [strippedLength_longContent, threadWindowBudgetChars]
  omega

end Pallium.Rebuild
