import Pallium.Queue.ThreadScope
import Pallium.Rebuild.Window

/-!
# The rebuild loop of one thread scope

Items are ingested, commits request a rebuild, workers claim the scope, build
a window from the items they read and commit it together with the completion
of their claim.  The steps of different workers interleave freely.  Beside the
stored rows the state records, for every committed rebuild, which items its
window held and which were stored when it was claimed and when it was read.
-/

namespace Pallium.Rebuild

open Pallium.Queue

/-- A thread scope and the plugin that rebuilds it. -/
structure ThreadSetting where
  plugin : ThreadAggregationSemanticPlugin
  scope : ThreadProcessingScope
  threadRef : String
  isThread : scope.threadRef = some threadRef
  hasVisibility : scope.visibility ≠ ""

/-- The items a worker read and the window it built from them. -/
structure Build where
  listed : List SourceItem
  window : Option (List SourceItem)
  deriving DecidableEq, Repr

/-- One iteration of `_process_thread_rebuild_lease`. -/
structure Job where
  workerId : String
  lease : ThreadProcessingLease
  ingested : List String
  build : Option Build
  deriving DecidableEq, Repr

instance : Keyed Job String := ⟨Job.workerId⟩

structure CommittedRebuild where
  window : List String
  ingested : List String
  read : List String
  deriving DecidableEq, Repr

/-- The stored rows, the running jobs and the committed rebuilds, newest first. -/
structure RebuildState where
  items : Table SourceItem
  packages : List PackageProcessingStatus
  scopes : ThreadScopes
  jobs : Table Job
  committed : List CommittedRebuild

/-- The steps of the workers. -/
inductive RebuildOp where
  | ingest (item : SourceItem)
  | request (claimIsCurrent : Bool) (finishedAt : ℤ)
  | claim (workerId : String) (leaseSeconds claimedAt : ℤ)
  | build (workerId : String)
  | commit (workerId : String) (finishedAt : ℤ)

namespace RebuildState

/-- The state before anything was ingested. -/
def start : RebuildState := ⟨Table.empty, [], Table.empty, Table.empty, []⟩

def itemIds (state : RebuildState) : List String := state.items.rows.map SourceItem.id

/-- The ids of the items that the last committed rebuild read. -/
def lastRead (state : RebuildState) : List String :=
  match state.committed with
  | [] => []
  | last :: _ => last.read

end RebuildState

def claimIsCurrent (scopes : ThreadScopes) (lease : ThreadProcessingLease) (workerId : String) :
    Bool :=
  match scopes.get lease.scopeKey with
  | none => false
  | some record =>
    decide (record.processingClaimedBy = some workerId ∧
      record.processingClaimedAt = some lease.processingClaimedAt)

/-- `max(item.created_at for item in thread_items)`. -/
def itemsWatermark (window : List SourceItem) : Option ℤ :=
  (window.map SourceItem.createdAt).max?

/-- Store an item and its pending package task. -/
def ingest (setting : ThreadSetting) (state : RebuildState) (item : SourceItem) : RebuildState :=
  match state.items.insertNew item with
  | none => state
  | some items =>
    { state with
      items := items
      packages := state.packages ++ [⟨item.id, setting.scope.useCase, "pending", none⟩] }

/-- Claim the scope; the claim starts a job. -/
def claim (setting : ThreadSetting) (state : RebuildState) (workerId : String)
    (leaseSeconds claimedAt : ℤ) : RebuildState :=
  let result := claimThreadProcessingScope state.scopes setting.scope workerId leaseSeconds
    claimedAt
  match result.2 with
  | none => { state with scopes := result.1 }
  | some lease =>
    { state with
      scopes := result.1
      jobs := state.jobs.put ⟨workerId, lease, state.itemIds, none⟩ }

/-- Read the thread and build the window, unless the claim has been lost. -/
def build (setting : ThreadSetting) (state : RebuildState) (workerId : String) : RebuildState :=
  match state.jobs.get workerId with
  | none => state
  | some job =>
    if claimIsCurrent state.scopes job.lease workerId then
      match job.build, job.lease.threadRef with
      | none, some threadRef =>
        let listed := listSourceItemsForThread state.items state.packages
          job.lease.containerRef threadRef job.lease.useCase
        let window := maybeRebuildThreadSummary setting.plugin job.lease.visibility
          job.lease.collectionWatermarkAt listed
        { state with
          jobs := state.jobs.put { job with build := some ⟨listed, window⟩ } }
      | _, _ => state
    else { state with jobs := state.jobs.erase workerId }

/-- Commit what was built and complete the claim; without a result only the
claim is completed. -/
def commit (state : RebuildState) (workerId : String) (finishedAt : ℤ) : RebuildState :=
  match state.jobs.get workerId with
  | none => state
  | some job =>
    match job.build with
    | none => state
    | some ⟨_, none⟩ =>
      { state with
        scopes := (completeThreadProcessingScope state.scopes job.lease.scopeKey workerId
          job.lease.processingClaimedAt finishedAt).1
        jobs := state.jobs.erase workerId }
    | some ⟨listed, some window⟩ =>
      let result := commitProcessResultAndCompleteScope state.scopes job.lease.scopeKey
        workerId job.lease.processingClaimedAt finishedAt (itemsWatermark window)
      let committed := match result.2 with
        | some (some _) =>
          ⟨window.map SourceItem.id, job.ingested, listed.map SourceItem.id⟩ ::
            state.committed
        | _ => state.committed
      { state with
        scopes := result.1
        jobs := state.jobs.erase workerId
        committed := committed }

def step (setting : ThreadSetting) (state : RebuildState) : RebuildOp → RebuildState
  | .ingest item => ingest setting state item
  | .request claimIsCurrent finishedAt =>
    { state with
      scopes := requestRebuilds state.scopes claimIsCurrent (some setting.scope) none
        finishedAt }
  | .claim workerId leaseSeconds claimedAt => claim setting state workerId leaseSeconds claimedAt
  | .build workerId => build setting state workerId
  | .commit workerId finishedAt => commit state workerId finishedAt

/-! ## Coverage and the conditions for it -/

/-- Every item ingested before the claim of the last committed rebuild has been
in the window of a committed rebuild. -/
def Covered (state : RebuildState) : Prop :=
  ∀ last ∈ state.committed.head?, ∀ itemId ∈ last.ingested,
    ∃ rebuild ∈ state.committed, itemId ∈ rebuild.window

instance (state : RebuildState) : Decidable (Covered state) :=
  inferInstanceAs (Decidable (∀ last ∈ state.committed.head?, _))

/-- The item belongs to the thread, has the scope's visibility and is supported
by the plugin. -/
structure InThread (setting : ThreadSetting) (item : SourceItem) : Prop where
  containerRef : item.containerRef = setting.scope.containerRef
  threadRef : item.threadRef = some setting.threadRef
  visibility : item.visibility = setting.scope.visibility
  supported : setting.plugin.supportsThreadAggregation item

instance (setting : ThreadSetting) (item : SourceItem) : Decidable (InThread setting item) :=
  decidable_of_iff (item.containerRef = setting.scope.containerRef ∧
      item.threadRef = some setting.threadRef ∧ item.visibility = setting.scope.visibility ∧
      setting.plugin.supportsThreadAggregation item = true)
    ⟨fun h => ⟨h.1, h.2.1, h.2.2.1, h.2.2.2⟩, fun h => ⟨h.1, h.2, h.3, h.4⟩⟩

/-- Only items of the thread are ingested. -/
def OfThread (setting : ThreadSetting) (_ : RebuildState) : RebuildOp → Prop
  | .ingest item => InThread setting item
  | _ => True

instance (setting : ThreadSetting) (state : RebuildState) (op : RebuildOp) :
    Decidable (OfThread setting state op) := by
  cases op <;> unfold OfThread <;> infer_instance

/-- The budget drops none of the selected items, and the watermark skips only
items that the last committed rebuild had read. -/
def KeepsAll (state : RebuildState) (watermark : Option ℤ) (allThreadItems : List SourceItem) :
    Prop :=
  (contentSize (selectThreadItems watermark allThreadItems) ≤ threadWindowBudgetChars ∨
      (selectThreadItems watermark allThreadItems).length ≤ 1) ∧
    (Incremental watermark allThreadItems →
      ∀ item ∈ allThreadItems, (∀ last ∈ watermark, item.createdAt ≤ last) →
        item.id ∈ state.lastRead)

instance (state : RebuildState) (watermark : Option ℤ) (allThreadItems : List SourceItem) :
    Decidable (KeepsAll state watermark allThreadItems) :=
  inferInstanceAs (Decidable (_ ∧ (_ → ∀ item ∈ allThreadItems, _)))

/-- Every rebuild that is committed keeps all the items it read. -/
def CommitsAll (_ : ThreadSetting) (state : RebuildState) : RebuildOp → Prop
  | .commit workerId _ => ∀ job ∈ state.jobs.get workerId, ∀ built ∈ job.build,
      claimIsCurrent state.scopes job.lease workerId →
        KeepsAll state job.lease.collectionWatermarkAt built.listed
  | _ => True

instance (setting : ThreadSetting) (state : RebuildState) (op : RebuildOp) :
    Decidable (CommitsAll setting state op) := by
  cases op <;> unfold CommitsAll <;> infer_instance

end Pallium.Rebuild
