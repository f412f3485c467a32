import Pallium.Core.Table
import Pallium.Core.Text

/-!
# The window of a thread rebuild

A rebuild of a thread lists the thread's items in order, drops those up to the
watermark when the thread is longer than the budget, and passes to the plugin
as many of the newest remaining items as fit into the budget.
-/

namespace Pallium.Rebuild

open Pallium.Text

def threadWindowBudgetChars : ℕ := 16000

/-- The columns of `source_items` that a thread rebuild reads. -/
structure SourceItem where
  id : String
  containerRef : String
  threadRef : Option String
  visibility : String
  useCase : Option String
  content : String
  createdAt : ℤ
  processingStatus : String
  processingError : Option String
  deriving DecidableEq, Repr

instance : Keyed SourceItem String := ⟨SourceItem.id⟩

/-- A row of `package_processing_status`. -/
structure PackageProcessingStatus where
  sourceItemId : String
  packageName : String
  status : String
  error : Option String
  deriving DecidableEq, Repr

/-- What the rebuild asks of a `ThreadAggregationSemanticPlugin`. -/
structure ThreadAggregationSemanticPlugin where
  supportsThreadAggregation : SourceItem → Bool
  requiresVisibilityContext : Bool

def sourceItemEnabledForPackage (packages : List PackageProcessingStatus) (packageName : String)
    (item : SourceItem) : Bool :=
  (packages.any fun row =>
      decide (row.sourceItemId = item.id ∧ row.packageName = packageName ∧
        (row.status ≠ "skipped" ∨ row.error ≠ some "package_disabled"))) ||
    decide (item.useCase = some packageName ∧ item.processingStatus = "completed" ∧
      item.processingError ≠ some "package_disabled") &&
      !(packages.any fun row =>
        decide (row.sourceItemId = item.id ∧ row.packageName = packageName))

/-- `ORDER BY created_at, id`. -/
def ItemOrder (left right : SourceItem) : Prop :=
  left.createdAt < right.createdAt ∨
    left.createdAt = right.createdAt ∧ left.id ≤ right.id

instance : DecidableRel ItemOrder := fun left right =>
  inferInstanceAs (Decidable (left.createdAt < right.createdAt ∨
    left.createdAt = right.createdAt ∧ left.id ≤ right.id))

def listSourceItemsForThread (items : Table SourceItem)
    (packages : List PackageProcessingStatus) (containerRef threadRef packageName : String) :
    List SourceItem :=
  (items.rows.filter fun item =>
    decide (item.containerRef = containerRef ∧ item.threadRef = some threadRef) &&
      sourceItemEnabledForPackage packages packageName item).insertionSort ItemOrder

/-- `len(item.content.strip())`. -/
def itemChars (item : SourceItem) : ℕ := strippedLength item.content

/-- The total size of some items. -/
def contentSize (items : List SourceItem) : ℕ := (items.map itemChars).sum

/-- The loop of `_apply_thread_window_budget` over the remaining items, newest
first. -/
def extendWindow (total : ℕ) (window : List SourceItem) : List SourceItem → List SourceItem
  | [] => window
  | item :: older =>
    if window ≠ [] ∧ threadWindowBudgetChars < total + itemChars item then window
    else extendWindow (total + itemChars item) (item :: window) older

def applyThreadWindowBudget (threadItems : List SourceItem) : List SourceItem :=
  extendWindow 0 [] threadItems.reverse

/-- The rebuild is incremental: a watermark is set and the thread is longer
than the budget. -/
def Incremental (watermark : Option ℤ) (allThreadItems : List SourceItem) : Prop :=
  watermark.isSome ∧ threadWindowBudgetChars < contentSize allThreadItems

instance (watermark : Option ℤ) (allThreadItems : List SourceItem) :
    Decidable (Incremental watermark allThreadItems) :=
  inferInstanceAs (Decidable (_ ∧ _))

/-- The items behind the watermark, or all of them. -/
def selectThreadItems (watermark : Option ℤ) (allThreadItems : List SourceItem) :
    List SourceItem :=
  if Incremental watermark allThreadItems then
    allThreadItems.filter fun item => decide (∀ last ∈ watermark, last < item.createdAt)
  else allThreadItems

/-- The items left by the visibility filter. -/
def visibleThreadItems (plugin : ThreadAggregationSemanticPlugin) (visibility : String)
    (threadItems : List SourceItem) : List SourceItem :=
  if plugin.requiresVisibilityContext then
    threadItems.filter fun item => decide (item.visibility = visibility)
  else threadItems

/-- The thread branch of `_maybe_rebuild_thread_summary`: the window that is
passed to `build_thread_summary`, or `none` when the rebuild has no result. -/
def maybeRebuildThreadSummary (plugin : ThreadAggregationSemanticPlugin) (visibility : String)
    (watermark : Option ℤ) (listed : List SourceItem) : Option (List SourceItem) :=
  let allThreadItems := listed.filter plugin.supportsThreadAggregation
  let threadItems := visibleThreadItems plugin visibility
    (selectThreadItems watermark allThreadItems)
  if threadItems.length < 2 ∧
      ¬ (threadWindowBudgetChars < contentSize allThreadItems ∧ 1 ≤ threadItems.length) then none
  else some (applyThreadWindowBudget threadItems)

/-! ## What the budget keeps -/

theorem extendWindow_of_fits {total : ℕ} {window older : List SourceItem}
    (hfits : total + contentSize older ≤ threadWindowBudgetChars) :
    extendWindow total window older = older.reverse ++ window := by
  induction older generalizing total window with
  | nil => rfl
  | cons item older ih =>
    rw [contentSize, List.map_cons, List.sum_cons, ← add_assoc] at hfits
    have hitem : ¬ threadWindowBudgetChars < total + itemChars item := by omega
    rw [extendWindow, if_neg fun hall => hitem hall.2, ih hfits, List.reverse_cons,
      List.append_assoc, List.singleton_append]

theorem applyThreadWindowBudget_of_fits {threadItems : List SourceItem}
    (hfits : contentSize threadItems ≤ threadWindowBudgetChars ∨ threadItems.length ≤ 1) :
    applyThreadWindowBudget threadItems = threadItems := by
  rcases hfits with hfits | hshort
  · have hreverse : contentSize threadItems.reverse = contentSize threadItems := by
      rw [contentSize, contentSize, List.map_reverse, List.sum_reverse]
    rw [applyThreadWindowBudget, extendWindow_of_fits (by rw [hreverse]; omega),
      List.reverse_reverse, List.append_nil]
  · match threadItems, hshort with
    | [], _ => rfl
    | [item], _ => simp [applyThreadWindowBudget, extendWindow]

theorem mem_listSourceItemsForThread {items : Table SourceItem}
    {packages : List PackageProcessingStatus} {containerRef threadRef packageName : String}
    {item : SourceItem} :
    item ∈ listSourceItemsForThread items packages containerRef threadRef packageName ↔
      item ∈ items.rows ∧ item.containerRef = containerRef ∧ item.threadRef = some threadRef ∧
        sourceItemEnabledForPackage packages packageName item := by
  rw [listSourceItemsForThread, List.mem_insertionSort]
  simp [and_assoc]

end Pallium.Rebuild
