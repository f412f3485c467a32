import Pallium.Expansion.Payload

/-!
# The bounded expansion

The tool fits a source context into its response budget.  The anchor comes first: when
the whole anchor does not fit with empty neighbours, update details are trimmed, the
supported memories are left out and the farthest neighbours are dropped, and the anchor
is cut at the longest prefix that fits.  Only a first page with the whole anchor shows
the contents of the neighbours.
-/

namespace Pallium.Expansion

open Text

def expansionMaxChars : ℕ := 4000

def expansionMinChars : ℕ := 256

/-- A turn as it is first projected, with the fields of `_history_fields`. -/
def SourceTurn.project (turn : SourceTurn) : ShownItem where
  sourceItemId := turn.sourceItemId
  isAnchor := turn.isAnchor
  presentationRole := if turn.isAnchor then "anchor" else "neighbor"
  role := turn.role
  occurredAt := turn.occurredAt
  recordedAt := turn.recordedAt
  recordedAtSource := turn.recordedAtSource
  historicalUpdates := turn.historicalUpdates
  historicalUpdatesOmitted := turn.historicalUpdatesOmitted
  content := turn.content
  contentTruncated := none

section Trimming

variable {items : List ShownItem} {found : ℕ × ℕ × GuidanceUpdate}

/-- The updates of all items with their places. -/
def updatesOf (items : List ShownItem) : List (ℕ × ℕ × GuidanceUpdate) :=
  items.zipIdx.flatMap fun (item, index) =>
    item.historicalUpdates.zipIdx.map fun (update, place) => (index, place, update)

def modifyUpdates (index : ℕ) (change : ShownItem → ShownItem) (out : Expansion) : Expansion :=
  { out with items := out.items.modify index change }

/-- `longest` is cut by what the payload has in excess, and one character more. -/
def GuidanceUpdate.cut (excess : ℕ) (update : GuidanceUpdate) : GuidanceUpdate :=
  let text := take (update.textLength - excess - 1) (update.currentText.getD "")
  { update with
    currentTextTruncated := some true
    currentText := if text = "" then none else some text }

def longestText (items : List ShownItem) : Option (ℕ × ℕ × GuidanceUpdate) :=
  ((updatesOf items).filter fun found => 0 < found.2.2.textLength).argmax fun found =>
    found.2.2.textLength

def cutText (excess : ℕ) (found : ℕ × ℕ × GuidanceUpdate) (out : Expansion) : Expansion :=
  modifyUpdates found.1 (fun item =>
    { item with
      historicalUpdates := item.historicalUpdates.modify found.2.1 (GuidanceUpdate.cut excess) }) out

/-- An update of an item with several ones, and rather one that is not current. -/
def removableUpdate (items : List ShownItem) : Option (ℕ × ℕ × GuidanceUpdate) :=
  ((items.zipIdx.filter fun (item, _) => 1 < item.historicalUpdates.length).flatMap
    fun (item, index) =>
      item.historicalUpdates.zipIdx.map fun (update, place) => (index, place, update)).argmin
    fun found => decide (found.2.2.replacementStatus = some "current")

def removeUpdate (found : ℕ × ℕ × GuidanceUpdate) (out : Expansion) : Expansion :=
  modifyUpdates found.1 (fun item =>
    { item with
      historicalUpdates := item.historicalUpdates.eraseIdx found.2.1
      historicalUpdatesOmitted := item.historicalUpdatesOmitted + 1 }) out

/-- The characters of all update texts. -/
def textTotal (items : List ShownItem) : ℕ :=
  (items.map fun item => (item.historicalUpdates.map GuidanceUpdate.textLength).sum).sum

def updateTotal (items : List ShownItem) : ℕ :=
  (items.map fun item => item.historicalUpdates.length).sum

theorem mem_updatesOf (hfound : found ∈ updatesOf items) : ∃ item, items[found.1]? = some item ∧
      item.historicalUpdates[found.2.1]? = some found.2.2 := by
  obtain ⟨⟨item, index⟩, hitem, hmade⟩ := List.mem_flatMap.mp hfound
  obtain ⟨⟨update, place⟩, hupdate, rfl⟩ := List.mem_map.mp hmade
  exact ⟨item, List.mem_zipIdx_iff_getElem?.mp hitem, List.mem_zipIdx_iff_getElem?.mp hupdate⟩

theorem sum_map_modify_lt {α : Type} (size : α → ℕ) (change : α → α) {values : List α}
    {index : ℕ} {value : α} (hvalue : values[index]? = some value)
    (hless : size (change value) < size value) :
    ((values.modify index change).map size).sum < (values.map size).sum := by
  induction values generalizing index with
  | nil => cases hvalue
  | cons head rest ih =>
    cases index with
    | zero =>
      cases hvalue
      simpa using hless
    | succ index =>
      have hrest := ih hvalue
      simpa using hrest

theorem getD_of_nonempty (text : String) :
    (if text = "" then none else some text).getD "" = text := by
  by_cases hempty : text = ""
  · rw [if_pos hempty, hempty]
    rfl
  · rw [if_neg hempty]
    rfl

theorem GuidanceUpdate.textLength_cut (excess : ℕ) (update : GuidanceUpdate) :
    (update.cut excess).textLength =
      (take (update.textLength - excess - 1) (update.currentText.getD "")).length := by
  rw [GuidanceUpdate.textLength, GuidanceUpdate.cut, getD_of_nonempty]

theorem GuidanceUpdate.textLength_cut_lt {excess : ℕ} {update : GuidanceUpdate}
    (hlong : 0 < update.textLength) : (update.cut excess).textLength < update.textLength := by
  rw [GuidanceUpdate.textLength_cut, take, String.length_ofList, List.length_take]
  omega

theorem mem_longestText (hlongest : longestText items = some found) :
    found ∈ updatesOf items ∧ 0 < found.2.2.textLength := by
  have hmem := List.argmax_mem hlongest
  rw [List.mem_filter, decide_eq_true_eq] at hmem
  exact hmem

theorem textTotal_cutText_lt {out : Expansion} {excess : ℕ}
    (hlongest : longestText out.items = some found) :
    textTotal (cutText excess found out).items < textTotal out.items := by
  obtain ⟨hmem, hlong⟩ := mem_longestText hlongest
  obtain ⟨item, hitem, hupdate⟩ := mem_updatesOf hmem
  refine sum_map_modify_lt _ _ hitem ?_
  exact sum_map_modify_lt _ _ hupdate (GuidanceUpdate.textLength_cut_lt hlong)

theorem mem_removableUpdate (hremovable : removableUpdate items = some found) :
    ∃ item, items[found.1]? = some item ∧ found.2.1 < item.historicalUpdates.length := by
  have hmem := List.argmin_mem hremovable
  obtain ⟨⟨item, index⟩, hitem, hmade⟩ := List.mem_flatMap.mp hmem
  obtain ⟨⟨update, place⟩, hupdate, rfl⟩ := List.mem_map.mp hmade
  have hplace := List.mem_zipIdx_iff_getElem?.mp hupdate
  exact ⟨item, List.mem_zipIdx_iff_getElem?.mp (List.mem_of_mem_filter hitem),
    (List.getElem?_eq_some_iff.mp hplace).1⟩

theorem updateTotal_removeUpdate_lt {out : Expansion}
    (hremovable : removableUpdate out.items = some found) :
    updateTotal (removeUpdate found out).items < updateTotal out.items := by
  obtain ⟨item, hitem, hplace⟩ := mem_removableUpdate hremovable
  refine sum_map_modify_lt _ _ hitem ?_
  simp only [List.length_eraseIdx, hplace, if_true]
  omega

/-- The first loop of `_trim_update_details`. -/
def cutTexts (budget : ℕ) (out : Expansion) : Expansion :=
  if out.size ≤ budget then out
  else
    match _ : longestText out.items with
    | none => out
    | some found => cutTexts budget (cutText (out.size - budget) found out)
termination_by textTotal out.items
decreasing_by exact textTotal_cutText_lt ‹_›

/-- The second loop of `_trim_update_details`. -/
def removeUpdates (budget : ℕ) (out : Expansion) : Expansion :=
  if out.size ≤ budget then out
  else
    match _ : removableUpdate out.items with
    | none => out
    | some found => removeUpdates budget (removeUpdate found out)
termination_by updateTotal out.items
decreasing_by exact updateTotal_removeUpdate_lt ‹_›

def trimUpdateDetails (budget : ℕ) (out : Expansion) : Expansion :=
  removeUpdates budget (cutTexts budget out)

end Trimming

section Dropping

/-- How far an item stands from the anchor, and where it stands. -/
def farness (items : List ShownItem) (item : ShownItem) : ℕ ×ₗ ℕ :=
  toLex (((items.idxOf item : ℤ) - items.findIdx ShownItem.isAnchor).natAbs, items.idxOf item)

def farthest (items : List ShownItem) : Option ShownItem :=
  (items.filter fun item => !item.isAnchor).argmax (farness items)

/-- The navigation id after a turn has been dropped. -/
def navigated (followingIds : List String) (dropped : String) (current : Option String) :
    Option String :=
  if dropped ∈ followingIds then
    match current with
    | none => some dropped
    | some id =>
      if id ∉ followingIds ∨ followingIds.idxOf dropped < followingIds.idxOf id then some dropped
      else some id
  else current

def dropItem (followingIds : List String) (item : ShownItem) (out : Expansion) : Expansion :=
  { out with
    items := out.items.erase item
    itemsOmitted := some (out.itemsOmitted.getD 0 + 1)
    nextSourceItemId := navigated followingIds item.sourceItemId out.nextSourceItemId }

theorem mem_of_farthest {items : List ShownItem} {item : ShownItem}
    (hfarthest : farthest items = some item) : item ∈ items :=
  List.mem_of_mem_filter (List.argmax_mem hfarthest)

/-- The loop that drops the farthest neighbour until the page fits. -/
def dropFarthest (budget : ℕ) (followingIds : List String) (out : Expansion) : Expansion :=
  if out.size ≤ budget ∨ out.items.length ≤ 1 then out
  else
    match _ : farthest out.items with
    | none => out
    | some item => dropFarthest budget followingIds (dropItem followingIds item out)
termination_by out.items.length
decreasing_by
  have hmem := mem_of_farthest ‹_›
  exact (List.length_erase_of_mem hmem).trans_lt (Nat.pred_lt (List.length_pos_of_mem hmem).ne')

end Dropping

def smallBudget : ErrorPayload where
  error := some "max_chars is too small for the expansion anchor"
  minMaxChars := some expansionMinChars

def overBudget : ErrorPayload where
  error := some "expansion exceeds the response budget"
  minMaxChars := some expansionMinChars

/-- What stays the same while a page is fitted. -/
structure Paging where
  budget : ℕ
  offset : ℕ
  total : ℕ
  remaining : String
  followingIds : List String

namespace Paging

/-- The anchor with so many characters of what remains. -/
def anchorPage (paging : Paging) (base : ShownItem) (chars : ℕ) : ShownItem :=
  { base with
    content := take chars paging.remaining
    contentTruncated :=
      if paging.offset ≠ 0 ∨ paging.offset + chars < paging.total then some true else none }

def setAnchorPage (paging : Paging) (base : ShownItem) (chars : ℕ) (out : Expansion) :
    Expansion :=
  let last := paging.offset + chars
  let hasMore := decide (last < paging.total)
  { out with
    items := out.items.set (out.items.findIdx ShownItem.isAnchor) (paging.anchorPage base chars)
    hasMore := hasMore
    nextOffset := if hasMore then some last else none }

def fits (paging : Paging) (out : Expansion) : Bool := out.size ≤ paging.budget

/-- Details and neighbours give way to the anchor. -/
def squeeze (paging : Paging) (base : ShownItem) (out : Expansion) : Expansion × ShownItem :=
  let out := trimUpdateDetails paging.budget (paging.setAnchorPage base 0 out)
  let base := (out.items.find? ShownItem.isAnchor).getD base
  let out := if paging.fits out then out else { out with supportedMemories := some none }
  let out := dropFarthest paging.budget paging.followingIds out
  (paging.setAnchorPage base paging.remaining.length out, base)

/-- A page with a navigation id can do without the supported memories. -/
def withoutMemories (paging : Paging) (out : Expansion) : Expansion :=
  if out.nextSourceItemId.isSome ∧ out.supportedMemories.join = none ∧ ¬ paging.fits out then
    { out with supportedMemories := none }
  else out

/-- The page with the whole anchor, or with its longest prefix that fits. -/
def cutAnchor (paging : Paging) (base : ShownItem) (out : Expansion) :
    Except ErrorPayload (Expansion × ℕ) :=
  if paging.fits out then .ok (out, paging.remaining.length)
  else
    let start := paging.setAnchorPage base 0 out
    if paging.fits start then
      let low := lastFitting (fun chars => paging.fits (paging.setAnchorPage base chars start)) 0
        (paging.remaining.length - 1)
      .ok (paging.setAnchorPage base low start, low)
    else
      .error (if out.nextSourceItemId.isSome then overBudget else smallBudget)

end Paging

section Neighbours

def setItem (index : ℕ) (item : ShownItem) (out : Expansion) : Expansion :=
  { out with items := out.items.set index item }

/-- A neighbour with a prefix of its content. -/
def ShownItem.clipped (item : ShownItem) (content : String) (chars : ℕ) : ShownItem :=
  { item with content := take chars content, contentTruncated := some true }

/-- One neighbour gets its content, or the longest prefix that fits. -/
def fillNeighbor (budget : ℕ) (fullContent : String → String) (index : ℕ) (out : Expansion) :
    Expansion :=
  match out.items[index]? with
  | none => out
  | some original =>
    let content := fullContent original.sourceItemId
    if content = "" then out
    else
      let whole := setItem index { original with content := content, contentTruncated := none } out
      if whole.size ≤ budget then whole
      else
        let low := lastFitting (fun chars =>
          (setItem index (original.clipped content chars) out).size ≤ budget) 0 content.length
        setItem index
          { original with
            content := take low content
            contentTruncated := some (decide (low < content.length)) } out

/-- The places of the neighbours, the nearest first. -/
def neighborOrder (items : List ShownItem) : List ℕ :=
  let anchorIndex := items.findIdx ShownItem.isAnchor
  ((List.range items.length).filter fun index => index ≠ anchorIndex).insertionSort fun first later =>
    toLex (((first : ℤ) - anchorIndex).natAbs, first) ≤
      toLex (((later : ℤ) - anchorIndex).natAbs, later)

def fillNeighbors (budget : ℕ) (fullContent : String → String) (out : Expansion) : Expansion :=
  (neighborOrder out.items).foldl (fun out index => fillNeighbor budget fullContent index out) out

end Neighbours

/-- The payload without an anchor. -/
structure EmptyExpansion where
  supportedMemories : Option (List SupportedMemory)
  parentLookupId : Option String
  effectiveMaxChars : ℕ
  deriving DecidableEq, Repr

namespace EmptyExpansion

def text (out : EmptyExpansion) : String :=
  JsonText.object [("items", JsonText.array []),
    ("supported_memories", memoriesText out.supportedMemories),
    ("parent_lookup_id", JsonText.nullable JsonText.text out.parentLookupId),
    ("effective_max_chars", JsonText.integer out.effectiveMaxChars)]

def size (out : EmptyExpansion) : ℕ := out.text.length

end EmptyExpansion

inductive ExpansionResult
  | error (payload : ErrorPayload)
  | empty (out : EmptyExpansion)
  | page (out : Expansion)
  deriving DecidableEq, Repr

/-- `len(_json_text(result))`. -/
def ExpansionResult.size : ExpansionResult → ℕ
  | error payload => payload.size
  | empty out => out.size
  | page out => out.size

def restartAction : String :=
  "restart at content_offset 0 to obtain the current content_revision"

def invalidOffset : ErrorPayload where
  error := some "content_offset must be a non-negative integer"
  errorKind := some "invalid_content_offset"
  retryable := some false

def revisionRequired : ErrorPayload where
  error := some "content_revision is required for a nonzero content_offset"
  errorKind := some "content_revision_required"
  retryable := some true
  action := some restartAction

def staleRevision : ErrorPayload where
  error := some "source content changed during continuation"
  errorKind := some "stale_content_revision"
  retryable := some true
  action := some restartAction

def noRoom : ErrorPayload where
  error := some "max_chars leaves no room for source content"
  errorKind := some "insufficient_content_budget"
  retryable := some false
  action := some "increase max_chars"

/-- The response without an anchor. -/
def emptyExpansion (context : SourceContext) (budget : ℕ) : ExpansionResult :=
  let out : EmptyExpansion := ⟨context.supportedMemories, context.parentLookupId, budget⟩
  let out := if budget < out.size then { out with supportedMemories := none } else out
  if budget < out.size then .error overBudget else .empty out

/-- `current_revision`, from the hexadecimal digest of the content. -/
def revisionOf (digest : String → String) (content : String) : String :=
  "sha256:" ++ digest content

/-- The item of a page before any content is filled in. -/
def ShownItem.cleared (item : ShownItem) : ShownItem :=
  { item with
    content := ""
    contentTruncated := if item.content = "" then none else some true }

/-- The payload before the first page is set.  A continuation shows the anchor alone. -/
def openExpansion (digest : String → String) (context : SourceContext) (paging : Paging)
    (continued : Bool) (anchor : ShownItem) (projected : List ShownItem) : Expansion where
  items := (if continued then [anchor] else projected).map ShownItem.cleared
  supportedMemories := some context.supportedMemories
  parentLookupId := context.parentLookupId
  effectiveMaxChars := paging.budget
  contentOffset := paging.offset
  contentTotalChars := paging.total
  contentRevision := revisionOf digest anchor.content
  hasMore := decide (paging.offset < paging.total)
  nextOffset := if paging.offset < paging.total then some paging.offset else none
  itemsOmitted := if continued ∧ projected.length ≠ 1 then some (projected.length - 1) else none
  nextSourceItemId :=
    if continued then paging.followingIds.head?.or context.nextSourceItemId
    else context.nextSourceItemId

/-- The contents of the projected items.  An item is known by its id. -/
def fullContent (projected : List ShownItem) (sourceItemId : String) : String :=
  ((projected.find? fun item => item.sourceItemId = sourceItemId).map ShownItem.content).getD ""

/-- A page of the anchor's content with what fits beside it. -/
def expandAnchor (digest : String → String) (context : SourceContext) (budget : ℕ)
    (contentOffset : ℕ) (anchor : ShownItem) (projected : List ShownItem) : ExpansionResult :=
  let offset := min contentOffset anchor.content.length
  let paging : Paging :=
    { budget := budget
      offset := offset
      total := anchor.content.length
      remaining := drop offset anchor.content
      followingIds := (projected.drop (projected.idxOf anchor + 1)).map ShownItem.sourceItemId }
  let continued := decide (contentOffset ≠ 0)
  let opened := openExpansion digest context paging continued anchor projected
  -- A complete page can be smaller than a truncated one, so it is tried first.
  let whole := paging.setAnchorPage anchor.cleared paging.remaining.length opened
  let (out, base) :=
    if paging.fits whole then (whole, anchor.cleared) else paging.squeeze anchor.cleared whole
  match paging.cutAnchor base (paging.withoutMemories out) with
  | .error payload => .error payload
  | .ok (out, low) =>
    if paging.remaining ≠ "" ∧ low = 0 then .error (boundedError noRoom budget)
    else
      let out :=
        if out.hasMore ∨ continued then out
        else fillNeighbors budget (fullContent projected) out
      if budget < out.size then .error overBudget else .page out

def boundedExpansion (digest : String → String) (result : Except ErrorPayload SourceContext)
    (maxChars contentOffset : ℤ) (contentRevision : Option String) : ExpansionResult :=
  let effective := min (expansionMaxChars : ℤ) maxChars
  if effective < expansionMinChars then .error smallBudget
  else
    let budget := effective.toNat
    if contentOffset < 0 then .error (boundedError invalidOffset budget)
    else if contentOffset ≠ 0 ∧ contentRevision.getD "" = "" then
      .error (boundedError revisionRequired budget)
    else
      match result with
      | .error payload => .error (boundedError payload budget)
      | .ok context =>
        let projected := context.items.map SourceTurn.project
        match (projected.find? ShownItem.isAnchor).or projected.head? with
        | none => emptyExpansion context budget
        | some anchor =>
          if contentOffset ≠ 0 ∧ contentRevision ≠ some (revisionOf digest anchor.content) then
            .error (boundedError staleRevision budget)
          else expandAnchor digest context budget contentOffset.toNat anchor projected

end Pallium.Expansion
