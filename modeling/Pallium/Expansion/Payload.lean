import Pallium.Core.JsonText
import Pallium.Core.PrefixSearch
import Pallium.Core.Text

/-!
# What an expansion returns

A source context as the service answers it, and the payload that the tool makes of
it.  The payload is measured by the length of its compact JSON text.
-/

namespace Pallium.Expansion

open JsonText Text

/-- A field of an object that may be missing. -/
def optional {α : Type} (name : String) (render : α → String) : Option α → List (String × String)
  | none => []
  | some value => [(name, render value)]

/-- What has become of a memory that a turn supports. -/
structure GuidanceUpdate where
  memoryType : Option String
  status : Option String
  replacementStatus : Option String
  currentMemoryObjectId : Option String
  currentText : Option String
  currentTextTruncated : Option Bool
  currentRecordedAt : Option String
  deriving DecidableEq, Repr

namespace GuidanceUpdate

def text (update : GuidanceUpdate) : String :=
  object <|
    optional "memory_type" JsonText.text update.memoryType ++
      optional "status" JsonText.text update.status ++
        optional "replacement_status" JsonText.text update.replacementStatus ++
          optional "current_memory_object_id" JsonText.text update.currentMemoryObjectId ++
            optional "current_text" JsonText.text update.currentText ++
              optional "current_text_truncated" boolean update.currentTextTruncated ++
                optional "current_recorded_at" JsonText.text update.currentRecordedAt

/-- `len(update["current_text"])`, where a missing text is empty. -/
def textLength (update : GuidanceUpdate) : ℕ := (update.currentText.getD "").length

end GuidanceUpdate

/-- A turn as the service returns it. -/
structure SourceTurn where
  sourceItemId : String
  isAnchor : Bool
  role : Option String
  occurredAt : Option String
  recordedAt : Option String
  recordedAtSource : Option String
  historicalUpdates : List GuidanceUpdate
  historicalUpdatesOmitted : ℕ
  content : String
  deriving DecidableEq, Repr

structure SupportedMemory where
  memoryObjectId : String
  type : String
  visibility : String
  deriving DecidableEq, Repr

def SupportedMemory.text (memory : SupportedMemory) : String :=
  object [("memory_object_id", JsonText.text memory.memoryObjectId),
    ("type", JsonText.text memory.type), ("visibility", JsonText.text memory.visibility)]

/-- The context of a turn as the service returns it. -/
structure SourceContext where
  items : List SourceTurn
  supportedMemories : Option (List SupportedMemory)
  parentLookupId : Option String
  nextSourceItemId : Option String
  deriving DecidableEq, Repr

/-- A turn as the tool shows it. -/
structure ShownItem where
  sourceItemId : String
  isAnchor : Bool
  presentationRole : String
  role : Option String
  occurredAt : Option String
  recordedAt : Option String
  recordedAtSource : Option String
  historicalUpdates : List GuidanceUpdate
  historicalUpdatesOmitted : ℕ
  content : String
  contentTruncated : Option Bool
  deriving DecidableEq, Repr

namespace ShownItem

/-- No updates and no omitted ones are left out of the text. -/
def text (item : ShownItem) : String :=
  object <|
    [("source_item_id", JsonText.text item.sourceItemId), ("is_anchor", boolean item.isAnchor),
        ("presentation_role", JsonText.text item.presentationRole)] ++
      optional "role" JsonText.text item.role ++
        optional "occurred_at" JsonText.text item.occurredAt ++
          optional "recorded_at" JsonText.text item.recordedAt ++
            optional "recorded_at_source" JsonText.text item.recordedAtSource ++
              (if item.historicalUpdates = [] then []
                else [("historical_updates",
                  array (item.historicalUpdates.map GuidanceUpdate.text))]) ++
                (if item.historicalUpdatesOmitted = 0 then []
                  else [("historical_updates_omitted", integer item.historicalUpdatesOmitted)]) ++
                  [("content", JsonText.text item.content)] ++
                    optional "content_truncated" boolean item.contentTruncated

end ShownItem

/-- The payload `out` of an expansion with an anchor.  The supported memories may be
missing, `None`, or a list. -/
structure Expansion where
  items : List ShownItem
  supportedMemories : Option (Option (List SupportedMemory))
  parentLookupId : Option String
  effectiveMaxChars : ℕ
  contentOffset : ℕ
  contentTotalChars : ℕ
  contentRevision : String
  hasMore : Bool
  nextOffset : Option ℕ
  itemsOmitted : Option ℕ
  nextSourceItemId : Option String
  deriving DecidableEq, Repr

def memoriesText : Option (List SupportedMemory) → String :=
  nullable fun memories => array (memories.map SupportedMemory.text)

namespace Expansion

def text (out : Expansion) : String :=
  object <|
    [("items", array (out.items.map ShownItem.text))] ++
      optional "supported_memories" memoriesText out.supportedMemories ++
        [("parent_lookup_id", nullable JsonText.text out.parentLookupId),
            ("effective_max_chars", integer out.effectiveMaxChars),
            ("content_offset", integer out.contentOffset),
            ("content_total_chars", integer out.contentTotalChars),
            ("content_revision", JsonText.text out.contentRevision),
            ("has_more", boolean out.hasMore),
            ("next_offset", nullable (fun offset : ℕ => integer offset) out.nextOffset)] ++
          optional "items_omitted" (fun count : ℕ => integer count) out.itemsOmitted ++
            optional "next_source_item_id" JsonText.text out.nextSourceItemId

/-- `len(_json_text(out))`. -/
def size (out : Expansion) : ℕ := out.text.length

end Expansion

/-- An error payload.  The detail stands as the text that it is shown with. -/
structure ErrorPayload where
  error : Option String := none
  statusCode : Option ℤ := none
  detail : Option String := none
  minMaxChars : Option ℕ := none
  errorKind : Option String := none
  retryable : Option Bool := none
  action : Option String := none
  deriving DecidableEq, Repr

namespace ErrorPayload

def text (payload : ErrorPayload) : String :=
  object <|
    optional "error" JsonText.text payload.error ++
      optional "status_code" integer payload.statusCode ++
        optional "detail" id payload.detail ++
          optional "min_max_chars" (fun count : ℕ => integer count) payload.minMaxChars ++
            optional "error_kind" JsonText.text payload.errorKind ++
              optional "retryable" boolean payload.retryable ++
                optional "action" JsonText.text payload.action

def size (payload : ErrorPayload) : ℕ := payload.text.length

/-- The error that is shown when nothing else fits. -/
def compact (payload : ErrorPayload) (error : String) : ErrorPayload :=
  { error := some error, statusCode := payload.statusCode }

end ErrorPayload

def boundedError (result : ErrorPayload) (budget : ℕ) : ErrorPayload :=
  if result.size ≤ budget then result
  else
    let brief := { result with detail := none }
    if brief.size ≤ budget then brief
    else
      let error := if result.error.getD "" = "" then "request failed" else result.error.getD ""
      let low := lastFitting (fun count => (result.compact (take count error)).size ≤ budget) 0
        error.length
      let compact := result.compact (take low error)
      if compact.size ≤ budget then compact else {}

theorem boundedError_of_fits {result : ErrorPayload} {budget : ℕ} (hfits : result.size ≤ budget) :
    boundedError result budget = result := if_pos hfits

theorem size_none : ErrorPayload.size {} = 2 := by decide

theorem size_boundedError (result : ErrorPayload) {budget : ℕ} (hbudget : 2 ≤ budget) :
    (boundedError result budget).size ≤ budget := by
  unfold boundedError
  simp only
  split_ifs with hwhole hbrief herror hcompact hcompact
  · exact hwhole
  · exact hbrief
  · exact hcompact
  · rw [size_none]
    exact hbudget
  · exact hcompact
  · rw [size_none]
    exact hbudget

end Pallium.Expansion
