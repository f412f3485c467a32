import Pallium.Vector.Embedder
import Pallium.Vector.IndexFiles

/-!
# The rebuild coordinator

A rebuild pages through the stored vector entries in the order of their ids and
builds a shadow index beside the live one.  After every page it replaces its
state file, which holds the cursor; the shadow's three files are replaced less
often, and once more before they are moved to the live path.  A rebuild that
finds a state file in progress goes on from its cursor with the shadow it finds
on disk.  Each step of the thread here ends with at most one replacement of a
file, so that it may be cut off between any two of them.
-/

namespace Pallium.Vector

open Pallium.Paging

variable {ν : Type*}

inductive RebuildStatus
  | inProgress
  | completed
  | failed
  deriving DecidableEq, Repr

/-- The state file of a rebuild. -/
structure RebuildCheckpoint where
  status : RebuildStatus
  lastProcessedEntryId : Option String
  entryCountTotal : ℕ
  entryCountProcessed : ℕ
  deriving DecidableEq, Repr

/-- The files of a rebuild: its state, the shadow, the live index and the backup
that the swap makes of it. -/
structure RebuildDisk (ν : Type*) where
  state : Option RebuildCheckpoint
  shadow : IndexFiles ν
  live : IndexFiles ν
  old : IndexFiles ν

/-- The replacements of `_atomic_swap_files`. -/
inductive FileMove
  | backup (file : IndexFile)
  | install (file : IndexFile)
  | discard (file : IndexFile)
  deriving DecidableEq, Repr

namespace RebuildDisk

def move (disk : RebuildDisk ν) : FileMove → RebuildDisk ν
  | .backup file =>
    { disk with old := disk.live.replace disk.old file, live := disk.live.unlink file }
  | .install file =>
    { disk with live := disk.shadow.replace disk.live file, shadow := disk.shadow.unlink file }
  | .discard file => { disk with old := disk.old.unlink file }

/-- The order of the replacements. -/
def swapOrder : List FileMove :=
  let suffixes := [IndexFile.native, .metadata, .idMap]
  suffixes.map .backup ++ suffixes.map .install ++ suffixes.map .discard

end RebuildDisk

/-- What the thread of a rebuild does next. -/
inductive RebuildPhase (ν : Type*)
  | inventory (created : ℕ)
  | ready (checkpoint : RebuildCheckpoint) (shadow : VectorIndex ν)
  | saving (checkpoint : RebuildCheckpoint) (shadow : VectorIndex ν) (final : Bool)
      (remaining : List IndexFile)
  | validating (checkpoint : RebuildCheckpoint)
  | swapping (checkpoint : RebuildCheckpoint) (remaining : List FileMove)
  | reloading (checkpoint : RebuildCheckpoint)
  | removingShadow (checkpoint : RebuildCheckpoint)
  | removingState (checkpoint : RebuildCheckpoint)

/-- The checkpoint in memory, once there is one. -/
def RebuildPhase.checkpoint : RebuildPhase ν → Option RebuildCheckpoint
  | inventory _ => none
  | ready checkpoint _ => some checkpoint
  | saving checkpoint _ _ _ => some checkpoint
  | validating checkpoint => some checkpoint
  | swapping checkpoint _ => some checkpoint
  | reloading checkpoint => some checkpoint
  | removingShadow checkpoint => some checkpoint
  | removingState checkpoint => some checkpoint

/-- A running coordinator. -/
structure RebuildTask (ν : Type*) where
  batchSize : ℕ
  shadowSaveInterval : ℕ
  phase : RebuildPhase ν

/-- What a coordinator is given: the model to embed with, the schema version, and
the text that a source object has now, if there still is one. -/
structure RebuildTarget (ν : Type*) where
  provider : EmbeddingProvider ν
  embeddingSchemaVersion : ℕ
  recompute : String → String → Option String → Option String

/-- `backlog` are the vector rows that eligible raw sources lack, and `begun` the
vector entries with text that there were when the rebuild began. -/
structure RebuildMachine (ν : Type*) where
  indexEntries : Table IndexEntry
  backlog : List IndexEntry
  disk : RebuildDisk ν
  task : Option (RebuildTask ν)
  holder : Option (VectorIndex ν)
  begun : List String

inductive RebuildOp
  | createIndexEntry (entry : IndexEntry)
  | addSource (entry : IndexEntry)
  | start (batchSize shadowSaveInterval : ℕ)
  | advance
  | interrupt
  | fault
  deriving DecidableEq, Repr

/-- The order of the pages. -/
def idOrder (first second : IndexEntry) : Prop := first.id ≤ second.id

instance : DecidableRel idOrder := fun first second =>
  inferInstanceAs (Decidable (first.id ≤ second.id))
instance : Std.Total idOrder := ⟨fun first second => le_total first.id second.id⟩
instance : IsTrans IndexEntry idOrder := ⟨fun _ _ _ hfirst hsecond => le_trans hfirst hsecond⟩

/-- `list_index_entries_by_type_page` of the vector entries, with a sort that
evaluates. -/
def listVectorEntriesPage (entries : Table IndexEntry) (afterId : Option String) (limit : ℕ) :
    List IndexEntry :=
  let vectorEntries := entries.rows.filter fun entry => decide (entry.indexType = vectorIndexType)
  ((vectorEntries.insertionSort idOrder).filter fun entry => decide (Beyond afterId entry.id)).take
    limit

namespace RebuildTarget

variable (target : RebuildTarget ν)

/-- The text that a batch embeds for an entry. -/
def embeddingText (entry : IndexEntry) : String :=
  (target.recompute entry.targetKind entry.targetId entry.textViewName).getD entry.textView

/-- `update_index_entry_text_view` where the source has a new text. -/
def refreshTextView (entries : Table IndexEntry) (entry : IndexEntry) : Table IndexEntry :=
  entries.modify entry.id fun stored => { stored with textView := target.embeddingText stored }

def createShadowIndex : VectorIndex ν :=
  VectorIndex.create target.provider.modelName target.provider.dimensions
    target.embeddingSchemaVersion

/-- Add the vectors of a batch one after the other. -/
def addVectors (shadow : VectorIndex ν) :
    List (String × ν) → VectorIndex ν × Except VectorIndexError Unit
  | [] => (shadow, .ok ())
  | (entryId, vector) :: rest =>
    match shadow.add entryId vector with
    | (shadow, .error error) => (shadow, .error error)
    | (shadow, .ok ()) => addVectors shadow rest

/-- The vector entries with text. -/
def worded (entries : Table IndexEntry) : List String :=
  (entries.rows.filter fun entry =>
    entry.indexType == vectorIndexType && target.embeddingText entry != "").map IndexEntry.id

end RebuildTarget

namespace RebuildMachine

open RebuildTarget

variable (target : RebuildTarget ν)

/-- `_run_safe` when a step raises: the checkpoint in memory is saved as failed. -/
def fail (machine : RebuildMachine ν) (checkpoint : Option RebuildCheckpoint) :
    RebuildMachine ν :=
  { machine with
    task := none
    disk := { machine.disk with
      state := (checkpoint.map fun current => { current with status := .failed }).or
        machine.disk.state } }

def setPhase (machine : RebuildMachine ν) (task : RebuildTask ν) (phase : RebuildPhase ν) :
    RebuildMachine ν :=
  { machine with task := some { task with phase := phase } }

/-- `_start_or_resume` after the inventory. -/
def startOrResume (machine : RebuildMachine ν) (task : RebuildTask ν) (created : ℕ) :
    RebuildMachine ν :=
  let total := countIndexEntriesByType machine.indexEntries vectorIndexType
  match machine.disk.state.filter fun existing => existing.status = .inProgress with
  | some existing =>
    if 0 < created ∨ total ≠ existing.entryCountTotal then
      machine.setPhase task (.ready
        { existing with
          lastProcessedEntryId := none
          entryCountProcessed := 0
          entryCountTotal := total } target.createShadowIndex)
    else if machine.disk.shadow.native.isSome ∧ machine.disk.shadow.metadata.isSome then
      match machine.disk.shadow.load with
      | some shadow => machine.setPhase task (.ready existing shadow)
      | none => machine.fail (some existing)
    else
      machine.setPhase task (.ready
        { existing with lastProcessedEntryId := none, entryCountProcessed := 0 }
        target.createShadowIndex)
  | none =>
    let checkpoint : RebuildCheckpoint := ⟨.inProgress, none, total, 0⟩
    { machine.setPhase task (.ready checkpoint target.createShadowIndex) with
      disk := { machine.disk with state := some checkpoint } }

/-- `_process_one_batch` up to the replacement of the state file.  An interval of
zero raises after it. -/
def processOneBatch (machine : RebuildMachine ν) (task : RebuildTask ν)
    (checkpoint : RebuildCheckpoint) (shadow : VectorIndex ν) : RebuildMachine ν :=
  let batch := listVectorEntriesPage machine.indexEntries checkpoint.lastProcessedEntryId
    task.batchSize
  if batch = [] then
    machine.setPhase task (.saving checkpoint shadow true IndexFiles.saveOrder)
  else
    let machine :=
      { machine with indexEntries := batch.foldl target.refreshTextView machine.indexEntries }
    let valid := batch.filter fun entry => target.embeddingText entry ≠ ""
    let vectors := target.provider.embed (valid.map target.embeddingText)
    match addVectors shadow ((valid.map IndexEntry.id).zip vectors) with
    | (_, .error _) => machine.fail (some checkpoint)
    | (shadow, .ok ()) =>
      let checkpoint :=
        { checkpoint with
          lastProcessedEntryId := batch.getLast?.map IndexEntry.id
          entryCountProcessed := checkpoint.entryCountProcessed + batch.length }
      let machine := { machine with disk := { machine.disk with state := some checkpoint } }
      if task.shadowSaveInterval = 0 then machine.fail (some checkpoint)
      else if checkpoint.entryCountProcessed % task.shadowSaveInterval < task.batchSize then
        machine.setPhase task (.saving checkpoint shadow false IndexFiles.saveOrder)
      else machine.setPhase task (.ready checkpoint shadow)

/-- The next step of the thread. -/
def advance (machine : RebuildMachine ν) (task : RebuildTask ν) : RebuildMachine ν :=
  match task.phase with
  | .inventory created =>
    match machine.backlog with
    | [] => machine.startOrResume target task created
    | entry :: rest =>
      match machine.indexEntries.insertNew entry with
      | some indexEntries =>
        { machine.setPhase task (.inventory (created + 1)) with
          indexEntries := indexEntries
          backlog := rest }
      | none => { machine.setPhase task (.inventory created) with backlog := rest }
  | .ready checkpoint shadow => machine.processOneBatch target task checkpoint shadow
  | .saving checkpoint shadow final [] =>
    machine.setPhase task (if final then .validating checkpoint else .ready checkpoint shadow)
  | .saving checkpoint shadow final (file :: remaining) =>
    { machine.setPhase task (.saving checkpoint shadow final remaining) with
      disk := { machine.disk with shadow := machine.disk.shadow.write shadow file } }
  | .validating checkpoint =>
    match machine.disk.shadow.load with
    | none => machine.fail (some checkpoint)
    | some validated =>
      if validated.entryCount = 0 ∧ 0 < checkpoint.entryCountTotal then
        machine.fail (some checkpoint)
      else machine.setPhase task (.swapping checkpoint RebuildDisk.swapOrder)
  | .swapping checkpoint [] => machine.setPhase task (.reloading checkpoint)
  | .swapping checkpoint (first :: remaining) =>
    { machine.setPhase task (.swapping checkpoint remaining) with
      disk := machine.disk.move first }
  | .reloading checkpoint =>
    match machine.disk.live.load with
    | none => machine.fail (some checkpoint)
    | some newIndex =>
      { machine.setPhase task (.removingShadow checkpoint) with holder := some newIndex }
  | .removingShadow checkpoint =>
    { machine.setPhase task (.removingState checkpoint) with
      disk := { machine.disk with shadow := IndexFiles.none } }
  | .removingState _ =>
    { machine with task := none, disk := { machine.disk with state := none } }

/-- A coordinator is only started while no other runs; an interruption is a crash
or a stop request, a fault an exception of the step. -/
def step (machine : RebuildMachine ν) : RebuildOp → RebuildMachine ν
  | .createIndexEntry entry =>
    { machine with
      indexEntries := (machine.indexEntries.insertNew entry).getD machine.indexEntries }
  | .addSource entry => { machine with backlog := machine.backlog ++ [entry] }
  | .start batchSize shadowSaveInterval =>
    if machine.task.isSome then machine
    else
      { machine with
        task := some ⟨batchSize, shadowSaveInterval, .inventory 0⟩
        begun :=
          if machine.disk.state.any fun existing => existing.status = .inProgress then
            machine.begun
          else target.worded machine.indexEntries }
  | .advance =>
    match machine.task with
    | none => machine
    | some task => machine.advance target task
  | .interrupt => { machine with task := none }
  | .fault =>
    match machine.task with
    | none => machine
    | some task => machine.fail task.phase.checkpoint

/-- The index that a step swaps in. -/
def swapped (machine : RebuildMachine ν) : RebuildOp → Option (VectorIndex ν)
  | .advance =>
    match machine.task with
    | some ⟨_, _, .reloading _⟩ => machine.disk.live.load
    | _ => none
  | _ => none

/-- Stored entries and sources before any rebuild. -/
def initial (indexEntries : Table IndexEntry) (backlog : List IndexEntry) : RebuildMachine ν :=
  ⟨indexEntries, backlog, ⟨none, .none, .none, .none⟩, none, none, []⟩

end RebuildMachine

end Pallium.Vector
