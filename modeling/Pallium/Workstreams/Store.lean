import Pallium.Workstreams.Cascade

/-!
# The assignment of a rebuild

A rebuild loads the resolved workstreams of its scope, assigns its new items in order of
their time, links each of them at once, and writes the registry back at the end.  An item
that raises ends the assignment: its links stay and the registry is not written.
-/

namespace Pallium.Workstreams

/-- The dominant signals that are stored of a workstream. -/
structure Signature where
  workRefs : Finset String
  fileDirs : Finset String
  symbols : Finset String
  titles : Finset String
  anchors : Finset String
  deriving DecidableEq

def Signature.none : Signature := ⟨∅, ∅, ∅, ∅, ∅⟩

/-- `signature_blob`: of the titles the first three. -/
def WorkstreamRecord.signatureBlob (record : WorkstreamRecord) : Signature where
  workRefs := record.workRefs
  fileDirs := record.fileDirs
  symbols := record.symbols
  titles := ((sorted record.titles).take 3).toFinset
  anchors := record.anchors

/-- A row of `workstreams`. -/
structure WorkstreamRow where
  id : String
  containerRef : String
  visibility : String
  resolved : Bool
  signature : Signature
  openedAt : ℤ
  lastTouchedAt : ℤ
  deriving DecidableEq

/-- A row of `source_item_workstreams`. -/
structure LinkRow where
  sourceItemId : String
  workstreamId : String
  watermark : String
  assignedAt : ℤ
  stage : Stage
  deriving DecidableEq

instance : Keyed WorkstreamRow String := ⟨WorkstreamRow.id⟩

instance : Keyed LinkRow (String × String × String) :=
  ⟨fun row => (row.sourceItemId, row.workstreamId, row.watermark)⟩

@[simp]
theorem key_workstreamRow (row : WorkstreamRow) : key row = row.id := rfl

namespace WorkstreamRow

def scope (row : WorkstreamRow) : Scope := ⟨row.containerRef, row.visibility⟩

/-- The row that a conflicting insert leaves: the found one with the new signature and
touch. -/
def merged (row found : WorkstreamRow) : WorkstreamRow :=
  { found with
    signature := row.signature
    lastTouchedAt := row.lastTouchedAt }

end WorkstreamRow

structure Database where
  workstreams : Table WorkstreamRow
  links : Table LinkRow
  deriving DecidableEq

namespace Database

def empty : Database := ⟨Table.empty, Table.empty⟩

variable (database : Database)

/-- `upsert_workstream`: a row that exists keeps its scope and kind. -/
def upsertWorkstream (row : WorkstreamRow) : Database :=
  { database with
    workstreams :=
      match database.workstreams.insertNew row with
      | some after => after
      | none => database.workstreams.modify row.id row.merged }

/-- `insert_source_item_workstream`: a row with its key is kept. -/
def insertSourceItemWorkstream (row : LinkRow) : Database :=
  { database with links := (database.links.insertNew row).getD database.links }

def recordUnknownWorkstream (scope : Scope) (workstreamId : String) (openedAt : ℤ) : Database :=
  database.upsertWorkstream
    ⟨workstreamId, scope.containerRef, scope.visibility, false, .none, openedAt, openedAt⟩

/-- The row under which a record is stored. -/
def rowOf (record : WorkstreamRecord) : WorkstreamRow :=
  ⟨record.workstreamId, record.containerRef, record.visibility, true, record.signatureBlob,
    record.openedAt, record.lastTouchedAt⟩

def persistRegistry (registry : Registry) : Database :=
  registry.rows.foldl (fun database record => database.upsertWorkstream (rowOf record)) database

def recordOf (host : Host) (row : WorkstreamRow) : WorkstreamRecord where
  workstreamId := row.id
  containerRef := row.containerRef
  visibility := row.visibility
  workRefs := row.signature.workRefs
  filePaths := ∅
  fileDirs := row.signature.fileDirs
  symbols := row.signature.symbols
  commands := ∅
  titles := row.signature.titles
  titleNgrams := row.signature.titles.biUnion (titleNgrams host)
  anchors := row.signature.anchors
  lastTouchedThread := Option.none
  lastTouchedAt := row.lastTouchedAt
  openedAt := row.openedAt
  closed := false

/-- `load_registry`: the resolved workstreams of a scope, in the order of their rows. -/
def loadRegistry (host : Host) (scope : Scope) : Registry :=
  ⟨(database.workstreams.rows.filter fun row => row.scope = scope && row.resolved).map
      (recordOf host), by
    have hkeys : ((database.workstreams.rows.filter fun row =>
        row.scope = scope && row.resolved).map (recordOf host)).map key =
          (database.workstreams.rows.filter fun row => row.scope = scope && row.resolved).map
            key := by
      rw [List.map_map]
      exact List.map_congr_left fun _ _ => rfl
    rw [hkeys]
    exact (List.filter_sublist.map key).nodup database.workstreams.nodup⟩

end Database

/-- A row of `source_items` as far as the assignment reads it. -/
structure SourceItem where
  id : String
  containerRef : String
  visibility : String
  threadRef : Option String
  createdAt : ℤ
  deriving DecidableEq, Repr

instance : Keyed SourceItem String := ⟨SourceItem.id⟩

def SourceItem.scope (item : SourceItem) : Scope := ⟨item.containerRef, item.visibility⟩

/-- An item with the signals that it and its memories carry when it is assigned. -/
structure SignalledItem where
  item : SourceItem
  signals : ItemSignals
  deriving DecidableEq

/-- The order in which items are assigned. -/
def assignmentOrder (left right : SignalledItem) : Prop :=
  left.item.createdAt < right.item.createdAt ∨
    left.item.createdAt = right.item.createdAt ∧ left.item.id ≤ right.item.id

instance : DecidableRel assignmentOrder := fun _ _ => inferInstanceAs (Decidable (_ ∨ _ ∧ _))

/-- The state of an assignment between two items. -/
structure Progress where
  database : Database
  registry : Registry
  assigned : List (String × AssignmentResult)
  deriving DecidableEq

/-- The store after the row of an unknown workstream was written if the item got one. -/
def recorded (scope : Scope) (database : Database) (item : SourceItem)
    (result : AssignmentResult) : Database :=
  if result.stage = .unknownPseudoId then
    database.recordUnknownWorkstream scope result.workstreamId item.createdAt
  else database

def linkOf (item : SourceItem) (result : AssignmentResult) : LinkRow :=
  ⟨item.id, result.workstreamId, watermarkFor item.createdAt, item.createdAt, result.stage⟩

/-- The assignment of one item and its link. -/
def assignItem (host : Host) (scope : Scope) (progress : Progress) (offered : SignalledItem) :
    Option Progress :=
  let item := offered.item
  (assignWorkstreamForItem host scope offered.signals item.threadRef item.createdAt
      progress.registry).map fun (registry, result) =>
    { database :=
        (recorded scope progress.database item result).insertSourceItemWorkstream
          (linkOf item result)
      registry := registry
      assigned := progress.assigned ++ [(item.id, result)] }

/-- The loop over the items, with whether it reached its end. -/
def assignItems (host : Host) (scope : Scope) (progress : Progress) :
    List SignalledItem → Progress × Bool
  | [] => (progress, true)
  | offered :: rest =>
    match assignItem host scope progress offered with
    | none => (progress, false)
    | some next => assignItems host scope next rest

/-- The assignment of items in order, from the registry that is loaded. -/
def assignBatch (host : Host) (scope : Scope) (items : List SignalledItem) (database : Database) :
    Progress × Bool :=
  assignItems host scope ⟨database, database.loadRegistry host scope, []⟩ items

/-- What is left when the assignment has ended: the registry is written if it reached its
end. -/
def finishBatch (outcome : Progress × Bool) : Database :=
  if outcome.2 then outcome.1.database.persistRegistry outcome.1.registry else outcome.1.database

/-- The items of a rebuild that are new since the prior watermark, in order. -/
def newItems (priorWatermark : Option ℤ) (items : List SignalledItem) : List SignalledItem :=
  (items.filter fun offered => priorWatermark.all fun prior => prior < offered.item.createdAt)
    |>.insertionSort assignmentOrder

def maybeAssignWorkstreams (host : Host) (scope : Scope) (priorWatermark : Option ℤ)
    (items : List SignalledItem) (database : Database) : Database :=
  if scope.containerRef = "" ∨ scope.visibility = "" ∨ newItems priorWatermark items = [] then
    database
  else finishBatch (assignBatch host scope (newItems priorWatermark items) database)

/-- A rebuild of stored items of one scope. -/
structure Rebuild (stored : Table SourceItem) where
  scope : Scope
  priorWatermark : Option ℤ
  items : List SignalledItem
  of_scope : ∀ offered ∈ items,
    stored.get offered.item.id = some offered.item ∧ offered.item.scope = scope

def rebuildStep (host : Host) {stored : Table SourceItem} (database : Database) (rebuild : Rebuild stored) : Database :=
  maybeAssignWorkstreams host rebuild.scope rebuild.priorWatermark rebuild.items database

section Lemmas

variable {host : Host} {scope : Scope} {database : Database}

theorem mem_newItems {priorWatermark : Option ℤ} {items : List SignalledItem}
    {offered : SignalledItem} (hmem : offered ∈ newItems priorWatermark items) :
    offered ∈ items := by
  rw [newItems, List.mem_insertionSort] at hmem
  exact List.mem_of_mem_filter hmem

theorem get_upsertWorkstream (row : WorkstreamRow) (workstreamId : String) :
    (database.upsertWorkstream row).workstreams.get workstreamId =
      if workstreamId = row.id then
        some (((database.workstreams.get row.id).map row.merged).getD row)
      else database.workstreams.get workstreamId := by
  rw [Database.upsertWorkstream]
  cases hinsert : database.workstreams.insertNew row with
  | some after =>
    change after.get workstreamId = _
    have hnone : database.workstreams.get row.id = none :=
      Table.get_eq_none_of_insertNew hinsert
    rw [Table.get_insertNew hinsert, hnone]
    rfl
  | none =>
    change (database.workstreams.modify row.id row.merged).get workstreamId = _
    obtain ⟨found, hfound⟩ : ∃ found, database.workstreams.get row.id = some found := by
      rw [← Option.ne_none_iff_exists']
      intro hnone
      have hfree : database.workstreams.get (key row) = none := hnone
      obtain ⟨after, hafter⟩ := Table.insertNew_isSome hfree
      rw [hafter] at hinsert
      cases hinsert
    have hkey : ∀ other, key (row.merged other) = key other := fun _ => rfl
    rw [Table.get_modify_of_get hkey hfound, hfound]
    rfl

theorem assignItem_eq_some {progress next : Progress} {offered : SignalledItem}
    (hnext : assignItem host scope progress offered = some next) :
    ∃ registry result,
      assignWorkstreamForItem host scope offered.signals offered.item.threadRef
        offered.item.createdAt progress.registry = some (registry, result) ∧
      next = ⟨(recorded scope progress.database offered.item result).insertSourceItemWorkstream
        (linkOf offered.item result), registry, progress.assigned ++ [(offered.item.id, result)]⟩ := by
  obtain ⟨⟨registry, result⟩, hassign, hsame⟩ := Option.map_eq_some_iff.mp hnext
  exact ⟨registry, result, hassign, hsame.symm⟩

theorem mem_links_insert {database : Database} {row link : LinkRow}
    (hmem : link ∈ (database.insertSourceItemWorkstream row).links.rows) :
    link ∈ database.links.rows ∨ link = row := by
  rw [Database.insertSourceItemWorkstream] at hmem
  cases hinsert : database.links.insertNew row with
  | none =>
    rw [hinsert] at hmem
    exact Or.inl hmem
  | some after =>
    rw [hinsert, Option.getD_some, Table.rows_insertNew hinsert, List.mem_append,
      List.mem_singleton] at hmem
    exact hmem

theorem links_insert (database : Database) (row : LinkRow) :
    (∀ link ∈ database.links.rows, link ∈ (database.insertSourceItemWorkstream row).links.rows) ∧
      ((database.insertSourceItemWorkstream row).links.get (key row)).isSome := by
  rw [Database.insertSourceItemWorkstream]
  cases hinsert : database.links.insertNew row with
  | none =>
    refine ⟨fun link hlink => hlink, ?_⟩
    rw [Option.getD_none, Option.isSome_iff_ne_none]
    intro hnone
    obtain ⟨after, hafter⟩ := Table.insertNew_isSome hnone
    rw [hafter] at hinsert
    cases hinsert
  | some after =>
    have hrows : after.rows = database.links.rows ++ [row] := Table.rows_insertNew hinsert
    refine ⟨fun link hlink => ?_, ?_⟩
    · rw [Option.getD_some, hrows]
      exact List.mem_append_left _ hlink
    · rw [Option.getD_some, Table.get_insertNew hinsert, if_pos rfl]
      rfl

theorem insert_of_taken {row : LinkRow} (htaken : (database.links.get (key row)).isSome) :
    database.insertSourceItemWorkstream row = database := by
  rw [Database.insertSourceItemWorkstream]
  cases hinsert : database.links.insertNew row with
  | none => rfl
  | some after =>
    rw [Table.get_eq_none_of_insertNew hinsert] at htaken
    cases htaken

theorem links_recorded (scope : Scope) (database : Database) (item : SourceItem) (result : AssignmentResult) :
    (recorded scope database item result).links = database.links := by
  rw [recorded]
  split <;> rfl

theorem links_persistRegistry (database : Database) (registry : Registry) :
    (database.persistRegistry registry).links = database.links := by
  rw [Database.persistRegistry]
  generalize registry.rows = records
  induction records generalizing database with
  | nil => rfl
  | cons record rest ih => exact ih (database.upsertWorkstream (Database.rowOf record))

theorem links_finishBatch (outcome : Progress × Bool) :
    (finishBatch outcome).links = outcome.1.database.links := by
  rw [finishBatch]
  split
  · exact links_persistRegistry _ _
  · rfl

end Lemmas

section Examples

/-- A host with the SHA-1 digests of the signals that the examples open workstreams with. -/
def exampleHost : Host where
  sha1Hex := fun text =>
    if text = "sy:PackageQueue" then "93193d71306d829d5cf243bf16851da862bd2540"
    else if text = "sy:RelayBridge" then "e2a5ce152e7be84309eda0ce8452bd1f43ce2c31"
    else if text = "fd:src/queue" then "6dfef439ead754d7d2acbaddb7ceb64cb3393c20"
    else if text = "ti:alpha plan draft\nti:beta plan draft\nti:gamma plan draft\nti:omega rollout notes" then
      "286545cd6a3bb9156a4910b0201591a20338550f"
    else ""
  tokenizeText := fun text => (text.toList.splitOn ' ').map String.ofList
  lower := id

def symbolSignals (symbols : Finset String) : ItemSignals := ⟨∅, ∅, symbols, ∅, ∅, ∅⟩

def exampleStored : Table SourceItem :=
  ⟨[⟨"item-1", "repo:front", "private", some "thread-1", 1750000000000000⟩,
    ⟨"item-2", "repo:back", "private", some "thread-2", 1750000060000000⟩,
    ⟨"item-3", "repo:front", "workspace", some "thread-3", 1750000120000000⟩,
    ⟨"item-4", "repo:front", "private", some "thread-3", 1750000120000000⟩], by decide⟩

def exampleRebuild (scope : Scope) (item : SourceItem) (signals : ItemSignals)
    (hstored : exampleStored.get item.id = some item ∧ item.scope = scope) :
    Rebuild exampleStored where
  scope := scope
  priorWatermark := none
  items := [⟨item, signals⟩]
  of_scope := by
    intro offered hoffered
    rw [List.mem_singleton.mp hoffered]
    exact hstored

def frontRebuild : Rebuild exampleStored :=
  exampleRebuild ⟨"repo:front", "private"⟩
    ⟨"item-1", "repo:front", "private", some "thread-1", 1750000000000000⟩
    (symbolSignals {"PackageQueue"}) (by decide)

def backRebuild : Rebuild exampleStored :=
  exampleRebuild ⟨"repo:back", "private"⟩
    ⟨"item-2", "repo:back", "private", some "thread-2", 1750000060000000⟩
    (symbolSignals {"PackageQueue"}) (by decide)

def frontItem (name thread : String) (createdAt : ℤ) (signals : ItemSignals) : SignalledItem :=
  ⟨⟨name, "repo:front", "private", some thread, createdAt⟩, signals⟩

/-- The signals of a source with titles. -/
def titleSignals (titles : Finset String) : ItemSignals := ⟨∅, ∅, ∅, ∅, titles, ∅⟩

end Examples

end Pallium.Workstreams
