import Pallium.Core.Run
import Pallium.Workstreams.Choice
import Pallium.Workstreams.Store

/-!
# Scopes of workstreams

The ids of workstreams are one global key: a resolved id is the hash of signals and an
unknown id joins container, thread and bucket with colons.  As long as no item meets an
id that belongs elsewhere, every link stays inside the scope of its item and a rebuild
writes no row of another scope.
-/

namespace Pallium.Workstreams

section Upsert

variable {database : Database} {scope : Scope}

/-- Every row of the store stays in its scope, and is not written if it is of another
scope. -/
def Kept (scope : Scope) (before after : Database) : Prop :=
  ∀ workstreamId row, before.workstreams.get workstreamId = some row →
    ∃ kept, after.workstreams.get workstreamId = some kept ∧ kept.scope = row.scope ∧
      (row.scope ≠ scope → kept = row)

theorem Kept.refl (scope : Scope) (database : Database) : Kept scope database database :=
  fun _ row hget => ⟨row, hget, rfl, fun _ => rfl⟩

theorem Kept.trans {first second third : Database} (hfirst : Kept scope first second)
    (hsecond : Kept scope second third) : Kept scope first third := by
  intro workstreamId row hget
  obtain ⟨middle, hmiddle, hscope, hsame⟩ := hfirst workstreamId row hget
  obtain ⟨last, hlast, hscope', hsame'⟩ := hsecond workstreamId middle hmiddle
  refine ⟨last, hlast, hscope'.trans hscope, fun hother => ?_⟩
  rw [hsame' (hscope ▸ hother), hsame hother]

theorem kept_upsert {row : WorkstreamRow}
    (hheld : ∀ found, database.workstreams.get row.id = some found → found.scope = scope) :
    Kept scope database (database.upsertWorkstream row) := by
  intro workstreamId found hget
  by_cases hid : workstreamId = row.id
  · subst hid
    refine ⟨row.merged found, ?_, rfl, fun hother => absurd (hheld found hget) hother⟩
    rw [get_upsertWorkstream, if_pos rfl, hget]
    rfl
  · exact ⟨found, by rw [get_upsertWorkstream, if_neg hid, hget], rfl, fun _ => rfl⟩

theorem exists_upserted (row : WorkstreamRow) (hscope : row.scope = scope)
    (hheld : ∀ found, database.workstreams.get row.id = some found → found.scope = scope) :
    ∃ written, (database.upsertWorkstream row).workstreams.get row.id = some written ∧
      written.scope = scope := by
  refine ⟨_, by rw [get_upsertWorkstream, if_pos rfl], ?_⟩
  cases hget : database.workstreams.get row.id with
  | none => exact hscope
  | some found => exact hheld found hget

theorem Kept.held {before after : Database} (hkept : Kept scope before after)
    {workstreamId : String} {row : WorkstreamRow}
    (hget : before.workstreams.get workstreamId = some row) (hscope : row.scope = scope) :
    ∃ kept, after.workstreams.get workstreamId = some kept ∧ kept.scope = scope := by
  obtain ⟨kept, hkept, hsame, -⟩ := hkept workstreamId row hget
  exact ⟨kept, hkept, hsame.trans hscope⟩

/-- The registry is written row by row. -/
theorem kept_persist (records : List WorkstreamRecord) (database : Database)
    (hrecords : ∀ record ∈ records, record.scope = scope ∧
      ∀ row, database.workstreams.get record.workstreamId = some row → row.scope = scope) :
    Kept scope database (records.foldl (fun current record =>
        current.upsertWorkstream (Database.rowOf record)) database) ∧
      ∀ record ∈ records, ∃ row, (records.foldl (fun current record =>
        current.upsertWorkstream (Database.rowOf record)) database).workstreams.get
          record.workstreamId = some row ∧ row.scope = scope := by
  induction records generalizing database with
  | nil => exact ⟨Kept.refl scope database, List.forall_mem_nil _⟩
  | cons record rest ih =>
    obtain ⟨hscope, hheld⟩ := hrecords record List.mem_cons_self
    have hfirst : Kept scope database (database.upsertWorkstream (Database.rowOf record)) :=
      kept_upsert hheld
    have hrest : ∀ other ∈ rest, other.scope = scope ∧ ∀ row,
        (database.upsertWorkstream (Database.rowOf record)).workstreams.get
          other.workstreamId = some row → row.scope = scope := by
      intro other hother
      obtain ⟨hotherScope, hotherHeld⟩ := hrecords other (List.mem_cons_of_mem _ hother)
      refine ⟨hotherScope, fun row hget => ?_⟩
      rw [get_upsertWorkstream] at hget
      split at hget
      · next hid =>
        obtain ⟨written, hwritten, hwrittenScope⟩ :=
          exists_upserted (Database.rowOf record) hscope hheld
        rw [get_upsertWorkstream, if_pos rfl, hget] at hwritten
        exact Option.some.inj hwritten ▸ hwrittenScope
      · exact hotherHeld row hget
    obtain ⟨hkept, hwritten⟩ := ih _ hrest
    refine ⟨hfirst.trans hkept, fun other hother => ?_⟩
    rcases List.mem_cons.mp hother with rfl | hmem
    · obtain ⟨row, hrow, hrowScope⟩ :=
        exists_upserted (Database.rowOf other) hscope hheld
      exact hkept.held hrow hrowScope
    · exact hwritten other hmem

end Upsert

/-- Unknown workstreams are shared by items of one container, thread and bucket only. -/
def UnknownsApart (stored : Table SourceItem) (links : Table LinkRow) : Prop :=
  ∀ first ∈ links.rows, ∀ second ∈ links.rows,
    first.stage = .unknownPseudoId → second.stage = .unknownPseudoId →
      first.workstreamId = second.workstreamId →
        ∃ left right, stored.get first.sourceItemId = some left ∧
          stored.get second.sourceItemId = some right ∧ left.containerRef = right.containerRef ∧
            left.threadRef = right.threadRef ∧ first.watermark = second.watermark

/-- Every link points into the scope of its item, and unknown workstreams are apart. -/
structure Isolated (stored : Table SourceItem) (database : Database) : Prop where
  linked : ∀ link ∈ database.links.rows, ∃ item row, stored.get link.sourceItemId = some item ∧
    database.workstreams.get link.workstreamId = some row ∧ row.scope = item.scope
  unknowns : UnknownsApart stored database.links

section Items

variable (host : Host) {stored : Table SourceItem} (scope : Scope)

variable (stored) in
/-- The id that the item takes belongs to no other scope, thread or bucket, and an item that
raises leaves no opened workstream behind. -/
def ItemClean (progress : Progress) (offered : SignalledItem) : Prop :=
  match choose host offered.signals offered.item.threadRef offered.item.createdAt
      (progress.registry.openRecords scope offered.item.createdAt) with
  | .attach _ _ => True
  | .openNew =>
    match offered.signals.resolvedId host with
    | some workstreamId =>
      (progress.database.workstreams.get workstreamId).all (·.scope = scope)
    | none => ∀ record ∈ progress.registry.rows,
        (progress.database.workstreams.get record.workstreamId).isSome
  | .unknown =>
    let workstreamId := unknownPseudoId scope.containerRef offered.item.threadRef
      (watermarkFor offered.item.createdAt)
    (progress.database.workstreams.get workstreamId).all (·.scope = scope) ∧
      ∀ link ∈ progress.database.links.rows,
        link.stage = .unknownPseudoId → link.workstreamId = workstreamId →
          (stored.get link.sourceItemId).any (fun item =>
            item.containerRef = scope.containerRef ∧ item.threadRef = offered.item.threadRef) ∧
          link.watermark = watermarkFor offered.item.createdAt

instance (progress : Progress) (offered : SignalledItem) :
    Decidable (ItemClean host stored scope progress offered) := by
  unfold ItemClean
  split
  · infer_instance
  · split <;> infer_instance
  · infer_instance

variable (stored) in
/-- Every item is clean where the assignment meets it. -/
def CleanItems (progress : Progress) : List SignalledItem → Prop
  | [] => True
  | offered :: rest => ItemClean host stored scope progress offered ∧
      ∀ next ∈ assignItem host scope progress offered, CleanItems next rest

instance decidableCleanItems : ∀ (progress : Progress) (items : List SignalledItem),
    Decidable (CleanItems host stored scope progress items)
  | _, [] => isTrue trivial
  | progress, offered :: rest =>
    have := fun next => decidableCleanItems next rest
    inferInstanceAs (Decidable (ItemClean host stored scope progress offered ∧
      ∀ next ∈ assignItem host scope progress offered, CleanItems host stored scope next rest))

/-- What holds between two items of an assignment in a scope. -/
structure Assigning (stored : Table SourceItem) (scope : Scope) (start : Database)
    (progress : Progress) : Prop where
  kept : Kept scope start progress.database
  records : ∀ record ∈ progress.registry.rows, record.scope = scope ∧
    ∀ row, progress.database.workstreams.get record.workstreamId = some row → row.scope = scope
  linked : ∀ link ∈ progress.database.links.rows, ∃ item,
    stored.get link.sourceItemId = some item ∧
      ((∃ row, progress.database.workstreams.get link.workstreamId = some row ∧
          row.scope = item.scope) ∨
        item.scope = scope ∧ (progress.registry.get link.workstreamId).isSome)
  unknowns : UnknownsApart stored progress.database.links

variable {host scope} {database : Database} {workstreamId : String}

theorem assigning_start (stored : Table SourceItem) (hisolated : Isolated stored database) :
    Assigning stored scope database ⟨database, database.loadRegistry host scope, []⟩ where
  kept := Kept.refl scope database
  records := by
    intro record hrecord
    obtain ⟨row, hrow, rfl⟩ := List.mem_map.mp hrecord
    obtain ⟨hmem, hscope⟩ := List.mem_filter.mp hrow
    have hrowScope : row.scope = scope := by
      have hboth := (Bool.and_eq_true _ _).mp hscope
      exact of_decide_eq_true hboth.1
    refine ⟨hrowScope, fun other hother => ?_⟩
    have hself : database.workstreams.get row.id = some row := Table.get_of_mem hmem
    have hsame : row = other := Option.eq_some_unique hself hother
    exact hsame ▸ hrowScope
  linked := by
    intro link hlink
    obtain ⟨item, row, hitem, hrow, hscope⟩ := hisolated.linked link hlink
    exact ⟨item, hitem, Or.inl ⟨row, hrow, hscope⟩⟩
  unknowns := hisolated.unknowns

/-- A recorded unknown workstream is of the scope, and no other row leaves its scope. -/
theorem held_recorded {item : SourceItem} {result : AssignmentResult}
    (hheld : ∀ row, database.workstreams.get result.workstreamId = some row → row.scope = scope)
    (hother : ∀ row, database.workstreams.get workstreamId = some row → row.scope = scope)
    (row : WorkstreamRow)
    (hget : (recorded scope database item result).workstreams.get workstreamId = some row) :
    row.scope = scope := by
  rw [recorded] at hget
  split at hget
  · rw [Database.recordUnknownWorkstream, get_upsertWorkstream] at hget
    split at hget
    · rw [← Option.some.inj hget]
      cases hfound : database.workstreams.get result.workstreamId with
      | none => rfl
      | some found => exact hheld found hfound
    · exact hother row hget
  · exact hother row hget

/-- A new link of an unknown workstream whose id no other container, thread or bucket has. -/
theorem UnknownsApart.insert {row : LinkRow} {item : SourceItem}
    (hapart : UnknownsApart stored database.links)
    (hstored : stored.get row.sourceItemId = some item)
    (hnew : row.stage = .unknownPseudoId → ∀ link ∈ database.links.rows,
      link.stage = .unknownPseudoId → link.workstreamId = row.workstreamId →
        ∃ other, stored.get link.sourceItemId = some other ∧
          other.containerRef = item.containerRef ∧ other.threadRef = item.threadRef ∧
          link.watermark = row.watermark) :
    UnknownsApart stored (database.insertSourceItemWorkstream row).links := by
  intro first hfirst second hsecond hfirstStage hsecondStage hid
  rcases mem_links_insert hfirst with hfirstOld | rfl <;>
    rcases mem_links_insert hsecond with hsecondOld | rfl
  · exact hapart first hfirstOld second hsecondOld hfirstStage hsecondStage hid
  · obtain ⟨other, hother, hcontainer, hthread, hwatermark⟩ :=
      hnew hsecondStage first hfirstOld hfirstStage hid
    exact ⟨other, item, hother, hstored, hcontainer, hthread, hwatermark⟩
  · obtain ⟨other, hother, hcontainer, hthread, hwatermark⟩ :=
      hnew hfirstStage second hsecondOld hsecondStage hid.symm
    exact ⟨item, other, hstored, hother, hcontainer.symm, hthread.symm, hwatermark.symm⟩
  · exact ⟨item, item, hstored, hstored, rfl, rfl, rfl⟩

section Clean

variable {progress : Progress} {offered : SignalledItem}

variable {start : Database}

section

variable (hclean : ItemClean host stored scope progress offered)
include hclean

theorem ItemClean.opened
    (hchoose : choose host offered.signals offered.item.threadRef offered.item.createdAt
      (progress.registry.openRecords scope offered.item.createdAt) = .openNew)
    (hid : offered.signals.resolvedId host = some workstreamId)
    (row : WorkstreamRow) (hget : progress.database.workstreams.get workstreamId = some row) :
    row.scope = scope := by
  simp only [ItemClean, hchoose, hid, hget, Option.all_some, decide_eq_true_eq] at hclean
  exact hclean

theorem ItemClean.raised (hraised : assignItem host scope progress offered = none) :
    ∀ record ∈ progress.registry.rows,
      (progress.database.workstreams.get record.workstreamId).isSome := by
  obtain ⟨hchoose, hid⟩ := assign_eq_none_iff.mp (Option.map_eq_none_iff.mp hraised)
  simp only [ItemClean, hchoose, hid] at hclean
  exact hclean

theorem ItemClean.unknown
    (hchoose : choose host offered.signals offered.item.threadRef offered.item.createdAt
      (progress.registry.openRecords scope offered.item.createdAt) = .unknown) :
    (∀ row, progress.database.workstreams.get (unknownPseudoId scope.containerRef
        offered.item.threadRef (watermarkFor offered.item.createdAt)) = some row →
      row.scope = scope) ∧
    ∀ link ∈ progress.database.links.rows, link.stage = .unknownPseudoId →
      link.workstreamId = unknownPseudoId scope.containerRef offered.item.threadRef
        (watermarkFor offered.item.createdAt) →
      ∃ item, stored.get link.sourceItemId = some item ∧
        item.containerRef = scope.containerRef ∧ item.threadRef = offered.item.threadRef ∧
        link.watermark = watermarkFor offered.item.createdAt := by
  simp only [ItemClean, hchoose] at hclean
  refine ⟨fun row hget => ?_, fun link hlink hstage hid => ?_⟩
  · have hall := hclean.1
    rw [hget, Option.all_some, decide_eq_true_eq] at hall
    exact hall
  · obtain ⟨hany, hwatermark⟩ := hclean.2 link hlink hstage hid
    obtain ⟨item, hitem, hboth⟩ := (Option.any_eq_true _ _).mp hany
    rw [decide_eq_true_eq] at hboth
    exact ⟨item, hitem, hboth.1, hboth.2, hwatermark⟩

/-- A clean item takes an id that no other scope holds. -/
theorem ItemClean.held {registry : Registry}
    {result : AssignmentResult}
    (hassign : assignWorkstreamForItem host scope offered.signals offered.item.threadRef
      offered.item.createdAt progress.registry = some (registry, result))
    (hassigning : Assigning stored scope start progress) (row : WorkstreamRow)
    (hget : progress.database.workstreams.get result.workstreamId = some row) :
    row.scope = scope := by
  rcases assign_cases hassign with ⟨hchoose, -⟩ | ⟨hchoose, hid, -, -⟩ | ⟨hchoose, hid, -, -⟩
  · obtain ⟨-, -, record, hrecord, hid⟩ := of_choose_attach hchoose
    have hmem := ((Registry.mem_openRecords scope _).mp hrecord).1
    rw [Registry.rows_close] at hmem
    obtain ⟨old, hold, rfl⟩ := List.mem_map.mp hmem
    refine (hassigning.records old hold).2 row ?_
    rw [← hget, ← hid, WorkstreamRecord.workstreamId_expire]
  · exact hclean.opened hchoose hid row hget
  · exact (hclean.unknown hchoose).1 row (hid ▸ hget)

theorem Assigning.assignItem {next : Progress} (hassigning : Assigning stored scope start progress)
    (hstored : stored.get offered.item.id = some offered.item) (hscope : offered.item.scope = scope)
    (hnext : assignItem host scope progress offered = some next) :
    Assigning stored scope start next := by
  obtain ⟨registry, result, hassign, rfl⟩ := assignItem_eq_some hnext
  have hheld := hclean.held hassign hassigning
  have hkept : Kept scope progress.database
      (recorded scope progress.database offered.item result) := by
    rw [recorded]
    split
    · exact kept_upsert hheld
    · exact Kept.refl scope _
  refine ⟨hassigning.kept.trans hkept, fun record hrecord => ?_, fun link hlink => ?_, ?_⟩
  · rcases of_mem_assigned hassign hrecord with ⟨old, hold, hid, hsame⟩ | ⟨rfl, hid, hchoose⟩
    · obtain ⟨holdScope, holdHeld⟩ := hassigning.records old hold
      exact ⟨hsame.trans holdScope, held_recorded hheld (hid ▸ holdHeld)⟩
    · exact ⟨rfl, held_recorded hheld hheld⟩
  · rcases mem_links_insert hlink with hold | rfl
    · rw [links_recorded] at hold
      obtain ⟨item, hitem, hpoints⟩ := hassigning.linked link hold
      refine ⟨item, hitem, hpoints.imp ?_ ?_⟩
      · rintro ⟨row, hrow, hrowScope⟩
        obtain ⟨kept, hget, hsame, -⟩ := hkept _ row hrow
        exact ⟨kept, hget, hsame.trans hrowScope⟩
      · rintro ⟨hitemScope, hsome⟩
        exact ⟨hitemScope, isSome_assigned hassign (Or.inl hsome)⟩
    · refine ⟨offered.item, hstored, ?_⟩
      by_cases hstage : result.stage = .unknownPseudoId
      · left
        rw [recorded, if_pos hstage, hscope]
        exact exists_upserted _ rfl hheld
      · exact Or.inr ⟨hscope, isSome_assigned hassign (Or.inr ⟨rfl, hstage⟩)⟩
  · have hlinks := links_recorded scope progress.database offered.item result
    refine UnknownsApart.insert (hlinks.symm ▸ hassigning.unknowns) hstored
      fun hstage link hlink hlinkStage hid => ?_
    obtain ⟨hchoose, hpseudo⟩ := unknown_of_stage hassign hstage
    rw [hlinks] at hlink
    obtain ⟨other, hother, hcontainer, hthread, hwatermark⟩ :=
      (hclean.unknown hchoose).2 link hlink hlinkStage (hid.trans hpseudo)
    exact ⟨other, hother, hcontainer.trans (congrArg Scope.containerRef hscope).symm, hthread,
      hwatermark⟩

end

/-- The assignment of clean items, and what an item that raises leaves behind. -/
theorem Assigning.assignItems {items : List SignalledItem}
    (hassigning : Assigning stored scope start progress)
    (hclean : CleanItems host stored scope progress items) (hitems : ∀ offered ∈ items,
      stored.get offered.item.id = some offered.item ∧ offered.item.scope = scope) :
    Assigning stored scope start (assignItems host scope progress items).1 ∧
      ((assignItems host scope progress items).2 = false →
        ∀ record ∈ (assignItems host scope progress items).1.registry.rows,
          ((assignItems host scope progress items).1.database.workstreams.get
            record.workstreamId).isSome) := by
  induction items generalizing progress with
  | nil => exact ⟨hassigning, fun h => nomatch h⟩
  | cons offered rest ih =>
    obtain ⟨hitem, hrest⟩ := hclean
    rw [Workstreams.assignItems]
    cases hnext : Workstreams.assignItem host scope progress offered with
    | none => exact ⟨hassigning, fun _ => hitem.raised hnext⟩
    | some next =>
      obtain ⟨hstored, hscope⟩ := hitems offered List.mem_cons_self
      exact ih (hassigning.assignItem hitem hstored hscope hnext) (hrest next hnext)
        (List.forall_mem_cons.mp hitems).2

end Clean

theorem Assigning.finishBatch {start : Database} {outcome : Progress × Bool}
    (hassigning : Assigning stored scope start outcome.1)
    (hraised : outcome.2 = false → ∀ record ∈ outcome.1.registry.rows,
      (outcome.1.database.workstreams.get record.workstreamId).isSome) :
    Isolated stored (finishBatch outcome) ∧ Kept scope start (finishBatch outcome) := by
  have hpersisted := kept_persist outcome.1.registry.rows outcome.1.database hassigning.records
  have hkept : Kept scope outcome.1.database (Workstreams.finishBatch outcome) := by
    rw [Workstreams.finishBatch]
    split
    · exact hpersisted.1
    · exact Kept.refl scope _
  have hrows : ∀ record ∈ outcome.1.registry.rows, ∃ row,
      (Workstreams.finishBatch outcome).workstreams.get record.workstreamId = some row ∧
        row.scope = scope := by
    intro record hrecord
    rw [Workstreams.finishBatch]
    split
    · exact hpersisted.2 record hrecord
    · next hend =>
      obtain ⟨row, hrow⟩ := Option.isSome_iff_exists.mp
        (hraised (Bool.not_eq_true _ ▸ hend) record hrecord)
      exact ⟨row, hrow, (hassigning.records record hrecord).2 row hrow⟩
  have hlinks := links_finishBatch outcome
  refine ⟨⟨fun link hlink => ?_, hlinks ▸ hassigning.unknowns⟩, hassigning.kept.trans hkept⟩
  rw [hlinks] at hlink
  obtain ⟨item, hitem, ⟨row, hrow, hscope⟩ | ⟨hscope, hsome⟩⟩ := hassigning.linked link hlink
  · obtain ⟨kept, hget, hsame, -⟩ := hkept _ row hrow
    exact ⟨item, kept, hitem, hget, hsame.trans hscope⟩
  · obtain ⟨record, hrecord⟩ := Option.isSome_iff_exists.mp hsome
    obtain ⟨row, hrow, hrowScope⟩ := hrows record (Table.mem_of_get hrecord)
    have hid : record.workstreamId = link.workstreamId := Table.key_of_get hrecord
    exact ⟨item, row, hitem, hid ▸ hrow, hrowScope.trans hscope.symm⟩

end Items

section Runs

variable (host : Host) {stored : Table SourceItem}

/-- Every item that the rebuild assigns is clean where the assignment meets it. -/
def Rebuild.Clean (database : Database) (rebuild : Rebuild stored) : Prop :=
  rebuild.scope.containerRef = "" ∨ rebuild.scope.visibility = "" ∨
    CleanItems host stored rebuild.scope
      ⟨database, database.loadRegistry host rebuild.scope, []⟩
      (newItems rebuild.priorWatermark rebuild.items)

instance (database : Database) (rebuild : Rebuild stored) :
    Decidable (rebuild.Clean host database) :=
  inferInstanceAs (Decidable (_ ∨ _ ∨ _))

variable {host}

theorem rebuildStep_isolated {database : Database} {rebuild : Rebuild stored}
    (hclean : rebuild.Clean host database) (hisolated : Isolated stored database) :
    Isolated stored (rebuildStep host database rebuild) ∧
      Kept rebuild.scope database (rebuildStep host database rebuild) := by
  rw [rebuildStep, maybeAssignWorkstreams]
  split
  · exact ⟨hisolated, Kept.refl _ database⟩
  · next hrun =>
    obtain ⟨hcontainer, hrest⟩ := not_or.mp hrun
    obtain ⟨hvisibility, -⟩ := not_or.mp hrest
    have hitems := (hclean.resolve_left hcontainer).resolve_left hvisibility
    obtain ⟨hassigning, hraised⟩ := (assigning_start stored hisolated).assignItems hitems
      fun offered hoffered => rebuild.of_scope offered (mem_newItems hoffered)
    exact hassigning.finishBatch hraised

theorem isolated_empty (stored : Table SourceItem) : Isolated stored Database.empty where
  linked := List.forall_mem_nil _
  unknowns := List.forall_mem_nil _

end Runs

section Examples

/-- A short reply in another thread of the front project. -/
def replyRebuild : Rebuild exampleStored :=
  exampleRebuild ⟨"repo:front", "private"⟩
    ⟨"item-4", "repo:front", "private", some "thread-3", 1750000120000000⟩
    (symbolSignals ∅) (by decide)

end Examples

end Pallium.Workstreams
