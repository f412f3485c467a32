import Pallium.Core.Run
import Pallium.Workstreams.Choice
import Pallium.Workstreams.Store

/-!
# Writing a registry and loading it again

The store keeps of a workstream its dominant signals and its last touch.  What comes back
when a registry was written is the registry in its order, without the threads, the paths
and the commands, and with three titles at most.
-/

namespace Pallium.Workstreams

open Database (recordOf recordUnknownWorkstream upsertWorkstream rowOf)

/-- An id that signals give. -/
def IsResolvedId (workstreamId : String) : Prop := ∃ text, workstreamId = "ws:" ++ text

/-- An id that an item without signals gets. -/
def IsUnknownId (workstreamId : String) : Prop := ∃ text, workstreamId = "unknown:" ++ text

theorem IsResolvedId.ne_unknown {resolved unknown : String} (hresolved : IsResolvedId resolved)
    (hunknown : IsUnknownId unknown) : resolved ≠ unknown := by
  obtain ⟨left, rfl⟩ := hresolved
  obtain ⟨right, rfl⟩ := hunknown
  intro hsame
  have hlists := congrArg String.toList hsame
  rw [String.toList_append, String.toList_append] at hlists
  have hheads : 'w' = 'u' := (List.cons.inj hlists).1
  exact absurd hheads (by decide)

variable {workstreamId : String}

theorem isResolvedId_of_signals {host : Host} {signals : ItemSignals}
    (hid : signals.resolvedId host = some workstreamId) : IsResolvedId workstreamId := by
  rw [ItemSignals.resolvedId] at hid
  split at hid
  · cases hid
  · exact ⟨_, (Option.some.inj hid).symm⟩

theorem isUnknownId_pseudo (containerRef : String) (threadRef : Option String)
    (watermark : String) : IsUnknownId (unknownPseudoId containerRef threadRef watermark) := by
  refine ⟨containerRef ++ ":" ++ (if threadRef.getD "" = "" then "NULL" else threadRef.getD "")
    ++ ":" ++ watermark, ?_⟩
  simp only [unknownPseudoId, String.append_assoc]

namespace WorkstreamRow

/-- The id of a row is of its kind. -/
def Fits (row : WorkstreamRow) : Prop :=
  if row.resolved then IsResolvedId row.id else IsUnknownId row.id

/-- A rebuild of the scope loads the row. -/
def loaded (scope : Scope) (row : WorkstreamRow) : Bool := row.scope = scope && row.resolved

theorem Fits.resolved {row : WorkstreamRow} (hfits : row.Fits) (hid : IsResolvedId row.id) :
    row.resolved = true := by
  by_contra hunresolved
  rw [Fits, if_neg hunresolved] at hfits
  exact hid.ne_unknown hfits rfl

theorem Fits.unresolved {row : WorkstreamRow} (hfits : row.Fits) (hid : IsUnknownId row.id) :
    row.resolved = false := by
  by_contra hresolved
  rw [Fits, if_pos (Bool.not_eq_false _ ▸ hresolved)] at hfits
  exact hfits.ne_unknown hid rfl

end WorkstreamRow

/-- Every row has an id of its kind. -/
def Database.Fits (database : Database) : Prop := ∀ row ∈ database.workstreams.rows, row.Fits

section Upserts

variable {host : Host} {scope : Scope} {database : Database}

theorem Database.Fits.upsert (hfits : database.Fits) {row : WorkstreamRow} (hrow : row.Fits) :
    (database.upsertWorkstream row).Fits := by
  intro other hother
  have hget := Table.get_of_mem hother
  rw [key_workstreamRow, get_upsertWorkstream] at hget
  split at hget
  · cases hfound : database.workstreams.get row.id with
    | none =>
      rw [hfound] at hget
      rw [← Option.some.inj hget]
      exact hrow
    | some found =>
      rw [hfound] at hget
      rw [← Option.some.inj hget]
      exact hfits found (Table.mem_of_get hfound)
  · exact hfits other (Table.mem_of_get hget)

theorem Database.Fits.recorded (hfits : database.Fits) {signals : ItemSignals}
    {item : SourceItem} {registry after : Registry} {result : AssignmentResult}
    (hassign : assignWorkstreamForItem host scope signals item.threadRef item.createdAt registry =
      some (after, result)) : (recorded scope database item result).Fits := by
  rw [Workstreams.recorded]
  split
  · next hstage =>
    refine hfits.upsert ?_
    change IsUnknownId result.workstreamId
    rw [(unknown_of_stage hassign hstage).2]
    exact isUnknownId_pseudo _ _ _
  · exact hfits

theorem mem_loadRegistry {record : WorkstreamRecord} :
    record ∈ (database.loadRegistry host scope).rows ↔
      ∃ row ∈ database.workstreams.rows, row.loaded scope = true ∧
        recordOf host row = record := by
  refine List.mem_map.trans (exists_congr fun row => ?_)
  rw [List.mem_filter, and_assoc]
  rfl

theorem get_loadRegistry (workstreamId : String) :
    (database.loadRegistry host scope).get workstreamId =
      ((database.workstreams.get workstreamId).filter (WorkstreamRow.loaded scope)).map
        (recordOf host) := by
  refine Option.ext fun record => ?_
  rw [Option.map_eq_some_iff]
  constructor
  · intro hget
    obtain ⟨row, hrow, hloaded, rfl⟩ := mem_loadRegistry.mp (Table.mem_of_get hget)
    have hid : row.id = workstreamId := Table.key_of_get hget
    refine ⟨row, Option.filter_eq_some_iff.mpr ⟨?_, hloaded⟩, rfl⟩
    rw [← hid]
    exact Table.get_of_mem hrow
  · rintro ⟨row, hrow, rfl⟩
    obtain ⟨hget, hloaded⟩ := Option.filter_eq_some_iff.mp hrow
    have hid : row.id = workstreamId := Table.key_of_get hget
    have hmem : recordOf host row ∈ (database.loadRegistry host scope).rows :=
      mem_loadRegistry.mpr ⟨row, Table.mem_of_get hget, hloaded, rfl⟩
    rw [← hid]
    exact Table.get_of_mem hmem

theorem keys_loadRegistry :
    (database.loadRegistry host scope).rows.map key =
      (database.workstreams.rows.map key).filter fun workstreamId =>
        (database.workstreams.get workstreamId).any (WorkstreamRow.loaded scope) := by
  rw [List.filter_map]
  change ((database.workstreams.rows.filter (WorkstreamRow.loaded scope)).map _).map key = _
  rw [List.map_map, List.filter_congr fun row hrow => ?_]
  · rfl
  · have hget : database.workstreams.get row.id = some row := Table.get_of_mem hrow
    simp [hget]

theorem loadRegistry_unknown (hfits : database.Fits)
    (hid : IsUnknownId workstreamId) (openedAt : ℤ) :
    (database.recordUnknownWorkstream scope workstreamId openedAt).loadRegistry host scope =
      database.loadRegistry host scope := by
  refine Table.eq_of_rows (congrArg (List.map (recordOf host)) ?_)
  change (database.recordUnknownWorkstream scope workstreamId openedAt).workstreams.rows.filter
    (WorkstreamRow.loaded scope) = database.workstreams.rows.filter (WorkstreamRow.loaded scope)
  generalize hrow : (⟨workstreamId, scope.containerRef, scope.visibility, false, .none, openedAt,
    openedAt⟩ : WorkstreamRow) = row
  have hresolved : row.resolved = false := by rw [← hrow]
  have hrowId : IsUnknownId row.id := by rw [← hrow]; exact hid
  rw [recordUnknownWorkstream, hrow, upsertWorkstream]
  cases hinsert : database.workstreams.insertNew row with
  | some after =>
    have hrows := Table.rows_insertNew hinsert
    change after.rows.filter _ = _
    rw [hrows, List.filter_append, List.filter_cons_of_neg, List.filter_nil, List.append_nil]
    rw [WorkstreamRow.loaded, hresolved, Bool.and_false]
    exact Bool.false_ne_true
  | none =>
    change (database.workstreams.modify row.id row.merged).rows.filter _ = _
    have hkey : ∀ other : WorkstreamRow,
        key (if key other = row.id then row.merged other else other) = key other := by
      intro other
      split <;> rfl
    rw [Table.modify, Table.rows_updateAll _ hkey, List.filter_map]
    have hsame : database.workstreams.rows.filter ((WorkstreamRow.loaded scope) ∘ fun other =>
        if key other = row.id then row.merged other else other) =
          database.workstreams.rows.filter (WorkstreamRow.loaded scope) := by
      refine List.filter_congr fun other _ => ?_
      rw [Function.comp_apply]
      split <;> rfl
    rw [hsame]
    refine (List.map_congr_left fun other hother => ?_).trans (List.map_id _)
    obtain ⟨hmem, hloaded⟩ := List.mem_filter.mp hother
    refine if_neg fun hotherId => ?_
    replace hotherId : other.id = row.id := hotherId
    have hfalse := (hfits other hmem).unresolved (hotherId ▸ hrowId)
    rw [WorkstreamRow.loaded, hfalse, Bool.and_false] at hloaded
    cases hloaded

theorem keys_upsertWorkstream (row : WorkstreamRow) :
    (database.upsertWorkstream row).workstreams.rows.map key =
      database.workstreams.rows.map key ++
        [row.id].filter fun workstreamId => (database.workstreams.get workstreamId).isNone := by
  rw [upsertWorkstream]
  cases hinsert : database.workstreams.insertNew row with
  | some after =>
    have hrows := Table.rows_insertNew hinsert
    have hnone : database.workstreams.get row.id = none :=
      Table.get_eq_none_of_insertNew hinsert
    change after.rows.map key = _
    rw [hrows, List.map_append, List.filter_cons_of_pos (by rw [hnone]; rfl), List.filter_nil]
    rfl
  | none =>
    have hsome : (database.workstreams.get row.id).isNone = false := by
      rw [Option.isNone_eq_false_iff, Option.isSome_iff_ne_none]
      intro hnone
      have hfree : database.workstreams.get (key row) = none := hnone
      obtain ⟨after, hafter⟩ := Table.insertNew_isSome hfree
      rw [hafter] at hinsert
      cases hinsert
    change (database.workstreams.modify row.id row.merged).rows.map key = _
    rw [Table.modify, Table.keys_updateAll _ (by intro other; split <;> rfl),
      List.filter_cons_of_neg (by rw [hsome]; exact Bool.false_ne_true), List.filter_nil,
      List.append_nil]

end Upserts

section Persist

variable {host : Host} {scope : Scope} {database : Database}

variable {records : List WorkstreamRecord}

/-- The rows that a registry is written over. -/
def persistAll (records : List WorkstreamRecord) (database : Database) : Database :=
  records.foldl (fun current record => current.upsertWorkstream (Database.rowOf record)) database

theorem get_persistAll (hnodup : (records.map WorkstreamRecord.workstreamId).Nodup)
    (database : Database) (workstreamId : String) :
    (persistAll records database).workstreams.get workstreamId =
      match records.find? fun record => record.workstreamId = workstreamId with
      | some record => some (((database.workstreams.get workstreamId).map
          (rowOf record).merged).getD (rowOf record))
      | none => database.workstreams.get workstreamId := by
  induction records generalizing database with
  | nil => rfl
  | cons record rest ih =>
    obtain ⟨hnew, hrest⟩ := List.nodup_cons.mp hnodup
    change (persistAll rest (database.upsertWorkstream (rowOf record))).workstreams.get
      workstreamId = _
    rw [ih hrest, get_upsertWorkstream]
    by_cases hid : record.workstreamId = workstreamId
    · have hnone : (rest.find? fun other => other.workstreamId = workstreamId) = none := by
        rw [List.find?_eq_none]
        intro other hother hsame
        apply hnew
        rw [hid, ← of_decide_eq_true hsame]
        exact List.mem_map_of_mem hother
      have hself : workstreamId = (rowOf record).id := hid.symm
      rw [hnone, List.find?_cons_of_pos (by simp [hid]), if_pos hself, ← hself]
    · rw [List.find?_cons_of_neg (by simpa using hid)]
      have hother : workstreamId ≠ (rowOf record).id := fun hsame => hid hsame.symm
      rw [if_neg hother]

theorem keys_persistAll (hnodup : (records.map WorkstreamRecord.workstreamId).Nodup)
    (database : Database) :
    (persistAll records database).workstreams.rows.map key =
      database.workstreams.rows.map key ++
        (records.map WorkstreamRecord.workstreamId).filter fun workstreamId =>
          (database.workstreams.get workstreamId).isNone := by
  induction records generalizing database with
  | nil => exact (List.append_nil _).symm
  | cons record rest ih =>
    obtain ⟨hnew, hrest⟩ := List.nodup_cons.mp hnodup
    change (persistAll rest (database.upsertWorkstream (rowOf record))).workstreams.rows.map
      key = _
    rw [ih hrest, keys_upsertWorkstream, List.append_assoc, List.map_cons]
    congr 1
    have hsame : (rest.map WorkstreamRecord.workstreamId).filter (fun workstreamId =>
        ((database.upsertWorkstream (rowOf record)).workstreams.get
          workstreamId).isNone) =
        (rest.map WorkstreamRecord.workstreamId).filter fun workstreamId =>
          (database.workstreams.get workstreamId).isNone := by
      refine List.filter_congr fun workstreamId hmem => ?_
      have hother : workstreamId ≠ (rowOf record).id := by
        rintro rfl
        exact hnew hmem
      rw [get_upsertWorkstream, if_neg hother]
    rw [hsame, ← List.filter_append]
    rfl

theorem persistRegistry_eq (registry : Registry) :
    database.persistRegistry registry = persistAll registry.rows database := rfl

theorem Database.Fits.persistAll (hfits : database.Fits)
    (hrecords : ∀ record ∈ records, IsResolvedId record.workstreamId) :
    (Workstreams.persistAll records database).Fits := by
  induction records generalizing database with
  | nil => exact hfits
  | cons record rest ih =>
    have hrow : (rowOf record).Fits := hrecords record List.mem_cons_self
    exact ih (hfits.upsert hrow) (List.forall_mem_cons.mp hrecords).2

end Persist

section Assignments

variable {host : Host} {scope : Scope}

variable {progress : Progress}

section

variable {signals : ItemSignals} {threadRef : Option String} {createdAt : ℤ}
  {registry after : Registry} {result : AssignmentResult}
  (hassign : assignWorkstreamForItem host scope signals threadRef createdAt registry = some
    (after, result))
include hassign

/-- What every record has that expiry and touches keep and opened records have. -/
theorem forall_assigned {holds : WorkstreamRecord → Prop}
    (hexpire : ∀ record, holds record → holds (record.expire scope createdAt))
    (hattach : ∀ record ∈ registry.openRecords scope createdAt, holds record →
      holds (record.attach host signals threadRef createdAt))
    (hopened : signals.resolvedId host = some result.workstreamId →
      holds (openedRecord host scope signals threadRef createdAt result.workstreamId))
    (hall : ∀ record ∈ registry.rows, holds record) : ∀ record ∈ after.rows, holds record := by
  have hclosed : ∀ record ∈ (registry.close scope createdAt).rows, holds record := by
    rw [Registry.rows_close]
    intro record hrecord
    obtain ⟨old, hold, rfl⟩ := List.mem_map.mp hrecord
    exact hexpire old (hall old hold)
  rcases assign_cases hassign with ⟨hchoose, rfl⟩ | ⟨-, hid, -, rfl⟩ | ⟨-, -, -, rfl⟩
  · intro record hrecord
    obtain ⟨-, -, joined, hjoined, hjoinedId⟩ := of_choose_attach hchoose
    have hjoinedGet : (registry.close scope createdAt).get result.workstreamId = some joined :=
      hjoinedId ▸ Table.get_of_mem ((Registry.mem_openRecords scope createdAt).mp hjoined).1
    rw [Table.modify, Table.rows_updateAll _ (by intro other; split <;> rfl)] at hrecord
    obtain ⟨old, hold, rfl⟩ := List.mem_map.mp hrecord
    split
    · next hsame =>
      have hget := Table.get_of_mem hold
      rw [hsame, hjoinedGet] at hget
      rw [← Option.some.inj hget]
      exact hattach joined hjoined (hclosed joined (Option.some.inj hget ▸ hold))
    · exact hclosed old hold
  · intro record hrecord
    rcases Table.mem_rows_set.mp hrecord with rfl | ⟨hold, -⟩
    · exact hopened hid
    · exact hclosed record hold
  · exact hclosed

/-- The ids of a registry after an assignment: an opened workstream that is new comes last. -/
theorem keys_assigned :
    after.rows.map key =
      if result.stage = .openNew ∧ registry.get result.workstreamId = none then
        registry.rows.map key ++ [result.workstreamId]
      else registry.rows.map key := by
  have hclosed : (registry.close scope createdAt).rows.map key = registry.rows.map key :=
    registry.keys_updateAll (WorkstreamRecord.workstreamId_expire scope createdAt)
  rcases assign_cases hassign with ⟨hchoose, rfl⟩ | ⟨-, -, hstage, rfl⟩ | ⟨-, -, hstage, rfl⟩
  · have hstage : result.stage ≠ .openNew := (of_choose_attach hchoose).2.1
    rw [if_neg fun h => hstage h.1, Table.modify,
      Table.keys_updateAll _ (by intro other; split <;> rfl), hclosed]
  · rw [Table.keys_set, hclosed]
    change (if ((registry.close scope createdAt).get result.workstreamId).isSome then _ else _) = _
    rw [get_isSome_close]
    cases registry.get result.workstreamId with
    | none => simp [hstage, openedRecord]
    | some record => simp
  · rw [if_neg (by rw [hstage]; exact fun h => by cases h.1), hclosed]

end

/-- What holds of a registry that is being assigned from a store. -/
structure Loaded (host : Host) (scope : Scope) (progress : Progress) : Prop where
  fits : progress.database.Fits
  records : ∀ record ∈ progress.registry.rows, record.scope = scope ∧
    IsResolvedId record.workstreamId ∧
      record.titleNgrams = record.titles.biUnion (titleNgrams host)
  anchored : ∃ opened,
    progress.registry.rows.map key =
      (progress.database.loadRegistry host scope).rows.map key ++ opened ∧
    ∀ workstreamId ∈ opened, progress.database.workstreams.get workstreamId = none

theorem loaded_start {database : Database} (hfits : database.Fits) :
    Loaded host scope ⟨database, database.loadRegistry host scope, []⟩ where
  fits := hfits
  records := by
    intro record hrecord
    obtain ⟨row, hrow, hloaded, rfl⟩ := mem_loadRegistry.mp hrecord
    obtain ⟨hscope, hresolved⟩ := (Bool.and_eq_true _ _).mp hloaded
    have hid := hfits row hrow
    rw [WorkstreamRow.Fits, if_pos hresolved] at hid
    exact ⟨of_decide_eq_true hscope, hid, rfl⟩
  anchored := ⟨[], (List.append_nil _).symm, List.forall_mem_nil _⟩

/-- The id of an opened workstream belongs to no other scope. -/
def OpensAtHome (host : Host) (scope : Scope) (progress : Progress)
    (offered : SignalledItem) : Prop :=
  choose host offered.signals offered.item.threadRef offered.item.createdAt
      (progress.registry.openRecords scope offered.item.createdAt) = .openNew →
    ∀ workstreamId ∈ offered.signals.resolvedId host,
      (progress.database.workstreams.get workstreamId).all (·.scope = scope)

instance (progress : Progress) (offered : SignalledItem) :
    Decidable (OpensAtHome host scope progress offered) := by
  unfold OpensAtHome
  infer_instance

theorem Loaded.get_isSome (hloaded : Loaded host scope progress)
    {row : WorkstreamRow} (hget : progress.database.workstreams.get workstreamId = some row)
    (hrow : row.loaded scope = true) : (progress.registry.get workstreamId).isSome := by
  obtain ⟨opened, hkeys, -⟩ := hloaded.anchored
  have hmem : workstreamId ∈ progress.registry.rows.map key := by
    rw [hkeys, keys_loadRegistry]
    refine List.mem_append_left _ (List.mem_filter.mpr ⟨?_, ?_⟩)
    · rw [← (Table.key_of_get hget : key row = workstreamId)]
      exact List.mem_map_of_mem (Table.mem_of_get hget)
    · rw [hget, Option.any_some, hrow]
  rw [Option.isSome_iff_ne_none]
  exact fun hnone => Table.get_eq_none_iff.mp hnone hmem

theorem Loaded.row_loaded (hloaded : Loaded host scope progress)
    {row : WorkstreamRow} (hpresent : (progress.registry.get workstreamId).isSome)
    (hget : progress.database.workstreams.get workstreamId = some row) :
    row.loaded scope = true := by
  obtain ⟨opened, hkeys, hfree⟩ := hloaded.anchored
  obtain ⟨record, hrecord⟩ := Option.isSome_iff_exists.mp hpresent
  have hmem : workstreamId ∈ progress.registry.rows.map key := by
    rw [← (Table.key_of_get hrecord : key record = workstreamId)]
    exact List.mem_map_of_mem (Table.mem_of_get hrecord)
  rw [hkeys, List.mem_append, keys_loadRegistry, List.mem_filter] at hmem
  rcases hmem with ⟨-, hany⟩ | hopened
  · rw [hget, Option.any_some] at hany
    exact hany
  · rw [hfree workstreamId hopened] at hget
    cases hget

theorem Loaded.assignItem {next : Progress} {offered : SignalledItem}
    (hloaded : Loaded host scope progress) (hhome : OpensAtHome host scope progress offered)
    (hnext : assignItem host scope progress offered = some next) : Loaded host scope next := by
  obtain ⟨registry, result, hassign, rfl⟩ := assignItem_eq_some hnext
  have hload : (recorded scope progress.database offered.item result).loadRegistry host scope =
      progress.database.loadRegistry host scope := by
    rw [recorded]
    split
    · next hstage =>
      refine loadRegistry_unknown hloaded.fits ?_ _
      rw [(unknown_of_stage hassign hstage).2]
      exact isUnknownId_pseudo _ _ _
    · rfl
  refine ⟨hloaded.fits.recorded hassign, ?_, ?_⟩
  · refine forall_assigned hassign (fun record hrecord => ?_) (fun record _ hrecord => ?_)
      (fun hid => ?_) hloaded.records
    · rw [WorkstreamRecord.expire]
      split
      · exact hrecord
      · exact hrecord
    · refine ⟨hrecord.1, hrecord.2.1, ?_⟩
      change record.titleNgrams ∪ offered.signals.titleNgrams host =
        (record.titles ∪ offered.signals.titles).biUnion (titleNgrams host)
      rw [Finset.union_biUnion, hrecord.2.2]
      rfl
    · exact ⟨rfl, isResolvedId_of_signals hid, rfl⟩
  · obtain ⟨opened, hkeys, hfree⟩ := hloaded.anchored
    have hresolved : ∀ workstreamId ∈ opened, IsResolvedId workstreamId := by
      intro workstreamId hmem
      have hkey : workstreamId ∈ progress.registry.rows.map key := by
        rw [hkeys]
        exact List.mem_append_right _ hmem
      obtain ⟨record, hrecord, rfl⟩ := List.mem_map.mp hkey
      exact (hloaded.records record hrecord).2.1
    have hstill : ∀ workstreamId ∈ opened,
        (recorded scope progress.database offered.item result).workstreams.get workstreamId =
          none := by
      intro workstreamId hmem
      rw [recorded]
      split
      · next hstage =>
        have hother : workstreamId ≠ result.workstreamId := by
          rw [(unknown_of_stage hassign hstage).2]
          exact (hresolved workstreamId hmem).ne_unknown (isUnknownId_pseudo _ _ _)
        rw [recordUnknownWorkstream, get_upsertWorkstream, if_neg hother,
          hfree workstreamId hmem]
      · exact hfree workstreamId hmem
    have hassigned := keys_assigned hassign
    by_cases hopens : result.stage = .openNew ∧ progress.registry.get result.workstreamId = none
    · rw [if_pos hopens] at hassigned
      refine ⟨opened ++ [result.workstreamId], ?_, fun workstreamId hmem => ?_⟩
      · change registry.rows.map key =
          ((recorded scope progress.database offered.item result).loadRegistry host
            scope).rows.map key ++ _
        rw [hassigned, hkeys, hload, List.append_assoc]
      · rcases List.mem_append.mp hmem with hmem | hmem
        · exact hstill workstreamId hmem
        · rw [List.mem_singleton.mp hmem]
          change (recorded scope progress.database offered.item result).workstreams.get
            result.workstreamId = none
          rw [recorded, if_neg (by rw [hopens.1]; decide)]
          by_contra hsome
          obtain ⟨row, hget⟩ := Option.ne_none_iff_exists'.mp hsome
          obtain ⟨hchoose, hid⟩ := opened_of_stage hassign hopens.1
          have hscope := hhome hchoose _ hid
          rw [hget, Option.all_some, decide_eq_true_eq] at hscope
          have hrowId : row.id = result.workstreamId := Table.key_of_get hget
          have hrow := (hloaded.fits row (Table.mem_of_get hget)).resolved
            (hrowId ▸ isResolvedId_of_signals hid)
          have hpresent := hloaded.get_isSome hget
            (by simp [WorkstreamRow.loaded, hscope, hrow])
          rw [hopens.2] at hpresent
          cases hpresent
    · rw [if_neg hopens] at hassigned
      refine ⟨opened, ?_, hstill⟩
      change registry.rows.map key =
        ((recorded scope progress.database offered.item result).loadRegistry host
          scope).rows.map key ++ _
      rw [hassigned, hkeys, hload]

end Assignments

section Reload

variable {host : Host} {scope : Scope}

variable {progress : Progress}

/-- What the cascade and the store take no notice of is left out. -/
def WorkstreamRecord.shape (record : WorkstreamRecord) : WorkstreamRecord :=
  { record with
    filePaths := ∅
    commands := ∅
    openedAt := 0
    closed := false }

/-- The record that comes back when a record was stored. -/
def WorkstreamRecord.reload (host : Host) (record : WorkstreamRecord) : WorkstreamRecord :=
  Database.recordOf host (Database.rowOf record)

theorem Loaded.get_persist (hloaded : Loaded host scope progress) (workstreamId : String) :
    (((progress.database.persistRegistry progress.registry).loadRegistry host scope).get
        workstreamId).map WorkstreamRecord.shape =
      (progress.registry.get workstreamId).map fun record => (record.reload host).shape := by
  have hpersisted := get_persistAll progress.registry.nodup progress.database workstreamId
  rw [get_loadRegistry, persistRegistry_eq, hpersisted]
  change (((match progress.registry.get workstreamId with
    | some record => _
    | none => _ : Option WorkstreamRow).filter _).map _).map _ = _
  cases hrecord : progress.registry.get workstreamId with
  | none =>
    cases hrow : progress.database.workstreams.get workstreamId with
    | none => rfl
    | some row =>
      have hunloaded : ¬ row.loaded scope = true := by
        intro hrowLoaded
        have hpresent := hloaded.get_isSome hrow hrowLoaded
        rw [hrecord] at hpresent
        cases hpresent
      simp only [Option.filter_some, if_neg hunloaded]
      rfl
  | some record =>
    have hid : record.workstreamId = workstreamId := Table.key_of_get hrecord
    obtain ⟨hscope, -, -⟩ := hloaded.records record (Table.mem_of_get hrecord)
    cases hrow : progress.database.workstreams.get workstreamId with
    | none =>
      have hwritten : (rowOf record).loaded scope = true := by
        have hsame : (rowOf record).scope = scope := hscope
        rw [WorkstreamRow.loaded, hsame]
        simp [rowOf]
      simp only [Option.map_none, Option.getD_none, Option.filter_some, hwritten, if_true]
      rfl
    | some row =>
      have hrowLoaded := hloaded.row_loaded (hrecord ▸ rfl) hrow
      have hwritten : ((rowOf record).merged row).loaded scope = true := hrowLoaded
      have hrowScope : row.scope = scope :=
        of_decide_eq_true ((Bool.and_eq_true _ _).mp hrowLoaded).1
      have hcontainer : row.containerRef = record.containerRef :=
        congrArg Scope.containerRef (hrowScope.trans hscope.symm)
      have hvisibility : row.visibility = record.visibility :=
        congrArg Scope.visibility (hrowScope.trans hscope.symm)
      have hrowId : row.id = record.workstreamId := (Table.key_of_get hrow).trans hid.symm
      simp only [Option.map_some, Option.getD_some, Option.filter_some, hwritten, if_true,
        Option.some.injEq]
      simp only [WorkstreamRecord.shape, WorkstreamRecord.reload, recordOf,
        WorkstreamRow.merged, rowOf, hcontainer, hvisibility, hrowId]

theorem Loaded.any_persist (hloaded : Loaded host scope progress) (workstreamId : String) :
    ((progress.database.persistRegistry progress.registry).workstreams.get workstreamId).any
        (WorkstreamRow.loaded scope) = (progress.registry.get workstreamId).isSome := by
  have hsome := congrArg Option.isSome (hloaded.get_persist workstreamId)
  rw [Option.isSome_map, Option.isSome_map, get_loadRegistry, Option.isSome_map,
    Option.isSome_filter] at hsome
  exact hsome

theorem Loaded.get_isSome_iff :
    (progress.registry.get workstreamId).isSome = true ↔
      workstreamId ∈ progress.registry.rows.map key := by
  rw [Option.isSome_iff_ne_none, Ne, Table.get_eq_none_iff, not_not]

variable (hloaded : Loaded host scope progress)
include hloaded

theorem Loaded.keys_persist :
    ((progress.database.persistRegistry progress.registry).loadRegistry host scope).rows.map
        key = progress.registry.rows.map key := by
  obtain ⟨opened, hkeys, hfree⟩ := hloaded.anchored
  have hstored : (progress.database.workstreams.rows.map key).filter (fun workstreamId =>
      (progress.registry.get workstreamId).isSome) =
        (progress.database.loadRegistry host scope).rows.map key := by
    rw [keys_loadRegistry]
    refine List.filter_congr fun workstreamId hmem => ?_
    obtain ⟨row, hrow, hid⟩ := List.mem_map.mp hmem
    have hget : progress.database.workstreams.get workstreamId = some row :=
      hid ▸ Table.get_of_mem hrow
    rw [hget, Option.any_some, Bool.eq_iff_iff]
    exact ⟨fun hpresent => hloaded.row_loaded hpresent hget, hloaded.get_isSome hget⟩
  have hnew : (progress.registry.rows.map key).filter (fun workstreamId =>
      (progress.database.workstreams.get workstreamId).isNone) = opened := by
    rw [hkeys, List.filter_append, List.filter_eq_nil_iff.mpr, List.nil_append,
      List.filter_eq_self.mpr]
    · intro workstreamId hmem
      rw [hfree workstreamId hmem]
      rfl
    · intro workstreamId hmem hnone
      rw [keys_loadRegistry, List.mem_filter, Option.isNone_iff_eq_none.mp hnone] at hmem
      exact absurd hmem.2 (by simp)
  have hrows := keys_persistAll progress.registry.nodup progress.database
  rw [keys_loadRegistry]
  simp only [hloaded.any_persist]
  rw [persistRegistry_eq]
  change (List.map key (persistAll progress.registry.rows
    progress.database).workstreams.rows).filter _ = _
  rw [hrows, List.filter_append, hstored]
  change _ ++ ((progress.registry.rows.map key).filter _).filter _ = _
  rw [hnew, List.filter_eq_self.mpr, hkeys]
  intro workstreamId hmem
  rw [Loaded.get_isSome_iff, hkeys]
  exact List.mem_append_right _ hmem

theorem Loaded.load_persist :
    ((progress.database.persistRegistry progress.registry).loadRegistry host scope).rows.map
        WorkstreamRecord.shape =
      progress.registry.rows.map fun record => (record.reload host).shape :=
  Table.map_rows_eq hloaded.keys_persist hloaded.get_persist

theorem Loaded.fits_persist :
    (progress.database.persistRegistry progress.registry).Fits :=
  hloaded.fits.persistAll fun record hrecord => (hloaded.records record hrecord).2.1

theorem Loaded.scope_persist {row : WorkstreamRow}
    (hget : (progress.database.persistRegistry progress.registry).workstreams.get workstreamId =
      some row) (hother : row.scope ≠ scope) :
    progress.database.workstreams.get workstreamId = some row := by
  have hpresent : progress.registry.get workstreamId = none := by
    rw [← Option.not_isSome_iff_eq_none, ← hloaded.any_persist, hget, Option.any_some,
      WorkstreamRow.loaded, decide_eq_false hother]
    exact Bool.false_ne_true
  have hpersisted := get_persistAll progress.registry.nodup progress.database workstreamId
  have hnone : (progress.registry.rows.find? fun record =>
      record.workstreamId = workstreamId) = none := hpresent
  rw [hnone] at hpersisted
  exact hpersisted.symm.trans hget

end Reload

section Reachable

variable {host : Host} {scope : Scope}

theorem fits_assignItems (host : Host) (scope : Scope) (items : List SignalledItem)
    {progress : Progress}
    (hfits : progress.database.Fits)
    (hrecords : ∀ record ∈ progress.registry.rows, IsResolvedId record.workstreamId) :
    (assignItems host scope progress items).1.database.Fits ∧
      ∀ record ∈ (assignItems host scope progress items).1.registry.rows,
        IsResolvedId record.workstreamId := by
  induction items generalizing progress with
  | nil => exact ⟨hfits, hrecords⟩
  | cons offered rest ih =>
    rw [assignItems]
    cases hnext : assignItem host scope progress offered with
    | none => exact ⟨hfits, hrecords⟩
    | some next =>
      obtain ⟨registry, result, hassign, rfl⟩ := assignItem_eq_some hnext
      refine ih (hfits.recorded hassign) (forall_assigned hassign (fun record hid => ?_)
        (fun _ _ hid => hid) (fun hid => isResolvedId_of_signals hid) hrecords)
      rw [WorkstreamRecord.workstreamId_expire]
      exact hid

theorem fits_maybeAssign {database : Database} (hfits : database.Fits)
    (priorWatermark : Option ℤ) (items : List SignalledItem) :
    (maybeAssignWorkstreams host scope priorWatermark items database).Fits := by
  rw [maybeAssignWorkstreams]
  split
  · exact hfits
  · obtain ⟨hafter, hrecords⟩ := fits_assignItems host scope
      (newItems priorWatermark items) (loaded_start hfits).fits
      fun record hrecord => ((loaded_start hfits).records record hrecord).2.1
    rw [finishBatch]
    split
    · exact hafter.persistAll hrecords
    · exact hafter

theorem fits_run (host : Host) {stored : Table SourceItem} (rebuilds : List (Rebuild stored)) :
    (Run.run (rebuildStep host) Database.empty rebuilds).Fits :=
  have hempty : Database.empty.Fits := List.forall_mem_nil _
  Run.run_invariant hempty (fun _ _ hfits => fits_maybeAssign hfits _ _) rebuilds

end Reachable

end Pallium.Workstreams
