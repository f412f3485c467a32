import Pallium.Workstreams.Cascade

/-!
# What the cascade can do

An assignment touches one open workstream of the scope, opens one under the hash of its
signals, or leaves the registry as it is.  The choice between them sees of a workstream its
id, what it shares with the item and whether its thread touched it shortly before.
-/

namespace Pallium.Workstreams

section Expiry

variable (scope : Scope) (now : ℤ)

@[simp]
theorem WorkstreamRecord.workstreamId_expire (record : WorkstreamRecord) :
    (record.expire scope now).workstreamId = record.workstreamId := by
  rw [WorkstreamRecord.expire]
  split <;> rfl

@[simp]
theorem WorkstreamRecord.scope_expire (record : WorkstreamRecord) :
    (record.expire scope now).scope = record.scope := by
  rw [WorkstreamRecord.expire]
  split <;> rfl

theorem Registry.get_close (registry : Registry) (workstreamId : String) :
    (registry.close scope now).get workstreamId =
      (registry.get workstreamId).map (WorkstreamRecord.expire scope now) :=
  registry.get_updateAll (WorkstreamRecord.workstreamId_expire scope now) workstreamId

theorem Registry.rows_close (registry : Registry) :
    (registry.close scope now).rows =
      registry.rows.map (WorkstreamRecord.expire scope now) :=
  registry.rows_updateAll (WorkstreamRecord.workstreamId_expire scope now)

theorem Registry.mem_openRecords {registry : Registry} {record : WorkstreamRecord} :
    record ∈ registry.openRecords scope now ↔
      record ∈ (registry.close scope now).rows ∧ record.scope = scope ∧ record.closed = false := by
  rw [openRecords, List.mem_insertionSort, List.mem_filter, Bool.and_eq_true, decide_eq_true_eq,
    Bool.not_eq_true']

end Expiry

section Choice

variable {host : Host} {signals : ItemSignals} {threadRef : Option String} {createdAt : ℤ}
  {opened : List WorkstreamRecord}

variable {record : WorkstreamRecord}

theorem Kind.mem_all (kind : Kind) : kind ∈ Kind.all := by
  cases kind <;> decide

theorem Kind.stage_ne (kind : Kind) : kind.stage ≠ .openNew ∧ kind.stage ≠ .unknownPseudoId := by
  cases kind <;> decide

theorem findOverlap_eq_none_iff :
    findOverlap host signals opened = none ↔
      ∀ kind, ∀ record ∈ opened, record.overlaps host signals kind = false := by
  rw [findOverlap, List.findSome?_eq_none_iff]
  refine forall_congr' fun kind => ?_
  rw [Option.map_eq_none_iff, List.find?_eq_none]
  simp [Kind.mem_all]

theorem of_findOverlap {kind : Kind}
    (hfound : findOverlap host signals opened = some (kind, record)) :
    record ∈ opened ∧ record.overlaps host signals kind = true := by
  obtain ⟨other, hkind, hother⟩ := List.exists_of_findSome?_eq_some hfound
  obtain ⟨first, hfirst, heq⟩ := Option.map_eq_some_iff.mp hother
  obtain ⟨rfl, rfl⟩ := Prod.mk.inj heq
  have hshared := List.find?_some hfirst
  exact ⟨List.mem_of_find?_eq_some hfirst, hshared⟩

theorem choose_of_overlap {kind : Kind}
    (hfound : findOverlap host signals opened = some (kind, record)) :
    choose host signals threadRef createdAt opened = .attach kind.stage record.workstreamId := by
  rw [choose, hfound]

theorem choose_of_recent (hnone : findOverlap host signals opened = none)
    (hrecent : (opened.find? fun record => record.recent signals threadRef createdAt) =
      some record) :
    choose host signals threadRef createdAt opened =
      .attach .sameThreadRecency record.workstreamId := by
  rw [choose, hnone]
  simp only [hrecent]

theorem choose_of_neither (hnone : findOverlap host signals opened = none)
    (hrecent : (opened.find? fun record => record.recent signals threadRef createdAt) = none) :
    choose host signals threadRef createdAt opened = chooseAlone host signals opened := by
  rw [choose, hnone]
  simp only [hrecent]

theorem of_chooseAlone_attach {stage : Stage} {workstreamId : String}
    (hchoose : chooseAlone host signals opened = .attach stage workstreamId) :
    stage = .selfRefAttach ∧ ∃ record ∈ opened,
      record.covers host signals = true ∧ record.workstreamId = workstreamId := by
  rw [chooseAlone] at hchoose
  split at hchoose
  · split at hchoose
    · cases hchoose
    · next mostRecent hhead =>
      split at hchoose
      · next hcovers =>
        obtain ⟨rfl, rfl⟩ := Choice.attach.inj hchoose
        exact ⟨rfl, mostRecent, List.mem_of_head? hhead, hcovers, rfl⟩
      · cases hchoose
  · cases hchoose

/-- An item joins by overlap or recency, or alone. -/
theorem choose_cases (host : Host) (signals : ItemSignals) (threadRef : Option String)
    (createdAt : ℤ) (opened : List WorkstreamRecord) :
    (∃ stage record, stage ≠ .unknownPseudoId ∧ stage ≠ .openNew ∧ record ∈ opened ∧
        choose host signals threadRef createdAt opened = .attach stage record.workstreamId) ∨
      choose host signals threadRef createdAt opened = chooseAlone host signals opened := by
  cases hoverlap : findOverlap host signals opened with
  | some found =>
    exact Or.inl ⟨found.1.stage, found.2, found.1.stage_ne.2, found.1.stage_ne.1,
      (of_findOverlap hoverlap).1, choose_of_overlap hoverlap⟩
  | none =>
    cases hrecent : opened.find? fun record => record.recent signals threadRef createdAt with
    | some record =>
      exact Or.inl ⟨_, record, by decide, by decide, List.mem_of_find?_eq_some hrecent,
        choose_of_recent hoverlap hrecent⟩
    | none => exact Or.inr (choose_of_neither hoverlap hrecent)

theorem of_choose_attach {stage : Stage} {workstreamId : String}
    (hchoose : choose host signals threadRef createdAt opened = .attach stage workstreamId) :
    stage ≠ .unknownPseudoId ∧ stage ≠ .openNew ∧
      ∃ record ∈ opened, record.workstreamId = workstreamId := by
  rcases choose_cases host signals threadRef createdAt opened with
    ⟨found, record, hunknown, hnew, hmem, hattach⟩ | halone
  · obtain ⟨rfl, rfl⟩ := Choice.attach.inj (hattach.symm.trans hchoose)
    exact ⟨hunknown, hnew, record, hmem, rfl⟩
  · obtain ⟨rfl, record, hmem, -, hid⟩ := of_chooseAlone_attach (halone.symm.trans hchoose)
    exact ⟨by decide, by decide, record, hmem, hid⟩

end Choice

section Assignment

variable {host : Host} {scope : Scope} {signals : ItemSignals} {threadRef : Option String}
  {createdAt : ℤ} {registry after : Registry} {result : AssignmentResult}

variable {workstreamId : String}

theorem assign_attach {stage : Stage}
    (hchoose : choose host signals threadRef createdAt (registry.openRecords scope createdAt) =
      .attach stage workstreamId) :
    assignWorkstreamForItem host scope signals threadRef createdAt registry =
      some ((registry.close scope createdAt).modify workstreamId fun record =>
        record.attach host signals threadRef createdAt, ⟨workstreamId, stage⟩) := by
  rw [assignWorkstreamForItem]
  simp only [hchoose]

theorem assign_openNew
    (hchoose : choose host signals threadRef createdAt (registry.openRecords scope createdAt) =
      .openNew) (hid : signals.resolvedId host = some workstreamId) :
    assignWorkstreamForItem host scope signals threadRef createdAt registry =
      some ((registry.close scope createdAt).set
        (openedRecord host scope signals threadRef createdAt workstreamId),
        ⟨workstreamId, .openNew⟩) := by
  rw [assignWorkstreamForItem]
  simp only [hchoose, hid, Option.map_some]

theorem assign_unknown
    (hchoose : choose host signals threadRef createdAt (registry.openRecords scope createdAt) =
      .unknown) :
    assignWorkstreamForItem host scope signals threadRef createdAt registry =
      some (registry.close scope createdAt,
        ⟨unknownPseudoId scope.containerRef threadRef (watermarkFor createdAt),
          .unknownPseudoId⟩) := by
  rw [assignWorkstreamForItem]
  simp only [hchoose]

section

variable (hassign : assignWorkstreamForItem host scope signals threadRef createdAt registry =
  some (after, result))
include hassign

/-- An assignment joins an open workstream, opens one, or finds none. -/
theorem assign_cases :
    (choose host signals threadRef createdAt (registry.openRecords scope createdAt) =
        .attach result.stage result.workstreamId ∧
      after = (registry.close scope createdAt).modify result.workstreamId fun record =>
        record.attach host signals threadRef createdAt) ∨
    (choose host signals threadRef createdAt (registry.openRecords scope createdAt) = .openNew ∧
      signals.resolvedId host = some result.workstreamId ∧ result.stage = .openNew ∧
      after = (registry.close scope createdAt).set
        (openedRecord host scope signals threadRef createdAt result.workstreamId)) ∨
    (choose host signals threadRef createdAt (registry.openRecords scope createdAt) = .unknown ∧
      result.workstreamId =
        unknownPseudoId scope.containerRef threadRef (watermarkFor createdAt) ∧
      result.stage = .unknownPseudoId ∧ after = registry.close scope createdAt) := by
  rw [assignWorkstreamForItem] at hassign
  cases hchoose : choose host signals threadRef createdAt
      (registry.openRecords scope createdAt) with
  | attach stage workstreamId =>
    simp only [hchoose, Option.some.injEq, Prod.mk.injEq] at hassign
    obtain ⟨rfl, rfl⟩ := hassign
    exact Or.inl ⟨rfl, rfl⟩
  | openNew =>
    simp only [hchoose, Option.map_eq_some_iff, Prod.mk.injEq] at hassign
    obtain ⟨workstreamId, hid, rfl, rfl⟩ := hassign
    exact Or.inr (Or.inl ⟨rfl, hid, rfl, rfl⟩)
  | unknown =>
    simp only [hchoose, Option.some.injEq, Prod.mk.injEq] at hassign
    obtain ⟨rfl, rfl⟩ := hassign
    exact Or.inr (Or.inr ⟨rfl, rfl, rfl, rfl⟩)

theorem unknown_of_stage (hstage : result.stage = .unknownPseudoId) :
    choose host signals threadRef createdAt (registry.openRecords scope createdAt) = .unknown ∧
      result.workstreamId =
        unknownPseudoId scope.containerRef threadRef (watermarkFor createdAt) := by
  rcases assign_cases hassign with ⟨hchoose, -⟩ | ⟨-, -, hopen, -⟩ | ⟨hchoose, hid, -, -⟩
  · exact absurd hstage (of_choose_attach hchoose).1
  · rw [hopen] at hstage
    cases hstage
  · exact ⟨hchoose, hid⟩

theorem opened_of_stage (hstage : result.stage = .openNew) :
    choose host signals threadRef createdAt (registry.openRecords scope createdAt) = .openNew ∧
      signals.resolvedId host = some result.workstreamId := by
  rcases assign_cases hassign with ⟨hchoose, -⟩ | ⟨hchoose, hid, -, -⟩ | ⟨-, -, hunknown, -⟩
  · exact absurd hstage (of_choose_attach hchoose).2.1
  · exact ⟨hchoose, hid⟩
  · rw [hunknown] at hstage
    cases hstage

end

theorem assign_eq_none_iff :
    assignWorkstreamForItem host scope signals threadRef createdAt registry = none ↔
      choose host signals threadRef createdAt (registry.openRecords scope createdAt) = .openNew ∧
        signals.resolvedId host = none := by
  rw [assignWorkstreamForItem]
  cases hchoose : choose host signals threadRef createdAt
      (registry.openRecords scope createdAt) with
  | attach stage workstreamId => simp
  | openNew => simp
  | unknown => simp

theorem WorkstreamRecord.scope_touched (record : WorkstreamRecord) (workstreamId : String) :
    (if key record = workstreamId then record.attach host signals threadRef createdAt
      else record).scope = record.scope := by
  split <;> rfl

/-- The records after an assignment: those before it, and the opened one. -/
theorem of_mem_assigned
    (hassign : assignWorkstreamForItem host scope signals threadRef createdAt registry =
      some (after, result)) {record : WorkstreamRecord} (hmem : record ∈ after.rows) :
    (∃ old ∈ registry.rows, old.workstreamId = record.workstreamId ∧ record.scope = old.scope) ∨
      record = openedRecord host scope signals threadRef createdAt result.workstreamId ∧
        signals.resolvedId host = some result.workstreamId ∧
        choose host signals threadRef createdAt (registry.openRecords scope createdAt) =
          .openNew := by
  have hclosed : ∀ other ∈ (registry.close scope createdAt).rows, ∃ old ∈ registry.rows,
      old.workstreamId = other.workstreamId ∧ other.scope = old.scope := by
    intro other hother
    rw [Registry.rows_close] at hother
    obtain ⟨old, hold, rfl⟩ := List.mem_map.mp hother
    exact ⟨old, hold, (old.workstreamId_expire scope createdAt).symm,
      old.scope_expire scope createdAt⟩
  rcases assign_cases hassign with ⟨-, rfl⟩ | ⟨hchoose, hid, -, rfl⟩ | ⟨-, -, -, rfl⟩
  · left
    rw [Table.modify, Table.rows_updateAll _ (by intro other; split <;> rfl)] at hmem
    obtain ⟨other, hother, rfl⟩ := List.mem_map.mp hmem
    obtain ⟨old, hold, hid, hscope⟩ := hclosed other hother
    refine ⟨old, hold, ?_, ?_⟩
    · rw [hid]
      split <;> rfl
    · rw [other.scope_touched, hscope]
  · rcases Table.mem_rows_set.mp hmem with rfl | ⟨hold, -⟩
    · exact Or.inr ⟨rfl, hid, hchoose⟩
    · exact Or.inl (hclosed record hold)
  · exact Or.inl (hclosed record hmem)

theorem get_attached (registry : Registry) (workstreamId other : String) :
    (registry.modify workstreamId fun record =>
        record.attach host signals threadRef createdAt).get other =
      if other = workstreamId then
        (registry.get other).map fun record => record.attach host signals threadRef createdAt
      else registry.get other :=
  have hkey : ∀ record : WorkstreamRecord,
      key (record.attach host signals threadRef createdAt) = key record := fun _ => rfl
  registry.get_modify workstreamId hkey other

theorem get_isSome_close (workstreamId : String) :
    ((registry.close scope createdAt).get workstreamId).isSome =
      (registry.get workstreamId).isSome := by
  rw [Registry.get_close, Option.isSome_map]

theorem isSome_assigned
    (hassign : assignWorkstreamForItem host scope signals threadRef createdAt registry =
      some (after, result)) (hid : (registry.get workstreamId).isSome ∨
      workstreamId = result.workstreamId ∧ result.stage ≠ .unknownPseudoId) :
    (after.get workstreamId).isSome := by
  rcases assign_cases hassign with ⟨hchoose, rfl⟩ | ⟨-, -, -, rfl⟩ | ⟨-, -, hstage, rfl⟩
  · obtain ⟨-, -, record, hrecord, hrecordId⟩ := of_choose_attach hchoose
    have hmem := ((Registry.mem_openRecords scope createdAt).mp hrecord).1
    have hsome : ((registry.close scope createdAt).get workstreamId).isSome := by
      rcases hid with hid | ⟨rfl, -⟩
      · rw [get_isSome_close, hid]
      · rw [← hrecordId, ← key_workstreamRecord, Table.get_of_mem hmem]
        rfl
    rw [get_attached]
    split
    · rw [Option.isSome_map, hsome]
    · exact hsome
  · rw [Table.get_set]
    split
    · rfl
    · next hne =>
      rcases hid with hid | ⟨rfl, -⟩
      · rw [get_isSome_close, hid]
      · exact absurd rfl hne
  · rcases hid with hid | ⟨-, hne⟩
    · rw [get_isSome_close, hid]
    · exact absurd hstage hne

end Assignment

end Pallium.Workstreams
