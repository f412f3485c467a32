import Pallium.Workstreams.Choice
import Pallium.Workstreams.Store

/-!
# When an assignment raises

An item with any strong signal may open a workstream, whose id is the hash of those of its
signals that take part in it.  Commands do not take part, so an item with nothing else has
no id to open a workstream with.
-/

namespace Pallium.Workstreams

/-- A call of `assign_workstream_for_item`. -/
structure Assignment where
  scope : Scope
  signals : ItemSignals
  threadRef : Option String
  createdAt : ℤ

namespace Assignment

variable (host : Host) (registry : Registry) (item : Assignment)

/-- The call, with the check of `unknown_pseudo_id`, which raises without a container. -/
def call : Option (Registry × AssignmentResult) :=
  (assignWorkstreamForItem host item.scope item.signals item.threadRef item.createdAt
    registry).filter fun assigned =>
      assigned.2.stage ≠ .unknownPseudoId || item.scope.containerRef ≠ ""

/-- The registry after the call.  One that raises has closed the expired workstreams. -/
def apply : Registry :=
  match item.call host registry with
  | some (after, _) => after
  | none => registry.close item.scope item.createdAt

/-- The call returns, and the workstream that the item joins or opens has its scope and
its signals. -/
def Assigns : Prop :=
  ∃ after result, item.call host registry = some (after, result) ∧
    (result.stage ≠ .unknownPseudoId → ∃ record, after.get result.workstreamId = some record ∧
      record.scope = item.scope ∧ record.covers host item.signals = true)

/-- A signal of the item takes part in the id, or the item has no strong signal, or a
workstream of its scope is open. -/
def HasPlace : Prop :=
  item.signals.forId host ≠ ∅ ∨ item.signals.hasAnyStrong = false ∨
    registry.openRecords item.scope item.createdAt ≠ []

end Assignment

section Signals

variable {host : Host} {scope : Scope} {signals : ItemSignals} {threadRef : Option String}
  {createdAt : ℤ} {opened : List WorkstreamRecord} {registry after : Registry}
  {result : AssignmentResult}

theorem covers_of_forId_eq_empty (hnone : signals.forId host = ∅) (record : WorkstreamRecord) :
    record.covers host signals = true := by
  simp only [ItemSignals.forId, Finset.union_eq_empty, Finset.image_eq_empty] at hnone
  obtain ⟨⟨⟨⟨hrefs, hdirs⟩, hsymbols⟩, htitles⟩, hanchors⟩ := hnone
  simp [WorkstreamRecord.covers, ItemSignals.titleNgrams, hrefs, hdirs, hsymbols, htitles, hanchors]

theorem choose_eq_openNew_iff (hnone : signals.forId host = ∅) :
    choose host signals threadRef createdAt opened = .openNew ↔
      opened = [] ∧ signals.hasAnyStrong = true := by
  constructor
  · intro hchoose
    rcases choose_cases host signals threadRef createdAt opened with
      ⟨_, _, -, -, -, hattach⟩ | halone
    · cases hattach.symm.trans hchoose
    · rw [halone, chooseAlone] at hchoose
      split at hchoose
      · next hstrong =>
        cases opened with
        | nil => exact ⟨rfl, hstrong⟩
        | cons mostRecent rest =>
          simp [covers_of_forId_eq_empty hnone] at hchoose
      · cases hchoose
  · rintro ⟨rfl, hstrong⟩
    simp [choose, findOverlap, chooseAlone, hstrong, Kind.all]

theorem assigned_covers
    (hassign : assignWorkstreamForItem host scope signals threadRef createdAt registry =
      some (after, result)) (hstage : result.stage ≠ .unknownPseudoId) :
    ∃ record, after.get result.workstreamId = some record ∧ record.scope = scope ∧
      record.covers host signals = true := by
  rcases assign_cases hassign with ⟨hchoose, rfl⟩ | ⟨-, -, -, rfl⟩ | ⟨-, -, hunknown, -⟩
  · obtain ⟨-, -, record, hrecord, hid⟩ := of_choose_attach hchoose
    obtain ⟨hmem, hscope, -⟩ := (Registry.mem_openRecords scope createdAt).mp hrecord
    have hget : (registry.close scope createdAt).get result.workstreamId = some record := by
      rw [← hid]
      exact Table.get_of_mem hmem
    refine ⟨record.attach host signals threadRef createdAt, ?_, hscope, ?_⟩
    · rw [get_attached, if_pos rfl, hget, Option.map_some]
    · simp [WorkstreamRecord.covers, WorkstreamRecord.attach, WorkstreamRecord.mergeSignals,
        Finset.subset_union_right]
  · refine ⟨openedRecord host scope signals threadRef createdAt result.workstreamId, ?_, rfl, ?_⟩
    · rw [Table.get_set, if_pos]
      rfl
    · simp [WorkstreamRecord.covers, openedRecord]
  · exact absurd hunknown hstage

end Signals

theorem Assignment.assigns_iff_hasPlace (host : Host) (registry : Registry) (item : Assignment)
    (hcontainer : item.scope.containerRef ≠ "") :
    item.Assigns host registry ↔ item.HasPlace host registry := by
  constructor
  · rintro ⟨after, result, hcall, -⟩
    by_contra hplace
    simp only [HasPlace, not_or, not_not, Bool.not_eq_false] at hplace
    obtain ⟨hnone, hstrong, hopened⟩ := hplace
    have hraises : assignWorkstreamForItem host item.scope item.signals item.threadRef
        item.createdAt registry = none :=
      assign_eq_none_iff.mpr ⟨(choose_eq_openNew_iff hnone).mpr ⟨hopened, hstrong⟩,
        by rw [ItemSignals.resolvedId, if_pos hnone]⟩
    rw [call, hraises] at hcall
    cases hcall
  · intro hplace
    cases hassign : assignWorkstreamForItem host item.scope item.signals item.threadRef
        item.createdAt registry with
    | none =>
      obtain ⟨hchoose, hid⟩ := assign_eq_none_iff.mp hassign
      have hnone : item.signals.forId host = ∅ := by
        by_contra hsome
        rw [ItemSignals.resolvedId, if_neg hsome] at hid
        cases hid
      obtain ⟨hopened, hstrong⟩ := (choose_eq_openNew_iff hnone).mp hchoose
      rcases hplace with hsome | hweak | hother
      · exact absurd hnone hsome
      · rw [hstrong] at hweak
        cases hweak
      · exact absurd hopened hother
    | some assigned =>
      obtain ⟨after, result⟩ := assigned
      refine ⟨after, result, ?_, assigned_covers hassign⟩
      rw [call, hassign]
      simp [hcontainer]

/-- After any assignments from the empty registry, a further one returns and leaves the item
in the workstream it joins or opens exactly when the item has a place. -/
theorem assignments_total_iff (host : Host) (earlier : List Assignment) (item : Assignment)
    (hcontainer : item.scope.containerRef ≠ "") :
    item.Assigns host (earlier.foldl (Assignment.apply host) Table.empty) ↔
      item.HasPlace host (earlier.foldl (Assignment.apply host) Table.empty) :=
  item.assigns_iff_hasPlace host _ hcontainer

/-- The signals of a text that runs the tests. -/
def commandItem : Assignment := ⟨⟨"repo:a", "private"⟩, ⟨∅, ∅, ∅, {"tests"}, ∅, ∅⟩, none, 0⟩

theorem assignments_total_iff_symbol :
    Assignment.Assigns exampleHost ([commandItem].foldl (Assignment.apply exampleHost) Table.empty)
      { commandItem with signals := symbolSignals {"PackageQueue"} } :=
  (assignments_total_iff exampleHost [commandItem]
    { commandItem with signals := symbolSignals {"PackageQueue"} } (by decide)).mpr
    (Or.inl (by decide))

/-- A command alone raises where no workstream is open. -/
theorem command_opens_nothing :
    ¬ ∀ (host : Host) (earlier : List Assignment) (item : Assignment),
      item.scope.containerRef ≠ "" →
        item.Assigns host (earlier.foldl (Assignment.apply host) Table.empty) := by
  intro htotal
  have hplace := (commandItem.assigns_iff_hasPlace exampleHost Table.empty (by decide)).mp
    (htotal exampleHost [] commandItem (by decide))
  revert hplace
  rw [Assignment.HasPlace]
  decide

end Pallium.Workstreams
