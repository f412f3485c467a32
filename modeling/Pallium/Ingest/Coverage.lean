import Pallium.Access.Filters
import Pallium.Core.Sql
import Pallium.Ingest.Attribution

/-!
# Coverage of relay attribution

A search by relay name reports whether some row that the requester may see has no
settled attribution.  The query for such a row states the visibility of a row a
second time, over the columns as they are stored.  Every stored row has a
visibility, and its work references are those of its metadata, so the query finds
a row exactly if the decoded item matches the filters and is visible.
-/

namespace Pallium.Ingest

open Pallium.Access Pallium.Calls Pallium.Run Pallium.Sql

/-- The requester and the field filters of `has_incomplete_source_attribution`. -/
structure CoverageQuery where
  containerRef : String
  queryVisibility : Option Visibility
  queryActorRef : Option String
  sourceType : Option String
  role : Option String
  artifactKind : Option String
  threadRef : Option String
  actorRef : Option String
  workRefs : List String

def toSourceItem (record : SourceItem) : SourceItem :=
  { record with visibility := some (record.visibility.getD .priv) }

def sourceItemMatchesFilters (rules : WorkRefRules) (item : SourceItem) (filters : QueryFilters) :
    Bool :=
  (filters.workRefs.isEmpty ||
      filters.workRefs.any (rules.workRefsFromMetadata item.metadata).contains) &&
    agrees filters.sourceType (some item.sourceType) && agrees filters.role item.role &&
    agrees filters.artifactKind item.artifactKind &&
    reachesContainer filters.containerRef item.visibility item.containerRef &&
    agrees filters.threadRef item.threadRef && agrees filters.actorRef item.actorRef &&
    agrees filters.relayName item.relayName

namespace CoverageQuery

/-- The field filters as filters of a search. -/
def filters (query : CoverageQuery) : QueryFilters where
  sourceType := query.sourceType
  role := query.role
  artifactKind := query.artifactKind
  containerRef := none
  threadRef := query.threadRef
  actorRef := query.actorRef
  workRefs := query.workRefs
  relayName := none

/-- The clause of a filter that is set. -/
def filterClause (filter column : Option String) : List Condition :=
  filter.toList.map fun value => equals column (some value)

def workRefClause (query : CoverageQuery) (workRefs : List SourceItemWorkRef)
    (row : SourceItem) : List Condition :=
  if query.workRefs.isEmpty then []
  else
    [some (workRefs.any fun reference =>
      reference.sourceItemId == row.id && query.workRefs.contains reference.workRef)]

/-- The clauses one of which a visible row meets. -/
def visibleClauses (query : CoverageQuery) (row : SourceItem) : List Condition :=
  let publicClause := both (equals row.visibility (some .pub)) (isNull row.actorRef)
  let globalClause := query.queryActorRef.toList.map fun queryActorRef =>
    both (equals row.visibility (some .global)) (equals row.actorRef (some queryActorRef))
  match query.queryVisibility with
  | some .pub => globalClause ++ [publicClause]
  | some .container =>
    globalClause ++
      [publicClause,
        both (equals row.containerRef (some query.containerRef))
          (notOneOf row.visibility [.priv, .global])]
  | _ =>
    globalClause ++
      [publicClause,
        both (equals row.containerRef (some query.containerRef))
          (differs row.visibility (some .global))]

/-- The `WHERE` clause of the statement. -/
def condition (query : CoverageQuery) (workRefs : List SourceItemWorkRef) (row : SourceItem) :
    Condition :=
  allOf ([oneOf (some row.relayAttributionState) [.unknown, .unavailable],
      isNull row.forgottenAt] ++
    filterClause query.sourceType (some row.sourceType) ++ filterClause query.role row.role ++
    filterClause query.artifactKind row.artifactKind ++
    filterClause query.threadRef row.threadRef ++ filterClause query.actorRef row.actorRef ++
    query.workRefClause workRefs row ++ [anyOf (query.visibleClauses row)])

end CoverageQuery

def hasIncompleteSourceAttribution (storage : Storage) (query : CoverageQuery) : Bool :=
  storage.sourceItems.rows.any fun row =>
    decide (query.condition storage.workRefs row).Holds

section Statement

variable {query : CoverageQuery} {workRefs : List SourceItemWorkRef} {row : SourceItem}
  {rules : WorkRefRules}

theorem filterClause_holds_iff {filter column : Option String} :
    (∀ clause ∈ CoverageQuery.filterClause filter column, clause.Holds) ↔ agrees filter column := by
  cases filter with
  | none => exact iff_of_true nofun rfl
  | some value => simp [CoverageQuery.filterClause, agrees]

theorem workRefClause_holds_iff
    (hworkRefs : ∀ workRef, ⟨row.id, workRef⟩ ∈ workRefs ↔
      workRef ∈ rules.workRefsFromMetadata row.metadata) :
    (∀ clause ∈ query.workRefClause workRefs row, clause.Holds) ↔
      query.workRefs.isEmpty ||
        query.workRefs.any (rules.workRefsFromMetadata row.metadata).contains := by
  unfold CoverageQuery.workRefClause
  by_cases hempty : query.workRefs.isEmpty
  · rw [if_pos hempty, hempty]
    exact iff_of_true nofun rfl
  · rw [if_neg hempty, Bool.eq_false_iff.mpr hempty, Bool.false_or, List.forall_mem_singleton,
      Condition.Holds, Option.some.injEq, List.any_eq_true, List.any_eq_true]
    constructor
    · rintro ⟨⟨sourceItemId, workRef⟩, hmem, hfound⟩
      rw [Bool.and_eq_true, beq_iff_eq, List.contains_iff_mem] at hfound
      obtain ⟨rfl, hwanted⟩ := hfound
      exact ⟨workRef, hwanted, List.contains_iff_mem.mpr ((hworkRefs workRef).mp hmem)⟩
    · rintro ⟨workRef, hwanted, hfound⟩
      refine ⟨_, (hworkRefs workRef).mpr (List.contains_iff_mem.mp hfound), ?_⟩
      rw [Bool.and_eq_true, beq_iff_eq, List.contains_iff_mem]
      exact ⟨rfl, hwanted⟩

theorem visibleClauses_holds_iff {visibility : Visibility} (hrow : row.visibility = some visibility) :
    (anyOf (query.visibleClauses row)).Holds ↔
      isVisible (some visibility) row.containerRef (some query.containerRef) row.actorRef
        query.queryVisibility query.queryActorRef := by
  rw [holds_anyOf]
  unfold CoverageQuery.visibleClauses isVisible
  rw [hrow]
  rcases query.queryVisibility with _ | _ | _ | _ | _ <;>
    rcases query.queryActorRef with _ | queryActorRef <;>
      rcases row.actorRef with _ | actorRef <;> rcases row.containerRef with _ | containerRef <;>
        cases visibility <;> simp

/-- The statement selects a row exactly if its item matches and is visible. -/
theorem condition_holds_iff
    (hvisible : row.visibility.isSome)
    (hworkRefs : ∀ workRef, ⟨row.id, workRef⟩ ∈ workRefs ↔
      workRef ∈ rules.workRefsFromMetadata row.metadata) :
    (query.condition workRefs row).Holds ↔
      ((toSourceItem row).relayAttributionState = .unknown ∨
          (toSourceItem row).relayAttributionState = .unavailable) ∧
        (toSourceItem row).forgottenAt = none ∧
        sourceItemMatchesFilters rules (toSourceItem row) query.filters ∧
        isVisible (toSourceItem row).visibility (toSourceItem row).containerRef
          (some query.containerRef) (toSourceItem row).actorRef query.queryVisibility
          query.queryActorRef := by
  obtain ⟨visibility, hrow⟩ := Option.isSome_iff_exists.mp hvisible
  have hclauses := @visibleClauses_holds_iff query row visibility hrow
  have hreferences := @workRefClause_holds_iff query workRefs row rules hworkRefs
  have hstate : (oneOf (some row.relayAttributionState)
      [AttributionState.unknown, .unavailable]).Holds ↔
        row.relayAttributionState = .unknown ∨ row.relayAttributionState = .unavailable := by
    simp
  rw [CoverageQuery.condition, holds_allOf]
  simp only [List.forall_mem_append, List.forall_mem_cons, filterClause_holds_iff, hreferences,
    hclauses, hrow, Option.getD_some, hstate, holds_isNull, sourceItemMatchesFilters,
    CoverageQuery.filters, toSourceItem, reachesContainer, agrees_none, Bool.and_eq_true,
    Option.isNone_none, Bool.true_or, List.not_mem_nil, false_implies, implies_true, and_true]
  tauto

end Statement

/-- Every row has a visibility, and the rows of its work references are those of its
metadata. -/
structure CoverageInvariant (rules : WorkRefRules) (storage : Storage) : Prop where
  visible : ∀ row ∈ storage.sourceItems.rows, row.visibility.isSome
  workRefs : ∀ row ∈ storage.sourceItems.rows, ∀ workRef,
    ⟨row.id, workRef⟩ ∈ storage.workRefs ↔ workRef ∈ rules.workRefsFromMetadata row.metadata

section Invariant

variable {rules : WorkRefRules} {storage after : Storage} {item : SourceItem}
  {packageNames skipPackages : List String}

theorem CoverageInvariant.empty : CoverageInvariant rules Storage.empty where
  visible := List.forall_mem_nil _
  workRefs := List.forall_mem_nil _

theorem CoverageInvariant.of_eq (hinvariant : CoverageInvariant rules storage)
    (hitems : after.sourceItems = storage.sourceItems) (hrefs : after.workRefs = storage.workRefs) :
    CoverageInvariant rules after where
  visible row hmem := hinvariant.visible row (hitems ▸ hmem)
  workRefs row hmem := by
    rw [hrefs]
    exact hinvariant.workRefs row (hitems ▸ hmem)

theorem CoverageInvariant.forgets (hinvariant : CoverageInvariant rules storage)
    (forget : Forget) : CoverageInvariant rules (forget.apply storage) where
  visible row hmem := by
    obtain ⟨origin, horigin, forgottenAt, rfl⟩ := Forget.origin hmem
    exact hinvariant.visible origin horigin
  workRefs row hmem := by
    obtain ⟨origin, horigin, forgottenAt, rfl⟩ := Forget.origin hmem
    have hrefs : (forget.apply storage).workRefs = storage.workRefs := by
      cases forget <;> rfl
    rw [hrefs]
    exact hinvariant.workRefs origin horigin

theorem mem_syncSourceItemWorkRefs_iff {sourceItemId : String} {metadata : Option Json}
    {workRefs : List SourceItemWorkRef} {row : SourceItemWorkRef} :
    row ∈ Storage.syncSourceItemWorkRefs rules sourceItemId metadata workRefs ↔
      if row.sourceItemId = sourceItemId then
        row.workRef ∈ rules.workRefsFromMetadata metadata
      else row ∈ workRefs := by
  obtain ⟨rowId, workRef⟩ := row
  simp only [Storage.syncSourceItemWorkRefs, List.mem_append, List.mem_filter, bne_iff_ne, List.mem_map,
    SourceItemWorkRef.mk.injEq]
  by_cases hrow : rowId = sourceItemId
  · simp [hrow]
  · simp [hrow, Ne.symm hrow]

theorem workRefs_of_created {now : ℤ}
    (hcreated : storage.createSourceItemWithPackages rules item packageNames skipPackages now =
      .ok after) :
    after.workRefs =
      Storage.syncSourceItemWorkRefs rules item.id item.metadata storage.workRefs := by
  unfold Storage.createSourceItemWithPackages at hcreated
  split at hcreated
  · cases hcreated
  · split at hcreated
    · cases hcreated
    · split at hcreated
      · cases hcreated
      · split at hcreated
        · cases hcreated
        · cases hcreated
          rfl

theorem CoverageInvariant.created (hinvariant : CoverageInvariant rules storage) {now : ℤ}
    (hcreated : storage.createSourceItemWithPackages rules item packageNames skipPackages now =
      .ok after) : CoverageInvariant rules after := by
  obtain ⟨-, -, hinsert, -, -⟩ := createSourceItemWithPackages_eq_ok hcreated
  have hrefs := workRefs_of_created hcreated
  have hrows : ∀ row ∈ after.sourceItems.rows, row = item.record ∨
      row.id ≠ item.id ∧ row ∈ storage.sourceItems.rows := by
    intro row hmem
    have hget := Table.get_of_mem hmem
    rw [Table.get_insertNew hinsert] at hget
    split at hget
    · exact Or.inl (Option.some.inj hget).symm
    · next hne => exact Or.inr ⟨hne, Table.mem_of_get hget⟩
  refine ⟨fun row hmem => ?_, fun row hmem workRef => ?_⟩
  · rcases hrows row hmem with rfl | ⟨-, hold⟩
    · cases hvisibility : item.visibility <;> simp [SourceItem.record, hvisibility]
    · exact hinvariant.visible row hold
  · rw [hrefs, mem_syncSourceItemWorkRefs_iff]
    rcases hrows row hmem with rfl | ⟨hne, hold⟩
    · exact iff_of_eq (if_pos rfl)
    · rw [if_neg hne]
      exact hinvariant.workRefs row hold workRef

theorem CoverageInvariant.answered (hinvariant : CoverageInvariant rules storage)
    (request : Request) : CoverageInvariant rules (answer rules request storage).1 := by
  rcases answer_cases request storage with ⟨hitems, hrefs⟩ | ⟨_, _, _, _, -, hcreated⟩
  · exact hinvariant.of_eq hitems hrefs
  · exact hinvariant.created hcreated

theorem history_coverage (setup : Setup) (ops : List HistoryOp) :
    CoverageInvariant setup.toWorkRefRules (history setup ops).state := by
  apply @run_invariant _ _ _ (fun current : History =>
    CoverageInvariant setup.toWorkRefRules current.state)
  · exact CoverageInvariant.empty
  · intro current op hcurrent
    apply Shared.step_invariant
    · exact fun request storage hinvariant => hinvariant.answered request
    · exact fun forget storage hinvariant => hinvariant.forgets forget
    · exact hcurrent

end Invariant

/-- The report on incomplete attribution.  In every history of ingests and forgets
it is given exactly if some item that is not forgotten and has no settled
attribution matches the filters and is visible to the requester. -/
theorem incomplete_attribution_iff (setup : Setup) (ops : List HistoryOp)
    (query : CoverageQuery) :
    hasIncompleteSourceAttribution (history setup ops).state query ↔
      ∃ row ∈ (history setup ops).state.sourceItems.rows,
        ((toSourceItem row).relayAttributionState = .unknown ∨
            (toSourceItem row).relayAttributionState = .unavailable) ∧
          (toSourceItem row).forgottenAt = none ∧
          sourceItemMatchesFilters setup.toWorkRefRules (toSourceItem row) query.filters ∧
          isVisible (toSourceItem row).visibility (toSourceItem row).containerRef
            (some query.containerRef) (toSourceItem row).actorRef query.queryVisibility
            query.queryActorRef := by
  have hcoverage := history_coverage setup ops
  simp only [hasIncompleteSourceAttribution, List.any_eq_true, decide_eq_true_eq]
  apply exists_congr
  intro row
  apply and_congr_right
  intro hmem
  exact condition_holds_iff (hcoverage.visible row hmem) (hcoverage.workRefs row hmem)

end Pallium.Ingest
