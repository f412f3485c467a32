import Pallium.Expansion.Pages

/-!
# The context that the service returns

The service takes the turns around the anchor in the order of their creation, leaves
out what the caller may not see, and fills a character budget from the nearest turn
outwards on both sides.
-/

namespace Pallium.Expansion

/-- A stored turn, as far as its context is concerned. -/
structure SourceRow where
  sourceItemId : String
  createdAt : ℤ
  containerRef : Option String
  threadRef : Option String
  role : Option String
  occurredAt : Option String
  deriving DecidableEq, Repr

/-- `(created_at, id)`. -/
def SourceRow.key (row : SourceRow) : ℤ ×ₗ String := toLex (row.createdAt, row.sourceItemId)

/-- What the service decides about a row: whether the caller sees it, its content after
redaction, and what is known of its history. -/
structure SourceAccess where
  keep : SourceRow → Bool
  content : SourceRow → String
  recordedAt : SourceRow → Option String
  recordedAtSource : SourceRow → Option String
  updates : SourceRow → List GuidanceUpdate
  updatesOmitted : SourceRow → ℕ

namespace SourceAccess

variable (access : SourceAccess)

/-- A row of the response. -/
def turn (anchorId : String) (row : SourceRow) : SourceTurn where
  sourceItemId := row.sourceItemId
  isAnchor := row.sourceItemId == anchorId
  role := row.role
  occurredAt := row.occurredAt
  recordedAt := access.recordedAt row
  recordedAtSource := access.recordedAtSource row
  historicalUpdates := access.updates row
  historicalUpdatesOmitted := access.updatesOmitted row
  content := access.content row

/-- `len(item.content)`. -/
def length (row : SourceRow) : ℤ := (access.content row).length

end SourceAccess

/-- The rows of the anchor's thread. -/
def SourceRow.beside (anchor row : SourceRow) : Bool :=
  row.containerRef == anchor.containerRef && row.threadRef == anchor.threadRef

/-- `list_source_item_neighbors`, both sides in ascending order. -/
def listSourceItemNeighbors (rows : List SourceRow) (anchor : SourceRow) (before after : ℕ) :
    List SourceRow × List SourceRow :=
  let preceding := rows.filter fun row => anchor.beside row && decide (row.key < anchor.key)
  let following := rows.filter fun row => anchor.beside row && decide (anchor.key < row.key)
  (((preceding.insertionSort fun first later => later.key ≤ first.key).take before).reverse,
    (following.insertionSort fun first later => first.key ≤ later.key).take after)

/-- The turns that fill the budget on one side, and where the side stops. -/
structure Filled where
  preceding : List SourceRow
  following : List SourceRow
  next : Option String
  deriving DecidableEq, Repr

/-- The loop that takes the nearest turns of both sides in turn.  A side ends at the
first turn that does not fit. -/
def fillBudget (access : SourceAccess) (preceding following : List SourceRow) (budget : ℤ) :
    Filled :=
  match preceding, following with
  | [], [] => ⟨[], [], none⟩
  | before :: preceding, [] =>
    if access.length before ≤ budget then
      let rest := fillBudget access preceding [] (budget - access.length before)
      { rest with preceding := before :: rest.preceding }
    else ⟨[], [], none⟩
  | [], after :: following =>
    if access.length after ≤ budget then
      let rest := fillBudget access [] following (budget - access.length after)
      { rest with following := after :: rest.following }
    else ⟨[], [], some after.sourceItemId⟩
  | before :: preceding, after :: following =>
    if access.length before ≤ budget then
      let left := budget - access.length before
      if access.length after ≤ left then
        let rest := fillBudget access preceding following (left - access.length after)
        { rest with
          preceding := before :: rest.preceding
          following := after :: rest.following }
      else
        let rest := fillBudget access preceding [] left
        { rest with preceding := before :: rest.preceding, next := some after.sourceItemId }
    else if access.length after ≤ budget then
      let rest := fillBudget access [] following (budget - access.length after)
      { rest with following := after :: rest.following }
    else ⟨[], [], some after.sourceItemId⟩
termination_by preceding.length + following.length

/-- The most turns of one side. -/
def maxSide : ℤ := 25

/-- The turns around the anchor that are returned. -/
def contextNeighbors (access : SourceAccess) (rows : List SourceRow) (anchor : SourceRow)
    (before after maxChars : ℤ) : Filled :=
  let before := (max 0 (min before maxSide)).toNat
  let after := (max 0 (min after maxSide)).toNat
  if anchor.threadRef.isSome ∧ anchor.containerRef.isSome ∧ (before ≠ 0 ∨ after ≠ 0) then
    let neighbors := listSourceItemNeighbors rows anchor before after
    fillBudget access (neighbors.1.filter access.keep).reverse (neighbors.2.filter access.keep)
      (maxChars - access.length anchor)
  else ⟨[], [], none⟩

/-- `get_source_context` behind the gates of the anchor, with the ordering of the route. -/
def getSourceContext (access : SourceAccess) (rows : List SourceRow) (anchor : SourceRow)
    (before after maxChars : ℤ) (supportedMemories : Option (List SupportedMemory))
    (parentLookupId : Option String) : SourceContext :=
  let filled := contextNeighbors access rows anchor before after maxChars
  let combined := (anchor :: (filled.preceding.reverse ++ filled.following)).insertionSort
    fun first later => first.key ≤ later.key
  { items := combined.map (access.turn anchor.sourceItemId)
    supportedMemories := supportedMemories
    parentLookupId := parentLookupId
    nextSourceItemId := filled.next }

section Filling

variable {access : SourceAccess}

variable {rows : List SourceRow} {anchor : SourceRow} {filled : Filled}

theorem fillBudget_spec (preceding following : List SourceRow) (budget : ℤ) :
    (fillBudget access preceding following budget).preceding <+: preceding ∧
      (fillBudget access preceding following budget).following <+: following := by
  fun_induction fillBudget access preceding following budget with
  | case1 budget => exact ⟨List.prefix_rfl, List.prefix_rfl⟩
  | case2 budget before preceding hfits rest ih =>
    exact ⟨(List.prefix_cons_inj before).mpr ih.1, ih.2⟩
  | case3 budget before preceding hfits => exact ⟨List.nil_prefix, List.nil_prefix⟩
  | case4 budget after following hfits rest ih =>
    exact ⟨ih.1, (List.prefix_cons_inj after).mpr ih.2⟩
  | case5 budget after following hfits => exact ⟨List.nil_prefix, List.nil_prefix⟩
  | case6 budget before preceding after following hbefore left hafter rest ih =>
    exact ⟨(List.prefix_cons_inj before).mpr ih.1, (List.prefix_cons_inj after).mpr ih.2⟩
  | case7 budget before preceding after following hbefore left hafter rest ih =>
    exact ⟨(List.prefix_cons_inj before).mpr ih.1, ih.2.trans List.nil_prefix⟩
  | case8 budget before preceding after following hbefore hafter rest ih =>
    exact ⟨ih.1.trans List.nil_prefix, (List.prefix_cons_inj after).mpr ih.2⟩
  | case9 budget before preceding after following hbefore hafter =>
    exact ⟨List.nil_prefix, List.nil_prefix⟩

theorem fillBudget_next (preceding following : List SourceRow) (budget : ℤ) :
    (fillBudget access preceding following budget).next =
      (following.drop (fillBudget access preceding following budget).following.length
        ).head?.map SourceRow.sourceItemId := by
  fun_induction fillBudget access preceding following budget with
  | case1 budget => rfl
  | case2 budget before preceding hfits rest ih => exact ih
  | case3 budget before preceding hfits => rfl
  | case4 budget after following hfits rest ih => exact ih
  | case5 budget after following hfits => rfl
  | case6 budget before preceding after following hbefore left hafter rest ih => exact ih
  | case7 budget before preceding after following hbefore left hafter rest ih =>
    have hnone : rest.following = [] :=
      List.prefix_nil.mp (@fillBudget_spec access preceding [] left).2
    simp [hnone]
  | case8 budget before preceding after following hbefore hafter rest ih => exact ih
  | case9 budget before preceding after following hbefore hafter => rfl

/-- The turns on both sides of the anchor, in order. -/
structure Beside (rows : List SourceRow) (anchor : SourceRow) (filled : Filled) : Prop where
  preceding_mem : ∀ row ∈ filled.preceding, row ∈ rows ∧ row.key < anchor.key
  following_mem : ∀ row ∈ filled.following, row ∈ rows ∧ anchor.key < row.key
  preceding_sorted : filled.preceding.Pairwise fun first later => later.key < first.key
  following_sorted : filled.following.Pairwise fun first later => first.key < later.key
  next_fresh : ∀ id, filled.next = some id → ∀ row ∈ filled.following, row.sourceItemId ≠ id

theorem row_of_id (hids : (rows.map SourceRow.sourceItemId).Nodup) {first second : SourceRow}
    (hfirst : first ∈ rows) (hsecond : second ∈ rows)
    (hsame : first.sourceItemId = second.sourceItemId) : first = second :=
  List.inj_on_of_nodup_map hids hfirst hsecond hsame

theorem id_of_key {first second : SourceRow} (hsame : first.key = second.key) :
    first.sourceItemId = second.sourceItemId :=
  congrArg (fun key => (ofLex key).2) hsame

instance keyLe_total : Std.Total fun first later : SourceRow => first.key ≤ later.key :=
  ⟨fun first later => le_total first.key later.key⟩

instance keyLe_trans : IsTrans SourceRow fun first later => first.key ≤ later.key :=
  ⟨fun _ _ _ hfirst hlater => hfirst.trans hlater⟩

instance keyGe_total : Std.Total fun first later : SourceRow => later.key ≤ first.key :=
  ⟨fun first later => le_total later.key first.key⟩

instance keyGe_trans : IsTrans SourceRow fun first later => later.key ≤ first.key :=
  ⟨fun _ _ _ hfirst hlater => hlater.trans hfirst⟩

section

variable (hids : (rows.map SourceRow.sourceItemId).Nodup)
include hids

/-- A side of the window holds the nearest of the stored rows that are picked. -/
theorem side_spec {picks : SourceRow → Bool} {order : SourceRow → SourceRow → Prop}
    [DecidableRel order] [Std.Total order] [IsTrans SourceRow order] (count : ℕ) :
    (∀ row ∈ ((rows.filter picks).insertionSort order).take count, row ∈ rows ∧ picks row) ∧
      (((rows.filter picks).insertionSort order).take count).Pairwise fun first later =>
        order first later ∧ first.key ≠ later.key := by
  constructor
  · intro row hrow
    exact List.mem_filter.mp ((List.mem_insertionSort _).mp (List.mem_of_mem_take hrow))
  · have hperm := ((rows.filter picks).perm_insertionSort order).map SourceRow.sourceItemId
    have hnodup := hperm.nodup_iff.mpr (hids.sublist (List.filter_sublist.map _))
    have hsorted := (List.pairwise_insertionSort order (rows.filter picks)).and
      (List.pairwise_map.mp hnodup)
    exact (hsorted.imp fun hboth => ⟨hboth.1, fun hsame => hboth.2 (id_of_key hsame)⟩).sublist
      (List.take_sublist _ _)

theorem beside_contextNeighbors (anchor : SourceRow) (before after maxChars : ℤ) :
    Beside rows anchor (contextNeighbors access rows anchor before after maxChars) := by
  unfold contextNeighbors
  simp only
  split
  · simp only [listSourceItemNeighbors, List.filter_reverse, List.reverse_reverse]
    obtain ⟨hbefore, hdescending⟩ := @side_spec rows hids
      (fun row => anchor.beside row && decide (row.key < anchor.key))
      (fun first later => later.key ≤ first.key) _ _ _ (max 0 (min before maxSide)).toNat
    obtain ⟨hafter, hascending⟩ := @side_spec rows hids
      (fun row => anchor.beside row && decide (anchor.key < row.key))
      (fun first later => first.key ≤ later.key) _ _ _ (max 0 (min after maxSide)).toNat
    generalize List.take _ _ = preceding at *
    generalize List.take _ _ = following at *
    obtain ⟨hpreceding, rest, hfollowing⟩ := @fillBudget_spec access (preceding.filter access.keep)
      (following.filter access.keep) (maxChars - access.length anchor)
    have hnext := @fillBudget_next access (preceding.filter access.keep)
      (following.filter access.keep) (maxChars - access.length anchor)
    generalize fillBudget access _ _ _ = filled at *
    rw [← hfollowing, List.drop_left] at hnext
    have hrest := hascending.sublist (List.filter_sublist (p := access.keep))
    rw [← hfollowing, List.pairwise_append] at hrest
    have hmem : ∀ row ∈ filled.following ++ rest, row ∈ following := fun row hrow =>
      List.mem_of_mem_filter (p := access.keep) (hfollowing ▸ hrow)
    refine ⟨fun row hrow => ?_, fun row hrow => ?_, ?_, ?_, fun id hid row hrow hsame => ?_⟩
    · obtain ⟨hstored, hpicks⟩ := hbefore row (List.mem_of_mem_filter (hpreceding.subset hrow))
      exact ⟨hstored, of_decide_eq_true (Bool.and_eq_true_iff.mp hpicks).2⟩
    · obtain ⟨hstored, hpicks⟩ := hafter row (hmem row (List.mem_append_left _ hrow))
      exact ⟨hstored, of_decide_eq_true (Bool.and_eq_true_iff.mp hpicks).2⟩
    · refine ((hdescending.sublist List.filter_sublist).sublist hpreceding.sublist).imp ?_
      exact fun hboth => lt_of_le_of_ne hboth.1 hboth.2.symm
    · exact hrest.1.imp fun hboth => lt_of_le_of_ne hboth.1 hboth.2
    · obtain ⟨stop, hstop, rfl⟩ := Option.map_eq_some_iff.mp (hnext.symm.trans hid)
      have hbehind := List.mem_of_mem_head? hstop
      have hrow := row_of_id hids (hafter row (hmem row (List.mem_append_left _ hrow))).1
        (hafter stop (hmem stop (List.mem_append_right _ hbehind))).1 hsame
      exact (hrest.2.2 row ‹_› stop hbehind).2 (congrArg SourceRow.key hrow)
  · exact ⟨List.forall_mem_nil _, List.forall_mem_nil _, .nil, .nil, fun id hnone => nomatch hnone⟩

end

theorem Beside.sorted (hbeside : Beside rows anchor filled) :
    (filled.preceding.reverse ++ anchor :: filled.following).Pairwise
      fun first later => first.key < later.key := by
  refine List.pairwise_append.mpr ⟨List.pairwise_reverse.mpr hbeside.preceding_sorted,
    List.pairwise_cons.mpr ⟨fun row hrow => (hbeside.following_mem row hrow).2,
      hbeside.following_sorted⟩, fun row hrow other hother => ?_⟩
  have hbefore := (hbeside.preceding_mem row (List.mem_reverse.mp hrow)).2
  rcases List.mem_cons.mp hother with rfl | hother
  · exact hbefore
  · exact hbefore.trans (hbeside.following_mem other hother).2

theorem Beside.mem_rows (hbeside : Beside rows anchor filled) (hanchor : anchor ∈ rows) :
    ∀ row ∈ filled.preceding.reverse ++ anchor :: filled.following, row ∈ rows := by
  intro row hrow
  rcases List.mem_append.mp hrow with hbefore | hafter
  · exact (hbeside.preceding_mem row (List.mem_reverse.mp hbefore)).1
  · rcases List.mem_cons.mp hafter with rfl | hafter
    · exact hanchor
    · exact (hbeside.following_mem row hafter).1

theorem combined_eq (hids : (rows.map SourceRow.sourceItemId).Nodup) (hanchor : anchor ∈ rows)
    (hbeside : Beside rows anchor filled) :
    (anchor :: (filled.preceding.reverse ++ filled.following)).insertionSort
        (fun first later => first.key ≤ later.key) =
      filled.preceding.reverse ++ anchor :: filled.following := by
  have hperm : List.Perm ((anchor :: (filled.preceding.reverse ++ filled.following)).insertionSort
      fun first later => first.key ≤ later.key)
        (filled.preceding.reverse ++ anchor :: filled.following) :=
    (List.perm_insertionSort _ _).trans List.perm_middle.symm
  have hmem := hbeside.mem_rows hanchor
  refine List.Perm.eq_of_pairwise (fun first second hfirst hsecond hle hge => ?_)
    (List.pairwise_insertionSort _ _) (hbeside.sorted.imp le_of_lt) hperm
  exact row_of_id hids (hmem first (hperm.subset hfirst)) (hmem second hsecond)
    (id_of_key (le_antisymm hle hge))

/-- The context of a stored anchor shows it once among distinct turns, and continues with a
turn that it does not show. -/
theorem exists_anchoredContext (hids : (rows.map SourceRow.sourceItemId).Nodup)
    (hanchor : anchor ∈ rows) (before after maxChars : ℤ)
    (supportedMemories : Option (List SupportedMemory)) (parentLookupId : Option String) :
    ∃ context : AnchoredContext, context.toContext =
      getSourceContext access rows anchor before after maxChars supportedMemories
        parentLookupId := by
  have hbeside := @beside_contextNeighbors access rows hids anchor before after maxChars
  have hcombined := combined_eq hids hanchor hbeside
  have hmem := hbeside.mem_rows hanchor
  have hother : ∀ row ∈ rows, row.key ≠ anchor.key →
      (access.turn anchor.sourceItemId row).isAnchor = false := by
    intro row hrow hkey
    refine beq_false_of_ne fun hsame => ?_
    rw [row_of_id hids hrow hanchor hsame] at hkey
    exact hkey rfl
  simp only [getSourceContext, hcombined]
  generalize contextNeighbors access rows anchor before after maxChars = filled at *
  have hdistinct : ((filled.preceding.reverse ++ anchor :: filled.following).map
      SourceRow.sourceItemId).Nodup := by
    refine List.pairwise_map.mpr (hbeside.sorted.imp_of_mem fun hfirst hlater hless hsame => ?_)
    have hrow := row_of_id hids (hmem _ hfirst) (hmem _ hlater) hsame
    exact absurd (hrow ▸ hless) (lt_irrefl _)
  refine ⟨
    { preceding := filled.preceding.reverse.map (access.turn anchor.sourceItemId)
      anchor := access.turn anchor.sourceItemId anchor
      following := filled.following.map (access.turn anchor.sourceItemId)
      supportedMemories := supportedMemories
      parentLookupId := parentLookupId
      nextSourceItemId := filled.next
      anchored := beq_self_eq_true _
      unanchored := fun turn hturn => ?_
      distinct := ?_
      fresh := fun id hid hfound => ?_ }, ?_⟩
  · rw [← List.map_append] at hturn
    obtain ⟨row, hrow, rfl⟩ := List.mem_map.mp hturn
    rcases List.mem_append.mp hrow with hbefore | hafter
    · obtain ⟨hstored, hless⟩ := hbeside.preceding_mem row (List.mem_reverse.mp hbefore)
      exact hother row hstored hless.ne
    · obtain ⟨hstored, hless⟩ := hbeside.following_mem row hafter
      exact hother row hstored hless.ne'
  · rw [← List.map_cons, ← List.map_append, List.map_map]
    exact hdistinct
  · obtain ⟨turn, hturn, hsame⟩ := List.mem_map.mp hfound
    obtain ⟨row, hrow, rfl⟩ := List.mem_map.mp hturn
    exact hbeside.next_fresh id hid row hrow hsame
  · simp only [AnchoredContext.toContext, List.map_append, List.map_cons]

end Filling

section Example

/-- The turns of a thread, the latest first. -/
def exampleRows : List SourceRow :=
  [⟨"source-2", 1, some "repo:a", some "thread", some "assistant", none⟩,
    ⟨"source-1", 0, some "repo:a", some "thread", some "user", none⟩]

/-- A caller who sees every turn. -/
def exampleAccess : SourceAccess where
  keep _ := true
  content _ := "text"
  recordedAt _ := none
  recordedAtSource _ := none
  updates _ := []
  updatesOmitted _ := 0

/-- The context of the later turn. -/
theorem exists_anchoredContext_later :
    ∃ context : AnchoredContext, context.toContext =
      getSourceContext exampleAccess exampleRows
        ⟨"source-2", 1, some "repo:a", some "thread", some "assistant", none⟩ 1 1 100 none none :=
  exists_anchoredContext (by decide) (by decide) 1 1 100 none none

end Example

end Pallium.Expansion
