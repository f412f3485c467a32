import Pallium.Access.ContainerRef
import Pallium.Expansion.Source
import Pallium.Memory.Retrieval

/-!
# The neighbourhood of an anchor

The requester reaches an anchor only behind its gates.  Of the window that is fetched
around it, the turns that the requester may see are eligible, and each side delivers the
eligible turns from the nearest one on, as far as the budget of both sides goes.
-/

namespace Pallium.Expansion

open Access Memory Text

/-- The other columns of a stored turn. -/
structure SourceColumns where
  forgottenAt : SourceRow → Option ℤ
  visibility : SourceRow → Option Visibility
  actorRef : SourceRow → Option String
  artifactKind : SourceRow → Option String
  content : SourceRow → String

instance : Keyed SourceRow String := ⟨SourceRow.sourceItemId⟩

/-- What `get_source_context` returns of the anchor and its thread. -/
structure SourceNeighborhood where
  anchor : SourceRow
  neighbors : List SourceRow
  nextSourceItemId : Option String
  deriving DecidableEq, Repr

/-- The error of a turn that does not exist for the requester. -/
structure MissingSource where
  sourceItemId : String
  deriving DecidableEq, Repr

section Reading

variable (columns : SourceColumns) (redactSensitive : String → String)

/-- The content after redaction; a note is shown as it is. -/
def redactedContent (row : SourceRow) : String :=
  if columns.artifactKind row = some "note" ∨ columns.content row = "" then columns.content row
  else redactSensitive (columns.content row)

def sees (requester : Requester) (containerRef : Option String) (row : SourceRow) : Bool :=
  isVisible (some ((columns.visibility row).getD .priv)) row.containerRef containerRef
    (columns.actorRef row) requester.visibility requester.actorRef

/-- The checks that the anchor and its neighbours share. -/
def keeps (requester : Requester) (containerRef : Option String) (row : SourceRow) : Bool :=
  if (columns.forgottenAt row).isSome then false
  else if requester.actorRef.isSome ∧ columns.actorRef row ≠ requester.actorRef then false
  else sees columns requester containerRef row

/-- `container_ref or anchor.container_ref`. -/
def effectiveContainer (containerRef : Option String) (anchor : SourceRow) : Option String :=
  (containerRef.filter (· ≠ "")).or anchor.containerRef

/-- The gate of the anchor. -/
def admitsAnchor (requester : Requester) (containerRef : Option String) (anchor : SourceRow) :
    Bool :=
  if containerRef.isSome ∧ (columns.visibility anchor).getD .priv ≠ .pub ∧
      anchor.containerRef ≠ containerRef then false
  else keeps columns requester (effectiveContainer containerRef anchor) anchor

def sourceAccess (requester : Requester) (containerRef : Option String) : SourceAccess where
  keep := keeps columns requester containerRef
  content := redactedContent columns redactSensitive
  recordedAt _ := none
  recordedAtSource _ := none
  updates _ := []
  updatesOmitted _ := 0

/-- `get_source_context`, as far as the anchor and its neighbours are concerned. -/
def readSourceContext (cases : CaseTable) (rows : Table SourceRow) (requester : Requester)
    (sourceItemId : String) (before after maxChars : ℤ) :
    Except MissingSource SourceNeighborhood :=
  let containerRef := canonicalizeContainerRef cases requester.containerRef
  match rows.get sourceItemId with
  | none => .error ⟨sourceItemId⟩
  | some anchor =>
    if admitsAnchor columns requester containerRef anchor then
      let access := sourceAccess columns redactSensitive requester
        (effectiveContainer containerRef anchor)
      let filled := contextNeighbors access rows.rows anchor before after maxChars
      .ok ⟨anchor, filled.preceding.reverse ++ filled.following, filled.next⟩
    else .error ⟨sourceItemId⟩

/-- The turns fetched on both sides of the anchor, in ascending order. -/
def fetchedWindow (rows : Table SourceRow) (anchor : SourceRow) (before after : ℤ) :
    List SourceRow × List SourceRow :=
  if anchor.threadRef.isSome ∧ anchor.containerRef.isSome then
    listSourceItemNeighbors rows.rows anchor (max 0 (min before maxSide)).toNat
      (max 0 (min after maxSide)).toNat
  else ([], [])

/-- A turn that the requester may be shown. -/
structure Eligible (requester : Requester) (containerRef : Option String) (row : SourceRow) :
    Prop where
  unforgotten : columns.forgottenAt row = none
  actor : ∀ actorRef, requester.actorRef = some actorRef → columns.actorRef row = some actorRef
  visible : sees columns requester containerRef row

/-- An anchor that the requester may reach: an eligible turn, and one of the requested
container unless it is public. -/
structure Admitted (requester : Requester) (containerRef : Option String) (anchor : SourceRow) :
    Prop where
  eligible : Eligible columns requester (effectiveContainer containerRef anchor) anchor
  container : ∀ container, containerRef = some container →
    columns.visibility anchor = some .pub ∨ anchor.containerRef = some container

/-- The neighbours of an anchor: on each side a run of the eligible turns of the window from
the one nearest the anchor, in order and within the budget that the anchor leaves; and the
first eligible turn behind it that is left out. -/
structure Neighborhood (rows : Table SourceRow) (requester : Requester)
    (containerRef : Option String) (anchor : SourceRow) (before after maxChars : ℤ)
    (context : SourceNeighborhood) (preceding following : List SourceRow) : Prop where
  returned : context.anchor = anchor
  listed : context.neighbors = preceding ++ following
  eligible : ∀ row ∈ context.neighbors, Eligible columns requester containerRef row
  run_before : preceding <:+
    (fetchedWindow rows anchor before after).1.filter (keeps columns requester containerRef)
  run_after : following <+:
    (fetchedWindow rows anchor before after).2.filter (keeps columns requester containerRef)
  ordered : (preceding ++ anchor :: following).Pairwise fun first later => first.key < later.key
  within : (context.neighbors.map fun row =>
      ((redactedContent columns redactSensitive row).length : ℤ)).sum ≤
    max 0 (maxChars - (redactedContent columns redactSensitive anchor).length)
  next : context.nextSourceItemId =
    (((fetchedWindow rows anchor before after).2.filter (keeps columns requester containerRef)
      ).drop following.length).head?.map SourceRow.sourceItemId

end Reading

section Filling

variable {access : SourceAccess}

/-- The characters of some turns. -/
def totalLength (access : SourceAccess) (rows : List SourceRow) : ℤ :=
  (rows.map access.length).sum

@[simp]
theorem totalLength_nil : totalLength access [] = 0 := rfl

@[simp]
theorem totalLength_cons (row : SourceRow) (rows : List SourceRow) :
    totalLength access (row :: rows) = access.length row + totalLength access rows := by
  rw [totalLength, List.map_cons, List.sum_cons, totalLength]

theorem fillBudget_within (preceding following : List SourceRow) (budget : ℤ) :
    totalLength access (fillBudget access preceding following budget).preceding +
      totalLength access (fillBudget access preceding following budget).following ≤
        max 0 budget := by
  have hlength : ∀ row, 0 ≤ access.length row := fun row => Int.natCast_nonneg _
  fun_induction fillBudget access preceding following budget with
  | case1 budget => simp
  | case2 budget before preceding hfits rest ih =>
    have hbefore := hlength before
    simp only [totalLength_cons, rest]
    omega
  | case3 budget before preceding hfits => simp
  | case4 budget after following hfits rest ih =>
    have hafter := hlength after
    simp only [totalLength_cons, rest]
    omega
  | case5 budget after following hfits => simp
  | case6 budget before preceding after following hbefore left hafter rest ih =>
    have hleft : left = budget - access.length before := rfl
    have hfirst := hlength before
    have hsecond := hlength after
    simp only [totalLength_cons, rest]
    omega
  | case7 budget before preceding after following hbefore left hafter rest ih =>
    have hleft : left = budget - access.length before := rfl
    have hfirst := hlength before
    simp only [totalLength_cons, rest]
    omega
  | case8 budget before preceding after following hbefore hafter rest ih =>
    have hsecond := hlength after
    simp only [totalLength_cons, rest]
    omega
  | case9 budget before preceding after following hbefore hafter => simp

end Filling

section Context

variable {columns : SourceColumns} {redactSensitive : String → String} {requester : Requester}
  {containerRef : Option String}

theorem keeps_iff {row : SourceRow} :
    keeps columns requester containerRef row ↔ Eligible columns requester containerRef row := by
  rw [keeps]
  constructor
  · intro hkeeps
    split at hkeeps
    · exact nomatch hkeeps
    · rename_i hforgotten
      split at hkeeps
      · exact nomatch hkeeps
      · rename_i hactor
        refine ⟨by simpa using hforgotten, fun actorRef hrequester => ?_, hkeeps⟩
        by_contra hother
        exact hactor ⟨by simp [hrequester], by rwa [hrequester]⟩
  · rintro ⟨hforgotten, hactor, hvisible⟩
    rw [if_neg (by simp [hforgotten]), if_neg, hvisible]
    rintro ⟨hsome, hother⟩
    obtain ⟨actorRef, hrequester⟩ := Option.isSome_iff_exists.1 hsome
    exact hother (by rw [hrequester, hactor actorRef hrequester])

theorem admitsAnchor_iff {anchor : SourceRow} :
    admitsAnchor columns requester containerRef anchor ↔
      Admitted columns requester containerRef anchor := by
  rw [admitsAnchor]
  constructor
  · intro hadmits
    split at hadmits
    · exact nomatch hadmits
    · rename_i hgate
      refine ⟨keeps_iff.1 hadmits, fun container hcontainer => ?_⟩
      by_contra hother
      rw [not_or] at hother
      refine hgate ⟨by simp [hcontainer], fun hpublic => hother.1 ?_, by
        rw [hcontainer]; exact hother.2⟩
      rcases hvisibility : columns.visibility anchor with _ | visibility
      · rw [hvisibility] at hpublic
        exact nomatch hpublic
      · rw [hvisibility] at hpublic
        exact congrArg some hpublic
  · rintro ⟨heligible, hcontainer⟩
    rw [if_neg, keeps_iff.2 heligible]
    rintro ⟨hsome, hprivate, hother⟩
    obtain ⟨container, hgiven⟩ := Option.isSome_iff_exists.1 hsome
    rcases hcontainer container hgiven with hpublic | hsame
    · exact hprivate (by rw [hpublic]; rfl)
    · exact hother (hsame.trans hgiven.symm)

section

variable (access : SourceAccess) (rows : Table SourceRow) (anchor : SourceRow)
  (before after maxChars : ℤ)

theorem contextNeighbors_eq :
    contextNeighbors access rows.rows anchor before after maxChars =
      fillBudget access
        ((fetchedWindow rows anchor before after).1.filter access.keep).reverse
        ((fetchedWindow rows anchor before after).2.filter access.keep)
        (maxChars - access.length anchor) := by
  have hnone : ∀ budget, fillBudget access [] [] budget = ⟨[], [], none⟩ := fun budget => by
    rw [fillBudget]
  rw [contextNeighbors, fetchedWindow]
  by_cases hthread : anchor.threadRef.isSome ∧ anchor.containerRef.isSome
  · rw [if_pos hthread]
    simp only
    split
    · rfl
    · rename_i hclosed
      have hzero : (max 0 (min before maxSide)).toNat = 0 ∧
          (max 0 (min after maxSide)).toNat = 0 := by
        by_contra hopen
        exact hclosed ⟨hthread.1, hthread.2, not_and_or.1 hopen⟩
      rw [hzero.1, hzero.2, listSourceItemNeighbors]
      simp only [List.take_zero, List.reverse_nil, List.filter_nil, hnone]
  · rw [if_neg hthread]
    simp only
    rw [if_neg fun hopen => hthread ⟨hopen.1, hopen.2.1⟩]
    simp only [List.filter_nil, List.reverse_nil, hnone]

/-- The neighbours are runs of the window, within the budget. -/
theorem contextNeighbors_runs {filled : Filled}
    (hfilled : contextNeighbors access rows.rows anchor before after maxChars = filled) :
    filled.preceding.reverse <:+ (fetchedWindow rows anchor before after).1.filter access.keep ∧
      filled.following <+: (fetchedWindow rows anchor before after).2.filter access.keep ∧
      totalLength access filled.preceding + totalLength access filled.following ≤
        max 0 (maxChars - access.length anchor) ∧
      filled.next = (((fetchedWindow rows anchor before after).2.filter access.keep).drop
        filled.following.length).head?.map SourceRow.sourceItemId := by
  rw [contextNeighbors_eq] at hfilled
  subst hfilled
  obtain ⟨hpreceding, hfollowing⟩ := @fillBudget_spec access
    ((fetchedWindow rows anchor before after).1.filter access.keep).reverse
    ((fetchedWindow rows anchor before after).2.filter access.keep)
    (maxChars - access.length anchor)
  refine ⟨?_, hfollowing, fillBudget_within _ _ _, fillBudget_next _ _ _⟩
  rw [← List.reverse_prefix, List.reverse_reverse]
  exact hpreceding

end

theorem neighborhood_of_filled (redactSensitive : String → String) (rows : Table SourceRow)
    {anchor : SourceRow} (before after maxChars : ℤ) {filled : Filled}
    (hfilled : contextNeighbors (sourceAccess columns redactSensitive requester containerRef)
      rows.rows anchor before after maxChars = filled) :
    Neighborhood columns redactSensitive rows requester containerRef anchor before after maxChars
      ⟨anchor, filled.preceding.reverse ++ filled.following, filled.next⟩
      filled.preceding.reverse filled.following := by
  have hbeside : Beside rows.rows anchor filled :=
    hfilled ▸ beside_contextNeighbors rows.nodup anchor before after maxChars
  obtain ⟨hbefore, hafter, hwithin, hnext⟩ :=
    contextNeighbors_runs _ rows anchor before after maxChars hfilled
  refine ⟨rfl, rfl, ?_, hbefore, hafter, hbeside.sorted, ?_, hnext⟩
  · intro row hrow
    rcases List.mem_append.1 hrow with hfirst | hsecond
    · exact keeps_iff.1 (List.mem_filter.1 (hbefore.subset hfirst)).2
    · exact keeps_iff.1 (List.mem_filter.1 (hafter.subset hsecond)).2
  · rw [List.map_append, List.sum_append, List.map_reverse, List.sum_reverse]
    exact hwithin

/-- An admitted anchor is returned in its neighbourhood, and no other is returned. -/
theorem readSourceContext_neighborhood (columns : SourceColumns)
    (redactSensitive : String → String) (cases : CaseTable) (rows : Table SourceRow)
    (requester : Requester) (sourceItemId : String) (before after maxChars : ℤ) :
    (∃ anchor context preceding following, rows.get sourceItemId = some anchor ∧
      Admitted columns requester (canonicalizeContainerRef cases requester.containerRef) anchor ∧
      readSourceContext columns redactSensitive cases rows requester sourceItemId before after
        maxChars = .ok context ∧
      Neighborhood columns redactSensitive rows requester
        (effectiveContainer (canonicalizeContainerRef cases requester.containerRef) anchor) anchor
        before after maxChars context preceding following) ∨
    readSourceContext columns redactSensitive cases rows requester sourceItemId before after
        maxChars = .error ⟨sourceItemId⟩ ∧
      ∀ anchor, rows.get sourceItemId = some anchor →
        ¬ Admitted columns requester (canonicalizeContainerRef cases requester.containerRef)
          anchor := by
  rw [readSourceContext]
  rcases hfound : rows.get sourceItemId with _ | anchor
  · exact Or.inr ⟨rfl, fun anchor hanchor => nomatch hanchor⟩
  · simp only
    split
    · rename_i hadmits
      exact Or.inl ⟨anchor, _, _, _, rfl, admitsAnchor_iff.1 hadmits, rfl,
        neighborhood_of_filled redactSensitive rows before after maxChars rfl⟩
    · rename_i hdenied
      refine Or.inr ⟨rfl, fun other hother hadmitted => hdenied ?_⟩
      obtain rfl := Option.some.inj hother
      exact admitsAnchor_iff.2 hadmitted

end Context

end Pallium.Expansion
