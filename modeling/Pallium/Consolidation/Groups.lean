import Pallium.Core.Ranking

/-!
# Consolidation groups

Three strategies choose the memories that are synthesised together: those of one thread, a
memory with others about the same topic, and a thread summary with what was decided or
found.  A group deserves it if its types show a pattern.  The first strategy looks for the
pattern before it cuts the group to its size.
-/

namespace Pallium.Consolidation

open Pallium.Ranking

inductive CandidateType
  | threadSummary
  | decision
  | investigationOutcome
  | atomicFact
  | factSummary
  | other (name : String)
  deriving DecidableEq, Repr

/-- A memory with the tokens of its text and the time of its latest evidence. -/
structure Candidate where
  id : String
  type : CandidateType
  createdAt : ℤ
  tokens : Finset String
  containerRef : Option String
  threadRef : Option String
  latestOccurredAt : ℤ
  visibility : Option String
  deriving DecidableEq

structure Policy where
  maxGroupSize : ℕ
  sameContainerRequired : Bool
  timeWindowHours : ℤ
  lexicalOverlapThreshold : ℤ

structure Group where
  strategyName : String
  groupKey : String
  candidates : List Candidate
  containerRef : Option String
  threadRef : Option String
  latestOccurredAt : Option ℤ
  visibility : Option String

/-- The sort key of `_sort_candidates`. -/
def Candidate.recency (candidate : Candidate) : ℤ ×ₗ ℤ ×ₗ String :=
  toLex (candidate.latestOccurredAt, toLex (candidate.createdAt, candidate.id))

def mostRecentFirst (left right : Candidate) : Prop := right.recency ≤ left.recency

instance : DecidableRel mostRecentFirst := fun _ _ => inferInstanceAs (Decidable (_ ≤ _))

def sortCandidates (candidates : List Candidate) : List Candidate :=
  candidates.insertionSort mostRecentFirst

/-- What a thread summary can be synthesised with. -/
def CandidateType.typed (type : CandidateType) : Bool :=
  type = .decision || type = .investigationOutcome || type = .atomicFact

def groupHasPatternSignal (candidates : List Candidate) : Bool :=
  let types := candidates.map Candidate.type
  .threadSummary ∈ types && types.any CandidateType.typed ||
    .decision ∈ types && .investigationOutcome ∈ types

/-- `_hours_between` is over the window of the policy. -/
def beyondWindow (policy : Policy) (left right : Candidate) : Bool :=
  policy.timeWindowHours * 3600000000 < (left.latestOccurredAt - right.latestOccurredAt).natAbs

def lexicalOverlap (left right : Candidate) : ℤ := (left.tokens ∩ right.tokens).card

def visibilityLabel (visibility : Option String) : String :=
  let label := visibility.getD ""
  if label = "" then "missing" else label

/-- `ref or 'none'`. -/
def refLabel (ref : Option String) : String :=
  let label := ref.getD ""
  if label = "" then "none" else label

def latestOf (candidates : List Candidate) : Option ℤ :=
  (candidates.map Candidate.latestOccurredAt).max?

def threadKey (candidate : Candidate) : Option String × Option String × Option String :=
  (candidate.containerRef, candidate.threadRef, candidate.visibility)

/-- The group of the candidates of one thread, cut to its size. -/
def threadGroup (policy : Policy) (containerRef threadRef visibility : Option String)
    (ordered : List Candidate) : Group where
  strategyName := "thread_local_carry_forward"
  groupKey := "thread_local_carry_forward:" ++ visibilityLabel visibility ++ ":" ++
    refLabel containerRef ++ ":" ++ refLabel threadRef
  candidates := ordered.take policy.maxGroupSize
  containerRef := containerRef
  threadRef := threadRef
  latestOccurredAt := latestOf (ordered.take policy.maxGroupSize)
  visibility := visibility

/-- The candidates of a thread, the most recent first. -/
def threadMembers (candidates : List Candidate)
    (thread : Option String × Option String × Option String) : List Candidate :=
  sortCandidates (candidates.filter fun candidate =>
    candidate.threadRef.getD "" ≠ "" && threadKey candidate = thread)

/-- `ThreadLocalCarryForwardStrategy.group_candidates`: the threads in the order in which
they are first seen. -/
def threadLocalCarryForward (policy : Policy) (candidates : List Candidate) : List Group :=
  let threaded := candidates.filter fun candidate => candidate.threadRef.getD "" ≠ ""
  ((firsts threadKey [] threaded).map threadKey).filterMap fun thread =>
    let ordered := threadMembers candidates thread
    if groupHasPatternSignal ordered then
      some (threadGroup policy thread.1 thread.2.1 thread.2.2 ordered)
    else none

/-- The loop over the candidates that may join, which ends at a full group. -/
def gather (fits : Candidate → Bool) (limit : ℕ) (members : List Candidate) :
    List Candidate → List Candidate
  | [] => members
  | candidate :: rest =>
    if fits candidate then
      if limit ≤ members.length then members
      else gather fits limit (members ++ [candidate]) rest
    else gather fits limit members rest

/-- The tests that both clustering strategies make of a candidate. -/
def comparable (policy : Policy) (anchor candidate : Candidate) : Bool :=
  (!policy.sameContainerRequired || candidate.containerRef = anchor.containerRef) &&
    candidate.visibility = anchor.visibility && !beyondWindow policy anchor candidate

def topicFits (policy : Policy) (consumed : List String) (anchor candidate : Candidate) : Bool :=
  candidate.id ≠ anchor.id && candidate.id ∉ consumed && comparable policy anchor candidate &&
    policy.lexicalOverlapThreshold ≤ lexicalOverlap anchor candidate

/-- The members of the group of a topic, the most recent first. -/
def topicGroup (members : List Candidate) (anchor : Candidate) : Group where
  strategyName := "container_topic_window"
  groupKey := "container_topic_window:" ++
    visibilityLabel ((sortCandidates members).headD anchor).visibility ++ ":" ++
    refLabel ((sortCandidates members).headD anchor).containerRef ++ ":" ++
    "|".intercalate ((members.map Candidate.id).insertionSort (· ≤ ·))
  candidates := sortCandidates members
  containerRef := ((sortCandidates members).headD anchor).containerRef
  threadRef := none
  latestOccurredAt := latestOf members
  visibility := ((sortCandidates members).headD anchor).visibility

/-- The number of threads that support a group. -/
def distinctSources (members : List Candidate) : ℕ :=
  (members.map Candidate.threadRef).toFinset.card

/-- The loop of `ContainerTopicWindowStrategy.group_candidates` over the anchors. -/
def topicGroups (policy : Policy) (remaining : List Candidate) (consumed : List String) :
    List Candidate → List Group
  | [] => []
  | anchor :: rest =>
    if anchor.id ∈ consumed then topicGroups policy remaining consumed rest
    else
      let members := gather (topicFits policy consumed anchor) policy.maxGroupSize [anchor] remaining
      if members.length < 2 ∨ distinctSources members < 2 ∨ !groupHasPatternSignal members then
        topicGroups policy remaining consumed rest
      else
        topicGroup members anchor ::
          topicGroups policy remaining (consumed ++ members.map Candidate.id) rest

/-- `ContainerTopicWindowStrategy.group_candidates`. -/
def containerTopicWindow (policy : Policy) (candidates : List Candidate) : List Group :=
  topicGroups policy (sortCandidates candidates) [] (sortCandidates candidates)

def summaryFits (policy : Policy) (anchor candidate : Candidate) : Bool :=
  comparable policy anchor candidate &&
    (candidate.type = .atomicFact && anchor.threadRef.getD "" ≠ "" &&
        anchor.threadRef = candidate.threadRef ||
      policy.lexicalOverlapThreshold ≤ lexicalOverlap anchor candidate)

def summaryGroup (anchor : Candidate) (members : List Candidate) : Group where
  strategyName := "thread_summary_anchored"
  groupKey := "thread_summary_anchored:" ++ visibilityLabel anchor.visibility ++ ":" ++
    refLabel anchor.containerRef ++ ":" ++ anchor.id
  candidates := sortCandidates members
  containerRef := anchor.containerRef
  threadRef := anchor.threadRef
  latestOccurredAt := latestOf members
  visibility := anchor.visibility

/-- `ThreadSummaryAnchoredStrategy.group_candidates`. -/
def threadSummaryAnchored (policy : Policy) (candidates : List Candidate) : List Group :=
  let anchors := candidates.filter fun candidate => candidate.type = .threadSummary
  let typed := candidates.filter fun candidate => candidate.type.typed
  (sortCandidates anchors).filterMap fun anchor =>
    let members := gather (summaryFits policy anchor) policy.maxGroupSize [anchor]
      (sortCandidates typed)
    if members.length < 2 ∨ !groupHasPatternSignal members then none
    else some (summaryGroup anchor members)

/-- What every group should be. -/
structure WellFormed (policy : Policy) (group : Group) : Prop where
  two_le : 2 ≤ group.candidates.length
  length_le : group.candidates.length ≤ policy.maxGroupSize
  distinct : (group.candidates.map Candidate.id).Nodup
  container : ∀ candidate ∈ group.candidates, candidate.containerRef = group.containerRef
  visible : ∀ candidate ∈ group.candidates, candidate.visibility = group.visibility
  signal : groupHasPatternSignal group.candidates = true

/-- No candidate is in two of the groups. -/
def Apart (groups : List Group) : Prop :=
  groups.Pairwise fun left right => ∀ candidate ∈ left.candidates, ∀ other ∈ right.candidates,
    candidate.id ≠ other.id

/-- The groups of the three strategies are well formed, and those of the first two share
no candidate. -/
structure GroupsWellFormed (policy : Policy) (candidates : List Candidate) : Prop where
  threads : ∀ group ∈ threadLocalCarryForward policy candidates, WellFormed policy group
  topics : ∀ group ∈ containerTopicWindow policy candidates, WellFormed policy group
  summaries : ∀ group ∈ threadSummaryAnchored policy candidates, WellFormed policy group
  threads_apart : Apart (threadLocalCarryForward policy candidates)
  topics_apart : Apart (containerTopicWindow policy candidates)

/-- A thread that shows a pattern still does when it is cut to its most recent candidates. -/
def KeepsPattern (policy : Policy) (candidates : List Candidate) : Prop :=
  ∀ thread, groupHasPatternSignal (threadMembers candidates thread) = true →
    groupHasPatternSignal ((threadMembers candidates thread).take policy.maxGroupSize) = true

section Lists

variable {candidates members rest : List Candidate} {fits : Candidate → Bool} {limit : ℕ}
  {anchor candidate : Candidate}

theorem mem_sortCandidates : candidate ∈ sortCandidates candidates ↔ candidate ∈ candidates :=
  List.mem_insertionSort mostRecentFirst

theorem nodup_ids_sort (hids : (candidates.map Candidate.id).Nodup) :
    ((sortCandidates candidates).map Candidate.id).Nodup :=
  ((List.perm_insertionSort mostRecentFirst candidates).map Candidate.id).nodup_iff.mpr hids

theorem groupHasPatternSignal_iff :
    groupHasPatternSignal candidates = true ↔
      ((∃ summary ∈ candidates, summary.type = .threadSummary) ∧
          ∃ candidate ∈ candidates, candidate.type.typed = true) ∨
        (∃ decision ∈ candidates, decision.type = .decision) ∧
          ∃ outcome ∈ candidates, outcome.type = .investigationOutcome := by
  simp [groupHasPatternSignal]

theorem groupHasPatternSignal_sort :
    groupHasPatternSignal (sortCandidates candidates) = groupHasPatternSignal candidates := by
  rw [Bool.eq_iff_iff, groupHasPatternSignal_iff, groupHasPatternSignal_iff]
  simp only [mem_sortCandidates]

theorem two_le_of_signal (hsignal : groupHasPatternSignal candidates = true) :
    2 ≤ candidates.length := by
  by_contra hshort
  have hsame : ∀ left ∈ candidates, ∀ right ∈ candidates, left = right := by
    match candidates, hshort with
    | [], _ => simp
    | [only], _ => simp
    | _ :: _ :: _, hshort => simp at hshort
  rcases groupHasPatternSignal_iff.mp hsignal with
    ⟨⟨left, hleft, hone⟩, right, hright, hother⟩ | ⟨⟨left, hleft, hone⟩, right, hright, hother⟩
  all_goals
    rw [hsame right hright left hleft, hone] at hother
    cases hother

theorem gather_eq : gather fits limit members rest =
    members ++ (rest.filter fits).take (limit - members.length) := by
  induction rest generalizing members with
  | nil => simp [gather]
  | cons candidate rest ih =>
    rw [gather]
    by_cases hfits : fits candidate = true
    · rw [if_pos hfits, List.filter_cons_of_pos hfits]
      split
      · next hfull => rw [Nat.sub_eq_zero_of_le hfull, List.take_zero, List.append_nil]
      · next hroom =>
        obtain ⟨left, hleft⟩ : ∃ left, limit - members.length = left + 1 :=
          ⟨limit - members.length - 1, by omega⟩
        rw [ih, List.length_append, List.length_singleton, ← Nat.sub_sub, hleft, List.take_succ_cons,
          List.append_assoc]
        rfl
    · rw [if_neg hfits, List.filter_cons_of_neg hfits, ih]

theorem mem_gather (hmem : candidate ∈ gather fits limit [anchor] rest) :
    candidate = anchor ∨ candidate ∈ rest ∧ fits candidate = true := by
  rw [gather_eq, List.mem_append, List.mem_singleton] at hmem
  exact hmem.imp_right fun htaken => List.mem_filter.mp (List.mem_of_mem_take htaken)

theorem length_gather_le (hlimit : 1 ≤ limit) :
    (gather fits limit [anchor] rest).length ≤ limit := by
  rw [gather_eq, List.length_append, List.length_take, List.length_singleton]
  omega

theorem nodup_gather (hids : (rest.map Candidate.id).Nodup)
    (hnew : ∀ candidate ∈ rest, fits candidate = true → candidate.id ≠ anchor.id) :
    ((gather fits limit [anchor] rest).map Candidate.id).Nodup := by
  rw [gather_eq, List.singleton_append, List.map_cons, List.nodup_cons]
  constructor
  · intro hmem
    obtain ⟨candidate, htaken, hsame⟩ := List.mem_map.mp hmem
    obtain ⟨hrest, hfits⟩ := List.mem_filter.mp (List.mem_of_mem_take htaken)
    exact hnew candidate hrest hfits hsame
  · exact hids.sublist (((List.take_sublist _ _).trans List.filter_sublist).map Candidate.id)

end Lists

section Clusters

variable {policy : Policy} {rest members : List Candidate} {fits : Candidate → Bool}
  {anchor : Candidate} {group : Group}

/-- What both clustering strategies gather around an anchor is a well-formed group if it
passes their tests. -/
theorem wellFormed_of_gather (hmax : 2 ≤ policy.maxGroupSize)
    (hids : (rest.map Candidate.id).Nodup)
    (hfits : ∀ candidate ∈ rest, fits candidate = true → candidate.id ≠ anchor.id ∧
      candidate.containerRef = anchor.containerRef ∧ candidate.visibility = anchor.visibility)
    (hgather : gather fits policy.maxGroupSize [anchor] rest = members)
    (hsize : ¬members.length < 2) (hsignal : groupHasPatternSignal members = true)
    (hcandidates : group.candidates = sortCandidates members)
    (hcontainer : group.containerRef = anchor.containerRef)
    (hvisibility : group.visibility = anchor.visibility) : WellFormed policy group := by
  have hshared : ∀ candidate ∈ members, candidate.containerRef = anchor.containerRef ∧
      candidate.visibility = anchor.visibility := by
    intro candidate hmem
    rcases mem_gather (hgather ▸ hmem) with rfl | ⟨hrest, hjoins⟩
    · exact ⟨rfl, rfl⟩
    · exact (hfits candidate hrest hjoins).2
  have hlength : (sortCandidates members).length = members.length :=
    List.length_insertionSort mostRecentFirst members
  rw [← hgather] at hlength hsize hcandidates
  exact
    { two_le := by
        rw [hcandidates, hlength]
        omega
      length_le := by
        rw [hcandidates, hlength]
        exact length_gather_le (by omega)
      distinct := by
        rw [hcandidates]
        exact nodup_ids_sort (nodup_gather hids fun candidate hrest hjoins =>
          (hfits candidate hrest hjoins).1)
      container := fun candidate hmem => by
        rw [hcandidates, mem_sortCandidates, hgather] at hmem
        rw [hcontainer, (hshared candidate hmem).1]
      visible := fun candidate hmem => by
        rw [hcandidates, mem_sortCandidates, hgather] at hmem
        rw [hvisibility, (hshared candidate hmem).2]
      signal := by rw [hcandidates, groupHasPatternSignal_sort, hgather, hsignal] }

theorem shared_of_comparable (hsame : policy.sameContainerRequired = true) {candidate : Candidate}
    (hcomparable : comparable policy anchor candidate = true) :
    candidate.containerRef = anchor.containerRef ∧ candidate.visibility = anchor.visibility := by
  simp only [comparable, hsame, Bool.not_true, Bool.false_or, Bool.and_eq_true,
    decide_eq_true_eq] at hcomparable
  exact hcomparable.1

end Clusters

section Threads

variable {policy : Policy} {candidates : List Candidate} {group : Group} {candidate : Candidate}
  {thread : Option String × Option String × Option String}

theorem mem_threadMembers : candidate ∈ threadMembers candidates thread ↔
    candidate ∈ candidates ∧ candidate.threadRef.getD "" ≠ "" ∧ threadKey candidate = thread := by
  rw [threadMembers, mem_sortCandidates, List.mem_filter, Bool.and_eq_true, decide_eq_true_eq,
    decide_eq_true_eq]

theorem mem_threadLocalCarryForward : group ∈ threadLocalCarryForward policy candidates ↔
    ∃ thread, groupHasPatternSignal (threadMembers candidates thread) = true ∧
      threadGroup policy thread.1 thread.2.1 thread.2.2 (threadMembers candidates thread) =
        group := by
  rw [threadLocalCarryForward, List.mem_filterMap]
  constructor
  · rintro ⟨thread, -, hgroup⟩
    simp only [Option.ite_none_right_eq_some, Option.some.injEq] at hgroup
    exact ⟨thread, hgroup⟩
  · rintro ⟨thread, hsignal, hgroup⟩
    refine ⟨thread, mem_targets_firsts.mpr ⟨?_, List.not_mem_nil⟩, ?_⟩
    · obtain ⟨candidate, hmem⟩ := List.exists_mem_of_length_pos
        (Nat.zero_lt_of_lt (two_le_of_signal hsignal))
      obtain ⟨hmem, hthreaded, hkey⟩ := mem_threadMembers.mp hmem
      exact List.mem_map.mpr ⟨candidate, List.mem_filter.mpr ⟨hmem, by simpa using hthreaded⟩, hkey⟩
    · simp only [hsignal, if_true, hgroup]

section

variable (hids : (candidates.map Candidate.id).Nodup)
include hids

theorem wellFormed_threadGroup_iff
    (hmax : 2 ≤ policy.maxGroupSize)
    (hsignal : groupHasPatternSignal (threadMembers candidates thread) = true) :
    WellFormed policy (threadGroup policy thread.1 thread.2.1 thread.2.2
        (threadMembers candidates thread)) ↔
      groupHasPatternSignal
        ((threadMembers candidates thread).take policy.maxGroupSize) = true := by
  have hkey : ∀ candidate ∈ (threadMembers candidates thread).take policy.maxGroupSize,
      threadKey candidate = thread := fun candidate hmem =>
    (mem_threadMembers.mp (List.mem_of_mem_take hmem)).2.2
  refine ⟨WellFormed.signal, fun hkept => ⟨?_, List.length_take_le _ _, ?_, fun candidate hmem => ?_,
    fun candidate hmem => ?_, hkept⟩⟩
  · exact two_le_of_signal hkept
  · exact (nodup_ids_sort (hids.sublist (List.filter_sublist.map Candidate.id))).sublist
      ((List.take_sublist _ _).map Candidate.id)
  · exact congrArg Prod.fst (hkey candidate hmem)
  · exact congrArg (fun thread => thread.2.2) (hkey candidate hmem)

theorem threads_wellFormed_iff
    (hmax : 2 ≤ policy.maxGroupSize) :
    (∀ group ∈ threadLocalCarryForward policy candidates, WellFormed policy group) ↔
      KeepsPattern policy candidates := by
  constructor
  · intro hformed thread hsignal
    exact (wellFormed_threadGroup_iff hids hmax hsignal).mp
      (hformed _ (mem_threadLocalCarryForward.mpr ⟨thread, hsignal, rfl⟩))
  · intro hkeeps group hgroup
    obtain ⟨thread, hsignal, rfl⟩ := mem_threadLocalCarryForward.mp hgroup
    exact (wellFormed_threadGroup_iff hids hmax hsignal).mpr (hkeeps thread hsignal)

theorem threads_apart :
    Apart (threadLocalCarryForward policy candidates) := by
  refine List.Pairwise.filterMap _ (fun left right hne one hone two htwo => ?_)
    (nodup_targets_firsts [] _)
  simp only [Option.ite_none_right_eq_some, Option.some.injEq] at hone htwo
  obtain ⟨-, rfl⟩ := hone
  obtain ⟨-, rfl⟩ := htwo
  intro candidate hcandidate other hother hsame
  obtain ⟨hmem, -, hkey⟩ := mem_threadMembers.mp (List.mem_of_mem_take hcandidate)
  obtain ⟨hmemOther, -, hkeyOther⟩ := mem_threadMembers.mp (List.mem_of_mem_take hother)
  have heq : candidate = other := List.inj_on_of_nodup_map hids hmem hmemOther hsame
  exact hne (hkey.symm.trans (heq ▸ hkeyOther))

end

end Threads

section Topics

variable {policy : Policy} {remaining anchors : List Candidate} {consumed : List String}

variable (hmax : 2 ≤ policy.maxGroupSize) (hsame : policy.sameContainerRequired = true)
  (hids : (remaining.map Candidate.id).Nodup)
include hmax hsame hids

/-- The group of an anchor that passes the tests. -/
theorem topicGroup_wellFormed {anchor : Candidate} {members : List Candidate}
    (hgather : gather (topicFits policy consumed anchor) policy.maxGroupSize [anchor] remaining =
      members)
    (hsize : ¬members.length < 2) (hsignal : groupHasPatternSignal members = true) :
    WellFormed policy (topicGroup members anchor) := by
  have hfits : ∀ candidate ∈ remaining, topicFits policy consumed anchor candidate = true →
      candidate.id ≠ anchor.id ∧ candidate.containerRef = anchor.containerRef ∧
        candidate.visibility = anchor.visibility := by
    intro candidate _ hfits
    simp only [topicFits, Bool.and_eq_true, decide_eq_true_eq] at hfits
    exact ⟨hfits.1.1.1, shared_of_comparable hsame hfits.1.2⟩
  have hhead : ∀ candidate ∈ sortCandidates members, candidate.containerRef = anchor.containerRef ∧
      candidate.visibility = anchor.visibility := by
    intro candidate hmem
    rcases mem_gather (hgather ▸ mem_sortCandidates.mp hmem) with rfl | ⟨hrest, hjoins⟩
    · exact ⟨rfl, rfl⟩
    · exact (hfits candidate hrest hjoins).2
  have hfirst : (sortCandidates members).headD anchor ∈ sortCandidates members := by
    cases hsorted : sortCandidates members with
    | nil =>
      have hlength := List.length_insertionSort mostRecentFirst members
      rw [← sortCandidates, hsorted, List.length_nil] at hlength
      omega
    | cons first rest => exact List.mem_cons_self
  exact wellFormed_of_gather hmax hids hfits hgather hsize hsignal rfl (hhead _ hfirst).1
    (hhead _ hfirst).2

theorem topicGroups_spec :
    (∀ group ∈ topicGroups policy remaining consumed anchors, WellFormed policy group ∧
        ∀ candidate ∈ group.candidates, candidate.id ∉ consumed) ∧
      Apart (topicGroups policy remaining consumed anchors) := by
  induction anchors generalizing consumed with
  | nil => exact ⟨List.forall_mem_nil _, List.Pairwise.nil⟩
  | cons anchor rest ih =>
    rw [topicGroups]
    split
    · exact ih
    · next hfresh =>
      simp only
      generalize hgather : gather (topicFits policy consumed anchor) policy.maxGroupSize [anchor]
        remaining = members
      split
      · exact ih
      · next hpasses =>
        simp only [not_or, Bool.not_eq_true', Bool.not_eq_false] at hpasses
        obtain ⟨hsize, -, hsignal⟩ := hpasses
        have hnew : ∀ candidate ∈ (topicGroup members anchor).candidates,
            candidate.id ∉ consumed ∧ candidate ∈ members := by
          intro candidate hmem
          have hmember := mem_sortCandidates.mp hmem
          rcases mem_gather (hgather ▸ hmember) with rfl | ⟨-, hjoins⟩
          · exact ⟨hfresh, hmember⟩
          · simp only [topicFits, Bool.and_eq_true, decide_eq_true_eq] at hjoins
            exact ⟨hjoins.1.1.2, hmember⟩
        obtain ⟨hrest, hapart⟩ := @ih (consumed ++ members.map Candidate.id)
        refine ⟨List.forall_mem_cons.mpr ⟨⟨topicGroup_wellFormed hmax hsame hids hgather hsize
          hsignal, fun candidate hmem => (hnew candidate hmem).1⟩, fun group hgroup =>
            ⟨(hrest group hgroup).1, fun candidate hmem hold => ?_⟩⟩, ?_⟩
        · exact (hrest group hgroup).2 candidate hmem (List.mem_append_left _ hold)
        · refine List.pairwise_cons.mpr ⟨fun group hgroup candidate hmem other hother hsameId => ?_,
            hapart⟩
          exact (hrest group hgroup).2 other hother (List.mem_append_right _
            (hsameId ▸ List.mem_map_of_mem (hnew candidate hmem).2))

end Topics

theorem summaries_wellFormed {policy : Policy} {candidates : List Candidate}
    (hids : (candidates.map Candidate.id).Nodup) (hmax : 2 ≤ policy.maxGroupSize)
    (hsame : policy.sameContainerRequired = true) :
    ∀ group ∈ threadSummaryAnchored policy candidates, WellFormed policy group := by
  intro group hgroup
  rw [threadSummaryAnchored, List.mem_filterMap] at hgroup
  obtain ⟨anchor, hanchor, hgroup⟩ := hgroup
  obtain ⟨hmem, hsummary⟩ := List.mem_filter.mp (mem_sortCandidates.mp hanchor)
  rw [decide_eq_true_eq] at hsummary
  simp only [Option.ite_none_left_eq_some, not_or, Bool.not_eq_true', Bool.not_eq_false,
    Option.some.injEq] at hgroup
  obtain ⟨⟨hsize, hsignal⟩, rfl⟩ := hgroup
  refine wellFormed_of_gather hmax (nodup_ids_sort (hids.sublist
    (List.filter_sublist.map Candidate.id))) (fun candidate hrest hfits => ⟨fun hsameId => ?_, ?_⟩)
    rfl hsize hsignal rfl rfl rfl
  · obtain ⟨hcandidate, htyped⟩ := List.mem_filter.mp (mem_sortCandidates.mp hrest)
    rw [List.inj_on_of_nodup_map hids hcandidate hmem hsameId, hsummary] at htyped
    cases htyped
  · rw [summaryFits, Bool.and_eq_true] at hfits
    exact shared_of_comparable hsame hfits.1

/-- The groups are as they should be exactly when no thread loses its pattern to the cut. -/
theorem groupsWellFormed_iff (policy : Policy) (candidates : List Candidate)
    (hids : (candidates.map Candidate.id).Nodup) (hmax : 2 ≤ policy.maxGroupSize)
    (hsame : policy.sameContainerRequired = true) :
    GroupsWellFormed policy candidates ↔ KeepsPattern policy candidates := by
  have htopics := @topicGroups_spec policy _ (sortCandidates candidates) [] hmax hsame
    (nodup_ids_sort hids)
  constructor
  · exact fun hformed => (threads_wellFormed_iff hids hmax).mp hformed.threads
  · intro hkeeps
    exact
      { threads := (threads_wellFormed_iff hids hmax).mpr hkeeps
        topics := fun group hgroup => (htopics.1 group hgroup).1
        summaries := summaries_wellFormed hids hmax hsame
        threads_apart := threads_apart hids
        topics_apart := htopics.2 }

section Examples

/-- A candidate of one thread. -/
def exampleCandidate (id : String) (type : CandidateType) (latestOccurredAt : ℤ) : Candidate where
  id := id
  type := type
  createdAt := 0
  tokens := {"relay", "queue"}
  containerRef := some "repo:a"
  threadRef := some "thread-1"
  latestOccurredAt := latestOccurredAt
  visibility := some "private"

/-- The default policy. -/
def examplePolicy : Policy := ⟨4, true, 168, 2⟩

def exampleSummary : Candidate := exampleCandidate "summary" .threadSummary 1

theorem groupsWellFormed_iff_pair :
    GroupsWellFormed examplePolicy [exampleSummary, exampleCandidate "first" .decision 2] := by
  refine (groupsWellFormed_iff examplePolicy
    [exampleSummary, exampleCandidate "first" .decision 2] (by decide) (by decide) rfl).mpr
    fun thread hsignal => ?_
  rw [List.take_of_length_le]
  · exact hsignal
  · rw [threadMembers, sortCandidates, List.length_insertionSort]
    exact (List.length_filter_le _ _).trans (by decide)

/-- Four decisions that are more recent than the summary of their thread fill its group. -/
theorem summary_falls_off :
    ¬ ∀ (policy : Policy) (candidates : List Candidate), (candidates.map Candidate.id).Nodup →
      2 ≤ policy.maxGroupSize → policy.sameContainerRequired = true →
        GroupsWellFormed policy candidates := by
  intro hformed
  have hthreads := (hformed examplePolicy [exampleSummary, exampleCandidate "first" .decision 2,
    exampleCandidate "second" .decision 3, exampleCandidate "third" .decision 4,
    exampleCandidate "fourth" .decision 5] (by decide) (by decide) rfl).threads
  have hkeeps := (threads_wellFormed_iff (by decide) (by decide)).mp hthreads
    (some "repo:a", some "thread-1", some "private")
  revert hkeeps
  decide +kernel

end Examples

end Pallium.Consolidation
