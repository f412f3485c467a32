import Pallium.Core.Succession
import Pallium.Memory.Commit

/-!
# The succession of memories

In a run the operations of the store and the steps of the service's calls follow
each other in any order.  The superseded memories and their successors form a
graph: a memory is marked when its lifecycle is set, and linked when its
successor is recorded.  Only the calls of the service do the two apart from each
other, and such a memory waits in between.
-/

namespace Pallium.Memory

open Pallium.Run Pallium.Succession Pallium.Transaction
open Relation (ReflTransGen TransGen)

inductive MemoryOp
  | create (memory : MemoryObject)
  | createExplicit (oldMemoryObjectId : String) (replacement : MemoryObject)
      (indexEntries : List IndexEntryRecord) (originSessionId originAgentId : String)
      (correctionReason : Option String)
  | link (oldMemoryObjectId newMemoryObjectId : String) (correctionReason : Option String)
  | commit (result : ProcessResult) (supersessionPairs : List (String × String))
  | supersede (supersededId replacementId : String)
  | flag (request : FlagRequest)
  | advance (index : ℕ) (now : ℤ)
  | fail (index : ℕ) (error : MemoryError)

/-- The store and the calls of the service. -/
structure MemoryRun where
  store : MemoryStore
  processes : List Process

namespace MemoryStore

/-- One memory is a successor of the other. -/
def Successor (store : MemoryStore) (memoryObjectId successorId : String) : Prop :=
  successorId ∈ store.successorIds memoryObjectId

/-- Following successors leads from one memory to the other. -/
def Leads (store : MemoryStore) : String → String → Prop := ReflTransGen store.Successor

/-- No pair links a memory to one that leads back to it. -/
def Apart (store : MemoryStore) : List (String × String) → Prop
  | [] => True
  | pair :: rest =>
    (store.superseded pair.1 = false → ¬store.Leads pair.2 pair.1) ∧
      ∀ after, store.applySupersessionPair pair = .ok after → after.Apart rest

end MemoryStore

namespace MemoryStore

section Successors

/-- What the row of a memory says about its succession. -/
def mark (record : Option MemoryObjectRecord) : Option String × Bool :=
  (record.bind MemoryObjectRecord.supersededById,
    record.any fun found => found.lifecycle = .superseded)

variable {store before after : MemoryStore} {memoryObjectId successorId : String}
  {waiting : Multiset String} {source target : String}

theorem successor_iff : store.Successor memoryObjectId successorId ↔
    ((mark (store.memories.get memoryObjectId)).1 = some successorId ∧ successorId ≠ "") ∨
      supersedesEdge memoryObjectId successorId ∈ store.relations := by
  unfold Successor successorIds
  simp only [List.mem_insertionSort, List.mem_dedup, List.mem_append, Option.mem_toList,
    Option.filter_eq_some_iff, decide_eq_true_eq, List.mem_map, List.mem_filter]
  refine or_congr Iff.rfl ⟨?_, fun hedge => ⟨_, ⟨hedge, by simp [supersedesEdge]⟩, rfl⟩⟩
  rintro ⟨⟨fromKind, fromId, relationType, toKind, toId⟩, ⟨hmem, rfl, rfl, rfl, rfl⟩, rfl⟩
  exact hmem

theorem superseded_iff : store.superseded memoryObjectId =
    (mark (store.memories.get memoryObjectId)).2 := rfl

def graph (store : MemoryStore) (waiting : Multiset String) : Graph String :=
  ⟨store.Successor, fun memoryObjectId => store.superseded memoryObjectId = true, waiting⟩

theorem graph_eq_of_marks
    (hmarks : ∀ other, mark (after.memories.get other) = mark (before.memories.get other))
    (hedges : ∀ source target, supersedesEdge source target ∈ after.relations ↔
      supersedesEdge source target ∈ before.relations) :
    after.graph waiting = before.graph waiting := by
  unfold graph
  congr 1
  · funext source target
    rw [eq_iff_iff, successor_iff, successor_iff, hmarks, hedges]
  · funext other
    rw [superseded_iff, superseded_iff, hmarks]

theorem graph_mark {source : String} (hmarks : ∀ other, mark (after.memories.get other) =
      if other = source then ((mark (before.memories.get source)).1, true)
      else mark (before.memories.get other))
    (hrelations : after.relations = before.relations) :
    after.graph (source ::ₘ waiting) = (before.graph waiting).step (.mark source) := by
  unfold graph Graph.step
  congr 1
  · funext first second
    change after.Successor first second = before.Successor first second
    rw [eq_iff_iff, successor_iff, successor_iff, hmarks, hrelations]
    split
    · next hfirst => rw [hfirst]
    · exact Iff.rfl
  · funext other
    simp only [superseded_iff, hmarks]
    split
    · next hother => simp [hother]
    · next hother => simp [hother]

theorem graph_link
    (hmarks : ∀ other, mark (after.memories.get other) = mark (before.memories.get other))
    (hrelations : after.relations = before.relations ++ [supersedesEdge source target]) :
    after.graph (waiting.erase source) = (before.graph waiting).step (.link source target) := by
  unfold graph Graph.step
  congr 1
  · funext first second
    rw [eq_iff_iff, successor_iff, hmarks, hrelations, List.mem_append, List.mem_singleton,
      ← or_assoc, ← successor_iff]
    simp [linked, supersedesEdge, and_comm]
  · funext other
    simp only [superseded_iff, hmarks]

/-- A memory is marked and linked at once by its row. -/
theorem graph_mark_link (hmarks : ∀ other, mark (after.memories.get other) =
      if other = source then (some target, true) else mark (before.memories.get other))
    (hfree : (mark (before.memories.get source)).1 = none) (htarget : target ≠ "")
    (hrelations : after.relations = before.relations) :
    after.graph waiting =
      run Graph.step (before.graph waiting) [.mark source, .link source target] := by
  simp only [run_cons, run_nil, Graph.step, graph, Multiset.erase_cons_head]
  congr 1
  · funext first second
    rw [eq_iff_iff, successor_iff, hmarks, hrelations]
    by_cases hfirst : first = source
    · rw [if_pos hfirst, hfirst]
      have hbefore : before.Successor source second ↔
          supersedesEdge source second ∈ before.relations := by
        rw [successor_iff, hfree]
        exact or_iff_right fun hrecorded => nomatch hrecorded.1
      rw [linked, hbefore, Option.some.injEq]
      constructor
      · rintro (⟨rfl, -⟩ | hedge)
        · exact Or.inr ⟨rfl, rfl⟩
        · exact Or.inl hedge
      · rintro (hedge | ⟨-, rfl⟩)
        · exact Or.inr hedge
        · exact Or.inl ⟨rfl, htarget⟩
    · rw [if_neg hfirst]
      simp [linked, successor_iff, hfirst]
  · funext other
    simp only [superseded_iff, hmarks]
    split
    · next hother => simp [hother]
    · next hother => simp [hother]

end Successors

section Changes

/-- The change follows allowed events of the graph, and brings no memory without
an id. -/
structure Follows (before : MemoryStore) (waiting : Multiset String) (after : MemoryStore)
    (waitingAfter : Multiset String) : Prop where
  events : ∃ events, after.graph waitingAfter = run Graph.step (before.graph waiting) events ∧
    Along Graph.step Graph.Allowed (before.graph waiting) events
  unnamed : before.memories.get "" = none → after.memories.get "" = none

variable {store before middle after : MemoryStore} {waiting waitingMiddle waitingAfter : Multiset String}

theorem Follows.refl (store : MemoryStore) (waiting : Multiset String) :
    store.Follows waiting store waiting :=
  ⟨⟨[], rfl, trivial⟩, id⟩

theorem Follows.trans (hfirst : before.Follows waiting middle waitingMiddle)
    (hsecond : middle.Follows waitingMiddle after waitingAfter) :
    before.Follows waiting after waitingAfter := by
  obtain ⟨first, hmiddle, hallowed⟩ := hfirst.events
  obtain ⟨second, hafter, hnext⟩ := hsecond.events
  refine ⟨⟨first ++ second, ?_, ?_⟩, fun hnone => hsecond.unnamed (hfirst.unnamed hnone)⟩
  · rw [run_append, ← hmiddle, hafter]
  · rw [along_append, ← hmiddle]
    exact ⟨hallowed, hnext⟩

theorem Follows.quiet
    (hmarks : ∀ other, mark (after.memories.get other) = mark (before.memories.get other))
    (hedges : ∀ source target, supersedesEdge source target ∈ after.relations ↔
      supersedesEdge source target ∈ before.relations)
    (hunnamed : before.memories.get "" = none → after.memories.get "" = none) :
    before.Follows waiting after waiting :=
  ⟨⟨[], graph_eq_of_marks hmarks hedges, trivial⟩, hunnamed⟩

theorem Follows.sound (hfollows : before.Follows waiting after waitingAfter)
    (hsound : (before.graph waiting).Sound) : (after.graph waitingAfter).Sound := by
  obtain ⟨events, hafter, hallowed⟩ := hfollows.events
  rw [hafter]
  exact hsound.run hallowed

theorem Follows.superseded (hfollows : before.Follows waiting after waitingAfter)
    {memoryObjectId : String} (hsuperseded : before.superseded memoryObjectId = true) :
    after.superseded memoryObjectId = true := by
  obtain ⟨events, hafter, -⟩ := hfollows.events
  have hmarked : (after.graph waitingAfter).marked memoryObjectId := by
    rw [hafter]
    exact Graph.marked_run (before.graph waiting) events hsuperseded
  exact hmarked

theorem eq_of_leads_of_live (hsound : (store.graph waiting).Sound) {source target : String}
    (hlive : store.superseded source = false) (hleads : store.Leads source target) :
    target = source := by
  refine (Relation.reflTransGen_iff_eq fun next hnext => ?_).mp hleads
  have hmarked : store.superseded source = true := hsound.marked source next hnext
  rw [hlive] at hmarked
  cases hmarked

theorem mark_record (memory : MemoryObject) : mark (some memory.record) = (none, false) := by
  simp [mark, MemoryObject.record, memory.live]

theorem follows_createMemoryObject (memory : MemoryObject) (store : MemoryStore) :
    store.Follows waiting (store.createMemoryObject memory).1 waiting := by
  unfold createMemoryObject
  refine @transaction_related _ _ _ _ _
    (fun before after : MemoryStore => before.Follows waiting after waiting)
    (Follows.refl _ _) fun after result hbody => ?_
  simp only [bind_eq_ok, orRaise_eq_ok, pure_eq_ok, Prod.mk.injEq] at hbody
  obtain ⟨memories, hinsert, rfl, -⟩ := hbody
  refine Follows.quiet (fun other => ?_) (fun _ _ => Iff.rfl) fun hnone => ?_
  · simp only [Table.get_insertNew hinsert]
    split
    · next hother =>
        rw [mark_record, hother, Table.get_eq_none_of_insertNew hinsert]
        rfl
    · rfl
  · simp only [Table.get_insertNew hinsert, key_memoryObjectRecord]
    exact (if_neg (Ne.symm memory.named)).trans hnone

/-- A memory that is active gets its successor in its row. -/
theorem Follows.record {old : MemoryObjectRecord} {source target : String}
    (hold : before.memories.get source = some old) (hactive : old.lifecycle = .active)
    (hunset : old.supersededById = none) (htarget : target ≠ "")
    (hmarks : ∀ other, mark (after.memories.get other) =
      if other = source then (some target, true) else mark (before.memories.get other))
    (hrelations : after.relations = before.relations) (hapart : ¬before.Leads target source)
    (hunnamed : before.memories.get "" = none → after.memories.get "" = none) :
    before.Follows waiting after waiting := by
  have hfree : (mark (before.memories.get source)).1 = none := by
    rw [hold]
    exact hunset
  have hlive : ¬before.superseded source = true := by
    rw [superseded_iff, hold]
    simp [mark, hactive]
  exact ⟨⟨_, graph_mark_link hmarks hfree htarget hrelations, hlive,
    ⟨Multiset.mem_cons_self _ _, hapart⟩, trivial⟩, hunnamed⟩

theorem get_supersededBy {old : MemoryObjectRecord} {oldMemoryObjectId : String}
    (hold : store.memories.get oldMemoryObjectId = some old) (successorId : String)
    (correctionReason : Option String) (other : String) :
    (store.memories.modify oldMemoryObjectId
        (MemoryObjectRecord.supersededBy successorId correctionReason)).get other =
      if other = oldMemoryObjectId then some (old.supersededBy successorId correctionReason)
      else store.memories.get other := by
  refine Table.get_modify_of_get ?_ hold other
  exact fun row => rfl

theorem follows_createExplicitSupersession (hsound : (store.graph waiting).Sound)
    (oldMemoryObjectId : String) (replacement : MemoryObject)
    (indexEntries : List IndexEntryRecord) (originSessionId originAgentId : String)
    (correctionReason : Option String) :
    store.Follows waiting (store.createExplicitSupersession oldMemoryObjectId replacement
      indexEntries originSessionId originAgentId correctionReason).1 waiting := by
  unfold createExplicitSupersession
  refine @transaction_related _ _ _ _ _
    (fun before after : MemoryStore => before.Follows waiting after waiting)
    (Follows.refl _ _) fun after result hbody => ?_
  simp only [bind_eq_ok, orRaise_eq_ok, require_eq_ok, pure_eq_ok, Prod.mk.injEq] at hbody
  obtain ⟨old, hold, -, ⟨hactive, hunset⟩, memories, hinsert, entries, -, rfl, -⟩ := hbody
  have hfree := Table.get_eq_none_of_insertNew hinsert
  have hget := Table.get_insertNew hinsert
  have hmodify := get_supersededBy hold replacement.id correctionReason
  simp only [hmodify, key_memoryObjectRecord, MemoryObject.record_id] at hfree hget
  have hne : replacement.id ≠ oldMemoryObjectId := by
    intro hsame
    rw [if_pos hsame] at hfree
    cases hfree
  have hnew : store.memories.get replacement.id = none := (if_neg hne).symm.trans hfree
  refine Follows.record hold hactive hunset replacement.named (fun other => ?_) rfl ?_
    fun hnone => ?_
  · rw [hget]
    by_cases hother : other = replacement.id
    · rw [if_pos hother, hother, if_neg hne, hnew]
      simp [mark, MemoryObject.record, replacement.live]
    · rw [if_neg hother]
      split
      · rfl
      · rfl
  · intro hleads
    have hlive : store.superseded replacement.id = false := by
      rw [superseded_iff, hnew]
      rfl
    exact hne (eq_of_leads_of_live hsound hlive hleads).symm
  · rw [hget]
    have hold' : "" ≠ oldMemoryObjectId := by
      rintro rfl
      rw [hold] at hnone
      cases hnone
    exact (if_neg (Ne.symm replacement.named)).trans ((if_neg hold').trans hnone)

theorem follows_linkSupersession {oldMemoryObjectId newMemoryObjectId : String}
    (hunnamed : store.memories.get "" = none)
    (hapart : (store.memories.get oldMemoryObjectId).map MemoryObjectRecord.lifecycle =
      some .active → ¬store.Leads newMemoryObjectId oldMemoryObjectId)
    (correctionReason : Option String) :
    store.Follows waiting
      (store.linkSupersession oldMemoryObjectId newMemoryObjectId correctionReason).1
        waiting := by
  unfold linkSupersession
  refine @transaction_related _ _ _ _ _
    (fun before after : MemoryStore => before.Follows waiting after waiting)
    (Follows.refl _ _) fun after result hbody => ?_
  simp only [bind_eq_ok, orRaise_eq_ok, require_eq_ok, pure_eq_ok, Prod.mk.injEq] at hbody
  obtain ⟨old, hold, new, hnew, -, ⟨hactive, hunset⟩, rfl, -⟩ := hbody
  have hmodify := get_supersededBy hold newMemoryObjectId correctionReason
  have htarget : newMemoryObjectId ≠ "" := by
    rintro rfl
    rw [hunnamed] at hnew
    cases hnew
  have hlifecycle : (store.memories.get oldMemoryObjectId).map MemoryObjectRecord.lifecycle =
      some .active := by
    rw [hold, Option.map_some, hactive]
  refine Follows.record hold hactive hunset htarget (fun other => ?_) rfl (hapart hlifecycle)
    fun hnone => ?_
  · rw [hmodify]
    split
    · rfl
    · rfl
  · rw [hmodify]
    have hne : "" ≠ oldMemoryObjectId := by
      rintro rfl
      rw [hold] at hnone
      cases hnone
    exact (if_neg hne).trans hnone

theorem mark_addMemories {memoryObjects : List MemoryObject} {memories after :
    Table MemoryObjectRecord} (hadd : addMemories memories memoryObjects = some after) :
    (∀ other, mark (after.get other) = mark (memories.get other)) ∧
      (∀ memory ∈ memoryObjects, memories.get memory.id = none) ∧
      (memories.get "" = none → after.get "" = none) := by
  obtain ⟨hbrought, hstored, -⟩ := get_addMemories hadd
  refine ⟨fun other => ?_, fun memory hmemory => (hbrought memory hmemory).1, fun hnone => ?_⟩
  · by_cases hmem : other ∈ memoryObjects.map MemoryObject.id
    · obtain ⟨memory, hmemory, rfl⟩ := List.mem_map.mp hmem
      obtain ⟨hfree, hadded⟩ := hbrought memory hmemory
      rw [hadded, hfree]
      exact mark_record memory
    · rw [hstored other hmem]
  · rw [hstored "" ?_, hnone]
    intro hmem
    obtain ⟨memory, -, hunnamed⟩ := List.mem_map.mp hmem
    exact memory.named hunnamed

theorem mark_promoted (hpromoted : before.Promoted after) (other : String) :
    mark (after.memories.get other) = mark (before.memories.get other) := by
  rcases hpromoted.memories other with hsame | ⟨record, hrecord, -, hcandidate, hactive⟩
  · rw [hsame]
  · rw [hrecord, hactive]
    simp [mark, hcandidate]

theorem get_eq_none_of_promoted (hpromoted : before.Promoted after) {other : String}
    (hnone : before.memories.get other = none) : after.memories.get other = none := by
  rcases hpromoted.memories other with hsame | ⟨record, hrecord, -⟩
  · rw [hsame, hnone]
  · rw [hnone] at hrecord
    cases hrecord

theorem follows_persistProcessResult {result : ProcessResult} {persisted : MemoryStore}
    (hpersist : store.persistProcessResult result = .ok persisted) :
    store.Follows waiting persisted waiting ∧
      ∀ memory ∈ result.memoryObjects, persisted.superseded memory.id = false := by
  simp only [persistProcessResult, bind_eq_ok, orRaise_eq_ok, pure_eq_ok] at hpersist
  obtain ⟨memories, hadd, index, -, rfl⟩ := hpersist
  obtain ⟨hmarks, hnew, hunnamed⟩ := mark_addMemories hadd
  have hpromoted := evaluatePromotionHints_promoted result.promotionHints
    { store with
      memories := memories
      relations := store.relations ++ result.relations
      index := index } []
  refine ⟨Follows.quiet (fun other => ?_) (fun source target => ?_) fun hnone => ?_,
    fun memory hmemory => ?_⟩
  · rw [mark_promoted hpromoted, hmarks]
  · rw [hpromoted.relations, List.mem_append]
    exact or_iff_left fun hmem => result.plain _ hmem rfl
  · exact get_eq_none_of_promoted hpromoted (hunnamed hnone)
  · rw [superseded_iff, mark_promoted hpromoted, hmarks, hnew memory hmemory]
    rfl

theorem graph_mergeIntoWinner (store : MemoryStore) (loser winner : MemoryObjectRecord) :
    (store.mergeIntoWinner loser winner).graph waiting = store.graph waiting ∧
      ∀ other, ((store.mergeIntoWinner loser winner).memories.get other).isSome =
        (store.memories.get other).isSome := by
  unfold mergeIntoWinner
  split
  · have hget : ∀ other, (store.memories.modify winner.id fun record =>
        { record with payload := mergeDecisionPayload record.payload loser.payload loser.id }).get
          other = if other = winner.id then (store.memories.get other).map fun record =>
            { record with payload := mergeDecisionPayload record.payload loser.payload loser.id }
          else store.memories.get other := by
      intro other
      refine Table.get_modify _ _ ?_ other
      exact fun row => rfl
    refine ⟨graph_eq_of_marks (fun other => ?_) mem_reparentSupportedBy, fun other => ?_⟩
    · rw [hget]
      split
      · cases store.memories.get other <;> rfl
      · rfl
    · rw [hget]
      split
      · rw [Option.isSome_map]
      · rfl
  · exact ⟨rfl, fun other => rfl⟩

theorem follows_supersedeByEdge {supersededId replacementId : String}
    (hlive : store.superseded supersededId = false)
    (hknown : (store.memories.get supersededId).isSome)
    (hapart : ¬store.Leads replacementId supersededId) :
    store.Follows waiting (store.supersedeByEdge supersededId replacementId) waiting := by
  obtain ⟨record, hrecord⟩ := Option.isSome_iff_exists.mp hknown
  have hget : ∀ other, (store.supersedeByEdge supersededId replacementId).memories.get other =
      if other = supersededId then some { record with lifecycle := .superseded }
      else store.memories.get other := by
    intro other
    refine Table.get_modify_of_get ?_ hrecord other
    exact fun row => rfl
  have hmark : { store with
      memories := (store.supersedeByEdge supersededId replacementId).memories }.graph
        (supersededId ::ₘ waiting) = (store.graph waiting).step (.mark supersededId) := by
    refine graph_mark (fun other => ?_) rfl
    simp only [hget]
    split
    · rw [hrecord]
      rfl
    · rfl
  have hlink := @graph_link
    { store with memories := (store.supersedeByEdge supersededId replacementId).memories }
    (store.supersedeByEdge supersededId replacementId) (supersededId ::ₘ waiting) supersededId
    replacementId (fun _ => rfl) rfl
  rw [Multiset.erase_cons_head, hmark] at hlink
  refine ⟨⟨[.mark supersededId, .link supersededId replacementId], hlink, ?_,
    ⟨Multiset.mem_cons_self _ _, hapart⟩, trivial⟩, fun hnone => ?_⟩
  · intro hmarked
    have hsuperseded : store.superseded supersededId = true := hmarked
    rw [hlive] at hsuperseded
    cases hsuperseded
  · rw [hget]
    have hne : "" ≠ supersededId := by
      rintro rfl
      rw [hrecord] at hnone
      cases hnone
    exact (if_neg hne).trans hnone

theorem follows_applySupersessionPair {pair : String × String}
    (happly : store.applySupersessionPair pair = .ok after)
    (hapart : store.superseded pair.1 = false → ¬store.Leads pair.2 pair.1) :
    store.Follows waiting after waiting ∧
      ∀ other, other ≠ pair.1 → after.superseded other = store.superseded other := by
  simp only [applySupersessionPair, bind_eq_ok, orRaise_eq_ok, require_eq_ok] at happly
  obtain ⟨loser, hloser, winner, hwinner, -, -, happly⟩ := happly
  split at happly
  · rw [pure_eq_ok] at happly
    subst happly
    exact ⟨Follows.refl _ _, fun _ _ => rfl⟩
  · next hlifecycle =>
      rw [pure_eq_ok] at happly
      subst happly
      obtain ⟨hgraph, hknown⟩ := @graph_mergeIntoWinner waiting store loser winner
      have hlive : store.superseded pair.1 = false := by
        rw [superseded_iff, hloser]
        simp [mark, hlifecycle]
      have hsame : ∀ other, (store.mergeIntoWinner loser winner).superseded other =
          store.superseded other := by
        intro other
        have hmarked := congrFun (congrArg Graph.marked hgraph) other
        exact Bool.eq_iff_iff.mpr (iff_of_eq hmarked)
      have hleads : (store.mergeIntoWinner loser winner).Leads = store.Leads :=
        congrArg ReflTransGen (congrArg Graph.successor hgraph)
      have hmerged : store.Follows waiting (store.mergeIntoWinner loser winner) waiting := by
        refine ⟨⟨[], hgraph, trivial⟩, fun hnone => ?_⟩
        rw [← Option.isNone_iff_eq_none, ← Option.not_isSome, hknown, hnone]
        rfl
      refine ⟨hmerged.trans (follows_supersedeByEdge (by rw [hsame, hlive])
        (by rw [hknown, hloser]; rfl) (by rw [hleads]; exact hapart hlive)), fun other hother => ?_⟩
      rw [← hsame other]
      have hget : ((store.mergeIntoWinner loser winner).supersedeByEdge pair.1
          pair.2).memories.get other =
            (store.mergeIntoWinner loser winner).memories.get other := by
        refine Table.get_modify_of_ne _ ?_ hother
        exact fun row => rfl
      rw [superseded_iff, hget]
      rfl

theorem follows_applySupersessionPairs {pairs : List (String × String)}
    (happly : store.applySupersessionPairs pairs = .ok after) (hapart : store.Apart pairs) :
    store.Follows waiting after waiting := by
  induction pairs generalizing store with
  | nil =>
    simp only [applySupersessionPairs, pure_eq_ok] at happly
    subst happly
    exact Follows.refl _ _
  | cons pair rest ih =>
    simp only [applySupersessionPairs, bind_eq_ok] at happly
    obtain ⟨middle, hpair, hrest⟩ := happly
    exact (follows_applySupersessionPair hpair hapart.1).1.trans (ih hrest (hapart.2 middle hpair))

theorem applySupersessionPairs_append {first second : List (String × String)} :
    store.applySupersessionPairs (first ++ second) = .ok after ↔
      ∃ middle, store.applySupersessionPairs first = .ok middle ∧
        middle.applySupersessionPairs second = .ok after := by
  induction first generalizing store with
  | nil => simp [applySupersessionPairs]
  | cons pair rest ih =>
    simp only [List.cons_append, applySupersessionPairs, bind_eq_ok, ih]
    constructor
    · rintro ⟨next, hpair, middle, hrest, hsecond⟩
      exact ⟨middle, ⟨next, hpair, hrest⟩, hsecond⟩
    · rintro ⟨middle, ⟨next, hpair, hrest⟩, hsecond⟩
      exact ⟨next, hpair, middle, hrest, hsecond⟩

theorem resolved_pairs {result : ProcessResult} {pair : String × String}
    (hpair : pair ∈ store.resolveSupersessionPairs result) :
    pair.1 ∉ result.memoryObjects.map MemoryObject.id ∧
      pair.2 ∈ result.memoryObjects.map MemoryObject.id :=
  ⟨fst_not_mem_replacementIds hpair, (mem_resolveSupersessionPairs hpair).1⟩

theorem apart_of_resolved {replacementIds : List String} {pairs : List (String × String)}
    (hsound : (store.graph waiting).Sound)
    (hlive : ∀ replacementId ∈ replacementIds, store.superseded replacementId = false)
    (hpairs : ∀ pair ∈ pairs, pair.1 ∉ replacementIds ∧ pair.2 ∈ replacementIds) :
    store.Apart pairs := by
  induction pairs generalizing store with
  | nil => trivial
  | cons pair rest ih =>
    obtain ⟨hold, hnew⟩ := hpairs pair List.mem_cons_self
    have hapart : store.superseded pair.1 = false → ¬store.Leads pair.2 pair.1 := by
      intro _ hleads
      have hsame := eq_of_leads_of_live hsound (hlive pair.2 hnew) hleads
      exact hold (hsame ▸ hnew)
    refine ⟨hapart, fun middle hpair => ?_⟩
    obtain ⟨hfollows, hsame⟩ := follows_applySupersessionPair hpair hapart
    refine ih (hfollows.sound hsound) (fun replacementId hmem => ?_) (List.forall_mem_cons.mp hpairs).2
    rw [hsame replacementId fun hpairOld => hold (hpairOld ▸ hmem)]
    exact hlive replacementId hmem

theorem follows_commitProcessResult (hsound : (store.graph waiting).Sound)
    (result : ProcessResult) (supersessionPairs : List (String × String))
    (hapart : ∀ persisted resolved, store.persistProcessResult result = .ok persisted →
      persisted.applySupersessionPairs (persisted.resolveSupersessionPairs result) =
          .ok resolved →
        resolved.Apart supersessionPairs) :
    store.Follows waiting (store.commitProcessResult result supersessionPairs).1 waiting := by
  unfold commitProcessResult
  refine @transaction_related _ _ _ _ _
    (fun before after : MemoryStore => before.Follows waiting after waiting)
    (Follows.refl _ _) fun after returned hbody => ?_
  simp only [bind_eq_ok, pure_eq_ok, Prod.mk.injEq, applySupersessionPairs_append] at hbody
  obtain ⟨persisted, hpersist, final, ⟨resolved, hresolved, hgiven⟩, rfl, -⟩ := hbody
  obtain ⟨hpersisted, hnew⟩ := @follows_persistProcessResult _ waiting _ _ hpersist
  have hhints : persisted.Apart (persisted.resolveSupersessionPairs result) := by
    refine apart_of_resolved (hpersisted.sound hsound) (fun replacementId hmem => ?_)
      fun pair hpair => resolved_pairs hpair
    obtain ⟨memory, hmemory, rfl⟩ := List.mem_map.mp hmem
    exact hnew memory hmemory
  exact (hpersisted.trans (follows_applySupersessionPairs hresolved hhints)).trans
    (follows_applySupersessionPairs hgiven (hapart persisted resolved hpersist hresolved))

end Changes

end MemoryStore

namespace Process

/-- A lifecycle update finds the memory not superseded meanwhile, and an edge
leads to a memory that does not lead back. -/
def Meets (store : MemoryStore) : Process → Prop
  | supersedeUpdate supersededId _ => store.superseded supersededId = false
  | supersedeInsert supersededId replacementId => ¬store.Leads replacementId supersededId
  | flagSuppress request => store.superseded request.memoryObjectId = false
  | _ => True

/-- The memory whose edge is the next step of the call. -/
def waits : Process → Option String
  | supersedeInsert supersededId _ => some supersededId
  | _ => none

/-- Whether the next step of the call writes. -/
def writes : Process → Bool
  | supersedeUpdate _ _ | supersedeInsert _ _ | flagStore _ _ | flagSuppress _ => true
  | _ => false

theorem advance_of_not_writes {process : Process} (now : ℤ) (store : MemoryStore)
    (hreads : process.writes = false) :
    (process.advance now store).1 = store ∧ process.waits = none ∧
      (process.advance now store).2.waits = none := by
  cases process with
  | supersedeReadOld supersededId replacementId =>
    simp only [advance]
    split <;> exact ⟨rfl, rfl, rfl⟩
  | supersedeReadReplacement superseded replacementId =>
    simp only [advance]
    split
    · exact ⟨rfl, rfl, rfl⟩
    · split
      · exact ⟨rfl, rfl, rfl⟩
      · split <;> exact ⟨rfl, rfl, rfl⟩
  | flagRead request =>
    simp only [advance]
    split
    · exact ⟨rfl, rfl, rfl⟩
    · split <;> exact ⟨rfl, rfl, rfl⟩
  | flagCount request =>
    simp only [advance]
    split <;> exact ⟨rfl, rfl, rfl⟩
  | supersedeUpdate | supersedeInsert | flagStore | flagSuppress => cases hreads
  | _ => exact ⟨rfl, rfl, rfl⟩

end Process

namespace MemoryRun

def step (run : MemoryRun) : MemoryOp → MemoryRun
  | .create memory => { run with store := (run.store.createMemoryObject memory).1 }
  | .createExplicit oldMemoryObjectId replacement indexEntries originSessionId originAgentId
      correctionReason =>
      { run with
        store := (run.store.createExplicitSupersession oldMemoryObjectId replacement indexEntries
          originSessionId originAgentId correctionReason).1 }
  | .link oldMemoryObjectId newMemoryObjectId correctionReason =>
    { run with
      store := (run.store.linkSupersession oldMemoryObjectId newMemoryObjectId
        correctionReason).1 }
  | .commit result supersessionPairs =>
    { run with store := (run.store.commitProcessResult result supersessionPairs).1 }
  | .supersede supersededId replacementId =>
    { run with
      processes := run.processes ++ [.supersedeReadOld supersededId replacementId] }
  | .flag request => { run with processes := run.processes ++ [.flagRead request] }
  | .advance index now =>
    match run.processes[index]? with
    | none => run
    | some process =>
      let (store, next) := process.advance now run.store
      { store := store, processes := run.processes.set index next }
  | .fail index error =>
    match run.processes[index]? with
    | none => run
    | some process =>
      if process.done then run
      else { run with processes := run.processes.set index (.failed error) }

def empty : MemoryRun := ⟨MemoryStore.empty, []⟩

/-- The store and the calls after a run. -/
def reached (ops : List MemoryOp) : MemoryRun := run step empty ops

/-- No memory is linked to one that leads back to it, the steps of the calls meet
their conditions, and the insertion of an edge after its lifecycle update does
not fail. -/
def Meets (run : MemoryRun) : MemoryOp → Prop
  | .link oldMemoryObjectId newMemoryObjectId _ =>
    (run.store.memories.get oldMemoryObjectId).map MemoryObjectRecord.lifecycle =
        some .active →
      ¬run.store.Leads newMemoryObjectId oldMemoryObjectId
  | .commit result supersessionPairs => ∀ persisted resolved,
      run.store.persistProcessResult result = .ok persisted →
        persisted.applySupersessionPairs (persisted.resolveSupersessionPairs result) =
            .ok resolved →
          resolved.Apart supersessionPairs
  | .advance index _ => ∀ process ∈ run.processes[index]?, process.Meets run.store
  | .fail index _ => ∀ supersededId replacementId,
      run.processes[index]? ≠ some (.supersedeInsert supersededId replacementId)
  | _ => True

/-- The memories whose lifecycle is set and whose edge is not inserted yet. -/
def waitingOf (processes : List Process) : Multiset String := processes.filterMap Process.waits

def waiting (run : MemoryRun) : Multiset String := waitingOf run.processes

section Runs

open MemoryStore

variable {store : MemoryStore} {waiting : Multiset String} {memoryObjectId : String}

theorem updateMemoryObjectLifecycle_cases (store : MemoryStore) (memoryObjectId : String)
    (lifecycle : Lifecycle) :
    (∃ after record, store.updateMemoryObjectLifecycle memoryObjectId lifecycle =
          (after, .ok ()) ∧
        store.memories.get memoryObjectId = some record ∧ after.relations = store.relations ∧
        ∀ other, after.memories.get other =
          if other = memoryObjectId then some { record with lifecycle := lifecycle }
          else store.memories.get other) ∨
      ∃ error, store.updateMemoryObjectLifecycle memoryObjectId lifecycle =
        (store, .error error) := by
  unfold updateMemoryObjectLifecycle
  cases hrecord : store.memories.get memoryObjectId with
  | none =>
    refine Or.inr ⟨.missing memoryObjectId, transaction_of_error ?_⟩
    rw [hrecord]
    rfl
  | some record =>
    refine Or.inl ⟨{ store with
      memories := store.memories.modify memoryObjectId fun record =>
        { record with lifecycle := lifecycle } }, record, transaction_of_ok ?_, rfl, rfl,
      fun other => ?_⟩
    · rw [hrecord]
      rfl
    · refine Table.get_modify_of_get ?_ hrecord other
      exact fun row => rfl

theorem unnamed_of_modified {after : MemoryStore} {record changed : MemoryObjectRecord}
    (hrecord : store.memories.get memoryObjectId = some record)
    (hget : ∀ other, after.memories.get other =
      if other = memoryObjectId then some changed else store.memories.get other)
    (hnone : store.memories.get "" = none) : after.memories.get "" = none := by
  have hne : "" ≠ memoryObjectId := by
    rintro rfl
    rw [hrecord] at hnone
    cases hnone
  rw [hget, if_neg hne, hnone]

theorem storeMemoryFlag_cases (store : MemoryStore) (flag : MemoryFlagRecord) :
    (store.storeMemoryFlag flag).1.memories = store.memories ∧
      (store.storeMemoryFlag flag).1.relations = store.relations := by
  unfold storeMemoryFlag
  refine @transaction_related _ _ _ _ _ (fun before after : MemoryStore =>
    after.memories = before.memories ∧ after.relations = before.relations) ⟨rfl, rfl⟩
      fun after result hbody => ?_
  simp only [bind_eq_ok, orRaise_eq_ok, pure_eq_ok, Prod.mk.injEq] at hbody
  obtain ⟨record, -, rfl, -⟩ := hbody
  exact ⟨rfl, rfl⟩

theorem Follows.same {after : MemoryStore} (hmemories : after.memories = store.memories)
    (hrelations : after.relations = store.relations) :
    store.Follows waiting after waiting :=
  Follows.quiet (fun _ => by rw [hmemories]) (fun _ _ => by rw [hrelations]) fun hnone => by
    rw [hmemories, hnone]

/-- A step of a call that neither sets a lifecycle nor inserts an edge. -/
theorem follows_advance_reading {process : Process} {now : ℤ} (hprocess : process.waits = none)
    (hmemories : (process.advance now store).1.memories = store.memories)
    (hrelations : (process.advance now store).1.relations = store.relations)
    (hnext : (process.advance now store).2.waits = none) :
    ∃ waitingAfter : Multiset String,
      waitingAfter + process.waits.toList = waiting + (process.advance now store).2.waits.toList ∧
      store.Follows waiting (process.advance now store).1 waitingAfter :=
  ⟨waiting, by rw [hprocess, hnext], Follows.same hmemories hrelations⟩

theorem follows_advance (process : Process) (now : ℤ) (hmeets : process.Meets store)
    (hwaits : ∀ source ∈ process.waits, source ∈ waiting) :
    ∃ waitingAfter : Multiset String,
      waitingAfter + process.waits.toList = waiting + (process.advance now store).2.waits.toList ∧
      store.Follows waiting (process.advance now store).1 waitingAfter := by
  by_cases hwrites : process.writes = true
  case neg =>
    obtain ⟨hstore, hbefore, hafter⟩ :=
      process.advance_of_not_writes now store (Bool.eq_false_of_not_eq_true hwrites)
    exact follows_advance_reading hbefore (by rw [hstore]) (by rw [hstore]) hafter
  cases process with
  | supersedeUpdate supersededId replacementId =>
    have hlive : store.superseded supersededId = false := hmeets
    simp only [Process.advance]
    rcases updateMemoryObjectLifecycle_cases store supersededId .superseded with
      ⟨after, record, hok, hrecord, hrelations, hget⟩ | ⟨error, herror⟩
    · rw [hok]
      have hgraph : after.graph (supersededId ::ₘ waiting) =
          (store.graph waiting).step (.mark supersededId) := by
        refine graph_mark (fun other => ?_) hrelations
        rw [hget]
        split
        · rw [hrecord]
          rfl
        · rfl
      refine ⟨supersededId ::ₘ waiting, ?_, ⟨[.mark supersededId], hgraph, ?_, trivial⟩,
        unnamed_of_modified hrecord hget⟩
      · simp only [Process.waits, Option.toList_some, Option.toList_none,
          Multiset.coe_singleton, Multiset.coe_nil, Multiset.add_zero]
        rw [Multiset.add_comm, Multiset.singleton_add]
      · change ¬store.superseded supersededId = true
        rw [hlive]
        simp
    · rw [herror]
      exact ⟨waiting, rfl, Follows.refl _ _⟩
  | supersedeInsert supersededId replacementId =>
    have hwaiting := hwaits supersededId rfl
    have hgraph : (store.createSupersedesRelation supersededId replacementId).graph
        (waiting.erase supersededId) =
          (store.graph waiting).step (.link supersededId replacementId) :=
      graph_link (fun other => rfl) rfl
    refine ⟨waiting.erase supersededId, ?_,
      ⟨[.link supersededId replacementId], hgraph, ⟨hwaiting, hmeets⟩, trivial⟩, id⟩
    simp only [Process.advance, Process.waits, Option.toList_some, Option.toList_none,
      Multiset.coe_singleton, Multiset.coe_nil, Multiset.add_zero]
    rw [Multiset.add_comm, Multiset.singleton_add, Multiset.cons_erase hwaiting]
  | flagStore request lifecycle =>
    have hstored := storeMemoryFlag_cases store
      ⟨request.memoryObjectId, request.reason, request.sourceRef, now⟩
    have hstep : ((Process.flagStore request lifecycle).advance now store).1.memories =
          store.memories ∧
        ((Process.flagStore request lifecycle).advance now store).1.relations =
          store.relations ∧
        ((Process.flagStore request lifecycle).advance now store).2.waits = none := by
      simp only [Process.advance]
      split
      · next after error hflag =>
          rw [hflag] at hstored
          exact ⟨hstored.1, hstored.2, rfl⟩
      · next after hflag =>
          rw [hflag] at hstored
          split
          · refine ⟨hstored.1, hstored.2, ?_⟩
            split <;> rfl
          · exact ⟨hstored.1, hstored.2, rfl⟩
    exact follows_advance_reading rfl hstep.1 hstep.2.1 hstep.2.2
  | flagSuppress request =>
    have hlive : store.superseded request.memoryObjectId = false := hmeets
    simp only [Process.advance]
    rcases updateMemoryObjectLifecycle_cases store request.memoryObjectId .suppressed with
      ⟨after, record, hok, hrecord, hrelations, hget⟩ | ⟨error, herror⟩
    · rw [hok]
      refine ⟨waiting, rfl, Follows.quiet (fun other => ?_) (fun _ _ => by rw [hrelations])
        (unnamed_of_modified hrecord hget)⟩
      rw [hget]
      split
      · next hother =>
          rw [superseded_iff, hrecord] at hlive
          rw [hother, hrecord]
          exact Prod.ext rfl hlive.symm
      · rfl
    · rw [herror]
      exact ⟨waiting, rfl, Follows.refl _ _⟩
  | _ => cases hwrites

theorem waitingOf_cons (head : Process) (rest : List Process) :
    waitingOf (head :: rest) = (head.waits.toList : Multiset String) + waitingOf rest := by
  unfold waitingOf
  rw [List.filterMap_cons]
  cases head.waits <;> rfl

theorem waitingOf_set {processes : List Process} {index : ℕ} {process : Process}
    (hprocess : processes[index]? = some process) (next : Process) :
    waitingOf (processes.set index next) + process.waits.toList =
      waitingOf processes + next.waits.toList := by
  induction processes generalizing index with
  | nil => cases hprocess
  | cons head rest ih =>
    cases index with
    | zero =>
      cases hprocess
      rw [List.set_cons_zero, waitingOf_cons, waitingOf_cons, Multiset.add_comm,
        Multiset.add_comm (next.waits.toList : Multiset String), ← Multiset.add_assoc]
    | succ index =>
      rw [List.set_cons_succ, waitingOf_cons, waitingOf_cons, Multiset.add_assoc, ih hprocess,
        Multiset.add_assoc]

variable {run : MemoryRun} {op : MemoryOp}

theorem follows_step (hsound : (run.store.graph run.waiting).Sound)
    (hunnamed : run.store.memories.get "" = none) (hmeets : run.Meets op) :
    run.store.Follows run.waiting (run.step op).store (run.step op).waiting := by
  cases op with
  | create memory => exact follows_createMemoryObject memory run.store
  | createExplicit oldMemoryObjectId replacement indexEntries originSessionId originAgentId
      correctionReason =>
      exact follows_createExplicitSupersession hsound _ _ _ _ _ _
  | link oldMemoryObjectId newMemoryObjectId correctionReason =>
    exact follows_linkSupersession hunnamed hmeets correctionReason
  | commit result supersessionPairs =>
    exact follows_commitProcessResult hsound result supersessionPairs hmeets
  | supersede supersededId replacementId =>
    have hwaiting : (run.step (.supersede supersededId replacementId)).waiting = run.waiting := by
      simp only [step, MemoryRun.waiting, waitingOf, List.filterMap_append]
      exact congrArg _ (List.append_nil _)
    rw [hwaiting]
    exact Follows.refl _ _
  | flag request =>
    have hwaiting : (run.step (.flag request)).waiting = run.waiting := by
      simp only [step, MemoryRun.waiting, waitingOf, List.filterMap_append]
      exact congrArg _ (List.append_nil _)
    rw [hwaiting]
    exact Follows.refl _ _
  | advance index now =>
    simp only [step]
    cases hprocess : run.processes[index]? with
    | none => exact Follows.refl _ _
    | some process =>
      have hwaits : ∀ source ∈ process.waits, source ∈ run.waiting := fun source hsource =>
        Multiset.mem_coe.mpr
          (List.mem_filterMap.mpr ⟨process, List.mem_of_getElem? hprocess, hsource⟩)
      obtain ⟨waitingAfter, hcount, hfollows⟩ :=
        follows_advance process now (hmeets process hprocess) hwaits
      have hset := waitingOf_set hprocess (process.advance now run.store).2
      have hwaiting := Multiset.add_left_inj.mp (hset.trans hcount.symm)
      change run.store.Follows run.waiting _ (waitingOf (run.processes.set index _))
      rw [hwaiting]
      exact hfollows
  | fail index error =>
    simp only [step]
    cases hprocess : run.processes[index]? with
    | none => exact Follows.refl _ _
    | some process =>
      have hnone : process.waits = none := by
        cases process with
        | supersedeInsert supersededId replacementId =>
          exact absurd hprocess (hmeets supersededId replacementId)
        | _ => rfl
      simp only
      split
      · exact Follows.refl _ _
      · have hset := waitingOf_set hprocess (.failed error)
        rw [hnone] at hset
        have hwaiting := Multiset.add_left_inj.mp hset
        change run.store.Follows run.waiting _ (waitingOf (run.processes.set index _))
        rw [hwaiting]
        exact Follows.refl _ _

/-- What holds of every run. -/
structure Consistent (run : MemoryRun) : Prop where
  sound : (run.store.graph run.waiting).Sound
  unnamed : run.store.memories.get "" = none

theorem consistent_empty : empty.Consistent where
  sound := by
    have hgraph : empty.store.graph empty.waiting = Graph.empty := by
      unfold MemoryStore.graph Graph.empty
      congr 1
      · funext source target
        rw [eq_iff_iff, successor_iff]
        simp [empty, MemoryStore.empty, mark]
      · funext other
        simp [MemoryStore.superseded, empty, MemoryStore.empty]
    rw [hgraph]
    exact Graph.Sound.empty
  unnamed := rfl

theorem Consistent.step (hconsistent : run.Consistent) (hmeets : run.Meets op) :
    (run.step op).Consistent where
  sound := (follows_step hconsistent.sound hconsistent.unnamed hmeets).sound hconsistent.sound
  unnamed := (follows_step hconsistent.sound hconsistent.unnamed hmeets).unnamed
    hconsistent.unnamed

theorem Consistent.length_successorIds (hconsistent : run.Consistent) (memoryObjectId : String) :
    (run.store.successorIds memoryObjectId).length ≤ 1 := by
  have hnodup : (run.store.successorIds memoryObjectId).Nodup :=
    (List.perm_insertionSort _ _).nodup_iff.mpr (List.nodup_dedup _)
  have hsame : ∀ first ∈ run.store.successorIds memoryObjectId,
      ∀ second ∈ run.store.successorIds memoryObjectId, first = second :=
    fun first hfirst second hsecond => hconsistent.sound.chained.functional hfirst hsecond
  match hsuccessors : run.store.successorIds memoryObjectId with
  | [] => exact Nat.zero_le 1
  | [only] => exact Nat.le_refl 1
  | first :: second :: rest =>
    rw [hsuccessors] at hnodup hsame
    have hequal := hsame first List.mem_cons_self second
      (List.mem_cons_of_mem _ List.mem_cons_self)
    rw [hequal] at hnodup
    exact absurd List.mem_cons_self (List.nodup_cons.mp hnodup).1

theorem Consistent.successorIds_ne_nil (hconsistent : run.Consistent)
    (hdone : ∀ process ∈ run.processes, process.done = true)
    (hsuperseded : run.store.superseded memoryObjectId = true) :
    run.store.successorIds memoryObjectId ≠ [] := by
  have hnot : memoryObjectId ∉ run.waiting := by
    intro hwaiting
    obtain ⟨process, hprocess, hwaits⟩ := List.mem_filterMap.mp (Multiset.mem_coe.mp hwaiting)
    have hprocessDone := hdone process hprocess
    cases process with
    | supersedeInsert supersededId replacementId => cases hprocessDone
    | _ => cases hwaits
  obtain ⟨next, hnext⟩ := hconsistent.sound.linked memoryObjectId hsuperseded hnot
  exact List.ne_nil_of_mem hnext

end Runs

/-- In every run that meets the conditions each memory has at most one successor,
following successors never cycles, a superseded memory stays so, and once all
calls are done it has a successor. -/
theorem supersession_graph (ops : List MemoryOp) (hops : Along step Meets empty ops) :
    (∀ memoryObjectId, ((reached ops).store.successorIds memoryObjectId).length ≤ 1) ∧
      (∀ memoryObjectId, ¬TransGen (reached ops).store.Successor memoryObjectId memoryObjectId) ∧
      Along step (fun run op => ∀ memoryObjectId, run.store.superseded memoryObjectId = true →
        (run.step op).store.superseded memoryObjectId = true) empty ops ∧
      ((∀ process ∈ (reached ops).processes, process.done = true) →
        ∀ memoryObjectId, (reached ops).store.superseded memoryObjectId = true →
          (reached ops).store.successorIds memoryObjectId ≠ []) := by
  have hpreserved : ∀ (run : MemoryRun) (op : MemoryOp), run.Meets op → run.Consistent →
      (run.step op).Consistent :=
    fun run op hmeets hconsistent => hconsistent.step hmeets
  have hreached : (reached ops).Consistent := hops.invariant consistent_empty hpreserved
  refine ⟨hreached.length_successorIds, hreached.sound.chained.acyclic, ?_,
    fun hdone memoryObjectId => hreached.successorIds_ne_nil hdone⟩
  refine (hops.with_invariant consistent_empty hpreserved).mono ?_
  rintro run op ⟨hmeets, hconsistent⟩ memoryObjectId hsuperseded
  exact (follows_step hconsistent.sound hconsistent.unnamed hmeets).superseded hsuperseded

section Races

/-- A memory without any evidence. -/
def plainMemory (id : String) (hnamed : id ≠ "") : MemoryObject where
  id := id
  type := "fact_summary"
  payload := Payload.empty
  envelopeContainerRef := none
  lifecycle := .active
  visibility := .priv
  containerRef := none
  actorRef := none
  origin := none
  named := hnamed
  live := Lifecycle.active_ne_superseded

def linkOps : List MemoryOp :=
  [.create (plainMemory "a" (by decide)), .create (plainMemory "b" (by decide)),
    .link "a" "b" none]

theorem supersession_graph_link :
    (reached linkOps).store.successorIds "a" = ["b"] ∧
      ∀ memoryObjectId, ((reached linkOps).store.successorIds memoryObjectId).length ≤ 1 := by
  refine ⟨by decide +kernel, (supersession_graph linkOps ⟨trivial, trivial, fun _ hleads => ?_,
    trivial⟩).1⟩
  have hfree : (reached (linkOps.take 2)).store.successorIds "b" = [] := by
    decide +kernel
  have hsame := (Relation.reflTransGen_iff_eq fun next hnext => ?_).mp hleads
  · exact absurd hsame (by decide)
  · have hnone : next ∈ (reached (linkOps.take 2)).store.successorIds "b" := hnext
    rw [hfree] at hnone
    exact List.not_mem_nil hnone

/-- Two calls supersede the same memory, each between the reads and the writes of
the other. -/
def racingOps : List MemoryOp :=
  [.create (plainMemory "a" (by decide)), .create (plainMemory "b" (by decide)),
    .create (plainMemory "c" (by decide)), .supersede "a" "b", .supersede "a" "c",
    .advance 0 0, .advance 1 0, .advance 0 0, .advance 1 0, .advance 0 0, .advance 1 0,
    .advance 0 0, .advance 1 0]

theorem supersession_graph_race :
    (reached racingOps).store.successorIds "a" = ["b", "c"] ∧
      ¬∀ memoryObjectId, ((reached racingOps).store.successorIds memoryObjectId).length ≤ 1 := by
  have hsuccessors : (reached racingOps).store.successorIds "a" = ["b", "c"] := by decide +kernel
  refine ⟨hsuccessors, fun hall => ?_⟩
  have hlength := hall "a"
  rw [hsuccessors] at hlength
  exact absurd hlength (by decide)

end Races

end MemoryRun

end Pallium.Memory
