import Pallium.Access.Filters
import Pallium.Memory.Replacement

/-!
# Who can retrieve a memory

A requester retrieves a memory that is active, whose actor and evidence pass the
filters, and that is visible from the requester's container.  A commit that replaces
a memory compares scopes and keys but no actors, so a requester may lose the old
memory without getting the new one.
-/

namespace Pallium.Memory

open Pallium.Access

/-- Whether a filter, if both are set, agrees with the field. -/
def agreesIfKnown (filter field : Option String) : Bool :=
  filter.isNone || field.isNone || field == filter

/-- `evidence_matches_filters`, for the reference to a source item. -/
def evidenceMatchesFilters (evidence : Ingest.SourceItem) (filters : QueryFilters) : Bool :=
  agrees filters.sourceType (some evidence.sourceType) && agrees filters.role evidence.role &&
    agrees filters.artifactKind evidence.artifactKind &&
    reachesContainer filters.containerRef (some (evidence.visibility.getD .priv))
      evidence.containerRef &&
    agrees filters.threadRef evidence.threadRef &&
    agreesIfKnown filters.actorRef evidence.actorRef

/-- The filters for the evidence of a memory with the given actor. -/
def evidenceFilters (actorRef : Option String) (filters : QueryFilters) : QueryFilters :=
  { filters with
    threadRef := none
    actorRef := if actorRef = none then none else filters.actorRef }

/-- Who asks, from which container and in which visibility. -/
structure Requester where
  containerRef : Option String
  visibility : Option Visibility
  actorRef : Option String

/-- The filters by the requester's own container and actor. -/
def Requester.filters (requester : Requester) : QueryFilters where
  sourceType := none
  role := none
  artifactKind := none
  containerRef := requester.containerRef
  threadRef := none
  actorRef := requester.actorRef
  workRefs := []
  relayName := none

/-- Whether the requester sees a row of a scope. -/
def Requester.sees (requester : Requester) (visibility : Visibility)
    (containerRef actorRef : Option String) : Bool :=
  isVisible (some visibility) containerRef requester.containerRef actorRef requester.visibility
    requester.actorRef

namespace MemoryStore

/-- `get_evidence_for_memory_object`. -/
def evidence (store : MemoryStore) (memoryObjectId : String) : List Ingest.SourceItem :=
  let sourceIds := (store.relations.filter fun relation =>
    supports memoryObjectId relation && relation.toKind == .sourceItem).map RelationRecord.toId
  store.sourceItems.rows.filter fun item => decide (item.id ∈ sourceIds)

/-- `matches_filters` of a memory. -/
def matchesFilters (store : MemoryStore) (record : MemoryObjectRecord) :
    Option QueryFilters → Bool
  | none => record.lifecycle == .active && !record.isSoftDeleted
  | some filters =>
    let memoryFilters := evidenceFilters record.actorRef filters
    let evidence := store.evidence record.id
    record.lifecycle == .active && !record.isSoftDeleted &&
      agreesIfKnown filters.actorRef record.actorRef &&
      if evidence.isEmpty && record.origin == some "agent_explicit" then
        memoryFilters.sourceType.isNone && memoryFilters.role.isNone &&
          memoryFilters.artifactKind.isNone && memoryFilters.workRefs.isEmpty &&
          reachesContainer memoryFilters.containerRef (some record.decodedVisibility)
            record.containerRef
      else evidence.any fun item => evidenceMatchesFilters item memoryFilters

def retrieves (store : MemoryStore) (requester : Requester) (memoryObjectId : String) : Bool :=
  (store.memories.get memoryObjectId).any fun record =>
    store.matchesFilters record (some requester.filters) &&
      requester.sees record.decodedVisibility record.anyContainerRef record.actorRef

section Evidence

variable {store after : MemoryStore} {result : ProcessResult} {memoryObjectId : String}

theorem mem_evidence_iff (hsourced : Sourced store.relations) {item : Ingest.SourceItem} :
    item ∈ store.evidence memoryObjectId ↔
      item ∈ store.sourceItems.rows ∧ 0 < supportCount store.relations memoryObjectId item.id := by
  rw [evidence, List.mem_filter, decide_eq_true_iff, ← mem_supportedTargets_iff]
  apply and_congr_right
  intro _
  rw [show (store.relations.filter fun relation =>
      supports memoryObjectId relation && relation.toKind == .sourceItem) =
    store.relations.filter (supports memoryObjectId) from ?_]
  apply List.filter_congr
  intro relation hrelation
  by_cases hsupports : supports memoryObjectId relation
  · have hkind : relation.toKind = .sourceItem := by
      apply hsourced relation hrelation
      simp only [supports, Bool.and_eq_true, beq_iff_eq] at hsupports
      exact hsupports.2
    rw [hkind, beq_self_eq_true, Bool.and_true]
  · rw [Bool.eq_false_of_not_eq_true hsupports, Bool.false_and]

/-- What the requester needs to retrieve a replacement: it passes by its own actor and
scope, and some evidence passes, its own or that of a memory it replaces. -/
structure Admits (requester : Requester) (result : ProcessResult) (store after : MemoryStore)
    (winner : MemoryObject) : Prop where
  active : ∃ persisted, store.persistProcessResult result = .ok persisted ∧
    (persisted.memories.get winner.id).map MemoryObjectRecord.lifecycle = some .active
  actor : agreesIfKnown requester.actorRef winner.actorRef = true
  seen : requester.sees winner.visibility (winner.containerRef.or winner.envelopeContainerRef)
    winner.actorRef = true
  evidence : ∃ item ∈ store.sourceItems.rows,
    evidenceMatchesFilters item (evidenceFilters winner.actorRef requester.filters) = true ∧
      (0 < supportCount (store.relations ++ result.relations) winner.id item.id ∨
        ∃ loser ∈ store.memories.rows, store.Replaces after loser.id winner.id ∧
          MergesEvidence loser.type ∧
            0 < supportCount (store.relations ++ result.relations) loser.id item.id)

/-- The filters decide by the evidence of a memory that was not written explicitly. -/
theorem matchesFilters_of_inferred {record : MemoryObjectRecord} (filters : QueryFilters)
    (horigin : record.origin ≠ some "agent_explicit") :
    store.matchesFilters record (some filters) = true ↔
      record.lifecycle = .active ∧ record.isSoftDeleted = false ∧
        agreesIfKnown filters.actorRef record.actorRef = true ∧
        ∃ item ∈ store.evidence record.id,
          evidenceMatchesFilters item (evidenceFilters record.actorRef filters) = true := by
  have hexplicit : ((store.evidence record.id).isEmpty && record.origin == some "agent_explicit") =
      false := by
    rw [beq_false_of_ne horigin, Bool.and_false]
  simp only [matchesFilters, hexplicit, Bool.and_eq_true, beq_iff_eq, Bool.not_eq_true', and_assoc,
    if_false, Bool.false_eq_true, List.any_eq_true]

variable {persisted : MemoryStore} {pairs : List (String × String)} {winner : MemoryObject}

section

variable (hpersisted : Persisted result store persisted)
  (hmerging : Merging result.replacementIds pairs persisted after)
  (hpairs : ∀ pair ∈ pairs, pair.1 ∉ result.replacementIds)
include hpersisted hmerging hpairs

/-- The memories whose evidence has moved are memories of the store. -/
theorem replaces_merging_iff (replacementId toId : String) :
    (∃ supersededId, persisted.Replaces after supersededId replacementId ∧
        persisted.Merges supersededId ∧ 0 < supportCount persisted.relations supersededId toId) ↔
      ∃ loser ∈ store.memories.rows, store.Replaces after loser.id replacementId ∧
        MergesEvidence loser.type ∧
          0 < supportCount (store.relations ++ result.relations) loser.id toId := by
  have houtline : ∀ supersededId, persisted.Replaces after supersededId replacementId →
      (persisted.memories.get supersededId).map MemoryObjectRecord.outline =
        (store.memories.get supersededId).map MemoryObjectRecord.outline := by
    intro supersededId hreplaces
    exact hpersisted.stored supersededId (hpairs _ (hmerging.edges _ _ hreplaces).1)
  rw [← hpersisted.relations]
  constructor
  · rintro ⟨supersededId, hreplaces, ⟨record, hrecord, hmerges⟩, hsupports⟩
    have hstored := houtline supersededId hreplaces
    rw [hrecord, Option.map_some, eq_comm, Option.map_eq_some_iff] at hstored
    obtain ⟨loser, hget, hsame⟩ := hstored
    have htype := congrArg MemoryObjectRecord.type hsame
    change loser.type = record.type at htype
    obtain rfl : loser.id = supersededId := Table.key_of_get hget
    exact ⟨loser, Table.mem_of_get hget, (replaces_persisted_iff hpersisted _ _).mp hreplaces,
      htype ▸ hmerges, hsupports⟩
  · rintro ⟨loser, hloser, hreplaces, hmerges, hsupports⟩
    have hbase := (replaces_persisted_iff hpersisted _ _).mpr hreplaces
    have hget : store.memories.get loser.id = some loser := Table.get_of_mem hloser
    have hstored := houtline loser.id hbase
    rw [hget, Option.map_some, Option.map_eq_some_iff] at hstored
    obtain ⟨record, hrecord, hsame⟩ := hstored
    have htype := congrArg MemoryObjectRecord.type hsame
    change record.type = loser.type at htype
    exact ⟨loser.id, hbase, ⟨record, hrecord, htype ▸ hmerges⟩, hsupports⟩

/-- The evidence of a memory of the result once the commit is done. -/
theorem supportCount_pos_iff (hwinner : winner ∈ result.memoryObjects) (toId : String) :
    0 < supportCount after.relations winner.id toId ↔
      0 < supportCount (store.relations ++ result.relations) winner.id toId ∨
        ∃ loser ∈ store.memories.rows, store.Replaces after loser.id winner.id ∧
          MergesEvidence loser.type ∧
            0 < supportCount (store.relations ++ result.relations) loser.id toId := by
  have hids : winner.id ∈ result.replacementIds := List.mem_map_of_mem hwinner
  rw [← replaces_merging_iff hpersisted hmerging hpairs, ← hpersisted.relations]
  constructor
  · exact hmerging.origins winner.id hids toId
  · rintro (hown | ⟨supersededId, hreplaces, hmerges, hsupports⟩)
    · exact Nat.lt_of_lt_of_le hown (hmerging.gained winner.id hids toId).1
    · exact (hmerging.edges _ _ hreplaces).2.2.2.evidence hmerges toId hsupports

end

theorem retrieves_iff_admits (hsourced : Sourced (store.relations ++ result.relations))
    (hcommit : store.commitProcessResult result [] = (after, .ok pairs))
    (hwinner : winner ∈ result.memoryObjects) (requester : Requester) :
    after.retrieves requester winner.id = true ↔ Admits requester result store after winner := by
  obtain ⟨persisted, hpersist, rfl, hmerging⟩ := commitProcessResult_eq_ok hcommit
  have hpersisted := persistProcessResult_persisted hpersist
  have hids : winner.id ∈ result.replacementIds := List.mem_map_of_mem hwinner
  have houtline := (hmerging.outline winner.id).trans (hpersisted.brought winner hwinner).2.1
  obtain ⟨record, hrecord, hsame⟩ := Option.map_eq_some_iff.mp houtline
  have hid : record.id = winner.id := congrArg MemoryObjectRecord.id hsame
  have hactor : record.actorRef = winner.actorRef := congrArg MemoryObjectRecord.actorRef hsame
  have hdeleted : record.isSoftDeleted = false :=
    congrArg MemoryObjectRecord.isSoftDeleted hsame
  have horigin : record.origin = some "agent_inferred" := congrArg MemoryObjectRecord.origin hsame
  have hvisibility : record.decodedVisibility = winner.visibility :=
    congrArg MemoryObjectRecord.decodedVisibility hsame
  have hcontainer : record.anyContainerRef = winner.containerRef.or winner.envelopeContainerRef :=
    congrArg MemoryObjectRecord.anyContainerRef hsame
  have hlifecycle : record.lifecycle = .active ↔ ∃ persisted,
      store.persistProcessResult result = .ok persisted ∧
        (persisted.memories.get winner.id).map MemoryObjectRecord.lifecycle = some .active := by
    have hkept := hmerging.lifecycles winner.id hids
    rw [hrecord, Option.map_some] at hkept
    constructor
    · intro hactive
      exact ⟨persisted, hpersist, hkept.symm.trans (congrArg some hactive)⟩
    · rintro ⟨other, hother, hactive⟩
      obtain rfl := Except.ok.inj (hpersist.symm.trans hother)
      exact Option.some.inj (hkept.trans hactive)
  have hevidence : ∀ item, item ∈ after.evidence record.id ↔ item ∈ store.sourceItems.rows ∧
      0 < supportCount after.relations winner.id item.id := by
    intro item
    rw [mem_evidence_iff (hmerging.sourced (hpersisted.relations ▸ hsourced)), hid,
      hmerging.sourceItems, hpersisted.sourceItems]
  rw [retrieves, hrecord, Option.any_some, Bool.and_eq_true,
    matchesFilters_of_inferred _ (by rw [horigin]; decide), hlifecycle, hactor, hvisibility,
    hcontainer]
  simp only [hevidence, supportCount_pos_iff hpersisted hmerging
    (fun pair hpair => fst_not_mem_replacementIds hpair) hwinner]
  constructor
  · rintro ⟨⟨hactive, -, hagrees, item, ⟨hitem, hsupports⟩, hmatches⟩, hseen⟩
    exact ⟨hactive, hagrees, hseen, item, hitem, hmatches, hsupports⟩
  · rintro ⟨hactive, hagrees, hseen, item, hitem, hmatches, hsupports⟩
    exact ⟨⟨hactive, hdeleted, hagrees, item, ⟨hitem, hsupports⟩, hmatches⟩, hseen⟩

/-- A result as the packages build it: a hint carries the scope of its replacement and
no thread, the replacement is active, has an actor only where the scope is personal,
and is supported by an item of its own scope and actor. -/
structure Coherent (result : ProcessResult) (store : MemoryStore) (hint : SupersessionHint)
    (winner : MemoryObject) : Prop where
  unthreaded : hint.threadRef = none
  visibility : hint.visibility = winner.visibility
  containerRef : hint.containerRef = winner.containerRef
  active : winner.lifecycle = .active
  personal : winner.actorRef ≠ none →
    winner.visibility = .priv ∨ winner.visibility = .global
  supported : ∃ item ∈ store.sourceItems.rows,
    0 < supportCount (store.relations ++ result.relations) winner.id item.id ∧
      item.visibility = some winner.visibility ∧ item.containerRef = winner.containerRef ∧
      (winner.actorRef ≠ none → item.actorRef = winner.actorRef)

/-- The requester's actor does not stand against the memory. -/
structure Agrees (requester : Requester) (winner : MemoryObject) : Prop where
  actor : requester.actorRef = none ∨ winner.actorRef = none ∨
    winner.actorRef = requester.actorRef
  global : winner.visibility = .global → winner.actorRef = requester.actorRef

theorem agreesIfKnown_iff {filter field : Option String} :
    agreesIfKnown filter field = true ↔ filter = none ∨ field = none ∨ field = filter := by
  simp only [agreesIfKnown, Bool.or_eq_true, Option.isNone_iff_eq_none, beq_iff_eq, or_assoc]

/-- A coherent replacement admits a requester of the old memory exactly if the actors agree. -/
theorem admits_iff_agrees {hint : SupersessionHint} {loser : MemoryObjectRecord}
    {requester : Requester}
    (hpersist : store.persistProcessResult result = .ok persisted)
    (hby : SupersededBy result store after loser hint winner)
    (hcoherent : Coherent result store hint winner)
    (hretrieves : requester.sees loser.decodedVisibility loser.anyContainerRef loser.actorRef = true) :
    Admits requester result store after winner ↔ Agrees requester winner := by
  have hlocated : winner.containerRef.isSome := by
    have hnonempty := hby.located
    rw [hcoherent.containerRef] at hnonempty
    cases hcontainer : winner.containerRef with
    | none =>
      rw [hcontainer] at hnonempty
      exact absurd rfl hnonempty
    | some containerRef => rfl
  obtain ⟨containerRef, hcontainer⟩ := Option.isSome_iff_exists.mp hlocated
  have hscope : requester.sees winner.visibility winner.containerRef loser.actorRef = true := by
    have hsame : loser.anyContainerRef = winner.containerRef := by
      rw [MemoryObjectRecord.anyContainerRef, hby.containerRef hcoherent.unthreaded,
        hcoherent.containerRef, hcontainer, Option.some_or]
    rw [← hsame, ← hcoherent.visibility, ← hby.visibility]
    exact hretrieves
  have hown : winner.containerRef.or winner.envelopeContainerRef = winner.containerRef := by
    rw [hcontainer, Option.some_or]
  constructor
  · intro hadmits
    refine ⟨agreesIfKnown_iff.mp hadmits.actor, fun hglobal => ?_⟩
    have hseen := hadmits.seen
    rw [hglobal] at hseen
    exact isVisible_global hseen
  · intro hagrees
    refine ⟨⟨persisted, hpersist, ?_⟩, agreesIfKnown_iff.mpr hagrees.actor, ?_, ?_⟩
    · exact ((persistProcessResult_persisted hpersist).brought winner hby.brought).2.2
        hcoherent.active
    · rw [hown]
      exact isVisible_of_actor hscope hcoherent.personal hagrees.global
    · obtain ⟨item, hitem, hsupports, hvisibility, hitemContainer, hitemActor⟩ :=
        hcoherent.supported
      refine ⟨item, hitem, ?_, Or.inl hsupports⟩
      have hreaches : reachesContainer requester.containerRef (some (item.visibility.getD .priv))
          item.containerRef = true := by
        rw [hvisibility, hitemContainer]
        exact reachesContainer_of_isVisible hscope
      have hactor : agreesIfKnown (evidenceFilters winner.actorRef requester.filters).actorRef
          item.actorRef = true := by
        rw [evidenceFilters, agreesIfKnown_iff]
        by_cases hnone : winner.actorRef = none
        · exact Or.inl (if_pos hnone)
        · rw [hitemActor hnone]
          simp only [if_neg hnone]
          exact hagrees.actor
      simp only [evidenceMatchesFilters, Bool.and_eq_true]
      exact ⟨⟨⟨⟨⟨rfl, rfl⟩, rfl⟩, hreaches⟩, rfl⟩, hactor⟩

/-- The replacement can be retrieved by whom it admits; if the package was coherent, a
requester of the old memory retrieves it exactly if the actors agree. -/
theorem retrieves_replacement_iff {loser : MemoryObjectRecord}
    (hsourced : Sourced (store.relations ++ result.relations))
    (hcommit : store.commitProcessResult result [] = (after, .ok pairs))
    (hloser : loser ∈ store.memories.rows) (hwinner : winner ∈ result.memoryObjects)
    (hreplaces : store.Replaces after loser.id winner.id) (requester : Requester)
    (hretrieves : store.retrieves requester loser.id = true) :
    (after.retrieves requester winner.id = true ↔
        Admits requester result store after winner) ∧
      ((∀ hint ∈ result.supersessionHints, hint.replacementMemoryId = winner.id →
          Coherent result store hint winner) →
        (after.retrieves requester winner.id = true ↔ Agrees requester winner)) := by
  have hadmits := retrieves_iff_admits hsourced hcommit hwinner requester
  refine ⟨hadmits, fun hcoherent => hadmits.trans ?_⟩
  obtain ⟨persisted, hpersist, rfl, hmerging⟩ := commitProcessResult_eq_ok hcommit
  have hpersisted := persistProcessResult_persisted hpersist
  obtain ⟨hpair, -, -, hreplaced⟩ :=
    hmerging.edges _ _ ((replaces_persisted_iff hpersisted _ _).mpr hreplaces)
  obtain ⟨hint, other, hid, hby⟩ :=
    supersededBy_of_replaced hpersisted hmerging hloser hpair hreplaced
  have hget : store.memories.get loser.id = some loser := Table.get_of_mem hloser
  rw [retrieves, hget, Option.any_some, Bool.and_eq_true] at hretrieves
  obtain rfl : other = winner :=
    List.inj_on_of_nodup_map hpersisted.distinct hby.brought hwinner hid
  exact admits_iff_agrees hpersist hby (hcoherent hint hby.hinted hby.replacement) hretrieves.2

end Evidence

section Actors

def privateTurn (id actorRef : String) : Ingest.SourceItem where
  id := id
  sourceType := "conversation"
  sourceId := id
  content := ""
  metadata := none
  actorRef := some actorRef
  role := some "user"
  containerRef := some "project"
  threadRef := none
  artifactKind := none
  visibility := some .priv
  sourceTurnId := none
  relayName := none
  relayAttributionState := .unnamed
  useCase := none
  processingStatus := .completed
  processingError := none
  createdAt := 0
  forgottenAt := none

def privateConstraint (id actorRef : String) (hnamed : id ≠ "") : MemoryObject where
  id := id
  type := "constraint_memory"
  payload := { Payload.empty with canonicalKey := some "no dark mode" }
  envelopeContainerRef := some "project"
  lifecycle := .active
  visibility := .priv
  containerRef := some "project"
  actorRef := some actorRef
  origin := none
  named := hnamed
  live := Lifecycle.active_ne_superseded

def turnRelation (memoryObjectId sourceItemId : String) : RelationRecord :=
  ⟨.memoryObject, memoryObjectId, .supportedBy, .sourceItem, sourceItemId⟩

/-- Alice has stated a constraint, and Bob's turn states it again. -/
def sharedProject : MemoryStore :=
  { (MemoryStore.empty.createMemoryObject (privateConstraint "hers" "alice" (by decide))).1 with
    sourceItems := ⟨[privateTurn "turn of alice" "alice", privateTurn "turn of bob" "bob"],
      by decide⟩
    relations := [turnRelation "hers" "turn of alice"] }

def restatement (actorRef : String) : ProcessResult where
  memoryObjects := [privateConstraint "restated" actorRef (by decide)]
  relations := [turnRelation "restated" ("turn of " ++ actorRef)]
  indexEntries := []
  supersessionHints :=
    [⟨"restated", "constraint_memory", "no dark mode", some "project", none, .priv⟩]
  promotionHints := []
  plain := by
    intro relation hrelation
    rw [List.mem_singleton.mp hrelation]
    exact nofun

def alice : Requester := ⟨some "project", some .priv, some "alice"⟩

/-- Alice retrieves what replaces her constraint if she has stated it herself. -/
theorem retrieves_replacement_own :
    (sharedProject.commitProcessResult (restatement "alice") []).1.retrieves alice "restated" =
      true := by
  refine ((retrieves_replacement_iff (by decide +kernel)
    (show sharedProject.commitProcessResult (restatement "alice") [] =
      ((sharedProject.commitProcessResult (restatement "alice") []).1,
        .ok [("hers", "restated")]) from Prod.ext rfl (by decide +kernel))
    (List.mem_singleton_self (privateConstraint "hers" "alice" (by decide)).record)
    (List.mem_singleton_self (privateConstraint "restated" "alice" (by decide)))
    (by decide +kernel) alice (by decide +kernel)).2 ?_).mpr ?_
  · intro hint hhint _
    rw [List.mem_singleton.mp hhint]
    refine ⟨rfl, rfl, rfl, rfl, fun _ => Or.inl rfl, privateTurn "turn of alice" "alice",
      List.mem_cons_self, by decide +kernel, rfl, rfl, fun _ => rfl⟩
  · exact ⟨Or.inr (Or.inr rfl), nofun⟩

/-- Bob's constraint replaces Alice's, and she retrieves neither afterwards. -/
theorem retrieves_replacement_other :
    sharedProject.retrieves alice "hers" = true ∧
      sharedProject.Replaces (sharedProject.commitProcessResult (restatement "bob") []).1
        "hers" "restated" ∧
      (sharedProject.commitProcessResult (restatement "bob") []).1.superseded "hers" = true ∧
      (sharedProject.commitProcessResult (restatement "bob") []).1.retrieves alice "restated" =
        false := by
  have hbefore : sharedProject.retrieves alice "hers" = true := by decide +kernel
  refine ⟨hbefore, ?_, ?_, ?_⟩
  · decide +kernel
  · decide +kernel
  · decide +kernel

end Actors

end MemoryStore

end Pallium.Memory
