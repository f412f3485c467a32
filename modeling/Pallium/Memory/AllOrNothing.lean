import Pallium.Memory.ExplicitWrite

/-!
# Explicit writes are whole or leave nothing

Wherever a storage call fails or the process stops, a correction and a supersession
have changed nothing or everything they are for: the memory, its origin and its one
lexical entry.  A call that remembers stores the memory first and its lexical entry
last, and leaves the memory without its entry if it does not get to the end.
-/

namespace Pallium.Memory

open Pallium.Access Pallium.Calls Pallium.Faults Pallium.Transaction

namespace MemoryIndex

def isLexicalOf (memoryObjectId : String) (entry : IndexEntryRecord) : Bool :=
  entry.targets .memoryObject memoryObjectId && entry.indexType == .lexical

def lexicalEntries (index : MemoryIndex) (memoryObjectId : String) : List IndexEntryRecord :=
  index.entries.rows.filter (isLexicalOf memoryObjectId)

/-- The full-text rows of a memory. -/
def lexicalRowsOf (index : MemoryIndex) (memoryObjectId : String) : List LexicalRow :=
  index.lexicalRows.filter fun row =>
    row.targetKind == .memoryObject && row.targetId == memoryObjectId

variable {index after : MemoryIndex} {memoryObjectId : String}

section

variable {entry : IndexEntryRecord} {containerRef : Option String}
  (hinsert : index.insertNew entry containerRef = some after)
include hinsert

theorem lexicalEntries_insertNew :
    after.lexicalEntries memoryObjectId =
      index.lexicalEntries memoryObjectId ++ [entry].filter (isLexicalOf memoryObjectId) := by
  rw [lexicalEntries, Table.rows_insertNew (insertNew_eq_some hinsert).1, List.filter_append]
  rfl

theorem lexicalRowsOf_insertNew :
    after.lexicalRowsOf memoryObjectId =
      index.lexicalRowsOf memoryObjectId ++
        ([entry].filter (isLexicalOf memoryObjectId)).flatMap fun entry =>
          newRows entry containerRef := by
  rw [lexicalRowsOf, (insertNew_eq_some hinsert).2, List.filter_append]
  congr 1
  cases htype : entry.indexType with
  | lexical =>
    simp only [newRows, htype, isLexicalOf, IndexEntryRecord.targets, List.filter_cons,
      List.filter_nil, BEq.rfl, Bool.and_true]
    split
    · simp [htype]
    · rfl
  | vector =>
    have hnone : isLexicalOf memoryObjectId entry = false := by
      rw [isLexicalOf, htype]
      exact Bool.and_false _
    rw [newRows, htype, List.filter_cons_of_neg (by rw [hnone]; exact Bool.false_ne_true)]
    rfl

end

/-- Whatever becomes of the vector entries, every lexical entry is added. -/
theorem lexical_addIndexEntries {containerOf : IndexEntryRecord → Option String}
    {indexEntries : List IndexEntryRecord}
    (hadd : MemoryStore.addIndexEntries containerOf index indexEntries = some after)
    (memoryObjectId : String) :
    after.lexicalEntries memoryObjectId =
        index.lexicalEntries memoryObjectId ++ indexEntries.filter (isLexicalOf memoryObjectId) ∧
      after.lexicalRowsOf memoryObjectId =
        index.lexicalRowsOf memoryObjectId ++
          (indexEntries.filter (isLexicalOf memoryObjectId)).flatMap fun entry =>
            newRows entry (containerOf entry) := by
  induction indexEntries generalizing index with
  | nil =>
    cases hadd
    exact ⟨(List.append_nil _).symm, (List.append_nil _).symm⟩
  | cons entry rest ih =>
    rw [MemoryStore.addIndexEntries] at hadd
    split at hadd
    · next added _ hinsert =>
        obtain ⟨hentries, hrows⟩ := ih hadd
        rw [hentries, hrows, lexicalEntries_insertNew hinsert, lexicalRowsOf_insertNew hinsert,
          List.append_assoc, List.append_assoc, ← List.filter_append, List.singleton_append]
        constructor
        · rfl
        · rw [List.filter_cons]
          split
          · next hlexical =>
              rw [List.filter_cons_of_pos hlexical]
              simp
          · next hother =>
              rw [List.filter_cons_of_neg hother]
              rfl
    · cases hadd
    · next _ _ htype =>
        have hother : ¬isLexicalOf memoryObjectId entry = true := by
          rw [isLexicalOf, htype]
          simp
        rw [List.filter_cons_of_neg hother]
        exact ih hadd

theorem lexicalEntries_eraseTarget (index : MemoryIndex) (erasedId memoryObjectId : String) :
    (index.eraseTarget .memoryObject erasedId).lexicalEntries memoryObjectId =
      if memoryObjectId = erasedId then [] else index.lexicalEntries memoryObjectId := by
  change (index.entries.rows.filter _).filter _ = _
  rw [List.filter_filter]
  split
  · next hsame =>
      apply List.filter_eq_nil_iff.mpr
      intro entry _
      simp only [isLexicalOf, hsame]
      cases entry.targets .memoryObject erasedId <;> simp
  · next hother =>
      apply List.filter_congr
      intro entry _
      simp only [isLexicalOf, IndexEntryRecord.targets]
      by_cases htarget : entry.targetId = memoryObjectId
      · simp [htarget, hother]
      · simp [htarget]

theorem lexicalRowsOf_eraseTarget (index : MemoryIndex) (erasedId memoryObjectId : String) :
    (index.eraseTarget .memoryObject erasedId).lexicalRowsOf memoryObjectId =
      if memoryObjectId = erasedId then [] else index.lexicalRowsOf memoryObjectId := by
  change (index.lexicalRows.filter _).filter _ = _
  rw [List.filter_filter]
  split
  · next hsame =>
      apply List.filter_eq_nil_iff.mpr
      intro row hrow
      rw [Bool.and_eq_true, Bool.and_eq_true, beq_iff_eq, beq_iff_eq, hsame]
      rintro ⟨⟨hkind, htarget⟩, hkept⟩
      rw [(rowTargets_iff hrow).mpr ⟨hkind, htarget⟩] at hkept
      cases hkept
  · next hother =>
      apply List.filter_congr
      intro row hrow
      by_cases htarget : row.targetId = memoryObjectId
      · have hkept : index.rowTargets .memoryObject erasedId row = false := by
          rw [Bool.eq_false_iff]
          intro htargets
          exact hother (htarget.symm.trans ((rowTargets_iff hrow).mp htargets).2)
        rw [hkept, Bool.not_false, Bool.and_true]
      · simp [htarget]

end MemoryIndex

namespace MemoryStore

def SameLexical (before after : MemoryStore) (memoryObjectId : String) : Prop :=
  after.index.lexicalEntries memoryObjectId = before.index.lexicalEntries memoryObjectId ∧
    after.index.lexicalRowsOf memoryObjectId = before.index.lexicalRowsOf memoryObjectId

/-- The memories with their origins and the lexical entries are as they were. -/
structure Untouched (before after : MemoryStore) : Prop where
  memories : ∀ memoryObjectId, after.memories.get memoryObjectId =
    before.memories.get memoryObjectId
  lexical : ∀ memoryObjectId, before.SameLexical after memoryObjectId

/-- A memory has exactly one lexical entry, and that has the text. -/
def Indexed (store : MemoryStore) (memoryObjectId text : String) : Prop :=
  ∃ entryId containerRef,
    store.index.lexicalEntries memoryObjectId =
        [⟨entryId, .memoryObject, memoryObjectId, .lexical, text⟩] ∧
      store.index.lexicalRowsOf memoryObjectId =
        [⟨entryId, .memoryObject, memoryObjectId, text, containerRef⟩]

/-- The memories are as expected, the target is indexed under the text, and no other
memory's lexical entries have changed. -/
structure Written (before after : MemoryStore) (targetId text : String)
    (expected : String → Option MemoryObjectRecord) : Prop where
  memories : ∀ memoryObjectId, after.memories.get memoryObjectId = expected memoryObjectId
  indexed : after.Indexed targetId text
  others : ∀ memoryObjectId, memoryObjectId ≠ targetId →
    before.SameLexical after memoryObjectId

theorem Untouched.refl (store : MemoryStore) : store.Untouched store :=
  ⟨fun _ => rfl, fun _ => ⟨rfl, rfl⟩⟩

end MemoryStore

section Entries

variable {rules : ExplicitRules} {ids : ExplicitIds} {store after : MemoryStore}
  {savepointFails : Bool}

theorem filter_keptEntries (targetId text memoryObjectId : String) :
    (keptEntries savepointFails (explicitWriteIndexEntries rules ids targetId text)).filter
        (MemoryIndex.isLexicalOf memoryObjectId) =
      if memoryObjectId = targetId then [lexicalEntry rules ids targetId text] else [] := by
  have hvector : MemoryIndex.isLexicalOf memoryObjectId (vectorEntry ids targetId text) = false :=
    Bool.and_false _
  have hlexical : MemoryIndex.isLexicalOf memoryObjectId (lexicalEntry rules ids targetId text) =
      decide (memoryObjectId = targetId) := by
    rw [MemoryIndex.isLexicalOf, IndexEntryRecord.targets]
    by_cases hsame : memoryObjectId = targetId
    · simp [lexicalEntry, hsame]
    · simp [lexicalEntry, hsame, Ne.symm hsame]
  have hkept : (keptEntries savepointFails (explicitWriteIndexEntries rules ids targetId text)).filter
      (MemoryIndex.isLexicalOf memoryObjectId) =
        (explicitWriteIndexEntries rules ids targetId text).filter
          (MemoryIndex.isLexicalOf memoryObjectId) := by
    rw [keptEntries, List.filter_filter]
    apply List.filter_congr
    intro entry hentry
    rcases List.mem_cons.mp hentry with rfl | hlast
    · simp [lexicalEntry]
    · rw [List.mem_singleton.mp hlast, hvector, Bool.false_and]
  rw [hkept, explicitWriteIndexEntries, List.filter_cons, hlexical, List.filter_cons, hvector]
  by_cases hsame : memoryObjectId = targetId <;> simp [hsame]

/-- After the entries of a write have been added to an index without lexical entries of
the target, there is exactly the new one. -/
theorem lexical_explicitWrite {containerOf : IndexEntryRecord → Option String}
    {before added : MemoryIndex} {targetId text : String}
    (hadd : MemoryStore.addIndexEntries containerOf before
      (keptEntries savepointFails (explicitWriteIndexEntries rules ids targetId text)) = some added)
    (hentries : before.lexicalEntries targetId = [])
    (hrows : before.lexicalRowsOf targetId = []) :
    (∃ entryId containerRef,
      added.lexicalEntries targetId =
          [⟨entryId, .memoryObject, targetId, .lexical, rules.normalizeForIndex text⟩] ∧
        added.lexicalRowsOf targetId =
          [⟨entryId, .memoryObject, targetId, rules.normalizeForIndex text, containerRef⟩]) ∧
      ∀ memoryObjectId, memoryObjectId ≠ targetId →
        added.lexicalEntries memoryObjectId = before.lexicalEntries memoryObjectId ∧
          added.lexicalRowsOf memoryObjectId = before.lexicalRowsOf memoryObjectId := by
  constructor
  · obtain ⟨hadded, haddedRows⟩ := MemoryIndex.lexical_addIndexEntries hadd targetId
    rw [filter_keptEntries, if_pos rfl, hentries, List.nil_append] at hadded
    rw [filter_keptEntries, if_pos rfl, hrows, List.nil_append] at haddedRows
    exact ⟨ids.lexicalEntryId, _, hadded, haddedRows⟩
  · intro memoryObjectId hother
    obtain ⟨hadded, haddedRows⟩ := MemoryIndex.lexical_addIndexEntries hadd memoryObjectId
    rw [filter_keptEntries, if_neg hother, List.append_nil] at hadded
    rw [filter_keptEntries, if_neg hother, List.flatMap_nil, List.append_nil] at haddedRows
    exact ⟨hadded, haddedRows⟩

end Entries

namespace MemoryStore

variable {rules : ExplicitRules} {ids : ExplicitIds} {store after : MemoryStore}
  {savepointFails : Bool}

/-- A correction raises and changes nothing, or it is whole. -/
theorem correctMemoryPayload_cases {memoryObjectId : String} {existing : MemoryObjectRecord}
    (hexisting : store.memories.get memoryObjectId = some existing) (newPayload : Payload)
    (correctionReason text : String) :
    (∃ error, store.correctMemoryPayload memoryObjectId newPayload correctionReason
        (keptEntries savepointFails (explicitWriteIndexEntries rules ids memoryObjectId text)) =
          (store, .error error)) ∨
      ∃ after, store.correctMemoryPayload memoryObjectId newPayload correctionReason
          (keptEntries savepointFails (explicitWriteIndexEntries rules ids memoryObjectId text)) =
            (after, .ok ()) ∧
        store.Written after memoryObjectId (rules.normalizeForIndex text) fun otherId =>
          if otherId = memoryObjectId then some (existing.corrected newPayload correctionReason)
          else store.memories.get otherId := by
  unfold correctMemoryPayload
  apply (transaction_cases _ store).symm.imp
  · rintro ⟨error, -, htransaction⟩
    exact ⟨error, htransaction⟩
  · rintro ⟨after, result, hbody, htransaction⟩
    refine ⟨after, htransaction, ?_⟩
    simp only [bind_eq_ok, orRaise_eq_ok, require_eq_ok, pure_eq_ok, Prod.mk.injEq] at hbody
    obtain ⟨found, -, -, -, index, hadd, rfl, -⟩ := hbody
    have hlexical := lexical_explicitWrite hadd
      (by rw [MemoryIndex.lexicalEntries_eraseTarget, if_pos rfl])
      (by rw [MemoryIndex.lexicalRowsOf_eraseTarget, if_pos rfl])
    have hkey : ∀ record : MemoryObjectRecord,
        key (record.corrected newPayload correctionReason) = key record := fun _ => rfl
    refine ⟨fun otherId => ?_, hlexical.1, fun otherId hother => ?_⟩
    · change (store.memories.modify memoryObjectId _).get otherId = _
      rw [Table.get_modify store.memories memoryObjectId hkey]
      by_cases hsame : otherId = memoryObjectId
      · rw [if_pos hsame, if_pos hsame, hsame, hexisting, Option.map_some]
      · rw [if_neg hsame, if_neg hsame]
    · have hadded := hlexical.2 otherId hother
      rw [MemoryIndex.lexicalEntries_eraseTarget, if_neg hother,
        MemoryIndex.lexicalRowsOf_eraseTarget, if_neg hother] at hadded
      exact hadded

/-- A supersession raises and changes nothing, or it is whole. -/
theorem createExplicitSupersession_cases {oldMemoryObjectId : String} {old : MemoryObjectRecord}
    (hold : store.memories.get oldMemoryObjectId = some old) (replacement : MemoryObject)
    (hentries : store.index.lexicalEntries replacement.id = [])
    (hrows : store.index.lexicalRowsOf replacement.id = [])
    (originSessionId originAgentId : String) (correctionReason : Option String) (text : String) :
    (∃ error, store.createExplicitSupersession oldMemoryObjectId replacement
        (keptEntries savepointFails (explicitWriteIndexEntries rules ids replacement.id text))
        originSessionId originAgentId correctionReason = (store, .error error)) ∨
      ∃ after, store.createExplicitSupersession oldMemoryObjectId replacement
          (keptEntries savepointFails (explicitWriteIndexEntries rules ids replacement.id text))
          originSessionId originAgentId correctionReason = (after, .ok ()) ∧
        store.Written after replacement.id (rules.normalizeForIndex text) fun otherId =>
          if otherId = replacement.id then
            some (replacement.record.withOrigin "agent_explicit" (some originSessionId)
              (some originAgentId))
          else if otherId = oldMemoryObjectId then
            some (old.supersededBy replacement.id correctionReason)
          else store.memories.get otherId := by
  unfold createExplicitSupersession
  apply (transaction_cases _ store).symm.imp
  · rintro ⟨error, -, htransaction⟩
    exact ⟨error, htransaction⟩
  · rintro ⟨after, result, hbody, htransaction⟩
    refine ⟨after, htransaction, ?_⟩
    simp only [bind_eq_ok, orRaise_eq_ok, require_eq_ok, pure_eq_ok, Prod.mk.injEq] at hbody
    obtain ⟨found, -, -, -, memories, hinsert, index, hadd, rfl, -⟩ := hbody
    have hlexical := lexical_explicitWrite hadd hentries hrows
    have hkey : ∀ record : MemoryObjectRecord,
        key (record.supersededBy replacement.id correctionReason) = key record := fun _ => rfl
    refine ⟨fun otherId => ?_, hlexical.1, hlexical.2⟩
    change memories.get otherId = _
    rw [Table.get_insertNew hinsert]
    by_cases hnew : otherId = replacement.id
    · rw [if_pos hnew]
      exact if_pos hnew
    · rw [if_neg hnew, if_neg (show ¬otherId = key _ from hnew),
        Table.get_modify store.memories oldMemoryObjectId hkey]
      by_cases hsame : otherId = oldMemoryObjectId
      · rw [if_pos hsame, if_pos hsame, hsame, hold, Option.map_some]
      · rw [if_neg hsame, if_neg hsame]

end MemoryStore

/-- The three explicit writes. -/
inductive ExplicitOp
  | remember (request : RememberRequest)
  | correct (request : CorrectRequest)
  | supersede (request : SupersedeRequest)

namespace ExplicitOp

def program (rules : ExplicitRules) (ids : ExplicitIds) : ExplicitOp → ExplicitProgram
  | remember request => rememberMemory rules ids request
  | correct request => correctMemory rules ids request
  | supersede request => supersedeMemory rules ids request

/-- Run a write under the faults of its storage calls.  It leaves a store, and
returns or raises unless the process stops. -/
def run (rules : ExplicitRules) (ids : ExplicitIds) (savepointFails : Bool) (op : ExplicitOp)
    (store : MemoryStore) (faults : ℕ → Fault) :
    MemoryStore × Option (Except ExplicitError String) :=
  perform (answerExplicit savepointFails) (op.program rules ids) store faults

/-- What a write is for has been done as a whole. -/
def Completed (rules : ExplicitRules) (ids : ExplicitIds) (before after : MemoryStore) :
    ExplicitOp → Prop
  | remember request => ∃ provenance,
      validateExplicitProvenance rules request.provenance = .ok provenance ∧
        before.Written after ids.memoryId (rules.normalizeForIndex request.text)
          fun memoryObjectId =>
            if memoryObjectId = ids.memoryId then
              some ((request.memory ids provenance).record.withOrigin "agent_explicit"
                (some provenance.threadRef) (some provenance.agentRef))
            else before.memories.get memoryObjectId
  | correct request => ∃ existing,
      before.memories.get request.memoryObjectId = some existing ∧
        before.Written after request.memoryObjectId
          (rules.normalizeForIndex request.correctedText) fun memoryObjectId =>
            if memoryObjectId = request.memoryObjectId then
              some (existing.corrected (request.newPayload existing) request.reason)
            else before.memories.get memoryObjectId
  | supersede request => ∃ provenance old,
      validateExplicitProvenance rules request.provenance = .ok provenance ∧
        before.memories.get request.supersedesId = some old ∧
          before.Written after ids.memoryId (rules.normalizeForIndex request.newText)
            fun memoryObjectId =>
              if memoryObjectId = ids.memoryId then
                some ((request.memory ids provenance old).record.withOrigin "agent_explicit"
                  (some provenance.threadRef) (some provenance.agentRef))
              else if memoryObjectId = request.supersedesId then
                some (old.supersededBy ids.memoryId request.reason)
              else before.memories.get memoryObjectId

/-- A write has changed nothing or all that it is for, and has stored no memory if it
raises. -/
structure AllOrNothing (rules : ExplicitRules) (ids : ExplicitIds) (op : ExplicitOp)
    (before : MemoryStore) (ending : MemoryStore × Option (Except ExplicitError String)) :
    Prop where
  whole : before.Untouched ending.1 ∨ op.Completed rules ids before ending.1
  raised : ∀ error, ending.2 = some (.error error) → ∀ memoryObjectId,
    before.memories.get memoryObjectId = none → ending.1.memories.get memoryObjectId = none

end ExplicitOp

/-- A request that passes the checks of the service. -/
def RememberRequest.Valid (rules : ExplicitRules) (request : RememberRequest) : Prop :=
  request.type ∈ allowedMemoryTypes ∧
    ∃ provenance, validateExplicitProvenance rules request.provenance = .ok provenance

structure ExplicitIds.New (ids : ExplicitIds) (store : MemoryStore) : Prop where
  memory : store.memories.get ids.memoryId = none
  target : ∀ entry ∈ store.index.entries.rows, entry.targetKind = .memoryObject →
    entry.targetId ≠ ids.memoryId
  entry : store.index.entries.get ids.lexicalEntryId = none

namespace ExplicitOp

variable {rules : ExplicitRules} {ids : ExplicitIds} {op : ExplicitOp} {store after : MemoryStore}
  {savepointFails : Bool} {faults : ℕ → Fault}

section Steps

theorem allOrNothing_same (value : Option (Except ExplicitError String)) :
    AllOrNothing rules ids op store (store, value) :=
  ⟨Or.inl (MemoryStore.Untouched.refl store), fun _ _ _ hnone => hnone⟩

theorem allOrNothing_completed {value : Option (Except ExplicitError String)}
    (hcompleted : op.Completed rules ids store after)
    (hvalue : ∀ error, value ≠ some (.error error)) :
    AllOrNothing rules ids op store (after, value) :=
  ⟨Or.inr hcompleted, fun error herror => absurd herror (hvalue error)⟩

/-- A storage call is carried out, or the call of the service is over. -/
theorem perform_attempt {call : ExplicitCall} {next : call.Answer → ExplicitProgram}
    {post : MemoryStore × Option (Except ExplicitError String) → Prop}
    (hover : ∀ value, post (store, value))
    (hdone : faults 0 = .done → post (perform (answerExplicit savepointFails)
      (next (answerExplicit savepointFails call store).2)
      (answerExplicit savepointFails call store).1 fun index => faults (index + 1))) :
    post (perform (answerExplicit savepointFails) (attempt call next) store faults) := by
  rw [attempt, ask, perform]
  cases hfault : faults 0 with
  | done => exact hdone hfault
  | fails => exact hover _
  | stops => exact hover _

end Steps

section Whole

theorem correct_allOrNothing (rules : ExplicitRules) (ids : ExplicitIds) (savepointFails : Bool)
    (request : CorrectRequest) (store : MemoryStore) (faults : ℕ → Fault) :
    AllOrNothing rules ids (correct request) store
      (run rules ids savepointFails (correct request) store faults) := by
  apply perform_attempt allOrNothing_same
  intro _
  cases hexisting : store.memories.get request.memoryObjectId with
  | none =>
    simp only [answerExplicit, hexisting, orRaise, returned, perform]
    exact allOrNothing_same _
  | some existing =>
    simp only [answerExplicit, hexisting, orRaise, returned]
    split
    · apply perform_attempt allOrNothing_same
      intro _
      apply perform_attempt allOrNothing_same
      intro _
      simp only [answerExplicit]
      rcases store.correctMemoryPayload_cases hexisting (request.newPayload existing)
          request.reason request.correctedText with
        ⟨error, hcorrect⟩ | ⟨after, hcorrect, hwritten⟩
      · rw [hcorrect]
        exact allOrNothing_same _
      · rw [hcorrect]
        exact allOrNothing_completed ⟨existing, hexisting, hwritten⟩ fun _ herror => by
          cases herror
    · exact allOrNothing_same _

theorem lexicalEntries_of_new (hnew : ids.New store) :
    store.index.lexicalEntries ids.memoryId = [] ∧
      store.index.lexicalRowsOf ids.memoryId = [] := by
  constructor
  · apply List.filter_eq_nil_iff.mpr
    intro entry hentry hlexical
    rw [MemoryIndex.isLexicalOf, IndexEntryRecord.targets, Bool.and_eq_true, Bool.and_eq_true,
      beq_iff_eq, beq_iff_eq] at hlexical
    exact hnew.target entry hentry hlexical.1.1 hlexical.1.2
  · apply List.filter_eq_nil_iff.mpr
    intro row hrow htargets
    rw [Bool.and_eq_true, beq_iff_eq, beq_iff_eq] at htargets
    obtain ⟨owner, howner, howns⟩ := store.index.owned row hrow
    exact hnew.target owner howner (howns.targetKind.trans htargets.1)
      (howns.targetId.trans htargets.2)

theorem supersede_allOrNothing (hnew : ids.New store) (request : SupersedeRequest) :
    AllOrNothing rules ids (supersede request) store
      (run rules ids savepointFails (supersede request) store faults) := by
  apply perform_attempt allOrNothing_same
  intro _
  cases hold : store.memories.get request.supersedesId with
  | none =>
    simp only [answerExplicit, hold, orRaise, returned, perform]
    exact allOrNothing_same _
  | some old =>
    simp only [answerExplicit, hold, orRaise, returned]
    split
    · cases hprovenance : validateExplicitProvenance rules request.provenance with
      | error error => exact allOrNothing_same _
      | ok provenance =>
        simp only
        split
        · exact allOrNothing_same _
        · apply perform_attempt allOrNothing_same
          intro _
          simp only [answerExplicit]
          rcases store.createExplicitSupersession_cases hold
              (request.memory ids provenance old) (lexicalEntries_of_new hnew).1
              (lexicalEntries_of_new hnew).2 provenance.threadRef provenance.agentRef
              request.reason request.newText with
            ⟨error, hsupersede⟩ | ⟨after, hsupersede, hwritten⟩
          · rw [hsupersede]
            exact allOrNothing_same _
          · rw [hsupersede]
            refine allOrNothing_completed ⟨provenance, old, hprovenance, hold, hwritten⟩ ?_
            intro error herror
            cases herror
    · exact allOrNothing_same _

end Whole

section Remember

variable {request : RememberRequest}

variable {provenance : ValidProvenance}

theorem not_allOrNothing_of_stored_part (hnew : ids.New store) {memory : MemoryObjectRecord}
    (hmemory : after.memories.get ids.memoryId = some memory) (hindex : after.index = store.index)
    (value : Option (Except ExplicitError String)) :
    ¬AllOrNothing rules ids (remember request) store (after, value) := by
  intro hatomic
  rcases hatomic.whole with huntouched | ⟨provenance, -, hwritten⟩
  · have hnone := huntouched.memories ids.memoryId
    rw [hmemory, hnew.memory] at hnone
    cases hnone
  · obtain ⟨entryId, containerRef, hentries, -⟩ := hwritten.indexed
    rw [hindex, (lexicalEntries_of_new hnew).1] at hentries
    cases hentries

/-- The store after the memory and its origin have been written. -/
structure Stored (ids : ExplicitIds) (store after : MemoryStore) (record : MemoryObjectRecord) :
    Prop where
  memories : ∀ memoryObjectId, after.memories.get memoryObjectId =
    if memoryObjectId = ids.memoryId then some record else store.memories.get memoryObjectId
  index : after.index = store.index

theorem createMemoryObject_stored (hnew : ids.New store) (provenance : ValidProvenance) :
    ∃ created, store.createMemoryObject (request.memory ids provenance) = (created, .ok ()) ∧
      Stored ids store created (request.memory ids provenance).record := by
  have hfree : store.memories.get (key (request.memory ids provenance).record) = none :=
    hnew.memory
  obtain ⟨memories, hinsert⟩ := Table.insertNew_isSome hfree
  refine ⟨{ store with memories := memories }, ?_, ?_, rfl⟩
  · apply transaction_of_ok
    rw [hinsert]
    rfl
  · exact Table.get_insertNew hinsert

theorem markMemoryOrigin_stored {created : MemoryStore} {record : MemoryObjectRecord}
    (hcreated : Stored ids store created record) (originSessionId originAgentId : Option String) :
    ∃ marked, created.markMemoryOrigin ids.memoryId "agent_explicit" originSessionId
          originAgentId = (marked, .ok ()) ∧
      Stored ids store marked
        (record.withOrigin "agent_explicit" originSessionId originAgentId) := by
  have hget : created.memories.get ids.memoryId = some record := by
    rw [hcreated.memories, if_pos rfl]
  have hkey : ∀ record : MemoryObjectRecord,
      key (record.withOrigin "agent_explicit" originSessionId originAgentId) = key record :=
    fun _ => rfl
  have hmarked : created.markMemoryOrigin ids.memoryId "agent_explicit" originSessionId
      originAgentId =
        ({ created with
            memories := created.memories.modify ids.memoryId
              (MemoryObjectRecord.withOrigin "agent_explicit" originSessionId originAgentId) },
          .ok ()) := by
    apply transaction_of_ok
    rw [require, if_pos (by decide), hget]
    rfl
  refine ⟨_, hmarked, fun memoryObjectId => ?_, ?_⟩
  · change (created.memories.modify ids.memoryId _).get memoryObjectId = _
    rw [Table.get_modify created.memories ids.memoryId hkey, hcreated.memories]
    by_cases hsame : memoryObjectId = ids.memoryId
    · rw [if_pos hsame, if_pos hsame, if_pos hsame]
      rfl
    · rw [if_neg hsame, if_neg hsame, if_neg hsame]
  · exact hcreated.index

/-- The lexical entry makes the write whole. -/
theorem createIndexEntry_completed {marked : MemoryStore} (hnew : ids.New store)
    (hprovenance : validateExplicitProvenance rules request.provenance = .ok provenance)
    (hmarked : Stored ids store marked
      ((request.memory ids provenance).record.withOrigin "agent_explicit"
        (some provenance.threadRef) (some provenance.agentRef))) :
    ∃ indexed, marked.createIndexEntry (lexicalEntry rules ids ids.memoryId request.text) =
        (indexed, .ok ()) ∧
      Completed rules ids store indexed (remember request) := by
  have hfree : marked.index.entries.get
      (key (lexicalEntry rules ids ids.memoryId request.text)) = none := by
    rw [hmarked.index]
    exact hnew.entry
  obtain ⟨entries, hentries⟩ := Table.insertNew_isSome hfree
  have hinsert : ∃ index, marked.index.insertNew
      (lexicalEntry rules ids ids.memoryId request.text) (MemoryStore.resolveContainerRef
        marked.memories marked.sourceItems
        (lexicalEntry rules ids ids.memoryId request.text)) = some index := by
    unfold MemoryIndex.insertNew
    split
    · next hnone =>
        rw [hentries] at hnone
        cases hnone
    · exact ⟨_, rfl⟩
  obtain ⟨index, hindex⟩ := hinsert
  have hadd : MemoryStore.addIndexEntries
      (MemoryStore.resolveContainerRef marked.memories marked.sourceItems) marked.index
      (keptEntries true (explicitWriteIndexEntries rules ids ids.memoryId request.text)) =
        some index := by
    change MemoryStore.addIndexEntries _ _ [lexicalEntry rules ids ids.memoryId request.text] = _
    rw [MemoryStore.addIndexEntries, hindex]
    rfl
  have hlexical := lexical_explicitWrite hadd
    (by rw [hmarked.index]; exact (lexicalEntries_of_new hnew).1)
    (by rw [hmarked.index]; exact (lexicalEntries_of_new hnew).2)
  rw [hmarked.index] at hlexical
  refine ⟨{ marked with index := index }, transaction_of_ok ?_, provenance, hprovenance,
    hmarked.memories, hlexical.1, hlexical.2⟩
  rw [hindex]
  rfl

theorem Completed.createVectorEntry {indexed : MemoryStore}
    (hcompleted : Completed rules ids store indexed (remember request)) (text : String) :
    Completed rules ids store
      (indexed.createIndexEntry (vectorEntry ids ids.memoryId text)).1 (remember request) := by
  obtain ⟨provenance, hprovenance, hwritten⟩ := hcompleted
  rw [MemoryStore.createIndexEntry]
  rcases transaction_cases _ indexed with
    ⟨after, result, hbody, htransaction⟩ | ⟨error, -, htransaction⟩
  · rw [htransaction]
    simp only [bind_eq_ok, orRaise_eq_ok, pure_eq_ok, Prod.mk.injEq] at hbody
    obtain ⟨index, hinsert, rfl, -⟩ := hbody
    have hvector : ∀ memoryObjectId, index.lexicalEntries memoryObjectId =
          indexed.index.lexicalEntries memoryObjectId ∧
        index.lexicalRowsOf memoryObjectId = indexed.index.lexicalRowsOf memoryObjectId := by
      intro memoryObjectId
      have hother : ¬MemoryIndex.isLexicalOf memoryObjectId
          (vectorEntry ids ids.memoryId text) = true := by
        simp [MemoryIndex.isLexicalOf, vectorEntry]
      rw [MemoryIndex.lexicalEntries_insertNew hinsert, MemoryIndex.lexicalRowsOf_insertNew hinsert,
        List.filter_cons_of_neg hother]
      exact ⟨List.append_nil _, List.append_nil _⟩
    refine ⟨provenance, hprovenance, hwritten.memories, ?_, fun memoryObjectId hother => ?_⟩
    · obtain ⟨entryId, containerRef, hentries, hrows⟩ := hwritten.indexed
      exact ⟨entryId, containerRef, (hvector _).1.trans hentries, (hvector _).2.trans hrows⟩
    · obtain ⟨hentries, hrows⟩ := hwritten.others memoryObjectId hother
      exact ⟨(hvector _).1.trans hentries, (hvector _).2.trans hrows⟩
  · rw [htransaction]
    exact ⟨provenance, hprovenance, hwritten⟩

/-- What a call that remembers does once the memory has its origin. -/
def indexRemembered (rules : ExplicitRules) (ids : ExplicitIds) (request : RememberRequest) :
    ExplicitProgram :=
  attempt (.createIndexEntry (lexicalEntry rules ids ids.memoryId request.text)) <|
    returned fun _ =>
      .call (.createIndexEntry (vectorEntry ids ids.memoryId request.text)) fun _ =>
        .done (.ok ids.memoryId)

/-- What a call that remembers does once the memory is stored. -/
def markRemembered (rules : ExplicitRules) (ids : ExplicitIds) (request : RememberRequest)
    (provenance : ValidProvenance) : ExplicitProgram :=
  attempt (.markMemoryOrigin ids.memoryId "agent_explicit" (some provenance.threadRef)
    (some provenance.agentRef)) <| returned fun _ => indexRemembered rules ids request

section

variable (hnew : ids.New store)
  (hprovenance : validateExplicitProvenance rules request.provenance = .ok provenance)
include hnew hprovenance

theorem indexRemembered_iff {marked : MemoryStore}
    (hmarked : Stored ids store marked
      ((request.memory ids provenance).record.withOrigin "agent_explicit"
        (some provenance.threadRef) (some provenance.agentRef))) :
    AllOrNothing rules ids (remember request) store
        (perform (answerExplicit savepointFails) (indexRemembered rules ids request) marked
          faults) ↔
      faults 0 = .done := by
  have hmemory := (hmarked.memories ids.memoryId).trans (if_pos rfl)
  simp only [indexRemembered, attempt, ask, perform]
  cases hfault : faults 0 with
  | fails =>
    exact iff_of_false (not_allOrNothing_of_stored_part hnew hmemory hmarked.index _)
      fun hdone => by cases hdone
  | stops =>
    exact iff_of_false (not_allOrNothing_of_stored_part hnew hmemory hmarked.index _)
      fun hdone => by cases hdone
  | done =>
    obtain ⟨indexed, hindex, hindexed⟩ := createIndexEntry_completed hnew hprovenance hmarked
    simp only [answerExplicit, hindex, returned, perform]
    refine iff_of_true ?_ trivial
    split
    · exact allOrNothing_completed (hindexed.createVectorEntry _) fun _ herror => by cases herror
    · exact allOrNothing_completed hindexed fun _ herror => by cases herror
    · exact allOrNothing_completed hindexed fun _ herror => by cases herror

theorem markRemembered_iff {created : MemoryStore}
    (hcreated : Stored ids store created (request.memory ids provenance).record) :
    AllOrNothing rules ids (remember request) store
        (perform (answerExplicit savepointFails) (markRemembered rules ids request provenance)
          created faults) ↔
      faults 0 = .done ∧ faults 1 = .done := by
  have hmemory := (hcreated.memories ids.memoryId).trans (if_pos rfl)
  simp only [markRemembered, attempt, ask, perform]
  cases hfault : faults 0 with
  | fails =>
    exact iff_of_false (not_allOrNothing_of_stored_part hnew hmemory hcreated.index _)
      fun hdone => by cases hdone.1
  | stops =>
    exact iff_of_false (not_allOrNothing_of_stored_part hnew hmemory hcreated.index _)
      fun hdone => by cases hdone.1
  | done =>
    obtain ⟨marked, hmark, hmarked⟩ := markMemoryOrigin_stored hcreated
      (some provenance.threadRef) (some provenance.agentRef)
    simp only [answerExplicit, hmark, returned, true_and]
    exact indexRemembered_iff hnew hprovenance hmarked

end

theorem remember_allOrNothing_iff (hnew : ids.New store) :
    AllOrNothing rules ids (remember request) store
        (run rules ids savepointFails (remember request) store faults) ↔
      (request.Valid rules → faults 0 = .done → faults 1 = .done ∧ faults 2 = .done) := by
  rw [run, program, rememberMemory]
  split
  · next hother =>
      exact iff_of_true (allOrNothing_same _) fun hvalid => absurd hvalid.1 hother
  · next hallowed =>
      rw [not_not] at hallowed
      cases hprovenance : validateExplicitProvenance rules request.provenance with
      | error error =>
        refine iff_of_true (allOrNothing_same _) fun hvalid => ?_
        obtain ⟨provenance, hok⟩ := hvalid.2
        rw [hprovenance] at hok
        cases hok
      | ok provenance =>
        have hvalid : request.Valid rules := ⟨hallowed, provenance, hprovenance⟩
        obtain ⟨created, hcreate, hcreated⟩ := createMemoryObject_stored hnew provenance
        change AllOrNothing rules ids (remember request) store
          (perform (answerExplicit savepointFails)
            (attempt (.createMemoryObject (request.memory ids provenance)) <|
              returned fun _ => markRemembered rules ids request provenance) store faults) ↔ _
        simp only [attempt, ask, perform]
        cases hfault : faults 0 with
        | fails => exact iff_of_true (allOrNothing_same _) fun _ hdone => by cases hdone
        | stops => exact iff_of_true (allOrNothing_same _) fun _ hdone => by cases hdone
        | done =>
          have hanswer : answerExplicit savepointFails
              (.createMemoryObject (request.memory ids provenance)) store =
                (created, .ok ()) := hcreate
          simp only [hanswer, returned, hvalid, forall_const]
          exact markRemembered_iff hnew hprovenance hcreated

end Remember

/-- The faults do not fall between the storing of a remembered memory and its lexical
entry. -/
def Unbroken (rules : ExplicitRules) (faults : ℕ → Fault) : ExplicitOp → Prop
  | remember request =>
    request.Valid rules → faults 0 = .done → faults 1 = .done ∧ faults 2 = .done
  | correct _ => True
  | supersede _ => True

/-- Explicit writes are whole or leave nothing exactly if no fault falls between the
storing of a remembered memory and its lexical entry. -/
theorem allOrNothing_iff (hnew : ids.New store) (savepointFails : Bool) (op : ExplicitOp)
    (faults : ℕ → Fault) :
    AllOrNothing rules ids op store (run rules ids savepointFails op store faults) ↔
      op.Unbroken rules faults := by
  cases op with
  | remember request => exact remember_allOrNothing_iff hnew
  | correct request =>
    exact iff_of_true (correct_allOrNothing rules ids savepointFails request store faults)
      trivial
  | supersede request => exact iff_of_true (supersede_allOrNothing hnew request) trivial

section Note

def plainRules : ExplicitRules := ⟨id, id⟩

def noteIds : ExplicitIds := ⟨"note", "lexical", "vector", by decide⟩

def noteRequest : RememberRequest where
  text := "the release is on friday"
  type := "note"
  confidence := none
  evidence := []
  provenance :=
    { containerRef := some "project"
      actorRef := some "user"
      threadRef := some "thread"
      visibility := some .container
      agentRef := some "agent"
      originSessionId := none
      originAgentId := none }

theorem noteIds_new : noteIds.New MemoryStore.empty :=
  ⟨rfl, List.forall_mem_nil _, rfl⟩

theorem noteRequest_valid : noteRequest.Valid plainRules :=
  ⟨by decide +kernel, ⟨"project", "user", "thread", "agent", .container⟩, by decide +kernel⟩

theorem allOrNothing_iff_note :
    AllOrNothing plainRules noteIds (remember noteRequest) MemoryStore.empty
      (run plainRules noteIds false (remember noteRequest) MemoryStore.empty fun _ => .done) :=
  (allOrNothing_iff noteIds_new false (remember noteRequest) fun _ => .done).mpr
    fun _ _ => ⟨rfl, rfl⟩

/-- The call that sets the origin raises. -/
def originFails (index : ℕ) : Fault := if index = 1 then .fails else .done

/-- A call that remembers raises, and has stored the memory without its origin and its
lexical entry. -/
theorem remember_stores_and_raises :
    ¬AllOrNothing plainRules noteIds (remember noteRequest) MemoryStore.empty
        (run plainRules noteIds false (remember noteRequest) MemoryStore.empty originFails) ∧
      (run plainRules noteIds false (remember noteRequest) MemoryStore.empty originFails).2 =
        some (.error .storeFailed) ∧
      (run plainRules noteIds false (remember noteRequest) MemoryStore.empty
        originFails).1.memories.rows.map MemoryObjectRecord.id = ["note"] ∧
      (run plainRules noteIds false (remember noteRequest) MemoryStore.empty
        originFails).1.index.entries.rows = [] := by
  refine ⟨fun hatomic => ?_, by decide +kernel, by decide +kernel, by decide +kernel⟩
  have hfaults := (remember_allOrNothing_iff noteIds_new).mp hatomic noteRequest_valid rfl
  exact nomatch hfaults.1

end Note

end ExplicitOp

end Pallium.Memory
