import Pallium.Ingest.Attribution

/-!
# Completeness of ingested items

Ingests of one source id follow each other, and any of their calls may fail or be
the point at which the process stops.  The item and its lexical index entry are
created by two calls, so an item whose ingest is cut off between them has no entry,
and later ingests return it as it is.  As long as the second call takes effect, the
item has its entry exactly once.
-/

namespace Pallium.Ingest

open Pallium.Calls Pallium.Faults Pallium.Run

/-- An ingest with the faults of its calls. -/
structure IngestCall where
  draws : Draws
  request : IngestRequest
  faults : ℕ → Fault

/-- What becomes of a storage and what the ingest returns, unless it stops. -/
def IngestCall.perform (setup : Setup) (storage : Storage) (call : IngestCall) :
    Storage × Option (Except IngestError IngestResult) :=
  Calls.perform (answer setup.toWorkRefRules) (ingestItem setup call.draws call.request) storage call.faults

def IngestCall.step (setup : Setup) (storage : Storage) (call : IngestCall) : Storage :=
  (call.perform setup storage).1

/-- The storage after a sequence of ingests. -/
def ingested (setup : Setup) (calls : List IngestCall) : Storage :=
  run (IngestCall.step setup) Storage.empty calls

def IngestRequest.Names (sourceType sourceId : String) (request : IngestRequest) : Prop :=
  request.sourceType = sourceType ∧ request.sourceId = sourceId

def SourceItem.Names (sourceType sourceId : String) (item : SourceItem) : Prop :=
  item.sourceType = sourceType ∧ item.sourceId = sourceId

def lexicalEntry (setup : Setup) (entryId : String) (item : SourceItem) : IndexEntry :=
  ⟨entryId, item.id, .lexical, setup.normalizeForIndex item.content, sourceItemContentTextView⟩

/-- The full-text row of an item. -/
def lexicalRow (setup : Setup) (entryId : String) (item : SourceItem) : LexicalRow :=
  ⟨entryId, item.id, setup.normalizeForIndex item.content, sourceItemContentTextView,
    item.containerRef⟩

def lexicalEntriesOf (storage : Storage) (sourceItemId : String) : List IndexEntry :=
  storage.indexEntries.rows.filter fun entry =>
    entry.targetId == sourceItemId && entry.indexType == .lexical

def lexicalRowsOf (storage : Storage) (sourceItemId : String) : List LexicalRow :=
  storage.lexicalRows.filter fun row => row.targetId == sourceItemId

/-- The item has its lexical index entry and its full-text row exactly once. -/
def IndexedOnce (setup : Setup) (storage : Storage) (item : SourceItem) : Prop :=
  ∃ entryId, lexicalEntriesOf storage item.id = [lexicalEntry setup entryId item] ∧
    lexicalRowsOf storage item.id = [lexicalRow setup entryId item]

/-- A call that creates a lexical index entry. -/
def LexicalIndexing : Request → Prop
  | .createIndexEntry entry => entry.indexType = .lexical
  | _ => False

/-- The call that creates the lexical index entry, if the ingest gets so far, takes
effect: it does not fail, the process does not stop at it, and the identifier that
is drawn for the entry is new. -/
def IndexingTakesEffect (setup : Setup) (storage : Storage) (call : IngestCall) : Prop :=
  storage.indexEntries.get call.draws.lexicalEntryId = none ∧
    Answered (answer setup.toWorkRefRules) LexicalIndexing
      (ingestItem setup call.draws call.request) storage call.faults

structure CompletenessInvariant (setup : Setup) (sourceType sourceId : String)
    (storage : Storage) : Prop where
  entries : ∀ entry ∈ storage.indexEntries.rows, ∃ item,
    storage.sourceItems.get entry.targetId = some item
  lexicalRows : ∀ row ∈ storage.lexicalRows, ∃ item,
    storage.sourceItems.get row.targetId = some item
  indexed : ∀ item ∈ storage.sourceItems.rows, item.Names sourceType sourceId →
    IndexedOnce setup storage item

/-- What an ingest returns: the item under its source id, or the user row that its
turn has already. -/
def Returned (request : IngestRequest) (storage : Storage) (result : IngestResult) : Prop :=
  ∃ item, storage.sourceItems.get result.sourceItemId = some item ∧
    (item.Names request.sourceType request.sourceId ∨
      ∃ turn, item.isUserOf turn ∧ turn.sourceType = request.sourceType ∧
        request.sourceTurnId = some turn.sourceTurnId)

section Entries

variable {setup : Setup} {sourceType sourceId : String} {storage after : Storage}
  {item : SourceItem} {entry : IndexEntry}

variable {entryId : String}

theorem indexEntries_of_created (hcreated : storage.createIndexEntry entry = .ok after) :
    after.indexEntries.rows = storage.indexEntries.rows ++ [entry] ∧
      after.sourceItems = storage.sourceItems ∧
      after.lexicalRows = (match entry.indexType with
        | .lexical => storage.lexicalRows ++
            [⟨entry.id, entry.targetId, entry.textView, entry.textViewName,
              (storage.sourceItems.get entry.targetId).bind SourceItem.containerRef⟩]
        | .vector => storage.lexicalRows) := by
  unfold Storage.createIndexEntry at hcreated
  cases hinsert : storage.indexEntries.insertNew entry with
  | none =>
    rw [hinsert] at hcreated
    cases hcreated
  | some indexEntries =>
    rw [hinsert] at hcreated
    cases hcreated
    exact ⟨Table.rows_insertNew hinsert, rfl, rfl⟩

theorem createIndexEntry_succeeds (hnone : storage.indexEntries.get entryId = none)
    (entry : IndexEntry) (hentry : entry.id = entryId) :
    ∃ after, storage.createIndexEntry entry = .ok after := by
  subst hentry
  obtain ⟨indexEntries, hinsert⟩ := @Table.insertNew_isSome _ _ _ _ storage.indexEntries entry hnone
  unfold Storage.createIndexEntry
  rw [hinsert]
  exact ⟨_, rfl⟩

theorem lexicalEntriesOf_created_eq (hcreated : storage.createIndexEntry entry = .ok after)
    {sourceItemId : String} (hother : entry.targetId ≠ sourceItemId ∨ entry.indexType = .vector) :
    lexicalEntriesOf after sourceItemId = lexicalEntriesOf storage sourceItemId ∧
      lexicalRowsOf after sourceItemId = lexicalRowsOf storage sourceItemId := by
  obtain ⟨hrows, -, hlexical⟩ := indexEntries_of_created hcreated
  unfold lexicalEntriesOf lexicalRowsOf
  rw [hrows, hlexical, List.filter_append]
  constructor
  · have hnone : [entry].filter (fun entry =>
        entry.targetId == sourceItemId && entry.indexType == .lexical) = [] := by
      rcases hother with hne | hvector
      · simp [hne]
      · simp [hvector]
    rw [hnone, List.append_nil]
  · rcases hother with hne | hvector
    · split
      · rw [List.filter_append]
        simp [hne]
      · rfl
    · rw [hvector]

theorem indexedOnce_of_created
    (hcreated : storage.createIndexEntry (lexicalEntry setup entryId item) = .ok after)
    (hstored : storage.sourceItems.get item.id = some item)
    (hentries : lexicalEntriesOf storage item.id = []) (hrows : lexicalRowsOf storage item.id = []) :
    IndexedOnce setup after item := by
  obtain ⟨hafter, -, hlexical⟩ := indexEntries_of_created hcreated
  refine ⟨entryId, ?_, ?_⟩
  · calc
      lexicalEntriesOf after item.id =
          lexicalEntriesOf storage item.id ++ [lexicalEntry setup entryId item].filter
            (fun entry => entry.targetId == item.id && entry.indexType == .lexical) := by
        rw [lexicalEntriesOf, hafter, List.filter_append]
        rfl
      _ = [lexicalEntry setup entryId item] := by
        rw [hentries]
        simp [lexicalEntry]
  · calc
      lexicalRowsOf after item.id =
          lexicalRowsOf storage item.id ++ [lexicalRow setup entryId item].filter
            (fun row => row.targetId == item.id) := by
        rw [lexicalRowsOf, hlexical]
        simp only [lexicalEntry]
        rw [List.filter_append, hstored]
        rfl
      _ = [lexicalRow setup entryId item] := by
        rw [hrows]
        simp [lexicalRow]

theorem CompletenessInvariant.empty :
    CompletenessInvariant setup sourceType sourceId Storage.empty where
  entries := List.forall_mem_nil _
  lexicalRows := List.forall_mem_nil _
  indexed := List.forall_mem_nil _

theorem CompletenessInvariant.entryCreated
    (hinvariant : CompletenessInvariant setup sourceType sourceId storage)
    (hcreated : storage.createIndexEntry entry = .ok after)
    (hstored : storage.sourceItems.get entry.targetId = some item)
    (hother : ¬ item.Names sourceType sourceId ∨ entry.indexType = .vector) :
    CompletenessInvariant setup sourceType sourceId after := by
  obtain ⟨hrows, hitems, hlexical⟩ := indexEntries_of_created hcreated
  refine ⟨fun other hmem => ?_, fun row hmem => ?_, fun other hmem hnames => ?_⟩
  · rw [hitems]
    rw [hrows] at hmem
    rcases List.mem_append.mp hmem with hold | hnew
    · exact hinvariant.entries other hold
    · rw [List.mem_singleton.mp hnew]
      exact ⟨item, hstored⟩
  · rw [hitems]
    rw [hlexical] at hmem
    split at hmem
    · rcases List.mem_append.mp hmem with hold | hnew
      · exact hinvariant.lexicalRows row hold
      · rw [List.mem_singleton.mp hnew]
        exact ⟨item, hstored⟩
    · exact hinvariant.lexicalRows row hmem
  · rw [hitems] at hmem
    have hkept : entry.targetId ≠ other.id ∨ entry.indexType = .vector := by
      rcases hother with hnot | hvector
      · left
        intro hsame
        have hget : storage.sourceItems.get other.id = some other := Table.get_of_mem hmem
        rw [hsame, hget] at hstored
        exact hnot (Option.some.inj hstored ▸ hnames)
      · exact Or.inr hvector
    obtain ⟨hentries, hlexicalRows⟩ := lexicalEntriesOf_created_eq hcreated hkept
    obtain ⟨entryId, hentry, hrow⟩ := hinvariant.indexed other hmem hnames
    exact ⟨entryId, hentries.trans hentry, hlexicalRows.trans hrow⟩

theorem CompletenessInvariant.lexicalEntriesOf_eq_nil
    (hinvariant : CompletenessInvariant setup sourceType sourceId storage)
    {sourceItemId : String} (hnone : storage.sourceItems.get sourceItemId = none) :
    lexicalEntriesOf storage sourceItemId = [] ∧ lexicalRowsOf storage sourceItemId = [] := by
  constructor
  · apply List.filter_eq_nil_iff.mpr
    intro entry hmem hentry
    obtain ⟨item, hget⟩ := hinvariant.entries entry hmem
    rw [Bool.and_eq_true, beq_iff_eq] at hentry
    rw [hentry.1, hnone] at hget
    cases hget
  · apply List.filter_eq_nil_iff.mpr
    intro row hmem hrow
    obtain ⟨item, hget⟩ := hinvariant.lexicalRows row hmem
    rw [beq_iff_eq] at hrow
    rw [hrow, hnone] at hget
    cases hget

theorem mem_rows_of_insertNew {sourceItems : Table SourceItem} {other : SourceItem}
    (hinsert : storage.sourceItems.insertNew item = some sourceItems)
    (hmem : other ∈ sourceItems.rows) : other ∈ storage.sourceItems.rows ∨ other = item := by
  rw [Table.rows_insertNew hinsert] at hmem
  rcases List.mem_append.mp hmem with hold | hnew
  · exact Or.inl hold
  · exact Or.inr (List.mem_singleton.mp hnew)

theorem CompletenessInvariant.itemCreated
    (hinvariant : CompletenessInvariant setup sourceType sourceId storage)
    (hinsert : storage.sourceItems.insertNew item = some after.sourceItems)
    (hentries : after.indexEntries = storage.indexEntries)
    (hlexical : after.lexicalRows = storage.lexicalRows)
    (hother : ¬ item.Names sourceType sourceId) :
    CompletenessInvariant setup sourceType sourceId after := by
  have hkept : Kept storage after := kept_of_insertNew hinsert rfl
  refine ⟨fun entry hmem => ?_, fun row hmem => ?_, fun other hmem hnames => ?_⟩
  · rw [hentries] at hmem
    obtain ⟨target, hget⟩ := hinvariant.entries entry hmem
    obtain ⟨forgottenAt, hlater⟩ := hkept _ target hget
    exact ⟨_, hlater⟩
  · rw [hlexical] at hmem
    obtain ⟨target, hget⟩ := hinvariant.lexicalRows row hmem
    obtain ⟨forgottenAt, hlater⟩ := hkept _ target hget
    exact ⟨_, hlater⟩
  · rcases mem_rows_of_insertNew hinsert hmem with hold | rfl
    · unfold IndexedOnce lexicalEntriesOf lexicalRowsOf
      rw [hentries, hlexical]
      exact hinvariant.indexed other hold hnames
    · exact absurd hnames hother

/-- Creating the item under the source id and then its lexical entry keeps the
invariant. -/
theorem CompletenessInvariant.itemIndexed {created indexed : Storage}
    (hinvariant : CompletenessInvariant setup sourceType sourceId storage)
    (hnone : ∀ other ∈ storage.sourceItems.rows, ¬ other.Names sourceType sourceId)
    (hinsert : storage.sourceItems.insertNew item = some created.sourceItems)
    (hentries : created.indexEntries = storage.indexEntries)
    (hlexical : created.lexicalRows = storage.lexicalRows)
    (hindexed : created.createIndexEntry (lexicalEntry setup entryId item) = .ok indexed) :
    CompletenessInvariant setup sourceType sourceId indexed := by
  obtain ⟨hrows, hitems, hafter⟩ := indexEntries_of_created hindexed
  have hstored : created.sourceItems.get item.id = some item := by
    rw [Table.get_insertNew hinsert]
    exact if_pos rfl
  have hkept : Kept storage indexed := kept_of_insertNew hinsert hitems
  have hnew : ∃ target, indexed.sourceItems.get item.id = some target := by
    rw [hitems]
    exact ⟨item, hstored⟩
  refine ⟨fun entry hmem => ?_, fun row hmem => ?_, fun other hmem hnames => ?_⟩
  · rw [hrows, hentries] at hmem
    rcases List.mem_append.mp hmem with hold | hfresh
    · obtain ⟨target, hget⟩ := hinvariant.entries entry hold
      obtain ⟨forgottenAt, hlater⟩ := hkept _ target hget
      exact ⟨_, hlater⟩
    · rw [List.mem_singleton.mp hfresh]
      exact hnew
  · rw [hafter, hlexical] at hmem
    rcases List.mem_append.mp hmem with hold | hfresh
    · obtain ⟨target, hget⟩ := hinvariant.lexicalRows row hold
      obtain ⟨forgottenAt, hlater⟩ := hkept _ target hget
      exact ⟨_, hlater⟩
    · rw [List.mem_singleton.mp hfresh]
      exact hnew
  · rw [hitems] at hmem
    rcases mem_rows_of_insertNew hinsert hmem with hold | rfl
    · exact absurd hnames (hnone other hold)
    · have habsent : storage.sourceItems.get other.id = none :=
        Table.get_eq_none_of_insertNew hinsert
      obtain ⟨hentriesOf, hrowsOf⟩ := hinvariant.lexicalEntriesOf_eq_nil habsent
      apply indexedOnce_of_created hindexed hstored
      · rw [lexicalEntriesOf, hentries]
        exact hentriesOf
      · rw [lexicalRowsOf, hlexical]
        exact hrowsOf

end Entries

section Programs

variable {setup : Setup} {sourceType sourceId : String} {draws : Draws} {request : IngestRequest}
  {containerRef : Option String} {attribution : Attribution} {storage : Storage}
  {faults : ℕ → Fault} {item : SourceItem}

/-- What holds at the end of an ingest. -/
def WellEnded (setup : Setup) (sourceType sourceId : String) (request : IngestRequest)
    (ending : Storage × Option (Except IngestError IngestResult)) : Prop :=
  CompletenessInvariant setup sourceType sourceId ending.1 ∧
    ∀ result, ending.2 = some (.ok result) → Returned request ending.1 result

abbrev EndsWell (setup : Setup) (sourceType sourceId : String) (request : IngestRequest)
    (program : IngestProgram) (storage : Storage) (faults : ℕ → Fault) : Prop :=
  Ends (answer setup.toWorkRefRules) LexicalIndexing (request.Names sourceType sourceId)
    (WellEnded setup sourceType sourceId request) program storage faults

section

variable (hinvariant : CompletenessInvariant setup sourceType sourceId storage)
include hinvariant

theorem wellEnded_error (error : IngestError) :
    WellEnded setup sourceType sourceId request (storage, some (.error error)) :=
  ⟨hinvariant, fun _ hresult => nomatch hresult⟩

theorem wellEnded_stopped :
    WellEnded setup sourceType sourceId request (storage, none) :=
  ⟨hinvariant, fun _ hresult => nomatch hresult⟩

theorem endsWell_ask {call : Request} {next : call.Answer → IngestProgram}
    (hnext : EndsWell setup sourceType sourceId request (next (answer setup.toWorkRefRules call storage).2)
      (answer setup.toWorkRefRules call storage).1 fun index => faults (index + 1)) :
    EndsWell setup sourceType sourceId request (ask (.error .storage) call next) storage faults :=
  Ends.ask hnext (fun _ => wellEnded_error hinvariant _) (fun _ => wellEnded_stopped hinvariant)

theorem endsWell_error (error : IngestError) :
    EndsWell setup sourceType sourceId request (.done (.error error)) storage faults :=
  Ends.done (wellEnded_error hinvariant error)

theorem endsWell_buildIngestResult {item : SourceItem}
    (hget : storage.sourceItems.get item.id = some item)
    (hitem : item.Names request.sourceType request.sourceId ∨
      ∃ turn, item.isUserOf turn ∧ turn.sourceType = request.sourceType ∧
        request.sourceTurnId = some turn.sourceTurnId) :
    EndsWell setup sourceType sourceId request (buildIngestResult item) storage faults := by
  apply endsWell_ask hinvariant
  apply Ends.done
  refine ⟨hinvariant, fun result hresult => ?_⟩
  rw [← Except.ok.inj (Option.some.inj hresult)]
  exact ⟨item, hget, hitem⟩

theorem endsWell_buildSourceItemVectorEntry {item target : SourceItem} {next : IngestProgram}
    (hget : storage.sourceItems.get item.id = some target)
    (hnext : ∀ later faults, CompletenessInvariant setup sourceType sourceId later →
      later.sourceItems = storage.sourceItems →
      EndsWell setup sourceType sourceId request next later faults) :
    EndsWell setup sourceType sourceId request (buildSourceItemVectorEntry setup draws item next)
      storage faults := by
  unfold buildSourceItemVectorEntry
  split
  · exact hnext storage _ hinvariant rfl
  · next text htext =>
      have hsame := hnext storage (fun index => faults (index + 1)) hinvariant rfl
      apply Ends.call
      · intro _
        simp only [answer]
        split
        · exact hsame
        · exact hsame
        · apply Ends.call
          · intro _
            simp only [answer]
            cases hcreated : storage.createIndexEntry
                ⟨draws.vectorEntryId, item.id, .vector, text, sourceItemVectorTextView⟩ with
            | error error => exact hnext storage _ hinvariant rfl
            | ok after =>
              apply hnext after
              · exact hinvariant.entryCreated hcreated hget (Or.inr rfl)
              · exact (indexEntries_of_created hcreated).2.1
          · exact fun _ => hnext storage _ hinvariant rfl
          · exact fun _ => wellEnded_stopped hinvariant
      · exact fun _ => hsame
      · exact fun _ => wellEnded_stopped hinvariant

theorem endsWell_findSnapshot {turn : TurnKey} {next : Option SourceItem → IngestProgram}
    (hnone : ∀ faults, EndsWell setup sourceType sourceId request (next none) storage faults)
    (hsome : ∀ prior faults, storage.sourceItems.get prior.id = some prior → prior.isUserOf turn →
      EndsWell setup sourceType sourceId request (next (some prior)) storage faults) :
    EndsWell setup sourceType sourceId request (findSnapshot turn next) storage faults := by
  apply endsWell_ask hinvariant
  simp only [answer]
  cases hfound : storage.findSourceTurnSnapshot turn with
  | error _ => exact endsWell_error hinvariant _
  | ok snapshot =>
    cases snapshot with
    | none => exact hnone _
    | some prior =>
      obtain ⟨hmem, huser⟩ := findSourceTurnSnapshot_eq_some hfound
      exact hsome prior _ (Table.get_of_mem hmem) huser

end

theorem findSourceItem_eq_some (hfound : storage.findSourceItem sourceType sourceId = some item) :
    storage.sourceItems.get item.id = some item ∧ item.Names sourceType sourceId := by
  have hnames := List.find?_some hfound
  simp only [Bool.and_eq_true, beq_iff_eq] at hnames
  exact ⟨Table.get_of_mem (List.mem_of_find?_eq_some hfound), hnames⟩

theorem findSourceItem_eq_none (hfound : storage.findSourceItem sourceType sourceId = none) :
    ∀ item ∈ storage.sourceItems.rows, ¬ item.Names sourceType sourceId := by
  intro item hmem hnames
  have hnot := List.find?_eq_none.mp hfound item hmem
  rw [Bool.and_eq_true, beq_iff_eq, beq_iff_eq] at hnot
  exact hnot hnames

variable (hinvariant : CompletenessInvariant setup sourceType sourceId storage)
include hinvariant

theorem endsWell_recover (error : IntegrityError) :
    EndsWell setup sourceType sourceId request (recover request containerRef attribution error)
      storage faults := by
  apply endsWell_ask hinvariant
  simp only [answer]
  split
  · next existing hfound =>
      obtain ⟨hget, hnames⟩ := findSourceItem_eq_some hfound
      split
      · exact endsWell_error hinvariant _
      · exact endsWell_buildIngestResult hinvariant hget (Or.inl hnames)
  · split
    · next turn hturn =>
        obtain ⟨htype, -, -, hid⟩ := validTurn_eq_some hturn
        split
        · apply endsWell_findSnapshot hinvariant
          · exact fun _ => endsWell_error hinvariant _
          · intro prior faults hget huser
            simp only
            split
            · exact endsWell_error hinvariant _
            · exact endsWell_buildIngestResult hinvariant hget
                (Or.inr ⟨turn, huser, htype, hid⟩)
        · exact endsWell_error hinvariant _
    · exact endsWell_error hinvariant _

theorem endsWell_returnExisting {existing : SourceItem}
    (hget : storage.sourceItems.get existing.id = some existing)
    (hnames : existing.Names request.sourceType request.sourceId) :
    EndsWell setup sourceType sourceId request
      (returnExisting setup draws request containerRef attribution existing) storage faults := by
  unfold returnExisting
  split
  · exact endsWell_error hinvariant _
  · apply endsWell_buildSourceItemVectorEntry hinvariant hget
    intro later faults hlater hsame
    apply endsWell_buildIngestResult hlater
    · rw [hsame]
      exact hget
    · exact Or.inl hnames

/-- What follows the creation of the index entry. -/
theorem endsWell_indexed {faults : ℕ → Fault}
    (hget : storage.sourceItems.get item.id = some item.record)
    (hnames : item.Names request.sourceType request.sourceId) :
    EndsWell setup sourceType sourceId request
      (buildSourceItemVectorEntry setup draws item
        (ask (.error .storage) (.getSourceItem item.id) fun stored =>
          match stored with
          | none => .done (.error (.missing item.id))
          | some stored => buildIngestResult stored)) storage faults := by
  apply endsWell_buildSourceItemVectorEntry hinvariant hget
  intro later faults hlater hsame
  have hstored : later.sourceItems.get item.id = some item.record := by
    rw [hsame]
    exact hget
  apply endsWell_ask hlater
  simp only [answer]
  rw [hstored]
  exact endsWell_buildIngestResult hlater hstored (Or.inl hnames)

theorem endsWell_createItem
    (hfree : storage.findSourceItem request.sourceType request.sourceId = none)
    (hdrawn : request.Names sourceType sourceId →
      storage.indexEntries.get draws.lexicalEntryId = none) :
    EndsWell setup sourceType sourceId request
      (createItem setup draws request containerRef attribution) storage faults := by
  unfold createItem
  simp only
  split
  · exact endsWell_error hinvariant _
  · generalize setup.activePackages _ = activePackages
    generalize activePackages.filter _ = skipPackages
    generalize hitem : newSourceItem setup draws request containerRef attribution _ activePackages
      skipPackages = item
    have hnames : item.Names request.sourceType request.sourceId := by
      rw [← hitem]
      exact ⟨rfl, rfl⟩
    apply endsWell_ask hinvariant
    simp only [answer]
    cases hcreated : storage.createSourceItemWithPackages setup.toWorkRefRules item
        (activePackages.map Plugin.name) (skipPackages.map Plugin.name) draws.now with
    | error error => exact endsWell_recover hinvariant error
    | ok created =>
      obtain ⟨-, -, hinsert, hentries, hlexical⟩ := createSourceItemWithPackages_eq_ok hcreated
      have hstored : created.sourceItems.get item.id = some item.record := by
        rw [Table.get_insertNew hinsert]
        exact if_pos rfl
      have hother : ¬ request.Names sourceType sourceId →
          CompletenessInvariant setup sourceType sourceId created := by
        intro hnot
        apply hinvariant.itemCreated hinsert hentries hlexical
        intro hitemNames
        exact hnot ⟨hnames.1.symm.trans hitemNames.1, hnames.2.symm.trans hitemNames.2⟩
      apply Ends.ask
      · simp only [answer, Storage.write]
        by_cases hrequest : request.Names sourceType sourceId
        · obtain ⟨indexed, hindexed⟩ := createIndexEntry_succeeds
            (hentries ▸ hdrawn hrequest) (lexicalEntry setup draws.lexicalEntryId item) rfl
          have hnone := findSourceItem_eq_none hfree
          rw [hrequest.1, hrequest.2] at hnone
          have hafter := hinvariant.itemIndexed hnone hinsert hentries hlexical hindexed
          have hget : indexed.sourceItems.get item.id = some item.record := by
            rw [(indexEntries_of_created hindexed).2.1]
            exact hstored
          have hwrite : created.createIndexEntry ⟨draws.lexicalEntryId, item.id, .lexical,
              setup.normalizeForIndex item.content, sourceItemContentTextView⟩ = .ok indexed :=
            hindexed
          rw [hwrite]
          exact endsWell_indexed hafter hget hnames
        · cases hindexed : created.createIndexEntry ⟨draws.lexicalEntryId, item.id, .lexical,
              setup.normalizeForIndex item.content, sourceItemContentTextView⟩ with
          | error error => exact endsWell_error (hother hrequest) _
          | ok indexed =>
            apply endsWell_indexed
            · apply (hother hrequest).entryCreated hindexed hstored
              left
              intro hitemNames
              exact hrequest ⟨hnames.1.symm.trans hitemNames.1,
                hnames.2.symm.trans hitemNames.2⟩
            · rw [(indexEntries_of_created hindexed).2.1]
              exact hstored
            · exact hnames
      · intro hnot
        exact wellEnded_error (hother fun hrequest => hnot ⟨hrequest, rfl⟩) _
      · intro hnot
        exact wellEnded_stopped (hother fun hrequest => hnot ⟨hrequest, rfl⟩)

/-- The prior user row of an attribution is a stored row of the turn. -/
def Attribution.Stored (attribution : Attribution) (request : IngestRequest) (storage : Storage) :
    Prop :=
  ∀ prior, attribution.priorTurnSnapshot = some prior →
    storage.sourceItems.get prior.id = some prior ∧
      ∃ turn, prior.isUserOf turn ∧ turn.sourceType = request.sourceType ∧
        request.sourceTurnId = some turn.sourceTurnId

theorem endsWell_resolveAttribution {next : Attribution → IngestProgram}
    (hnext : ∀ attribution faults, attribution.Stored request storage →
      EndsWell setup sourceType sourceId request (next attribution) storage faults) :
    EndsWell setup sourceType sourceId request (resolveAttribution request containerRef next)
      storage faults := by
  unfold resolveAttribution
  split
  · cases hturn : request.validTurn containerRef with
    | none => exact hnext _ _ fun _ hprior => nomatch hprior
    | some turn =>
      obtain ⟨htype, -, -, hid⟩ := validTurn_eq_some hturn
      apply endsWell_findSnapshot hinvariant
      · intro faults
        simp only
        split
        · exact hnext _ _ fun _ hprior => nomatch hprior
        · exact endsWell_error hinvariant _
      · intro prior faults hget huser
        have hstored : ∀ other, some prior = some other →
            storage.sourceItems.get other.id = some other ∧ ∃ turn, other.isUserOf turn ∧
              turn.sourceType = request.sourceType ∧
                request.sourceTurnId = some turn.sourceTurnId := by
          intro other hother
          rw [← Option.some.inj hother]
          exact ⟨hget, turn, huser, htype, hid⟩
        simp only
        split
        · split
          · exact endsWell_error hinvariant _
          · split
            · exact endsWell_error hinvariant _
            · exact hnext _ _ hstored
        · split
          · exact endsWell_error hinvariant _
          · exact hnext _ _ hstored
  · exact hnext _ _ fun _ hprior => nomatch hprior

theorem endsWell_ingestItem (hdrawn : request.Names sourceType sourceId →
      storage.indexEntries.get draws.lexicalEntryId = none) :
    EndsWell setup sourceType sourceId request (ingestItem setup draws request) storage faults := by
  unfold ingestItem
  apply endsWell_resolveAttribution hinvariant
  intro attribution faults hstored
  apply endsWell_ask hinvariant
  simp only [answer]
  cases hfound : storage.findSourceItem request.sourceType request.sourceId with
  | some existing =>
    obtain ⟨hget, hnames⟩ := findSourceItem_eq_some hfound
    exact endsWell_returnExisting hinvariant hget hnames
  | none =>
    simp only
    split
    · cases hprior : attribution.priorTurnSnapshot with
      | none => exact endsWell_createItem hinvariant hfound hdrawn
      | some prior =>
        obtain ⟨hget, hturn⟩ := hstored prior hprior
        exact endsWell_buildIngestResult hinvariant hget (Or.inr hturn)
    · exact endsWell_createItem hinvariant hfound hdrawn

end Programs

section Runs

variable {setup : Setup} {sourceType sourceId : String} {storage : Storage}

/-- For the source id, the call that creates the lexical entry takes effect. -/
def IngestCall.Indexes (setup : Setup) (sourceType sourceId : String) (storage : Storage)
    (call : IngestCall) : Prop :=
  call.request.Names sourceType sourceId → IndexingTakesEffect setup storage call

theorem IngestCall.wellEnded {call : IngestCall}
    (hinvariant : CompletenessInvariant setup sourceType sourceId storage)
    (hindexes : call.Indexes setup sourceType sourceId storage) :
    WellEnded setup sourceType sourceId call.request (call.perform setup storage) :=
  endsWell_ingestItem hinvariant (fun hnames => (hindexes hnames).1)
    fun hnames => (hindexes hnames).2

theorem IngestCall.step_kept (storage : Storage) (call : IngestCall) :
    Kept storage (call.step setup storage) := by
  apply perform_related
  · exact Kept.refl
  · exact fun _ _ _ => Kept.trans
  · exact answer_kept

/-- In every sequence of ingests in which, for one source id, the call that creates
the lexical entry takes effect: the item under that source id has its lexical entry
and its full-text row exactly once, and what a successful ingest of the source id
returns stays stored, as the item under the source id or the user row of its turn. -/
theorem ingest_completeness (setup : Setup) (sourceType sourceId : String)
    (calls : List IngestCall)
    (hcalls : Along (IngestCall.step setup) (IngestCall.Indexes setup sourceType sourceId)
      Storage.empty calls) :
    (∀ item ∈ (ingested setup calls).sourceItems.rows, item.Names sourceType sourceId →
        IndexedOnce setup (ingested setup calls) item) ∧
      ∀ earlier call later result, calls = earlier ++ call :: later →
        call.request.Names sourceType sourceId →
        (call.perform setup (ingested setup earlier)).2 = some (.ok result) →
        Returned call.request (ingested setup calls) result := by
  have hstart : CompletenessInvariant setup sourceType sourceId Storage.empty := .empty
  have hstep : ∀ storage (call : IngestCall), call.Indexes setup sourceType sourceId storage →
      CompletenessInvariant setup sourceType sourceId storage →
        CompletenessInvariant setup sourceType sourceId (call.step setup storage) :=
    fun storage call hindexes hinvariant => (call.wellEnded hinvariant hindexes).1
  refine ⟨(hcalls.invariant hstart hstep).indexed, ?_⟩
  rintro earlier call later result rfl hnames hresult
  obtain ⟨hearlier, hcall, -⟩ := (along_append _ _ _).mp hcalls
  have hbefore := hearlier.invariant hstart hstep
  obtain ⟨item, hget, hitem⟩ := (call.wellEnded hbefore hcall).2 result hresult
  have hkept : Kept (call.step setup (ingested setup earlier))
      (ingested setup (earlier ++ call :: later)) := by
    unfold ingested
    rw [run_append, run_cons]
    apply run_related Kept Kept.refl
    · exact fun _ _ _ => Kept.trans
    · exact fun storage call => call.step_kept storage
  obtain ⟨forgottenAt, hlater⟩ := hkept _ item hget
  exact ⟨_, hlater, hitem⟩

/-- A service without packages and with plain text. -/
def plainSetup : Setup where
  configuredUseCases := []
  defaultUseCase := "notes"
  semanticPlugins := []
  canonicalizeContainerRef := id
  casefold := id
  redactSensitive := id
  sanitizeWorkRefMetadata := id
  normalizeForIndex := id
  embeddingText _ := none

def plainRequest : IngestRequest where
  sourceType := "chat"
  sourceId := "message"
  content := "hello"
  metadata := none
  useCase := none
  actorRef := none
  role := none
  containerRef := none
  threadRef := none
  artifactKind := none
  visibility := none
  sourceTurnId := none
  relayName := none
  relayAttributionState := .unknown

/-- An ingest of the message whose calls all take effect. -/
def plainCall (number : String) : IngestCall :=
  ⟨⟨"item" ++ number, "lexical" ++ number, "vector" ++ number, 0⟩, plainRequest, fun _ => .done⟩

/-- An ingest of the message whose third call, which creates the index entry, fails. -/
def cutOffCall : IngestCall :=
  { plainCall "0" with faults := fun index => if index = 2 then .fails else .done }

/-- A message that is ingested twice is indexed once. -/
theorem ingest_completeness_of_repeated :
    ∃ item ∈ (ingested plainSetup [plainCall "0", plainCall "1"]).sourceItems.rows,
      item.Names "chat" "message" ∧
        IndexedOnce plainSetup (ingested plainSetup [plainCall "0", plainCall "1"]) item := by
  have hanswered : ∀ (program : IngestProgram) (storage : Storage),
      Answered (answer plainSetup.toWorkRefRules) LexicalIndexing program storage fun _ => .done := by
    intro program
    induction program with
    | done value => exact fun _ => trivial
    | call request next ih => exact fun storage => ⟨fun _ => rfl, ih _ _⟩
  refine ⟨_, List.mem_cons_self, ⟨rfl, rfl⟩,
    (ingest_completeness plainSetup "chat" "message" [plainCall "0", plainCall "1"] ?_).1 _
      List.mem_cons_self ⟨rfl, rfl⟩⟩
  refine ⟨fun _ => ⟨rfl, hanswered _ _⟩, fun _ => ⟨?_, hanswered _ _⟩, trivial⟩
  decide

/-- An item whose ingest was cut off is returned without an index entry. -/
theorem unindexed_after_cut_off :
    (∃ result, ((plainCall "1").perform plainSetup (ingested plainSetup [cutOffCall])).2 =
        some (.ok result)) ∧
      ∃ item ∈ (ingested plainSetup [cutOffCall, plainCall "1"]).sourceItems.rows,
        item.Names "chat" "message" ∧
          ¬ IndexedOnce plainSetup (ingested plainSetup [cutOffCall, plainCall "1"]) item := by
  have hitem : ∃ item ∈ (ingested plainSetup [cutOffCall, plainCall "1"]).sourceItems.rows,
      item.id = "item0" ∧ item.Names "chat" "message" := ⟨_, List.mem_cons_self, rfl, rfl, rfl⟩
  obtain ⟨item, hmem, hid, hnames⟩ := hitem
  refine ⟨⟨_, rfl⟩, item, hmem, hnames, ?_⟩
  rintro ⟨entryId, hentries, -⟩
  have hnone : lexicalEntriesOf (ingested plainSetup [cutOffCall, plainCall "1"]) "item0" = [] := by
    decide
  rw [hid, hnone] at hentries
  cases hentries

end Runs

end Pallium.Ingest
