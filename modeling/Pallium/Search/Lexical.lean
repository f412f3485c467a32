import Pallium.Memory.Retrieval

/-!
# Lexical retrieval

A lexical query takes the best rows of the full-text index, drops those whose targets
are filtered out or hidden, reads the first row's target of each of the rest, and looks
at the source items once more before it returns them.  Every read of the storage is an
operation of its own, because the store may change between them.
-/

namespace Pallium.Search

open Pallium.Access
open Pallium.Memory (MemoryStore MemoryObjectRecord LexicalRow TargetKind Requester)
open Pallium.Ingest (SourceItem SourceItemWorkRef)

section Store

/-- The full-text engine.  A row that matches one of the tokens has a score, which is
the lower the better and never positive. -/
structure FullText where
  bm25 : List LexicalRow → List String → LexicalRow → Option ℚ
  nonpositive : ∀ {rows tokens row score}, bm25 rows tokens row = some score → score ≤ 0
  without_tokens : ∀ rows row, bm25 rows [] row = none

/-- A matching row of `lexical_fts`. -/
structure FtsMatch where
  indexEntryId : String
  targetKind : TargetKind
  targetId : String
  bm25 : ℚ
  deriving DecidableEq, Repr

def FtsMatch.target (found : FtsMatch) : TargetKind × String := (found.targetKind, found.targetId)

/-- The tables that a query reads.  Every row of the index has its target, and the work
references of a source item are those of its metadata. -/
structure SearchStore (rules : WorkRefRules) where
  memory : MemoryStore
  workRefs : List SourceItemWorkRef
  occurredAt : String → Option ℤ
  memory_indexed : ∀ row ∈ memory.index.lexicalRows, row.targetKind = .memoryObject →
    (memory.memories.get row.targetId).isSome
  source_indexed : ∀ row ∈ memory.index.lexicalRows, row.targetKind = .sourceItem →
    (memory.sourceItems.get row.targetId).isSome
  synced : ∀ item ∈ memory.sourceItems.rows, ∀ ref,
    ⟨item.id, ref⟩ ∈ workRefs ↔ ref ∈ rules.workRefsFromMetadata item.metadata

end Store

section Filters

variable (rules : WorkRefRules)

def sourceItemMatchesFilters (item : SourceItem) (filters : QueryFilters) : Bool :=
  (filters.workRefs.isEmpty ||
      filters.workRefs.any fun ref => decide (ref ∈ rules.workRefsFromMetadata item.metadata)) &&
    agrees filters.sourceType (some item.sourceType) && agrees filters.role item.role &&
    agrees filters.artifactKind item.artifactKind &&
    reachesContainer filters.containerRef (some (item.visibility.getD .priv)) item.containerRef &&
    agrees filters.threadRef item.threadRef && agrees filters.actorRef item.actorRef &&
    agrees filters.relayName item.relayName

/-- The filters of `matches_filters` that look at the evidence of a memory. -/
def evidenceMatches (record : MemoryObjectRecord) (evidence : List SourceItem)
    (filters : QueryFilters) : Bool :=
  let memoryFilters := Memory.evidenceFilters record.actorRef filters
  if evidence.isEmpty && record.origin == some "agent_explicit" then
    memoryFilters.sourceType.isNone && memoryFilters.role.isNone &&
      memoryFilters.artifactKind.isNone && memoryFilters.workRefs.isEmpty &&
      reachesContainer memoryFilters.containerRef (some record.decodedVisibility)
        record.containerRef
  else evidence.any fun item => Memory.evidenceMatchesFilters item memoryFilters

/-- `filters.work_refs`, none without filters. -/
def askedWorkRefs (filters : Option QueryFilters) : List String :=
  (filters.map QueryFilters.workRefs).getD []

/-- `filters.relay_name`, if it is not empty. -/
def askedRelayName (filters : Option QueryFilters) : Option String :=
  (filters.bind QueryFilters.relayName).filter (· ≠ "")

def exactSourceWorkQuery (filters : Option QueryFilters) (targetKind : Option TargetKind) : Bool :=
  !(askedWorkRefs filters).isEmpty && targetKind == some .sourceItem

def exactSourceFilterQuery (filters : Option QueryFilters) (targetKind : Option TargetKind) :
    Bool :=
  targetKind == some .sourceItem &&
    (!(askedWorkRefs filters).isEmpty || (askedRelayName filters).isSome)

end Filters

section Rows

variable {rules : WorkRefRules} (fullText : FullText) (store : SearchStore rules)

/-- The rows of `lexical_fts` that match a token. -/
def SearchStore.matching (tokens : List String) : List FtsMatch :=
  store.memory.index.lexicalRows.filterMap fun row =>
    (fullText.bm25 store.memory.index.lexicalRows tokens row).map fun score =>
      ⟨row.indexEntryId, row.targetKind, row.targetId, score⟩

/-- `ORDER BY score`. -/
def byScore (first later : FtsMatch) : Bool := decide (first.bm25 ≤ later.bm25)

/-- Better scores first, and equal scores in another order. -/
def byScoreThen (tie : FtsMatch → FtsMatch → Bool) (first later : FtsMatch) : Bool :=
  decide (first.bm25 < later.bm25) || first.bm25 == later.bm25 && tie first later

/-- `ORDER BY score, index_entry_id`. -/
def byScoreAndId : FtsMatch → FtsMatch → Bool :=
  byScoreThen fun first later => decide (first.indexEntryId ≤ later.indexEntryId)

/-- `work_ref_clause`. -/
def SearchStore.passesClauses (filters : Option QueryFilters) (found : FtsMatch) : Bool :=
  ((askedWorkRefs filters).isEmpty ||
      (askedWorkRefs filters).any fun ref => decide (⟨found.targetId, ref⟩ ∈ store.workRefs)) &&
    (askedRelayName filters).all fun name =>
      (store.memory.sourceItems.get found.targetId).any fun item => item.relayName == some name

/-- `COALESCE(si.occurred_at, si.created_at)`. -/
def SearchStore.happenedAt (item : SourceItem) : ℤ := (store.occurredAt item.id).getD item.createdAt

/-- `ORDER BY COALESCE(si.occurred_at, si.created_at) DESC, si.id DESC`. -/
def SearchStore.byRecency (first later : SourceItem) : Bool :=
  decide (store.happenedAt later < store.happenedAt first) ||
    store.happenedAt first == store.happenedAt later && decide (later.id ≤ first.id)

/-- The source items with one of the work references. -/
def SearchStore.withWorkRefs (refs : List String) : List SourceItem :=
  store.memory.sourceItems.rows.filter fun item =>
    refs.any fun ref => decide (⟨item.id, ref⟩ ∈ store.workRefs)

/-- The rows of `exact_pages`. -/
def SearchStore.exactRows (tokens : List String) (filters : Option QueryFilters) :
    List FtsMatch :=
  if tokens.isEmpty then
    ((store.withWorkRefs (askedWorkRefs filters)).mergeSort store.byRecency).map fun item =>
      ⟨item.id, .sourceItem, item.id, 0⟩
  else
    ((store.matching fullText tokens).filter fun found =>
      store.passesClauses filters found && found.targetKind == .sourceItem).mergeSort
        (if (askedWorkRefs filters).isEmpty then byScore else byScoreAndId)

/-- The rows of the query with a fixed limit. -/
def SearchStore.topRows (tokens : List String) (targetKind : Option TargetKind) (limit : ℕ) :
    List FtsMatch :=
  (((store.matching fullText tokens).filter fun found =>
    targetKind.all (found.targetKind == ·)).mergeSort byScore).take limit

end Rows

section Program

/-- The storage reads of a query.  A read by id of a row that is not there raises. -/
structure Reads (m : Type → Type) where
  exactRows : List String → Option QueryFilters → m (List FtsMatch)
  topRows : List String → Option TargetKind → ℕ → m (List FtsMatch)
  getSourceItems : List String → m (List SourceItem)
  getSourceItem : String → m SourceItem
  getMemoryObject : String → m MemoryObjectRecord
  getEvidenceForMemoryObject : String → m (List SourceItem)

variable {m : Type → Type} [Monad m] [MonadExceptOf Unit m] (rules : WorkRefRules) (reads : Reads m)

/-- `prefetched.get`. -/
def lookup (prefetched : List SourceItem) (sourceItemId : String) : Option SourceItem :=
  prefetched.find? fun item => item.id == sourceItemId

/-- `get_source_items`; without ids it reads nothing. -/
def prefetch (sourceItemIds : List String) : m (List SourceItem) :=
  if sourceItemIds.isEmpty then pure [] else reads.getSourceItems sourceItemIds

/-- `prefetched.get(source_item_id) or self.get_source_item(source_item_id)`. -/
def readSourceItem (prefetched : List SourceItem) (sourceItemId : String) : m SourceItem :=
  match lookup prefetched sourceItemId with
  | some item => pure item
  | none => reads.getSourceItem sourceItemId

def matchesFilters (getSourceItem : String → m SourceItem) (targetKind : TargetKind)
    (targetId : String) (filters : Option QueryFilters) : m Bool :=
  match targetKind with
  | .memoryObject => do
    let record ← reads.getMemoryObject targetId
    if record.lifecycle != .active || record.isSoftDeleted then return false
    match filters with
    | none => return true
    | some filters =>
      if !Memory.agreesIfKnown filters.actorRef record.actorRef then return false
      let evidence ← reads.getEvidenceForMemoryObject targetId
      return evidenceMatches record evidence filters
  | .sourceItem => do
    let item ← getSourceItem targetId
    if item.forgottenAt.isSome then return false
    return filters.all (sourceItemMatchesFilters rules item)

def targetVisibilityAndContainer (getSourceItem : String → m SourceItem)
    (targetKind : TargetKind) (targetId : String) :
    m (Visibility × Option String × Option String) :=
  match targetKind with
  | .sourceItem => do
    let item ← getSourceItem targetId
    return (item.visibility.getD .priv, item.containerRef, item.actorRef)
  | .memoryObject => do
    let record ← reads.getMemoryObject targetId
    return (record.decodedVisibility, record.anyContainerRef, record.actorRef)

/-- `fetchmany` until nothing is left, after the rows of the page begun before. -/
def fetchPages (size : ℕ) : List FtsMatch → List FtsMatch → List (List FtsMatch)
  | page, [] => if page.isEmpty then [] else [page]
  | page, row :: rows =>
    if (page ++ [row]).length = size then (page ++ [row]) :: fetchPages size [] rows
    else fetchPages size (page ++ [row]) rows

/-- What `search_index_entries` is asked. -/
structure IndexSearch where
  tokens : List String
  limit : ℕ
  filters : Option QueryFilters
  requester : Requester
  targetKind : Option TargetKind

namespace IndexSearch

variable (search : IndexSearch)

/-- `exact_source_filter_query`. -/
def isExact : Bool := exactSourceFilterQuery search.filters search.targetKind

/-- `structural_work_ref_query`. -/
def isStructural : Bool :=
  exactSourceWorkQuery search.filters search.targetKind && search.tokens.isEmpty

/-- Whether a row is filtered in and visible. -/
def admits (getSourceItem : String → m SourceItem) (found : FtsMatch) : m Bool := do
  if ← matchesFilters rules reads getSourceItem found.targetKind found.targetId search.filters then
    let (visibility, containerRef, actorRef) ←
      targetVisibilityAndContainer reads getSourceItem found.targetKind found.targetId
    return search.requester.sees visibility containerRef actorRef
  else return false

/-- The walk over the rows of a page, after the hits and the targets found before. -/
def scanRows (getSourceItem : String → m SourceItem) :
    List FtsMatch → List FtsMatch → List (TargetKind × String) →
      m (List FtsMatch × List (TargetKind × String))
  | [], hits, seen => return (hits, seen)
  | found :: rows, hits, seen =>
    if search.isExact && decide (found.target ∈ seen) then scanRows getSourceItem rows hits seen
    else do
      let seen := if search.isExact then found.target :: seen else seen
      -- `LEXICAL_BM25_FLOOR`
      if !search.isStructural && decide (-found.bm25 < 0) then
        scanRows getSourceItem rows hits seen
      else if ← search.admits rules reads getSourceItem found then
        if search.limit ≤ (hits ++ [found]).length then return (hits ++ [found], seen)
        else scanRows getSourceItem rows (hits ++ [found]) seen
      else scanRows getSourceItem rows hits seen

def pageSize : ℕ := max search.limit 1

/-- The loop over the pages. -/
def scanPages : List (List FtsMatch) → List FtsMatch → List (TargetKind × String) →
    m (List FtsMatch)
  | [], hits, _ => return hits
  | rows :: pages, hits, seen =>
    if search.limit ≤ hits.length then return hits
    else do
      let prefetched ← prefetch reads
        ((rows.filter fun found => found.targetKind == .sourceItem).map FtsMatch.targetId)
      let (hits, seen) ← search.scanRows rules reads (readSourceItem reads prefetched) rows hits
        seen
      if !search.isExact || decide (rows.length < search.pageSize) then return hits
      else scanPages pages hits seen

/-- The order of the hits: by score, and memories first. -/
def hitBefore : FtsMatch → FtsMatch → Bool :=
  byScoreThen fun first later =>
    first.targetKind == .memoryObject || later.targetKind == .sourceItem

/-- The pages of candidates: all of them for exact filters, else one page of the best. -/
def pages : m (List (List FtsMatch)) :=
  if search.isExact then do
    let rows ← reads.exactRows search.tokens search.filters
    return fetchPages search.pageSize [] rows
  else do
    let rows ← reads.topRows search.tokens search.targetKind search.pageSize
    return if rows.isEmpty then [] else [rows]

/-- `search_index_entries`. -/
def run : m (List FtsMatch) :=
  if search.tokens.isEmpty && !search.isStructural then return []
  else do
    let pages ← search.pages reads
    let hits ← search.scanPages rules reads pages [] []
    return hits.mergeSort hitBefore

end IndexSearch

/-- A result, with the row read for it. -/
inductive QueryResultItem
  | memoryHit (record : MemoryObjectRecord) (score : ℚ) (evidence : List SourceItem)
  | sourceHit (item : SourceItem) (score : ℚ)

def QueryResultItem.target : QueryResultItem → TargetKind × String
  | memoryHit record _ _ => (.memoryObject, record.id)
  | sourceHit item _ => (.sourceItem, item.id)

/-- Read the row of a hit; a row that is gone is skipped. -/
def hydrate (prefetched : List SourceItem) (hit : FtsMatch) : m (Option QueryResultItem) :=
  match hit.targetKind with
  | .memoryObject =>
    tryCatchThe Unit (do
      let record ← reads.getMemoryObject hit.targetId
      let evidence ← reads.getEvidenceForMemoryObject hit.targetId
      return some (.memoryHit record (-hit.bm25) evidence)) fun _ => return none
  | .sourceItem =>
    match lookup prefetched hit.targetId with
    | some item => return some (.sourceHit item (-hit.bm25))
    | none =>
      tryCatchThe Unit (do
        let item ← reads.getSourceItem hit.targetId
        return some (.sourceHit item (-hit.bm25))) fun _ => return none

/-- The first hits of different targets, as many as are asked for. -/
def hydrateHits (prefetched : List SourceItem) (limit : ℕ) :
    List FtsMatch → List (TargetKind × String) → List QueryResultItem → m (List QueryResultItem)
  | [], _, results => return results
  | hit :: hits, seen, results =>
    if hit.target ∈ seen then hydrateHits prefetched limit hits seen results
    else do
      match ← hydrate reads prefetched hit with
      | none => hydrateHits prefetched limit hits (hit.target :: seen) results
      | some item =>
        if limit ≤ (results ++ [item]).length then return results ++ [item]
        else hydrateHits prefetched limit hits (hit.target :: seen) (results ++ [item])

def emittedSourceIds (results : List QueryResultItem) : List String :=
  results.filterMap fun
    | .memoryHit _ _ _ => none
    | .sourceHit item _ => some item.id

/-- Whether a result stays, given the source items that are read last. -/
def staysEmitted (revalidated : List SourceItem) : QueryResultItem → Bool
  | .memoryHit _ _ _ => true
  | .sourceHit item _ => (lookup revalidated item.id).any fun found => found.forgottenAt.isNone

/-- Drop the source items that are forgotten or gone by now. -/
def revalidate (results : List QueryResultItem) : m (List QueryResultItem) :=
  if (emittedSourceIds results).isEmpty then return results
  else do
    let revalidated ← reads.getSourceItems (emittedSourceIds results)
    return results.filter (staysEmitted revalidated)

/-- What `LexicalRetrievalProvider.query` is asked; the text has been cut into tokens. -/
structure LexicalQuery where
  isBlank : Bool
  tokens : List String
  limit : ℕ
  filters : Option QueryFilters
  requester : Requester
  requireVisibility : Bool
  targetKind : Option TargetKind
  limit_pos : 0 < limit

namespace LexicalQuery

variable (query : LexicalQuery)

/-- A query that needs a container and has none. -/
def failsClosed : Bool := query.requireVisibility && query.requester.containerRef.isNone

def search : IndexSearch where
  tokens := query.tokens
  limit :=
    if exactSourceFilterQuery query.filters query.targetKind then query.limit else query.limit * 4
  filters := query.filters
  requester := query.requester
  targetKind := query.targetKind

/-- `LexicalRetrievalProvider.query`. -/
def run : m (List QueryResultItem) :=
  if query.failsClosed then return []
  else if query.tokens.isEmpty &&
      (!query.isBlank || !exactSourceWorkQuery query.filters query.targetKind) then return []
  else do
    let hits ← query.search.run rules reads
    let prefetched ← prefetch reads
      ((hits.filter fun hit => hit.targetKind == .sourceItem).map FtsMatch.targetId)
    let results ← hydrateHits reads prefetched query.limit hits [] []
    revalidate reads results

end LexicalQuery

end Program

end Pallium.Search
