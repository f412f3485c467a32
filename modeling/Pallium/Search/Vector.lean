import Pallium.Search.Lexical

/-!
# Vector retrieval

A vector query takes the hits of the vector index in batches, resolves their index
entries, and drops those whose targets are filtered out or hidden.  A query for source
items works on projections of their rows, which for exact work references come from one
read; any other query reads the rows by id.  What the index answers is given.
-/

namespace Pallium.Search

open Pallium.Access
open Pallium.Memory (MemoryObjectRecord IndexEntryRecord TargetKind Requester)
open Pallium.Ingest (SourceItem)

structure VectorHit where
  entryId : String
  similarity : ℚ
  deriving DecidableEq, Repr

/-- What the vector index answers in the course of a query: the batches of hits, and the
scores of a subset of its entries.  The best hits come first. -/
structure VectorAnswers where
  batches : List (List VectorHit)
  scoreSubset : List String → List VectorHit
  descending : batches.flatten.Pairwise fun first later => later.similarity ≤ first.similarity

/-- The storage reads of a vector query. -/
structure VectorReads (m : Type → Type) extends Reads m where
  getIndexEntries : List String → m (List IndexEntryRecord)
  getIndexEntry : String → m IndexEntryRecord
  getSourceItemProjections : List String → m (List (IndexEntryRecord × Option SourceItem))
  getSourceItemVectorCandidates : List String → m (List (IndexEntryRecord × SourceItem))

/-- What `VectorRetrievalProvider.query` is asked. -/
structure VectorQuery where
  isBlank : Bool
  limit : ℕ
  filters : Option QueryFilters
  requester : Requester
  requireVisibility : Bool
  targetKind : Option TargetKind
  minSimilarity : ℚ

/-- A hit with its index entry. -/
structure ResolvedHit where
  entry : IndexEntryRecord
  similarity : ℚ

def ResolvedHit.target (hit : ResolvedHit) : TargetKind × String :=
  (hit.entry.targetKind, hit.entry.targetId)

/-- `int(similarity * 1000)`. -/
def ResolvedHit.score (hit : ResolvedHit) : ℚ :=
  if hit.similarity < 0 then ⌈hit.similarity * 1000⌉ else ⌊hit.similarity * 1000⌋

/-- A batch after its index entries are resolved, with the source items read for it. -/
structure ResolvedBatch where
  hits : List ResolvedHit
  sourceItems : List SourceItem
  matchingBelowFloor : Bool

/-- The results so far, the source items that wait for their last check, and the targets
seen. -/
structure VectorProgress where
  results : List QueryResultItem
  pending : List ResolvedHit
  seen : List (TargetKind × String)

section Program

variable {m : Type → Type} [Monad m] [MonadExceptOf Unit m] (rules : WorkRefRules)
  (reads : VectorReads m)

/-- `source_items.get`; nothing but a source item has the fields that are read of it. -/
def knownSourceItem (sourceItems : List SourceItem) (sourceItemId : String) : m SourceItem :=
  match lookup sourceItems sourceItemId with
  | some item => return item
  | none => throwThe Unit ()

namespace VectorQuery

variable (query : VectorQuery)

/-- A query that needs a container and has none. -/
def failsClosed : Bool := query.requireVisibility && query.requester.containerRef.isNone

/-- Whether the query is for source items only. -/
def sourceOnly : Bool := query.targetKind == some .sourceItem

/-- Whether a similarity is below the threshold. -/
def belowFloor (similarity : ℚ) : Bool := decide (similarity < query.minSimilarity)

/-- The index entries of the hits, each read by id if the batched read missed it; an entry
that is gone is skipped. -/
def resolveEntries (known : List IndexEntryRecord) : List VectorHit → m (List ResolvedHit)
  | [] => return []
  | hit :: hits => do
    let entry ←
      match known.find? fun entry => entry.id == hit.entryId with
      | some entry => pure (some entry)
      | none =>
        tryCatchThe Unit (do
          let entry ← reads.getIndexEntry hit.entryId
          return some entry) fun _ => return none
    let rest ← resolveEntries known hits
    match entry with
    | none => return rest
    | some entry => return ⟨entry, hit.similarity⟩ :: rest

/-- The projections of several chunks of entries. -/
def readProjections : List (List String) → m (List (IndexEntryRecord × Option SourceItem))
  | [] => return []
  | chunk :: chunks => do
    let found ← reads.getSourceItemProjections chunk
    let rest ← readProjections chunks
    return found ++ rest

/-- Chunks of at most 500 ids, after the ids of the chunk begun before. -/
def chunkIds : List String → List String → List (List String)
  | chunk, [] => if chunk.isEmpty then [] else [chunk]
  | chunk, id :: ids =>
    if (chunk ++ [id]).length = 500 then (chunk ++ [id]) :: chunkIds [] ids
    else chunkIds (chunk ++ [id]) ids

/-- Pair the hits with the entries and source items that were read for them. -/
def pairHits (known : List (IndexEntryRecord × SourceItem)) (hits : List VectorHit) :
    List (ResolvedHit × SourceItem) :=
  hits.filterMap fun hit =>
    (known.find? fun pair => pair.1.id == hit.entryId).map fun pair =>
      (⟨pair.1, hit.similarity⟩, pair.2)

/-- Resolve a batch of a query for source items. -/
def resolveSources (hits : List VectorHit) : m ResolvedBatch := do
  let projections ← readProjections reads (chunkIds [] (hits.map VectorHit.entryId).dedup)
  let known := projections.filterMap fun projection =>
    projection.2.map fun item => (projection.1, item)
  let pairs := pairHits known hits
  return {
    hits := pairs.map Prod.fst
    sourceItems := pairs.map Prod.snd
    matchingBelowFloor := hits.any fun hit => query.belowFloor hit.similarity }

/-- Resolve a batch of any other query. -/
def resolveTargets (hits : List VectorHit) : m ResolvedBatch := do
  let known ← if hits.isEmpty then pure [] else reads.getIndexEntries (hits.map VectorHit.entryId)
  let resolved ← resolveEntries reads known hits
  let sourceItems ← prefetch reads.toReads
    ((resolved.filter fun hit => hit.entry.targetKind == .sourceItem &&
      !query.belowFloor hit.similarity).map fun hit => hit.entry.targetId)
  return {
    hits := resolved
    sourceItems := sourceItems
    matchingBelowFloor := resolved.any fun hit =>
      query.targetKind == some hit.entry.targetKind && query.belowFloor hit.similarity }

/-- `len(results) + len(pending_source_hits) >= limit`. -/
def isFull (progress : VectorProgress) : Bool :=
  decide (query.limit ≤ progress.results.length + progress.pending.length)

/-- Whether a hit is passed over before any read. -/
def passesOver (batch : ResolvedBatch) (hit : ResolvedHit) : Bool :=
  (query.targetKind.any fun targetKind => hit.entry.targetKind != targetKind) ||
    (hit.entry.targetKind == .sourceItem &&
      (lookup batch.sourceItems hit.entry.targetId).isNone) ||
    query.belowFloor hit.similarity

/-- Whether a hit is filtered in and visible. -/
def admits (getSourceItem : String → m SourceItem) (targetKind : TargetKind) (targetId : String) :
    m Bool := do
  if ← matchesFilters rules reads.toReads getSourceItem targetKind targetId query.filters then
    let (visibility, containerRef, actorRef) ←
      targetVisibilityAndContainer reads.toReads getSourceItem targetKind targetId
    return query.requester.sees visibility containerRef actorRef
  else return false

/-- Take in a new target. -/
def takeIn (batch : ResolvedBatch) (progress : VectorProgress) (hit : ResolvedHit) :
    m VectorProgress :=
  match hit.entry.targetKind with
  | .memoryObject => do
    let item ← tryCatchThe Unit (do
      let record ← reads.getMemoryObject hit.entry.targetId
      let evidence ← reads.getEvidenceForMemoryObject hit.entry.targetId
      return some (.memoryHit record hit.score evidence)) fun _ => return none
    return { progress with results := progress.results ++ item.toList }
  | .sourceItem =>
    if query.sourceOnly then return { progress with pending := progress.pending ++ [hit] }
    else do
      let item ← tryCatchThe Unit (do
        let item ← knownSourceItem batch.sourceItems hit.entry.targetId
        return some (.sourceHit item hit.score)) fun _ => return none
      return { progress with results := progress.results ++ item.toList }

/-- The walk over the hits of a batch. -/
def scanHits (batch : ResolvedBatch) : List ResolvedHit → VectorProgress → m VectorProgress
  | [], progress => return progress
  | hit :: hits, progress =>
    if query.passesOver batch hit then scanHits batch hits progress
    else do
      if ← query.admits rules reads (knownSourceItem batch.sourceItems) hit.entry.targetKind
          hit.entry.targetId then
        if hit.target ∈ progress.seen then scanHits batch hits progress
        else do
          let taken ← query.takeIn reads batch
            { progress with seen := hit.target :: progress.seen } hit
          -- a memory that is gone is not counted, and the walk goes on without the check
          if query.isFull taken &&
              decide (progress.results.length + progress.pending.length <
                taken.results.length + taken.pending.length) then return taken
          else scanHits batch hits taken
      else scanHits batch hits progress

/-- The loop over the batches. -/
def scanBatches (resolve : List VectorHit → m ResolvedBatch) :
    List (List VectorHit) → VectorProgress → m VectorProgress
  | [], progress => return progress
  | hits :: batches, progress => do
    let batch ← resolve hits
    let progress ← query.scanHits rules reads batch batch.hits progress
    if query.isFull progress || batch.matchingBelowFloor then return progress
    else scanBatches resolve batches progress

/-- The last check of a source item that waits. -/
def confirm (revalidated : List SourceItem) : List ResolvedHit → m (List QueryResultItem)
  | [] => return []
  | hit :: hits =>
    match lookup revalidated hit.entry.targetId with
    | none => confirm revalidated hits
    | some item =>
      if item.forgottenAt.isSome then confirm revalidated hits
      else do
        if ← query.admits rules reads (knownSourceItem revalidated) .sourceItem
            hit.entry.targetId then
          let rest ← confirm revalidated hits
          return .sourceHit item hit.score :: rest
        else confirm revalidated hits

/-- Whether the vectors of the exact work references are scored. -/
def isFast : Bool :=
  query.sourceOnly && !(askedWorkRefs query.filters).isEmpty && !query.isBlank

/-- The walk of the query. -/
def scan (answers : VectorAnswers) : m VectorProgress :=
  if query.isFast then do
    let candidates ← reads.getSourceItemVectorCandidates (askedWorkRefs query.filters)
    let scored := answers.scoreSubset (candidates.map fun candidate => candidate.1.id).dedup
    let pairs := pairHits candidates scored
    let batch : ResolvedBatch := {
      hits := pairs.map Prod.fst
      sourceItems := pairs.map Prod.snd
      matchingBelowFloor := scored.any fun hit => query.belowFloor hit.similarity }
    query.scanBatches rules reads (fun _ => return batch) [scored] ⟨[], [], []⟩
  else
    query.scanBatches rules reads
      (if query.sourceOnly then query.resolveSources reads else query.resolveTargets reads)
      answers.batches ⟨[], [], []⟩

/-- `VectorRetrievalProvider.query`; without an index there are no answers. -/
def run (answers : Option VectorAnswers) : m (List QueryResultItem) :=
  if query.failsClosed then return []
  else if query.sourceOnly && !(askedWorkRefs query.filters).isEmpty && query.isBlank then
    return []
  else
    match answers with
    | none => return []
    | some answers => do
      let progress ← query.scan rules reads answers
      if query.sourceOnly && !progress.pending.isEmpty then do
        let revalidated ← reads.getSourceItems
          (progress.pending.map fun hit => hit.entry.targetId)
        query.confirm rules reads revalidated progress.pending
      else revalidate reads.toReads progress.results

end VectorQuery

end Program

end Pallium.Search
