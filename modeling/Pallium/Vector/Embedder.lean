import Pallium.Core.Table
import Pallium.Core.Paging
import Pallium.Vector.Index

/-!
# `VectorEmbedder.reconcile`

Reconciliation compares the vector entries stored in SQLite with the ids known
to the in-process index.  When the two counts differ, one call drops at most
one page of stale ids and embeds at most one page of missing entries, each page
behind its own cursor.  Equal counts take the fast path and change nothing.
-/

namespace Pallium.Vector

open Pallium.Paging

def vectorIndexType : String := "vector"

/-- A row of `index_entries`. -/
structure IndexEntry where
  id : String
  targetKind : String
  targetId : String
  indexType : String
  textView : String
  textViewName : Option String
  providerName : Option String
  providerVersion : Option String
  deriving DecidableEq, Repr

instance : Keyed IndexEntry String := ⟨IndexEntry.id⟩

/-- An embedding provider returns one vector per input text. -/
structure EmbeddingProvider (ν : Type*) where
  modelName : String
  dimensions : ℕ
  embed : List String → List ν
  embed_length : ∀ texts, (embed texts).length = texts.length

/-- The stored entries together with the state of one `VectorEmbedder`. -/
structure VectorEmbedder (ν : Type*) where
  indexEntries : Table IndexEntry
  vectorIndex : VectorIndex ν
  saved : Option (VectorIndex.Files ν)
  reconcileAfterId : Option String
  reconcileStaleAfterId : Option String

/-! ## The storage reads and writes of a call -/

def countIndexEntriesByType (entries : Table IndexEntry) (indexType : String) : ℕ :=
  (entries.rows.filter fun entry => decide (entry.indexType = indexType)).length

/-- The entries of one type in the order of their ids. -/
def entriesById (entries : Table IndexEntry) (indexType : String) : List IndexEntry :=
  (entries.rows.filter fun entry => decide (entry.indexType = indexType)).mergeSort
    fun left right => decide (left.id ≤ right.id)

def listIndexEntriesByTypePage (entries : Table IndexEntry) (indexType : String)
    (afterId : Option String) (limit : ℕ) : List IndexEntry :=
  ((entriesById entries indexType).filter fun entry => decide (Beyond afterId entry.id)).take limit

/-- `update_index_entry_provider`; `none` is the `KeyError` of a missing row. -/
def updateIndexEntryProvider (entries : Table IndexEntry) (indexEntryId : String)
    (providerName providerVersion : String) : Option (Table IndexEntry) :=
  match entries.get indexEntryId with
  | none => none
  | some _ => some (entries.modify indexEntryId
      (fun entry => { entry with
        providerName := some providerName
        providerVersion := some providerVersion }))

namespace VectorEmbedder

variable {ν : Type*}

/-- The loop over one page of index ids: ids without a stored entry are
removed, a `KeyError` is passed over.  Returns the number removed. -/
def removeStale (entries : Table IndexEntry) :
    VectorIndex ν → List String → VectorIndex ν × ℕ
  | index, [] => (index, 0)
  | index, entryId :: rest =>
    if (entries.get entryId).isSome then removeStale entries index rest
    else
      match index.remove entryId with
      | (removed, .ok ()) =>
        let swept := removeStale entries removed rest
        (swept.1, swept.2 + 1)
      | (kept, .error _) => removeStale entries kept rest

/-- The ids behind the stale cursor, or all of them when the cursor is
exhausted. -/
def staleCandidates (staleAfterId : Option String) (usearchIds : List String) : List String :=
  match staleAfterId with
  | none => usearchIds
  | some last =>
    let unseen := usearchIds.filter fun entryId => decide (last < entryId)
    if unseen = [] then usearchIds else unseen

/-- The reverse direction: one page of the sorted index ids behind the stale
cursor. -/
def sweepStale (embedder : VectorEmbedder ν) (batchSize : ℕ) : VectorEmbedder ν × ℕ :=
  let usearchIds := embedder.vectorIndex.idToKey.keys.mergeSort fun left right =>
    decide (left ≤ right)
  if usearchIds = [] then (embedder, 0)
  else
    let candidates := staleCandidates embedder.reconcileStaleAfterId usearchIds
    let staleBatchIds := candidates.take batchSize
    let swept := removeStale embedder.indexEntries embedder.vectorIndex staleBatchIds
    ({ embedder with
        vectorIndex := swept.1
        reconcileStaleAfterId :=
          if staleBatchIds.length < candidates.length then staleBatchIds.getLast?
          else none }, swept.2)

/-- The loop that adds the embedded vectors.  An exception leaves the entries
added so far. -/
def addVectors (provider : EmbeddingProvider ν) :
    VectorEmbedder ν → List (IndexEntry × ν) → VectorEmbedder ν × Option ℕ
  | embedder, [] => (embedder, some 0)
  | embedder, (entry, vector) :: rest =>
    match embedder.vectorIndex.add entry.id vector with
    | (index, .error _) => ({ embedder with vectorIndex := index }, none)
    | (index, .ok ()) =>
      match updateIndexEntryProvider embedder.indexEntries entry.id provider.modelName
          ("dim=" ++ toString provider.dimensions) with
      | none => ({ embedder with vectorIndex := index }, none)
      | some entries =>
        let added := addVectors provider
          { embedder with vectorIndex := index, indexEntries := entries } rest
        (added.1, added.2.map (· + 1))

/-- The forward direction: embed the missing entries of one page of stored
entries and move the cursor to the end of the page. -/
def embedMissing (provider : EmbeddingProvider ν) (embedder : VectorEmbedder ν)
    (batchSize : ℕ) : VectorEmbedder ν × Option ℕ :=
  let sqliteBatch := listIndexEntriesByTypePage embedder.indexEntries vectorIndexType
    embedder.reconcileAfterId batchSize
  if sqliteBatch = [] then ({ embedder with reconcileAfterId := none }, some 0)
  else
    let missingEntries := sqliteBatch.filter fun entry =>
      decide (entry.id ∉ embedder.vectorIndex.knownEntryIds)
    let texts := missingEntries.map IndexEntry.textView
    let vectors := if texts = [] then [] else provider.embed texts
    let added := addVectors provider embedder (missingEntries.zip vectors)
    match added.2 with
    | none => (added.1, none)
    | some changed =>
      ({ added.1 with reconcileAfterId := sqliteBatch.getLast?.map IndexEntry.id },
        some changed)

/-- `reconcile` with an embedding provider and an index present, for batch
sizes from one on.  Returns the number of entries changed. -/
def reconcile (provider : EmbeddingProvider ν) (batchSize : ℕ) (embedder : VectorEmbedder ν) :
    VectorEmbedder ν × ℕ :=
  if countIndexEntriesByType embedder.indexEntries vectorIndexType =
      embedder.vectorIndex.entryCount then
    ({ embedder with reconcileAfterId := none, reconcileStaleAfterId := none }, 0)
  else
    let swept := embedder.sweepStale batchSize
    let embedded := embedMissing provider swept.1 batchSize
    match embedded.2 with
    | none => (embedded.1, 0)
    | some changed =>
      let totalChanged := swept.2 + changed
      ({ embedded.1 with
          saved := if 0 < totalChanged then some embedded.1.vectorIndex.save
            else embedded.1.saved }, totalChanged)

/-- The state after `calls` consecutive calls. -/
def afterCalls (provider : EmbeddingProvider ν) (batchSize calls : ℕ)
    (embedder : VectorEmbedder ν) : VectorEmbedder ν :=
  (fun current => (reconcile provider batchSize current).1)^[calls] embedder

/-- The ids of the vector entries stored in SQLite. -/
def vectorEntryIds (embedder : VectorEmbedder ν) : Finset String :=
  ((embedder.indexEntries.rows.filter fun entry =>
    decide (entry.indexType = vectorIndexType)).map IndexEntry.id).toFinset

/-- The ids of the stored entries of every type. -/
def storedIds (embedder : VectorEmbedder ν) : Finset String :=
  (embedder.indexEntries.rows.map IndexEntry.id).toFinset

end VectorEmbedder

end Pallium.Vector
