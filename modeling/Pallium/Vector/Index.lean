import Mathlib

/-!
# The in-process vector index

`VectorIndex` keeps a dictionary from entry ids to integer keys, its inverse,
the next unused key and the native index, which is a map from keys to vectors
that rejects a key it already holds.  Every method returns the index it leaves
behind together with its outcome, because a method that raises half way keeps
what it has already changed.
-/

namespace Pallium.Vector

/-- What `remove` and the native `add` raise. -/
inductive VectorIndexError where
  | keyError (entryId : String)
  | missingKey (key : ℕ)
  | duplicateKey (key : ℕ)
  deriving DecidableEq, Repr

/-- The fields of `VectorIndex` that `add`, `remove` and `save` read or write. -/
structure VectorIndex (ν : Type*) where
  idToKey : AList (fun _ : String => ℕ)
  keyToId : AList (fun _ : ℕ => String)
  nextKey : ℕ
  native : AList (fun _ : ℕ => ν)
  modelName : String
  dimensions : ℕ
  embeddingSchemaVersion : ℕ

namespace VectorIndex

variable {ν : Type*}

variable {index : VectorIndex ν} {entryId : String}

def contains (index : VectorIndex ν) (entryId : String) : Bool :=
  decide (entryId ∈ index.idToKey)

def entryCount (index : VectorIndex ν) : ℕ := index.idToKey.keys.length

/-- `known_entry_ids`, a frozen set. -/
def knownEntryIds (index : VectorIndex ν) : Finset String := index.idToKey.keys.toFinset

/-- `remove`: both dictionaries are popped before the native index is asked. -/
def remove (index : VectorIndex ν) (entryId : String) :
    VectorIndex ν × Except VectorIndexError Unit :=
  match index.idToKey.lookup entryId with
  | none => (index, .error (.keyError entryId))
  | some key =>
    let popped := { index with idToKey := index.idToKey.erase entryId }
    if key ∈ popped.keyToId then
      ({ popped with
          keyToId := popped.keyToId.erase key
          native := popped.native.erase key }, .ok ())
    else
      (popped, .error (.missingKey key))

/-- `add`: an entry that is already present is removed first and gets a new
key. -/
def add (index : VectorIndex ν) (entryId : String) (vector : ν) :
    VectorIndex ν × Except VectorIndexError Unit :=
  let cleared := if index.contains entryId then index.remove entryId else (index, .ok ())
  match cleared with
  | (index, .error error) => (index, .error error)
  | (index, .ok ()) =>
    let key := index.nextKey
    let mapped := { index with
      nextKey := key + 1
      idToKey := index.idToKey.insert entryId key
      keyToId := index.keyToId.insert key entryId }
    if key ∈ mapped.native then (mapped, .error (.duplicateKey key))
    else ({ mapped with native := mapped.native.insert key vector }, .ok ())

/-- The three files a `save` replaces, one after the other. -/
structure Files (ν : Type*) where
  native : AList (fun _ : ℕ => ν)
  idToKey : AList (fun _ : String => ℕ)
  nextKey : ℕ
  modelName : String
  dimensions : ℕ
  entryCount : ℕ
  embeddingSchemaVersion : ℕ

/-- `save` with every file replacement succeeding. -/
def save (index : VectorIndex ν) : Files ν where
  native := index.native
  idToKey := index.idToKey
  nextKey := index.nextKey
  modelName := index.modelName
  dimensions := index.dimensions
  entryCount := index.entryCount
  embeddingSchemaVersion := index.embeddingSchemaVersion

/-! ## The representation invariant -/

/-- The two dictionaries are inverse to each other and no key from `nextKey` on
has been handed out. -/
structure Consistent (index : VectorIndex ν) : Prop where
  inverse : ∀ entryId key,
    index.idToKey.lookup entryId = some key → index.keyToId.lookup key = some entryId
  fresh : ∀ key, index.nextKey ≤ key → key ∉ index.native
  bounded : ∀ entryId key, index.idToKey.lookup entryId = some key → key < index.nextKey

theorem mem_knownEntryIds :
    entryId ∈ index.knownEntryIds ↔ entryId ∈ index.idToKey := by
  simp [knownEntryIds, AList.mem_keys]

theorem card_knownEntryIds (index : VectorIndex ν) :
    index.knownEntryIds.card = index.entryCount :=
  List.toFinset_card_of_nodup index.idToKey.keys_nodup

private theorem mem_of_lookup {β : Type*} {κ : Type*} [DecidableEq κ]
    {table : AList (fun _ : κ => β)} {k : κ} {value : β}
    (hlookup : table.lookup k = some value) : k ∈ table :=
  AList.lookup_isSome.mp (by rw [hlookup]; rfl)

/-- On a consistent index, `remove` of a known entry succeeds, forgets exactly
that entry and leaves a consistent index. -/
theorem remove_known (hindex : index.Consistent) (hknown : entryId ∈ index.knownEntryIds) :
    (index.remove entryId).2 = .ok () ∧ (index.remove entryId).1.Consistent ∧
      (index.remove entryId).1.knownEntryIds = index.knownEntryIds.erase entryId := by
  rw [mem_knownEntryIds, ← AList.lookup_isSome, Option.isSome_iff_exists] at hknown
  obtain ⟨key, hkey⟩ := hknown
  have hback : key ∈ index.keyToId := mem_of_lookup (hindex.inverse entryId key hkey)
  simp only [remove, hkey, hback, if_true]
  refine ⟨trivial, ?_, ?_⟩
  · refine ⟨fun other otherKey hother => ?_, fun other hother => ?_, fun other otherKey hother => ?_⟩
    · have hne : other ≠ entryId := by
        rintro rfl
        rw [AList.lookup_erase] at hother
        cases hother
      rw [AList.lookup_erase_ne hne] at hother
      have hinverse := hindex.inverse other otherKey hother
      have hkeyNe : otherKey ≠ key := by
        rintro rfl
        rw [hindex.inverse entryId otherKey hkey, Option.some.injEq] at hinverse
        exact hne hinverse.symm
      rw [AList.lookup_erase_ne hkeyNe]
      exact hinverse
    · rw [AList.mem_erase]
      exact fun hmem => hindex.fresh other hother hmem.2
    · have hne : other ≠ entryId := by
        rintro rfl
        rw [AList.lookup_erase] at hother
        cases hother
      rw [AList.lookup_erase_ne hne] at hother
      exact hindex.bounded other otherKey hother
  · ext other
    simp [mem_knownEntryIds, AList.mem_erase]

/-- On a consistent index, `add` of an unknown entry succeeds, learns exactly
that entry and leaves a consistent index. -/
theorem add_unknown (hindex : index.Consistent) (hunknown : entryId ∉ index.knownEntryIds)
    (vector : ν) :
    (index.add entryId vector).2 = .ok () ∧ (index.add entryId vector).1.Consistent ∧
      (index.add entryId vector).1.knownEntryIds = insert entryId index.knownEntryIds := by
  rw [mem_knownEntryIds] at hunknown
  have hfree : index.nextKey ∉ index.native := hindex.fresh _ le_rfl
  simp only [add, contains, hunknown, decide_false, Bool.false_eq_true, if_false, hfree]
  refine ⟨trivial, ?_, ?_⟩
  · refine ⟨fun other otherKey hother => ?_, fun other hother => ?_, fun other otherKey hother => ?_⟩
    · by_cases hne : other = entryId
      · subst hne
        rw [AList.lookup_insert, Option.some.injEq] at hother
        rw [← hother, AList.lookup_insert]
      · rw [AList.lookup_insert_ne hne] at hother
        have hkeyNe : otherKey ≠ index.nextKey := (hindex.bounded other otherKey hother).ne
        rw [AList.lookup_insert_ne hkeyNe]
        exact hindex.inverse other otherKey hother
    · have hlater : index.nextKey < other := hother
      rw [AList.mem_insert]
      rintro (rfl | hmem)
      · exact lt_irrefl _ hlater
      · exact hindex.fresh other hlater.le hmem
    · change otherKey < index.nextKey + 1
      by_cases hne : other = entryId
      · subst hne
        rw [AList.lookup_insert, Option.some.injEq] at hother
        omega
      · rw [AList.lookup_insert_ne hne] at hother
        exact (hindex.bounded other otherKey hother).trans (Nat.lt_succ_self _)
  · ext other
    simp [mem_knownEntryIds]

end VectorIndex

end Pallium.Vector
