import Pallium.Vector.Index

/-!
# The files of a vector index

A saved index consists of the native file, the id map and the metadata, each of
which is replaced atomically but not together with the others.  Loading takes
the id map as it is and reads the native file only where the metadata counts
entries.  An entry has a vector if its key is in the native index; adding
entries to any index whose dictionaries agree keeps the vectors that are there.
-/

namespace Pallium.Vector

variable {ν : Type*}

/-- `{index_path}.meta.json`. -/
structure IndexMeta where
  modelName : String
  dimensions : ℕ
  entryCount : ℕ
  embeddingSchemaVersion : ℕ
  deriving DecidableEq, Repr

/-- `{index_path}.idmap.json`. -/
structure IdMap where
  idToKey : AList (fun _ : String => ℕ)
  nextKey : ℕ

/-- The files at an index path, as far as they exist. -/
structure IndexFiles (ν : Type*) where
  native : Option (AList (fun _ : ℕ => ν))
  idMap : Option IdMap
  metadata : Option IndexMeta

inductive IndexFile
  | native
  | idMap
  | metadata
  deriving DecidableEq, Repr

namespace IndexFiles

def none : IndexFiles ν := ⟨Option.none, Option.none, Option.none⟩

/-- One replacement of `save`. -/
def write (index : VectorIndex ν) (files : IndexFiles ν) : IndexFile → IndexFiles ν
  | .native => { files with native := some index.native }
  | .idMap => { files with idMap := some ⟨index.idToKey, index.nextKey⟩ }
  | .metadata =>
    { files with
      metadata := some ⟨index.modelName, index.dimensions, index.entryCount,
        index.embeddingSchemaVersion⟩ }

def saveOrder : List IndexFile := [.native, .idMap, .metadata]

/-- The inverse of the id map. -/
def keyToId (idToKey : AList (fun _ : String => ℕ)) : AList (fun _ : ℕ => String) :=
  idToKey.entries.foldr (fun entry inverse => inverse.insert entry.2 entry.1) ∅

/-- `load`; `none` is the error of a missing file. -/
def load (files : IndexFiles ν) : Option (VectorIndex ν) :=
  match files.metadata, files.idMap with
  | some metadata, some idMap =>
    some
      { idToKey := idMap.idToKey
        keyToId := keyToId idMap.idToKey
        nextKey := idMap.nextKey
        native := if 0 < metadata.entryCount then files.native.getD ∅ else ∅
        modelName := metadata.modelName
        dimensions := metadata.dimensions
        embeddingSchemaVersion := metadata.embeddingSchemaVersion }
  | _, _ => Option.none

/-- Replace a file by another one, if that exists. -/
def replace (source target : IndexFiles ν) : IndexFile → IndexFiles ν
  | .native => { target with native := source.native.or target.native }
  | .idMap => { target with idMap := source.idMap.or target.idMap }
  | .metadata => { target with metadata := source.metadata.or target.metadata }

def unlink (files : IndexFiles ν) : IndexFile → IndexFiles ν
  | .native => { files with native := Option.none }
  | .idMap => { files with idMap := Option.none }
  | .metadata => { files with metadata := Option.none }

def ofIndex (index : VectorIndex ν) : IndexFiles ν :=
  saveOrder.foldl (write index) none

end IndexFiles

/-- No two entries share a key, and keys from `nextKey` on are unused. -/
structure IdMap.Injective (idMap : IdMap) : Prop where
  injective : ∀ first second key, idMap.idToKey.lookup first = some key →
    idMap.idToKey.lookup second = some key → first = second
  bounded : ∀ entryId key, idMap.idToKey.lookup entryId = some key → key < idMap.nextKey

namespace VectorIndex

def Holds (index : VectorIndex ν) (entryId : String) : Prop :=
  ∃ key ∈ index.idToKey.lookup entryId, key ∈ index.native

instance (index : VectorIndex ν) (entryId : String) : Decidable (index.Holds entryId) :=
  match hlookup : index.idToKey.lookup entryId with
  | none => isFalse fun ⟨_, hkey, _⟩ => by rw [hlookup] at hkey; cases hkey
  | some key =>
    decidable_of_iff (key ∈ index.native)
      ⟨fun hmem => ⟨key, hlookup, hmem⟩, fun ⟨other, hother, hmem⟩ => by
        rw [hlookup] at hother
        exact Option.some.inj hother ▸ hmem⟩

/-- The dictionaries are inverse to each other, and keys from `nextKey` on are
not handed out. -/
structure Mapped (index : VectorIndex ν) : Prop where
  inverse : ∀ entryId key,
    index.idToKey.lookup entryId = some key → index.keyToId.lookup key = some entryId
  bounded : ∀ entryId key, index.idToKey.lookup entryId = some key → key < index.nextKey

/-- `VectorIndex(index_path, dimensions, model_name, embedding_schema_version)`. -/
def create (modelName : String) (dimensions embeddingSchemaVersion : ℕ) : VectorIndex ν :=
  ⟨∅, ∅, 0, ∅, modelName, dimensions, embeddingSchemaVersion⟩

variable {index : VectorIndex ν} {entryId : String}

theorem mapped_create (modelName : String) (dimensions embeddingSchemaVersion : ℕ) :
    (create modelName dimensions embeddingSchemaVersion : VectorIndex ν).Mapped where
  inverse _ _ hlookup := by cases hlookup
  bounded _ _ hlookup := by cases hlookup

theorem Mapped.idMap (hmapped : index.Mapped) :
    (⟨index.idToKey, index.nextKey⟩ : IdMap).Injective where
  injective first second key hfirst hsecond := by
    have hback := hmapped.inverse first key hfirst
    rw [hmapped.inverse second key hsecond, Option.some.injEq] at hback
    exact hback.symm
  bounded := hmapped.bounded

theorem Mapped.remove (hmapped : index.Mapped) (hknown : entryId ∈ index.idToKey) :
    (index.remove entryId).2 = .ok () ∧ (index.remove entryId).1.Mapped ∧
      ∀ other, other ≠ entryId → index.Holds other → (index.remove entryId).1.Holds other := by
  obtain ⟨key, hkey⟩ := Option.isSome_iff_exists.mp (AList.lookup_isSome.mpr hknown)
  have hinverse := hmapped.inverse entryId key hkey
  have hback : key ∈ index.keyToId := AList.lookup_isSome.mp (by rw [hinverse]; rfl)
  simp only [VectorIndex.remove, hkey, hback, if_true]
  have hother : ∀ other otherKey, (index.idToKey.erase entryId).lookup other = some otherKey →
      other ≠ entryId ∧ index.idToKey.lookup other = some otherKey ∧ otherKey ≠ key := by
    intro other otherKey hlookup
    have hne : other ≠ entryId := by
      rintro rfl
      rw [AList.lookup_erase] at hlookup
      cases hlookup
    rw [AList.lookup_erase_ne hne] at hlookup
    refine ⟨hne, hlookup, ?_⟩
    rintro rfl
    exact hne (hmapped.idMap.injective other entryId otherKey hlookup hkey)
  refine ⟨trivial, ⟨fun other otherKey hlookup => ?_, fun other otherKey hlookup => ?_⟩,
    fun other hne hholds => ?_⟩
  · obtain ⟨-, hlookup, hkeyNe⟩ := hother other otherKey hlookup
    rw [AList.lookup_erase_ne hkeyNe]
    exact hmapped.inverse other otherKey hlookup
  · exact hmapped.bounded other otherKey (hother other otherKey hlookup).2.1
  · obtain ⟨otherKey, hlookup, hmem⟩ := hholds
    have hkeyNe : otherKey ≠ key := by
      rintro rfl
      exact hne (hmapped.idMap.injective other entryId otherKey hlookup hkey)
    exact ⟨otherKey, by rw [AList.lookup_erase_ne hne]; exact hlookup,
      AList.mem_erase.mpr ⟨hkeyNe, hmem⟩⟩

theorem Mapped.insert {vector : ν} (hmapped : index.Mapped) (hunknown : entryId ∉ index.idToKey)
    (hok : (index.add entryId vector).2 = .ok ()) :
    (index.add entryId vector).1.Mapped ∧ (index.add entryId vector).1.Holds entryId ∧
      ∀ other, index.Holds other → (index.add entryId vector).1.Holds other := by
  simp only [add, contains, hunknown, decide_false, Bool.false_eq_true, if_false] at hok ⊢
  split at hok
  · cases hok
  · next hfree =>
      rw [if_neg hfree]
      refine ⟨⟨fun other otherKey hlookup => ?_, fun other otherKey hlookup => ?_⟩, ?_,
        fun other hholds => ?_⟩
      · by_cases hne : other = entryId
        · subst hne
          rw [AList.lookup_insert, Option.some.injEq] at hlookup
          rw [← hlookup, AList.lookup_insert]
        · rw [AList.lookup_insert_ne hne] at hlookup
          rw [AList.lookup_insert_ne (hmapped.bounded other otherKey hlookup).ne]
          exact hmapped.inverse other otherKey hlookup
      · change otherKey < index.nextKey + 1
        by_cases hne : other = entryId
        · subst hne
          rw [AList.lookup_insert, Option.some.injEq] at hlookup
          omega
        · rw [AList.lookup_insert_ne hne] at hlookup
          exact (hmapped.bounded other otherKey hlookup).trans (Nat.lt_succ_self _)
      · exact ⟨index.nextKey, AList.lookup_insert _, (AList.mem_insert _).mpr (Or.inl rfl)⟩
      · obtain ⟨otherKey, hlookup, hmem⟩ := hholds
        have hne : other ≠ entryId := by
          rintro rfl
          exact hunknown (AList.lookup_isSome.mp (by rw [hlookup]; rfl))
        exact ⟨otherKey, by rw [AList.lookup_insert_ne hne]; exact hlookup,
          (AList.mem_insert _).mpr (Or.inr hmem)⟩

theorem Mapped.add {vector : ν} (hmapped : index.Mapped)
    (hok : (index.add entryId vector).2 = .ok ()) :
    (index.add entryId vector).1.Mapped ∧ (index.add entryId vector).1.Holds entryId ∧
      ∀ other, index.Holds other → (index.add entryId vector).1.Holds other := by
  by_cases hknown : entryId ∈ index.idToKey
  · obtain ⟨hremoved, hmappedRemoved, hothers⟩ := hmapped.remove hknown
    have hgone : entryId ∉ (index.remove entryId).1.idToKey := by
      obtain ⟨key, hkey⟩ := Option.isSome_iff_exists.mp (AList.lookup_isSome.mpr hknown)
      have hback : key ∈ index.keyToId :=
        AList.lookup_isSome.mp (by rw [hmapped.inverse entryId key hkey]; rfl)
      simp [VectorIndex.remove, hkey, hback, AList.mem_erase]
    have hadd : index.add entryId vector = (index.remove entryId).1.add entryId vector := by
      simp only [VectorIndex.add, contains, hknown, hgone, decide_true, decide_false, if_true,
        Bool.false_eq_true, if_false]
      rw [show index.remove entryId = ((index.remove entryId).1, .ok ()) from
        Prod.ext rfl hremoved]
    rw [hadd] at hok ⊢
    obtain ⟨hmappedAdded, hholds, hkept⟩ := hmappedRemoved.insert hgone hok
    refine ⟨hmappedAdded, hholds, fun other hother => ?_⟩
    by_cases hne : other = entryId
    · exact hne ▸ hholds
    · exact hkept other (hothers other hne hother)
  · exact hmapped.insert hknown hok

end VectorIndex

namespace IndexFiles

variable {files : IndexFiles ν} {index : VectorIndex ν}

theorem load_eq_some : files.load = some index ↔
    ∃ metadata idMap, files.metadata = some metadata ∧ files.idMap = some idMap ∧
      index =
        { idToKey := idMap.idToKey
          keyToId := keyToId idMap.idToKey
          nextKey := idMap.nextKey
          native := if 0 < metadata.entryCount then files.native.getD ∅ else ∅
          modelName := metadata.modelName
          dimensions := metadata.dimensions
          embeddingSchemaVersion := metadata.embeddingSchemaVersion } := by
  unfold load
  cases hmetadata : files.metadata with
  | none => simp
  | some metadata =>
    cases hidMap : files.idMap with
    | none => simp
    | some idMap =>
      simp only [Option.some.injEq, exists_and_left, exists_eq_left']
      exact eq_comm

theorem lookup_keyToId {idMap : IdMap} (hinjective : idMap.Injective) {entryId : String} {key : ℕ}
    (hlookup : idMap.idToKey.lookup entryId = some key) :
    (keyToId idMap.idToKey).lookup key = some entryId := by
  have hentries : ∀ entries : List (Sigma fun _ : String => ℕ),
      (∀ entry ∈ entries, idMap.idToKey.lookup entry.1 = some entry.2) →
      (⟨entryId, key⟩ : Sigma fun _ : String => ℕ) ∈ entries →
        (entries.foldr (fun entry inverse => inverse.insert entry.2 entry.1)
          (∅ : AList fun _ : ℕ => String)).lookup key = some entryId := by
    intro entries hall hmem
    induction entries with
    | nil => cases hmem
    | cons head rest ih =>
      rw [List.foldr_cons]
      by_cases hkey : key = head.2
      · have hhead := hall head List.mem_cons_self
        rw [← hkey] at hhead
        rw [hkey, AList.lookup_insert, hinjective.injective _ _ key hhead hlookup]
      · rw [AList.lookup_insert_ne hkey]
        refine ih (List.forall_mem_cons.mp hall).2 ?_
        rcases List.mem_cons.mp hmem with heq | hrest
        · exact absurd (congrArg Sigma.snd heq) hkey
        · exact hrest
  refine hentries _ (fun entry hentry => ?_) (AList.mem_lookup_iff.mp hlookup)
  exact AList.mem_lookup_iff.mpr hentry

theorem mapped_of_load (hidMap : ∀ idMap ∈ files.idMap, idMap.Injective)
    (hload : files.load = some index) : index.Mapped := by
  obtain ⟨metadata, idMap, -, hsome, rfl⟩ := load_eq_some.mp hload
  exact ⟨fun entryId key hlookup => lookup_keyToId (hidMap idMap hsome) hlookup,
    (hidMap idMap hsome).bounded⟩

theorem load_ofIndex (index : VectorIndex ν) : ∃ loaded, (ofIndex index).load = some loaded ∧
    loaded.idToKey = index.idToKey ∧
      ∀ entryId, index.Holds entryId → loaded.Holds entryId := by
  refine ⟨_, rfl, rfl, fun entryId hholds => ?_⟩
  obtain ⟨key, hlookup, hmem⟩ := hholds
  have hcount : 0 < index.entryCount := by
    have hknown : entryId ∈ index.idToKey :=
      AList.lookup_isSome.mp (by rw [Option.mem_def.mp hlookup]; rfl)
    exact List.length_pos_of_mem (AList.mem_keys.mp hknown)
  refine ⟨key, hlookup, ?_⟩
  change key ∈ if 0 < index.entryCount then index.native else ∅
  rw [if_pos hcount]
  exact hmem

end IndexFiles

end Pallium.Vector
