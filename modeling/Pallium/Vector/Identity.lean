import Pallium.Core.Run
import Pallium.Vector.IndexFiles

/-!
# The identity of the entries of a vector index

A vector is stored together with the id that it was added for, which the code does not
keep.  An index is sound when its dictionaries are inverse to each other, a search never
reports a vector under another id, and every known id has a vector.  A save replaces
three files, and a crash between two replacements leaves files of different indexes.
-/

namespace Pallium.Vector

open Pallium.Run
open AList (mem_lookup_iff lookup_isSome mem_keys lookup_erase lookup_erase_ne mem_erase
  lookup_insert lookup_insert_ne)

variable {ν : Type*}

/-- The matches of the native index for a query: all its vectors, the most similar
first. -/
structure Ranks (similarity : ν → ℚ) (native : AList (fun _ : ℕ => ν)) (ranking : List (ℕ × ν)) :
    Prop where
  complete : ranking.Perm (native.entries.map fun entry => (entry.1, entry.2))
  sorted : ranking.Pairwise fun first later => similarity later.2 ≤ similarity first.2

namespace VectorIndex

/-- `search`: the first matches whose keys are known, with their vectors. -/
def search (index : VectorIndex ν) (ranking : List (ℕ × ν)) (k : ℕ) : List (String × ν) :=
  (ranking.take (min k index.entryCount)).filterMap fun found =>
    (index.keyToId.lookup found.1).map fun entryId => (entryId, found.2)

/-- What a user of the index relies on.  Every vector carries the id that it was added
for. -/
structure Sound (index : VectorIndex (String × ν)) : Prop where
  inverse : ∀ entryId key,
    index.idToKey.lookup entryId = some key ↔ index.keyToId.lookup key = some entryId
  own : ∀ similarity ranking k, Ranks similarity index.native ranking →
    ∀ hit ∈ index.search ranking k, hit.2.1 = hit.1
  found : ∀ entryId, index.contains entryId → ∃ similarity ranking k,
    Ranks similarity index.native ranking ∧ ∃ hit ∈ index.search ranking k, hit.1 = entryId

/-- The dictionaries are inverse to each other, and every key in use holds a vector that
was added for its id. -/
structure Owned (index : VectorIndex (String × ν)) : Prop where
  inverse : ∀ entryId key,
    index.idToKey.lookup entryId = some key ↔ index.keyToId.lookup key = some entryId
  bounded : ∀ entryId key, index.idToKey.lookup entryId = some key → key < index.nextKey
  held : ∀ entryId key, index.idToKey.lookup entryId = some key →
    ∃ vector, index.native.lookup key = some (entryId, vector)

end VectorIndex

/-- The index of the process and the files at its path. -/
structure IndexWorld (ν : Type*) where
  memory : Option (VectorIndex (String × ν))
  files : IndexFiles (String × ν)

/-- What happens to the index.  A crash takes the process away after the first
replacements of a save. -/
inductive IndexAct (ν : Type*)
  | create (modelName : String) (dimensions embeddingSchemaVersion : ℕ)
  | add (entryId : String) (vector : ν)
  | remove (entryId : String)
  | save
  | crash (written : ℕ)
  | load

namespace IndexWorld

/-- No index, and nothing saved. -/
def initial : IndexWorld ν := ⟨none, .none⟩

/-- The files after the first replacements of a save. -/
def written (world : IndexWorld ν) (count : ℕ) : IndexFiles (String × ν) :=
  match world.memory with
  | none => world.files
  | some index => (IndexFiles.saveOrder.take count).foldl (IndexFiles.write index) world.files

def step (world : IndexWorld ν) : IndexAct ν → IndexWorld ν
  | .create modelName dimensions embeddingSchemaVersion =>
    { world with memory := some (.create modelName dimensions embeddingSchemaVersion) }
  | .add entryId vector =>
    { world with memory := world.memory.map fun index => (index.add entryId (entryId, vector)).1 }
  | .remove entryId =>
    { world with memory := world.memory.map fun index => (index.remove entryId).1 }
  | .save => { world with files := world.written 3 }
  | .crash count => ⟨none, world.written count⟩
  | .load => { world with memory := world.files.load.or world.memory }

/-- The step leaves no entry with a wrong vector or none: an addition takes a key that is
free, a crash after the first replacement leaves every id on disk with its vector, and one
after the second leaves metadata that counts entries, if there are any. -/
def Harmless (world : IndexWorld ν) : IndexAct ν → Prop
  | .add _ _ => ∀ index, world.memory = some index → index.nextKey ∉ index.native
  | .crash 1 => ∀ index idMap, world.memory = some index → world.files.metadata.isSome →
      world.files.idMap = some idMap → ∀ entryId key, idMap.idToKey.lookup entryId = some key →
        ∃ vector, index.native.lookup key = some (entryId, vector)
  | .crash 2 => ∀ index metadata, world.memory = some index →
      world.files.metadata = some metadata → 0 < index.entryCount → 0 < metadata.entryCount
  | _ => True

end IndexWorld

namespace VectorIndex

variable {index : VectorIndex (String × ν)}

theorem Owned.mapped (howned : index.Owned) : index.Mapped where
  inverse entryId key hlookup := (howned.inverse entryId key).mp hlookup
  bounded := howned.bounded

theorem Owned.sound (howned : index.Owned) : index.Sound where
  inverse := howned.inverse
  own similarity ranking k hranks hit hhit := by
    obtain ⟨⟨key, stored⟩, hfound, hmade⟩ := List.mem_filterMap.mp hhit
    obtain ⟨entryId, hid, rfl⟩ := Option.map_eq_some_iff.mp hmade
    obtain ⟨vector, hheld⟩ := howned.held entryId key ((howned.inverse entryId key).mpr hid)
    have hentry := hranks.complete.subset (List.mem_of_mem_take hfound)
    obtain ⟨entry, hmem, hsame⟩ := List.mem_map.mp hentry
    obtain ⟨rfl, rfl⟩ := Prod.mk.inj hsame
    have hlookup := mem_lookup_iff.mpr hmem
    rw [Option.mem_def, hheld] at hlookup
    rw [← Option.some.inj hlookup]
  found entryId hcontains := by
    have hknown : entryId ∈ index.idToKey := of_decide_eq_true hcontains
    obtain ⟨key, hkey⟩ := Option.isSome_iff_exists.mp (lookup_isSome.mpr hknown)
    obtain ⟨vector, hheld⟩ := howned.held entryId key hkey
    have hentry : (key, (entryId, vector)) ∈
        index.native.entries.map fun entry => (entry.1, entry.2) :=
      List.mem_map.mpr ⟨⟨key, (entryId, vector)⟩, mem_lookup_iff.mp hheld, rfl⟩
    obtain ⟨before, after, hsplit⟩ := List.append_of_mem hentry
    have hcount : 0 < index.entryCount := List.length_pos_of_mem (mem_keys.mp hknown)
    refine ⟨fun _ => 0, (key, (entryId, vector)) :: (before ++ after), 1, ⟨?_, ?_⟩,
      (entryId, (entryId, vector)), ?_, rfl⟩
    · rw [hsplit]
      exact List.perm_middle.symm
    · exact List.pairwise_of_forall fun _ _ => le_rfl
    · rw [search, min_eq_left hcount]
      refine List.mem_filterMap.mpr ⟨(key, (entryId, vector)), List.mem_cons_self, ?_⟩
      rw [(howned.inverse entryId key).mp hkey]
      rfl

theorem owned_create (modelName : String) (dimensions embeddingSchemaVersion : ℕ) :
    (create modelName dimensions embeddingSchemaVersion : VectorIndex (String × ν)).Owned where
  inverse entryId key := by
    constructor
    · exact fun hlookup => nomatch hlookup
    · exact fun hlookup => nomatch hlookup
  bounded _ _ hlookup := nomatch hlookup
  held _ _ hlookup := nomatch hlookup

theorem Owned.remove (howned : index.Owned) (entryId : String) :
    (index.remove entryId).1.Owned ∧ (index.remove entryId).1.nextKey = index.nextKey ∧
      ∀ key, key ∈ (index.remove entryId).1.native → key ∈ index.native := by
  cases hkey : index.idToKey.lookup entryId with
  | none =>
    have hsame : (index.remove entryId).1 = index := by rw [VectorIndex.remove, hkey]
    rw [hsame]
    exact ⟨howned, rfl, fun _ hmem => hmem⟩
  | some key =>
    have hback : index.keyToId.lookup key = some entryId := (howned.inverse entryId key).mp hkey
    have hmem : key ∈ index.keyToId := lookup_isSome.mp (by rw [hback]; rfl)
    have hremoved : (index.remove entryId).1 =
        { index with
          idToKey := index.idToKey.erase entryId
          keyToId := index.keyToId.erase key
          native := index.native.erase key } := by
      rw [VectorIndex.remove, hkey]
      simp only
      rw [if_pos hmem]
    have hkept : ∀ other otherKey, (index.idToKey.erase entryId).lookup other = some otherKey ↔
        other ≠ entryId ∧ index.idToKey.lookup other = some otherKey := by
      intro other otherKey
      by_cases hne : other = entryId
      · rw [hne, lookup_erase]
        exact ⟨fun hnone => (by cases hnone), fun hother => absurd rfl hother.1⟩
      · rw [lookup_erase_ne hne]
        exact ⟨fun hlookup => ⟨hne, hlookup⟩, fun hother => hother.2⟩
    have hkeys : ∀ other otherKey, other ≠ entryId →
        index.idToKey.lookup other = some otherKey → otherKey ≠ key := by
      rintro other otherKey hne hlookup rfl
      exact hne (Option.some.inj (((howned.inverse other otherKey).mp hlookup).symm.trans hback))
    rw [hremoved]
    refine ⟨⟨fun other otherKey => ?_, fun other otherKey hlookup => ?_,
      fun other otherKey hlookup => ?_⟩, rfl, fun other hother => (mem_erase.mp hother).2⟩
    · rw [hkept]
      by_cases hsame : otherKey = key
      · rw [hsame, lookup_erase]
        refine ⟨fun hother => absurd rfl (hkeys other key hother.1 hother.2), fun hnone => ?_⟩
        cases hnone
      · rw [lookup_erase_ne hsame, howned.inverse other otherKey]
        refine ⟨fun hother => hother.2, fun hlookup => ⟨?_, hlookup⟩⟩
        rintro rfl
        exact hsame (Option.some.inj
          (((howned.inverse other otherKey).mpr hlookup).symm.trans hkey))
    · exact howned.bounded other otherKey ((hkept other otherKey).mp hlookup).2
    · obtain ⟨hne, hlookup⟩ := (hkept other otherKey).mp hlookup
      obtain ⟨vector, hheld⟩ := howned.held other otherKey hlookup
      refine ⟨vector, ?_⟩
      change (index.native.erase key).lookup otherKey = _
      rw [lookup_erase_ne (hkeys other otherKey hne hlookup)]
      exact hheld

theorem Owned.insert (howned : index.Owned) {entryId : String} (vector : ν)
    (hunknown : entryId ∉ index.idToKey) (hfree : index.nextKey ∉ index.native) :
    (index.add entryId (entryId, vector)).1.Owned := by
  have hadded : (index.add entryId (entryId, vector)).1 =
      { index with
        nextKey := index.nextKey + 1
        idToKey := index.idToKey.insert entryId index.nextKey
        keyToId := index.keyToId.insert index.nextKey entryId
        native := index.native.insert index.nextKey (entryId, vector) } := by
    simp only [add, contains, hunknown, decide_false, Bool.false_eq_true, if_false, hfree]
  have hnext : ∀ other key, index.keyToId.lookup key = some other → key ≠ index.nextKey :=
    fun other key hlookup =>
      (howned.bounded other key ((howned.inverse other key).mpr hlookup)).ne
  have hothers : ∀ other key, index.idToKey.lookup other = some key → other ≠ entryId := by
    rintro other key hlookup rfl
    exact hunknown (lookup_isSome.mp (by rw [hlookup]; rfl))
  rw [hadded]
  refine ⟨fun other key => ?_, fun other key hlookup => ?_, fun other key hlookup => ?_⟩
  · by_cases hne : other = entryId
    · by_cases hkey : key = index.nextKey
      · rw [hne, hkey, lookup_insert, lookup_insert]
        exact ⟨fun _ => rfl, fun _ => rfl⟩
      · rw [hne, lookup_insert, lookup_insert_ne hkey]
        refine ⟨fun hlookup => absurd (Option.some.inj hlookup).symm hkey, fun hlookup => ?_⟩
        exact absurd rfl (hothers entryId key ((howned.inverse entryId key).mpr hlookup))
    · by_cases hkey : key = index.nextKey
      · rw [hkey, lookup_insert_ne hne, lookup_insert]
        refine ⟨fun hlookup => ?_, fun hlookup => absurd (Option.some.inj hlookup).symm hne⟩
        exact absurd (howned.bounded other index.nextKey hlookup) (lt_irrefl _)
      · rw [lookup_insert_ne hne, lookup_insert_ne hkey]
        exact howned.inverse other key
  · change key < index.nextKey + 1
    by_cases hne : other = entryId
    · rw [hne, lookup_insert, Option.some.injEq] at hlookup
      omega
    · rw [lookup_insert_ne hne] at hlookup
      exact (howned.bounded other key hlookup).trans (Nat.lt_succ_self _)
  · change ∃ stored, (index.native.insert index.nextKey (entryId, vector)).lookup key =
      some (other, stored)
    by_cases hne : other = entryId
    · rw [hne, lookup_insert, Option.some.injEq] at hlookup
      rw [hne, ← hlookup, lookup_insert]
      exact ⟨vector, rfl⟩
    · rw [lookup_insert_ne hne] at hlookup
      rw [lookup_insert_ne (howned.bounded other key hlookup).ne]
      exact howned.held other key hlookup

theorem Owned.add (howned : index.Owned) (entryId : String) (vector : ν)
    (hfree : index.nextKey ∉ index.native) : (index.add entryId (entryId, vector)).1.Owned := by
  by_cases hknown : entryId ∈ index.idToKey
  · obtain ⟨hremoved, -, -⟩ := howned.mapped.remove hknown
    obtain ⟨hkept, hnext, hnative⟩ := howned.remove entryId
    have hgone : entryId ∉ (index.remove entryId).1.idToKey := by
      obtain ⟨key, hkey⟩ := Option.isSome_iff_exists.mp (lookup_isSome.mpr hknown)
      have hback : key ∈ index.keyToId := lookup_isSome.mp
        (by rw [(howned.inverse entryId key).mp hkey]; rfl)
      simp [VectorIndex.remove, hkey, hback, mem_erase]
    have hadd : index.add entryId (entryId, vector) =
        (index.remove entryId).1.add entryId (entryId, vector) := by
      simp only [VectorIndex.add, contains, hknown, hgone, decide_true, decide_false, if_true,
        Bool.false_eq_true, if_false]
      rw [show index.remove entryId = ((index.remove entryId).1, .ok ()) from
        Prod.ext rfl hremoved]
    rw [hadd]
    exact hkept.insert vector hgone fun hmem => hfree (hnext ▸ hnative _ hmem)
  · exact howned.insert vector hknown hfree

end VectorIndex

namespace IndexWorld

variable {index : VectorIndex (String × ν)} {world : IndexWorld ν}
  {loaded : VectorIndex (String × ν)}

/-- The index of the process, and what can be loaded, have their own vectors. -/
structure Intact (world : IndexWorld ν) : Prop where
  memory : ∀ index, world.memory = some index → index.Owned
  files : ∀ index, world.files.load = some index → index.Owned

theorem lookup_of_keyToId {idToKey : AList (fun _ : String => ℕ)} {entryId : String} {key : ℕ}
    (hlookup : (IndexFiles.keyToId idToKey).lookup key = some entryId) :
    idToKey.lookup entryId = some key := by
  have hentries : ∀ entries : List (Sigma fun _ : String => ℕ),
      (entries.foldr (fun entry inverse => inverse.insert entry.2 entry.1)
        (∅ : AList fun _ : ℕ => String)).lookup key = some entryId →
          (⟨entryId, key⟩ : Sigma fun _ : String => ℕ) ∈ entries := by
    intro entries
    induction entries with
    | nil => exact fun hnone => nomatch hnone
    | cons head rest ih =>
      intro hfound
      rw [List.foldr_cons] at hfound
      by_cases hkey : key = head.2
      · rw [hkey, lookup_insert, Option.some.injEq] at hfound
        rw [hkey, ← hfound]
        exact List.mem_cons_self
      · rw [lookup_insert_ne hkey] at hfound
        exact List.mem_cons_of_mem _ (ih hfound)
  exact mem_lookup_iff.mpr (hentries _ hlookup)

theorem owned_of_saved (howned : index.Owned) {files : IndexFiles (String × ν)}
    (hnative : files.native = some index.native)
    (hidMap : files.idMap = some ⟨index.idToKey, index.nextKey⟩)
    (hcount : ∀ metadata, files.metadata = some metadata → 0 < index.entryCount →
      0 < metadata.entryCount) (hload : files.load = some loaded) : loaded.Owned := by
  obtain ⟨metadata, idMap, hmetadata, hsome, rfl⟩ := IndexFiles.load_eq_some.mp hload
  obtain rfl := Option.eq_some_unique hsome hidMap
  refine ⟨fun entryId key => ?_, howned.bounded, fun entryId key hlookup => ?_⟩
  · exact ⟨fun hlookup => IndexFiles.lookup_keyToId howned.mapped.idMap hlookup,
      fun hlookup => lookup_of_keyToId hlookup⟩
  · have hknown : entryId ∈ index.idToKey :=
      lookup_isSome.mp (by rw [show index.idToKey.lookup entryId = _ from hlookup]; rfl)
    have hpositive := hcount metadata hmetadata (List.length_pos_of_mem (mem_keys.mp hknown))
    obtain ⟨vector, hheld⟩ := howned.held entryId key hlookup
    refine ⟨vector, ?_⟩
    change (if 0 < metadata.entryCount then files.native.getD ∅ else ∅).lookup key = _
    rw [if_pos hpositive, hnative]
    exact hheld

theorem owned_of_replaced {files : IndexFiles (String × ν)}
    (hfiles : ∀ index, files.load = some index → index.Owned)
    (hheld : files.metadata.isSome → ∀ idMap, files.idMap = some idMap → ∀ entryId key,
      idMap.idToKey.lookup entryId = some key →
        ∃ vector, index.native.lookup key = some (entryId, vector))
    (hload : ({ files with native := some index.native } : IndexFiles (String × ν)).load =
      some loaded) : loaded.Owned := by
  obtain ⟨metadata, idMap, hmetadata, hidMap, rfl⟩ := IndexFiles.load_eq_some.mp hload
  have hbefore := hfiles _ (IndexFiles.load_eq_some.mpr ⟨metadata, idMap, hmetadata, hidMap, rfl⟩)
  refine ⟨hbefore.inverse, hbefore.bounded, fun entryId key hlookup => ?_⟩
  by_cases hcount : 0 < metadata.entryCount
  · obtain ⟨vector, hvector⟩ :=
      hheld (Option.isSome_of_eq_some hmetadata) idMap hidMap entryId key hlookup
    refine ⟨vector, ?_⟩
    change (if 0 < metadata.entryCount then index.native else ∅).lookup key = _
    rw [if_pos hcount]
    exact hvector
  · obtain ⟨vector, hvector⟩ := hbefore.held entryId key hlookup
    simp only [if_neg hcount] at hvector
    exact nomatch hvector

theorem Intact.written (hintact : Intact world) (count : ℕ)
    (hharmless : world.Harmless (.crash count)) :
    ∀ index, (world.written count).load = some index → index.Owned := by
  unfold IndexWorld.written
  cases hmemory : world.memory with
  | none => exact hintact.files
  | some saved =>
    have howned := hintact.memory saved hmemory
    intro index hload
    match count with
    | 0 => exact hintact.files index hload
    | 1 =>
      exact owned_of_replaced hintact.files
        (fun hsome idMap hidMap => hharmless saved idMap hmemory hsome hidMap) hload
    | 2 =>
      change (⟨some saved.native, some ⟨saved.idToKey, saved.nextKey⟩,
        world.files.metadata⟩ : IndexFiles (String × ν)).load = some index at hload
      exact @owned_of_saved ν saved index howned ⟨some saved.native,
        some ⟨saved.idToKey, saved.nextKey⟩, world.files.metadata⟩ rfl rfl
        (fun metadata hmetadata => hharmless saved metadata hmemory hmetadata) hload
    | count + 3 =>
      have hall : IndexFiles.saveOrder.take (count + 3) = IndexFiles.saveOrder :=
        List.take_of_length_le (Nat.le_add_left 3 count)
      simp only [hall] at hload
      refine @owned_of_saved ν saved index howned (IndexFiles.ofIndex saved) rfl rfl
        (fun metadata hmetadata hpositive => ?_) hload
      cases hmetadata
      exact hpositive

theorem Intact.step (hintact : Intact world) (act : IndexAct ν)
    (hharmless : world.Harmless act) : Intact (world.step act) := by
  cases act with
  | create modelName dimensions embeddingSchemaVersion =>
    refine ⟨fun index hmemory => ?_, hintact.files⟩
    cases hmemory
    exact VectorIndex.owned_create modelName dimensions embeddingSchemaVersion
  | add entryId vector =>
    refine ⟨fun index hmemory => ?_, hintact.files⟩
    obtain ⟨before, hbefore, rfl⟩ := Option.map_eq_some_iff.mp hmemory
    exact (hintact.memory before hbefore).add entryId vector (hharmless before hbefore)
  | remove entryId =>
    refine ⟨fun index hmemory => ?_, hintact.files⟩
    obtain ⟨before, hbefore, rfl⟩ := Option.map_eq_some_iff.mp hmemory
    exact ((hintact.memory before hbefore).remove entryId).1
  | save => exact ⟨hintact.memory, hintact.written 3 trivial⟩
  | crash count =>
    exact ⟨fun index hnone => (nomatch hnone), hintact.written count hharmless⟩
  | load =>
    refine ⟨fun index hmemory => ?_, hintact.files⟩
    rcases Option.or_eq_some_iff.mp hmemory with hloaded | ⟨-, hkept⟩
    · exact hintact.files index hloaded
    · exact hintact.memory index hkept

/-- In a run of harmless steps every index is sound. -/
theorem index_sound_run {acts : List (IndexAct ν)}
    (hharmless : Along IndexWorld.step IndexWorld.Harmless .initial acts) :
    ∀ index, (run IndexWorld.step .initial acts).memory = some index → index.Sound := by
  have hstart : Intact (.initial : IndexWorld ν) :=
    ⟨fun index hnone => (nomatch hnone), fun index hnone => (nomatch hnone)⟩
  have hintact : Intact (run IndexWorld.step .initial acts) :=
    hharmless.invariant hstart fun world act hguard hintact => hintact.step act hguard
  exact fun index hmemory => (hintact.memory index hmemory).sound

def exampleIndex (acts : List (IndexAct ℕ)) : Option (VectorIndex (String × ℕ)) :=
  (run IndexWorld.step .initial acts).memory

/-- A second entry is added, and its save is cut off before the metadata. -/
def exampleHarmless : List (IndexAct ℕ) :=
  [.create "model" 1 1, .add "entry-1" 1, .save, .add "entry-2" 2, .crash 2, .load]

theorem along_exampleHarmless :
    Along IndexWorld.step IndexWorld.Harmless .initial exampleHarmless := by
  refine ⟨trivial, fun index hmemory => ?_, trivial, fun index hmemory => ?_,
    fun index metadata _ hmetadata _ => ?_, trivial, trivial⟩
  · cases hmemory
    decide
  · cases hmemory
    decide
  · cases hmetadata
    decide

theorem index_sound_example : ∃ index, exampleIndex exampleHarmless = some index ∧
    index.contains "entry-2" = true ∧ index.Sound := by
  have hloaded : (exampleIndex exampleHarmless).map (fun index => index.contains "entry-2") =
      some true := by
    decide
  obtain ⟨index, hindex, hcontains⟩ := Option.map_eq_some_iff.mp hloaded
  exact ⟨index, hindex, hcontains, index_sound_run along_exampleHarmless index hindex⟩

/-- An entry is added and saved, and added again; the second save is cut off after the
first file. -/
def exampleCrash : List (IndexAct ℕ) :=
  [.create "model" 1 1, .add "entry-1" 1, .save, .add "entry-1" 2, .crash 1, .load]

theorem not_sound_of_missing {entryId : String} {key : ℕ}
    (hlookup : index.idToKey.lookup entryId = some key) (hmissing : key ∉ index.native) :
    ¬ index.Sound := by
  intro hsound
  have hknown : entryId ∈ index.idToKey := lookup_isSome.mp (by rw [hlookup]; rfl)
  obtain ⟨similarity, ranking, k, hranks, hit, hhit, rfl⟩ :=
    hsound.found entryId (decide_eq_true hknown)
  obtain ⟨⟨other, stored⟩, hfound, hmade⟩ := List.mem_filterMap.mp hhit
  obtain ⟨found, hid, rfl⟩ := Option.map_eq_some_iff.mp hmade
  have hsame := (hsound.inverse found other).mpr hid
  obtain rfl := Option.eq_some_unique hlookup hsame
  obtain ⟨entry, hmem, hentry⟩ := List.mem_map.mp
    (hranks.complete.subset (List.mem_of_mem_take hfound))
  obtain ⟨rfl, rfl⟩ := Prod.mk.inj hentry
  exact hmissing (lookup_isSome.mp (by
    rw [Option.mem_def.mp (mem_lookup_iff.mpr hmem)]; rfl))

/-- After the crash the id has no vector, and the next entry takes the key of the old
one, so that a search would report its vector. -/
theorem crash_loses_identity :
    (∃ index, exampleIndex exampleCrash = some index ∧ index.contains "entry-1" = true ∧
      ¬ index.Sound) ∧
    ∃ index ranking hit, exampleIndex (exampleCrash ++ [.add "entry-2" 3]) = some index ∧
      Ranks (fun _ => 0) index.native ranking ∧ hit ∈ index.search ranking 1 ∧
        hit.1 = "entry-2" ∧ hit.2.1 = "entry-1" := by
  constructor
  · have hcrashed : (exampleIndex exampleCrash).map (fun index =>
        (index.idToKey.lookup "entry-1", decide (0 ∈ index.native))) = some (some 0, false) := by
      decide
    obtain ⟨index, hindex, hfields⟩ := Option.map_eq_some_iff.mp hcrashed
    obtain ⟨hlookup, hmissing⟩ := Prod.mk.inj hfields
    refine ⟨index, hindex, decide_eq_true (AList.lookup_isSome.mp (by rw [hlookup]; rfl)), ?_⟩
    exact not_sound_of_missing hlookup (of_decide_eq_false hmissing)
  · have hadded : (exampleIndex (exampleCrash ++ [.add "entry-2" 3])).map (fun index =>
        (index.search [(1, ("entry-1", 2))] 1,
          index.native.entries.map fun entry => (entry.1, entry.2))) =
        some ([("entry-2", ("entry-1", 2))], [(1, ("entry-1", 2))]) := by
      decide
    obtain ⟨index, hindex, hfields⟩ := Option.map_eq_some_iff.mp hadded
    obtain ⟨hsearch, hnative⟩ := Prod.mk.inj hfields
    refine ⟨index, [(1, ("entry-1", 2))], ("entry-2", ("entry-1", 2)), hindex, ⟨?_, ?_⟩, ?_,
      rfl, rfl⟩
    · rw [hnative]
    · exact List.pairwise_singleton _ _
    · rw [hsearch]
      exact List.mem_singleton_self _

end IndexWorld

end Pallium.Vector
