import Pallium.Core.Table

/-!
# The index of memories and source items

An index entry belongs to its target, and a lexical entry has a row in the
full-text table.  The entries and the rows form one structure, in which every row
belongs to a lexical entry with the same target.
-/

namespace Pallium.Memory

inductive TargetKind
  | memoryObject
  | sourceItem
  deriving DecidableEq, Repr

instance : LawfulBEq (TargetKind × String) := inferInstance

inductive IndexType
  | lexical
  | vector
  deriving DecidableEq, Repr

/-- A row of `index_entries`. -/
structure IndexEntryRecord where
  id : String
  targetKind : TargetKind
  targetId : String
  indexType : IndexType
  textView : String
  deriving DecidableEq, Repr

/-- A row of `lexical_fts`. -/
structure LexicalRow where
  indexEntryId : String
  targetKind : TargetKind
  targetId : String
  textView : String
  containerRef : Option String
  deriving DecidableEq, Repr

instance : Keyed IndexEntryRecord String := ⟨IndexEntryRecord.id⟩

/-- Whether the entry is for the target. -/
def IndexEntryRecord.targets (targetKind : TargetKind) (targetId : String)
    (entry : IndexEntryRecord) : Bool :=
  entry.targetKind == targetKind && entry.targetId == targetId

/-- The entry is the lexical entry of a full-text row. -/
structure IndexEntryRecord.Owns (entry : IndexEntryRecord) (row : LexicalRow) : Prop where
  id : entry.id = row.indexEntryId
  lexical : entry.indexType = .lexical
  targetKind : entry.targetKind = row.targetKind
  targetId : entry.targetId = row.targetId

structure MemoryIndex where
  entries : Table IndexEntryRecord
  lexicalRows : List LexicalRow
  owned : ∀ row ∈ lexicalRows, ∃ entry ∈ entries.rows, entry.Owns row

namespace MemoryIndex

variable {row : LexicalRow}

def empty : MemoryIndex := ⟨Table.empty, [], fun _ hmem => absurd hmem List.not_mem_nil⟩

def newRows (entry : IndexEntryRecord) (containerRef : Option String) : List LexicalRow :=
  match entry.indexType with
  | .lexical => [⟨entry.id, entry.targetKind, entry.targetId, entry.textView, containerRef⟩]
  | .vector => []

theorem owns_of_mem_newRows {entry : IndexEntryRecord} {containerRef : Option String}
    (hmem : row ∈ newRows entry containerRef) : entry.Owns row := by
  unfold newRows at hmem
  cases htype : entry.indexType with
  | lexical =>
    rw [htype] at hmem
    rw [List.mem_singleton.mp hmem]
    exact ⟨rfl, htype, rfl, rfl⟩
  | vector =>
    rw [htype] at hmem
    exact absurd hmem List.not_mem_nil

/-- Add an entry and its full-text row. -/
def insertNew (index : MemoryIndex) (entry : IndexEntryRecord) (containerRef : Option String) :
    Option MemoryIndex :=
  match hinsert : index.entries.insertNew entry with
  | none => none
  | some entries =>
    some ⟨entries, index.lexicalRows ++ newRows entry containerRef, by
      intro row hmem
      rw [Table.rows_insertNew hinsert]
      rcases List.mem_append.mp hmem with hold | hnew
      · obtain ⟨owner, howner, howns⟩ := index.owned row hold
        exact ⟨owner, List.mem_append_left _ howner, howns⟩
      · exact ⟨entry, List.mem_append_right _ (List.mem_singleton_self entry),
          owns_of_mem_newRows hnew⟩⟩

/-- Whether the full-text row is one of a lexical entry of the target. -/
def rowTargets (index : MemoryIndex) (targetKind : TargetKind) (targetId : String)
    (row : LexicalRow) : Bool :=
  index.entries.rows.any fun entry =>
    entry.targets targetKind targetId && entry.indexType == .lexical &&
      entry.id == row.indexEntryId

theorem rowTargets_iff {index : MemoryIndex} {targetKind : TargetKind} {targetId : String}
    (hmem : row ∈ index.lexicalRows) :
    index.rowTargets targetKind targetId row ↔
      row.targetKind = targetKind ∧ row.targetId = targetId := by
  obtain ⟨owner, howner, howns⟩ := index.owned row hmem
  simp only [rowTargets, List.any_eq_true, IndexEntryRecord.targets, Bool.and_eq_true, beq_iff_eq]
  constructor
  · rintro ⟨entry, hentry, ⟨⟨hkind, htarget⟩, -⟩, hid⟩
    have hsame : entry = owner := by
      have hleft : index.entries.get row.indexEntryId = some entry := by
        rw [← hid]
        exact Table.get_of_mem hentry
      have hright : index.entries.get row.indexEntryId = some owner := by
        rw [← howns.id]
        exact Table.get_of_mem howner
      exact Option.eq_some_unique hleft hright
    rw [hsame] at hkind htarget
    exact ⟨howns.targetKind.symm.trans hkind, howns.targetId.symm.trans htarget⟩
  · rintro ⟨hkind, htarget⟩
    exact ⟨owner, howner, ⟨⟨howns.targetKind.trans hkind, howns.targetId.trans htarget⟩,
      howns.lexical⟩, howns.id⟩

/-- `_delete_index_entries_for_target_in_session`. -/
def eraseTarget (index : MemoryIndex) (targetKind : TargetKind) (targetId : String) :
    MemoryIndex where
  entries := index.entries.eraseAll (IndexEntryRecord.targets targetKind targetId)
  lexicalRows := index.lexicalRows.filter fun row => !index.rowTargets targetKind targetId row
  owned := by
    intro row hmem
    obtain ⟨hrow, hkept⟩ := List.mem_filter.mp hmem
    obtain ⟨owner, howner, howns⟩ := index.owned row hrow
    refine ⟨owner, List.mem_filter.mpr ⟨howner, ?_⟩, howns⟩
    rw [Bool.not_eq_true', Bool.eq_false_iff] at hkept ⊢
    intro htargets
    apply hkept
    simp only [IndexEntryRecord.targets, Bool.and_eq_true, beq_iff_eq] at htargets
    exact (rowTargets_iff hrow).mpr
      ⟨howns.targetKind.symm.trans htargets.1, howns.targetId.symm.trans htargets.2⟩

variable {index after : MemoryIndex} {entry : IndexEntryRecord} {containerRef : Option String}
  {targetKind : TargetKind} {targetId : String}

theorem insertNew_eq_some (hinsert : index.insertNew entry containerRef = some after) :
    index.entries.insertNew entry = some after.entries ∧
      after.lexicalRows = index.lexicalRows ++ newRows entry containerRef := by
  unfold insertNew at hinsert
  split at hinsert
  · cases hinsert
  · next entries hentries =>
      cases hinsert
      exact ⟨hentries, rfl⟩

theorem mem_entries_eraseTarget :
    entry ∈ (index.eraseTarget targetKind targetId).entries.rows ↔
      entry ∈ index.entries.rows ∧
        ¬ (entry.targetKind = targetKind ∧ entry.targetId = targetId) := by
  change entry ∈ index.entries.rows.filter _ ↔ _
  rw [List.mem_filter, Bool.not_eq_true', Bool.eq_false_iff, IndexEntryRecord.targets, ne_eq,
    Bool.and_eq_true, beq_iff_eq, beq_iff_eq]

theorem mem_lexicalRows_eraseTarget :
    row ∈ (index.eraseTarget targetKind targetId).lexicalRows ↔
      row ∈ index.lexicalRows ∧ ¬ (row.targetKind = targetKind ∧ row.targetId = targetId) := by
  rw [eraseTarget, List.mem_filter]
  apply and_congr_right
  intro hmem
  rw [← rowTargets_iff hmem, Bool.not_eq_true', Bool.eq_false_iff]

end MemoryIndex

end Pallium.Memory
