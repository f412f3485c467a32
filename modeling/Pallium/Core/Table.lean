import Mathlib

/-!
# Tables with a primary key

A table is a finite list of rows in insertion order in which no two rows share
their primary key.  The key uniqueness is a field of the structure, so no
operation can build a table that a database would refuse.  Every operation is
described once by what `get` returns afterwards; later proofs about a store use
only these equations and never look at the list.
-/

namespace Pallium

/-- Rows of type `α` are addressed by the key `key row`. -/
class Keyed (α : Type*) (κ : outParam (Type*)) where
  key : α → κ

export Keyed (key)

variable {α κ : Type*} [Keyed α κ]

/-- A list of rows with pairwise distinct primary keys. -/
structure Table (α : Type*) {κ : Type*} [Keyed α κ] where
  rows : List α
  nodup : (rows.map key).Nodup

instance [DecidableEq α] : DecidableEq (Table α) := fun left right =>
  decidable_of_iff (left.rows = right.rows) (by
    cases left
    cases right
    simp)

namespace Table

/-- The table without rows. -/
def empty : Table α := ⟨[], List.nodup_nil⟩

section Operations

variable [DecidableEq κ]

/-- Primary-key lookup. -/
def get (table : Table α) (k : κ) : Option α :=
  table.rows.find? fun row => decide (key row = k)

/-- Add a row.  `none` is the integrity error of an occupied primary key. -/
def insertNew (table : Table α) (row : α) : Option (Table α) :=
  if h : key row ∈ table.rows.map key then none
  else some ⟨table.rows ++ [row], by
    rw [List.map_append, List.nodup_append]
    refine ⟨table.nodup, by simp, ?_⟩
    intro left hleft right hright heq
    rw [List.map_singleton, List.mem_singleton] at hright
    exact h (hright ▸ heq ▸ hleft)⟩

/-- Rewrite every row in place.  A row whose primary key would change is left
as it is. -/
def updateAll (table : Table α) (change : α → α) : Table α :=
  ⟨table.rows.map fun row => if key (change row) = key row then change row else row, by
    have hkeys : (table.rows.map fun row =>
        if key (change row) = key row then change row else row).map key =
          table.rows.map key := by
      rw [List.map_map]
      refine List.map_congr_left fun row _ => ?_
      simp only [Function.comp_apply]
      split
      · assumption
      · rfl
    exact hkeys ▸ table.nodup⟩

/-- Rewrite the row with key `k`, if there is one. -/
def modify (table : Table α) (k : κ) (change : α → α) : Table α :=
  table.updateAll fun row => if key row = k then change row else row

/-- Delete the row with key `k`, if there is one. -/
def erase (table : Table α) (k : κ) : Table α :=
  ⟨table.rows.filter fun row => !decide (key row = k),
    (List.filter_sublist.map key).nodup table.nodup⟩

/-- Delete the rows that meet a condition. -/
def eraseAll (table : Table α) (doomed : α → Bool) : Table α :=
  ⟨table.rows.filter fun row => !doomed row, (List.filter_sublist.map key).nodup table.nodup⟩

/-- Replace the row with the same primary key, or add the row. -/
def put (table : Table α) (row : α) : Table α :=
  ⟨(table.erase (key row)).rows ++ [row], by
    rw [List.map_append, List.nodup_append]
    refine ⟨(table.erase (key row)).nodup, by simp, ?_⟩
    intro left hleft right hright heq
    rw [List.map_singleton, List.mem_singleton] at hright
    obtain ⟨other, hother, rfl⟩ := List.mem_map.mp hleft
    have hne := (List.mem_filter.mp hother).2
    rw [heq, hright] at hne
    simp at hne⟩

/-- `table[key row] = row`: the row takes the place of the one with its key, or
is added at the end. -/
def set (table : Table α) (row : α) : Table α :=
  match table.insertNew row with
  | some after => after
  | none => table.updateAll fun other => if key other = key row then row else other

end Operations

section Lemmas

variable [DecidableEq κ]

variable {table after : Table α} {k : κ} {row : α} {change : α → α}

@[simp]
theorem get_empty (k : κ) : (empty : Table α).get k = none := rfl

theorem key_of_get (hget : table.get k = some row) : key row = k := by
  have hfound := List.find?_some hget
  simpa using hfound

theorem mem_of_get (hget : table.get k = some row) : row ∈ table.rows :=
  List.mem_of_find?_eq_some hget

theorem get_of_mem (hmem : row ∈ table.rows) :
    table.get (key row) = some row := by
  obtain ⟨rows, hnodup⟩ := table
  simp only [get]
  simp only at hmem
  induction rows with
  | nil => simp at hmem
  | cons head tail ih =>
    rw [List.map_cons, List.nodup_cons] at hnodup
    rcases List.mem_cons.mp hmem with rfl | htail
    · simp
    · have hne : key head ≠ key row := by
        intro heq
        exact hnodup.1 (heq ▸ List.mem_map_of_mem htail)
      rw [List.find?_cons_of_neg (by simpa using hne)]
      exact ih hnodup.2 htail

theorem mem_rows_iff :
    row ∈ table.rows ↔ table.get (key row) = some row :=
  ⟨get_of_mem, mem_of_get⟩

theorem get_eq_none_iff :
    table.get k = none ↔ k ∉ table.rows.map key := by
  simp [get, List.find?_eq_none]

theorem get_updateAll (table : Table α) (hkey : ∀ row, key (change row) = key row) (k : κ) :
    (table.updateAll change).get k = (table.get k).map change := by
  simp only [get, updateAll, hkey, if_true, List.find?_map, Function.comp_def]

theorem get_modify (table : Table α) (k : κ) (hkey : ∀ row, key (change row) = key row) (k' : κ) :
    (table.modify k change).get k' =
      if k' = k then (table.get k').map change else table.get k' := by
  rw [modify, get_updateAll]
  · cases hget : table.get k' with
    | none => simp
    | some row =>
      have hrow : key row = k' := key_of_get hget
      by_cases hk : k' = k
      · simp [hk, hrow]
      · simp [hk, hrow]
  · intro row
    split
    · exact hkey row
    · rfl

@[simp]
theorem get_modify_self (table : Table α) (k : κ) (hkey : ∀ row, key (change row) = key row) :
    (table.modify k change).get k = (table.get k).map change := by
  simp [get_modify table k hkey]

theorem get_modify_of_ne (table : Table α) {k' : κ} (hkey : ∀ row, key (change row) = key row)
    (hne : k' ≠ k) :
    (table.modify k change).get k' = table.get k' := by
  simp [get_modify table k hkey, hne]

theorem get_modify_of_get (hkey : ∀ row, key (change row) = key row) (hget : table.get k = some row)
    (k' : κ) :
    (table.modify k change).get k' = if k' = k then some (change row) else table.get k' := by
  rw [get_modify table k hkey]
  split
  · next hk => rw [hk, hget, Option.map_some]
  · rfl

theorem rows_updateAll (table : Table α) (hkey : ∀ row, key (change row) = key row) :
    (table.updateAll change).rows = table.rows.map change := by
  simp only [updateAll, hkey, if_true]

theorem get_insertNew (hinsert : table.insertNew row = some after) (k : κ) :
    after.get k = if k = key row then some row else table.get k := by
  unfold insertNew at hinsert
  split at hinsert
  · cases hinsert
  · next hfree =>
    have hafter : after.rows = table.rows ++ [row] := by
      rw [← Option.some.inj hinsert]
    rw [get, hafter, List.find?_append]
    by_cases hk : k = key row
    · have hnone : table.get (key row) = none := get_eq_none_iff.mpr hfree
      rw [get] at hnone
      simp [hk, hnone]
    · simp [hk, Ne.symm hk, get]

theorem filter_key (table : Table α) (k : κ) :
    (table.rows.filter fun row => decide (key row = k)) = (table.get k).toList := by
  obtain ⟨rows, hnodup⟩ := table
  simp only [get]
  induction rows with
  | nil => rfl
  | cons head tail ih =>
    rw [List.map_cons, List.nodup_cons] at hnodup
    by_cases hkey : key head = k
    · have hrest : (tail.filter fun row => decide (key row = k)) = [] := by
        rw [List.filter_eq_nil_iff]
        intro row hrow hsame
        apply hnodup.1
        rw [hkey, ← of_decide_eq_true hsame]
        exact List.mem_map_of_mem hrow
      simp [hkey, hrest]
    · simp only [List.filter_cons, List.find?_cons, hkey, decide_false, Bool.false_eq_true,
        if_false]
      exact ih hnodup.2

theorem countP_key (table : Table α) (k : κ) (condition : α → Bool) :
    (table.rows.countP fun row => decide (key row = k) && condition row) =
      if (table.get k).any condition then 1 else 0 := by
  have hfiltered : (table.rows.countP fun row => decide (key row = k) && condition row) =
      (table.rows.filter fun row => decide (key row = k)).countP condition := by
    rw [List.countP_filter]
    simp only [Bool.and_comm]
  rw [hfiltered, filter_key]
  cases table.get k with
  | none => rfl
  | some row => simp [List.countP_cons]

theorem get_eq_none_of_insertNew (hinsert : table.insertNew row = some after) :
    table.get (key row) = none := by
  unfold insertNew at hinsert
  split at hinsert
  · cases hinsert
  · next hfree => exact get_eq_none_iff.mpr hfree

theorem rows_insertNew (hinsert : table.insertNew row = some after) :
    after.rows = table.rows ++ [row] := by
  unfold insertNew at hinsert
  split at hinsert
  · cases hinsert
  · rw [← Option.some.inj hinsert]

theorem insertNew_isSome (hfree : table.get (key row) = none) :
    ∃ after, table.insertNew row = some after := by
  have hnotMem := get_eq_none_iff.mp hfree
  simp [insertNew, hnotMem]

theorem get_erase (table : Table α) (k k' : κ) :
    (table.erase k).get k' = if k' = k then none else table.get k' := by
  rw [get, erase, List.find?_filter]
  by_cases hk : k' = k
  · subst hk
    simp
  · rw [if_neg hk, get]
    congr 1
    funext row
    by_cases hrow : key row = k'
    · simp [hrow, hk]
    · simp [hrow]

theorem get_put (table : Table α) (row : α) (k : κ) :
    (table.put row).get k = if k = key row then some row else table.get k := by
  have herased := table.get_erase (key row) k
  rw [get] at herased
  rw [get, put, List.find?_append, herased]
  by_cases hk : k = key row
  · simp [hk]
  · simp [hk, Ne.symm hk]

@[simp]
theorem get_put_self (table : Table α) (row : α) : (table.put row).get (key row) = some row := by
  rw [get_put, if_pos rfl]

theorem get_set (table : Table α) (row : α) (k : κ) :
    (table.set row).get k = if k = key row then some row else table.get k := by
  rw [set]
  cases hinsert : table.insertNew row with
  | some after => exact get_insertNew hinsert k
  | none =>
    have hkey : ∀ other, key (if key other = key row then row else other) = key other := by
      intro other
      split
      · next hsame => exact hsame.symm
      · rfl
    change (table.updateAll _).get k = _
    rw [get_updateAll table hkey]
    cases hget : table.get k with
    | none =>
      have hne : k ≠ key row := by
        rintro rfl
        obtain ⟨after, hafter⟩ := insertNew_isSome hget
        rw [hafter] at hinsert
        cases hinsert
      rw [Option.map_none, if_neg hne]
    | some other =>
      rw [Option.map_some, key_of_get hget]
      split <;> rfl

theorem length_set_of_get {found : α} (hget : table.get (key row) = some found) :
    (table.set row).rows.length = table.rows.length := by
  rw [set]
  cases hinsert : table.insertNew row with
  | some after =>
    rw [get_eq_none_of_insertNew hinsert] at hget
    cases hget
  | none => exact List.length_map _

theorem length_set_le (table : Table α) (row : α) :
    (table.set row).rows.length ≤ table.rows.length + 1 := by
  rw [set]
  cases hinsert : table.insertNew row with
  | some after =>
    have hlength : after.rows.length = table.rows.length + 1 := by
      rw [rows_insertNew hinsert, List.length_append, List.length_singleton]
    exact Nat.le_of_eq hlength
  | none => exact Nat.le_trans (Nat.le_of_eq (List.length_map _)) (Nat.le_succ _)

theorem length_erase_of_get (hget : table.get k = some row) :
    (table.erase k).rows.length < table.rows.length := by
  refine (List.length_filter_lt_length_iff_exists).mpr ⟨row, mem_of_get hget, ?_⟩
  simp [key_of_get hget]

theorem mem_rows_set {other : α} :
    other ∈ (table.set row).rows ↔ other = row ∨ (other ∈ table.rows ∧ key other ≠ key row) := by
  rw [mem_rows_iff, get_set, mem_rows_iff]
  split
  · next hsame =>
      rw [Option.some.injEq]
      exact ⟨fun heq => Or.inl heq.symm, fun heither => heither.elim Eq.symm
        fun hother => absurd hsame hother.2⟩
  · next hother =>
      refine ⟨fun hget => Or.inr ⟨hget, hother⟩, fun heither => heither.elim ?_ And.left⟩
      rintro rfl
      exact absurd rfl hother

omit [DecidableEq κ] in
theorem eq_of_rows {left right : Table α} (hrows : left.rows = right.rows) : left = right := by
  cases left
  cases right
  cases hrows
  rfl

omit [DecidableEq κ] in
theorem eraseAll_congr {first second : α → Bool}
    (hsame : ∀ row ∈ table.rows, first row = second row) :
    table.eraseAll first = table.eraseAll second :=
  eq_of_rows (List.filter_congr fun row hrow => congrArg not (hsame row hrow))

omit [DecidableEq κ] in
theorem eraseAll_eq_self {doomed : α → Bool} (hnone : ∀ row ∈ table.rows, doomed row = false) :
    table.eraseAll doomed = table :=
  eq_of_rows (List.filter_eq_self.mpr fun row hrow => by simp [hnone row hrow])

theorem map_rows_eq {α' β : Type*} [Keyed α' κ] {left : Table α} {right : Table α'}
    {view : α → β} {view' : α' → β} (hkeys : left.rows.map key = right.rows.map key)
    (hget : ∀ k, (left.get k).map view = (right.get k).map view') :
    left.rows.map view = right.rows.map view' := by
  have hleft : left.rows.map (some ∘ view) =
      (left.rows.map key).map fun k => (left.get k).map view := by
    rw [List.map_map]
    exact List.map_congr_left fun row hrow => by simp [get_of_mem hrow]
  have hright : right.rows.map (some ∘ view') =
      (right.rows.map key).map fun k => (right.get k).map view' := by
    rw [List.map_map]
    exact List.map_congr_left fun row hrow => by simp [get_of_mem hrow]
  refine List.map_injective_iff.mpr (fun _ _ => Option.some.inj) ?_
  rw [List.map_map, List.map_map, hleft, hright, hkeys]
  exact List.map_congr_left fun k _ => hget k

theorem filterMap_rows {β : Type*} (table : Table α) (view : α → Option β) :
    table.rows.filterMap view = (table.rows.map key).filterMap fun k => (table.get k).bind view := by
  rw [List.filterMap_map]
  refine List.filterMap_congr fun row hrow => ?_
  rw [Function.comp_apply, get_of_mem hrow, Option.bind_some]

theorem rows_set (table : Table α) (row : α) :
    (table.set row).rows =
      if (table.get (key row)).isSome then
        table.rows.map fun other => if key other = key row then row else other
      else table.rows ++ [row] := by
  rw [set]
  cases hinsert : table.insertNew row with
  | some after =>
    have hrows : after.rows = table.rows ++ [row] := rows_insertNew hinsert
    have hnone : table.get (key row) = none := get_eq_none_of_insertNew hinsert
    rw [hnone, Option.isSome_none, if_neg Bool.false_ne_true, ← hrows]
  | none =>
    have hkey : ∀ other, key (if key other = key row then row else other) = key other := by
      intro other
      split
      · next hsame => exact hsame.symm
      · rfl
    have hsome : (table.get (key row)).isSome := by
      rw [Option.isSome_iff_ne_none]
      intro hnone
      obtain ⟨after, hafter⟩ := insertNew_isSome hnone
      rw [hafter] at hinsert
      cases hinsert
    change (table.updateAll _).rows = _
    rw [if_pos hsome, rows_updateAll table hkey]

theorem keys_set (table : Table α) (row : α) :
    (table.set row).rows.map key =
      if (table.get (key row)).isSome then table.rows.map key
      else table.rows.map key ++ [key row] := by
  rw [rows_set]
  split
  · rw [List.map_map]
    refine List.map_congr_left fun other _ => ?_
    rw [Function.comp_apply]
    split
    · next hsame => exact hsame.symm
    · rfl
  · rw [List.map_append, List.map_singleton]

theorem keys_updateAll (table : Table α) (hkey : ∀ row, key (change row) = key row) :
    (table.updateAll change).rows.map key = table.rows.map key := by
  rw [rows_updateAll table hkey, List.map_map]
  exact List.map_congr_left fun row _ => hkey row

theorem mem_rows_erase :
    row ∈ (table.erase k).rows ↔ row ∈ table.rows ∧ key row ≠ k := by
  simp [erase]

end Lemmas

end Table

end Pallium
