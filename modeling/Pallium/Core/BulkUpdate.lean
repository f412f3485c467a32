import Pallium.Core.Table

/-!
# Bulk updates of a table

A list of items with distinct keys updates one row each.  A row is changed by the
item with its key and by no other, the order of the rows stays, and a table is
determined by the order of its keys and by what is looked up in it.  Items that were
scanned from some rows of a table update these rows and no others.
-/

namespace Pallium.Table

variable {α κ ι : Type*} [Keyed α κ] [DecidableEq κ]

/-- Update the row of each item in turn. -/
def modifyEach (keyOf : ι → κ) (change : ι → α → α) (items : List ι) (table : Table α) : Table α :=
  items.foldl (fun table item => table.modify (keyOf item) (change item)) table

variable {keyOf : ι → κ} {change : ι → α → α} {items : List ι} {table : Table α}

@[simp]
theorem modifyEach_cons {item : ι} :
    table.modifyEach keyOf change (item :: items) =
      (table.modify (keyOf item) (change item)).modifyEach keyOf change items := rfl

section

variable (hkey : ∀ item row, key (change item row) = key row)
include hkey

theorem get_modifyEach_of_not_mem {k : κ}
    (hother : k ∉ items.map keyOf) :
    (table.modifyEach keyOf change items).get k = table.get k := by
  induction items generalizing table with
  | nil => rfl
  | cons head rest ih =>
    rw [List.map_cons, List.mem_cons, not_or] at hother
    rw [modifyEach_cons, ih hother.2, get_modify_of_ne table (hkey head) hother.1]

theorem get_modifyEach_of_mem
    (hdistinct : (items.map keyOf).Nodup) {item : ι} (hitem : item ∈ items) :
    (table.modifyEach keyOf change items).get (keyOf item) =
      (table.get (keyOf item)).map (change item) := by
  induction items generalizing table with
  | nil => exact absurd hitem List.not_mem_nil
  | cons head rest ih =>
    rw [List.map_cons, List.nodup_cons] at hdistinct
    rw [modifyEach_cons]
    rcases List.mem_cons.mp hitem with rfl | hlater
    · rw [get_modifyEach_of_not_mem hkey hdistinct.1, get_modify_self table _ (hkey item)]
    · have hne : keyOf item ≠ keyOf head := by
        intro hsame
        exact hdistinct.1 (hsame ▸ List.mem_map_of_mem hlater)
      rw [ih hdistinct.2 hlater, get_modify_of_ne table (hkey head) hne]

/-- A row that is found after the updates is that of before, changed by the item that was
made with its key, if there is one. -/
theorem get_modifyEach_map_cases {σ : Type*} {make : σ → ι} {sources : List σ} {k : κ}
    (hdistinct : ((sources.map make).map keyOf).Nodup) {row written : α}
    (hrow : table.get k = some row)
    (hwritten : (table.modifyEach keyOf change (sources.map make)).get k = some written) :
    (∃ source ∈ sources, keyOf (make source) = k ∧ written = change (make source) row) ∨
      (∀ source ∈ sources, keyOf (make source) ≠ k) ∧ written = row := by
  by_cases hplanned : k ∈ (sources.map make).map keyOf
  · obtain ⟨item, hitem, rfl⟩ := List.mem_map.mp hplanned
    obtain ⟨source, hsource, rfl⟩ := List.mem_map.mp hitem
    rw [get_modifyEach_of_mem hkey hdistinct hitem, hrow] at hwritten
    exact Or.inl ⟨source, hsource, rfl, (Option.some.inj hwritten).symm⟩
  · rw [get_modifyEach_of_not_mem hkey hplanned, hrow] at hwritten
    refine Or.inr ⟨fun source hsource hk => ?_, (Option.some.inj hwritten).symm⟩
    exact hplanned (hk ▸ List.mem_map_of_mem (List.mem_map_of_mem hsource))

theorem map_get_modifyEach {β : Type*} {view : α → β}
    (hview : ∀ item row, view (change item row) = view row) (k : κ) :
    ((table.modifyEach keyOf change items).get k).map view = (table.get k).map view := by
  induction items generalizing table with
  | nil => rfl
  | cons head rest ih =>
    rw [modifyEach_cons, ih, get_modify table _ (hkey head)]
    split
    · next hsame =>
        rw [hsame, Option.map_map]
        exact congrArg (Option.map · _) (funext (hview head))
    · rfl

end

theorem exists_get_modifyEach (items : List ι)
    (hkey : ∀ item row, key (change item row) = key row) {k : κ} {row : α}
    (hrow : table.get k = some row) :
    ∃ written, (table.modifyEach keyOf change items).get k = some written := by
  have hfound : ((table.modifyEach keyOf change items).get k).map (fun _ => ()) =
      (table.get k).map fun _ => () :=
    map_get_modifyEach hkey (fun _ _ => rfl) k
  rw [hrow, Option.map_some] at hfound
  obtain ⟨written, hwritten, -⟩ := Option.map_eq_some_iff.mp hfound
  exact ⟨written, hwritten⟩

theorem keys_modify (table : Table α) (k : κ) {change : α → α}
    (hkey : ∀ row, key (change row) = key row) :
    (table.modify k change).rows.map key = table.rows.map key := by
  rw [modify, rows_updateAll, List.map_map]
  · apply List.map_congr_left
    intro row _
    rw [Function.comp_apply]
    split
    · exact hkey row
    · rfl
  · intro row
    split
    · exact hkey row
    · rfl

theorem keys_modifyEach (hkey : ∀ item row, key (change item row) = key row)
    (items : List ι) (table : Table α) :
    (table.modifyEach keyOf change items).rows.map key = table.rows.map key := by
  induction items generalizing table with
  | nil => rfl
  | cons head rest ih => rw [modifyEach_cons, ih, keys_modify table _ (hkey head)]

theorem eq_of_get {left right : Table α} (hkeys : left.rows.map key = right.rows.map key)
    (hget : ∀ k, left.get k = right.get k) : left = right := by
  have hlookups : ∀ table : Table α, table.rows.map some = (table.rows.map key).map table.get := by
    intro table
    rw [List.map_map]
    apply List.map_congr_left
    intro row hrow
    exact (get_of_mem hrow).symm
  have hsame : left.rows.map some = right.rows.map some := by
    calc left.rows.map some
        = (left.rows.map key).map left.get := hlookups left
      _ = (right.rows.map key).map right.get := by
          rw [hkeys]
          exact List.map_congr_left fun k _ => hget k
      _ = right.rows.map some := (hlookups right).symm
  exact eq_of_rows (List.map_injective_iff.mpr (fun _ _ => Option.some.inj) hsame)

theorem updateAll_id (table : Table α) : table.updateAll (fun row => row) = table := by
  apply eq_of_rows
  rw [rows_updateAll table fun _ => rfl, List.map_id']

theorem updateAll_eq_self_iff {table : Table α} {view : α → α}
    (hview : ∀ row, key (view row) = key row) :
    table.updateAll view = table ↔ ∀ row ∈ table.rows, view row = row := by
  constructor
  · intro hsame row hrow
    have hget : (table.updateAll view).get (key row) = some (view row) := by
      rw [get_updateAll table hview, get_of_mem hrow, Option.map_some]
    rw [hsame, get_of_mem hrow] at hget
    exact (Option.some.inj hget).symm
  · intro hsame
    apply eq_of_rows
    rw [rows_updateAll table hview, List.map_congr_left hsame, List.map_id']

omit [DecidableEq κ] in
theorem nodup_scan (table : Table α) (picks : α → Bool) {scan : α → ι}
    (hscan : ∀ row, keyOf (scan row) = key row) :
    (((table.rows.filter picks).map scan).map keyOf).Nodup := by
  have hkeys : ((table.rows.filter picks).map scan).map keyOf =
      (table.rows.filter picks).map key := by
    rw [List.map_map]
    exact List.map_congr_left fun row _ => hscan row
  rw [hkeys]
  exact (List.filter_sublist.map key).nodup table.nodup

/-- Items scanned from some rows of a table update these rows, as they are by then. -/
theorem modifyEach_scan (table : Table α) {view : α → α} {picks : α → Bool} {scan : α → ι}
    (hview : ∀ row, key (view row) = key row)
    (hkey : ∀ item row, key (change item row) = key row)
    (hscan : ∀ row, keyOf (scan row) = key row) :
    (table.updateAll view).modifyEach keyOf change ((table.rows.filter picks).map scan) =
      table.updateAll fun row => if picks row then change (scan row) (view row) else view row := by
  have hboth : ∀ row, key (if picks row then change (scan row) (view row) else view row) =
      key row := by
    intro row
    split
    · rw [hkey, hview]
    · exact hview row
  apply eq_of_get
  · rw [keys_modifyEach hkey, rows_updateAll table hview, rows_updateAll table hboth,
      List.map_map, List.map_map]
    apply List.map_congr_left
    intro row _
    rw [Function.comp_apply, Function.comp_apply, hview, hboth]
  · intro k
    have hview' := get_updateAll table hview k
    rw [get_updateAll table hboth]
    by_cases hscanned : ∃ row, table.get k = some row ∧ picks row = true
    · obtain ⟨row, hget, hpicks⟩ := hscanned
      have hitem : scan row ∈ (table.rows.filter picks).map scan :=
        List.mem_map_of_mem (List.mem_filter.mpr ⟨mem_of_get hget, hpicks⟩)
      have hk : keyOf (scan row) = k := (hscan row).trans (key_of_get hget)
      rw [← hk, get_modifyEach_of_mem hkey (table.nodup_scan picks hscan) hitem, hk, hview', hget,
        Option.map_some, Option.map_some, Option.map_some, if_pos hpicks]
    · have hother : k ∉ ((table.rows.filter picks).map scan).map keyOf := by
        rw [List.map_map]
        intro hmem
        obtain ⟨row, hrow, hk⟩ := List.mem_map.mp hmem
        obtain ⟨hrow, hpicks⟩ := List.mem_filter.mp hrow
        rw [Function.comp_apply, hscan] at hk
        exact hscanned ⟨row, hk ▸ get_of_mem hrow, hpicks⟩
      rw [get_modifyEach_of_not_mem hkey hother, hview']
      cases hget : table.get k with
      | none => rfl
      | some row =>
        have hleft : ¬ picks row = true := fun hpicks => hscanned ⟨row, hget, hpicks⟩
        rw [Option.map_some, Option.map_some, if_neg hleft]

/-- Items scanned from a table update the scanned rows. -/
theorem modifyEach_own (table : Table α) {picks : α → Bool} {scan : α → ι}
    (hkey : ∀ item row, key (change item row) = key row)
    (hscan : ∀ row, keyOf (scan row) = key row) :
    table.modifyEach keyOf change ((table.rows.filter picks).map scan) =
      table.updateAll fun row => if picks row then change (scan row) row else row := by
  have hscanned := @modifyEach_scan _ _ _ _ _ keyOf change table (fun row => row) picks scan
    (fun _ => rfl) hkey hscan
  rwa [updateAll_id] at hscanned

/-- Items that write the scanned rows back restore the table. -/
theorem modifyEach_back (table : Table α) {view : α → α} {picks : α → Bool} {scan : α → ι}
    (hview : ∀ row, key (view row) = key row)
    (hkey : ∀ item row, key (change item row) = key row)
    (hscan : ∀ row, keyOf (scan row) = key row)
    (hback : ∀ row, (if picks row then change (scan row) (view row) else view row) = row) :
    (table.updateAll view).modifyEach keyOf change ((table.rows.filter picks).map scan) =
      table := by
  rw [modifyEach_scan table hview hkey hscan, funext hback, updateAll_id]

theorem perm_iff_filter {β γ : Type*} [DecidableEq β] [DecidableEq γ] (columnOf : β → γ)
    {left right : List β} :
    left.Perm right ↔ ∀ value, (left.filter fun row => columnOf row = value).Perm
      (right.filter fun row => columnOf row = value) := by
  constructor
  · intro hperm value
    exact hperm.filter _
  · intro hparts
    rw [List.perm_iff_count]
    intro row
    have hcount : ∀ rows : List β,
        (rows.filter fun other => columnOf other = columnOf row).count row = rows.count row :=
      fun rows => List.count_filter (decide_eq_true rfl)
    rw [← hcount left, ← hcount right]
    exact (hparts (columnOf row)).count_eq row

end Pallium.Table
