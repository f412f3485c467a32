import Mathlib

/-!
# Items joined by separators

The size of a list of items with a separator between each two, and how it grows when an
item is added.
-/

namespace Pallium.Packing

variable {α : Type*} (size : α → ℕ) (separator : ℕ)

/-- The size of the items and the separators between them. -/
def joinedSize (items : List α) : ℕ := (items.map fun item => size item + separator).sum - separator

/-- What an item adds to the items before it. -/
def addedSize (before : List α) (item : α) : ℕ :=
  size item + if before.isEmpty then 0 else separator

@[simp]
theorem joinedSize_nil : joinedSize size separator [] = 0 := Nat.zero_sub separator

theorem joinedSize_concat (items : List α) (item : α) :
    joinedSize size separator (items ++ [item]) =
      joinedSize size separator items + addedSize size separator items item := by
  unfold joinedSize addedSize
  rw [List.map_append, List.sum_append, List.map_singleton, List.sum_singleton]
  cases items with
  | nil => simp
  | cons first rest =>
    rw [List.map_cons, List.sum_cons, List.isEmpty_cons, if_neg Bool.false_ne_true]
    omega

@[simp]
theorem joinedSize_singleton (item : α) : joinedSize size separator [item] = size item := by
  have hconcat := joinedSize_concat size separator [] item
  rw [List.nil_append, joinedSize_nil, Nat.zero_add] at hconcat
  exact hconcat

theorem joinedSize_le_append (items others : List α) :
    joinedSize size separator items ≤ joinedSize size separator (items ++ others) := by
  unfold joinedSize
  rw [List.map_append, List.sum_append]
  omega

theorem joinedSize_congr {β : Type*} {other : β → ℕ} {items : List α} {others : List β}
    (hsame : items.map size = others.map other) :
    joinedSize size separator items = joinedSize other separator others := by
  have hitems : (items.map fun item => size item + separator) =
      (items.map size).map (· + separator) := by
    rw [List.map_map]
    rfl
  have hothers : (others.map fun item => other item + separator) =
      (others.map other).map (· + separator) := by
    rw [List.map_map]
    rfl
  rw [joinedSize, joinedSize, hitems, hothers, hsame]

theorem joinedSize_cons_cons (first second : α) (rest : List α) :
    joinedSize size separator (first :: second :: rest) =
      size first + separator + joinedSize size separator (second :: rest) := by
  unfold joinedSize
  rw [List.map_cons, List.sum_cons, List.map_cons, List.sum_cons]
  omega

theorem joinedSize_exchange (before rest : List α) (first second third fourth : α) :
    joinedSize size separator (before ++ first :: second :: rest) + (size third + size fourth) =
      joinedSize size separator (before ++ third :: fourth :: rest) + (size first + size second) := by
  unfold joinedSize
  simp only [List.map_append, List.sum_append, List.map_cons, List.sum_cons]
  omega

theorem length_intercalate (between : String) (texts : List String) :
    (between.intercalate texts).length = joinedSize String.length between.length texts := by
  induction texts with
  | nil => rw [String.intercalate_nil, joinedSize_nil, String.length_empty]
  | cons first rest ih =>
    cases rest with
    | nil => rw [String.intercalate_singleton, joinedSize_singleton]
    | cons second others =>
      rw [String.intercalate_cons_cons, String.length_append, String.length_append, ih,
        joinedSize_cons_cons]

end Pallium.Packing
