import Mathlib

/-!
# Three-valued conditions

A condition of a query over columns that may be null is true, false or unknown.
A comparison with a null is unknown, a conjunction is false if one part is and a
disjunction is true if one part is, and a row is selected only if the condition is
true of it.
-/

namespace Pallium.Sql

variable {α : Type} [DecidableEq α]

variable {column : Option α}

/-- The value of a condition, without one if it is unknown. -/
abbrev Condition := Option Bool

/-- Whether a row with this value of the condition is selected. -/
def Condition.Holds (condition : Condition) : Prop := condition = some true

instance (condition : Condition) : Decidable condition.Holds :=
  inferInstanceAs (Decidable (condition = some true))

/-- `column = value`. -/
def equals : Option α → Option α → Condition
  | some column, some value => some (decide (column = value))
  | _, _ => none

/-- `column != value`. -/
def differs : Option α → Option α → Condition
  | some column, some value => some (decide (column ≠ value))
  | _, _ => none

/-- `column IN values`. -/
def oneOf : Option α → List α → Condition
  | some column, values => some (decide (column ∈ values))
  | none, _ => none

/-- `column NOT IN values`. -/
def notOneOf : Option α → List α → Condition
  | some column, values => some (decide (column ∉ values))
  | none, _ => none

/-- `column IS NULL`. -/
def isNull (column : Option α) : Condition := some column.isNone

def both : Condition → Condition → Condition
  | some true, second => second
  | some false, _ => some false
  | none, some false => some false
  | none, _ => none

def either : Condition → Condition → Condition
  | some false, second => second
  | some true, _ => some true
  | none, some true => some true
  | none, _ => none

/-- The condition that all of the clauses hold. -/
def allOf (clauses : List Condition) : Condition := clauses.foldr both (some true)

/-- The condition that one of the clauses holds. -/
def anyOf (clauses : List Condition) : Condition := clauses.foldr either (some false)

@[simp]
theorem holds_equals {value : α} :
    (equals column (some value)).Holds ↔ column = some value := by
  cases column with
  | none => exact iff_of_false nofun nofun
  | some found => simp [equals, Condition.Holds]

@[simp]
theorem holds_differs {value : α} :
    (differs column (some value)).Holds ↔ column.isSome ∧ column ≠ some value := by
  cases column with
  | none => exact iff_of_false nofun nofun
  | some found => simp [differs, Condition.Holds]

@[simp]
theorem holds_oneOf {values : List α} :
    (oneOf column values).Holds ↔ ∃ found ∈ values, column = some found := by
  cases column with
  | none => exact iff_of_false nofun nofun
  | some found => simp [oneOf, Condition.Holds]

@[simp]
theorem holds_notOneOf {values : List α} :
    (notOneOf column values).Holds ↔ ∃ found, column = some found ∧ found ∉ values := by
  cases column with
  | none => exact iff_of_false nofun nofun
  | some found => simp [notOneOf, Condition.Holds]

@[simp]
theorem holds_isNull : (isNull column).Holds ↔ column = none := by
  simp [isNull, Condition.Holds]

@[simp]
theorem holds_both {first second : Condition} :
    (both first second).Holds ↔ first.Holds ∧ second.Holds := by
  rcases first with _ | _ | _ <;> rcases second with _ | _ | _ <;>
    simp [both, Condition.Holds]

@[simp]
theorem holds_either {first second : Condition} :
    (either first second).Holds ↔ first.Holds ∨ second.Holds := by
  rcases first with _ | _ | _ <;> rcases second with _ | _ | _ <;>
    simp [either, Condition.Holds]

theorem holds_allOf {clauses : List Condition} :
    (allOf clauses).Holds ↔ ∀ clause ∈ clauses, clause.Holds := by
  induction clauses with
  | nil => exact iff_of_true rfl nofun
  | cons clause rest ih =>
    rw [List.forall_mem_cons, ← ih]
    exact holds_both

theorem holds_anyOf {clauses : List Condition} :
    (anyOf clauses).Holds ↔ ∃ clause ∈ clauses, clause.Holds := by
  induction clauses with
  | nil => exact iff_of_false nofun nofun
  | cons clause rest ih =>
    simp only [List.mem_cons, exists_eq_or_imp, ← ih]
    exact holds_either

end Pallium.Sql
