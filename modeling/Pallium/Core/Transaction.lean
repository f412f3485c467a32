import Mathlib

/-!
# Transactions

The body of a transaction either fails or yields a new state with a result.
Running it commits the new state or leaves the old one untouched.  `require` and
`orRaise` are the two ways in which a body fails; the equations about them turn
the success of a body into the facts its checks established, and these facts are
all that later proofs use of a body.
-/

namespace Pallium.Transaction

variable {σ α β ε : Type}

variable {found : α} {raised : ε} {error : ε}

/-- Fail with `error` unless the condition holds. -/
def require (condition : Prop) [Decidable condition] (error : ε) : Except ε Unit :=
  if condition then .ok () else .error error

/-- The value, or a failure with `error` where there is none. -/
def orRaise (value : Option α) (error : ε) : Except ε α :=
  match value with
  | some found => .ok found
  | none => .error error

theorem bind_eq_ok {computation : Except ε α} {next : α → Except ε β} {result : β} :
    (computation >>= next) = .ok result ↔
      ∃ found, computation = .ok found ∧ next found = .ok result := by
  cases computation with
  | error error =>
    constructor
    · intro hfailed
      cases hfailed
    · rintro ⟨found, hfound, -⟩
      cases hfound
  | ok found =>
    constructor
    · intro hnext
      exact ⟨found, rfl, hnext⟩
    · rintro ⟨other, hother, hnext⟩
      cases hother
      exact hnext

@[simp]
theorem require_eq_ok {condition : Prop} [Decidable condition] {result : Unit} :
    require condition error = .ok result ↔ condition := by
  unfold require
  split
  · next hcondition => simp [hcondition]
  · next hcondition => simp [hcondition]

@[simp]
theorem orRaise_eq_ok {value : Option α} :
    orRaise value error = .ok found ↔ value = some found := by
  cases value with
  | none => simp [orRaise]
  | some other => simp [orRaise]

@[simp]
theorem pure_eq_ok {result : α} :
    (pure found : Except ε α) = .ok result ↔ found = result := by
  constructor
  · intro hpure
    cases hpure
    rfl
  · rintro rfl
    rfl

@[simp]
theorem throw_ne_ok {result : α} :
    (throw error : Except ε α) = .ok result ↔ False := by
  constructor
  · intro hthrow
    cases hthrow
  · exact False.elim

theorem bind_eq_error {computation : Except ε α} {next : α → Except ε β} :
    (computation >>= next) = .error raised ↔
      computation = .error raised ∨
        ∃ found, computation = .ok found ∧ next found = .error raised := by
  cases computation with
  | error error =>
    constructor
    · intro hfailed
      exact Or.inl (congrArg Except.error (Except.error.inj hfailed))
    · rintro (hfailed | ⟨found, hfound, -⟩)
      · exact congrArg Except.error (Except.error.inj hfailed)
      · cases hfound
  | ok found =>
    constructor
    · intro hnext
      exact Or.inr ⟨found, rfl, hnext⟩
    · rintro (hfailed | ⟨other, hother, hnext⟩)
      · cases hfailed
      · cases hother
        exact hnext

theorem require_eq_error {condition : Prop} [Decidable condition] :
    require condition error = .error raised ↔ ¬ condition ∧ error = raised := by
  unfold require
  split
  · next hcondition => simp [hcondition]
  · next hcondition => simp [hcondition]

theorem orRaise_eq_error {value : Option α} :
    orRaise value error = .error raised ↔ value = none ∧ error = raised := by
  cases value with
  | none => simp [orRaise]
  | some other => simp [orRaise]

theorem pure_ne_error :
    (pure found : Except ε α) ≠ .error raised := nofun

theorem forM_eq_ok {check : α → Except ε Unit} {items : List α} {result : Unit} :
    items.forM check = .ok result ↔ ∀ item ∈ items, check item = .ok () := by
  induction items with
  | nil => simp [List.forM]
  | cons head tail ih =>
    rw [List.forM, bind_eq_ok]
    constructor
    · rintro ⟨found, hhead, htail⟩ item hitem
      rcases List.mem_cons.mp hitem with rfl | hrest
      · exact hhead
      · exact ih.mp htail item hrest
    · intro hall
      exact ⟨(), hall head List.mem_cons_self,
        ih.mpr (List.forall_mem_cons.mp hall).2⟩

/-- Run the body, commit what it yields and roll back where it fails. -/
def transaction (body : σ → Except ε (σ × α)) (state : σ) : σ × Except ε α :=
  match body state with
  | .ok (after, result) => (after, .ok result)
  | .error error => (state, .error error)

variable {body : σ → Except ε (σ × α)} {state after : σ} {result : α} {error : ε}

theorem transaction_of_ok (hbody : body state = .ok (after, result)) :
    transaction body state = (after, .ok result) := by
  rw [transaction, hbody]

theorem transaction_of_error (hbody : body state = .error error) :
    transaction body state = (state, .error error) := by
  rw [transaction, hbody]

theorem transaction_cases (body : σ → Except ε (σ × α)) (state : σ) :
    (∃ after result, body state = .ok (after, result) ∧
        transaction body state = (after, .ok result)) ∨
      ∃ error, body state = .error error ∧ transaction body state = (state, .error error) := by
  cases hbody : body state with
  | ok committed => exact Or.inl ⟨committed.1, committed.2, rfl, transaction_of_ok hbody⟩
  | error error => exact Or.inr ⟨error, rfl, transaction_of_error hbody⟩

theorem transaction_after {motive : σ → Prop} (hsame : motive state)
    (hcommitted : ∀ after result, body state = .ok (after, result) → motive after) :
    motive (transaction body state).1 := by
  rcases transaction_cases body state with ⟨after, result, hbody, htransaction⟩ |
    ⟨error, -, htransaction⟩
  · rw [htransaction]
    exact hcommitted after result hbody
  · rw [htransaction]
    exact hsame

theorem transaction_related {related : σ → σ → Prop} (hsame : related state state)
    (hcommitted : ∀ after result, body state = .ok (after, result) → related state after) :
    related state (transaction body state).1 :=
  transaction_after hsame hcommitted

end Pallium.Transaction
