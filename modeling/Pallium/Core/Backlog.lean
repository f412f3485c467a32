import Mathlib

/-!
# Backlogs

Callers take entries from a store, one after the other; which entry is next may
depend on the caller.  An entry is served if it is taken after finitely many takes
of entries before it, whoever the callers are.  A ready entry is served if every
take of another entry takes one before it, leaves it ready and lowers a rank of the
store.
-/

namespace Pallium.Backlog

variable {σ ι κ : Type}

variable {state : σ}

/-- The store after the first takes. -/
def afterTakes (take : σ → ι → σ) (state : σ) (callers : ℕ → ι) : ℕ → σ
  | 0 => state
  | count + 1 => take (afterTakes take state callers count) (callers count)

/-- The entry is taken after this number of takes of entries before it. -/
def Served (next : σ → ι → Option κ) (take : σ → ι → σ) (before : κ → κ → Prop) (state : σ)
    (callers : ℕ → ι) (entry : κ) (count : ℕ) : Prop :=
  (∀ earlier < count, ∃ other,
      next (afterTakes take state callers earlier) (callers earlier) = some other ∧
        before other entry) ∧
    next (afterTakes take state callers count) (callers count) = some entry

variable {next : σ → ι → Option κ} {take : σ → ι → σ} {before : κ → κ → Prop}

theorem afterTakes_succ_eq (state : σ) (callers : ℕ → ι) (count : ℕ) :
    afterTakes take state callers (count + 1) =
      afterTakes take (take state (callers 0)) (fun index => callers (index + 1)) count := by
  induction count with
  | zero => rfl
  | succ count ih =>
    calc
      afterTakes take state callers (count + 1 + 1) =
          take (afterTakes take state callers (count + 1)) (callers (count + 1)) := rfl
      _ = take (afterTakes take (take state (callers 0)) (fun index => callers (index + 1)) count)
          (callers (count + 1)) := by rw [ih]
      _ = afterTakes take (take state (callers 0)) (fun index => callers (index + 1))
          (count + 1) := rfl

/-- An entry served after the first take is served before it, too, if that took
an entry before. -/
theorem Served.of_take {callers : ℕ → ι} {entry other : κ} {count : ℕ}
    (hserved : Served next take before (take state (callers 0)) (fun index => callers (index + 1))
      entry count) (hnext : next state (callers 0) = some other) (hbefore : before other entry) :
    Served next take before state callers entry (count + 1) := by
  constructor
  · intro earlier hearlier
    cases earlier with
    | zero => exact ⟨other, hnext, hbefore⟩
    | succ earlier =>
      rw [afterTakes_succ_eq]
      exact hserved.1 earlier (Nat.lt_of_succ_lt_succ hearlier)
  · rw [afterTakes_succ_eq]
    exact hserved.2

/-- A ready entry is served. -/
theorem served_of_ready (allowed : ι → Prop) {ready : σ → κ → Prop} {rank : σ → ℕ}
    (hready : ∀ state caller entry, allowed caller → ready state entry →
      next state caller = some entry ∨ ∃ other, next state caller = some other ∧
        before other entry ∧ ready (take state caller) entry ∧
        rank (take state caller) < rank state) {entry : κ} (hentry : ready state entry)
    {callers : ℕ → ι} (hcallers : ∀ index, allowed (callers index)) :
    ∃ count, Served next take before state callers entry count := by
  induction hrank : rank state using Nat.strongRecOn generalizing state callers with
  | _ bound ih =>
    rcases hready state (callers 0) entry (hcallers 0) hentry with
      hnext | ⟨other, hnext, hbefore, hstill, hlower⟩
    · exact ⟨0, fun earlier hearlier => absurd hearlier (Nat.not_lt_zero earlier), hnext⟩
    · rw [hrank] at hlower
      obtain ⟨count, hserved⟩ := ih _ hlower hstill (fun index => hcallers (index + 1)) rfl
      exact ⟨count + 1, hserved.of_take hnext hbefore⟩

theorem afterTakes_invariant {invariant : σ → Prop} (hstart : invariant state)
    (hpreserved : ∀ state caller, invariant state → invariant (take state caller)) (callers : ℕ → ι)
    (count : ℕ) : invariant (afterTakes take state callers count) := by
  induction count with
  | zero => exact hstart
  | succ count ih => exact hpreserved _ _ ih

end Pallium.Backlog
