import Pallium.Core.Run

/-!
# Progress of infinite runs

A run that goes on for ever is a sequence of steps.  A condition leads to another
one if, whenever it holds, the other holds then or later; a condition that stays
until a recurring step turns it into another one leads to it.
-/

namespace Pallium.Progress

open Pallium.Run

variable {σ α : Type*}

/-- The states that the run passes through. -/
def path (step : σ → α → σ) (start : σ) (acts : ℕ → α) : ℕ → σ
  | 0 => start
  | time + 1 => step (path step start acts time) (acts time)

/-- It happens again and again. -/
def Recurs (event : ℕ → Prop) : Prop := ∀ time, ∃ later, time ≤ later ∧ event later

/-- Whenever `before` holds, `after` holds at that time or later. -/
def LeadsTo (before after : ℕ → Prop) : Prop :=
  ∀ time, before time → ∃ later, time ≤ later ∧ after later

variable {before middle after event : ℕ → Prop}

theorem LeadsTo.of_imp (himp : ∀ time, before time → after time) : LeadsTo before after :=
  fun time hbefore => ⟨time, le_rfl, himp time hbefore⟩

theorem LeadsTo.trans (hfirst : LeadsTo before middle) (hsecond : LeadsTo middle after) :
    LeadsTo before after := by
  intro time hbefore
  obtain ⟨between, hbetween, hmiddle⟩ := hfirst time hbefore
  obtain ⟨later, hlater, hafter⟩ := hsecond between hmiddle
  exact ⟨later, hbetween.trans hlater, hafter⟩

theorem LeadsTo.either {other : ℕ → Prop} (hfirst : LeadsTo before after)
    (hsecond : LeadsTo other after) :
    LeadsTo (fun time => before time ∨ other time) after :=
  fun time hcases => hcases.elim (hfirst time) (hsecond time)

theorem LeadsTo.or_done (hway : LeadsTo before after) :
    LeadsTo (fun time => before time ∨ after time) after :=
  hway.either (.of_imp fun _ => id)

/-- A condition that stays until it is left for `after` is still there after any
number of steps, or has been left. -/
theorem exists_after_or_before
    (hstays : ∀ time, before time → before (time + 1) ∨ after (time + 1)) {time : ℕ}
    (hbefore : before time) (distance : ℕ) :
    (∃ later, time ≤ later ∧ after later) ∨ before (time + distance) := by
  induction distance with
  | zero => exact Or.inr hbefore
  | succ distance ih =>
    rcases ih with hdone | hstill
    · exact Or.inl hdone
    · rcases hstays _ hstill with hkept | hleft
      · exact Or.inr hkept
      · exact Or.inl ⟨time + distance + 1, by omega, hleft⟩

theorem LeadsTo.of_stays
    (hstays : ∀ time, before time → before (time + 1) ∨ after (time + 1)) (bound : ℕ) :
    LeadsTo before fun time => bound ≤ time ∧ before time ∨ after time := by
  intro time hbefore
  rcases exists_after_or_before hstays hbefore (bound - time) with ⟨later, hlater, hafter⟩ | hstill
  · exact ⟨later, hlater, Or.inr hafter⟩
  · exact ⟨time + (bound - time), by omega, Or.inl ⟨by omega, hstill⟩⟩

/-- A condition that stays until it is left for `after`, and that the recurring
step turns into `after`. -/
theorem Recurs.leadsTo (hrecurs : Recurs event)
    (hstays : ∀ time, before time → before (time + 1) ∨ after (time + 1))
    (hevent : ∀ time, before time → event time → after (time + 1)) : LeadsTo before after := by
  intro time hbefore
  obtain ⟨last, hlast, hhappens⟩ := hrecurs time
  rcases exists_after_or_before hstays hbefore (last - time) with hdone | hstill
  · exact hdone
  · rw [Nat.add_sub_cancel' hlast] at hstill
    exact ⟨last + 1, by omega, hevent last hstill hhappens⟩

/-- A condition with a rank that no step raises and the recurring step lowers
leads out of itself. -/
theorem Recurs.leadsTo_of_rank (rank : ℕ → ℕ) (hrecurs : Recurs event)
    (hstays : ∀ time, before time →
      before (time + 1) ∧ rank (time + 1) ≤ rank time ∨ after (time + 1))
    (hevent : ∀ time, before time → event time →
      before (time + 1) ∧ rank (time + 1) < rank time ∨ after (time + 1)) :
    LeadsTo before after := by
  have hbelow : ∀ bound, LeadsTo (fun time => before time ∧ rank time ≤ bound) after := by
    intro bound
    induction bound with
    | zero =>
      refine hrecurs.leadsTo (fun time hbefore => ?_) fun time hbefore hhappens => ?_
      · rcases hstays time hbefore.1 with ⟨hkept, hrank⟩ | hleft
        · exact Or.inl ⟨hkept, hrank.trans hbefore.2⟩
        · exact Or.inr hleft
      · rcases hevent time hbefore.1 hhappens with ⟨-, hrank⟩ | hleft
        · exact absurd (hrank.trans_le hbefore.2) (Nat.not_lt_zero _)
        · exact hleft
    | succ bound ih =>
      have hlower : LeadsTo (fun time => before time ∧ rank time ≤ bound + 1)
          fun time => before time ∧ rank time ≤ bound ∨ after time := by
        refine hrecurs.leadsTo (fun time hbefore => ?_) fun time hbefore hhappens => ?_
        · rcases hstays time hbefore.1 with ⟨hkept, hrank⟩ | hleft
          · exact Or.inl ⟨hkept, hrank.trans hbefore.2⟩
          · exact Or.inr (Or.inr hleft)
        · rcases hevent time hbefore.1 hhappens with ⟨hkept, hrank⟩ | hleft
          · exact Or.inl ⟨hkept, Nat.le_of_lt_succ (hrank.trans_le hbefore.2)⟩
          · exact Or.inr hleft
      exact hlower.trans ih.or_done
  intro time hbefore
  exact hbelow (rank time) time ⟨hbefore, le_rfl⟩

end Pallium.Progress
