import Mathlib

/-!
# Runs of a state machine

A run applies a list of steps one after the other.  `Along` says that every step
of a run meets a condition in the state it starts from; it is the form in which
guards, side conditions and absences of events are assumed of a run.  An
invariant that each admissible step preserves holds at the end of the run.
-/

namespace Pallium.Run

variable {σ α : Type*}

/-- The state after applying the steps in order. -/
def run (step : σ → α → σ) (state : σ) (steps : List α) : σ := steps.foldl step state

@[simp]
theorem run_nil (step : σ → α → σ) (state : σ) : run step state [] = state := rfl

@[simp]
theorem run_cons (step : σ → α → σ) (state : σ) (first : α) (rest : List α) :
    run step state (first :: rest) = run step (step state first) rest := rfl

theorem run_append (step : σ → α → σ) (state : σ) (first second : List α) :
    run step state (first ++ second) = run step (run step state first) second :=
  List.foldl_append

/-- Every step of the run meets `guard` in the state it starts from. -/
def Along (step : σ → α → σ) (guard : σ → α → Prop) : σ → List α → Prop
  | _, [] => True
  | state, first :: rest => guard state first ∧ Along step guard (step state first) rest

variable {step : σ → α → σ} {guard : σ → α → Prop}

@[simp]
theorem along_nil (state : σ) : Along step guard state [] := trivial

@[simp]
theorem along_cons (state : σ) (first : α) (rest : List α) :
    Along step guard state (first :: rest) ↔
      guard state first ∧ Along step guard (step state first) rest := Iff.rfl

instance decidableAlong [∀ state first, Decidable (guard state first)] :
    ∀ (state : σ) (steps : List α), Decidable (Along step guard state steps)
  | _, [] => isTrue trivial
  | state, first :: rest =>
    have := decidableAlong (step state first) rest
    inferInstanceAs (Decidable (guard state first ∧ Along step guard (step state first) rest))

theorem along_append (state : σ) (first second : List α) :
    Along step guard state (first ++ second) ↔
      Along step guard state first ∧ Along step guard (run step state first) second := by
  induction first generalizing state with
  | nil => simp
  | cons head tail ih =>
    rw [List.cons_append, along_cons, along_cons, run_cons, ih, and_assoc]

theorem Along.of_forall {condition : α → Prop} {state : σ} {steps : List α}
    (hsteps : ∀ first ∈ steps, condition first) :
    Along step (fun _ first => condition first) state steps := by
  induction steps generalizing state with
  | nil => trivial
  | cons head tail ih =>
    exact ⟨hsteps head List.mem_cons_self,
      ih (List.forall_mem_cons.mp hsteps).2⟩

section

variable {state : σ} {steps : List α} (hsteps : Along step guard state steps)
include hsteps

theorem Along.and {other : σ → α → Prop} (hother : Along step other state steps) :
    Along step (fun current first => guard current first ∧ other current first) state steps := by
  induction steps generalizing state with
  | nil => trivial
  | cons head tail ih => exact ⟨⟨hsteps.1, hother.1⟩, ih hsteps.2 hother.2⟩

theorem Along.invariant {invariant : σ → Prop} (hstart : invariant state)
    (hpreserved : ∀ current first, guard current first → invariant current →
      invariant (step current first)) :
    invariant (run step state steps) := by
  induction steps generalizing state with
  | nil => exact hstart
  | cons head tail ih =>
    obtain ⟨hhead, htail⟩ := hsteps
    exact ih htail (hpreserved state head hhead hstart)

/-- An invariant preserved by every admissible step holds along the run. -/
theorem Along.with_invariant {invariant : σ → Prop} (hstart : invariant state)
    (hpreserved : ∀ current first, guard current first → invariant current →
      invariant (step current first)) :
    Along step (fun current first => guard current first ∧ invariant current) state steps := by
  induction steps generalizing state with
  | nil => trivial
  | cons head tail ih =>
    exact ⟨⟨hsteps.1, hstart⟩, ih hsteps.2 (hpreserved state head hsteps.1 hstart)⟩

end

theorem run_invariant {invariant : σ → Prop} {state : σ} (hstart : invariant state)
    (hpreserved : ∀ current first, invariant current → invariant (step current first))
    (steps : List α) : invariant (run step state steps) := by
  induction steps generalizing state with
  | nil => exact hstart
  | cons head tail ih => exact ih (hpreserved state head hstart)

/-- A preorder that relates the states around every step relates the states
around a run. -/
theorem run_related (related : σ → σ → Prop) (hrefl : ∀ state, related state state)
    (htrans : ∀ first second third, related first second → related second third →
      related first third)
    (hstep : ∀ state first, related state (step state first)) (state : σ) (steps : List α) :
    related state (run step state steps) := by
  induction steps generalizing state with
  | nil => exact hrefl state
  | cons head tail ih => exact htrans _ _ _ (hstep state head) (ih (step state head))

theorem along_forall {ι : Type*} {guards : ι → σ → α → Prop} {state : σ} {steps : List α} :
    Along step (fun current first => ∀ index, guards index current first) state steps ↔
      ∀ index, Along step (guards index) state steps := by
  induction steps generalizing state with
  | nil => simp
  | cons head tail ih => simp only [along_cons, ih, forall_and]

theorem Along.mono {other : σ → α → Prop} {state : σ} {steps : List α}
    (hsteps : Along step guard state steps)
    (himplies : ∀ current first, guard current first → other current first) :
    Along step other state steps := by
  induction steps generalizing state with
  | nil => trivial
  | cons head tail ih => exact ⟨himplies state head hsteps.1, ih hsteps.2⟩

/-- The steps of a second machine that answer the steps of a run. -/
def translation {β : Type*} (step : σ → α → σ) (translate : σ → α → List β) :
    σ → List α → List β
  | _, [] => []
  | state, first :: rest =>
    translate state first ++ translation step translate (step state first) rest

section Simulation

variable {τ β : Type*} {project : σ → τ} {answer : τ → β → τ} {translate : σ → α → List β}

variable (hstep : ∀ state first,
    project (step state first) = run answer (project state) (translate state first))
  (state : σ) (steps : List α)
include hstep

theorem run_translation :
    project (run step state steps) =
      run answer (project state) (translation step translate state steps) := by
  induction steps generalizing state with
  | nil => rfl
  | cons head tail ih => rw [run_cons, ih, hstep, translation, run_append]

/-- A condition along the answers is a condition along the run. -/
theorem along_translation {allowed : τ → β → Prop} :
    Along answer allowed (project state) (translation step translate state steps) ↔
      Along step
        (fun current first => Along answer allowed (project current) (translate current first))
        state steps := by
  induction steps generalizing state with
  | nil => exact Iff.rfl
  | cons head tail ih => rw [translation, along_append, ← hstep, ih, along_cons]

end Simulation

/-- What is observed of the steps of a run, in their order. -/
def observations {β : Type*} (step : σ → α → σ) (observe : σ → α → Option β) :
    σ → List α → List β
  | _, [] => []
  | state, first :: rest =>
    (observe state first).toList ++ observations step observe (step state first) rest

theorem observations_append {β : Type*} (observe : σ → α → Option β) (state : σ)
    (first second : List α) :
    observations step observe state (first ++ second) =
      observations step observe state first ++
        observations step observe (run step state first) second := by
  induction first generalizing state with
  | nil => rfl
  | cons head tail ih =>
    rw [List.cons_append, observations, ih, ← List.append_assoc]
    rfl

theorem filterMap_observations {β γ : Type*} (observe : σ → α → Option β) (part : β → Option γ)
    (state : σ) (steps : List α) :
    (observations step observe state steps).filterMap part =
      observations step (fun current first => (observe current first).bind part) state steps := by
  induction steps generalizing state with
  | nil => rfl
  | cons head tail ih =>
    rw [observations, observations, List.filterMap_append, ih]
    cases hobserved : observe state head with
    | none => rfl
    | some observed => cases hpart : part observed <;> simp [hpart]

/-- Nothing is observed twice if an invariant of the run and of what it has shown
so far excludes what is shown next. -/
theorem observations_nodup {β : Type*} {observe : σ → α → Option β} {state : σ}
    (invariant : List β → σ → Prop) (hstart : invariant [] state)
    (hfresh : ∀ seen current first observed, invariant seen current →
      observe current first = some observed → observed ∉ seen)
    (hpreserved : ∀ seen current first, invariant seen current →
      invariant (seen ++ (observe current first).toList) (step current first))
    (steps : List α) :
    (observations step observe state steps).Nodup ∧
      invariant (observations step observe state steps) (run step state steps) := by
  suffices hseen : ∀ seen, seen.Nodup → invariant seen state →
      (seen ++ observations step observe state steps).Nodup ∧
        invariant (seen ++ observations step observe state steps) (run step state steps) by
    exact hseen [] List.nodup_nil hstart
  clear hstart
  induction steps generalizing state with
  | nil =>
    intro seen hnodup hinvariant
    rw [observations, List.append_nil]
    exact ⟨hnodup, hinvariant⟩
  | cons head tail ih =>
    intro seen hnodup hinvariant
    rw [observations, ← List.append_assoc, run_cons]
    apply ih
    · cases hobserved : observe state head with
      | none => simpa using hnodup
      | some observed =>
        have hnew := hfresh seen state head observed hinvariant hobserved
        rw [Option.toList_some, List.nodup_append_comm, List.singleton_append]
        exact List.nodup_cons.mpr ⟨hnew, hnodup⟩
    · exact hpreserved seen state head hinvariant

/-- Where one thing is observed only together with another, it is observed at
most as often. -/
theorem length_observations_le {β γ : Type*} {invariant : σ → Prop} {observe : σ → α → Option β}
    {other : σ → α → Option γ} {state : σ} (hstart : invariant state)
    (hpreserved : ∀ current first, invariant current → invariant (step current first))
    (hobserved : ∀ current first, invariant current → (observe current first).isSome →
      (other current first).isSome) (steps : List α) :
    (observations step observe state steps).length ≤
      (observations step other state steps).length := by
  induction steps generalizing state with
  | nil => exact Nat.le_refl _
  | cons head tail ih =>
    rw [observations, observations, List.length_append, List.length_append]
    refine Nat.add_le_add ?_ (ih (hpreserved state head hstart))
    have hhead := hobserved state head hstart
    cases hfirst : observe state head with
    | none => exact Nat.zero_le _
    | some observed =>
      rw [hfirst] at hhead
      obtain ⟨seen, hseen⟩ := Option.isSome_iff_exists.mp (hhead rfl)
      rw [hseen]
      exact Nat.le_refl _

end Pallium.Run
