import Mathlib

/-!
# Programs whose writes may fail

A process works on a state that outlives it.  Each of its writes takes effect,
fails and is reported as failed, or is the point at which the process stops;
which of the three happens is given in advance by a list of faults.  `Ensures`
states what holds of the state a program returns in and of the states in which
it may stop, whatever faults of the allowed kinds happen; it is derived from the
program, write by write.
-/

namespace Pallium.Faults

/-- What becomes of a write. -/
inductive Fault
  | done
  | fails
  | stops
deriving DecidableEq, Repr

/-- How a process ends: with a value and the faults still to come, or at the
write that it did not survive. -/
inductive Ending (ι σ α : Type)
  | returned (value : α) (state : σ) (left : List Fault)
  | stopped (site : ι) (state : σ)

/-- A program over states `σ` whose writes are told apart by `ι`. -/
def Process (ι σ α : Type) : Type := σ → List Fault → Ending ι σ α

variable {ι σ α β : Type}

/-- The state that is left behind. -/
def Ending.state : Ending ι σ α → σ
  | returned _ state _ => state
  | stopped _ state => state

/-- The write at which the process stopped. -/
def Ending.site : Ending ι σ α → Option ι
  | returned _ _ _ => none
  | stopped site _ => some site

namespace Process

instance : Monad (Process ι σ) where
  pure value := fun state faults => .returned value state faults
  bind first next := fun state faults =>
    match first state faults with
    | .returned value after left => next value after left
    | .stopped site after => .stopped site after

/-- The current state. -/
def read : Process ι σ σ := fun state faults => .returned state state faults

/-- A change that cannot fail. -/
def change (effect : σ → σ) : Process ι σ Unit := fun state faults =>
  .returned () (effect state) faults

/-- A write, which reports whether it took effect. -/
def write (site : ι) (effect : σ → σ) : Process ι σ Bool := fun state faults =>
  match faults with
  | [] => .returned true (effect state) []
  | .done :: rest => .returned true (effect state) rest
  | .fails :: rest => .returned false state rest
  | .stops :: _ => .stopped site state

/-- Whatever allowed faults happen, the program returns in a state that meets
`post`, or stops in one that meets `stop`. -/
def Ensures (allowed : Fault → Prop) (program : Process ι σ α) (state : σ)
    (post : α → σ → Prop) (stop : ι → σ → Prop) : Prop :=
  ∀ faults : List Fault, (∀ fault ∈ faults, allowed fault) →
    match program state faults with
    | .returned value after left => post value after ∧ ∀ fault ∈ left, allowed fault
    | .stopped site after => stop site after

variable {allowed : Fault → Prop} {state : σ} {stop : ι → σ → Prop} {post : α → σ → Prop}

theorem Ensures.pure {value : α} (hpost : post value state) :
    Ensures allowed (pure value : Process ι σ α) state post stop :=
  fun _ hfaults => ⟨hpost, hfaults⟩

theorem Ensures.bind {first : Process ι σ α} {next : α → Process ι σ β}
    {post : β → σ → Prop}
    (hfirst : Ensures allowed first state
      (fun value after => Ensures allowed (next value) after post stop) stop) :
    Ensures allowed (first >>= next) state post stop := by
  intro faults hfaults
  have hstep := hfirst faults hfaults
  change (match (match first state faults with
      | .returned value after left => next value after left
      | .stopped site after => .stopped site after) with
    | .returned value after left => post value after ∧ ∀ fault ∈ left, allowed fault
    | .stopped site after => stop site after)
  cases hending : first state faults with
  | returned value after left =>
    rw [hending] at hstep
    exact hstep.1 left hstep.2
  | stopped site after =>
    rw [hending] at hstep
    exact hstep

theorem Ensures.mono {program : Process ι σ α} {weaker : α → σ → Prop} {later : ι → σ → Prop}
    (hprogram : Ensures allowed program state post stop)
    (hpost : ∀ value after, post value after → weaker value after)
    (hstop : ∀ site after, stop site after → later site after) :
    Ensures allowed program state weaker later := by
  intro faults hfaults
  have hending := hprogram faults hfaults
  cases hcase : program state faults with
  | returned value after left =>
    rw [hcase] at hending
    exact ⟨hpost value after hending.1, hending.2⟩
  | stopped site after =>
    rw [hcase] at hending
    exact hstop site after hending

theorem Ensures.read {post : σ → σ → Prop} (hpost : post state state) :
    Ensures allowed (read : Process ι σ σ) state post stop :=
  fun _ hfaults => ⟨hpost, hfaults⟩

theorem Ensures.change {effect : σ → σ} {post : Unit → σ → Prop} (hpost : post () (effect state)) :
    Ensures allowed (change effect : Process ι σ Unit) state post stop :=
  fun _ hfaults => ⟨hpost, hfaults⟩

theorem Ensures.write {site : ι} {effect : σ → σ} {post : Bool → σ → Prop}
    (hdone : post true (effect state)) (hfails : allowed .fails → post false state)
    (hstops : allowed .stops → stop site state) :
    Ensures allowed (write site effect : Process ι σ Bool) state post stop := by
  intro faults hfaults
  cases faults with
  | nil => exact ⟨hdone, hfaults⟩
  | cons first rest =>
    have hrest : ∀ fault ∈ rest, allowed fault :=
      (List.forall_mem_cons.mp hfaults).2
    have hfirst := hfaults first List.mem_cons_self
    cases first with
    | done => exact ⟨hdone, hrest⟩
    | fails => exact ⟨hfails hfirst, hrest⟩
    | stops => exact hstops hfirst

end Process

end Pallium.Faults
