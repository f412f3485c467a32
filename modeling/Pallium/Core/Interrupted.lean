import Pallium.Core.Faults

/-!
# Programs interleaved with others

A program works on a state that other parties change as well.  Just before each of its
operations some events of the others take place; the operation itself takes effect, fails and
raises an error, or is the point at which the process stops.  A schedule says which, for every
operation of a call.  `Ends` states what holds when a call returns or raises and in the states
in which it may stop; it is derived operation by operation.
-/

namespace Pallium.Interrupted

open Faults (Fault)

/-- What happens at one operation: the events of the others just before it, and its fate. -/
structure Turn (κ : Type) where
  others : List κ
  fault : Fault

/-- How a call ends: with a value or an error, or at the operation it did not survive. -/
inductive Ending (ι σ ε α : Type)
  | returned (result : Except ε α) (state : σ)
  | stopped (site : ι) (state : σ)
deriving DecidableEq

/-- The state that is left behind. -/
def Ending.state {ι σ ε α : Type} : Ending ι σ ε α → σ
  | returned _ state => state
  | stopped _ state => state

/-- The value of a call that returned one. -/
def Ending.value? {ι σ ε α : Type} : Ending ι σ ε α → Option α
  | returned (.ok value) _ => some value
  | _ => none

/-- A state that others change by events, and on which every operation takes time. -/
class Shared (κ : outParam Type) (σ : Type) where
  arrive : κ → σ → σ
  tick : σ → σ

/-- A program whose operations are told apart by `ι`; a schedule says what happens at each. -/
def Program (κ ι σ ε α : Type) : Type := (ι → Turn κ) → σ → Ending ι σ ε α

variable {κ ι σ ε α β : Type}

/-- The state an operation finds. -/
def reach [Shared κ σ] (turn : Turn κ) (state : σ) : σ :=
  Shared.tick (turn.others.foldl (fun now event => Shared.arrive event now) state)

theorem reach_induction [Shared κ σ] (invariant : σ → Prop) {state : σ} (turn : Turn κ)
    (harrive : ∀ event now, invariant now → invariant (Shared.arrive event now))
    (htick : ∀ now, invariant now → invariant (Shared.tick now)) (hstate : invariant state) :
    invariant (reach turn state) := by
  refine htick _ ?_
  generalize turn.others = events
  induction events generalizing state with
  | nil => exact hstate
  | cons event rest ih => exact ih (harrive event state hstate)

/-- Nobody else acts. -/
def Quiet (schedule : ι → Turn κ) : Prop := ∀ site, (schedule site).others = []

/-- Every operation takes effect. -/
def Faultless (schedule : ι → Turn κ) : Prop := ∀ site, (schedule site).fault = .done

/-- The schedule in which nobody else acts and every operation meets its own fate. -/
def alone (faults : ι → Fault) : ι → Turn κ := fun site => ⟨[], faults site⟩

/-- The schedule in which nobody else acts and every operation takes effect. -/
def calm : ι → Turn κ := alone fun _ => .done

theorem quiet_alone (faults : ι → Fault) : Quiet (alone faults : ι → Turn κ) := fun _ => rfl

theorem quiet_calm : Quiet (calm : ι → Turn κ) := fun _ => rfl

theorem faultless_calm : Faultless (calm : ι → Turn κ) := fun _ => rfl

theorem Quiet.reach [Shared κ σ] {schedule : ι → Turn κ} (hquiet : Quiet schedule) (site : ι)
    (state : σ) : reach (schedule site) state = Shared.tick state := by
  rw [Interrupted.reach, hquiet site, List.foldl_nil]

namespace Program

variable {error : ε} {site : ι}

instance : Monad (Program κ ι σ ε) where
  pure value := fun _ state => .returned (.ok value) state
  bind first next := fun schedule state =>
    match first schedule state with
    | .returned (.ok value) after => next value schedule after
    | .returned (.error error) after => .returned (.error error) after
    | .stopped site after => .stopped site after

def raise (error : ε) : Program κ ι σ ε α := fun _ state => .returned (.error error) state

/-- Run a handler on the errors of a program. -/
def handle (body : Program κ ι σ ε α) (handler : ε → Program κ ι σ ε α) :
    Program κ ι σ ε α := fun schedule state =>
  match body schedule state with
  | .returned (.ok value) after => .returned (.ok value) after
  | .returned (.error error) after => handler error schedule after
  | .stopped site after => .stopped site after

/-- An operation.  One that fails, and one without an effect on the state it finds, raises
`error`. -/
def perform [Shared κ σ] (site : ι) (error : ε) (effect : σ → Option (α × σ)) :
    Program κ ι σ ε α := fun schedule state =>
  match (schedule site).fault with
  | .done =>
    match effect (reach (schedule site) state) with
    | some (value, after) => .returned (.ok value) after
    | none => .returned (.error error) (reach (schedule site) state)
  | .fails => .returned (.error error) (reach (schedule site) state)
  | .stops => .stopped site (reach (schedule site) state)

/-- An operation that reads. -/
def inspect [Shared κ σ] (site : ι) (error : ε) (view : σ → Option α) :
    Program κ ι σ ε α :=
  perform site error fun state => (view state).map fun value => (value, state)

/-- An operation that writes. -/
def update [Shared κ σ] (site : ι) (error : ε) (effect : σ → Option σ) :
    Program κ ι σ ε Unit :=
  perform site error fun state => (effect state).map fun after => ((), after)

/-- A reading that nothing can disturb, such as that of the clock. -/
def observe [Shared κ σ] (view : σ → α) : Program κ ι σ ε α := fun _ state =>
  .returned (.ok (view state)) (Shared.tick state)

/-- A call returns or raises with `post`, or stops with `stop`. -/
def Ends (schedule : ι → Turn κ) (program : Program κ ι σ ε α) (state : σ)
    (post : Except ε α → σ → Prop) (stop : ι → σ → Prop) : Prop :=
  match program schedule state with
  | .returned result after => post result after
  | .stopped site after => stop site after

variable {schedule : ι → Turn κ} {state : σ} {post : Except ε α → σ → Prop}
  {stop : ι → σ → Prop} {program : Program κ ι σ ε α} {next : α → Program κ ι σ ε β}
  {first : Program κ ι σ ε α} {handler : ε → Program κ ι σ ε α} {body : Program κ ι σ ε α}
  {effect : σ → Option σ}

theorem Ends.pure {value : α} (hpost : post (.ok value) state) :
    Ends schedule (pure value : Program κ ι σ ε α) state post stop := hpost

theorem Ends.raise (hpost : post (.error error) state) :
    Ends schedule (raise error : Program κ ι σ ε α) state post stop := hpost

theorem Ends.observe [Shared κ σ] {view : σ → α}
    (hpost : post (.ok (view state)) (Shared.tick state)) :
    Ends schedule (observe view : Program κ ι σ ε α) state post stop := hpost

theorem Ends.mono {weaker : Except ε α → σ → Prop}
    {later : ι → σ → Prop} (hprogram : Ends schedule program state post stop)
    (hpost : ∀ result after, post result after → weaker result after)
    (hstop : ∀ site after, stop site after → later site after) :
    Ends schedule program state weaker later := by
  unfold Ends at hprogram ⊢
  cases hcase : program schedule state with
  | returned result after =>
    rw [hcase] at hprogram
    exact hpost result after hprogram
  | stopped site after =>
    rw [hcase] at hprogram
    exact hstop site after hprogram

/-- What follows goes on from a returned value; an error is passed on. -/
theorem Ends.bind (middle : Except ε α → σ → Prop) {post : Except ε β → σ → Prop}
    (hfirst : Ends schedule first state middle stop)
    (hnext : ∀ value after, middle (.ok value) after →
      Ends schedule (next value) after post stop)
    (herror : ∀ error after, middle (.error error) after → post (.error error) after) :
    Ends schedule (first >>= next) state post stop := by
  unfold Ends at hfirst
  change (match (match first schedule state with
      | .returned (.ok value) after => next value schedule after
      | .returned (.error error) after => Ending.returned (.error error) after
      | .stopped site after => Ending.stopped site after) with
    | .returned result after => post result after
    | .stopped site after => stop site after)
  cases hcase : first schedule state with
  | returned result after =>
    rw [hcase] at hfirst
    cases result with
    | ok value => exact hnext value after hfirst
    | error error => exact herror error after hfirst
  | stopped site after =>
    rw [hcase] at hfirst
    exact hfirst

/-- The handler goes on from an error. -/
theorem Ends.handle (middle : Except ε α → σ → Prop) (hbody : Ends schedule body state middle stop)
    (hok : ∀ value after, middle (.ok value) after → post (.ok value) after)
    (hhandler : ∀ error after, middle (.error error) after →
      Ends schedule (handler error) after post stop) :
    Ends schedule (handle body handler) state post stop := by
  unfold Ends at hbody ⊢
  simp only [Program.handle]
  cases hcase : body schedule state with
  | returned result after =>
    rw [hcase] at hbody
    cases result with
    | ok value => exact hok value after hbody
    | error error => exact hhandler error after hbody
  | stopped site after =>
    rw [hcase] at hbody
    exact hbody

/-- An operation is answered for in each of its fates. -/
theorem Ends.perform [Shared κ σ] {effect : σ → Option (α × σ)}
    (hdone : (schedule site).fault = .done → ∀ value after,
      effect (reach (schedule site) state) = some (value, after) → post (.ok value) after)
    (hnone : (schedule site).fault = .done → effect (reach (schedule site) state) = none →
      post (.error error) (reach (schedule site) state))
    (hfails : (schedule site).fault = .fails → post (.error error) (reach (schedule site) state))
    (hstops : (schedule site).fault = .stops → stop site (reach (schedule site) state)) :
    Ends schedule (perform site error effect) state post stop := by
  unfold Ends Program.perform
  cases hfault : (schedule site).fault with
  | done =>
    cases heffect : effect (reach (schedule site) state) with
    | none => exact hnone hfault heffect
    | some outcome => exact hdone hfault outcome.1 outcome.2 heffect
  | fails => exact hfails hfault
  | stops => exact hstops hfault

theorem Ends.inspect [Shared κ σ] {view : σ → Option α}
    (hdone : (schedule site).fault = .done → ∀ value,
      view (reach (schedule site) state) = some value →
        post (.ok value) (reach (schedule site) state))
    (hnone : (schedule site).fault = .done → view (reach (schedule site) state) = none →
      post (.error error) (reach (schedule site) state))
    (hfails : (schedule site).fault = .fails → post (.error error) (reach (schedule site) state))
    (hstops : (schedule site).fault = .stops → stop site (reach (schedule site) state)) :
    Ends schedule (inspect site error view) state post stop := by
  refine Ends.perform (fun hfault value after heffect => ?_) (fun hfault heffect => ?_)
    hfails hstops
  · obtain ⟨_, hseen, hpair⟩ := Option.map_eq_some_iff.mp heffect
    cases hpair
    exact hdone hfault _ hseen
  · exact hnone hfault (Option.map_eq_none_iff.mp heffect)

theorem Ends.update [Shared κ σ] {post : Except ε Unit → σ → Prop}
    (hdone : (schedule site).fault = .done → ∀ after,
      effect (reach (schedule site) state) = some after → post (.ok ()) after)
    (hnone : (schedule site).fault = .done → effect (reach (schedule site) state) = none →
      post (.error error) (reach (schedule site) state))
    (hfails : (schedule site).fault = .fails → post (.error error) (reach (schedule site) state))
    (hstops : (schedule site).fault = .stops → stop site (reach (schedule site) state)) :
    Ends schedule (update site error effect) state post stop := by
  refine Ends.perform (fun hfault value after heffect => ?_) (fun hfault heffect => ?_)
    hfails hstops
  · obtain ⟨_, hchanged, hpair⟩ := Option.map_eq_some_iff.mp heffect
    cases hpair
    exact hdone hfault _ hchanged
  · exact hnone hfault (Option.map_eq_none_iff.mp heffect)

/-- A write that finds nothing in its way. -/
theorem Ends.update_some [Shared κ σ] {effect : σ → σ} {post : Except ε Unit → σ → Prop}
    (hdone : (schedule site).fault = .done →
      post (.ok ()) (effect (reach (schedule site) state)))
    (hfails : (schedule site).fault = .fails → post (.error error) (reach (schedule site) state))
    (hstops : (schedule site).fault = .stops → stop site (reach (schedule site) state)) :
    Ends schedule (Program.update site error fun found => some (effect found)) state post stop := by
  refine Ends.update (fun hfault after heffect => ?_) (fun _ heffect => nomatch heffect)
    hfails hstops
  cases heffect
  exact hdone hfault

/-- A reading that always succeeds. -/
theorem Ends.inspect_some [Shared κ σ] {view : σ → α} (hdone : (schedule site).fault = .done →
      post (.ok (view (reach (schedule site) state))) (reach (schedule site) state))
    (hfails : (schedule site).fault = .fails → post (.error error) (reach (schedule site) state))
    (hstops : (schedule site).fault = .stops → stop site (reach (schedule site) state)) :
    Ends schedule (Program.inspect site error fun found => some (view found)) state post stop := by
  refine Ends.inspect (fun hfault value hview => ?_) (fun _ hview => nomatch hview)
    hfails hstops
  cases hview
  exact hdone hfault

section Proceeds

variable {reached : α → σ → Prop} {left : σ → Prop}

/-- How a part of a call ends that cannot fail by itself: in what it is for, or through a fault
in a state that the call may leave behind. -/
def Proceeds (schedule : ι → Turn κ) (reached : α → σ → Prop) (left : σ → Prop)
    (result : Except ε α) (after : σ) : Prop :=
  match result with
  | .ok value => reached value after
  | .error _ => left after ∧ ¬ Faultless schedule

theorem not_faultless {site : ι} (hfault : (schedule site).fault = .fails) :
    ¬ Faultless schedule :=
  fun hfaultless => nomatch hfault.symm.trans (hfaultless site)

theorem Ends.proceeds_pure {value : α} (hreached : reached value state) :
    Ends schedule (Pure.pure value : Program κ ι σ ε α) state
      (Proceeds schedule reached left) stop :=
  Ends.pure hreached

theorem Ends.proceeds_bind (reached : α → σ → Prop) {final : β → σ → Prop}
    (hfirst : Ends schedule first state (Proceeds schedule reached left) stop)
    (hnext : ∀ value after, reached value after →
      Ends schedule (next value) after (Proceeds schedule final left) stop) :
    Ends schedule (first >>= next) state (Proceeds schedule final left) stop :=
  Ends.bind (Proceeds schedule reached left) hfirst hnext fun _ _ herror => herror

theorem Ends.proceeds_update [Shared κ σ] {site : ι} {error : ε} {reached : Unit → σ → Prop}
    (hdone : ∃ after, effect (reach (schedule site) state) = some after ∧ reached () after)
    (hleft : left (reach (schedule site) state)) :
    Ends schedule (Program.update site error effect) state (Proceeds schedule reached left)
      fun _ => left := by
  obtain ⟨after, heffect, hreached⟩ := hdone
  refine Ends.update (fun _ found hfound => ?_) (fun _ hnone => ?_)
    (fun hfault => ⟨hleft, not_faultless hfault⟩) fun _ => hleft
  · rw [heffect] at hfound
    exact Option.some.inj hfound ▸ hreached
  · exact absurd hnone (by simp [heffect])

end Proceeds

theorem Ends.holds {invariant : σ → Prop}
    (hprogram : Ends schedule program state (fun _ after => invariant after)
      fun _ after => invariant after) :
    invariant (program schedule state).state := by
  unfold Ends at hprogram
  cases hcase : program schedule state with
  | returned result after =>
    rw [hcase] at hprogram
    exact hprogram
  | stopped site after =>
    rw [hcase] at hprogram
    exact hprogram

section Keeps

/-- Whatever happens to the program, the invariant is kept. -/
def Keeps (schedule : ι → Turn κ) (invariant : σ → Prop) (program : Program κ ι σ ε α) : Prop :=
  ∀ state, invariant state → Ends schedule program state (fun _ => invariant) fun _ => invariant

variable {invariant : σ → Prop}

theorem keeps_pure (value : α) : Keeps schedule invariant (pure value : Program κ ι σ ε α) :=
  fun _ hstate => Ends.pure hstate

theorem keeps_raise (error : ε) : Keeps schedule invariant (raise error : Program κ ι σ ε α) :=
  fun _ hstate => Ends.raise hstate

theorem keeps_bind (hfirst : Keeps schedule invariant first)
    (hnext : ∀ value, Keeps schedule invariant (next value)) :
    Keeps schedule invariant (first >>= next) := fun state hstate =>
  Ends.bind (fun _ => invariant) (hfirst state hstate)
    (fun value after hafter => hnext value after hafter) fun _ _ herror => herror

theorem keeps_handle (hbody : Keeps schedule invariant body)
    (hhandler : ∀ error, Keeps schedule invariant (handler error)) :
    Keeps schedule invariant (handle body handler) := fun state hstate =>
  Ends.handle (fun _ => invariant) (hbody state hstate) (fun _ _ hvalue => hvalue)
    fun error after hafter => hhandler error after hafter

theorem keeps_inspect [Shared κ σ] (hreach : ∀ site state, invariant state →
      invariant (reach (schedule site) state)) (site : ι) (error : ε) (view : σ → Option α) :
    Keeps schedule invariant (inspect site error view) := fun state hstate =>
  Ends.inspect (fun _ _ _ => hreach _ state hstate) (fun _ _ => hreach _ state hstate)
    (fun _ => hreach _ state hstate) fun _ => hreach _ state hstate

theorem keeps_update [Shared κ σ] (hreach : ∀ site state, invariant state →
      invariant (reach (schedule site) state)) (site : ι) (error : ε)
    (heffect : ∀ state after, invariant state → effect state = some after → invariant after) :
    Keeps schedule invariant (update site error effect) := fun state hstate =>
  Ends.update (fun _ after hafter => heffect _ after (hreach _ state hstate) hafter)
    (fun _ _ => hreach _ state hstate) (fun _ => hreach _ state hstate)
    fun _ => hreach _ state hstate

end Keeps

section Honest

/-- A program that stops only where its schedule says so. -/
def Honest (program : Program κ ι σ ε α) : Prop :=
  ∀ schedule state site after, program schedule state = .stopped site after →
    (schedule site).fault = .stops

theorem Honest.ends (hhonest : Honest program) (schedule : ι → Turn κ) (state : σ) :
    Ends schedule program state (fun _ _ => True) fun site _ => (schedule site).fault = .stops := by
  unfold Ends
  cases hcase : program schedule state with
  | returned result after => trivial
  | stopped site after => exact hhonest schedule state site after hcase

theorem honest_of_ends
    (hends : ∀ (schedule : ι → Turn κ) state, Ends schedule program state (fun _ _ => True)
      fun site _ => (schedule site).fault = .stops) : Honest program := by
  intro schedule state site after hstopped
  have hstops := hends schedule state
  unfold Ends at hstops
  rwa [hstopped] at hstops

theorem honest_pure (value : α) : Honest (pure value : Program κ ι σ ε α) :=
  honest_of_ends fun _ _ => Ends.pure trivial

theorem honest_raise (error : ε) : Honest (raise error : Program κ ι σ ε α) :=
  honest_of_ends fun _ _ => Ends.raise trivial

theorem honest_observe [Shared κ σ] (view : σ → α) :
    Honest (observe view : Program κ ι σ ε α) :=
  honest_of_ends fun _ _ => Ends.observe trivial

theorem honest_bind
    (hfirst : Honest first) (hnext : ∀ value, Honest (next value)) : Honest (first >>= next) :=
  honest_of_ends fun schedule state =>
    Ends.bind _ (hfirst.ends schedule state) (fun value after _ => (hnext value).ends schedule after)
      fun _ _ _ => trivial

theorem honest_handle (hbody : Honest body) (hhandler : ∀ error, Honest (handler error)) :
    Honest (handle body handler) :=
  honest_of_ends fun schedule state =>
    Ends.handle _ (hbody.ends schedule state) (fun _ _ _ => trivial)
      fun error after _ => (hhandler error).ends schedule after

theorem honest_perform [Shared κ σ] (site : ι) (error : ε) (effect : σ → Option (α × σ)) :
    Honest (perform site error effect) :=
  honest_of_ends fun _ _ =>
    Ends.perform (fun _ _ _ _ => trivial) (fun _ _ => trivial) (fun _ => trivial) id

theorem honest_inspect [Shared κ σ] (site : ι) (error : ε) (view : σ → Option α) :
    Honest (inspect site error view) := honest_perform _ _ _

theorem honest_update [Shared κ σ] (site : ι) (error : ε) (effect : σ → Option σ) :
    Honest (update site error effect) := honest_perform _ _ _

theorem Ends.returns (hhonest : Honest program)
    (hfaultless : Faultless schedule) (hends : Ends schedule program state post stop) :
    ∃ result after, program schedule state = .returned result after ∧ post result after := by
  unfold Ends at hends
  cases hcase : program schedule state with
  | returned result after =>
    rw [hcase] at hends
    exact ⟨result, after, rfl, hends⟩
  | stopped site after =>
    have hstops := hhonest schedule state site after hcase
    exact nomatch hstops.symm.trans (hfaultless site)

end Honest

end Program

end Pallium.Interrupted
