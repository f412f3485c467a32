import Pallium.Core.Faults
import Pallium.Core.Run

/-!
# Programs that call a shared store

A program calls a store request by request and goes on with the answer, or with
the failure of the call.  Alone, it runs from call to call under given faults.
Together with other programs and with acts of the environment, its calls are
interleaved with theirs; `Safe` says that a program makes only allowed requests
whatever stable changes the others make in between, and programs that are safe
keep an invariant of the store together.
-/

namespace Pallium.Calls

open Pallium.Faults Pallium.Run

variable {Request : Type} {Answer : Request → Type} {σ α ε : Type}

/-- A program that ends with a value, or calls the store; a call that fails has no
answer. -/
inductive Program (Answer : Request → Type) (α : Type) : Type
  | done (value : α)
  | call (request : Request) (next : Option (Answer request) → Program Answer α)

/-- Call the store and end with `failure` if the call fails. -/
def ask (failure : α) (request : Request) (next : Answer request → Program Answer α) :
    Program Answer α :=
  .call request fun answered =>
    match answered with
    | none => .done failure
    | some answer => next answer

section Alone

variable (answer : (request : Request) → σ → σ × Answer request)

/-- Run a program under the faults of its calls.  It leaves a store, and a value
unless it stops. -/
def perform : Program Answer α → σ → (ℕ → Fault) → σ × Option α
  | .done value, state, _ => (state, some value)
  | .call request next, state, faults =>
    match faults 0 with
    | .done =>
      perform (next (some (answer request state).2)) (answer request state).1
        fun index => faults (index + 1)
    | .fails => perform (next none) state fun index => faults (index + 1)
    | .stops => (state, none)

end Alone

section Shared

/-- A store and the programs that are under way. -/
structure Shared (Answer : Request → Type) (σ α : Type) where
  state : σ
  programs : List (Program Answer α)

/-- What can happen next: a program begins, its next call is answered or fails, it
stops, or the environment acts. -/
inductive Event (Answer : Request → Type) (α ε : Type)
  | starts (program : Program Answer α)
  | answered (index : ℕ)
  | failed (index : ℕ)
  | stopped (index : ℕ)
  | acted (act : ε)

variable (answer : (request : Request) → σ → σ × Answer request) (effect : ε → σ → σ)

def Shared.step (shared : Shared Answer σ α) : Event Answer α ε → Shared Answer σ α
  | .starts program => { shared with programs := shared.programs ++ [program] }
  | .answered index =>
    match shared.programs[index]? with
    | some (.call request next) =>
      { state := (answer request shared.state).1
        programs := shared.programs.set index (next (some (answer request shared.state).2)) }
    | _ => shared
  | .failed index =>
    match shared.programs[index]? with
    | some (.call _ next) => { shared with programs := shared.programs.set index (next none) }
    | _ => shared
  | .stopped index => { shared with programs := shared.programs.eraseIdx index }
  | .acted act => { shared with state := effect act shared.state }

variable {answer effect} in
/-- What every answer and every act keeps, every event keeps. -/
theorem Shared.step_invariant {invariant : σ → Prop}
    (hanswer : ∀ request state, invariant state → invariant (answer request state).1)
    (heffect : ∀ act state, invariant state → invariant (effect act state))
    {shared : Shared Answer σ α} (hshared : invariant shared.state) (event : Event Answer α ε) :
    invariant (shared.step answer effect event).state := by
  cases event with
  | starts program => exact hshared
  | answered index =>
    unfold Shared.step
    simp only
    split
    · exact hanswer _ _ hshared
    · exact hshared
  | failed index =>
    unfold Shared.step
    simp only
    split
    · exact hshared
    · exact hshared
  | stopped index => exact hshared
  | acted act => exact heffect act _ hshared

variable (invariant : σ → Prop) (stable : σ → σ → Prop) (allowed : Request → σ → Prop)

/-- The program makes only allowed requests, whatever stable changes happen
before each of them. -/
def Safe : Program Answer α → σ → Prop
  | .done _, _ => True
  | .call request next, state => ∀ later, invariant later → stable state later →
      allowed request later ∧ Safe (next none) later ∧
        Safe (next (some (answer request later).2)) (answer request later).1

/-- The invariant holds and every program is safe. -/
structure AllSafe (shared : Shared Answer σ α) : Prop where
  state : invariant shared.state
  programs : ∀ program ∈ shared.programs,
    Safe answer invariant stable allowed program shared.state

variable {answer effect invariant stable allowed}

theorem Safe.ask {failure : α} {request : Request} {next : Answer request → Program Answer α}
    {state : σ}
    (hnext : ∀ later, invariant later → stable state later → allowed request later ∧
      Safe answer invariant stable allowed (next (answer request later).2)
        (answer request later).1) :
    Safe answer invariant stable allowed (ask failure request next) state :=
  fun later hlater hstable =>
    ⟨(hnext later hlater hstable).1, trivial, (hnext later hlater hstable).2⟩

/-- A safe program stays safe through stable changes. -/
theorem Safe.of_stable
    (htrans : ∀ first second third, stable first second → stable second third →
      stable first third)
    {program : Program Answer α} {state later : σ}
    (hsafe : Safe answer invariant stable allowed program state) (hstable : stable state later) :
    Safe answer invariant stable allowed program later := by
  cases program with
  | done value => trivial
  | call request next =>
    intro latest hlatest hnext
    exact hsafe latest hlatest (htrans _ _ _ hstable hnext)

/-- Every event keeps the invariant, keeps all programs safe and changes the store
in a stable way. -/
theorem AllSafe.step
    (hrefl : ∀ state, stable state state)
    (htrans : ∀ first second third, stable first second → stable second third →
      stable first third)
    (hallowed : ∀ request state, invariant state → allowed request state →
      invariant (answer request state).1 ∧ stable state (answer request state).1)
    (heffect : ∀ act state, invariant state →
      invariant (effect act state) ∧ stable state (effect act state))
    {shared : Shared Answer σ α} (hshared : AllSafe answer invariant stable allowed shared)
    {event : Event Answer α ε}
    (hstarts : ∀ program, event = .starts program → ∀ state, invariant state →
      Safe answer invariant stable allowed program state) :
    AllSafe answer invariant stable allowed (shared.step answer effect event) ∧
      stable shared.state (shared.step answer effect event).state := by
  cases event with
  | starts program =>
    refine ⟨⟨hshared.state, fun other hmem => ?_⟩, hrefl _⟩
    rcases List.mem_append.mp hmem with hold | hnew
    · exact hshared.programs other hold
    · rw [List.mem_singleton.mp hnew]
      exact hstarts program rfl _ hshared.state
  | answered index =>
    unfold Shared.step
    simp only
    split
    · next request next hget =>
        have hcall := hshared.programs _ (List.mem_of_getElem? hget)
        obtain ⟨hrequest, -, hnext⟩ := hcall _ hshared.state (hrefl _)
        obtain ⟨hinvariant, hstable⟩ := hallowed request _ hshared.state hrequest
        refine ⟨⟨hinvariant, fun other hmem => ?_⟩, hstable⟩
        rcases List.mem_or_eq_of_mem_set hmem with hold | rfl
        · exact (hshared.programs other hold).of_stable htrans hstable
        · exact hnext
    · exact ⟨hshared, hrefl _⟩
  | failed index =>
    unfold Shared.step
    simp only
    split
    · next request next hget =>
        have hcall := hshared.programs _ (List.mem_of_getElem? hget)
        obtain ⟨-, hfailed, -⟩ := hcall _ hshared.state (hrefl _)
        refine ⟨⟨hshared.state, fun other hmem => ?_⟩, hrefl _⟩
        rcases List.mem_or_eq_of_mem_set hmem with hold | rfl
        · exact hshared.programs other hold
        · exact hfailed
    · exact ⟨hshared, hrefl _⟩
  | stopped index =>
    refine ⟨⟨hshared.state, fun other hmem => ?_⟩, hrefl _⟩
    exact hshared.programs other (List.mem_of_mem_eraseIdx hmem)
  | acted act =>
    obtain ⟨hinvariant, hstable⟩ := heffect act _ hshared.state
    refine ⟨⟨hinvariant, fun other hmem => ?_⟩, hstable⟩
    exact (hshared.programs other hmem).of_stable htrans hstable

end Shared

section Performances

variable {answer : (request : Request) → σ → σ × Answer request} {state : σ} {faults : ℕ → Fault}

/-- Every call of this kind that the program makes is answered. -/
def Answered (answer : (request : Request) → σ → σ × Answer request) (kind : Request → Prop) :
    Program Answer α → σ → (ℕ → Fault) → Prop
  | .done _, _, _ => True
  | .call request next, state, faults =>
    (kind request → faults 0 = .done) ∧
      match faults 0 with
      | .done =>
        Answered answer kind (next (some (answer request state).2)) (answer request state).1
          fun index => faults (index + 1)
      | .fails => Answered answer kind (next none) state fun index => faults (index + 1)
      | .stops => True

/-- What every answer keeps holds between the start and the end of a program. -/
theorem perform_related {related : σ → σ → Prop} (hrefl : ∀ state, related state state)
    (htrans : ∀ first second third, related first second → related second third →
      related first third)
    (hanswer : ∀ request state, related state (answer request state).1)
    (program : Program Answer α) (state : σ) (faults : ℕ → Fault) :
    related state (perform answer program state faults).1 := by
  induction program generalizing state faults with
  | done value => exact hrefl state
  | call request next ih =>
    unfold perform
    cases faults 0 with
    | done => exact htrans _ _ _ (hanswer request state) (ih _ _ _)
    | fails => exact ih _ _ _
    | stops => exact hrefl state

variable {kind : Request → Prop} {applies : Prop} {post : σ × Option α → Prop}

/-- The program ends as required, if its calls of the kind are answered whenever
the condition applies. -/
def Ends (answer : (request : Request) → σ → σ × Answer request) (kind : Request → Prop)
    (applies : Prop) (post : σ × Option α → Prop) (program : Program Answer α) (state : σ)
    (faults : ℕ → Fault) : Prop :=
  (applies → Answered answer kind program state faults) → post (perform answer program state faults)

theorem Ends.done {value : α} (hpost : post (state, some value)) :
    Ends answer kind applies post (.done value) state faults :=
  fun _ => hpost

/-- A call ends as required if each of its outcomes does. -/
theorem Ends.call {request : Request} {next : Option (Answer request) → Program Answer α}
    (hanswered : faults 0 = .done → Ends answer kind applies post
      (next (some (answer request state).2)) (answer request state).1
        fun index => faults (index + 1))
    (hfailed : ¬ (applies ∧ kind request) → Ends answer kind applies post (next none) state
      fun index => faults (index + 1))
    (hstopped : ¬ (applies ∧ kind request) → post (state, none)) :
    Ends answer kind applies post (.call request next) state faults := by
  intro hall
  have hkind : faults 0 ≠ .done → ¬ (applies ∧ kind request) :=
    fun hfault hboth => hfault ((hall hboth.1).1 hboth.2)
  unfold perform
  cases hfault : faults 0 with
  | done =>
    apply hanswered hfault
    intro happlies
    have hrest := (hall happlies).2
    rw [hfault] at hrest
    exact hrest
  | fails =>
    apply hfailed (hkind (by rw [hfault]; exact nofun))
    intro happlies
    have hrest := (hall happlies).2
    rw [hfault] at hrest
    exact hrest
  | stops => exact hstopped (hkind (by rw [hfault]; exact nofun))

/-- A call whose failure ends the program. -/
theorem Ends.ask {failure : α} {request : Request} {next : Answer request → Program Answer α}
    (hnext : Ends answer kind applies post (next (answer request state).2)
      (answer request state).1 fun index => faults (index + 1))
    (hfailed : ¬ (applies ∧ kind request) → post (state, some failure))
    (hstopped : ¬ (applies ∧ kind request) → post (state, none)) :
    Ends answer kind applies post (ask failure request next) state faults :=
  Ends.call (fun _ => hnext) (fun hnot => Ends.done (hfailed hnot)) hstopped

end Performances

end Pallium.Calls
