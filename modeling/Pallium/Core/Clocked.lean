import Mathlib

/-!
# Programs that read a changing store

A program reads, one read after the other, what the store holds at that moment.  The
clock counts the reads, a read may raise, and an exception that is caught does not turn
the clock back.  A program ensures what holds of its result and of the clock whenever it
returns, and yields it if it also never raises.
-/

namespace Pallium

/-- A program whose reads are numbered. -/
abbrev Clocked (α : Type) : Type := OptionT (StateM ℕ) α

namespace Clocked

variable {α β : Type}

/-- The outcome and the clock afterwards. -/
def runAt (program : Clocked α) (clock : ℕ) : Option α × ℕ := (OptionT.run program).run clock

/-- A read is answered by the store of its moment. -/
def readAt (answer : ℕ → Option α) : Clocked α := OptionT.mk fun clock => (answer clock, clock + 1)

theorem runAt_bind (program : Clocked α) (next : α → Clocked β) (clock : ℕ) :
    runAt (program >>= next) clock =
      match runAt program clock with
      | (some value, later) => runAt (next value) later
      | (none, later) => (none, later) := by
  rcases hrun : runAt program clock with ⟨outcome, later⟩
  rw [runAt, OptionT.run_bind, Option.elimM, StateT.run_bind]
  have hanswer : StateT.run (OptionT.run program) clock = (outcome, later) := hrun
  rw [hanswer]
  cases outcome with
  | none => rfl
  | some value => rfl

theorem runAt_bind_some {program : Clocked α} {clock later : ℕ} {value : α}
    (hrun : runAt program clock = (some value, later)) (next : α → Clocked β) :
    runAt (program >>= next) clock = runAt (next value) later := by
  rw [runAt_bind, hrun]

theorem runAt_tryCatch (program : Clocked α) (handler : Unit → Clocked α) (clock : ℕ) :
    runAt (tryCatchThe Unit program handler) clock =
      match runAt program clock with
      | (some value, later) => (some value, later)
      | (none, later) => runAt (handler ()) later := by
  rcases hrun : runAt program clock with ⟨outcome, later⟩
  change StateT.run (OptionT.tryCatch program handler : StateM ℕ (Option α)) clock = _
  rw [OptionT.tryCatch, OptionT.mk, StateT.run_bind]
  have hanswer : StateT.run (program : StateM ℕ (Option α)) clock = (outcome, later) := hrun
  rw [hanswer]
  cases outcome with
  | none => rfl
  | some value => rfl

section Forward

/-- The clock goes on, whether the program returns or raises. -/
def Forward (program : Clocked α) : Prop := ∀ clock, clock ≤ (runAt program clock).2

variable {program : Clocked α} {next : α → Clocked β}

theorem forward_pure (value : α) : Forward (pure value : Clocked α) := fun clock => le_refl clock

theorem forward_readAt (answer : ℕ → Option α) : Forward (readAt answer) :=
  fun clock => Nat.le_succ clock

theorem forward_throw : Forward (throwThe Unit () : Clocked α) := fun clock => le_refl clock

theorem Forward.bind (hprogram : Forward program) (hnext : ∀ value, Forward (next value)) :
    Forward (program >>= next) := by
  intro clock
  have hfirst := hprogram clock
  rw [runAt_bind]
  rcases hrun : runAt program clock with ⟨outcome, later⟩
  rw [hrun] at hfirst
  cases outcome with
  | none => exact hfirst
  | some value => exact Nat.le_trans hfirst (hnext value later)

end Forward

section Ensures

/-- Whenever the program returns, its result and the clock have a property. -/
def Ensures (program : Clocked α) (property : α → ℕ → Prop) : Prop :=
  ∀ clock value later, runAt program clock = (some value, later) → property value later

variable {program : Clocked α} {next : α → Clocked β} {property : β → ℕ → Prop}

theorem ensures_bind (hnext : ∀ value, Ensures (next value) property) :
    Ensures (program >>= next) property := by
  intro clock result later hrun
  rw [runAt_bind] at hrun
  rcases hfirst : runAt program clock with ⟨outcome, middle⟩
  rw [hfirst] at hrun
  cases outcome with
  | none => cases congrArg Prod.fst hrun
  | some value => exact hnext value middle result later hrun

theorem ensures_pure {value : β} (hvalue : ∀ clock, property value clock) :
    Ensures (pure value : Clocked β) property := by
  intro clock result later hrun
  obtain ⟨hsame, rfl⟩ := Prod.mk.inj hrun
  rw [← Option.some.inj hsame]
  exact hvalue clock

end Ensures

section Yields

/-- From a moment on the program never raises, the clock goes on, and the result and the
clock have a property. -/
def Yields (start : ℕ) (program : Clocked α) (property : α → ℕ → Prop) : Prop :=
  ∀ clock, start ≤ clock →
    ∃ value later, runAt program clock = (some value, later) ∧ clock ≤ later ∧
      property value later

/-- From a moment on the program never raises. -/
def Succeeds (start : ℕ) (program : Clocked α) : Prop := Yields start program fun _ _ => True

variable {start : ℕ} {program : Clocked α} {property : α → ℕ → Prop} {next : α → Clocked β}
  {wanted : β → ℕ → Prop}

theorem yields_pure {value : α} (hvalue : ∀ clock, start ≤ clock → property value clock) :
    Yields start (pure value : Clocked α) property :=
  fun clock hclock => ⟨value, clock, rfl, le_refl clock, hvalue clock hclock⟩

theorem yields_readAt {answer : ℕ → Option α}
    (hanswer : ∀ clock, start ≤ clock →
      ∃ value, answer clock = some value ∧ property value (clock + 1)) :
    Yields start (readAt answer) property := by
  intro clock hclock
  obtain ⟨value, hread, hvalue⟩ := hanswer clock hclock
  exact ⟨value, clock + 1, Prod.ext hread rfl, Nat.le_succ clock, hvalue⟩

theorem Yields.later (hprogram : Yields start program property) {later : ℕ}
    (hlater : start ≤ later) : Yields later program property :=
  fun clock hclock => hprogram clock (Nat.le_trans hlater hclock)

theorem Yields.bind (hprogram : Yields start program property)
    (hnext : ∀ value middle, start ≤ middle → property value middle →
      Yields middle (next value) wanted) : Yields start (program >>= next) wanted := by
  intro clock hclock
  obtain ⟨value, middle, hrun, hmiddle, hvalue⟩ := hprogram clock hclock
  obtain ⟨result, later, hrest, hlater, hresult⟩ :=
    hnext value middle (Nat.le_trans hclock hmiddle) hvalue middle (le_refl middle)
  rw [runAt_bind_some hrun]
  exact ⟨result, later, hrest, Nat.le_trans hmiddle hlater, hresult⟩

theorem yields_tryCatch {handler : Unit → Clocked α} (hforward : Forward program)
    (hensures : Ensures program property) (hhandler : Yields start (handler ()) property) :
    Yields start (tryCatchThe Unit program handler) property := by
  intro clock hclock
  have hmiddle := hforward clock
  rw [runAt_tryCatch]
  rcases hrun : runAt program clock with ⟨outcome, middle⟩
  rw [hrun] at hmiddle
  cases outcome with
  | some value => exact ⟨value, middle, rfl, hmiddle, hensures clock value middle hrun⟩
  | none =>
    obtain ⟨value, later, hrest, hlater, hvalue⟩ := hhandler middle (Nat.le_trans hclock hmiddle)
    exact ⟨value, later, hrest, Nat.le_trans hmiddle hlater, hvalue⟩

theorem succeeds_pure (value : α) : Succeeds start (pure value : Clocked α) :=
  yields_pure fun _ _ => trivial

theorem succeeds_readAt {answer : ℕ → Option α}
    (hanswer : ∀ clock, start ≤ clock → (answer clock).isSome) : Succeeds start (readAt answer) := by
  apply yields_readAt
  intro clock hclock
  obtain ⟨value, hvalue⟩ := Option.isSome_iff_exists.mp (hanswer clock hclock)
  exact ⟨value, hvalue, trivial⟩

theorem Succeeds.bind (hprogram : Succeeds start program)
    (hnext : ∀ value, Yields start (next value) wanted) : Yields start (program >>= next) wanted :=
  Yields.bind hprogram fun value _ hmiddle _ => (hnext value).later hmiddle

theorem succeeds_tryCatch {handler : Unit → Clocked α} (hforward : Forward program)
    (hhandler : Succeeds start (handler ())) :
    Succeeds start (tryCatchThe Unit program handler) :=
  yields_tryCatch hforward (fun _ _ _ _ => trivial) hhandler

end Yields

section Raising

variable {program : Clocked α} {clock : ℕ}

theorem raises_bind (hraises : (runAt program clock).1 = none) (next : α → Clocked β) :
    (runAt (program >>= next) clock).1 = none := by
  rw [runAt_bind]
  rcases hrun : runAt program clock with ⟨outcome, later⟩
  rw [hrun] at hraises
  cases outcome with
  | none => rfl
  | some value => cases hraises

end Raising

end Clocked

end Pallium
