import Pallium.Access.Visibility

/-!
# Query filters

The fields by which a query narrows down what it retrieves.  A public or global row
is found from any container.
-/

namespace Pallium.Access

structure QueryFilters where
  sourceType : Option String
  role : Option String
  artifactKind : Option String
  containerRef : Option String
  threadRef : Option String
  actorRef : Option String
  workRefs : List String
  relayName : Option String
  deriving DecidableEq, Repr

def agrees (filter field : Option String) : Bool := filter.isNone || field == filter

/-- Whether the row counts as found from the container that is asked for. -/
def reachesContainer (filter : Option String) (visibility : Option Visibility)
    (containerRef : Option String) : Bool :=
  filter.isNone || visibility == some .pub || visibility == some .global || containerRef == filter

@[simp]
theorem agrees_none (field : Option String) : agrees none field := rfl

theorem agrees_iff {filter field : Option String} :
    agrees filter field ↔ ∀ value, filter = some value → field = some value := by
  cases filter with
  | none => exact iff_of_true rfl nofun
  | some wanted => simp [agrees]

section Visible

variable {visibility : Visibility} {containerRef queryContainerRef candidateActorRef
  otherActorRef queryActorRef : Option String} {queryVisibility : Option Visibility}

section

variable (hvisible : isVisible (some visibility) containerRef queryContainerRef candidateActorRef
    queryVisibility queryActorRef = true)
include hvisible

theorem reachesContainer_of_isVisible :
    reachesContainer queryContainerRef (some visibility) containerRef = true := by
  cases queryContainerRef with
  | none => rfl
  | some wanted =>
    cases visibility with
    | pub => rfl
    | global => rfl
    | container =>
      have hsame : containerRef = some wanted := by
        rcases queryVisibility with - | - | - | - | - <;> simp_all [isVisible]
      simp [reachesContainer, hsame]
    | priv =>
      have hsame : containerRef = some wanted := by
        rcases queryVisibility with - | - | - | - | - <;> simp_all [isVisible]
      simp [reachesContainer, hsame]

/-- Another row of the same scope is visible too, if its actor is the requester's
where the scope follows the actor, and only such scopes have actors. -/
theorem isVisible_of_actor
    (hpersonal : otherActorRef ≠ none → visibility = .priv ∨ visibility = .global)
    (hglobal : visibility = .global → otherActorRef = queryActorRef) :
    isVisible (some visibility) containerRef queryContainerRef otherActorRef queryVisibility
      queryActorRef = true := by
  cases visibility with
  | global =>
    simp only [isVisible, if_true, Bool.and_eq_true, beq_iff_eq] at hvisible ⊢
    rw [hglobal rfl]
    exact ⟨⟨hvisible.1.2, hvisible.1.2⟩, rfl⟩
  | priv =>
    simp only [isVisible] at hvisible ⊢
    exact hvisible
  | container =>
    simp only [isVisible] at hvisible ⊢
    exact hvisible
  | pub =>
    have hshared : otherActorRef = none := by
      by_contra hactor
      rcases hpersonal hactor with hvisibility | hvisibility <;> cases hvisibility
    rcases queryVisibility with - | - | - | - | - <;> simp [isVisible, hshared]

end

theorem isVisible_global
    (hvisible : isVisible (some .global) containerRef queryContainerRef candidateActorRef
      queryVisibility queryActorRef = true) : candidateActorRef = queryActorRef := by
  simp only [isVisible, if_true, Bool.and_eq_true, beq_iff_eq] at hvisible
  exact hvisible.2

end Visible

end Pallium.Access
