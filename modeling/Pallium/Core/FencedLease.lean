import Mathlib

/-!
# Fenced leases

An item is leased to one claimer at a time.  A claim installs a token and holds
until its lease runs out or somebody finishes the item with the token; a later
claim is possible only after the lease.  Whatever the order of the events, the
terms of any two claims are disjoint, only the latest claim can finish the item,
and that happens at most once.  Clocks need not increase: only the readings at
which claims are made and finished are compared with leases.
-/

namespace Pallium.FencedLease

/-- A claim with its token and its lease. -/
structure Claim (τ T : Type*) where
  token : τ
  claimedAt : T
  leaseExpiresAt : T
  deriving DecidableEq, Repr

/-- The time in which the claim is in force. -/
def Claim.term {τ T : Type*} [Preorder T] (claim : Claim τ T) : Set T :=
  Set.Ico claim.claimedAt claim.leaseExpiresAt

inductive Event (τ T : Type*)
  | claim (claim : Claim τ T)
  | finish (token : τ) (instant : T)
  | abandon
  deriving DecidableEq, Repr

def Event.claimOf {τ T : Type*} : Event τ T → Option (Claim τ T)
  | .claim made => some made
  | .finish _ _ => none
  | .abandon => none

def Event.finishOf {τ T : Type*} : Event τ T → Option (τ × T)
  | .claim _ => none
  | .finish token instant => some (token, instant)
  | .abandon => none

/-- A leased item: its claims, the latest first, and whether it is closed. -/
structure Lease (τ T : Type*) where
  claims : List (Claim τ T)
  closed : Bool
  deriving DecidableEq, Repr

/-- An item nobody has claimed. -/
def Lease.unclaimed {τ T : Type*} : Lease τ T := ⟨[], false⟩

variable {τ T : Type*} [LinearOrder T]

/-- What may happen to an open item. -/
inductive Step : Lease τ T → Event τ T → Lease τ T → Prop
  | claim {claims : List (Claim τ T)} {claim : Claim τ T}
      (hfree : ∀ latest ∈ claims.head?, latest.leaseExpiresAt ≤ claim.claimedAt)
      (hterm : claim.claimedAt ≤ claim.leaseExpiresAt) :
      Step ⟨claims, false⟩ (.claim claim) ⟨claim :: claims, false⟩
  | finish {claims : List (Claim τ T)} {latest : Claim τ T} {instant : T}
      (hlatest : claims.head? = some latest) (hlive : instant < latest.leaseExpiresAt) :
      Step ⟨claims, false⟩ (.finish latest.token instant) ⟨claims, true⟩
  | abandon {claims : List (Claim τ T)} : Step ⟨claims, false⟩ .abandon ⟨claims, true⟩

/-- A sequence of events. -/
inductive Steps : Lease τ T → List (Event τ T) → Lease τ T → Prop
  | nil (lease : Lease τ T) : Steps lease [] lease
  | cons {lease middle final : Lease τ T} {event : Event τ T} {events : List (Event τ T)}
      (hstep : Step lease event middle) (hsteps : Steps middle events final) :
      Steps lease (event :: events) final

theorem Steps.append {lease middle final : Lease τ T} {first second : List (Event τ T)}
    (hfirst : Steps lease first middle) (hsecond : Steps middle second final) :
    Steps lease (first ++ second) final := by
  induction hfirst with
  | nil => exact hsecond
  | cons hstep _ ih => exact .cons hstep (ih hsecond)

/-- An open or closed item whose claims follow one another. -/
structure Lease.Ordered (lease : Lease τ T) : Prop where
  terms : ∀ claim ∈ lease.claims, claim.claimedAt ≤ claim.leaseExpiresAt
  successive : lease.claims.Pairwise fun later earlier =>
    earlier.leaseExpiresAt ≤ later.claimedAt

theorem Lease.Ordered.unclaimed : (Lease.unclaimed : Lease τ T).Ordered :=
  ⟨nofun, List.Pairwise.nil⟩

theorem Lease.Ordered.le_latest {latest claim : Claim τ T} {rest : List (Claim τ T)}
    {closed : Bool} (hordered : (⟨latest :: rest, closed⟩ : Lease τ T).Ordered)
    (hclaim : claim ∈ latest :: rest) : claim.leaseExpiresAt ≤ latest.leaseExpiresAt := by
  rcases List.mem_cons.mp hclaim with rfl | hrest
  · exact le_rfl
  · have hbefore := (List.pairwise_cons.mp hordered.successive).1 claim hrest
    exact hbefore.trans (hordered.terms latest List.mem_cons_self)

theorem Step.ordered {lease after : Lease τ T} {event : Event τ T}
    (hstep : Step lease event after) (hordered : lease.Ordered) : after.Ordered := by
  cases hstep with
  | @claim claims claim hfree hterm =>
    refine ⟨fun other hother => ?_, List.pairwise_cons.mpr ⟨fun earlier hearlier => ?_,
      hordered.successive⟩⟩
    · rcases List.mem_cons.mp hother with rfl | hrest
      · exact hterm
      · exact hordered.terms other hrest
    · cases claims with
      | nil => cases hearlier
      | cons latest rest => exact (hordered.le_latest hearlier).trans (hfree latest rfl)
  | finish => exact ⟨hordered.terms, hordered.successive⟩
  | abandon => exact ⟨hordered.terms, hordered.successive⟩

theorem Step.claims {lease after : Lease τ T} {event : Event τ T}
    (hstep : Step lease event after) :
    after.claims = event.claimOf.toList ++ lease.claims := by
  cases hstep <;> rfl

variable {events : List (Event τ T)} {lease final : Lease τ T}

theorem Steps.claims (hsteps : Steps lease events final) :
    final.claims = (events.filterMap Event.claimOf).reverse ++ lease.claims := by
  induction hsteps with
  | nil => rfl
  | @cons lease middle final event events hstep _ ih =>
    rw [ih, hstep.claims]
    cases hclaim : event.claimOf with
    | none => rw [List.filterMap_cons_none hclaim]; rfl
    | some claim => rw [List.filterMap_cons_some hclaim]; simp

theorem Steps.ordered
    (hsteps : Steps lease events final) (hordered : lease.Ordered) : final.Ordered := by
  induction hsteps with
  | nil => exact hordered
  | cons hstep _ ih => exact ih (hstep.ordered hordered)

theorem Steps.terms_disjoint {final : Lease τ T}
    (hsteps : Steps Lease.unclaimed events final) :
    (events.filterMap Event.claimOf).Pairwise fun earlier later =>
      Disjoint earlier.term later.term := by
  have hsuccessive := (hsteps.ordered Lease.Ordered.unclaimed).successive
  rw [hsteps.claims, Lease.unclaimed, List.append_nil, List.pairwise_reverse] at hsuccessive
  refine hsuccessive.imp fun {earlier later} hbefore => ?_
  rw [Claim.term, Claim.term, Set.disjoint_left]
  intro instant hearlier hlater
  exact absurd (hbefore.trans hlater.1) (not_le.mpr hearlier.2)

theorem Steps.of_closed
    (hsteps : Steps lease events final) (hclosed : lease.closed = true) : events = [] := by
  cases hsteps with
  | nil => rfl
  | cons hstep => cases hstep <;> cases hclosed

theorem Steps.finish_once
    (hsteps : Steps lease events final) : (events.filterMap Event.finishOf).length ≤ 1 := by
  induction hsteps with
  | nil => exact Nat.zero_le 1
  | cons hstep hrest ih =>
    cases hstep with
    | claim => exact ih
    | finish =>
      rw [hrest.of_closed rfl]
      exact le_rfl
    | abandon =>
      rw [hrest.of_closed rfl]
      exact Nat.zero_le 1

end Pallium.FencedLease
