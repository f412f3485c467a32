import Pallium.CodexWake.Recovery

/-!
# The two registries of Codex wakes

`CodexWakeRegistry` keeps its fences in memory or delegates to the persisted
authority.  Both are driven here by the same calls; where a method checks its
arguments before it chooses between the two, the check is one definition.
-/

namespace Pallium.CodexWake

open Pallium.Calendar Pallium.Relay Pallium.Run Pallium.Transaction

/-- The calls of the registry with the clock readings that they take and what the
callback `still_pending` returns. -/
inductive RegistryCall
  | reserve (endpointId deliveryId sessionRef containerRef : String)
      (stillPending : Option Bool) (now : ℤ)
  | correlateClaim (endpointId deliveryId sessionRef containerRef : String)
      (attempts expectedGeneration : ℤ)
  | releaseDelivery (deliveryId : String)
  | releaseGenerations (reservations : List CodexWakeReservation)
  | recordOutcome (reservation : CodexWakeReservation) (outcome : WakeOutcome)
  | beginNativeAttempt (reservation : CodexWakeReservation) (now later : ℤ)
  | replaceGeneration (reservation : CodexWakeReservation) (sessionRef containerRef : String)
  deriving DecidableEq, Repr

section Checks

variable (reservations : Table CodexWakeReservation)

/-- The fence whose outcome `record_outcome` may record. -/
def outcomeFence (reservation : CodexWakeReservation) (outcome : WakeOutcome) :
    Option CodexWakeReservation :=
  if outcome ≠ .accepted ∧ outcome ≠ .uncertain then none
  else
    (reservations.get reservation.recipientEndpointId).filter fun current =>
      current.deliveryId == reservation.deliveryId &&
        current.generation == reservation.generation &&
        current.sessionRef == reservation.sessionRef &&
        current.containerRef == reservation.containerRef &&
        if outcome = .accepted then
          current.outcome == .uncertain && reservation.outcome == .uncertain
        else current == reservation

/-- Whether `begin_native_attempt` finds the fence unspent and current. -/
def beginnable (reservation : CodexWakeReservation) : Bool :=
  reservation.outcome == .prepared && reservation.correlatedClaimAttempts.isNone &&
    reservations.get reservation.recipientEndpointId == some reservation

/-- Whether `replace_generation` finds a valid scope and the fence current. -/
def replaceable (printable : Char → Bool) (reservation : CodexWakeReservation)
    (sessionRef containerRef : String) : Bool :=
  validScope printable reservation.recipientEndpointId reservation.deliveryId sessionRef
      containerRef &&
    reservations.get reservation.recipientEndpointId == some reservation

end Checks

/-- The first checks of `correlate_claim`. -/
def claimValid (printable : Char → Bool) (endpointId deliveryId sessionRef containerRef : String)
    (attempts expectedGeneration : ℤ) : Bool :=
  validScope printable endpointId deliveryId sessionRef containerRef && decide (1 ≤ attempts) &&
    decide (1 ≤ expectedGeneration)

/-- A registry in memory. -/
structure EphemeralRegistry where
  reservations : Table CodexWakeReservation
  generation : ℤ
  deriving DecidableEq

namespace EphemeralRegistry

def empty : EphemeralRegistry := ⟨Table.empty, 0⟩

variable (printable : Char → Bool) (registry : EphemeralRegistry)

/-- Refuse the call. -/
def refuse : EphemeralRegistry × Bool := (registry, false)

def write (item : CodexWakeReservation) : EphemeralRegistry × Bool :=
  ({ registry with reservations := registry.reservations.set item }, true)

def reserve (endpointId deliveryId sessionRef containerRef : String)
    (stillPending : Option Bool) : EphemeralRegistry × Bool :=
  if !validScope printable endpointId deliveryId sessionRef containerRef then registry.refuse
  else if (registry.reservations.get endpointId).isSome then registry.refuse
  else if registry.reservations.rows.any fun item => item.deliveryId == deliveryId then
    registry.refuse
  else if maxReservations ≤ registry.reservations.rows.length then registry.refuse
  else if stillPending = some false then registry.refuse
  else
    let generation := registry.generation + 1
    ({ generation := generation
       reservations := registry.reservations.set
        ⟨endpointId, deliveryId, sessionRef, containerRef, generation, .prepared, none, none⟩ },
      true)

def correlateClaim (endpointId deliveryId sessionRef containerRef : String)
    (attempts expectedGeneration : ℤ) : EphemeralRegistry × Bool :=
  if !claimValid printable endpointId deliveryId sessionRef containerRef attempts
      expectedGeneration then registry.refuse
  else
    match registry.reservations.get endpointId with
    | none => registry.refuse
    | some current =>
      if current.deliveryId ≠ deliveryId ∨ current.sessionRef ≠ sessionRef ∨
          current.containerRef ≠ containerRef ∨ current.generation ≠ expectedGeneration ∨
          (current.correlatedClaimAttempts.isSome ∧
            current.correlatedClaimAttempts ≠ some attempts) then registry.refuse
      else registry.write { current with correlatedClaimAttempts := some attempts }

def releaseDelivery (deliveryId : String) : EphemeralRegistry × Bool :=
  match registry.reservations.rows.find? fun item => item.deliveryId == deliveryId with
  | none => registry.refuse
  | some item =>
    ({ registry with reservations := registry.reservations.erase item.recipientEndpointId },
      true)

def releaseGenerations (reservations : List CodexWakeReservation) : EphemeralRegistry × Bool :=
  let current := reservations.filter fun item =>
    registry.reservations.get item.recipientEndpointId == some item
  if current.isEmpty then registry.refuse
  else
    ({ registry with
        reservations := registry.reservations.eraseAll fun item =>
          (current.map CodexWakeReservation.recipientEndpointId).contains
            item.recipientEndpointId },
      true)

def recordOutcome (reservation : CodexWakeReservation) (outcome : WakeOutcome) :
    EphemeralRegistry × Bool :=
  match outcomeFence registry.reservations reservation outcome with
  | none => registry.refuse
  | some current => registry.write { current with outcome := outcome }

def beginNativeAttempt (reservation : CodexWakeReservation) (now : ℤ) :
    EphemeralRegistry × Bool :=
  if beginnable registry.reservations reservation then
    registry.write
      { reservation with outcome := .uncertain, retryNotBefore := some (now + wakeRetryCooldown) }
  else registry.refuse

def replaceGeneration (reservation : CodexWakeReservation) (sessionRef containerRef : String) :
    EphemeralRegistry × Bool :=
  if replaceable registry.reservations printable reservation sessionRef containerRef then
    let generation := registry.generation + 1
    ({ generation := generation
       reservations := registry.reservations.set
        { reservation with
          sessionRef := sessionRef
          containerRef := containerRef
          generation := generation
          outcome := .prepared
          correlatedClaimAttempts := none
          retryNotBefore := none } },
      true)
  else registry.refuse

/-- The registry after a call and whether the call was accepted. -/
def perform : RegistryCall → EphemeralRegistry × Bool
  | .reserve endpointId deliveryId sessionRef containerRef stillPending _ =>
    registry.reserve printable endpointId deliveryId sessionRef containerRef stillPending
  | .correlateClaim endpointId deliveryId sessionRef containerRef attempts expectedGeneration =>
    registry.correlateClaim printable endpointId deliveryId sessionRef containerRef attempts
      expectedGeneration
  | .releaseDelivery deliveryId => registry.releaseDelivery deliveryId
  | .releaseGenerations reservations => registry.releaseGenerations reservations
  | .recordOutcome reservation outcome => registry.recordOutcome reservation outcome
  | .beginNativeAttempt reservation _ later => registry.beginNativeAttempt reservation later
  | .replaceGeneration reservation sessionRef containerRef =>
    registry.replaceGeneration printable reservation sessionRef containerRef

end EphemeralRegistry

section Persistent

variable (printable : Char → Bool) (store : RelayStore) (authority : WakeAuthority)

/-- The fences that `_refresh` reads, where it finds the registry usable. -/
def usableReservations : Option (Table CodexWakeReservation) :=
  if authority.accepted printable ∧ authority.marker.isSome then some authority.reservations
  else none

/-- Whether a transition has returned something. -/
def acceptedAnswer : Option WakeAnswer → Bool
  | none => false
  | some (.fences items) => !items.isEmpty
  | some _ => true

/-- Hand a request to the authority; a failure is a refusal. -/
def delegate (request : WakeRequest) : WakeAuthority × Bool :=
  match relayCodexWakeTransition printable store request authority with
  | (after, .ok answer) => (after, acceptedAnswer answer)
  | (after, .error _) => (after, false)

/-- The authority after a call to the registry in front of it and whether the call
was accepted. -/
def persistentPerform : RegistryCall → WakeAuthority × Bool
  | .reserve endpointId deliveryId sessionRef containerRef _ now =>
    if validScope printable endpointId deliveryId sessionRef containerRef then
      delegate printable store authority
        (.reserve endpointId deliveryId sessionRef containerRef now)
    else (authority, false)
  | .correlateClaim endpointId deliveryId sessionRef containerRef attempts expectedGeneration =>
    if claimValid printable endpointId deliveryId sessionRef containerRef attempts
        expectedGeneration ∧ attempts < integerLimit ∧ expectedGeneration < integerLimit then
      delegate printable store authority
        (.correlate endpointId deliveryId sessionRef containerRef attempts expectedGeneration)
    else (authority, false)
  | .releaseDelivery deliveryId => delegate printable store authority (.releaseDelivery deliveryId)
  | .releaseGenerations reservations => delegate printable store authority (.release reservations)
  | .recordOutcome reservation outcome =>
    match (usableReservations printable authority).bind fun reservations =>
      outcomeFence reservations reservation outcome with
    | none => (authority, false)
    | some current => delegate printable store authority (.outcome current outcome)
  | .beginNativeAttempt reservation now later =>
    if (usableReservations printable authority).any fun reservations =>
      beginnable reservations reservation then
      delegate printable store authority (.beginNativeAttempt reservation now later)
    else (authority, false)
  | .replaceGeneration reservation sessionRef containerRef =>
    if (usableReservations printable authority).any fun reservations =>
      replaceable reservations printable reservation sessionRef containerRef then
      delegate printable store authority (.replace reservation sessionRef containerRef)
    else (authority, false)

end Persistent

end Pallium.CodexWake
