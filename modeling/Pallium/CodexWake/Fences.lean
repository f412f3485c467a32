import Pallium.Relay.Operations

/-!
# Fences of Codex wakes

The persisted authority of Codex wakes: a generation marker and at most one fence
for each endpoint.  Every transition first validates all rows, and rewrites, adds
or deletes fences under the state of their deliveries.  Instants are microseconds
since the start of 1970; `str.isprintable` is given by its value on a character.
-/

namespace Pallium.CodexWake

open Pallium.Relay Pallium.Text Pallium.Transaction

inductive WakeOutcome
  | prepared
  | reserved
  | accepted
  | uncertain
  deriving DecidableEq, Repr

structure CodexWakeReservation where
  recipientEndpointId : String
  deliveryId : String
  sessionRef : String
  containerRef : String
  generation : ℤ
  outcome : WakeOutcome
  correlatedClaimAttempts : Option ℤ
  retryNotBefore : Option ℤ
  deriving DecidableEq, Repr

instance : Keyed CodexWakeReservation String := ⟨CodexWakeReservation.recipientEndpointId⟩

/-- The row of `relay_codex_wake_state`, by its generation, and the rows of
`relay_codex_wake_reservations`. -/
structure WakeAuthority where
  marker : Option ℤ
  reservations : Table CodexWakeReservation
  deriving DecidableEq

def WakeAuthority.empty : WakeAuthority := ⟨none, Table.empty⟩

def maxReservations : ℕ := 256

/-- One more than the largest integer of the database. -/
def integerLimit : ℤ := 2 ^ 63

/-- `WAKE_RETRY_COOLDOWN_SECONDS`. -/
def wakeRetryCooldown : ℤ := seconds 60

def retryCooldownElapsed (retryNotBefore : Option ℤ) (now : ℤ) : Bool :=
  retryNotBefore.all fun deadline => deadline ≤ now

section Validation

variable (printable : Char → Bool)

/-- A non-empty printable text of bounded length. -/
def validText (maximum : ℕ) (value : String) : Bool :=
  decide (0 < value.length ∧ value.length ≤ maximum) && value.toList.all printable

/-- `CodexWakeRegistry._valid`. -/
def validScope (endpointId deliveryId sessionRef containerRef : String) : Bool :=
  isHexIdentifier "relay-session-" endpointId && validText printable 128 deliveryId &&
    validText printable 512 sessionRef && validText printable 512 containerRef

/-- `CodexWakeRegistry._valid_item`. -/
def CodexWakeReservation.valid (item : CodexWakeReservation) : Bool :=
  validScope printable item.recipientEndpointId item.deliveryId item.sessionRef
      item.containerRef &&
    decide (1 ≤ item.generation ∧ item.generation < integerLimit) &&
    item.correlatedClaimAttempts.all (fun attempts => 1 ≤ attempts ∧ attempts < integerLimit) &&
    item.retryNotBefore.all fun deadline => 0 ≤ deadline

/-- What `_validate_wake_authority` accepts. -/
def WakeAuthority.accepted (authority : WakeAuthority) : Bool :=
  decide (authority.reservations.rows.length ≤ maxReservations) &&
    match authority.marker with
    | none => authority.reservations.rows.isEmpty
    | some marker =>
      decide (0 ≤ marker ∧ marker < integerLimit) &&
        authority.reservations.rows.all fun item =>
          item.valid printable && decide (item.generation ≤ marker)

end Validation

/-- The session that a wake is for. -/
structure WakeTarget where
  sessionRef : String
  containerRef : String
  deriving DecidableEq, Repr

def CodexWakeReservation.target (item : CodexWakeReservation) : WakeTarget :=
  ⟨item.sessionRef, item.containerRef⟩

/-- The state of a delivery as the transitions see it. -/
structure ReservationState where
  recipientEndpointId : Option String
  state : DeliveryState
  storedState : DeliveryState
  attempts : ℕ
  codexWakeGeneration : Option ℤ
  wakeTarget : Option WakeTarget
  deriving DecidableEq, Repr

/-- The state of a delivery at an instant: expired with its message, and pending
again when the lease of its claim has run out. -/
def effectiveState (delivery : RelayDelivery) (message : RelayMessage) (current : ℤ) :
    DeliveryState :=
  if (delivery.state = .pending ∨ delivery.state = .claimed) ∧ message.expiresAt ≤ current then
    .expired
  else if delivery.state = .claimed ∧ delivery.leaseExpiresAt.any (fun lease => lease ≤ current)
    then .pending
  else delivery.state

/-- `_relay_codex_wake_reservation_state`, without a value where it raises. -/
def reservationState (store : RelayStore) (deliveryId : String) (current : ℤ) :
    Option ReservationState :=
  (store.deliveryWithMessage deliveryId).map fun (delivery, message) =>
    { recipientEndpointId := delivery.recipientEndpointId
      state := effectiveState delivery message current
      storedState := delivery.state
      attempts := delivery.attempts
      codexWakeGeneration := delivery.codexWakeGeneration
      wakeTarget :=
        (store.relaySessionByEndpoint delivery.recipientEndpointId).bind fun session =>
          if session.state = .active ∧ session.runtime = .codex ∧
              delivery.recipientRuntime = .codex ∧ renderSafe message.payload then
            some ⟨session.sessionRef, session.containerRef⟩
          else none }

namespace ReservationState

/-- `_wake_retry_pending`. -/
def retryPending (state : ReservationState) : Bool :=
  state.state == .pending &&
    (state.storedState == .pending && state.attempts == 0 ||
      state.storedState == .claimed && decide (0 < state.attempts))

/-- Whether the stored claim was made under the generation. -/
def claimedUnder (state : ReservationState) (generation : ℤ) : Bool :=
  state.storedState == .claimed && state.codexWakeGeneration == some generation

/-- Whether the delivery has come to its end. -/
def terminal (state : ReservationState) : Bool :=
  state.state == .delivered || state.state == .expired || state.state == .suppressed

end ReservationState

inductive WakeError
  | invalidAuthority
  | notFound
  | integrity
  deriving DecidableEq, Repr

/-- What a reconciliation has found or done. -/
inductive Verdict
  | released
  | replaced
  | resume
  | cooldownClamped
  | retry
  deriving DecidableEq, Repr

/-- What a transition returns. -/
inductive WakeAnswer
  | fence (item : CodexWakeReservation)
  | fences (items : List CodexWakeReservation)
  | target (target : WakeTarget)
  | reconciled (verdict : Verdict) (item : CodexWakeReservation)
  deriving DecidableEq, Repr

/-- The transitions with the clock readings that they take. -/
inductive WakeRequest
  | reserve (endpointId deliveryId sessionRef containerRef : String) (now : ℤ)
  | correlate (endpointId deliveryId sessionRef containerRef : String)
      (attempts expectedGeneration : ℤ)
  | releaseDelivery (deliveryId : String)
  | release (reservations : List CodexWakeReservation)
  | retryTarget (expected : CodexWakeReservation) (now : ℤ)
  | outcome (expected : CodexWakeReservation) (outcome : WakeOutcome)
  | beginNativeAttempt (expected : CodexWakeReservation) (now later : ℤ)
  | retry (expected : CodexWakeReservation) (target : WakeTarget) (now : ℤ)
  | reconcile (expected : CodexWakeReservation) (now : ℤ)
  | replace (expected : CodexWakeReservation) (sessionRef containerRef : String)
  deriving DecidableEq, Repr

/-- The authority after a transition and what the transition returns. -/
abbrev Transition := Except WakeError (WakeAuthority × Option WakeAnswer)

namespace WakeAuthority

variable (authority : WakeAuthority)

/-- Return nothing and change nothing. -/
def refuse : Transition := .ok (authority, none)

/-- Rewrite the fence of an endpoint. -/
def write (item : CodexWakeReservation) : WakeAuthority :=
  { authority with reservations := authority.reservations.set item }

def delete (item : CodexWakeReservation) : WakeAuthority :=
  { authority with reservations := authority.reservations.erase item.recipientEndpointId }

/-- Write a fence under the next generation. -/
def grant (marker : ℤ) (item : CodexWakeReservation) : WakeAuthority :=
  { marker := some (marker + 1)
    reservations := authority.reservations.set { item with generation := marker + 1 } }

/-- The fence as it is stored, if it is the expected one. -/
def current (expected : CodexWakeReservation) : Bool :=
  authority.reservations.get expected.recipientEndpointId == some expected

end WakeAuthority

/-- Whether the marker leaves room for another generation. -/
def roomLeft (marker : ℤ) : Bool := marker < integerLimit - 1

section Transitions

variable (store : RelayStore) (marker : ℤ) (authority : WakeAuthority)

def reserve (endpointId deliveryId sessionRef containerRef : String) (now : ℤ) : Transition := do
  if (authority.reservations.get endpointId).isSome then authority.refuse
  else if authority.reservations.rows.any fun item => item.deliveryId == deliveryId then
    authority.refuse
  else if maxReservations ≤ authority.reservations.rows.length then authority.refuse
  else
    let state ← orRaise (reservationState store deliveryId now) .notFound
    if state.state ≠ .pending ∨ state.recipientEndpointId ≠ some endpointId ∨
        state.wakeTarget ≠ some ⟨sessionRef, containerRef⟩ then authority.refuse
    else if !roomLeft marker then authority.refuse
    else
      let item : CodexWakeReservation :=
        ⟨endpointId, deliveryId, sessionRef, containerRef, marker + 1, .prepared, none, none⟩
      .ok (authority.grant marker item, some (.fence item))

def correlate (endpointId deliveryId sessionRef containerRef : String)
    (attempts expectedGeneration : ℤ) : Transition :=
  match authority.reservations.get endpointId with
  | none => authority.refuse
  | some row =>
    if row.deliveryId ≠ deliveryId ∨ row.sessionRef ≠ sessionRef ∨
        row.containerRef ≠ containerRef ∨ row.generation ≠ expectedGeneration ∨
        (row.correlatedClaimAttempts.isSome ∧
          row.correlatedClaimAttempts ≠ some attempts) then authority.refuse
    else
      let item := { row with correlatedClaimAttempts := some attempts }
      .ok (authority.write item, some (.fence item))

def releaseDelivery (deliveryId : String) : Transition :=
  match authority.reservations.rows.find? fun item => item.deliveryId == deliveryId with
  | none => authority.refuse
  | some item => .ok (authority.delete item, some (.fence item))

def release (reservations : List CodexWakeReservation) : Transition :=
  let removed := reservations.filter authority.current
  .ok
    ({ authority with
        reservations := authority.reservations.eraseAll fun item => removed.contains item },
      some (.fences removed))

/-- Whether a spent fence may be tried again: it is uncorrelated and its cooldown
has elapsed. -/
def retryable (expected : CodexWakeReservation) (now : ℤ) : Bool :=
  expected.outcome != .prepared && expected.correlatedClaimAttempts.isNone &&
    retryCooldownElapsed expected.retryNotBefore now

/-- Whether the delivery of the fence waits for another attempt. -/
def waiting (expected : CodexWakeReservation) (state : ReservationState) : Bool :=
  state.retryPending && !state.claimedUnder expected.generation &&
    state.recipientEndpointId == some expected.recipientEndpointId

def retryTarget (expected : CodexWakeReservation) (now : ℤ) : Transition :=
  if !authority.current expected || !retryable expected now then authority.refuse
  else
    match reservationState store expected.deliveryId now with
    | none => authority.refuse
    | some state =>
      match state.wakeTarget with
      | none => authority.refuse
      | some target =>
        if waiting expected state then .ok (authority, some (.target target))
        else authority.refuse

/-- An accepted outcome only follows an uncertain one; its fence may have been
correlated in the meantime. -/
def recordOutcome (expected : CodexWakeReservation) (outcome : WakeOutcome) : Transition :=
  match authority.reservations.get expected.recipientEndpointId with
  | none => authority.refuse
  | some row =>
    if outcome = .accepted then
      if expected.outcome = .uncertain ∧ row.outcome = .uncertain ∧
          row.deliveryId = expected.deliveryId ∧ row.sessionRef = expected.sessionRef ∧
          row.containerRef = expected.containerRef ∧ row.generation = expected.generation then
        let item := { row with outcome := outcome }
        .ok (authority.write item, some (.fence item))
      else authority.refuse
    else if row ≠ expected then authority.refuse
    else
      let item := { expected with outcome := outcome }
      .ok (authority.write item, some (.fence item))

def beginNativeAttempt (expected : CodexWakeReservation) (now later : ℤ) : Transition :=
  if !authority.current expected || expected.outcome != .prepared ||
      expected.correlatedClaimAttempts.isSome ||
      !retryCooldownElapsed expected.retryNotBefore now then authority.refuse
  else
    match reservationState store expected.deliveryId now with
    | none => authority.refuse
    | some state =>
      if waiting expected state ∧ state.wakeTarget = some expected.target then
        let item :=
          { expected with
            outcome := .uncertain
            retryNotBefore := some (later + wakeRetryCooldown) }
        .ok (authority.write item, some (.fence item))
      else authority.refuse

def retry (expected : CodexWakeReservation) (target : WakeTarget) (now : ℤ) : Transition :=
  if !authority.current expected || !retryable expected now then authority.refuse
  else
    match reservationState store expected.deliveryId now with
    | none => authority.refuse
    | some state =>
      if waiting expected state ∧ state.wakeTarget = some target ∧ roomLeft marker then
        let item :=
          { expected with
            generation := marker + 1
            outcome := .prepared
            correlatedClaimAttempts := none
            retryNotBefore := some (min now (expected.retryNotBefore.getD now))
            sessionRef := target.sessionRef
            containerRef := target.containerRef }
        .ok (authority.grant marker item, some (.fence item))
      else authority.refuse

/-- Whether the stored claim of the delivery belongs to the fence. -/
def ownClaim (expected : CodexWakeReservation) (state : ReservationState) : Bool :=
  state.state == .pending && state.storedState == .claimed && decide (0 < state.attempts) &&
    (some (state.attempts : ℤ) == expected.correlatedClaimAttempts ||
      state.codexWakeGeneration == some expected.generation)

/-- Whether the cooldown ends later than a clock that has not moved back allows. -/
def overdue (expected : CodexWakeReservation) (now : ℤ) : Bool :=
  expected.retryNotBefore.any fun deadline => 2 * wakeRetryCooldown < deadline - now

def reconcile (expected : CodexWakeReservation) (now : ℤ) : Transition :=
  if !authority.current expected then authority.refuse
  else
    match reservationState store expected.deliveryId now with
    | none => .ok (authority.delete expected, some (.reconciled .released expected))
    | some state =>
      if state.recipientEndpointId ≠ some expected.recipientEndpointId then authority.refuse
      else if state.terminal then
        .ok (authority.delete expected, some (.reconciled .released expected))
      else
        match state.wakeTarget.filter fun _ => ownClaim expected state with
        | some target =>
          if roomLeft marker then
            let item :=
              { expected with
                generation := marker + 1
                outcome := .prepared
                correlatedClaimAttempts := none
                retryNotBefore := none
                sessionRef := target.sessionRef
                containerRef := target.containerRef }
            .ok (authority.grant marker item, some (.reconciled .replaced item))
          else authority.refuse
        | none =>
          if expected.outcome = .prepared ∧ expected.correlatedClaimAttempts = none ∧
              state.retryPending ∧ state.wakeTarget = some expected.target then
            .ok (authority, some (.reconciled .resume expected))
          else if expected.outcome ≠ .prepared ∧ expected.correlatedClaimAttempts = none ∧
              overdue expected now ∧ state.retryPending then
            let item := { expected with retryNotBefore := some (now + wakeRetryCooldown) }
            .ok (authority.write item, some (.reconciled .cooldownClamped item))
          else if retryable expected now ∧ state.retryPending ∧ state.wakeTarget.isSome then
            .ok (authority, some (.reconciled .retry expected))
          else authority.refuse

def replace (expected : CodexWakeReservation) (sessionRef containerRef : String) : Transition :=
  if !authority.current expected || !roomLeft marker then authority.refuse
  else
    let item :=
      { expected with
        generation := marker + 1
        outcome := .reserved
        correlatedClaimAttempts := none
        retryNotBefore := none
        sessionRef := sessionRef
        containerRef := containerRef }
    .ok (authority.grant marker item, some (.fence item))

/-- The branch of the transition for the request. -/
def WakeRequest.apply : WakeRequest → Transition
  | .reserve endpointId deliveryId sessionRef containerRef now =>
    CodexWake.reserve store marker authority endpointId deliveryId sessionRef containerRef now
  | .correlate endpointId deliveryId sessionRef containerRef attempts expectedGeneration =>
    CodexWake.correlate authority endpointId deliveryId sessionRef containerRef attempts
      expectedGeneration
  | .releaseDelivery deliveryId => CodexWake.releaseDelivery authority deliveryId
  | .release reservations => CodexWake.release authority reservations
  | .retryTarget expected now => CodexWake.retryTarget store authority expected now
  | .outcome expected result => recordOutcome authority expected result
  | .beginNativeAttempt expected now later =>
    CodexWake.beginNativeAttempt store authority expected now later
  | .retry expected target now => CodexWake.retry store marker authority expected target now
  | .reconcile expected now => CodexWake.reconcile store marker authority expected now
  | .replace expected sessionRef containerRef =>
    CodexWake.replace marker authority expected sessionRef containerRef

end Transitions

def relayCodexWakeTransition (printable : Char → Bool) (store : RelayStore)
    (request : WakeRequest) (authority : WakeAuthority) :
    WakeAuthority × Except WakeError (Option WakeAnswer) :=
  transaction (fun authority => do
    require (authority.accepted printable) .invalidAuthority
    match authority.marker with
    | none => authority.refuse
    | some marker => request.apply store marker authority) authority

/-- The generation that an initialization starts from. -/
def highWater (store : RelayStore) (reservations : List CodexWakeReservation) : ℤ :=
  (store.deliveries.rows.filterMap RelayDelivery.codexWakeGeneration ++
    reservations.map CodexWakeReservation.generation).foldl max 0

/-- Add the fences one after the other; neither an endpoint nor a delivery may
occur twice. -/
def insertReservations (reservations : List CodexWakeReservation) :
    Option (Table CodexWakeReservation) :=
  if (reservations.map CodexWakeReservation.deliveryId).Nodup then
    reservations.foldlM Table.insertNew Table.empty
  else none

def relayCodexWakeInitialize (store : RelayStore) (reservations : List CodexWakeReservation)
    (authority : WakeAuthority) : WakeAuthority × Except WakeError Bool :=
  transaction (fun authority => do
    if authority.marker.isSome then pure (authority, true)
    else if !authority.reservations.rows.isEmpty then pure (authority, false)
    else if integerLimit - 1 ≤ highWater store reservations then pure (authority, false)
    else
      let rows ← orRaise (insertReservations reservations) .integrity
      pure (⟨some (highWater store reservations), rows⟩, true)) authority

end Pallium.CodexWake
