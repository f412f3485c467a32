import Pallium.Relay.Session

/-!
# The OpenCode wake fence

The operations of the native bridge on the wake row of its endpoint.  Each first
checks the binding of the request to the endpoint, its owner and the assigned
delivery.  Only the context operation claims a delivery; it is part of
`relayTurn`.
-/

namespace Pallium.Relay

open Pallium.Calendar Pallium.Transaction

/-- The operations of `relay_opencode_wake` other than `context`. -/
inductive OpenCodeOperation
  | enroll
  | poll
  | admitted
  | terminal
  | detach
  deriving DecidableEq, Repr

structure OpenCodeRequest where
  sessionRef : String
  containerRef : String
  endpointId : String
  scopeGeneration : ℕ
  nativeLocation : String
  ownerId : String
  generation : Option ℕ
  deliveryId : Option String
  nativeInputId : Option String
  terminalMessageId : Option String
  deriving DecidableEq, Repr

/-- `_opencode_native_id`. -/
def OpenCodeWake.nativeId (wake : OpenCodeWake) : String :=
  "msg_pallium_" ++ Text.drop 14 wake.endpointId ++ "_" ++ toString wake.generation

structure OpenCodeWakeView where
  generation : ℕ
  deliveryId : String
  nativeInputId : String
  nativeLocation : String
  scopeGeneration : ℕ
  admitted : Bool
  terminal : Bool
  retryExhausted : Bool
  deriving DecidableEq, Repr

/-- `_opencode_wake_view`. -/
def OpenCodeWake.view (wake : OpenCodeWake) : Option OpenCodeWakeView :=
  wake.deliveryId.map fun deliveryId =>
    { generation := wake.generation
      deliveryId := deliveryId
      nativeInputId := wake.nativeId
      nativeLocation := wake.nativeLocation
      scopeGeneration := wake.scopeGeneration
      admitted := wake.admitted
      terminal := wake.terminal
      retryExhausted := 20 ≤ wake.failures }

/-- The wake is held by the owner of the request, at its location and scope. -/
def OpenCodeWake.heldBy (wake : OpenCodeWake) (request : OpenCodeRequest) (current : ℤ) : Bool :=
  wake.ownerId == some request.ownerId && decide (current < wake.ownerExpiresAt) &&
    wake.nativeLocation == request.nativeLocation &&
    wake.scopeGeneration == request.scopeGeneration

/-- The wake is the one the request saw. -/
def OpenCodeWake.matchesSnapshot (wake : OpenCodeWake) (request : OpenCodeRequest) : Bool :=
  some wake.generation == request.generation && wake.deliveryId == request.deliveryId &&
    some wake.nativeId == request.nativeInputId

def openCodeBinding (store : RelayStore) (request : OpenCodeRequest) (current : ℤ)
    (enrollment : Bool) : Except RelayError (RelaySession × Option OpenCodeWake) := do
  let notInScope : RelayError := .notFound "OpenCode endpoint not found in the requested scope"
  let session ← orRaise (store.sessions.get request.endpointId) notInScope
  require (session.runtime = .openCode ∧ session.sessionRef = request.sessionRef ∧
    session.containerRef = request.containerRef) notInScope
  require (session.state = .active ∧
      request.scopeGeneration = store.scopeGeneration session.id)
    (.conflict "OpenCode endpoint is closed or its scope changed")
  let wake := store.openCodeWakes.get session.id
  require (enrollment ∨ wake.any (OpenCodeWake.heldBy · request current))
    (.conflict "OpenCode registration is missing or stale")
  require (request.generation.isNone ∨ wake.any (OpenCodeWake.matchesSnapshot · request))
    (.conflict "OpenCode native wake snapshot is stale")
  pure (session, wake)

/-- The delivery can be claimed: pending, or claimed with a lease that has run out. -/
def claimable (current : ℤ) (delivery : RelayDelivery) : Bool :=
  delivery.state == .pending ||
    (delivery.state == .claimed && delivery.leaseExpiresAt.any fun lease => lease ≤ current)

def deliveryOrder (left right : RelayDelivery × RelayMessage) : Prop :=
  left.2.createdAt < right.2.createdAt ∨
    left.2.createdAt = right.2.createdAt ∧ left.1.id ≤ right.1.id

instance : DecidableRel deliveryOrder := fun _ _ => inferInstanceAs (Decidable (_ ∨ _ ∧ _))

/-- The claimable deliveries of unexpired messages that satisfy `wanted`, with
their messages, in the order in which they are offered. -/
def openDeliveries (store : RelayStore) (current : ℤ) (wanted : RelayDelivery → Bool) :
    List (RelayDelivery × RelayMessage) :=
  let candidates := store.deliveries.rows.filterMap fun delivery =>
    (store.messages.get delivery.messageId).bind fun message =>
      if wanted delivery && claimable current delivery && decide (current < message.expiresAt) then
        some (delivery, message)
      else none
  candidates.insertionSort deliveryOrder

/-- The first wake row of an endpoint. -/
def OpenCodeWake.enrolled (session : RelaySession) (request : OpenCodeRequest) (current : ℤ) :
    OpenCodeWake where
  endpointId := session.id
  scopeGeneration := request.scopeGeneration
  nativeLocation := request.nativeLocation
  ownerId := some request.ownerId
  ownerExpiresAt := current
  generation := 0
  deliveryId := none
  admitted := false
  terminal := false
  claimAttempts := none
  payloadChars := none
  failures := 0
  retryNotBefore := none

/-- A new enrolment takes the wake over unless another owner is alive; a changed
scope or location invalidates the assignment. -/
def enrollWake (wake : Option OpenCodeWake) (session : RelaySession) (request : OpenCodeRequest)
    (current : ℤ) : Except RelayError OpenCodeWake := do
  let wake ← match wake with
    | none => pure (OpenCodeWake.enrolled session request current)
    | some held => do
      require (held.ownerId = none ∨ held.ownerId = some request.ownerId ∨
          held.ownerExpiresAt ≤ current)
        (.conflict "OpenCode endpoint already has a live native owner")
      pure held
  let wake :=
    if wake.scopeGeneration ≠ request.scopeGeneration ∨
        wake.nativeLocation ≠ request.nativeLocation then
      wake.invalidate
    else wake
  pure { wake with
    scopeGeneration := request.scopeGeneration
    nativeLocation := request.nativeLocation
    ownerId := some request.ownerId }

/-- A wake that reported its terminal record gives up a delivery that is done or
held elsewhere, or tries it once more after its delay.  A terminal wake always
has a retry time. -/
def settleTerminal (store : RelayStore) (current : ℤ) (wake : OpenCodeWake) : OpenCodeWake :=
  let anchor := wake.deliveryId.bind store.deliveries.get
  let message := anchor.bind fun delivery => store.messages.get delivery.messageId
  let live := message.any fun found => current < found.expiresAt
  let eligible := live && anchor.any (claimable current)
  let held := live && anchor.any fun delivery => delivery.state == .claimed
  if wake.deliveryId.isSome && wake.terminal then
    if !eligible && !held then { wake with deliveryId := none, failures := 0 }
    else if eligible && decide (wake.failures < 20) &&
        wake.retryNotBefore.any (fun retry => retry ≤ current) then
      { wake with
        generation := wake.generation + 1
        admitted := false
        terminal := false
        claimAttempts := none
        payloadChars := none
        failures := wake.failures + 1
        retryNotBefore := none }
    else wake
  else wake

/-- A wake without a delivery is assigned the oldest one that can be rendered. -/
def assignOldest (store : RelayStore) (session : RelaySession) (request : OpenCodeRequest)
    (current : ℤ) (wake : OpenCodeWake) : OpenCodeWake :=
  let wanted := fun delivery : RelayDelivery =>
    delivery.recipientEndpointId == some session.id && delivery.recipientRuntime == .openCode &&
      delivery.recipientSessionRef == request.sessionRef &&
      delivery.recipientContainerRef == some request.containerRef
  if wake.deliveryId.isNone then
    match (openDeliveries store current wanted).find? fun row =>
        deliveryRenderSafe row.1 row.2 with
    | none => wake
    | some row =>
      { wake with
        generation := wake.generation + 1
        deliveryId := some row.1.id
        admitted := false
        terminal := false
        failures := 0
        claimAttempts := none
        payloadChars := none
        retryNotBefore := none }
  else wake

structure OpenCodeResponse where
  session : SessionView
  wake : Option OpenCodeWakeView
  deriving DecidableEq, Repr

/-- The wake row after the operation. -/
def operateWake (store : RelayStore) (operation : OpenCodeOperation) (request : OpenCodeRequest)
    (session : RelaySession) (wake : Option OpenCodeWake) (current : ℤ) :
    Except RelayError OpenCodeWake := do
  let missing : RelayError := .conflict "OpenCode registration is missing or stale"
  match operation with
  | .enroll => do
    let enrolled ← enrollWake wake session request current
    pure { enrolled with ownerExpiresAt := current + seconds 15 }
  | .poll => do
    let held ← orRaise wake missing
    let polled := { held with ownerExpiresAt := current + seconds 15 }
    pure (assignOldest store session request current (settleTerminal store current polled))
  | .detach => do
    let held ← orRaise wake missing
    pure { held with ownerId := none, ownerExpiresAt := current }
  | .admitted => do
    let held ← orRaise wake missing
    pure { held with admitted := true }
  | .terminal => do
    let held ← orRaise wake missing
    require (request.terminalMessageId.any (· != "") ∧
        request.terminalMessageId ≠ request.nativeInputId)
      (.conflict "a distinct correlated native terminal record is required")
    if held.terminal then pure held
    else
      pure { held with
        terminal := true
        retryNotBefore := some (current + seconds (min 30 (2 ^ min (held.failures + 1) 5))) }

def relayOpenCodeWakeBody (operation : OpenCodeOperation) (request : OpenCodeRequest)
    (current : ℤ) (store : RelayStore) :
    Except RelayError (RelayStore × OpenCodeResponse) := do
  let (session, held) ← openCodeBinding store request current (operation = .enroll)
  let wake ← operateWake store operation request session held current
  let touches := operation = .enroll ∨ operation = .poll
  let session := if touches then { session with lastSeenAt := current } else session
  let store := { store with openCodeWakes := store.openCodeWakes.put wake }
  let store :=
    if touches then store.modifySession session.id fun row => { row with lastSeenAt := current }
    else store
  let stamps : SessionStamps :=
    { SessionStamps.stored with lastSeen := if touches then isoformatUtc else isoformat }
  pure (store,
    { session := relaySessionView stamps store session current relayRecentSeconds
      wake := wake.view })

/-- `relay_opencode_wake`, except for its context operation. -/
def relayOpenCodeWake (operation : OpenCodeOperation) (request : OpenCodeRequest) (current : ℤ)
    (store : RelayStore) : RelayStore × Except RelayError OpenCodeResponse :=
  transaction (relayOpenCodeWakeBody operation request current) store

end Pallium.Relay
