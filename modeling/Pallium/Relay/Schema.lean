import Pallium.Core.Table

/-!
# Relay rows

The rows of the Relay database and the errors its operations raise.  Instants
are microseconds since the start of 1970.  Every way in which an operation
rewrites a delivery row is a function of its own, so that the whole life of a
delivery is visible here: it is written as pending, and afterwards claimed,
finished or given to another endpoint, but never made pending again.
-/

namespace Pallium.Relay

/-- `RELAY_RUNTIMES`. -/
inductive Runtime
  | claudeCode
  | codex
  | openCode
  | hermes
  deriving DecidableEq, Repr

def Runtime.name : Runtime → String
  | .claudeCode => "claude-code"
  | .codex => "codex"
  | .openCode => "opencode"
  | .hermes => "hermes"

inductive SessionState
  | active
  | unreachable
  | closed
  deriving DecidableEq, Repr

def SessionState.name : SessionState → String
  | .active => "active"
  | .unreachable => "unreachable"
  | .closed => "closed"

inductive DeliveryState
  | pending
  | claimed
  | delivered
  | expired
  | suppressed
  deriving DecidableEq, Repr

def DeliveryState.name : DeliveryState → String
  | .pending => "pending"
  | .claimed => "claimed"
  | .delivered => "delivered"
  | .expired => "expired"
  | .suppressed => "suppressed"

/-- What an operation raises.  `integrity` is the database's refusal of a row
whose primary key is taken, `unsupported` the refusal of `hmac.compare_digest`
to compare text outside ASCII. -/
inductive RelayError
  | notFound (message : String)
  | conflict (message : String)
  | value (message : String)
  | integrity
  | unsupported
  deriving DecidableEq, Repr

structure RelaySession where
  id : String
  runtime : Runtime
  sessionRef : String
  containerRef : String
  title : Option String
  aliasName : Option String
  state : SessionState
  firstSeenAt : ℤ
  lastSeenAt : ℤ
  closedAt : Option ℤ
  deriving DecidableEq, Repr

/-- How often an endpoint has moved to another scope.  An endpoint without a row
has not moved. -/
structure EndpointGeneration where
  endpointId : String
  generation : ℕ
  deriving DecidableEq, Repr

structure RelayAlias where
  aliasName : String
  endpointId : Option String
  deriving DecidableEq, Repr

structure RelayMessage where
  id : String
  senderRuntime : Runtime
  senderSessionRef : String
  senderEndpointId : Option String
  recipientSelector : String
  containerRef : String
  payload : String
  redacted : Bool
  inReplyTo : Option String
  createdAt : ℤ
  expiresAt : ℤ
  deriving DecidableEq, Repr

structure RelayDelivery where
  id : String
  messageId : String
  recipientRuntime : Runtime
  recipientSessionRef : String
  recipientEndpointId : Option String
  recipientContainerRef : Option String
  state : DeliveryState
  claimToken : Option String
  claimedAt : Option ℤ
  leaseExpiresAt : Option ℤ
  deliveredAt : Option ℤ
  attempts : ℕ
  codexWakeGeneration : Option ℤ
  deriving DecidableEq, Repr

/-- The native scheduling fence of an OpenCode endpoint. -/
structure OpenCodeWake where
  endpointId : String
  scopeGeneration : ℕ
  nativeLocation : String
  ownerId : Option String
  ownerExpiresAt : ℤ
  generation : ℕ
  deliveryId : Option String
  admitted : Bool
  terminal : Bool
  claimAttempts : Option ℕ
  payloadChars : Option ℕ
  failures : ℕ
  retryNotBefore : Option ℤ
  deriving DecidableEq, Repr

structure SessionWorkRef where
  endpointId : String
  workRef : String
  origin : String
  scopeRef : String
  localRef : String
  position : Option ℤ
  createdAt : ℤ
  updatedAt : ℤ
  deriving DecidableEq, Repr

instance : Keyed RelaySession String := ⟨RelaySession.id⟩
instance : Keyed EndpointGeneration String := ⟨EndpointGeneration.endpointId⟩
instance : Keyed RelayAlias String := ⟨RelayAlias.aliasName⟩
instance : Keyed RelayMessage String := ⟨RelayMessage.id⟩
instance : Keyed RelayDelivery String := ⟨RelayDelivery.id⟩
instance : Keyed OpenCodeWake String := ⟨OpenCodeWake.endpointId⟩

@[simp]
theorem key_session (session : RelaySession) : key session = session.id := rfl

@[simp]
theorem key_generation (row : EndpointGeneration) : key row = row.endpointId := rfl

@[simp]
theorem key_alias (row : RelayAlias) : key row = row.aliasName := rfl

@[simp]
theorem key_message (message : RelayMessage) : key message = message.id := rfl

@[simp]
theorem key_delivery (delivery : RelayDelivery) : key delivery = delivery.id := rfl

@[simp]
theorem key_openCodeWake (wake : OpenCodeWake) : key wake = wake.endpointId := rfl

namespace RelayDelivery

/-- A delivery as it is written together with its message. -/
def fresh (id messageId : String) (target : RelaySession) : RelayDelivery where
  id := id
  messageId := messageId
  recipientRuntime := target.runtime
  recipientSessionRef := target.sessionRef
  recipientEndpointId := some target.id
  recipientContainerRef := some target.containerRef
  state := .pending
  claimToken := none
  claimedAt := none
  leaseExpiresAt := none
  deliveredAt := none
  attempts := 0
  codexWakeGeneration := none

def markExpired (delivery : RelayDelivery) : RelayDelivery :=
  { delivery with state := .expired, claimToken := none }

/-- A claim installs its token and lease and counts the attempt. -/
def claim (delivery : RelayDelivery) (token : String) (now leaseExpiresAt : ℤ)
    (codexWakeGeneration : Option ℤ) : RelayDelivery :=
  { delivery with
    state := .claimed
    claimToken := some token
    claimedAt := some now
    leaseExpiresAt := some leaseExpiresAt
    attempts := delivery.attempts + 1
    codexWakeGeneration := codexWakeGeneration }

/-- The token, the lease and the claim's own record stay for later duplicates. -/
def markDelivered (delivery : RelayDelivery) (now : ℤ) : RelayDelivery :=
  { delivery with state := .delivered, deliveredAt := some now }

def suppress (delivery : RelayDelivery) (clearClaim : Bool) : RelayDelivery :=
  if clearClaim then
    { delivery with state := .suppressed, claimToken := none, leaseExpiresAt := none }
  else { delivery with state := .suppressed }

def adopt (delivery : RelayDelivery) (endpointId : String) : RelayDelivery :=
  { delivery with recipientEndpointId := some endpointId }

@[simp]
theorem id_fresh (id messageId : String) (target : RelaySession) :
    (fresh id messageId target).id = id := rfl

variable (delivery : RelayDelivery)

@[simp]
theorem id_markExpired : delivery.markExpired.id = delivery.id := rfl

@[simp]
theorem id_claim (token : String) (now leaseExpiresAt : ℤ) (codexWakeGeneration : Option ℤ) :
    (delivery.claim token now leaseExpiresAt codexWakeGeneration).id = delivery.id := rfl

@[simp]
theorem id_markDelivered (now : ℤ) :
    (delivery.markDelivered now).id = delivery.id := rfl

@[simp]
theorem id_suppress (clearClaim : Bool) :
    (delivery.suppress clearClaim).id = delivery.id := by
  cases clearClaim <;> rfl

@[simp]
theorem id_adopt (endpointId : String) :
    (delivery.adopt endpointId).id = delivery.id := rfl

end RelayDelivery

end Pallium.Relay
