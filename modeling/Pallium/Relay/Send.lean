import Pallium.Relay.View

/-!
# Sending and status

`relaySend` writes a message together with its one delivery, or answers with the
status of the message that already has the id.  `relayMessageStatus` reports a
message and marks its open deliveries as expired once it has expired.  Messages
are never changed after they have been written.
-/

namespace Pallium.Relay

open Pallium.Calendar Pallium.Transaction

def entityNotFound : RelayError :=
  .notFound "relay entity not found in the requested scope"

inductive RecipientKind
  | endpoint
  | byAlias
  | session
  deriving DecidableEq, Repr

/-- The session a selector names. -/
def findTarget (store : RelayStore) (recipientRuntime : Option Runtime)
    (recipientKind : RecipientKind) (recipientValue : String) :
    Except RelayError (Option RelaySession) :=
  match recipientKind with
  | .endpoint => pure (store.sessions.get recipientValue)
  | .byAlias => do
    let binding ← orRaise (store.aliases.get recipientValue) entityNotFound
    let endpointId ← orRaise binding.endpointId
      (.conflict ("relay alias has unresolved legacy owners; " ++
        "use replace_existing=true to take it over"))
    let target := store.sessions.get endpointId
    require (target.all fun session =>
        recipientRuntime.all fun runtime => session.runtime == runtime)
      (.conflict ("relay alias belongs to a different runtime; " ++
        "address the global name as @alias"))
    pure target
  | .session => do
    let found := store.sessions.rows.filter fun session =>
      some session.runtime == recipientRuntime && session.sessionRef == recipientValue
    require (found.length ≤ 1)
      (.conflict "legacy recipient is ambiguous; use the canonical relay-session endpoint ID")
    pure found.head?

def relayTarget (store : RelayStore) (recipientRuntime : Option Runtime)
    (recipientKind : RecipientKind) (recipientValue : String) :
    Except RelayError RelaySession := do
  let target ← findTarget store recipientRuntime recipientKind recipientValue
  let session ← orRaise target entityNotFound
  require (session.state ≠ .unreachable) (.conflict "recipient session is unreachable")
  require (session.state ≠ .closed) (.conflict "recipient session is closed")
  pure session

def statusOrder (left right : RelayDelivery) : Prop :=
  left.recipientRuntime.name < right.recipientRuntime.name ∨
    left.recipientRuntime.name = right.recipientRuntime.name ∧
      left.recipientSessionRef ≤ right.recipientSessionRef

instance : DecidableRel statusOrder := fun _ _ =>
  inferInstanceAs (Decidable (_ ∨ _ ∧ _))

def relayStatusInSession (host : Host) (stamps : DeliveryStamps) (current : ℤ)
    (payloadOffset : ℕ) (payloadLimit : Option ℕ) (message : RelayMessage) (store : RelayStore) :
    Except RelayError (RelayStore × StatusView) := do
  let store := if message.expiresAt ≤ current then store.sweepMessage message.id current else store
  require (payloadOffset ≤ message.payload.length) (.value "offset exceeds payload length")
  let found := store.deliveries.rows.filter fun delivery => delivery.messageId == message.id
  let health := fun delivery : RelayDelivery =>
    (store.relaySessionByEndpoint delivery.recipientEndpointId).bind fun session =>
      if session.state = .closed then none else some session.state
  pure (store,
    { messageId := message.id
      senderRuntime := message.senderRuntime
      senderSessionRef := message.senderSessionRef
      senderEndpointId := message.senderEndpointId
      recipient := message.recipientSelector
      payload := payloadView message.payload payloadOffset payloadLimit
      redacted := message.redacted
      inReplyTo := message.inReplyTo
      createdAt := stamps.message message.createdAt
      expiresAt := expiryIso stamps.message message.expiresAt
      deliveries := (found.insertionSort statusOrder).map fun delivery =>
        deliveryView host stamps delivery message (health delivery) payloadOffset payloadLimit })

/-- Write a message and its pending delivery to the target. -/
def addMessage (host : Host) (message : RelayMessage) (target : RelaySession)
    (store : RelayStore) : Except RelayError RelayStore := do
  let messages ← orRaise (store.messages.insertNew message) .integrity
  let delivery := RelayDelivery.fresh ("relay-delivery-" ++ host.uuid4Hex store.drawn)
    message.id target
  require (store.deliveries.rows.all fun other =>
      !(other.messageId == message.id && other.recipientRuntime == target.runtime &&
        other.recipientSessionRef == target.sessionRef)) .integrity
  let deliveries ← orRaise (store.deliveries.insertNew delivery) .integrity
  pure { store with
    messages := messages, deliveries := deliveries, drawn := store.drawn + 1 }

structure SendRequest where
  messageId : String
  senderRuntime : Runtime
  senderSessionRef : String
  recipient : String
  recipientRuntime : Option Runtime
  recipientKind : RecipientKind
  recipientValue : String
  payload : String
  redacted : Bool
  containerRef : String
  expiresInSeconds : Option ℤ
  inReplyTo : Option String
  expirySupplied : Bool
  deriving DecidableEq, Repr

/-- Whether the stored message is the one the request asks to send. -/
def sameSend (request : SendRequest) (sender : RelaySession) (existing : RelayMessage) : Bool :=
  let sameLegacySender := existing.senderEndpointId == none &&
    existing.containerRef == request.containerRef &&
    existing.senderRuntime == request.senderRuntime &&
    existing.senderSessionRef == request.senderSessionRef
  (existing.senderEndpointId == some sender.id || sameLegacySender) &&
    existing.recipientSelector == request.recipient &&
    existing.payload == request.payload &&
    existing.redacted == request.redacted &&
    existing.inReplyTo == request.inReplyTo &&
    (!request.expirySupplied || expiryMatches existing request.expiresInSeconds)

/-- The stamps of a message written in the same transaction. -/
def DeliveryStamps.written : DeliveryStamps := ⟨isoformatUtc, isoformatUtc, isoformatUtc⟩

def relaySendBody (host : Host) (request : SendRequest) (current : ℤ) (store : RelayStore) :
    Except RelayError (RelayStore × StatusView) := do
  let sender ← orRaise
    (store.relaySession request.containerRef request.senderRuntime request.senderSessionRef)
    entityNotFound
  require (sender.state ≠ .closed) (.conflict "closed sessions cannot send relay messages")
  require (request.inReplyTo.all fun parent => (store.messages.get parent).isSome) entityNotFound
  match store.messages.get request.messageId with
  | some existing => do
    require (sameSend request sender existing) (.conflict "message_id is already in use")
    relayStatusInSession host .stored current 0 none existing store
  | none => do
    let target ← relayTarget store request.recipientRuntime request.recipientKind
      request.recipientValue
    let message : RelayMessage :=
      { id := request.messageId
        senderRuntime := request.senderRuntime
        senderSessionRef := request.senderSessionRef
        senderEndpointId := some sender.id
        recipientSelector := request.recipient
        containerRef := sender.containerRef
        payload := request.payload
        redacted := request.redacted
        inReplyTo := request.inReplyTo
        createdAt := current
        expiresAt := expiryAt current request.expiresInSeconds }
    let store ← addMessage host message target store
    relayStatusInSession host .written current 0 none message store

def relaySend (host : Host) (request : SendRequest) (current : ℤ) (store : RelayStore) :
    RelayStore × Except RelayError StatusView :=
  transaction (relaySendBody host request current) store

/-- `relay_message_status`.  A message that has not expired is read in a
transaction that writes nothing. -/
def relayMessageStatus (host : Host) (messageId : String) (offset pageSize : Option ℕ)
    (current : ℤ) (store : RelayStore) : RelayStore × Except RelayError StatusView :=
  transaction (fun store => do
    let message ← orRaise (store.messages.get messageId) entityNotFound
    relayStatusInSession host .stored current (offset.getD 0) pageSize message store) store

end Pallium.Relay
