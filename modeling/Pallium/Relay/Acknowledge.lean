import Pallium.Relay.Turn

/-!
# Acknowledgements and replies

A claimed delivery is finished by its claim token, by the receipt derived from
the token, or by a reply that carries the receipt.  All of them mark a claimed
delivery of an expired message as expired, commit that and raise.
-/

namespace Pallium.Relay

open Pallium.Calendar Pallium.Transaction

structure AckResult where
  deliveryId : String
  deliveredAt : Option String
  alreadyDelivered : Bool
  recipientEndpointId : Option String
  recipientRuntime : Runtime
  recipientSessionRef : String
  recipientContainerRef : Option String
  deriving DecidableEq, Repr

/-- `hmac.compare_digest` on text, which has to be ASCII. -/
def compareDigest (expected receipt : String) : Except RelayError Bool :=
  if expected.toList.all (fun c => c.toNat < 128) && receipt.toList.all (fun c => c.toNat < 128)
  then .ok (expected == receipt)
  else .error .unsupported

theorem eq_of_matched {expected receipt : String} {matched : Bool}
    (hcompare : compareDigest expected receipt = .ok matched) (hmatched : matched) :
    expected = receipt := by
  unfold compareDigest at hcompare
  split at hcompare
  · cases hcompare
    exact beq_iff_eq.mp hmatched
  · cases hcompare

/-- What an acknowledgement reports of a delivery. -/
def ackResult (delivery : RelayDelivery) (deliveredAt : Option String)
    (alreadyDelivered : Bool) : AckResult where
  deliveryId := delivery.id
  deliveredAt := deliveredAt
  alreadyDelivered := alreadyDelivered
  recipientEndpointId := delivery.recipientEndpointId
  recipientRuntime := delivery.recipientRuntime
  recipientSessionRef := delivery.recipientSessionRef
  recipientContainerRef := delivery.recipientContainerRef

/-- The claim's lease is live. -/
def leaseLive (current : ℤ) (delivery : RelayDelivery) : Bool :=
  delivery.leaseExpiresAt.any fun lease => current < lease

/-- Deliver a claimed delivery.  Without a result the message has expired. -/
def finishClaim (delivery : RelayDelivery) (current : ℤ) (store : RelayStore) :
    RelayStore × Option AckResult :=
  (store.modifyDelivery delivery.id fun row => row.markDelivered current,
    some (ackResult delivery (some (isoformatUtc current)) false))

def expireClaim (delivery : RelayDelivery) (store : RelayStore) : RelayStore :=
  store.modifyDelivery delivery.id RelayDelivery.markExpired

def relayAckBody (deliveryId claimToken : String) (current : ℤ) (store : RelayStore) :
    Except RelayError (RelayStore × Option AckResult) := do
  let stale : RelayError := .conflict "claim token is stale"
  let (delivery, message) ← orRaise (store.deliveryWithMessage deliveryId) entityNotFound
  if delivery.state = .delivered then
    require (delivery.claimToken = some claimToken) stale
    pure (store, some (ackResult delivery (delivery.deliveredAt.map isoformat) true))
  else
    require (delivery.state = .claimed ∧ delivery.claimToken = some claimToken) stale
    if message.expiresAt ≤ current then pure (expireClaim delivery store, none)
    else
      require (leaseLive current delivery) stale
      pure (finishClaim delivery current store)

def relayAckByReceiptBody (host : Host) (deliveryId receipt : String) (current : ℤ)
    (store : RelayStore) : Except RelayError (RelayStore × Option AckResult) := do
  let (delivery, message) ← orRaise (store.deliveryWithMessage deliveryId) entityNotFound
  let expected := deliveryReceipt host delivery.claimToken
  if delivery.state = .delivered then
    let mismatch : RelayError := .conflict "receipt does not match delivered claim"
    let found ← orRaise expected mismatch
    let matched ← compareDigest found receipt
    require matched mismatch
    pure (store, some (ackResult delivery (delivery.deliveredAt.map isoformat) true))
  else
    require (delivery.state = .claimed) (.conflict "delivery is not in claimed state")
    if message.expiresAt ≤ current then pure (expireClaim delivery store, none)
    else
      require (leaseLive current delivery) (.conflict "claim lease has expired")
      let matched ← compareDigest (expected.getD "") receipt
      require matched (.conflict "receipt does not match current claim")
      pure (finishClaim delivery current store)

/-- What is raised after the transaction that marked the delivery as expired. -/
def messageExpired : RelayError := .conflict "message has expired"

/-- Raise where the committed transaction has no result. -/
def raiseExpired {α : Type} (outcome : RelayStore × Except RelayError (Option α)) :
    RelayStore × Except RelayError α :=
  (outcome.1, outcome.2 >>= fun result => orRaise result messageExpired)

def relayAck (deliveryId claimToken : String) (current : ℤ) (store : RelayStore) :
    RelayStore × Except RelayError AckResult :=
  raiseExpired (transaction (relayAckBody deliveryId claimToken current) store)

def relayAckByReceipt (host : Host) (deliveryId receipt : String) (current : ℤ)
    (store : RelayStore) : RelayStore × Except RelayError AckResult :=
  raiseExpired (transaction (relayAckByReceiptBody host deliveryId receipt current) store)

structure ReplyRequest where
  deliveryId : String
  receipt : Option String
  replyMessageId : String
  payload : String
  redacted : Bool
  expiresInSeconds : Option ℤ
  expirySupplied : Bool
  deriving DecidableEq, Repr

/-- Whether the delivery may be replied to.  `false` means that its message has
expired while it was claimed. -/
def checkReplied (host : Host) (request : ReplyRequest) (current : ℤ) (delivery : RelayDelivery)
    (message : RelayMessage) : Except RelayError Bool := do
  let expected := deliveryReceipt host delivery.claimToken
  match delivery.state with
  | .claimed =>
    if message.expiresAt ≤ current then pure false
    else
      require (leaseLive current delivery) (.conflict "claim lease has expired")
      let receipt ← orRaise request.receipt
        (.conflict "receipt required when replying from claimed state")
      let matched ← compareDigest (expected.getD "") receipt
      require matched (.conflict "receipt does not match current claim")
      pure true
  | .delivered =>
    match request.receipt with
    | none => pure true
    | some receipt => do
      let mismatch : RelayError := .conflict "receipt does not match delivered claim"
      let found ← orRaise expected mismatch
      let matched ← compareDigest found receipt
      require matched mismatch
      pure true
  | _ => throw (.conflict "only claimed or delivered relay messages can be replied to")

/-- The stored reply is the one the request repeats. -/
def sameReply (request : ReplyRequest) (existing : RelayMessage) : Bool :=
  existing.payload == request.payload && existing.redacted == request.redacted &&
    (!request.expirySupplied || expiryMatches existing request.expiresInSeconds)

/-- The reply as a message from the delivery's endpoint to the original sender. -/
def replyMessage (request : ReplyRequest) (current : ℤ) (message : RelayMessage)
    (sender recipient : RelaySession) : RelayMessage where
  id := request.replyMessageId
  senderRuntime := sender.runtime
  senderSessionRef := sender.sessionRef
  senderEndpointId := some sender.id
  recipientSelector := recipient.id
  containerRef := sender.containerRef
  payload := request.payload
  redacted := request.redacted
  inReplyTo := some message.id
  createdAt := current
  expiresAt := expiryAt current request.expiresInSeconds

/-- The reply to a delivery that may be replied to. -/
def answer (host : Host) (request : ReplyRequest) (current : ℤ) (delivery : RelayDelivery)
    (message : RelayMessage) (store : RelayStore) :
    Except RelayError (RelayStore × StatusView) := do
  let sender ← orRaise (store.relaySessionByEndpoint delivery.recipientEndpointId)
    (.conflict "legacy delivery has no canonical recipient endpoint")
  require (sender.state = .active) (.conflict "closed or unreachable sessions cannot reply")
  match store.messages.get request.replyMessageId with
  | some existing => do
    require (sameReply request existing)
      (.conflict "reply already exists with different parameters")
    relayStatusInSession host .stored current 0 none existing store
  | none => do
    let recipient ← orRaise (store.relaySessionByEndpoint message.senderEndpointId)
      (.conflict "legacy message has no canonical sender endpoint")
    require (recipient.state ≠ .unreachable) (.conflict "recipient session is unreachable")
    require (recipient.state ≠ .closed) (.conflict "recipient session is closed")
    let reply := replyMessage request current message sender recipient
    let store ← addMessage host reply recipient store
    let store :=
      if delivery.state = .claimed then
        store.modifyDelivery delivery.id fun row => row.markDelivered current
      else store
    relayStatusInSession host .written current 0 none reply store

def relayReplyBody (host : Host) (request : ReplyRequest) (current : ℤ) (store : RelayStore) :
    Except RelayError (RelayStore × Option StatusView) := do
  let (delivery, message) ← orRaise (store.deliveryWithMessage request.deliveryId) entityNotFound
  let allowed ← checkReplied host request current delivery message
  if allowed then
    let (store, view) ← answer host request current delivery message store
    pure (store, some view)
  else pure (expireClaim delivery store, none)

def relayReplyAtomic (host : Host) (request : ReplyRequest) (current : ℤ) (store : RelayStore) :
    RelayStore × Except RelayError StatusView :=
  raiseExpired (transaction (relayReplyBody host request current) store)

/-- The message id under which the service replies to a delivery. -/
def replyId (host : Host) (deliveryId : String) : String :=
  "relay-reply-" ++ host.sha256Hex deliveryId

end Pallium.Relay
