import Pallium.Core.Run
import Pallium.Relay.Repair

/-!
# Runs of the Relay service

The operations of the Relay service as steps of one store.  Every operation is
one immediate transaction of the database, so the transactions of concurrent
callers take effect one after the other, and the runs are all interleavings of
all callers.  The clock readings are arguments of the steps and need not
increase.
-/

namespace Pallium.Relay

/-- `RELAY_CLAIM_LEASE_SECONDS`, which is also the lease of a context request. -/
def relayClaimLeaseSeconds : ℤ := 60

inductive RelayOp
  | send (request : SendRequest) (now : ℤ)
  | reply (request : ReplyRequest) (now : ℤ)
  | turn (request : TurnRequest) (clock : ClaimClock) (now : ℤ)
  | openCodeWake (operation : OpenCodeOperation) (request : OpenCodeRequest) (now : ℤ)
  | openCodeContext (request : OpenCodeRequest) (maxChars : ℕ) (now : ℤ)
  | ack (deliveryId claimToken : String) (now : ℤ)
  | ackByReceipt (deliveryId receipt : String) (now : ℤ)
  | messageStatus (messageId : String) (offset pageSize : Option ℕ) (now : ℤ)
  | closeSession (runtime : Runtime) (sessionRef containerRef : String) (now : ℤ)
  | nameSession (runtime : Runtime) (sessionRef containerRef : String)
      (aliasName : Option String) (replaceExisting : Bool) (now : ℤ)
  | markActive (runtime : Runtime) (sessionRef containerRef : String) (now : ℤ)
  | markUnreachable (runtime : Runtime) (sessionRef containerRef : String) (attemptStartedAt : ℤ)
  | repairApply (manifest : RepairManifest) (evidence : RepairEvidence) (now : ℤ)

/-- What an operation returns. -/
inductive RelayResult
  | status (view : StatusView)
  | turn (response : TurnResponse)
  | wake (response : OpenCodeResponse)
  | ack (result : AckResult)
  | session (view : SessionView)
  | changed (flag : Bool)
  | repair (result : RepairResult)
  deriving DecidableEq, Repr

/-- The turn behind a context request of the OpenCode bridge. -/
def contextTurn (request : OpenCodeRequest) (maxChars : ℕ) : TurnRequest where
  runtime := .openCode
  sessionRef := request.sessionRef
  containerRef := request.containerRef
  title := none
  maxChars := maxChars
  maxMessages := 1
  leaseSeconds := 60
  exactDeliveryId := request.deliveryId
  claimExpiresAtMs := none
  codexWakeEndpointId := none
  codexWakeGeneration := none
  openCodeWake := some request
  maxResponseChars := 0
  registerSession := false
  previousContainerRef := none
  previousEndpointId := none
  previousScopeGeneration := none

/-- `RelayService.turn` fixes the lease and never acts for the OpenCode bridge. -/
def serviceTurn (request : TurnRequest) : TurnRequest :=
  { request with leaseSeconds := relayClaimLeaseSeconds, openCodeWake := none }

/-- `RelayService.reply` derives the message id from the delivery id. -/
def serviceReply (host : Host) (request : ReplyRequest) : ReplyRequest :=
  { request with replyMessageId := replyId host request.deliveryId }

/-- The result of an operation as a result of any operation. -/
def wrap {α : Type} (kind : α → RelayResult) (outcome : RelayStore × Except RelayError α) :
    RelayStore × Except RelayError RelayResult :=
  (outcome.1, outcome.2.map kind)

namespace RelayOp

/-- The store after the operation and what the operation returns or raises. -/
def execute (host : Host) (store : RelayStore) :
    RelayOp → RelayStore × Except RelayError RelayResult
  | send request now => wrap .status (relaySend host request now store)
  | reply request now => wrap .status (relayReplyAtomic host (serviceReply host request) now store)
  | turn request clock now => wrap .turn (relayTurn host (serviceTurn request) clock now store)
  | openCodeWake operation request now => wrap .wake (relayOpenCodeWake operation request now store)
  | openCodeContext request maxChars now =>
    wrap .turn
      (relayTurn host (contextTurn request maxChars) ⟨now, fun _ => now⟩ now store)
  | ack deliveryId claimToken now => wrap .ack (relayAck deliveryId claimToken now store)
  | ackByReceipt deliveryId receipt now =>
    wrap .ack (relayAckByReceipt host deliveryId receipt now store)
  | messageStatus messageId offset pageSize now =>
    wrap .status (relayMessageStatus host messageId offset pageSize now store)
  | closeSession runtime sessionRef containerRef now =>
    wrap .session (relayCloseSession runtime sessionRef containerRef now store)
  | nameSession runtime sessionRef containerRef aliasName replaceExisting now =>
    wrap .session
      (relayNameSession runtime sessionRef containerRef aliasName replaceExisting now store)
  | markActive runtime sessionRef containerRef now =>
    wrap .changed (relayMarkActive runtime sessionRef containerRef now store)
  | markUnreachable runtime sessionRef containerRef attemptStartedAt =>
    wrap .changed (relayMarkUnreachable runtime sessionRef containerRef attemptStartedAt store)
  | repairApply manifest evidence now =>
    wrap .repair (relayEndpointRepairApply host manifest evidence now store)

def step (host : Host) (store : RelayStore) (op : RelayOp) : RelayStore :=
  (op.execute host store).1

/-- The clock reading the operation takes for the current time. -/
def now : RelayOp → ℤ
  | send _ now => now
  | reply _ now => now
  | turn _ _ now => now
  | openCodeWake _ _ now => now
  | openCodeContext _ _ now => now
  | ack _ _ now => now
  | ackByReceipt _ _ now => now
  | messageStatus _ _ _ now => now
  | closeSession _ _ _ now => now
  | nameSession _ _ _ _ _ now => now
  | markActive _ _ _ now => now
  | markUnreachable _ _ _ attemptStartedAt => attemptStartedAt
  | repairApply _ _ now => now

/-- The id under which the operation may write a message. -/
def writes (host : Host) : RelayOp → Option String
  | send request _ => some request.messageId
  | reply request _ => some (replyId host request.deliveryId)
  | turn _ _ _ => none
  | openCodeWake _ _ _ => none
  | openCodeContext _ _ _ => none
  | ack _ _ _ => none
  | ackByReceipt _ _ _ => none
  | messageStatus _ _ _ _ => none
  | closeSession _ _ _ _ => none
  | nameSession _ _ _ _ _ _ => none
  | markActive _ _ _ _ => none
  | markUnreachable _ _ _ _ => none
  | repairApply _ _ _ => none

end RelayOp

end Pallium.Relay
