import Pallium.Relay.Ledger

/-!
# Atomic replies

The message id of a reply is derived from the delivery it answers.  As long as
only replies to that delivery are written under this id, a stored reply is
always the answer to a delivered delivery: it names the original message, and
its one delivery is addressed to the original sender.  A reply that fails leaves
the store as it was, and a repeated reply finds the stored one.
-/

namespace Pallium.Relay

open Pallium.Run Pallium.Transaction

variable {host : Host} {now : ℤ} {before store after : RelayStore}

/-- The reply answers the delivered delivery of the original message. -/
structure RepliedBy (store : RelayStore) (delivery : RelayDelivery)
    (original reply : RelayMessage) : Prop where
  delivered : delivery.state = .delivered
  answered : store.messages.get delivery.messageId = some original
  inReplyTo : reply.inReplyTo = some original.id
  recipient : original.senderEndpointId = some reply.recipientSelector
  answer : OnlyDelivery store reply.id original.senderRuntime original.senderSessionRef

/-- What is stored under the reply id of the delivery is a reply to it. -/
def ReplyStored (host : Host) (deliveryId : String) (store : RelayStore) : Prop :=
  ∀ reply, store.messages.get (replyId host deliveryId) = some reply →
    ∃ delivery original, store.deliveries.get deliveryId = some delivery ∧
      RepliedBy store delivery original reply

theorem RepliedBy.kept {writes : Option String} {deliveryId : String}
    {delivery : RelayDelivery} {original reply : RelayMessage}
    (hreplied : RepliedBy before delivery original reply)
    (hget : before.deliveries.get deliveryId = some delivery)
    (hevolves : Evolves host now writes before after) (hledger : LedgerWellFormed after) :
    after.deliveries.get deliveryId = some delivery ∧
      RepliedBy after delivery original reply := by
  obtain ⟨changed, hchanged, hchange⟩ := hevolves.kept deliveryId delivery hget
  obtain rfl := hchange.of_finished (Or.inl hreplied.delivered)
  exact ⟨hchanged, hreplied.delivered, hevolves.messages _ _ hreplied.answered,
    hreplied.inReplyTo, hreplied.recipient, hreplied.answer.kept hevolves hledger⟩

section Answering

variable {request : ReplyRequest} {delivery : RelayDelivery} {message : RelayMessage}

variable {added : RelayStore}

/-- The row of the answered delivery when its reply is created. -/
def answeredRow (now : ℤ) (delivery : RelayDelivery) : RelayDelivery :=
  if delivery.state = .claimed then delivery.markDelivered now else delivery

theorem answeredRow_delivered (hcheck : ReplyCheck host request now delivery message true) :
    (answeredRow now delivery).state = .delivered := by
  unfold answeredRow
  cases hcheck with
  | claimed hstate => rw [if_pos hstate]; rfl
  | delivered hstate => rw [if_neg (by rw [hstate]; exact nofun), hstate]

theorem Sweeps.get_of_delivered {deliveryId : String}
    (hsweeps : Sweeps now before after) (hget : before.deliveries.get deliveryId = some delivery)
    (hstate : delivery.state = .delivered) : after.deliveries.get deliveryId = some delivery := by
  rcases hsweeps.deliveries deliveryId delivery hget with hsame | ⟨hdue, -⟩
  · exact hsame
  · rcases (RelayStore.due_iff.mp hdue).1 with hopen | hopen <;> rw [hstate] at hopen <;>
      cases hopen

section

variable {reply : RelayMessage} {target : RelaySession}
  (hadded : Added host reply target store added)
  (hget : store.deliveries.get delivery.id = some delivery)
include hadded hget

theorem get_answered (hcheck : ReplyCheck host request now delivery message true)
    (hsweeps : Sweeps now (finishReplied now delivery added) after) :
    after.deliveries.get delivery.id = some (answeredRow now delivery) := by
  refine hsweeps.get_of_delivered ?_ (answeredRow_delivered hcheck)
  rw [get_finishReplied, hadded.get_of_some hget, answeredRow]
  by_cases hstate : delivery.state = .claimed
  · rw [if_pos ⟨rfl, hstate⟩, if_pos hstate, Option.map_some]
  · rw [if_neg fun hboth => hstate hboth.2, if_neg hstate]

theorem get_answer (hsweeps : Sweeps now (finishReplied now delivery added) after) :
    ∃ answer, after.deliveries.get (nextDeliveryId host store) = some answer ∧
      SameAddress (RelayDelivery.fresh (nextDeliveryId host store) reply.id target) answer := by
  have hnew : nextDeliveryId host store ≠ delivery.id := by
    intro hsame
    have hnone := hadded.newDelivery
    rw [hsame, hget] at hnone
    cases hnone
  have hfresh : (finishReplied now delivery added).deliveries.get (nextDeliveryId host store) =
      some (RelayDelivery.fresh (nextDeliveryId host store) reply.id target) := by
    rw [get_finishReplied, if_neg fun hboth => hnew hboth.1, hadded.deliveries, if_pos rfl]
  rcases hsweeps.deliveries _ _ hfresh with hsame | ⟨-, hexpired⟩
  · exact ⟨_, hsame, rfl, rfl, rfl⟩
  · exact ⟨_, hexpired, rfl, rfl, rfl⟩

end

/-- A created reply answers the delivery. -/
theorem repliedBy_of_created {sender recipient : RelaySession}
    (hget : store.deliveries.get delivery.id = some delivery)
    (hmessage : store.messages.get delivery.messageId = some message)
    (hcheck : ReplyCheck host request now delivery message true)
    (hrecipient : store.relaySessionByEndpoint message.senderEndpointId = some recipient)
    (hadded : Added host (replyMessage request now message sender recipient) recipient store added)
    (hsweeps : Sweeps now (finishReplied now delivery added) after)
    (hbefore : LedgerWellFormed store) (hafter : LedgerWellFormed after) :
    RepliedBy after (answeredRow now delivery) message
      (replyMessage request now message sender recipient) := by
  obtain ⟨hendpoint, hstored⟩ := RelayStore.relaySessionByEndpoint_eq_some hrecipient
  obtain ⟨endpointId, session, hsender, hsession, hruntime, href⟩ :=
    hbefore.sender delivery.messageId message hmessage
  obtain rfl : recipient.id = endpointId := Option.eq_some_unique hendpoint hsender
  obtain rfl := Option.eq_some_unique hstored hsession
  have hmessageId : (answeredRow now delivery).messageId = delivery.messageId := by
    unfold answeredRow
    split <;> rfl
  obtain ⟨answer, hanswer, haddress⟩ := get_answer hadded hget hsweeps
  have honly := hafter.onlyDelivery hanswer
  rw [haddress.1, haddress.2.1, haddress.2.2] at honly
  refine ⟨answeredRow_delivered hcheck, ?_, rfl, hendpoint, ?_⟩
  · rw [hmessageId, hsweeps.messages, (finishReplied_frame now delivery added).1]
    exact hadded.messages_of_some hmessage
  · rw [← hruntime, ← href]
    exact honly

theorem sameReply_replyMessage (request : ReplyRequest) (now : ℤ) (message : RelayMessage)
    (sender recipient : RelaySession) :
    sameReply request (replyMessage request now message sender recipient) := by
  have hexpiry :
      expiryMatches (replyMessage request now message sender recipient)
        request.expiresInSeconds := by
    unfold expiryMatches replyMessage expiryAt
    cases request.expiresInSeconds with
    | none => exact beq_self_eq_true durableExpiry
    | some duration => exact beq_iff_eq.mpr (by simp only; omega)
  unfold sameReply
  rw [hexpiry]
  simp [replyMessage]

theorem ReplyOutcome.stored {view : StatusView}
    (houtcome : ReplyOutcome host request now store (after, .ok view)) :
    view.messageId = request.replyMessageId ∧
      ∃ reply, after.messages.get request.replyMessageId = some reply ∧
        sameReply request reply := by
  cases houtcome with
  | @answered delivery message _ _ hget hmessage hcheck hanswered hview =>
    refine ⟨hview, ?_⟩
    cases hanswered with
    | @repeated existing hexisting hsame hsweeps =>
      exact ⟨existing, by rw [hsweeps.messages, hexisting], hsame⟩
    | @created sender recipient added hsender hrecipient hadded hsweeps =>
      refine ⟨replyMessage request now message sender recipient, ?_, ?_⟩
      · rw [hsweeps.messages, (finishReplied_frame now delivery added).1, hadded.messages]
        exact if_pos rfl
      · exact sameReply_replyMessage request now message sender recipient

/-- The receipt of the request is that of the delivered claim, where it has one. -/
def ReceiptAccepted (host : Host) (request : ReplyRequest) (delivery : RelayDelivery) : Prop :=
  ∀ receipt, request.receipt = some receipt →
    ∃ found, deliveryReceipt host delivery.claimToken = some found ∧
      compareDigest found receipt = .ok true

theorem DeliveryChange.claimToken_of_delivered {changed : RelayDelivery}
    (hchange : DeliveryChange host before after now delivery changed)
    (hstate : changed.state = .delivered) : changed.claimToken = delivery.claimToken := by
  cases hchange with
  | same => rfl
  | expired => cases hstate
  | claimed => cases hstate
  | delivered => rfl
  | @suppressed clearClaim => cases clearClaim <;> cases hstate
  | adopted => rfl

theorem ReplyOutcome.receiptAccepted {view : StatusView} {changed : RelayDelivery}
    (houtcome : ReplyOutcome host request now store (after, .ok view))
    (hwellFormed : StoreWellFormed host store)
    (hget : after.deliveries.get request.deliveryId = some changed)
    (hstate : changed.state = .delivered) : ReceiptAccepted host request changed := by
  have hevolves := houtcome.evolves
  cases houtcome with
  | @answered delivery message _ _ hbefore hmessage hcheck =>
    obtain ⟨kept, hkept, hchange⟩ := hevolves.kept _ delivery hbefore
    obtain rfl := Option.eq_some_unique hkept hget
    intro receipt hreceipt
    rw [hchange.claimToken_of_delivered hstate]
    cases hcheck with
    | claimed hclaimed _ _ hgiven hcurrent =>
      have htoken := ((hwellFormed.deliveries _ delivery hbefore).claimed hclaimed).1
      obtain ⟨token, htoken⟩ := Option.isSome_iff_exists.mp htoken
      obtain rfl := Option.eq_some_unique hgiven hreceipt
      rw [htoken] at hcurrent ⊢
      exact ⟨_, rfl, hcurrent⟩
    | delivered _ haccepted => exact haccepted receipt hreceipt

end Answering

section Repeating

variable {request : ReplyRequest} {delivery : RelayDelivery} {message : RelayMessage}

theorem relayStatusInSession_succeeds (host : Host) (stamps : DeliveryStamps) (now : ℤ)
    (message : RelayMessage) (store : RelayStore) :
    ∃ after view, relayStatusInSession host stamps now 0 none message store = .ok (after, view) := by
  simp only [relayStatusInSession, bind_eq_ok, require_eq_ok, pure_eq_ok]
  exact ⟨_, _, (), Nat.zero_le _, rfl⟩

theorem checkReplied_of_delivered (hstate : delivery.state = .delivered)
    (hreceipt : ReceiptAccepted host request delivery) :
    checkReplied host request now delivery message = .ok true := by
  unfold checkReplied
  rw [hstate]
  simp only
  cases hgiven : request.receipt with
  | none => rfl
  | some receipt =>
    obtain ⟨found, hfound, hmatched⟩ := hreceipt receipt hgiven
    simp only [bind_eq_ok, orRaise_eq_ok, require_eq_ok, pure_eq_ok]
    exact ⟨found, hfound, true, hmatched, (), rfl, trivial⟩

/-- The session that was to answer is registered and active. -/
def ReplierActive (store : RelayStore) (delivery : RelayDelivery) : Prop :=
  ∃ sender, store.relaySessionByEndpoint delivery.recipientEndpointId = some sender ∧
    sender.state = .active

/-- A repeated reply finds the stored one while the replying session is active,
and is refused otherwise. -/
theorem relayReplyAtomic_of_stored {reply : RelayMessage}
    (hrow : store.deliveryWithMessage request.deliveryId = some (delivery, message))
    (hstate : delivery.state = .delivered) (hreceipt : ReceiptAccepted host request delivery)
    (hreply : store.messages.get request.replyMessageId = some reply)
    (hsame : sameReply request reply) :
    (ReplierActive store delivery → ∃ after view,
        relayReplyAtomic host request now store = (after, .ok view) ∧
          view.messageId = request.replyMessageId ∧ Sweeps now store after) ∧
      (¬ ReplierActive store delivery → ∃ error,
        relayReplyAtomic host request now store = (store, .error error)) := by
  have hcheck := @checkReplied_of_delivered host now request delivery message hstate hreceipt
  constructor
  · rintro ⟨sender, hsender, hactive⟩
    obtain ⟨after, view, hstatus⟩ :=
      relayStatusInSession_succeeds host .stored now reply store
    have hanswer : answer host request now delivery message store = .ok (after, view) := by
      unfold answer
      simp only [bind_eq_ok, orRaise_eq_ok, require_eq_ok]
      refine ⟨sender, hsender, (), hactive, ?_⟩
      rw [hreply]
      simp only [bind_eq_ok, require_eq_ok]
      exact ⟨(), hsame, hstatus⟩
    have hbody : relayReplyBody host request now store = .ok (after, some view) := by
      simp only [relayReplyBody, bind_eq_ok, orRaise_eq_ok]
      refine ⟨_, hrow, true, hcheck, ?_⟩
      simp only [if_true, bind_eq_ok, pure_eq_ok]
      exact ⟨_, hanswer, rfl⟩
    obtain ⟨hsweeps, hview⟩ := relayStatusInSession_eq_ok hstatus
    refine ⟨after, view, ?_, hview.trans (Table.key_of_get hreply), hsweeps⟩
    rw [relayReplyAtomic, transaction_of_ok hbody]
    rfl
  · intro hinactive
    rcases transaction_cases (relayReplyBody host request now) store with
      ⟨after, result, hbody, -⟩ | ⟨error, -, htransaction⟩
    · exfalso
      simp only [relayReplyBody, bind_eq_ok, orRaise_eq_ok] at hbody
      obtain ⟨row, hfound, allowed, hallowed, hbody⟩ := hbody
      obtain rfl := Option.eq_some_unique hrow hfound
      obtain rfl := Except.ok.inj (hcheck.symm.trans hallowed)
      simp only [if_true, bind_eq_ok] at hbody
      obtain ⟨answered, hanswer, -⟩ := hbody
      unfold answer at hanswer
      simp only [bind_eq_ok, orRaise_eq_ok, require_eq_ok] at hanswer
      obtain ⟨sender, hsender, -, hactive, -⟩ := hanswer
      exact hinactive ⟨sender, hsender, hactive⟩
    · refine ⟨error, ?_⟩
      rw [relayReplyAtomic, htransaction]
      rfl

end Repeating

section Runs

variable {deliveryId : String} {request : ReplyRequest}

/-- The operation is a reply to the delivery. -/
def RelayOp.RepliesTo (deliveryId : String) : RelayOp → Prop
  | .reply request _ => request.deliveryId = deliveryId
  | _ => False

instance (deliveryId : String) : (op : RelayOp) → Decidable (op.RepliesTo deliveryId)
  | .reply request _ => inferInstanceAs (Decidable (request.deliveryId = deliveryId))
  | .send .. | .turn .. | .openCodeWake .. | .openCodeContext .. | .ack .. | .ackByReceipt ..
  | .messageStatus .. | .closeSession .. | .nameSession .. | .markActive .. | .markUnreachable ..
  | .repairApply .. => instDecidableFalse

/-- Only replies to the delivery are written under its reply id. -/
def OwnReplyId (host : Host) (deliveryId : String) (op : RelayOp) : Prop :=
  op.writes host = some (replyId host deliveryId) → op.RepliesTo deliveryId

instance (host : Host) (deliveryId : String) (op : RelayOp) :
    Decidable (OwnReplyId host deliveryId op) :=
  inferInstanceAs (Decidable (_ → _))

/-- A reply that is stored by an operation was created by a reply to the delivery. -/
theorem ReplyOutcome.replied {reply : RelayMessage}
    {outcome : RelayStore × Except RelayError StatusView}
    (houtcome : ReplyOutcome host request now store outcome)
    (hid : request.replyMessageId = replyId host deliveryId)
    (hdeliveryId : request.deliveryId = deliveryId) (hbefore : LedgerWellFormed store)
    (hafter : LedgerWellFormed outcome.1)
    (hnone : store.messages.get (replyId host deliveryId) = none)
    (hreply : outcome.1.messages.get (replyId host deliveryId) = some reply) :
    ∃ delivery original, outcome.1.deliveries.get deliveryId = some delivery ∧
      RepliedBy outcome.1 delivery original reply := by
  subst hdeliveryId
  cases houtcome with
  | refused => rw [hnone] at hreply; cases hreply
  | expired => exact absurd (hnone.symm.trans hreply) nofun
  | @answered delivery message _ _ hget hmessage hcheck hanswered =>
    obtain hdeliveryId : delivery.id = request.deliveryId := Table.key_of_get hget
    rw [← hdeliveryId] at hget
    cases hanswered with
    | repeated hexisting =>
      rw [hid, hnone] at hexisting
      cases hexisting
    | @created sender recipient added hsender hrecipient hadded hsweeps =>
      have hreplied := repliedBy_of_created hget hmessage hcheck hrecipient hadded hsweeps
        hbefore hafter
      have hwritten : added.messages.get (replyId host request.deliveryId) =
          some (replyMessage request now message sender recipient) := by
        rw [hadded.messages, ← hid]
        exact if_pos rfl
      rw [hsweeps.messages, (finishReplied_frame now delivery added).1, hwritten] at hreply
      cases hreply
      exact ⟨_, message, hdeliveryId ▸ get_answered hadded hget hcheck hsweeps, hreplied⟩

theorem RelayOp.step_replyStored {op : RelayOp} (hown : OwnReplyId host deliveryId op)
    (hledger : LedgerWellFormed store) (hstored : ReplyStored host deliveryId store) :
    ReplyStored host deliveryId (op.step host store) := by
  have hevolves := op.step_evolves host store
  have hafter := hevolves.ledgerWellFormed hledger
  intro reply hreply
  cases hbefore : store.messages.get (replyId host deliveryId) with
  | some existing =>
    obtain rfl := Option.some.inj ((hevolves.messages _ _ hbefore).symm.trans hreply)
    obtain ⟨delivery, original, hget, hreplied⟩ := hstored existing hbefore
    exact ⟨delivery, original, hreplied.kept hget hevolves hafter⟩
  | none =>
    rcases hevolves.message_cases hreply with hsome | ⟨hwrites, -, -⟩
    · rw [hbefore] at hsome
      cases hsome
    · have hreplies := hown hwrites
      cases op with
      | reply request now =>
        exact (relayReplyAtomic_outcome (serviceReply host request)).replied
          (Option.some.inj hwrites) hreplies hledger hafter hbefore hreply
      | _ => cases hreplies

/-- What holds of a store in whose past only replies to the delivery were
written under its reply id. -/
structure ReplyInvariant (host : Host) (deliveryId : String) (store : RelayStore) : Prop where
  wellFormed : StoreWellFormed host store
  ledger : LedgerWellFormed store
  stored : ReplyStored host deliveryId store

theorem RelayOp.step_replyInvariant {op : RelayOp} (hown : OwnReplyId host deliveryId op)
    (hinvariant : ReplyInvariant host deliveryId store) :
    ReplyInvariant host deliveryId (op.step host store) where
  wellFormed := (op.step_evolves host store).storeWellFormed hinvariant.wellFormed
  ledger := (op.step_evolves host store).ledgerWellFormed hinvariant.ledger
  stored := RelayOp.step_replyStored hown hinvariant.ledger hinvariant.stored

theorem reached_replyInvariant {ops : List RelayOp}
    (hown : ∀ op ∈ ops, OwnReplyId host deliveryId op) :
    ReplyInvariant host deliveryId (reached host ops) :=
  (Along.of_forall hown).invariant
    ⟨StoreWellFormed.empty host, LedgerWellFormed.empty, fun _ hreply => nomatch hreply⟩
    fun _ _ hop hinvariant => RelayOp.step_replyInvariant hop hinvariant

/-- A failing reply leaves the store, or marks the claimed delivery of an expired
message as expired. -/
def FailedReply (store after : RelayStore) (deliveryId : String) (now : ℤ) : Prop :=
  after = store ∨ ∃ delivery message, store.deliveries.get deliveryId = some delivery ∧
    delivery.state = .claimed ∧ store.messages.get delivery.messageId = some message ∧
    message.expiresAt ≤ now ∧ after = expireClaim delivery store

/-- A repeated reply writes nothing.  It returns the stored reply while the
replying session is active, and is refused otherwise. -/
def Repeats (host : Host) (request : ReplyRequest) (store : RelayStore)
    (delivery : RelayDelivery) (reply : RelayMessage) : Prop :=
  store.messages.get reply.id = some reply ∧ ∀ now,
    (ReplierActive store delivery → ∃ after view,
      (RelayOp.reply request now).execute host store = (after, .ok (.status view)) ∧
        view.messageId = reply.id ∧ Sweeps now store after) ∧
    (¬ ReplierActive store delivery → ∃ error,
      (RelayOp.reply request now).execute host store = (store, .error error))

/-- What is stored after a successful reply makes every repetition find it. -/
theorem repeats_of_stored {delivery : RelayDelivery}
    {message reply : RelayMessage}
    (hget : store.deliveries.get request.deliveryId = some delivery)
    (hmessage : store.messages.get delivery.messageId = some message)
    (hstate : delivery.state = .delivered)
    (hreceipt : ReceiptAccepted host (serviceReply host request) delivery)
    (hreply : store.messages.get (replyId host request.deliveryId) = some reply)
    (hsame : sameReply (serviceReply host request) reply) :
    Repeats host request store delivery reply := by
  have hid : reply.id = replyId host request.deliveryId := Table.key_of_get hreply
  refine ⟨hid ▸ hreply, fun now => ?_⟩
  have hrow := RelayStore.deliveryWithMessage_eq_some.mpr ⟨hget, hmessage⟩
  obtain ⟨hactive, hinactive⟩ :=
    @relayReplyAtomic_of_stored host now store (serviceReply host request) delivery message reply
      hrow hstate hreceipt hreply hsame
  have hexecute : (RelayOp.reply request now).execute host store =
      wrap .status (relayReplyAtomic host (serviceReply host request) now store) := rfl
  constructor
  · intro hreplier
    obtain ⟨after, view, hatomic, hview, hsweeps⟩ := hactive hreplier
    refine ⟨after, view, ?_, hview.trans hid.symm, hsweeps⟩
    rw [hexecute, hatomic]
    rfl
  · intro hreplier
    obtain ⟨error, hatomic⟩ := hinactive hreplier
    refine ⟨error, ?_⟩
    rw [hexecute, hatomic]
    rfl

/-- A reply either fails and changes nothing but an expired claim, or it leaves
its delivery delivered and one stored reply, which every later repetition
finds. -/
theorem reply_atomic {ops : List RelayOp} {request : ReplyRequest} {now : ℤ}
    (hown : ∀ op ∈ ops, OwnReplyId host request.deliveryId op) :
    let before := reached host ops
    let after := (RelayOp.reply request now).step host before
    (∃ error, ((RelayOp.reply request now).execute host before).2 = .error error ∧
        FailedReply before after request.deliveryId now) ∨
      ∃ view delivery original reply,
        ((RelayOp.reply request now).execute host before).2 = .ok (.status view) ∧
        view.messageId = reply.id ∧ reply.id = replyId host request.deliveryId ∧
        after.deliveries.get request.deliveryId = some delivery ∧
        after.messages.get reply.id = some reply ∧
        RepliedBy after delivery original reply ∧
        ∀ later, Repeats host request (reached host (ops ++ .reply request now :: later))
          delivery reply := by
  intro before after
  have hinvariant : ReplyInvariant host request.deliveryId before := reached_replyInvariant hown
  have hafter : ReplyInvariant host request.deliveryId after :=
    RelayOp.step_replyInvariant (fun _ => rfl) hinvariant
  have houtcome := @relayReplyAtomic_outcome host now before (serviceReply host request)
  have hexecute : (RelayOp.reply request now).execute host before =
      wrap .status (relayReplyAtomic host (serviceReply host request) now before) := rfl
  have hstep : after = (relayReplyAtomic host (serviceReply host request) now before).1 := rfl
  rw [hexecute]
  rcases houtcome_eq : relayReplyAtomic host (serviceReply host request) now before with
    ⟨left, error | view⟩
  · refine Or.inl ⟨error, rfl, ?_⟩
    rw [houtcome_eq] at houtcome hstep
    cases houtcome with
    | refused => exact Or.inl hstep
    | expired hget hmessage hstate hexpired =>
      exact Or.inr ⟨_, _, hget, hstate, hmessage, hexpired, hstep⟩
  · rw [houtcome_eq] at houtcome hstep
    simp only at hstep
    rw [← hstep] at houtcome
    obtain ⟨hview, reply, hreply, hsame⟩ := houtcome.stored
    obtain ⟨delivery, original, hget, hreplied⟩ := hafter.stored reply hreply
    have hid : reply.id = replyId host request.deliveryId := Table.key_of_get hreply
    refine Or.inr ⟨view, delivery, original, reply, rfl, hview.trans hid.symm, hid, hget,
      hid ▸ hreply, hreplied, fun later => ?_⟩
    have hlater : reached host (ops ++ .reply request now :: later) =
        run (RelayOp.step host) after later := by
      rw [reached, run_append]
      rfl
    obtain ⟨final, hfinal, -, hkept⟩ := delivery_run host later hget
    rw [hkept (Or.inl hreplied.delivered)] at hfinal
    rw [hlater]
    exact repeats_of_stored hfinal (messages_run host later hreplied.answered)
      hreplied.delivered (houtcome.receiptAccepted hinvariant.wellFormed hget hreplied.delivered)
      (messages_run host later hreply) hsame

end Runs

section Example

/-- The reply of the second session, with the receipt of its claim. -/
def exampleReplyRequest : ReplyRequest where
  deliveryId := exampleDeliveryId
  receipt := some "a9c62483ba1e4ee9ad0f0afa7c66f1ce"
  replyMessageId := ""
  payload := "answer"
  redacted := false
  expiresInSeconds := some 3600
  expirySupplied := true

def exampleReply (now : ℤ) : RelayOp := .reply exampleReplyRequest now

def exampleReplied : List RelayOp := exampleClaimed ++ [exampleReply 2000000]

/-- The second session closes. -/
def exampleClose : RelayOp := .closeSession .claudeCode "recipient" "repo:a" 3000000

/-- The answer to the message of the first session. -/
theorem reply_atomic_answer :
    ∃ view delivery original reply,
      ((exampleReply 2000000).execute exampleHost (reached exampleHost exampleClaimed)).2 =
        .ok (.status view) ∧
      view.messageId = reply.id ∧
      (reached exampleHost exampleReplied).deliveries.get exampleDeliveryId = some delivery ∧
      RepliedBy (reached exampleHost exampleReplied) delivery original reply := by
  have hok : ((exampleReply 2000000).execute exampleHost
      (reached exampleHost exampleClaimed)).2.toOption.isSome := by
    decide
  have hown : ∀ op ∈ exampleClaimed, OwnReplyId exampleHost exampleDeliveryId op := by
    decide
  have hatomic := @reply_atomic exampleHost exampleClaimed exampleReplyRequest 2000000 hown
  rcases hatomic with ⟨error, herror, -⟩ |
    ⟨view, delivery, original, reply, hresult, hview, -, hget, -, hreplied, -⟩
  · rw [exampleReply, herror] at hok
    cases hok
  · rw [exampleReplied, reached_snoc]
    exact ⟨view, delivery, original, reply, hresult, hview, hget, hreplied⟩

/-- A repeated reply is refused once the replying session has closed. -/
theorem reply_refused_after_close :
    ((exampleReply 2000000).execute exampleHost
        (reached exampleHost exampleClaimed)).2.toOption.isSome ∧
      ((exampleReply 4000000).execute exampleHost
        (reached exampleHost (exampleReplied ++ [exampleClose]))).2 =
        .error (.conflict "closed or unreachable sessions cannot reply") := by
  decide

end Example

end Pallium.Relay
