import Pallium.Relay.Changes

/-!
# What acknowledgements, replies and sends establish

The outcome of an acknowledgement or of a reply is one of a few cases, each with
all that was checked and with the store it leaves behind.  A refused call leaves
the store as it was; the only other effect of a failing one is that a claimed
delivery of an expired message is marked expired.
-/

namespace Pallium.Relay

open Pallium.Transaction

variable {host : Host} {now : ℤ} {writes : Option String} {store after : RelayStore}

section Sending

variable {message : RelayMessage} {target : RelaySession}

theorem relayStatusInSession_eq_ok {stamps : DeliveryStamps} {offset : ℕ} {limit : Option ℕ}
    {view : StatusView}
    (hstatus : relayStatusInSession host stamps now offset limit message store =
      .ok (after, view)) :
    Sweeps now store after ∧ view.messageId = message.id := by
  simp only [relayStatusInSession, bind_eq_ok, require_eq_ok, pure_eq_ok, Prod.mk.injEq] at hstatus
  obtain ⟨-, -, rfl, rfl⟩ := hstatus
  refine ⟨?_, rfl⟩
  split
  · exact sweeps_sweepMessage store message.id
  · exact Sweeps.refl store

def nextDeliveryId (host : Host) (store : RelayStore) : String :=
  "relay-delivery-" ++ host.uuid4Hex store.drawn

/-- What a successful insertion of a message and its delivery establishes. -/
structure Added (host : Host) (message : RelayMessage) (target : RelaySession)
    (before after : RelayStore) : Prop where
  newMessage : before.messages.get message.id = none
  newDelivery : before.deliveries.get (nextDeliveryId host before) = none
  messages : ∀ messageId, after.messages.get messageId =
    if messageId = message.id then some message else before.messages.get messageId
  deliveries : ∀ deliveryId, after.deliveries.get deliveryId =
    if deliveryId = nextDeliveryId host before then
      some (RelayDelivery.fresh (nextDeliveryId host before) message.id target)
    else before.deliveries.get deliveryId
  sessions : after.sessions = before.sessions
  drawn : after.drawn = before.drawn + 1

theorem addMessage_eq_ok (hadd : addMessage host message target store = .ok after) :
    Added host message target store after := by
  simp only [addMessage, bind_eq_ok, require_eq_ok, orRaise_eq_ok, pure_eq_ok] at hadd
  obtain ⟨messages, hmessages, -, -, deliveries, hdeliveries, rfl⟩ := hadd
  exact
    { newMessage := Table.get_eq_none_of_insertNew hmessages
      newDelivery := Table.get_eq_none_of_insertNew hdeliveries
      messages := fun messageId => Table.get_insertNew hmessages messageId
      deliveries := fun deliveryId => Table.get_insertNew hdeliveries deliveryId
      sessions := rfl
      drawn := rfl }

section

variable (hadded : Added host message target store after)
include hadded

theorem Added.get_of_some {deliveryId : String}
    {delivery : RelayDelivery} (hget : store.deliveries.get deliveryId = some delivery) :
    after.deliveries.get deliveryId = some delivery := by
  rw [hadded.deliveries, if_neg, hget]
  rintro rfl
  rw [hadded.newDelivery] at hget
  cases hget

theorem Added.messages_of_some {messageId : String} {found : RelayMessage}
    (hget : store.messages.get messageId = some found) :
    after.messages.get messageId = some found := by
  rw [hadded.messages, if_neg, hget]
  rintro rfl
  rw [hadded.newMessage] at hget
  cases hget

theorem Added.births (hsender : SentBy store message) : Births (some message.id) store after := by
  refine @Births.one _ _ _ message
    (RelayDelivery.fresh (nextDeliveryId host store) message.id target) rfl hadded.newMessage
    hadded.messages (hsender.of_eq hadded.sessions) hadded.newDelivery ?_ rfl
    ⟨target, Or.inl rfl⟩ fun otherId hother hbefore => ?_
  · rw [RelayDelivery.id_fresh, hadded.deliveries, if_pos rfl]
  · rw [RelayDelivery.id_fresh] at hother
    rw [hadded.deliveries, if_neg hother, hbefore]

theorem Added.evolves
    (hsender : SentBy store message) : Evolves host now (some message.id) store after where
  kept deliveryId delivery hget := ⟨delivery, hadded.get_of_some hget, .same⟩
  births := hadded.births hsender
  sessions := SessionsKept.of_eq hadded.sessions
  drawn := by rw [hadded.drawn]; exact Nat.le_succ _

end

def sentMessage (request : SendRequest) (now : ℤ) (sender : RelaySession) : RelayMessage where
  id := request.messageId
  senderRuntime := request.senderRuntime
  senderSessionRef := request.senderSessionRef
  senderEndpointId := some sender.id
  recipientSelector := request.recipient
  containerRef := sender.containerRef
  payload := request.payload
  redacted := request.redacted
  inReplyTo := request.inReplyTo
  createdAt := now
  expiresAt := expiryAt now request.expiresInSeconds

/-- The cases of a send. -/
inductive SendOutcome (host : Host) (request : SendRequest) (now : ℤ) (store : RelayStore) :
    RelayStore × Except RelayError StatusView → Prop
  | refused (error : RelayError) : SendOutcome host request now store (store, .error error)
  | repeated {sender : RelaySession} {existing : RelayMessage} {after : RelayStore}
      {view : StatusView}
      (hsender : store.relaySession request.containerRef request.senderRuntime
        request.senderSessionRef = some sender)
      (hexisting : store.messages.get request.messageId = some existing)
      (hsame : sameSend request sender existing) (hsweeps : Sweeps now store after)
      (hview : view.messageId = request.messageId) :
      SendOutcome host request now store (after, .ok view)
  | created {sender target : RelaySession} {added after : RelayStore} {view : StatusView}
      (hsender : store.relaySession request.containerRef request.senderRuntime
        request.senderSessionRef = some sender)
      (hnone : store.messages.get request.messageId = none)
      (htarget : relayTarget store request.recipientRuntime request.recipientKind
        request.recipientValue = .ok target)
      (hadded : Added host (sentMessage request now sender) target store added)
      (hsweeps : Sweeps now added after) (hview : view.messageId = request.messageId) :
      SendOutcome host request now store (after, .ok view)

theorem relaySend_outcome (request : SendRequest) :
    SendOutcome host request now store (relaySend host request now store) := by
  unfold relaySend
  rcases transaction_cases (relaySendBody host request now) store with
    ⟨after, view, hbody, htransaction⟩ | ⟨error, -, htransaction⟩
  · rw [htransaction]
    simp only [relaySendBody, bind_eq_ok, orRaise_eq_ok, require_eq_ok] at hbody
    obtain ⟨sender, hsender, -, -, -, -, hbody⟩ := hbody
    split at hbody
    · next existing hexisting =>
        simp only [bind_eq_ok, require_eq_ok] at hbody
        obtain ⟨-, hsame, hstatus⟩ := hbody
        obtain ⟨hsweeps, hview⟩ := relayStatusInSession_eq_ok hstatus
        exact .repeated hsender hexisting hsame hsweeps (hview.trans (Table.key_of_get hexisting))
    · next hnone =>
        simp only [bind_eq_ok] at hbody
        obtain ⟨target, htarget, added, hadded, hstatus⟩ := hbody
        obtain ⟨hsweeps, hview⟩ := relayStatusInSession_eq_ok hstatus
        exact .created hsender hnone htarget (addMessage_eq_ok hadded) hsweeps hview
  · rw [htransaction]
    exact .refused error

theorem relaySend_evolves (request : SendRequest) :
    Evolves host now (some request.messageId) store (relaySend host request now store).1 := by
  have houtcome := @relaySend_outcome host now store request
  generalize relaySend host request now store = outcome at houtcome
  cases houtcome with
  | refused => exact Evolves.refl store
  | repeated _ _ _ hsweeps => exact hsweeps.evolves
  | @created sender target added after view hsender _ _ hadded hsweeps =>
    obtain ⟨hget, -, hruntime, href⟩ := RelayStore.get_of_relaySession hsender
    refine (hadded.evolves ⟨sender.id, sender, rfl, hget, hruntime, href⟩).then_sweeps ?_ hsweeps
    intro deliveryId delivery changed hbefore hchanged
    exact Or.inl (Option.eq_some_unique hchanged (hadded.get_of_some hbefore))

theorem relayMessageStatus_evolves (messageId : String) (offset pageSize : Option ℕ) :
    Evolves host now writes store (relayMessageStatus host messageId offset pageSize now store).1 := by
  refine transaction_related (Evolves.refl store) fun after view hbody => ?_
  simp only [bind_eq_ok, orRaise_eq_ok] at hbody
  obtain ⟨message, -, hstatus⟩ := hbody
  exact (relayStatusInSession_eq_ok hstatus).1.evolves

end Sending

section Finishing

variable {delivery : RelayDelivery} {message : RelayMessage}

variable {request : ReplyRequest} {deliveryId : String}

theorem expireClaim_sweeps (hget : store.deliveries.get delivery.id = some delivery)
    (hmessage : store.messages.get delivery.messageId = some message)
    (hstate : delivery.state = .claimed) (hexpired : message.expiresAt ≤ now) :
    Sweeps now store (expireClaim delivery store) :=
  sweeps_markExpired hget (RelayStore.due_iff.mpr ⟨Or.inr hstate, message, hmessage, hexpired⟩)

theorem get_markDelivered (store : RelayStore) (delivery : RelayDelivery) (now : ℤ)
    (deliveryId : String) :
    (store.modifyDelivery delivery.id fun row => row.markDelivered now).deliveries.get deliveryId =
      if deliveryId = delivery.id then
        (store.deliveries.get deliveryId).map fun row => row.markDelivered now
      else store.deliveries.get deliveryId :=
  Table.get_modify _ _ (by simp) _

theorem markDelivered_evolves (hget : store.deliveries.get delivery.id = some delivery)
    (hmessage : store.messages.get delivery.messageId = some message)
    (hstate : delivery.state = .claimed) (hlease : leaseLive now delivery)
    (hlive : now < message.expiresAt) :
    Evolves host now writes store
      (store.modifyDelivery delivery.id fun row => row.markDelivered now) where
  kept deliveryId other hother := by
    rw [get_markDelivered, hother]
    split
    · next hid =>
        rw [hid, hget] at hother
        cases hother
        exact ⟨_, rfl, .delivered hstate hlease hmessage hlive⟩
    · exact ⟨other, rfl, .same⟩
  births := .nothing rfl fun deliveryId hnone => by
    rw [get_markDelivered, hnone]
    split <;> rfl
  sessions := SessionsKept.refl _
  drawn := le_rfl

/-- The cases of an acknowledgement whose credential is good for the deliveries
that satisfy `accepts`. -/
inductive AckOutcome (now : ℤ) (store : RelayStore) (deliveryId : String)
    (accepts : RelayDelivery → Prop) : RelayStore × Except RelayError AckResult → Prop
  | refused (error : RelayError) : AckOutcome now store deliveryId accepts (store, .error error)
  | expired {delivery : RelayDelivery} {message : RelayMessage}
      (hget : store.deliveries.get deliveryId = some delivery)
      (hmessage : store.messages.get delivery.messageId = some message)
      (hstate : delivery.state = .claimed) (hexpired : message.expiresAt ≤ now) :
      AckOutcome now store deliveryId accepts
        (expireClaim delivery store, .error messageExpired)
  | duplicate {delivery : RelayDelivery} {result : AckResult}
      (hget : store.deliveries.get deliveryId = some delivery)
      (hstate : delivery.state = .delivered) (haccepts : accepts delivery)
      (hresult : result.alreadyDelivered = true) :
      AckOutcome now store deliveryId accepts (store, .ok result)
  | finished {delivery : RelayDelivery} {message : RelayMessage} {result : AckResult}
      (hget : store.deliveries.get deliveryId = some delivery)
      (hmessage : store.messages.get delivery.messageId = some message)
      (hstate : delivery.state = .claimed) (hlease : leaseLive now delivery)
      (hlive : now < message.expiresAt) (haccepts : accepts delivery)
      (hresult : result.deliveryId = deliveryId) :
      AckOutcome now store deliveryId accepts
        (store.modifyDelivery delivery.id fun row => row.markDelivered now, .ok result)

theorem relayAck_outcome (deliveryId claimToken : String) :
    AckOutcome now store deliveryId (fun delivery => delivery.claimToken = some claimToken)
      (relayAck deliveryId claimToken now store) := by
  unfold relayAck
  rcases transaction_cases (relayAckBody deliveryId claimToken now) store with
    ⟨after, result, hbody, htransaction⟩ | ⟨error, -, htransaction⟩
  · rw [htransaction]
    simp only [relayAckBody, bind_eq_ok, orRaise_eq_ok] at hbody
    obtain ⟨⟨delivery, message⟩, hrow, hbody⟩ := hbody
    obtain ⟨hget, hmessage⟩ := RelayStore.deliveryWithMessage_eq_some.mp hrow
    split at hbody
    · next hstate =>
        simp only [bind_eq_ok, require_eq_ok, pure_eq_ok, Prod.mk.injEq] at hbody
        obtain ⟨-, htoken, rfl, rfl⟩ := hbody
        exact .duplicate hget hstate htoken rfl
    · simp only [bind_eq_ok, require_eq_ok] at hbody
      obtain ⟨-, ⟨hstate, htoken⟩, hbody⟩ := hbody
      split at hbody
      · next hexpired =>
          simp only [pure_eq_ok, Prod.mk.injEq] at hbody
          obtain ⟨rfl, rfl⟩ := hbody
          exact .expired hget hmessage hstate hexpired
      · next hlive =>
          simp only [bind_eq_ok, require_eq_ok, pure_eq_ok, finishClaim, Prod.mk.injEq] at hbody
          obtain ⟨-, hlease, rfl, rfl⟩ := hbody
          exact .finished hget hmessage hstate hlease (not_le.mp hlive) htoken
            (Table.key_of_get hget)
  · rw [htransaction]
    exact .refused error

theorem relayAckByReceipt_outcome (host : Host) (deliveryId receipt : String) :
    AckOutcome now store deliveryId
      (fun delivery => (deliveryReceipt host delivery.claimToken).getD "" = receipt)
      (relayAckByReceipt host deliveryId receipt now store) := by
  unfold relayAckByReceipt
  rcases transaction_cases (relayAckByReceiptBody host deliveryId receipt now) store with
    ⟨after, result, hbody, htransaction⟩ | ⟨error, -, htransaction⟩
  · rw [htransaction]
    simp only [relayAckByReceiptBody, bind_eq_ok, orRaise_eq_ok] at hbody
    obtain ⟨⟨delivery, message⟩, hrow, hbody⟩ := hbody
    obtain ⟨hget, hmessage⟩ := RelayStore.deliveryWithMessage_eq_some.mp hrow
    split at hbody
    · next hstate =>
        simp only [bind_eq_ok, orRaise_eq_ok, require_eq_ok, pure_eq_ok, Prod.mk.injEq] at hbody
        obtain ⟨found, hfound, matched, hmatched, -, htrue, rfl, rfl⟩ := hbody
        refine .duplicate hget hstate ?_ rfl
        rw [hfound, Option.getD_some]
        exact eq_of_matched hmatched htrue
    · simp only [bind_eq_ok, require_eq_ok] at hbody
      obtain ⟨-, hstate, hbody⟩ := hbody
      split at hbody
      · next hexpired =>
          simp only [pure_eq_ok, Prod.mk.injEq] at hbody
          obtain ⟨rfl, rfl⟩ := hbody
          exact .expired hget hmessage hstate hexpired
      · next hlive =>
          simp only [bind_eq_ok, require_eq_ok, pure_eq_ok, finishClaim, Prod.mk.injEq] at hbody
          obtain ⟨-, hlease, matched, hmatched, -, htrue, rfl, rfl⟩ := hbody
          exact .finished hget hmessage hstate hlease (not_le.mp hlive)
            (eq_of_matched hmatched htrue) (Table.key_of_get hget)
  · rw [htransaction]
    exact .refused error

theorem AckOutcome.evolves {accepts : RelayDelivery → Prop}
    {outcome : RelayStore × Except RelayError AckResult}
    (houtcome : AckOutcome now store deliveryId accepts outcome) :
    Evolves host now writes store outcome.1 := by
  cases houtcome with
  | refused => exact Evolves.refl store
  | expired hget hmessage hstate hexpired =>
    obtain rfl := Table.key_of_get hget
    exact (expireClaim_sweeps hget hmessage hstate hexpired).evolves
  | duplicate => exact Evolves.refl store
  | finished hget hmessage hstate hlease hlive =>
    obtain rfl := Table.key_of_get hget
    exact markDelivered_evolves hget hmessage hstate hlease hlive

/-- What the check of a reply establishes about the delivery. -/
inductive ReplyCheck (host : Host) (request : ReplyRequest) (now : ℤ) (delivery : RelayDelivery)
    (message : RelayMessage) : Bool → Prop
  | expired (hstate : delivery.state = .claimed) (hexpired : message.expiresAt ≤ now) :
      ReplyCheck host request now delivery message false
  | claimed (hstate : delivery.state = .claimed) (hlive : now < message.expiresAt)
      (hlease : leaseLive now delivery) {receipt : String}
      (hreceipt : request.receipt = some receipt)
      (hcurrent : compareDigest ((deliveryReceipt host delivery.claimToken).getD "") receipt =
        .ok true) :
      ReplyCheck host request now delivery message true
  | delivered (hstate : delivery.state = .delivered)
      (hreceipt : ∀ receipt, request.receipt = some receipt →
        ∃ found, deliveryReceipt host delivery.claimToken = some found ∧
          compareDigest found receipt = .ok true) :
      ReplyCheck host request now delivery message true

theorem checkReplied_eq_ok {allowed : Bool}
    (hcheck : checkReplied host request now delivery message = .ok allowed) :
    ReplyCheck host request now delivery message allowed := by
  unfold checkReplied at hcheck
  simp only at hcheck
  split at hcheck
  · next hstate =>
      split at hcheck
      · next hexpired =>
          simp only [pure_eq_ok] at hcheck
          exact hcheck ▸ .expired hstate hexpired
      · next hlive =>
          simp only [bind_eq_ok, orRaise_eq_ok, require_eq_ok, pure_eq_ok] at hcheck
          obtain ⟨-, hlease, receipt, hreceipt, matched, hmatched, -, htrue, rfl⟩ := hcheck
          exact .claimed hstate (not_le.mp hlive) hlease hreceipt (htrue ▸ hmatched)
  · next hstate =>
      split at hcheck
      · next hnone =>
          simp only [pure_eq_ok] at hcheck
          refine hcheck ▸ .delivered hstate fun receipt hsome => ?_
          rw [hnone] at hsome
          cases hsome
      · next receipt hreceipt =>
          simp only [bind_eq_ok, orRaise_eq_ok, require_eq_ok, pure_eq_ok] at hcheck
          obtain ⟨found, hfound, matched, hmatched, -, htrue, rfl⟩ := hcheck
          refine .delivered hstate fun other hother => ?_
          rw [hreceipt] at hother
          exact ⟨found, hfound, Option.some.inj hother ▸ htrue ▸ hmatched⟩
  · simp at hcheck

/-- The store between the insertion of the reply and its status. -/
def finishReplied (now : ℤ) (delivery : RelayDelivery) (store : RelayStore) : RelayStore :=
  if delivery.state = .claimed then
    store.modifyDelivery delivery.id fun row => row.markDelivered now
  else store

/-- What a successful answer establishes: the reply existed before, or it was
written and the delivery finished. -/
inductive Answered (host : Host) (request : ReplyRequest) (now : ℤ) (delivery : RelayDelivery)
    (message : RelayMessage) (before after : RelayStore) : Prop
  | repeated {existing : RelayMessage}
      (hexisting : before.messages.get request.replyMessageId = some existing)
      (hsame : sameReply request existing) (hsweeps : Sweeps now before after)
  | created {sender recipient : RelaySession} {added : RelayStore}
      (hsender : before.relaySessionByEndpoint delivery.recipientEndpointId = some sender)
      (hrecipient : before.relaySessionByEndpoint message.senderEndpointId = some recipient)
      (hadded : Added host (replyMessage request now message sender recipient) recipient
        before added)
      (hsweeps : Sweeps now (finishReplied now delivery added) after)

theorem answer_eq_ok {view : StatusView}
    (hanswer : answer host request now delivery message store = .ok (after, view)) :
    Answered host request now delivery message store after ∧
      view.messageId = request.replyMessageId := by
  unfold answer at hanswer
  simp only [bind_eq_ok, orRaise_eq_ok, require_eq_ok] at hanswer
  obtain ⟨sender, hsender, -, hactive, hanswer⟩ := hanswer
  split at hanswer
  · next existing hexisting =>
      simp only [bind_eq_ok, require_eq_ok] at hanswer
      obtain ⟨-, hsame, hstatus⟩ := hanswer
      obtain ⟨hsweeps, hview⟩ := relayStatusInSession_eq_ok hstatus
      exact ⟨.repeated hexisting hsame hsweeps, hview.trans (Table.key_of_get hexisting)⟩
  · simp only [bind_eq_ok, orRaise_eq_ok, require_eq_ok] at hanswer
    obtain ⟨recipient, hrecipient, -, -, -, -, added, hadded, hstatus⟩ := hanswer
    obtain ⟨hsweeps, hview⟩ := relayStatusInSession_eq_ok hstatus
    exact ⟨.created hsender hrecipient (addMessage_eq_ok hadded) hsweeps, hview⟩

theorem get_finishReplied (added : RelayStore) (deliveryId : String) :
    (finishReplied now delivery added).deliveries.get deliveryId =
      if deliveryId = delivery.id ∧ delivery.state = .claimed then
        (added.deliveries.get deliveryId).map fun row => row.markDelivered now
      else added.deliveries.get deliveryId := by
  unfold finishReplied
  by_cases hstate : delivery.state = .claimed
  · simp only [hstate, if_true, and_true, get_markDelivered]
  · simp only [hstate, if_false, and_false]

theorem finishReplied_frame (now : ℤ) (delivery : RelayDelivery) (added : RelayStore) :
    (finishReplied now delivery added).messages = added.messages ∧
      (finishReplied now delivery added).sessions = added.sessions ∧
      (finishReplied now delivery added).drawn = added.drawn := by
  unfold finishReplied
  split
  · exact ⟨rfl, rfl, rfl⟩
  · exact ⟨rfl, rfl, rfl⟩

/-- The rows of the store to which the reply was added and whose delivery was
finished: the old ones, the replied delivery and the reply's own. -/
theorem Added.kept_finishReplied (now : ℤ) {reply : RelayMessage} {target : RelaySession}
    {added : RelayStore} (hadded : Added host reply target store added)
    (hget : store.deliveries.get delivery.id = some delivery)
    {other : RelayDelivery} (hother : store.deliveries.get deliveryId = some other) :
    other = delivery ∧ delivery.state = .claimed ∧
        (finishReplied now delivery added).deliveries.get deliveryId =
          some (delivery.markDelivered now) ∨
      (finishReplied now delivery added).deliveries.get deliveryId = some other := by
  rw [get_finishReplied, hadded.get_of_some hother]
  split
  · next hclaimed =>
      rw [hclaimed.1, hget] at hother
      cases hother
      exact Or.inl ⟨rfl, hclaimed.2, rfl⟩
  · exact Or.inr rfl

theorem Answered.evolves (hanswered : Answered host request now delivery message store after)
    (hstored : store.deliveries.get delivery.id = some delivery)
    (hmessage : store.messages.get delivery.messageId = some message)
    (hcheck : ReplyCheck host request now delivery message true) :
    Evolves host now (some request.replyMessageId) store after := by
  cases hanswered with
  | repeated hexisting hsame hsweeps => exact hsweeps.evolves
  | @created sender recipient added hsender hrecipient hadded hsweeps =>
    obtain ⟨hmessages, hsessions, hdrawn⟩ := finishReplied_frame now delivery added
    refine Evolves.then_sweeps ⟨?_, ?_, ?_, ?_⟩ ?_ hsweeps
    · intro deliveryId other hother
      rcases hadded.kept_finishReplied now hstored hother with
        ⟨rfl, hstate, hfinished⟩ | hsame
      · refine ⟨_, hfinished, ?_⟩
        cases hcheck with
        | claimed _ hlive hlease _ _ =>
          refine .delivered hstate hlease ?_ hlive
          rw [hmessages]
          exact hadded.messages_of_some hmessage
        | delivered hdelivered _ =>
          rw [hstate] at hdelivered
          cases hdelivered
      · exact ⟨other, hsame, .same⟩
    · have hget := (RelayStore.relaySessionByEndpoint_eq_some hsender).2
      refine (hadded.births ⟨sender.id, sender, rfl, hget, rfl, rfl⟩).of_agree
        (fun deliveryId hnone => ?_) hmessages hsessions
      rw [get_finishReplied, if_neg]
      rintro ⟨rfl, -⟩
      rw [hstored] at hnone
      cases hnone
    · exact SessionsKept.of_eq (hsessions.trans hadded.sessions)
    · rw [hdrawn, hadded.drawn]
      exact Nat.le_succ _
    · intro deliveryId other changed hother hchanged
      rcases hadded.kept_finishReplied now hstored hother with
        ⟨rfl, hstate, hfinished⟩ | hsame
      · obtain rfl := Option.eq_some_unique hchanged hfinished
        refine Or.inr fun hdue => ?_
        rcases (RelayStore.due_iff.mp hdue).1 with hopen | hopen <;> cases hopen
      · exact Or.inl (Option.eq_some_unique hchanged hsame)

/-- The cases of a reply. -/
inductive ReplyOutcome (host : Host) (request : ReplyRequest) (now : ℤ) (store : RelayStore) :
    RelayStore × Except RelayError StatusView → Prop
  | refused (error : RelayError) : ReplyOutcome host request now store (store, .error error)
  | expired {delivery : RelayDelivery} {message : RelayMessage}
      (hget : store.deliveries.get request.deliveryId = some delivery)
      (hmessage : store.messages.get delivery.messageId = some message)
      (hstate : delivery.state = .claimed) (hexpired : message.expiresAt ≤ now) :
      ReplyOutcome host request now store (expireClaim delivery store, .error messageExpired)
  | answered {delivery : RelayDelivery} {message : RelayMessage} {after : RelayStore}
      {view : StatusView}
      (hget : store.deliveries.get request.deliveryId = some delivery)
      (hmessage : store.messages.get delivery.messageId = some message)
      (hcheck : ReplyCheck host request now delivery message true)
      (hanswered : Answered host request now delivery message store after)
      (hview : view.messageId = request.replyMessageId) :
      ReplyOutcome host request now store (after, .ok view)

theorem relayReplyAtomic_outcome (request : ReplyRequest) :
    ReplyOutcome host request now store (relayReplyAtomic host request now store) := by
  unfold relayReplyAtomic
  rcases transaction_cases (relayReplyBody host request now) store with
    ⟨after, result, hbody, htransaction⟩ | ⟨error, -, htransaction⟩
  · rw [htransaction]
    simp only [relayReplyBody, bind_eq_ok, orRaise_eq_ok] at hbody
    obtain ⟨⟨delivery, message⟩, hrow, allowed, hcheck, hbody⟩ := hbody
    obtain ⟨hget, hmessage⟩ := RelayStore.deliveryWithMessage_eq_some.mp hrow
    have hallowed := checkReplied_eq_ok hcheck
    cases allowed with
    | true =>
      simp only [if_true, bind_eq_ok, pure_eq_ok, Prod.mk.injEq] at hbody
      obtain ⟨⟨answered, view⟩, hanswer, rfl, rfl⟩ := hbody
      obtain ⟨hanswered, hview⟩ := answer_eq_ok hanswer
      exact .answered hget hmessage hallowed hanswered hview
    | false =>
      simp only [Bool.false_eq_true, if_false, pure_eq_ok, Prod.mk.injEq] at hbody
      obtain ⟨rfl, rfl⟩ := hbody
      cases hallowed with
      | expired hstate hexpired => exact .expired hget hmessage hstate hexpired
  · rw [htransaction]
    exact .refused error

theorem ReplyOutcome.evolves {outcome : RelayStore × Except RelayError StatusView}
    (houtcome : ReplyOutcome host request now store outcome) :
    Evolves host now (some request.replyMessageId) store outcome.1 := by
  cases houtcome with
  | refused => exact Evolves.refl store
  | expired hget hmessage hstate hexpired =>
    rw [← Table.key_of_get hget, key_delivery] at hget
    exact (expireClaim_sweeps hget hmessage hstate hexpired).evolves
  | answered hget hmessage hcheck hanswered =>
    rw [← Table.key_of_get hget, key_delivery] at hget
    exact hanswered.evolves hget hmessage hcheck

end Finishing

end Pallium.Relay
