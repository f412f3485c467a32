import Pallium.Relay.Reply

/-!
# Repeated sends

A send under the id of a stored message never writes.  It returns the stored
message if it asks for the same message again, from a session that is registered
and not closed, and is refused otherwise.  A send under a free id is refused, or
writes the message together with its one delivery.
-/

namespace Pallium.Relay

open Pallium.Run Pallium.Transaction

variable {host : Host} {now : ℤ} {store after : RelayStore}

/-- The request asks again for the stored message.  Payloads and expiries are
compared as they are stored. -/
structure RepeatOf (store : RelayStore) (request : SendRequest) (existing : RelayMessage) :
    Prop where
  sender : ∃ sender, store.relaySession request.containerRef request.senderRuntime
      request.senderSessionRef = some sender ∧ sender.state ≠ .closed ∧
    existing.senderEndpointId = some sender.id
  recipient : existing.recipientSelector = request.recipient
  payload : existing.payload = request.payload
  redacted : existing.redacted = request.redacted
  inReplyTo : existing.inReplyTo = request.inReplyTo
  expiry : request.expirySupplied →
    existing.expiresAt = expiryAt existing.createdAt request.expiresInSeconds

theorem expiryMatches_iff (message : RelayMessage) (expiresInSeconds : Option ℤ) :
    expiryMatches message expiresInSeconds ↔
      message.expiresAt = expiryAt message.createdAt expiresInSeconds := by
  cases expiresInSeconds with
  | none => simp only [expiryMatches, expiryAt, beq_iff_eq]
  | some duration =>
    simp only [expiryMatches, expiryAt, beq_iff_eq]
    constructor
    · intro hequal
      omega
    · intro hequal
      omega

/-- A message whose sender is recorded is compared by the endpoint alone. -/
theorem sameSend_iff {request : SendRequest} {sender : RelaySession} {existing : RelayMessage}
    (hrecorded : existing.senderEndpointId ≠ none) :
    sameSend request sender existing ↔
      existing.senderEndpointId = some sender.id ∧
        existing.recipientSelector = request.recipient ∧ existing.payload = request.payload ∧
        existing.redacted = request.redacted ∧ existing.inReplyTo = request.inReplyTo ∧
        (request.expirySupplied →
          existing.expiresAt = expiryAt existing.createdAt request.expiresInSeconds) := by
  have hlegacy : (existing.senderEndpointId == none) = false := by
    rw [beq_eq_false_iff_ne]
    exact hrecorded
  simp only [sameSend, hlegacy, Bool.false_and, Bool.or_false, Bool.and_eq_true, beq_iff_eq,
    Bool.or_eq_true, Bool.not_eq_true', expiryMatches_iff]
  constructor
  · rintro ⟨⟨⟨⟨⟨hsender, hrecipient⟩, hpayload⟩, hredacted⟩, hinReplyTo⟩, hexpiry⟩
    refine ⟨hsender, hrecipient, hpayload, hredacted, hinReplyTo, fun hsupplied => ?_⟩
    rcases hexpiry with homitted | hmatches
    · rw [hsupplied] at homitted
      cases homitted
    · exact hmatches
  · rintro ⟨hsender, hrecipient, hpayload, hredacted, hinReplyTo, hexpiry⟩
    refine ⟨⟨⟨⟨⟨hsender, hrecipient⟩, hpayload⟩, hredacted⟩, hinReplyTo⟩, ?_⟩
    cases hsupplied : request.expirySupplied with
    | false => exact Or.inl rfl
    | true => exact Or.inr (hexpiry hsupplied)

section Parents

/-- Whatever a stored message replies to is stored. -/
def ParentsStored (store : RelayStore) : Prop :=
  ∀ messageId message parent, store.messages.get messageId = some message →
    message.inReplyTo = some parent → ∃ original, store.messages.get parent = some original

/-- The messages stay as they are, or one is added that replies to none or to one of them. -/
def MessagesGrow (before after : RelayStore) : Prop :=
  after.messages = before.messages ∨
    ∃ message, before.messages.get message.id = none ∧
      (∀ messageId, after.messages.get messageId =
        if messageId = message.id then some message else before.messages.get messageId) ∧
      ∀ parent, message.inReplyTo = some parent →
        ∃ original, before.messages.get parent = some original

theorem MessagesGrow.kept (hgrow : MessagesGrow store after) {messageId : String}
    {message : RelayMessage} (hget : store.messages.get messageId = some message) :
    after.messages.get messageId = some message := by
  rcases hgrow with hsame | ⟨added, hnew, hmessages, -⟩
  · rw [hsame, hget]
  · rw [hmessages, if_neg, hget]
    rintro rfl
    rw [hnew] at hget
    cases hget

theorem Added.grow {message : RelayMessage} {target : RelaySession} {added : RelayStore}
    (hadded : Added host message target store added)
    (hstored : ∀ parent, message.inReplyTo = some parent →
      ∃ original, store.messages.get parent = some original)
    (hmessages : after.messages = added.messages) : MessagesGrow store after :=
  Or.inr ⟨message, hadded.newMessage, fun messageId => hmessages ▸ hadded.messages messageId,
    hstored⟩

theorem ParentsStored.grow (hparents : ParentsStored store) (hgrow : MessagesGrow store after) :
    ParentsStored after := by
  intro messageId found parent hget hparent
  have horiginal : ∃ original, store.messages.get parent = some original := by
    rcases hgrow with hsame | ⟨message, -, hmessages, hstored⟩
    · rw [hsame] at hget
      exact hparents messageId found parent hget hparent
    · rw [hmessages] at hget
      split at hget
      · cases hget
        exact hstored parent hparent
      · exact hparents messageId found parent hget hparent
  obtain ⟨original, hfound⟩ := horiginal
  exact ⟨original, hgrow.kept hfound⟩

theorem relaySendBody_parent {request : SendRequest} {view : StatusView}
    (hbody : relaySendBody host request now store = .ok (after, view)) :
    ∀ parent, request.inReplyTo = some parent →
      ∃ original, store.messages.get parent = some original := by
  intro parent hparent
  simp only [relaySendBody, bind_eq_ok, orRaise_eq_ok, require_eq_ok] at hbody
  obtain ⟨sender, -, -, -, -, hstored, -⟩ := hbody
  rw [hparent, Option.all_some] at hstored
  exact Option.isSome_iff_exists.mp hstored

theorem relaySend_grow (request : SendRequest) :
    MessagesGrow store (relaySend host request now store).1 := by
  have houtcome := @relaySend_outcome host now store request
  rcases transaction_cases (relaySendBody host request now) store with
    ⟨after, view, hbody, htransaction⟩ | ⟨error, -, htransaction⟩
  · rw [relaySend, htransaction] at houtcome ⊢
    cases houtcome with
    | repeated _ _ _ hsweeps => exact Or.inl hsweeps.messages
    | created _ _ _ hadded hsweeps =>
      exact hadded.grow (relaySendBody_parent hbody) hsweeps.messages
  · rw [relaySend, htransaction]
    exact Or.inl rfl

theorem relayReplyAtomic_grow (request : ReplyRequest) :
    MessagesGrow store (relayReplyAtomic host request now store).1 := by
  have houtcome := @relayReplyAtomic_outcome host now store request
  generalize relayReplyAtomic host request now store = outcome at houtcome
  cases houtcome with
  | refused => exact Or.inl rfl
  | expired => exact Or.inl rfl
  | @answered delivery message after view hget hmessage hcheck hanswered =>
    cases hanswered with
    | repeated _ _ hsweeps => exact Or.inl hsweeps.messages
    | @created sender recipient added hsender hrecipient hadded hsweeps =>
      refine hadded.grow (fun parent hparent => ?_)
        (hsweeps.messages.trans (finishReplied_frame now delivery added).1)
      obtain rfl : message.id = parent := Option.some.inj hparent
      have hid : message.id = delivery.messageId := Table.key_of_get hmessage
      rw [hid]
      exact ⟨message, hmessage⟩

theorem Evolves.messages_eq (hevolves : Evolves host now none store after) :
    after.messages = store.messages := by
  cases hevolves.births with
  | nothing hmessages => exact hmessages
  | one hwrites => cases hwrites

theorem RelayOp.step_grow (op : RelayOp) : MessagesGrow store (op.step host store) := by
  have hevolves := op.step_evolves host store
  cases op with
  | send request now => exact relaySend_grow request
  | reply request now => exact relayReplyAtomic_grow (serviceReply host request)
  | _ => exact Or.inl hevolves.messages_eq

theorem reached_parentsStored (host : Host) (ops : List RelayOp) :
    ParentsStored (reached host ops) :=
  run_invariant (fun _ _ _ hget => nomatch hget)
    (fun _ op hparents => hparents.grow op.step_grow) ops

end Parents

section Sending

variable {request : SendRequest} {existing : RelayMessage}

/-- The store after its open deliveries of the message, if that has expired, are
marked expired. -/
def statusStore (now : ℤ) (existing : RelayMessage) (store : RelayStore) : RelayStore :=
  if existing.expiresAt ≤ now then store.sweepMessage existing.id now else store

/-- A send that passes the checks of its sender and of its parent and finds its
id in use is decided by `sameSend`. -/
theorem relaySendBody_of_stored {sender : RelaySession}
    (hsession : store.relaySession request.containerRef request.senderRuntime
      request.senderSessionRef = some sender)
    (hopen : sender.state ≠ .closed)
    (hparent : request.inReplyTo.all fun parent => (store.messages.get parent).isSome)
    (hexisting : store.messages.get request.messageId = some existing) :
    relaySendBody host request now store =
      (require (sameSend request sender existing)
        (.conflict "message_id is already in use") >>= fun _ =>
          relayStatusInSession host .stored now 0 none existing store) := by
  have hopened : require (sender.state ≠ .closed)
      (RelayError.conflict "closed sessions cannot send relay messages") = .ok () :=
    require_eq_ok.mpr hopen
  have hanswers : require (request.inReplyTo.all fun parent => (store.messages.get parent).isSome)
      entityNotFound = .ok () := require_eq_ok.mpr hparent
  rw [relaySendBody, orRaise_eq_ok.mpr hsession, hanswers, hexisting]
  change (require (sender.state ≠ .closed) _ >>= fun _ => _) = _
  rw [hopened]
  rfl

/-- A repetition is answered with the status of the stored message. -/
theorem relaySend_of_repeatOf (hparents : ParentsStored store)
    (hexisting : store.messages.get request.messageId = some existing)
    (hrepeat : RepeatOf store request existing) :
    relaySend host request now store =
        relayMessageStatus host request.messageId none none now store ∧
      ∃ view, relaySend host request now store = (statusStore now existing store, .ok view) ∧
        view.messageId = existing.id ∧ view.payload = payloadView existing.payload 0 none := by
  obtain ⟨sender, hsession, hopen, hsender⟩ := hrepeat.sender
  have hparent : request.inReplyTo.all fun parent => (store.messages.get parent).isSome := by
    cases hinReplyTo : request.inReplyTo with
    | none => rfl
    | some parent =>
      obtain ⟨original, horiginal⟩ :=
        hparents request.messageId existing parent hexisting (hrepeat.inReplyTo.trans hinReplyTo)
      rw [Option.all_some, horiginal, Option.isSome_some]
  have hrecorded : existing.senderEndpointId ≠ none := by
    rw [hsender]
    exact Option.some_ne_none sender.id
  have hsame : sameSend request sender existing := by
    apply (sameSend_iff hrecorded).mpr
    exact ⟨hsender, hrepeat.recipient, hrepeat.payload, hrepeat.redacted, hrepeat.inReplyTo,
      hrepeat.expiry⟩
  have hbody : relaySendBody host request now store =
      relayStatusInSession host .stored now 0 none existing store := by
    rw [relaySendBody_of_stored hsession hopen hparent hexisting, require, if_pos hsame]
    rfl
  have hstatus : ∃ view, relayStatusInSession host .stored now 0 none existing store =
      .ok (statusStore now existing store, view) ∧ view.messageId = existing.id ∧
        view.payload = payloadView existing.payload 0 none :=
    ⟨_, rfl, rfl, rfl⟩
  obtain ⟨view, hview, hid, hpayload⟩ := hstatus
  constructor
  · rw [relaySend, relayMessageStatus, transaction_of_ok (hbody.trans hview)]
    symm
    apply transaction_of_ok
    rw [hexisting]
    exact hview
  · refine ⟨view, ?_, hid, hpayload⟩
    rw [relaySend, transaction_of_ok (hbody.trans hview)]

theorem relaySend_of_not_repeatOf (hledger : LedgerWellFormed store)
    (hexisting : store.messages.get request.messageId = some existing)
    (hother : ¬ RepeatOf store request existing) :
    ∃ error, relaySend host request now store = (store, .error error) := by
  rcases transaction_cases (relaySendBody host request now) store with
    ⟨after, view, hbody, -⟩ | ⟨error, -, htransaction⟩
  · exfalso
    apply hother
    simp only [relaySendBody, bind_eq_ok, orRaise_eq_ok, require_eq_ok] at hbody
    obtain ⟨sender, hsession, -, hopen, -, -, hbody⟩ := hbody
    rw [hexisting] at hbody
    simp only [bind_eq_ok, require_eq_ok] at hbody
    obtain ⟨-, hsame, -⟩ := hbody
    have hrecorded : existing.senderEndpointId ≠ none := by
      obtain ⟨endpointId, -, hendpoint, -⟩ := hledger.sender request.messageId existing hexisting
      rw [hendpoint]
      exact Option.some_ne_none endpointId
    obtain ⟨hsender, hrecipient, hpayload, hredacted, hinReplyTo, hexpiry⟩ :=
      (sameSend_iff hrecorded).mp hsame
    exact ⟨⟨sender, hsession, hopen, hsender⟩, hrecipient, hpayload, hredacted, hinReplyTo, hexpiry⟩
  · exact ⟨error, htransaction⟩

/-- What a send under a free id writes: the message and its one delivery. -/
def SentNew (request : SendRequest) (now : ℤ) (before after : RelayStore) : Prop :=
  ∃ sender deliveryId, before.relaySession request.containerRef request.senderRuntime
      request.senderSessionRef = some sender ∧
    (∀ messageId, after.messages.get messageId =
      if messageId = request.messageId then some (sentMessage request now sender)
      else before.messages.get messageId) ∧
    before.deliveries.get deliveryId = none ∧
    (∃ delivery, after.deliveries.get deliveryId = some delivery ∧
      delivery.messageId = request.messageId) ∧
    ∀ otherId, otherId ≠ deliveryId → before.deliveries.get otherId = none →
      after.deliveries.get otherId = none

theorem relaySend_of_free (hnone : store.messages.get request.messageId = none) :
    (∃ error, relaySend host request now store = (store, .error error)) ∨
      ∃ after view, relaySend host request now store = (after, .ok view) ∧
        view.messageId = request.messageId ∧ SentNew request now store after := by
  have houtcome := @relaySend_outcome host now store request
  generalize relaySend host request now store = outcome at houtcome ⊢
  cases houtcome with
  | refused error => exact Or.inl ⟨error, rfl⟩
  | repeated _ hexisting =>
    rw [hnone] at hexisting
    cases hexisting
  | @created sender target added after view hsender _ _ hadded hsweeps hview =>
    refine Or.inr ⟨after, view, rfl, hview, sender, nextDeliveryId host store, hsender,
      fun messageId => ?_, hadded.newDelivery, ?_, fun otherId hother hbefore => ?_⟩
    · rw [hsweeps.messages, hadded.messages]
      rfl
    · have hfresh := hadded.deliveries (nextDeliveryId host store)
      rw [if_pos rfl] at hfresh
      rcases hsweeps.deliveries _ _ hfresh with hsame | ⟨-, hexpired⟩
      · exact ⟨_, hsame, rfl⟩
      · exact ⟨_, hexpired, rfl⟩
    · apply hsweeps.absent
      rw [hadded.deliveries, if_neg hother, hbefore]

end Sending

section Runs

def DeliveryOf (store : RelayStore) (messageId deliveryId : String) : Prop :=
  ∃ delivery, store.deliveries.get deliveryId = some delivery ∧ delivery.messageId = messageId

theorem deliveryOf_run (ops : List RelayOp) {messageId deliveryId : String}
    (hdelivery : DeliveryOf store messageId deliveryId) :
    DeliveryOf (run (RelayOp.step host) store ops) messageId deliveryId := by
  obtain ⟨delivery, hget, hid⟩ := hdelivery
  induction ops generalizing store delivery with
  | nil => exact ⟨delivery, hget, hid⟩
  | cons op rest ih =>
    obtain ⟨changed, hchanged, hchange⟩ :=
      (op.step_evolves host store).kept deliveryId delivery hget
    exact ih changed hchanged (hchange.sameAddress.1.trans hid)

theorem stored_once {ops : List RelayOp} {messageId : String} {existing : RelayMessage}
    (hexisting : (reached host ops).messages.get messageId = some existing) :
    ∃ deliveryId, ∀ later,
      (reached host (ops ++ later)).messages.get messageId = some existing ∧
        ∀ otherId, DeliveryOf (reached host (ops ++ later)) messageId otherId ↔
          otherId = deliveryId := by
  have hledger := reached_ledgerWellFormed host ops
  obtain ⟨deliveryId, delivery, hget, hid⟩ := hledger.delivery messageId existing hexisting
  refine ⟨deliveryId, fun later => ?_⟩
  have hreached : reached host (ops ++ later) =
      run (RelayOp.step host) (reached host ops) later := by
    rw [reached, reached, run_append]
  have hstill : DeliveryOf (reached host (ops ++ later)) messageId deliveryId := by
    rw [hreached]
    exact deliveryOf_run later ⟨delivery, hget, hid⟩
  obtain ⟨kept, hkept, hkeptId⟩ := hstill
  constructor
  · rw [hreached]
    exact messages_run host later hexisting
  · intro otherId
    constructor
    · rintro ⟨other, hother, hotherId⟩
      apply (reached_ledgerWellFormed host (ops ++ later)).unique otherId other deliveryId kept
        hother hkept
      rw [hotherId, hkeptId]
    · rintro rfl
      exact ⟨kept, hkept, hkeptId⟩

/-- Sends under one id in every run.  Under a free id a send is refused or writes
the message and its one delivery.  Once a message is stored, it and its delivery
stay the only ones; a repetition returns it, as reading its status does, and
every other send under its id is refused. -/
theorem send_idempotent (host : Host) (ops : List RelayOp) (request : SendRequest) (now : ℤ) :
    ((reached host ops).messages.get request.messageId = none →
      (∃ error, relaySend host request now (reached host ops) =
          (reached host ops, .error error)) ∨
        ∃ after view, relaySend host request now (reached host ops) = (after, .ok view) ∧
          view.messageId = request.messageId ∧ SentNew request now (reached host ops) after) ∧
    ∀ existing, (reached host ops).messages.get request.messageId = some existing →
      (∃ deliveryId, ∀ later,
        (reached host (ops ++ later)).messages.get request.messageId = some existing ∧
          ∀ otherId, DeliveryOf (reached host (ops ++ later)) request.messageId otherId ↔
            otherId = deliveryId) ∧
      (RepeatOf (reached host ops) request existing →
        relaySend host request now (reached host ops) =
            relayMessageStatus host request.messageId none none now (reached host ops) ∧
          ∃ view, relaySend host request now (reached host ops) =
              (statusStore now existing (reached host ops), .ok view) ∧
            view.messageId = existing.id ∧
            view.payload = payloadView existing.payload 0 none) ∧
      (¬ RepeatOf (reached host ops) request existing →
        ∃ error, relaySend host request now (reached host ops) =
          (reached host ops, .error error)) := by
  have hledger := reached_ledgerWellFormed host ops
  have hparents := reached_parentsStored host ops
  refine ⟨relaySend_of_free, fun existing hexisting => ⟨stored_once hexisting, ?_, ?_⟩⟩
  · intro hrepeat
    exact relaySend_of_repeatOf hparents hexisting hrepeat
  · intro hother
    exact relaySend_of_not_repeatOf hledger hexisting hother

end Runs

section Example

/-- The first session closes. -/
def exampleSenderClose : RelayOp := .closeSession .codex "sender" "repo:a" 1000000

/-- The repeated send of a closed session is refused, although the message and
its sender are stored. -/
theorem send_refused_after_close :
    (∃ sender, (reached exampleHost exampleSent).relaySession "repo:a" .codex "sender" =
        some sender ∧
      (reached exampleHost (exampleSent ++ [exampleSenderClose])).messages.get "message" =
        some (sentMessage (exampleSend "message") 0 sender) ∧
      ((reached exampleHost (exampleSent ++ [exampleSenderClose])).relaySession "repo:a" .codex
        "sender").map RelaySession.id = some sender.id) ∧
    (relaySend exampleHost (exampleSend "message") 2000000
        (reached exampleHost (exampleSent ++ [exampleSenderClose]))).2 =
      .error (.conflict "closed sessions cannot send relay messages") := by
  have hregistered : ((reached exampleHost exampleSent).relaySession "repo:a" .codex
      "sender").isSome := by
    decide
  obtain ⟨sender, hsender⟩ := Option.isSome_iff_exists.mp hregistered
  have hstored : (reached exampleHost (exampleSent ++ [exampleSenderClose])).messages.get
      "message" = ((reached exampleHost exampleSent).relaySession "repo:a" .codex "sender").map
        (sentMessage (exampleSend "message") 0) := by
    decide
  have hclosed : ((reached exampleHost (exampleSent ++ [exampleSenderClose])).relaySession
      "repo:a" .codex "sender").map RelaySession.id =
        ((reached exampleHost exampleSent).relaySession "repo:a" .codex "sender").map
          RelaySession.id := by
    decide
  rw [hsender, Option.map_some] at hstored hclosed
  exact ⟨⟨sender, hsender, hstored, hclosed⟩, by decide⟩

end Example

end Pallium.Relay
