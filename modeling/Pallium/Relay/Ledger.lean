import Pallium.Relay.Lifecycle

/-!
# Messages and their deliveries

In every reachable store each message has exactly one delivery, each delivery
has its message, and the sender of each message is a registered session.  What
addresses a delivery to a session never changes: not even an endpoint repair
touches the runtime and the session reference of its recipient.
-/

namespace Pallium.Relay

open Pallium.Run

variable {host : Host} {now : ℤ} {writes : Option String} {before after : RelayStore}

variable {messageId : String}

/-- The two rows belong to the same message and are addressed to the same session. -/
def SameAddress (delivery changed : RelayDelivery) : Prop :=
  changed.messageId = delivery.messageId ∧
    changed.recipientRuntime = delivery.recipientRuntime ∧
    changed.recipientSessionRef = delivery.recipientSessionRef

theorem DeliveryChange.sameAddress {delivery changed : RelayDelivery}
    (hchange : DeliveryChange host before after now delivery changed) :
    SameAddress delivery changed := by
  cases hchange with
  | @suppressed clearClaim => cases clearClaim <;> exact ⟨rfl, rfl, rfl⟩
  | _ => exact ⟨rfl, rfl, rfl⟩

/-- A row was there before, or it was written together with a new message. -/
theorem Evolves.row_cases (hevolves : Evolves host now writes before after) {deliveryId : String}
    {changed : RelayDelivery} (hget : after.deliveries.get deliveryId = some changed) :
    (∃ delivery, before.deliveries.get deliveryId = some delivery ∧
        DeliveryChange host before after now delivery changed) ∨
      before.messages.get changed.messageId = none ∧
        (∃ message, after.messages.get changed.messageId = some message) ∧
        ∀ otherId other, before.deliveries.get otherId = none →
          after.deliveries.get otherId = some other → otherId = deliveryId := by
  cases hbefore : before.deliveries.get deliveryId with
  | some delivery =>
    obtain ⟨kept, hkept, hchange⟩ := hevolves.kept deliveryId delivery hbefore
    obtain rfl := Option.eq_some_unique hkept hget
    exact Or.inl ⟨delivery, rfl, hchange⟩
  | none =>
    refine Or.inr ?_
    cases hevolves.births with
    | nothing _ hdeliveries =>
      rw [hdeliveries deliveryId hbefore] at hget
      cases hget
    | @one message born _ hnewMessage hmessages _ _ hdelivery hmessageId _ hothers =>
      have hid : ∀ otherId other, before.deliveries.get otherId = none →
          after.deliveries.get otherId = some other → otherId = born.id := by
        intro otherId other hnone hsome
        by_contra hother
        rw [hothers otherId hother hnone] at hsome
        cases hsome
      obtain rfl := hid deliveryId changed hbefore hget
      obtain rfl := Option.eq_some_unique hdelivery hget
      rw [hmessageId]
      exact ⟨hnewMessage, ⟨message, by rw [hmessages, if_pos rfl]⟩, hid⟩

theorem Evolves.message_cases (hevolves : Evolves host now writes before after)
    {message : RelayMessage} (hget : after.messages.get messageId = some message) :
    before.messages.get messageId = some message ∨
      writes = some messageId ∧ SentBy after message ∧
        ∃ deliveryId delivery, after.deliveries.get deliveryId = some delivery ∧
          delivery.messageId = messageId := by
  cases hevolves.births with
  | nothing hmessages => exact Or.inl (hmessages ▸ hget)
  | @one written born hwrites _ hmessages hsender _ hdelivery hmessageId =>
    rw [hmessages] at hget
    split at hget
    · next hid =>
        cases hget
        exact Or.inr ⟨hid ▸ hwrites, hsender, born.id, born, hdelivery, hid ▸ hmessageId⟩
    · exact Or.inl hget

structure LedgerWellFormed (store : RelayStore) : Prop where
  message : ∀ deliveryId delivery, store.deliveries.get deliveryId = some delivery →
    ∃ message, store.messages.get delivery.messageId = some message
  delivery : ∀ messageId message, store.messages.get messageId = some message →
    ∃ deliveryId delivery, store.deliveries.get deliveryId = some delivery ∧
      delivery.messageId = messageId
  unique : ∀ firstId first secondId second, store.deliveries.get firstId = some first →
    store.deliveries.get secondId = some second → first.messageId = second.messageId →
      firstId = secondId
  sender : ∀ messageId message, store.messages.get messageId = some message →
    SentBy store message

theorem LedgerWellFormed.empty : LedgerWellFormed RelayStore.empty where
  message _ _ hget := nomatch hget
  delivery _ _ hget := nomatch hget
  unique _ _ _ _ hget := nomatch hget
  sender _ _ hget := nomatch hget

theorem Evolves.ledgerWellFormed (hevolves : Evolves host now writes before after)
    (hledger : LedgerWellFormed before) : LedgerWellFormed after where
  message deliveryId changed hget := by
    rcases hevolves.row_cases hget with ⟨delivery, hbefore, hchange⟩ | ⟨-, hmessage, -⟩
    · obtain ⟨message, hmessage⟩ := hledger.message deliveryId delivery hbefore
      rw [hchange.sameAddress.1]
      exact ⟨message, hevolves.messages _ _ hmessage⟩
    · exact hmessage
  delivery messageId message hget := by
    rcases hevolves.message_cases hget with hbefore | ⟨-, -, hdelivery⟩
    · obtain ⟨deliveryId, delivery, hrow, hid⟩ := hledger.delivery messageId message hbefore
      obtain ⟨changed, hchanged, hchange⟩ := hevolves.kept deliveryId delivery hrow
      exact ⟨deliveryId, changed, hchanged, hchange.sameAddress.1.trans hid⟩
    · exact hdelivery
  unique firstId first secondId second hfirst hsecond hsame := by
    -- a new row belongs to a new message, and every old row to an old one
    rcases hevolves.row_cases hfirst with ⟨oldFirst, hbeforeFirst, hchangeFirst⟩ |
        ⟨hnewFirst, -, honly⟩
    · have hmessage := hledger.message firstId oldFirst hbeforeFirst
      rw [← hchangeFirst.sameAddress.1] at hmessage
      rcases hevolves.row_cases hsecond with ⟨oldSecond, hbeforeSecond, hchangeSecond⟩ |
          ⟨hnewSecond, -, -⟩
      · refine hledger.unique firstId oldFirst secondId oldSecond hbeforeFirst hbeforeSecond ?_
        rw [← hchangeFirst.sameAddress.1, hsame, hchangeSecond.sameAddress.1]
      · rw [hsame, hnewSecond] at hmessage
        obtain ⟨message, hmessage⟩ := hmessage
        cases hmessage
    · cases hbeforeSecond : before.deliveries.get secondId with
      | none => exact (honly secondId second hbeforeSecond hsecond).symm
      | some oldSecond =>
        obtain ⟨message, hmessage⟩ := hledger.message secondId oldSecond hbeforeSecond
        obtain ⟨kept, hkept, hchange⟩ := hevolves.kept secondId oldSecond hbeforeSecond
        obtain rfl := Option.eq_some_unique hkept hsecond
        rw [← hchange.sameAddress.1, ← hsame, hnewFirst] at hmessage
        cases hmessage
  sender messageId message hget := by
    rcases hevolves.message_cases hget with hbefore | ⟨-, hsender, -⟩
    · exact (hledger.sender messageId message hbefore).kept hevolves.sessions
    · exact hsender

theorem reached_ledgerWellFormed (host : Host) (ops : List RelayOp) :
    LedgerWellFormed (reached host ops) :=
  run_invariant LedgerWellFormed.empty
    (fun store op hstore => (op.step_evolves host store).ledgerWellFormed hstore) ops

theorem messages_run (host : Host) (ops : List RelayOp) {store : RelayStore}
    {message : RelayMessage} (hget : store.messages.get messageId = some message) :
    (run (RelayOp.step host) store ops).messages.get messageId = some message :=
  run_related (fun first second : RelayStore => ∀ messageId message,
      first.messages.get messageId = some message → second.messages.get messageId = some message)
    (fun _ _ _ hget => hget)
    (fun _ _ _ hfirst hsecond messageId message hget =>
      hsecond messageId message (hfirst messageId message hget))
    (fun store op => (op.step_evolves host store).messages) store ops messageId message hget

/-- The message has one delivery, and it is addressed to the given session. -/
def OnlyDelivery (store : RelayStore) (messageId : String) (runtime : Runtime)
    (sessionRef : String) : Prop :=
  ∃ deliveryId delivery, store.deliveries.get deliveryId = some delivery ∧
    delivery.messageId = messageId ∧ delivery.recipientRuntime = runtime ∧
    delivery.recipientSessionRef = sessionRef ∧
    ∀ otherId other, store.deliveries.get otherId = some other → other.messageId = messageId →
      otherId = deliveryId

theorem LedgerWellFormed.onlyDelivery {store : RelayStore} (hledger : LedgerWellFormed store)
    {deliveryId : String} {delivery : RelayDelivery}
    (hget : store.deliveries.get deliveryId = some delivery) :
    OnlyDelivery store delivery.messageId delivery.recipientRuntime delivery.recipientSessionRef :=
  ⟨deliveryId, delivery, hget, rfl, rfl, rfl, fun otherId other hother hid =>
    hledger.unique otherId other deliveryId delivery hother hget hid⟩

theorem OnlyDelivery.kept {sessionRef : String} {runtime : Runtime}
    (honly : OnlyDelivery before messageId runtime sessionRef)
    (hevolves : Evolves host now writes before after) (hledger : LedgerWellFormed after) :
    OnlyDelivery after messageId runtime sessionRef := by
  obtain ⟨deliveryId, delivery, hget, rfl, rfl, rfl, -⟩ := honly
  obtain ⟨changed, hchanged, hchange⟩ := hevolves.kept deliveryId delivery hget
  obtain ⟨hmessageId, hruntime, href⟩ := hchange.sameAddress
  rw [← hmessageId, ← hruntime, ← href]
  exact hledger.onlyDelivery hchanged

end Pallium.Relay
