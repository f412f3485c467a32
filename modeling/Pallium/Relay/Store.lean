import Pallium.Relay.Manifest

/-!
# The Relay database

The tables of the Relay database and the lookups shared by its operations.
`drawn` counts the random identifiers drawn so far, so that the next one drawn is
a function of the state.
-/

namespace Pallium.Relay

structure RelayStore where
  sessions : Table RelaySession
  generations : Table EndpointGeneration
  aliases : Table RelayAlias
  messages : Table RelayMessage
  deliveries : Table RelayDelivery
  openCodeWakes : Table OpenCodeWake
  repairs : Table EndpointRepair
  workRefs : List SessionWorkRef
  drawn : ℕ
  deriving DecidableEq

/-- What Relay takes from the host: the random identifiers in the order in which
they are drawn, the hexadecimal digest of a text, and the digest of the canonical
text of a repair manifest. -/
structure Host where
  uuid4Hex : ℕ → String
  sha256Hex : String → String
  manifestDigest : RepairManifest → String

namespace RelayStore

variable {store : RelayStore}

def empty : RelayStore where
  sessions := Table.empty
  generations := Table.empty
  aliases := Table.empty
  messages := Table.empty
  deliveries := Table.empty
  openCodeWakes := Table.empty
  repairs := Table.empty
  workRefs := []
  drawn := 0

/-- `_relay_session`: at most one session has a given scope. -/
def relaySession (store : RelayStore) (containerRef : String) (runtime : Runtime)
    (sessionRef : String) : Option RelaySession :=
  store.sessions.rows.find? fun session =>
    session.containerRef == containerRef && session.runtime == runtime &&
      session.sessionRef == sessionRef

def relaySessionByEndpoint (store : RelayStore) (endpointId : Option String) :
    Option RelaySession :=
  endpointId.bind store.sessions.get

def scopeGeneration (store : RelayStore) (endpointId : String) : ℕ :=
  ((store.generations.get endpointId).map EndpointGeneration.generation).getD 0

def deliveryWithMessage (store : RelayStore) (deliveryId : String) :
    Option (RelayDelivery × RelayMessage) :=
  (store.deliveries.get deliveryId).bind fun delivery =>
    (store.messages.get delivery.messageId).map fun message => (delivery, message)

def modifySession (store : RelayStore) (endpointId : String)
    (change : RelaySession → RelaySession) : RelayStore :=
  { store with sessions := store.sessions.modify endpointId change }

def modifyDelivery (store : RelayStore) (deliveryId : String)
    (change : RelayDelivery → RelayDelivery) : RelayStore :=
  { store with deliveries := store.deliveries.modify deliveryId change }

def modifyOpenCodeWake (store : RelayStore) (endpointId : String)
    (change : OpenCodeWake → OpenCodeWake) : RelayStore :=
  { store with openCodeWakes := store.openCodeWakes.modify endpointId change }

/-- Whether the delivery's message has expired while the delivery is still open. -/
def due (store : RelayStore) (now : ℤ) (delivery : RelayDelivery) : Bool :=
  (delivery.state == .pending || delivery.state == .claimed) &&
    (store.messages.get delivery.messageId).any fun message => message.expiresAt ≤ now

/-- Mark every open delivery of an expired message as expired. -/
def sweepExpired (store : RelayStore) (now : ℤ) : RelayStore :=
  { store with deliveries := store.deliveries.updateAll fun delivery =>
      if store.due now delivery then delivery.markExpired else delivery }

/-- The same for the deliveries of one message. -/
def sweepMessage (store : RelayStore) (messageId : String) (now : ℤ) : RelayStore :=
  { store with deliveries := store.deliveries.updateAll fun delivery =>
      if delivery.messageId == messageId && store.due now delivery then delivery.markExpired
      else delivery }

theorem get_of_relaySession {containerRef sessionRef : String} {runtime : Runtime}
    {session : RelaySession}
    (hfound : store.relaySession containerRef runtime sessionRef = some session) :
    store.sessions.get session.id = some session ∧ session.containerRef = containerRef ∧
      session.runtime = runtime ∧ session.sessionRef = sessionRef := by
  have hscope := List.find?_some hfound
  simp only [Bool.and_eq_true, beq_iff_eq] at hscope
  exact ⟨Table.get_of_mem (List.mem_of_find?_eq_some hfound), hscope.1.1, hscope.1.2, hscope.2⟩

theorem relaySessionByEndpoint_eq_some {endpointId : Option String} {session : RelaySession}
    (hfound : store.relaySessionByEndpoint endpointId = some session) :
    endpointId = some session.id ∧ store.sessions.get session.id = some session := by
  obtain ⟨found, rfl, hget⟩ := Option.bind_eq_some_iff.mp hfound
  obtain rfl : session.id = found := Table.key_of_get hget
  exact ⟨rfl, hget⟩

theorem deliveryWithMessage_eq_some {deliveryId : String} {delivery : RelayDelivery}
    {message : RelayMessage} :
    store.deliveryWithMessage deliveryId = some (delivery, message) ↔
      store.deliveries.get deliveryId = some delivery ∧
        store.messages.get delivery.messageId = some message := by
  simp only [deliveryWithMessage, Option.bind_eq_some_iff, Option.map_eq_some_iff, Prod.mk.injEq]
  constructor
  · rintro ⟨other, hdelivery, found, hmessage, rfl, rfl⟩
    exact ⟨hdelivery, hmessage⟩
  · rintro ⟨hdelivery, hmessage⟩
    exact ⟨delivery, hdelivery, message, hmessage, rfl, rfl⟩

theorem due_iff {now : ℤ} {delivery : RelayDelivery} :
    store.due now delivery ↔
      (delivery.state = .pending ∨ delivery.state = .claimed) ∧
        ∃ message, store.messages.get delivery.messageId = some message ∧
          message.expiresAt ≤ now := by
  simp [due, Option.any_eq_true]

theorem get_sweepExpired (store : RelayStore) (now : ℤ) (deliveryId : String) :
    (store.sweepExpired now).deliveries.get deliveryId =
      (store.deliveries.get deliveryId).map fun delivery =>
        if store.due now delivery then delivery.markExpired else delivery := by
  refine Table.get_updateAll _ (fun delivery => ?_) _
  split <;> rfl

theorem get_sweepMessage (store : RelayStore) (messageId : String) (now : ℤ)
    (deliveryId : String) :
    (store.sweepMessage messageId now).deliveries.get deliveryId =
      (store.deliveries.get deliveryId).map fun delivery =>
        if delivery.messageId == messageId && store.due now delivery then delivery.markExpired
        else delivery := by
  refine Table.get_updateAll _ (fun delivery => ?_) _
  split <;> rfl

end RelayStore

end Pallium.Relay
