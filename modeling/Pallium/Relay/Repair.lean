import Pallium.Relay.Acknowledge

/-!
# Endpoint repair

`relayEndpointRepairApply` gives deliveries of a lost endpoint to its successor
or suppresses them.  It checks the manifest, the ledger of earlier repairs and
that everything the manifest copied is still as it was, before it changes the
first row.
-/

namespace Pallium.Relay

open Pallium.Transaction

/-- What a repair is told besides the manifest: the deliveries for which the
reservation validator found clean evidence, and the identity of the database. -/
structure RepairEvidence where
  cleanAdoptionIds : List String
  actualIdentity : DatabaseIdentity
  deriving DecidableEq, Repr

def endpointActual (store : RelayStore) (endpoint : RelaySession) : EndpointPreimage where
  runtime := endpoint.runtime
  sessionRef := endpoint.sessionRef
  containerRef := endpoint.containerRef
  title := endpoint.title
  aliasName := endpoint.aliasName
  state := endpoint.state
  firstSeenAt := endpoint.firstSeenAt
  lastSeenAt := endpoint.lastSeenAt
  closedAt := endpoint.closedAt
  generation := store.scopeGeneration endpoint.id
  aliases := (store.aliases.rows.filter fun row => row.endpointId == some endpoint.id)
    |>.insertionSort fun left right => left.aliasName ≤ right.aliasName
  workRefs := (store.workRefs.filter fun row => row.endpointId == endpoint.id)
    |>.insertionSort fun left right =>
      left.workRef < right.workRef ∨ left.workRef = right.workRef ∧ left.origin ≤ right.origin

/-- The copy of a delivery as a manifest of the given version has it. -/
def deliveryActual (host : Host) (schemaVersion : ℕ) (delivery : RelayDelivery) :
    DeliveryPreimage where
  deliveryId := delivery.id
  messageId := delivery.messageId
  recipientRuntime := delivery.recipientRuntime
  recipientSessionRef := delivery.recipientSessionRef
  recipientEndpointId := delivery.recipientEndpointId
  recipientContainerRef := delivery.recipientContainerRef
  state := delivery.state
  claim :=
    if schemaVersion = 1 then delivery.claimToken
    else repairClaimFingerprint host delivery.claimToken
  claimedAt := delivery.claimedAt
  leaseExpiresAt := delivery.leaseExpiresAt
  deliveredAt := delivery.deliveredAt
  attempts := delivery.attempts

/-- The copy of a message in a manifest. -/
def messageActual (host : Host) (message : RelayMessage) : MessagePreimage where
  messageId := message.id
  senderRuntime := message.senderRuntime
  senderSessionRef := message.senderSessionRef
  senderEndpointId := message.senderEndpointId
  recipientSelector := message.recipientSelector
  containerRef := message.containerRef
  payloadSha256 := host.sha256Hex message.payload
  payloadLength := message.payload.utf8ByteSize
  redacted := message.redacted
  inReplyTo := message.inReplyTo
  createdAt := message.createdAt
  expiresAt := message.expiresAt

/-- A claim whose lease has run out. -/
def claimRunOut (current : ℤ) (delivery : RelayDelivery) : Bool :=
  delivery.state == .claimed && delivery.leaseExpiresAt.any fun lease => lease ≤ current

/-- The result which the manifest asks for. -/
def expectedResult (host : Host) (manifest : RepairManifest) : RepairResult where
  manifestDigest := host.manifestDigest manifest
  adoptedDeliveryIds :=
    (manifest.dispositions.filter fun item => item.disposition == .adopt).map RepairItem.deliveryId
  suppressedDeliveryIds :=
    (manifest.dispositions.filter fun item => item.disposition == .suppress).map
      RepairItem.deliveryId
  residualSplit := manifest.residualSplit

def endpointDrifted : RelayError :=
  .conflict "source endpoint preimage, alias, work-ref, or scope drifted"

/-- A source endpoint is as the manifest has it, and nothing else refers to it. -/
def sourceUnchanged (manifest : RepairManifest) (store : RelayStore) (source : RelaySession) :
    Bool :=
  let actual := endpointActual store source
  manifest.endpointPreimage.lookup source.id == some actual &&
    manifest.expectedScopes.lookup source.id == some source.containerRef &&
    source.aliasName.isNone && actual.aliases.isEmpty && actual.workRefs.isEmpty

/-- The checks of the endpoints and of the complete live inventory. -/
def checkEndpoints (manifest : RepairManifest) (current : ℤ) (store : RelayStore) :
    Except RelayError RelaySession := do
  let missing : RelayError := .conflict "repair endpoint is missing"
  let destination ← orRaise (manifest.destinationEndpointId.bind store.sessions.get) missing
  let sources := manifest.sourceEndpointIds.filterMap store.sessions.get
  require (sources.length = manifest.sourceEndpointIds.length) missing
  require (sources.all (sourceUnchanged manifest store)) endpointDrifted
  let actual := endpointActual store destination
  let inconsistent : RelayError := .conflict "destination alias ownership is inconsistent"
  require (destination.aliasName.all fun aliasName =>
      (store.aliases.get aliasName).any fun row => row.endpointId == some destination.id)
    inconsistent
  require (actual.aliases = destination.aliasName.toList.map fun aliasName =>
      ⟨aliasName, some destination.id⟩) inconsistent
  require (manifest.endpointPreimage.lookup destination.id = some actual ∧
      manifest.expectedScopes.lookup destination.id = some destination.containerRef)
    (.conflict "destination endpoint preimage or scope drifted")
  let siblings := store.sessions.rows.filter fun row =>
    row.runtime == destination.runtime && row.sessionRef == destination.sessionRef
  require (sameElements (siblings.map RelaySession.id)
      (manifest.sourceEndpointIds ++ [destination.id]))
    (.conflict "same runtime/session endpoint set is incomplete")
  let fromSource := fun delivery : RelayDelivery =>
    delivery.recipientEndpointId.any fun endpointId =>
      manifest.sourceEndpointIds.contains endpointId
  let claimed := store.deliveries.rows.filter fun delivery =>
    fromSource delivery && delivery.state == .claimed
  require (manifest.schemaVersion = 1 → claimed = [])
    (.conflict "a source has claimed work")
  require (manifest.schemaVersion = 2 → claimed.all fun delivery =>
      delivery.claimToken.any (· != "") && claimRunOut current delivery)
    (.conflict "a source has active or malformed claimed work")
  let live := store.deliveries.rows.filter fun delivery =>
    fromSource delivery &&
      (delivery.state == .pending ||
        (manifest.schemaVersion == 2 && claimRunOut current delivery)) &&
      (store.messages.get delivery.messageId).any fun message => current < message.expiresAt
  require (sameElements (live.map RelayDelivery.id) manifest.deliveryIds)
    (.conflict "repair manifest does not classify the complete live source inventory")
  pure destination

/-- The endpoint that adopts deliveries, if the repair is about endpoints. -/
def repairDestination (manifest : RepairManifest) (current : ℤ) (store : RelayStore) :
    Except RelayError (Option RelaySession) :=
  if manifest.suppressionOnly then pure none
  else do
    let destination ← checkEndpoints manifest current store
    pure (some destination)

/-- The check of one disposition against the rows it copied. -/
def checkItem (host : Host) (manifest : RepairManifest) (evidence : RepairEvidence) (current : ℤ)
    (store : RelayStore) (item : RepairItem) : Except RelayError Unit := do
  let (delivery, message) ← orRaise (store.deliveryWithMessage item.deliveryId)
    (.conflict "repair delivery is missing")
  require (deliveryActual host manifest.schemaVersion delivery = item.delivery ∧
      messageActual host message = item.message ∧
      (manifest.suppressionOnly ∨ delivery.recipientEndpointId.any fun endpointId =>
        manifest.sourceEndpointIds.contains endpointId) ∧
      (delivery.state = .pending ∨ (manifest.schemaVersion = 2 ∧ claimRunOut current delivery ∧
        item.disposition = .suppress)) ∧
      current < message.expiresAt)
    (.conflict "repair delivery or message preimage drifted")
  require (item.disposition = .adopt →
      (manifest.evidenceFor delivery.id).any (fun row => row.status == .clean) ∧
        evidence.cleanAdoptionIds.contains delivery.id)
    (.conflict "adoption requires clean authoritative reservation evidence")

def ledgerCorrupt : RelayError := .conflict "repair ledger is corrupt"

/-- The check of one earlier entry of the ledger. -/
def checkLedger (host : Host) (manifest : RepairManifest) (row : EndpointRepair) :
    Except RelayError Unit := do
  require (host.manifestDigest row.manifest = row.manifestDigest ∧ row.manifest.ledgerWellFormed)
    ledgerCorrupt
  require (row.manifest.deliveryIds.all fun deliveryId => !manifest.deliveryIds.contains deliveryId)
    (.conflict "delivery was already dispositioned by a repair ledger entry")

/-- The delivery row after the repair. -/
def applyDisposition (manifest : RepairManifest) (destination : Option RelaySession)
    (delivery : RelayDelivery) : RelayDelivery :=
  match manifest.dispositions.find? fun item => item.deliveryId == delivery.id with
  | none => delivery
  | some item =>
    match item.disposition with
    | .suppress =>
      delivery.suppress (manifest.schemaVersion == 2 && delivery.state == .claimed)
    | .adopt =>
      match destination with
      | none => delivery
      | some session => delivery.adopt session.id

def relayEndpointRepairBody (host : Host) (manifest : RepairManifest)
    (evidence : RepairEvidence) (current : ℤ) (store : RelayStore) :
    Except RelayError (RelayStore × RepairResult) := do
  manifest.validate
  let digest := host.manifestDigest manifest
  match store.repairs.get digest with
  | some prior => do
    require (prior.manifest = manifest ∧ prior.result = expectedResult host manifest)
      ledgerCorrupt
    pure (store, prior.result)
  | none => do
    store.repairs.rows.forM (checkLedger host manifest)
    require (manifest.databaseIdentity = evidence.actualIdentity)
      (.conflict "repair database identity drifted")
    let destination ← repairDestination manifest current store
    manifest.dispositions.forM (checkItem host manifest evidence current store)
    let result := expectedResult host manifest
    let repairs ← orRaise (store.repairs.insertNew ⟨digest, manifest, result, current⟩) .integrity
    pure ({ store with
      deliveries := store.deliveries.updateAll (applyDisposition manifest destination)
      repairs := repairs }, result)

def relayEndpointRepairApply (host : Host) (manifest : RepairManifest)
    (evidence : RepairEvidence) (current : ℤ) (store : RelayStore) :
    RelayStore × Except RelayError RepairResult :=
  transaction (relayEndpointRepairBody host manifest evidence current) store

end Pallium.Relay
