import Pallium.Core.Text
import Pallium.Core.Transaction
import Pallium.Relay.Schema

/-!
# Repair manifests

A repair manifest names the deliveries to adopt or to suppress, together with an
exact copy of everything the repair relies on.  The fields have their types
here; `validate` makes the remaining checks, in the order of the source.
-/

namespace Pallium.Relay

open Pallium.Transaction

inductive Disposition
  | adopt
  | suppress
  deriving DecidableEq, Repr

inductive EvidenceStatus
  | clean
  | blocked
  | unknown
  deriving DecidableEq, Repr

structure DatabaseIdentity where
  sqlitePath : String
  applicationId : ℤ
  userVersion : ℤ
  schemaVersion : ℤ
  deriving DecidableEq, Repr

structure EndpointPreimage where
  runtime : Runtime
  sessionRef : String
  containerRef : String
  title : Option String
  aliasName : Option String
  state : SessionState
  firstSeenAt : ℤ
  lastSeenAt : ℤ
  closedAt : Option ℤ
  generation : ℕ
  aliases : List RelayAlias
  workRefs : List SessionWorkRef
  deriving DecidableEq, Repr

/-- `claim` is the claim token in manifests of version 1 and its fingerprint in
the later versions. -/
structure DeliveryPreimage where
  deliveryId : String
  messageId : String
  recipientRuntime : Runtime
  recipientSessionRef : String
  recipientEndpointId : Option String
  recipientContainerRef : Option String
  state : DeliveryState
  claim : Option String
  claimedAt : Option ℤ
  leaseExpiresAt : Option ℤ
  deliveredAt : Option ℤ
  attempts : ℕ
  deriving DecidableEq, Repr

structure MessagePreimage where
  messageId : String
  senderRuntime : Runtime
  senderSessionRef : String
  senderEndpointId : Option String
  recipientSelector : String
  containerRef : String
  payloadSha256 : String
  payloadLength : ℕ
  redacted : Bool
  inReplyTo : Option String
  createdAt : ℤ
  expiresAt : ℤ
  deriving DecidableEq, Repr

structure RepairItem where
  deliveryId : String
  disposition : Disposition
  delivery : DeliveryPreimage
  message : MessagePreimage
  deriving DecidableEq, Repr

structure EvidenceRow where
  deliveryId : String
  runtime : Runtime
  status : EvidenceStatus
  deriving DecidableEq, Repr

/-- Whether the file of a reservation store was there. -/
inductive EvidenceStoreStatus
  | missing
  | valid
  deriving DecidableEq, Repr

/-- The reservation store from which the evidence was read. -/
structure EvidenceStore where
  status : EvidenceStoreStatus
  sha256 : Option String
  count : ℕ
  path : Option String
  deriving DecidableEq, Repr

/-- The reservation stores, one for each kind. -/
structure EvidenceStores where
  codex : EvidenceStore
  claude : EvidenceStore
  claudeIntents : EvidenceStore
  deriving DecidableEq, Repr

structure RepairManifest where
  schemaVersion : ℕ
  databaseIdentity : DatabaseIdentity
  sourceEndpointIds : List String
  destinationEndpointId : Option String
  expectedScopes : List (String × String)
  endpointPreimage : List (String × EndpointPreimage)
  evidenceStores : EvidenceStores
  reservationEvidence : List EvidenceRow
  dispositions : List RepairItem
  deriving DecidableEq, Repr

/-- Which endpoint the later sends and replies of each kind reach. -/
structure ResidualSplit where
  aliasSends : String
  exactSourceSendsAndReplies : String
  occupiedScopes : String
  deriving DecidableEq, Repr

structure RepairResult where
  manifestDigest : String
  adoptedDeliveryIds : List String
  suppressedDeliveryIds : List String
  residualSplit : ResidualSplit
  deriving DecidableEq, Repr

/-- An entry of the repair ledger. -/
structure EndpointRepair where
  manifestDigest : String
  manifest : RepairManifest
  result : RepairResult
  committedAt : ℤ
  deriving DecidableEq, Repr

instance : Keyed EndpointRepair String := ⟨EndpointRepair.manifestDigest⟩

/-- Equality of the sets of two lists. -/
def sameElements (left right : List String) : Bool :=
  left.all (fun item => right.contains item) && right.all (fun item => left.contains item)

namespace RepairManifest

def suppressionOnly (manifest : RepairManifest) : Bool := manifest.schemaVersion == 3

def deliveryIds (manifest : RepairManifest) : List String :=
  manifest.dispositions.map RepairItem.deliveryId

/-- The status which the reservation evidence gives a delivery. -/
def evidenceFor (manifest : RepairManifest) (deliveryId : String) : Option EvidenceRow :=
  manifest.reservationEvidence.find? fun row => row.deliveryId == deliveryId

/-- The endpoints of a repair that is not a mere suppression. -/
def endpointsWellFormed (manifest : RepairManifest) : Bool :=
  match manifest.destinationEndpointId with
  | none => false
  | some destination =>
    1 ≤ manifest.sourceEndpointIds.length && manifest.sourceEndpointIds.length ≤ 32 &&
      decide manifest.sourceEndpointIds.Nodup &&
      manifest.sourceEndpointIds.all (Text.isHexIdentifier "relay-session-") &&
      Text.isHexIdentifier "relay-session-" destination &&
      !manifest.sourceEndpointIds.contains destination &&
      sameElements (manifest.expectedScopes.map Prod.fst)
        (manifest.sourceEndpointIds ++ [destination]) &&
      manifest.expectedScopes.all fun scope => scope.2 != ""

def itemWellFormed (item : RepairItem) : Bool :=
  Text.isHexIdentifier "relay-delivery-" item.deliveryId &&
    item.delivery.deliveryId == item.deliveryId &&
    item.delivery.messageId == item.message.messageId

/-- A pending delivery that nobody ever claimed. -/
def itemUnclaimed (item : RepairItem) : Bool :=
  item.disposition == .suppress && item.delivery.state == .pending &&
    item.delivery.claim.isNone && item.delivery.claimedAt.isNone &&
    item.delivery.leaseExpiresAt.isNone && item.delivery.deliveredAt.isNone

def itemClaimConsistent (schemaVersion : ℕ) (item : RepairItem) : Bool :=
  match item.delivery.state with
  | .pending => schemaVersion != 2 || item.delivery.claim.isNone
  | .claimed => schemaVersion != 2 || item.delivery.claim.any (Text.isHexOfLength 64)
  | _ => false

def evidenceStoreWellFormed (store : EvidenceStore) : Bool :=
  store.sha256.all (Text.isHexOfLength 64) && store.path.all fun path => path != ""

/-- The checks made before the repair opens its transaction. -/
def validate (manifest : RepairManifest) : Except RelayError Unit := do
  let version := manifest.schemaVersion
  require (version = 1 ∨ version = 2 ∨ version = 3)
    (.conflict "repair manifest schema is invalid")
  if version = 3 then
    require (manifest.sourceEndpointIds = [] ∧ manifest.destinationEndpointId = none ∧
        manifest.expectedScopes = [] ∧ manifest.endpointPreimage = [])
      (.conflict "delivery-only suppression cannot contain endpoint repair")
  else
    require manifest.endpointsWellFormed
      (.conflict "repair manifest endpoint or disposition bounds are invalid")
  require (1 ≤ manifest.dispositions.length ∧ manifest.dispositions.length ≤ 512)
    (.conflict "repair manifest disposition bounds are invalid")
  require (manifest.dispositions.all itemWellFormed)
    (.conflict "repair manifest disposition preimage is invalid")
  require (version = 3 → manifest.dispositions.all itemUnclaimed)
    (.conflict "delivery-only suppression requires pending unclaimed deliveries")
  require (manifest.dispositions.all (itemClaimConsistent version))
    (.conflict "repair manifest delivery state or claim fingerprint is invalid")
  require (version = 1 → manifest.dispositions.all fun item => item.delivery.state == .pending)
    (.conflict "version 1 repair manifests support pending deliveries only")
  require (version = 2 → manifest.dispositions.all fun item =>
      item.delivery.state != .claimed || item.disposition == .suppress)
    (.conflict "expired claimed delivery may only be suppressed")
  require manifest.deliveryIds.Nodup (.conflict "repair manifest has duplicate delivery IDs")
  require (sameElements (manifest.endpointPreimage.map Prod.fst)
      (manifest.sourceEndpointIds ++ manifest.destinationEndpointId.toList))
    (.conflict "repair endpoint preimage is incomplete")
  require (evidenceStoreWellFormed manifest.evidenceStores.codex ∧
      evidenceStoreWellFormed manifest.evidenceStores.claude ∧
      evidenceStoreWellFormed manifest.evidenceStores.claudeIntents ∧
      manifest.reservationEvidence.length = manifest.dispositions.length ∧
      sameElements (manifest.reservationEvidence.map EvidenceRow.deliveryId) manifest.deliveryIds)
    (.conflict "repair reservation evidence is invalid")
  require (manifest.dispositions.all fun item =>
      (manifest.evidenceFor item.deliveryId).map EvidenceRow.runtime ==
        some item.delivery.recipientRuntime)
    (.conflict "repair reservation evidence runtime is invalid")

def residualSplit (manifest : RepairManifest) : ResidualSplit where
  aliasSends := if manifest.suppressionOnly then "unchanged" else "destination"
  exactSourceSendsAndReplies := if manifest.suppressionOnly then "unchanged" else "source"
  occupiedScopes := "unchanged"

/-- What is checked again of a manifest that is read from the ledger. -/
def ledgerWellFormed (manifest : RepairManifest) : Bool :=
  decide (manifest.schemaVersion = 1 ∨ manifest.schemaVersion = 2 ∨ manifest.schemaVersion = 3) &&
    decide (manifest.suppressionOnly → manifest.sourceEndpointIds = [] ∧
      manifest.destinationEndpointId = none ∧ manifest.expectedScopes = [] ∧
      manifest.endpointPreimage = []) &&
    1 ≤ manifest.dispositions.length && manifest.dispositions.length ≤ 512 &&
    manifest.deliveryIds.all (Text.isHexIdentifier "relay-delivery-") &&
    decide manifest.deliveryIds.Nodup

end RepairManifest

end Pallium.Relay
