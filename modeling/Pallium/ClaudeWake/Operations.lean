import Pallium.ClaudeWake.Registry
import Pallium.Core.Faults

/-!
# The operations of the Claude wake registry

Each operation is the program of the source over the state directory and the
memory of the process, with one write for every file that it replaces or
removes.  The machine also keeps the history of what an observer outside sees:
which endpoints a transport was called for, which attempts ended with the
reservation kept, and which deliveries were released.
-/

namespace Pallium.ClaudeWake

open Pallium.Faults

/-- What an observer sees. -/
inductive Event
  | called (recipientEndpointId : Option String)
  | kept (recipientEndpointId deliveryId : Option String)
  | released (deliveryId : String)
deriving DecidableEq

/-- The state directory, the memory of the process, and the history with the
latest event first. -/
structure Machine where
  directory : Directory
  registry : Registry
  history : List Event

/-- The files that the registry replaces or removes. -/
inductive Site
  | canonical
  | quarantine
  | markerAfterQuarantine
  | marker
  | clearMarker
  | intent
deriving DecidableEq, Repr

abbrev Program := Process Site Machine

/-- What the surroundings of an operation answer: which scopes another process
has locked, which sockets are provably absent, whether the intents can be
listed, and the wall clock. -/
structure Surroundings where
  sha256Hex : String → String
  locked : Scope → Bool
  absent : String → Bool
  listed : Bool
  wallClock : ℚ

namespace Machine

def onDirectory (change : Directory → Directory) (machine : Machine) : Machine :=
  { machine with directory := change machine.directory }

/-- Change the memory of the process. -/
def onRegistry (change : Registry → Registry) (machine : Machine) : Machine :=
  { machine with registry := change machine.registry }

/-- Hold these registrations in memory. -/
def hold (registrations : Table Registration) : Machine → Machine :=
  onRegistry fun registry => { registry with registrations := registrations }

/-- `self._generation += 1`. -/
def advance : Machine → Machine :=
  onRegistry fun registry => { registry with generation := registry.generation + 1 }

def observe (event : Event) (machine : Machine) : Machine :=
  { machine with history := event :: machine.history }

/-- The machine of a new process. -/
def restart (machine : Machine) : Machine :=
  { machine with registry := load machine.directory }

end Machine

section Files

/-- `_write_canonical_locked`. -/
def writeCanonical (registrations : Table Registration) : Program Bool :=
  .write .canonical <| Machine.onDirectory fun directory =>
    { directory with canonical := some (payloadOf registrations) }

/-- `_atomic_write(self._unusable, …)`. -/
def writeMarker (site : Site) : Program Bool :=
  .write site <| Machine.onDirectory fun directory => { directory with unusable := true }

/-- `_quarantine_or_mark_unusable_locked`. -/
def quarantineOrMarkUnusable : Program Bool := do
  let machine ← .read
  if machine.directory.canonical.isSome then
    if ← .write .quarantine (Machine.onDirectory fun directory =>
        { directory with canonical := none }) then
      writeMarker .markerAfterQuarantine
    else writeMarker .marker
  else writeMarker .marker

/-- Refuse rehydration from now on and fence it off on disk. -/
def refuseRehydration : Program Unit := do
  .change (Machine.onRegistry fun registry => { registry with rehydrationRefused := true })
  let fenced ← quarantineOrMarkUnusable
  .change (Machine.onRegistry fun registry => { registry with durabilityDegraded := !fenced })

/-- `_clear_unusable_locked`. -/
def clearUnusable : Program Bool := do
  if ← .write .clearMarker (Machine.onDirectory fun directory =>
      { directory with unusable := false }) then
    .change (Machine.onRegistry fun registry => { registry with rehydrationRefused := false })
    pure true
  else
    .change (Machine.onRegistry fun registry => { registry with rehydrationRefused := true })
    pure false

variable (around : Surroundings)

def safeSessionFile (scope : Scope) : String :=
  around.sha256Hex (JsonText.array
    [JsonText.text scope.runtime, JsonText.text scope.sessionRef,
      JsonText.text scope.containerRef]) ++ ".json"

def revocationFile (scope : Scope) (admissionId : String) : String :=
  "revoke-" ++ around.sha256Hex (JsonText.array
    [JsonText.text scope.runtime, JsonText.text scope.sessionRef,
      JsonText.text scope.containerRef, JsonText.text admissionId]) ++ ".json"

/-- `_read_json` of an intent file. -/
def readIntentFile (directory : Directory) (name : String) : Json :=
  ((directory.intents.find? fun file => file.1 == name).map Prod.snd).getD .null

/-- `_read_intent_locked`. -/
def readIntent (directory : Directory) (scope : Scope) : Option (List (String × Json)) :=
  (readIntentFile directory (safeSessionFile around scope)).fields?

/-- `path.unlink(missing_ok=True)`. -/
def unlinkIntent (name : String) : Program Bool :=
  .write .intent <| Machine.onDirectory fun directory =>
    { directory with intents := directory.intents.filter fun file => file.1 != name }

/-- `_delete_intent_locked`; `null` is no expected intent. -/
def deleteIntent (scope : Scope) (expectedIntentId : Json) : Program Bool := do
  let machine ← .read
  let expected :=
    match expectedIntentId with
    | .null => true
    | _ => (readIntent around machine.directory scope).any fun intent =>
      (Json.getD intent "intent_id").same expectedIntentId
  if expected then unlinkIntent (safeSessionFile around scope) else pure false

end Files

section Register

/-- The arguments of `register`. -/
structure Registering where
  scope : Scope
  socketPath : String
  token : String
  idle : Bool
  intentId : String
deriving DecidableEq

/-- What `complete_registration` does; without it the registration proceeds. -/
inductive Completion
  | proceeds
  | defers
  | raisesValueError
  | raises
deriving DecidableEq, Repr

/-- An exception that leaves `register`. -/
inductive Raised
  | valueError
  | other
deriving DecidableEq, Repr

/-- The registration that `register` stores. -/
def admitted (request : Registering)
    (hvalid : validRegistration request.scope request.socketPath request.token = true)
    (registry : Registry) : Registration :=
  match hget : registry.registrations.get request.scope with
  | some existing =>
    if existing.inflight then
      existing.renew request.socketPath request.token (registry.generation + 1) (by
        have hscope : existing.scope = request.scope := Table.key_of_get hget
        rw [hscope]
        exact hvalid)
    else
      .fresh request.scope request.socketPath request.token (registry.generation + 1)
        request.idle hvalid
  | none =>
    .fresh request.scope request.socketPath request.token (registry.generation + 1)
      request.idle hvalid

/-- Remove the first registration whose socket is provably absent and whose
removal can be written. -/
def evictFirst (around : Surroundings) : List Registration → Program Bool
  | [] => pure false
  | registration :: rest => do
    let machine ← .read
    if registration.inflight || !around.absent registration.socketPath then
      evictFirst around rest
    else
      let updated := machine.registry.registrations.erase registration.scope
      if ← writeCanonical updated then
        .change (Machine.hold updated)
        pure true
      else evictFirst around rest

/-- `_ensure_capacity_locked`. -/
def ensureCapacity (around : Surroundings) : Program Bool := do
  let machine ← .read
  if machine.registry.registrations.rows.length < maxRegistrations then pure true
  else evictFirst around machine.registry.registrations.rows

variable (around : Surroundings)

/-- `_intent_matches`, and the intent has the id of the request. -/
def intentMatches (request : Registering) (intent : List (String × Json)) : Bool :=
  (Json.getD intent "intent_id").isText request.intentId &&
    (Json.getD intent "runtime").isText request.scope.runtime &&
    (Json.getD intent "session_ref").isText request.scope.sessionRef &&
    (Json.getD intent "container_ref").isText request.scope.containerRef &&
    (Json.getD intent "socket_path").isText request.socketPath &&
    (Json.getD intent "token").isText request.token &&
    (Json.getD intent "idle").equalsBool request.idle

/-- Store the registration and consume its intent. -/
def storeAdmission (request : Registering) (complete : Completion)
    (hvalid : validRegistration request.scope request.socketPath request.token = true) :
    Program (Except Raised Bool) := do
  let machine ← .read
  let registrations :=
    machine.registry.registrations.set (admitted request hvalid machine.registry)
  .change Machine.advance
  if ← writeCanonical registrations then
    if ← clearUnusable then
      .change (Machine.hold registrations)
      match complete with
      | .proceeds =>
        let _ ← deleteIntent around request.scope (.string request.intentId)
        pure (.ok true)
      | .defers => pure (.ok false)
      | .raisesValueError => pure (.error .valueError)
      | .raises => pure (.error .other)
    else pure (.ok false)
  else pure (.ok false)

def register (request : Registering) (complete : Completion) : Program (Except Raised Bool) :=
  if hvalid : validRegistration request.scope request.socketPath request.token = true then
    if valid request.intentId 128 then
      if around.locked request.scope then pure (.ok false)
      else do
        let machine ← .read
        if machine.registry.rehydrationRefused then pure (.ok false)
        else if (readIntent around machine.directory request.scope).any (intentMatches request) then
          if (machine.registry.registrations.get request.scope).isSome then
            storeAdmission around request complete hvalid
          else if ← ensureCapacity around then storeAdmission around request complete hvalid
          else pure (.ok false)
        else pure (.ok false)
    else pure (.error .valueError)
  else pure (.error .valueError)

end Register

section Transitions

def markBusy (scope : Scope) : Program Bool := do
  let machine ← .read
  match machine.registry.registrations.get scope with
  | none => pure false
  | some registration =>
    if registration.inflight then pure true
    else
      let busy := registration.settle (machine.registry.generation + 1) .busy (by decide)
      let registrations := machine.registry.registrations.set busy
      .change Machine.advance
      if ← writeCanonical registrations then
        .change (Machine.hold registrations)
        pure true
      else
        .change (Machine.hold registrations)
        refuseRehydration
        pure true

inductive ActivationOutcome
  | accepted
  | deferred
  | uncertain
  | failed
deriving DecidableEq, Repr

inductive ActivationEvidence
  | submissionAttempted
  | transportAccepted
  | payloadAdmitted
deriving DecidableEq, Repr

/-- `ActivationAttemptResult`; the health update can only be `"unreachable"`. -/
structure ActivationAttemptResult where
  outcome : ActivationOutcome
  reason : String
  evidence : List ActivationEvidence
  nativeRetrySafe : Bool
  destinationUnreachable : Bool
deriving DecidableEq, Repr

/-- `ActivationAttemptResult("deferred", reason)`. -/
def deferred (reason : String) : ActivationAttemptResult := ⟨.deferred, reason, [], false, false⟩

/-- What the transport returns or raises. -/
inductive TransportAnswer
  | result (result : ActivationAttemptResult)
  | accepted
  | unreachable
  | other
  | raises
deriving DecidableEq, Repr

/-- The result of the answer of a transport. -/
def TransportAnswer.activation : TransportAnswer → ActivationAttemptResult
  | .result answered => answered
  | .accepted =>
    ⟨.accepted, "transport_accepted", [.submissionAttempted, .transportAccepted], false, false⟩
  | .unreachable => ⟨.failed, "endpoint_missing", [], true, true⟩
  | .other => ⟨.uncertain, "transport_uncertain", [.submissionAttempted], false, false⟩
  | .raises => ⟨.uncertain, "transport_exception", [.submissionAttempted], false, false⟩

/-- The reservation of the attempt stays. -/
def ActivationAttemptResult.keeps (result : ActivationAttemptResult) : Bool :=
  result.outcome == .accepted || result.outcome == .uncertain || !result.nativeRetrySafe

/-- What `still_pending` answers; without it the delivery is pending. -/
inductive PendingAnswer
  | pending
  | notPending
  | raises
deriving DecidableEq, Repr

/-- The arguments of `attempt`, with the answers of its callbacks. -/
structure Attempt where
  scope : Scope
  transport : Option TransportAnswer
  deliveryId : Option String
  recipientEndpointId : Option String
  stillPending : PendingAnswer
deriving DecidableEq, Repr

/-- The delivery is valid and comes with an endpoint, or there is none. -/
def Attempt.validReservation (call : Attempt) : Bool :=
  match call.deliveryId with
  | none => true
  | some delivery => valid delivery 128 && call.recipientEndpointId.any endpointMatches

/-- A reservation in flight that fences the attempt. -/
def Attempt.fencedBy (call : Attempt) (current : Registration) : Bool :=
  current.inflight &&
    ((call.recipientEndpointId.isSome &&
        current.recipientEndpointId == call.recipientEndpointId) ||
      (current.recipientEndpointId.isNone && current.scope.runtime == call.scope.runtime &&
        current.scope.sessionRef == call.scope.sessionRef))

/-- The registration that an attempt may consume and the answer its transport
will give, or why the attempt is deferred. -/
def Attempt.eligible (call : Attempt) (registry : Registry) :
    Except ActivationAttemptResult (Registration × TransportAnswer) :=
  match call.transport with
  | none => .error ⟨.deferred, "transport_unavailable", [], true, false⟩
  | some answer =>
    if call.validReservation then
      match registry.registrations.get call.scope with
      | none => .error (deferred "not_eligible")
      | some registration =>
        if registration.idle then
          if registry.registrations.rows.any call.fencedBy then
            .error (deferred "reservation_exists")
          else
            match call.stillPending with
            | .pending => .ok (registration, answer)
            | .notPending => .error (deferred "delivery_not_pending")
            | .raises => .error (deferred "pending_check_failed")
        else .error (deferred "not_eligible")
    else .error (deferred "invalid_reservation")

/-- The registration after a result that does not keep the reservation. -/
def Registration.reset (consumed : Registration) (result : ActivationAttemptResult) :
    Registration :=
  if result.destinationUnreachable then
    consumed.settle consumed.generation .unreachable (by decide)
  else consumed.settle consumed.generation .idle (by decide)

def attempt (around : Surroundings) (call : Attempt) : Program ActivationAttemptResult := do
  let machine ← .read
  match call.eligible machine.registry with
  | .error refusal => pure refusal
  | .ok (registration, answer) =>
    let consumed := registration.consume (machine.registry.generation + 1) call.deliveryId
      around.wallClock call.recipientEndpointId
    let reserved := machine.registry.registrations.set consumed
    .change Machine.advance
    if ← writeCanonical reserved then
      .change (Machine.hold reserved)
      .change (Machine.observe (.called call.recipientEndpointId))
      let result := answer.activation
      if result.keeps then
        .change (Machine.observe (.kept call.recipientEndpointId call.deliveryId))
        pure result
      else
        let settled := reserved.set (consumed.reset result)
        if ← writeCanonical settled then
          .change (Machine.hold settled)
          pure result
        else
          refuseRehydration
          .change (Machine.observe (.kept call.recipientEndpointId call.deliveryId))
          pure ⟨.uncertain, "safe_reset_write_failed", [.submissionAttempted], false, false⟩
    else pure (deferred "reservation_write_failed")

/-- The attempts in flight with a delivery. -/
def Registry.matching (registry : Registry) (deliveryId : String) : List Registration :=
  registry.registrations.rows.filter fun item =>
    item.inflight && item.deliveryId == some deliveryId

def releaseDelivery (deliveryId : String) : Program Bool := do
  if valid deliveryId 128 then
    let machine ← .read
    match machine.registry.matching deliveryId with
    | [current] =>
      let released := current.settle (machine.registry.generation + 1) .busy (by decide)
      let registrations := machine.registry.registrations.set released
      .change Machine.advance
      if ← writeCanonical registrations then
        .change (Machine.hold registrations)
        .change (Machine.observe (.released deliveryId))
        pure true
      else
        refuseRehydration
        pure false
    | _ => pure false
  else pure false

end Transitions

section Close

variable (around : Surroundings)

/-- `_remove_locked`. -/
def removeRegistration (scope : Scope) (expectedIntentId : Json) : Program Bool := do
  let machine ← .read
  let updated := machine.registry.registrations.erase scope
  if ← writeCanonical updated then
    .change (Machine.hold updated)
    let _ ← deleteIntent around scope expectedIntentId
    pure true
  else pure false

def closes (scope : Scope) (intentId : Json) (intent : List (String × Json)) : Bool :=
  (Json.getD intent "intent_id").same intentId &&
    (Json.getD intent "closed").same (.bool true) &&
    (Json.getD intent "runtime").isText scope.runtime &&
    (Json.getD intent "session_ref").isText scope.sessionRef &&
    (Json.getD intent "container_ref").isText scope.containerRef

/-- The intent expects another admission than the registration has. -/
def expectsAnother (registration : Option Registration) (intent : List (String × Json)) : Bool :=
  match Json.lookup intent "expected_admission_id" with
  | none => false
  | some expected =>
    match registration with
    | none => true
    | some registration => !(Json.optionalText registration.admissionId).same expected

/-- `close`; `null` is no intent id. -/
def close (scope : Scope) (intentId : Json) : Program Bool :=
  if around.locked scope then pure false
  else do
    let machine ← .read
    match readIntent around machine.directory scope with
    | none => pure false
    | some intent =>
      if closes scope intentId intent then
        let registration := machine.registry.registrations.get scope
        if expectsAnother registration intent then
          let _ ← deleteIntent around scope intentId
          pure false
        else if registration.any Registration.inflight then
          let _ ← deleteIntent around scope intentId
          pure true
        else removeRegistration around scope intentId
      else pure false

def remove (scope : Scope) : Program Bool :=
  if around.locked scope then pure false
  else do
    let machine ← .read
    match machine.registry.registrations.get scope with
    | none => pure false
    | some registration =>
      if registration.inflight then pure true else removeRegistration around scope .null

end Close

section Recover

variable (around : Surroundings)

/-- The scope of an intent, if its three parts are texts. -/
def scopeOf (fields : List (String × Json)) : Option Scope := do
  let runtime ← (Json.getD fields "runtime").text?
  let sessionRef ← (Json.getD fields "session_ref").text?
  let containerRef ← (Json.getD fields "container_ref").text?
  pure ⟨runtime, sessionRef, containerRef⟩

/-- An intent that `recover_intents` applies. -/
structure PendingIntent where
  name : String
  fields : List (String × Json)
  scope : Scope
  exactScope : Bool

/-- The request of an intent; `none` is a missing key or a value of a wrong
type. -/
def requestOf (intent : PendingIntent) : Option Registering := do
  let socketPath ← (Json.getD intent.fields "socket_path").text?
  let token ← (Json.getD intent.fields "token").text?
  let idle ← (Json.getD intent.fields "idle").bool?
  let intentId ← (Json.getD intent.fields "intent_id").text?
  pure ⟨intent.scope, socketPath, token, idle, intentId⟩

/-- The admission that a revocation notice withdraws and its scope. -/
def noticeOf (name : String) (fields : List (String × Json)) : Option (Scope × String) := do
  let scope ← scopeOf fields
  let admissionId ← (Json.getD fields "admission_id").text?
  let keys := ["runtime", "session_ref", "container_ref", "admission_id", "closed"]
  if keys.all (Json.has fields) && (fields.all fun field => keys.contains field.1) &&
      (Json.getD fields "closed").same (.bool true) && scope.runtime == runtimeName &&
      valid scope.sessionRef 512 && valid scope.containerRef 512 && valid admissionId 128 &&
      name == revocationFile around scope admissionId then
    pure (scope, admissionId)
  else none

/-- An intent of the scope that waits to be registered. -/
def registrationWaits (scope : Scope) (pending : List (String × Json)) : Bool :=
  !(Json.getD pending "closed").same (.bool true) &&
    (Json.getD pending "idle").bool?.isSome &&
    ((Json.getD pending "intent_id").text?.any fun intentId => valid intentId 128) &&
    (((Json.getD pending "socket_path").text?.bind fun socketPath =>
      (Json.getD pending "token").text?.map fun token =>
        validRegistration scope socketPath token).getD false) &&
    (Json.getD pending "runtime").isText scope.runtime &&
    (Json.getD pending "session_ref").isText scope.sessionRef &&
    (Json.getD pending "container_ref").isText scope.containerRef

/-- Remove a notice that still reads as it did. -/
def unlinkNotice (name : String) (fields : List (String × Json)) : Program Unit := do
  let machine ← .read
  if (readIntentFile machine.directory name).same (.object fields) then
    let _ ← unlinkIntent name
    pure ()
  else pure ()

/-- `_recover_revocation_locked`. -/
def recoverRevocation (name : String) (fields : List (String × Json)) : Program Unit :=
  match noticeOf around name fields with
  | none => pure ()
  | some (scope, admissionId) =>
    if around.locked scope then pure ()
    else do
      let machine ← .read
      match machine.registry.registrations.get scope with
      | none => unlinkNotice name fields
      | some current =>
        if current.admissionId = some admissionId then
          if (readIntent around machine.directory scope).any (registrationWaits scope) then
            pure ()
          else if current.inflight then unlinkNotice name fields
          else
            let updated := machine.registry.registrations.erase scope
            if ← writeCanonical updated then
              .change (Machine.hold updated)
              unlinkNotice name fields
            else pure ()
        else unlinkNotice name fields

/-- Read the intent files, apply the revocation notices among them and return
the intents of a scope. -/
def collectIntents : List (String × Json) → Program (List PendingIntent)
  | [] => pure []
  | (name, value) :: files => do
    match value.fields? with
    | none => collectIntents files
    | some fields =>
      if Json.has fields "actor_ref" then collectIntents files
      else if "revoke-".toList.isPrefixOf name.toList then
        recoverRevocation around name fields
        collectIntents files
      else
        match scopeOf fields with
        | none => collectIntents files
        | some scope =>
          let rest ← collectIntents files
          pure (⟨name, fields, scope, name == safeSessionFile around scope⟩ :: rest)

def applyScoped (complete : Completion) (intent : PendingIntent) :
    Program (Except Raised Bool) :=
  if (Json.getD intent.fields "closed").same (.bool true) then
    match Json.lookup intent.fields "intent_id" with
    | none => pure (.error .valueError)
    | some intentId => do
      let applied ← close around intent.scope intentId
      pure (.ok applied)
  else
    match requestOf intent with
    | none => pure (.error .valueError)
    | some request => register around request complete

/-- Remove an intent file that still has the id of the intent. -/
def unlinkLegacy (intent : PendingIntent) : Program Unit := do
  let machine ← .read
  if (readIntentFile machine.directory intent.name).fields?.any fun current =>
      (Json.getD current "intent_id").same (Json.getD intent.fields "intent_id") then
    let _ ← unlinkIntent intent.name
    pure ()
  else pure ()

/-- Fence the registration of an intent that has no file of its scope. -/
def applyLegacy (applied : List Scope) (intent : PendingIntent) : Program Unit := do
  let machine ← .read
  if !applied.contains intent.scope &&
      !(machine.registry.registrations.get intent.scope).any Registration.inflight then
    let updated := machine.registry.registrations.erase intent.scope
    if ← writeCanonical updated then
      .change (Machine.hold updated)
      unlinkLegacy intent
    else
      .change (Machine.hold updated)
      refuseRehydration
  else unlinkLegacy intent

/-- Apply the intents in their order; an exception that is no `ValueError` ends
the recovery. -/
def applyIntents (complete : Completion) (applied : List Scope) :
    List PendingIntent → Program Unit
  | [] => pure ()
  | intent :: rest =>
    if intent.exactScope then do
      match ← applyScoped around complete intent with
      | .ok true => applyIntents complete (intent.scope :: applied) rest
      | .ok false => applyIntents complete applied rest
      | .error .valueError => applyIntents complete applied rest
      | .error .other => pure ()
    else do
      applyLegacy applied intent
      applyIntents complete applied rest

def recoverIntents (complete : Completion) : Program Unit := do
  let machine ← .read
  if around.listed then
    let intents ← collectIntents around machine.directory.intents
    applyIntents around complete []
      (intents.filter PendingIntent.exactScope ++ intents.filter fun intent => !intent.exactScope)
  else pure ()

end Recover

/-- An operation of the registry, a restart, or hooks that rewrite the intent
files. -/
inductive Operation
  | register (request : Registering) (complete : Completion)
  | markBusy (scope : Scope)
  | attempt (call : Attempt)
  | releaseDelivery (deliveryId : String)
  | recoverIntents (complete : Completion)
  | close (scope : Scope) (intentId : Json)
  | remove (scope : Scope)
  | restart
  | hooks (intents : List (String × Json))

def Operation.program (around : Surroundings) : Operation → Program Unit
  | register request complete => do
    let _ ← ClaudeWake.register around request complete
    pure ()
  | markBusy scope => do
    let _ ← ClaudeWake.markBusy scope
    pure ()
  | attempt call => do
    let _ ← ClaudeWake.attempt around call
    pure ()
  | releaseDelivery deliveryId => do
    let _ ← ClaudeWake.releaseDelivery deliveryId
    pure ()
  | recoverIntents complete => ClaudeWake.recoverIntents around complete
  | close scope intentId => do
    let _ ← ClaudeWake.close around scope intentId
    pure ()
  | remove scope => do
    let _ ← ClaudeWake.remove around scope
    pure ()
  | restart => .change Machine.restart
  | hooks intents =>
    .change (Machine.onDirectory fun directory => { directory with intents := intents })

/-- An operation with its surroundings and the faults of its writes. -/
structure Step where
  operation : Operation
  around : Surroundings
  faults : List Fault

namespace Machine

/-- How the program of a step ends. -/
def ending (machine : Machine) (first : Step) : Ending Site Machine Unit :=
  first.operation.program first.around machine first.faults

/-- One step.  Where the process stops, the next one starts. -/
def step (machine : Machine) (first : Step) : Machine :=
  match machine.ending first with
  | .returned _ after _ => after
  | .stopped _ after => after.restart

end Machine

end Pallium.ClaudeWake
