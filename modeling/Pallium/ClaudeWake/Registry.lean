import Pallium.Core.Json
import Pallium.Relay.View

/-!
# The registry of Claude wake capabilities

A registration is the capability to wake one Claude session in one scope.  It is
idle, busy, unreachable or in flight; an attempt that may have reached the
session leaves it in flight, with the delivery and the recipient endpoint of the
attempt.  `RegistrationFields` are the fields as the source has them and a
`Registration` carries the proof that they fit together.  The registry keeps its
registrations in memory and in a capability file of its state directory, which
the loader of a later process reads back or refuses.
-/

namespace Pallium.ClaudeWake

/-- `RUNTIME`. -/
def runtimeName : String := "claude-code"

def maxRegistrations : ℕ := 256

/-- `_valid` for a text. -/
def valid (value : String) (maximum : ℕ) : Bool :=
  value != "" && value.toList.length ≤ maximum && !value.toList.any Relay.isControl

/-- `_ENDPOINT_RE` as a full match. -/
def endpointMatches (value : String) : Bool := Text.isHexIdentifier "relay-session-" value

/-- A runtime, a session and a container. -/
structure Scope where
  runtime : String
  sessionRef : String
  containerRef : String
deriving DecidableEq, Repr

inductive WakeState
  | idle
  | busy
  | wakeInflight
  | unreachable
deriving DecidableEq, Repr

namespace WakeState

def text : WakeState → String
  | idle => "idle"
  | busy => "busy"
  | wakeInflight => "wake_inflight"
  | unreachable => "unreachable"

def ofText? (text : String) : Option WakeState :=
  if text = "idle" then some idle
  else if text = "busy" then some busy
  else if text = "wake_inflight" then some wakeInflight
  else if text = "unreachable" then some unreachable
  else none

theorem ofText?_text (state : WakeState) : ofText? state.text = some state := by
  cases state <;> decide

end WakeState

def validRegistration (scope : Scope) (socketPath token : String) : Bool :=
  scope.runtime == runtimeName && valid scope.runtime 32 && valid scope.sessionRef 512 &&
    valid scope.containerRef 512 && valid socketPath 4096 && valid token 8192

structure RegistrationFields where
  scope : Scope
  socketPath : String
  token : String
  generation : ℕ
  expiresAt : Number
  idle : Bool
  state : WakeState
  deliveryId : Option String
  attemptedAt : Option Number
  recipientEndpointId : Option String
  admissionId : Option String
deriving DecidableEq

/-- The fields of a registration fit together: the idle flag repeats the state,
and only an attempt in flight has a delivery, an instant and an endpoint. -/
structure RegistrationFields.Consistent (fields : RegistrationFields) : Prop where
  admissible : validRegistration fields.scope fields.socketPath fields.token = true
  idle_eq : fields.idle = (fields.state == .idle)
  unreserved : fields.state ≠ .wakeInflight →
    fields.deliveryId = none ∧ fields.attemptedAt = none ∧ fields.recipientEndpointId = none
  attempted : fields.state = .wakeInflight →
    ∃ instant, fields.attemptedAt = some instant ∧ instant.isFinite = true
  admitted : ∀ admission, fields.admissionId = some admission → valid admission 128 = true

/-- `_Registration` with the proof that its fields fit together. -/
structure Registration extends RegistrationFields where
  consistent : toRegistrationFields.Consistent
deriving DecidableEq

instance : Keyed Registration Scope := ⟨fun registration => registration.scope⟩

namespace Registration

variable (registration : Registration)

/-- `state == "wake_inflight"`. -/
def inflight : Bool := registration.state == .wakeInflight

/-- The registration of a request, idle or busy. -/
def fresh (scope : Scope) (socketPath token : String) (generation : ℕ) (idle : Bool)
    (hvalid : validRegistration scope socketPath token = true) : Registration where
  scope := scope
  socketPath := socketPath
  token := token
  generation := generation
  expiresAt := .infinite false
  idle := idle
  state := if idle then .idle else .busy
  deliveryId := none
  attemptedAt := none
  recipientEndpointId := none
  admissionId := none
  consistent := by
    refine ⟨hvalid, ?_, fun _ => ⟨rfl, rfl, rfl⟩, ?_, nofun⟩
    · cases idle <;> rfl
    · cases idle <;> nofun

/-- A new socket and token for a registration that keeps its state. -/
def renew (socketPath token : String) (generation : ℕ)
    (hvalid : validRegistration registration.scope socketPath token = true) : Registration where
  toRegistrationFields :=
    { registration.toRegistrationFields with
      socketPath := socketPath
      token := token
      generation := generation
      admissionId := none
      expiresAt := .infinite false }
  consistent :=
    ⟨hvalid, registration.consistent.idle_eq, registration.consistent.unreserved,
      registration.consistent.attempted, nofun⟩

/-- The registration without an attempt, in a state that is not in flight. -/
def settle (generation : ℕ) (state : WakeState) (hstate : state ≠ .wakeInflight) :
    Registration where
  toRegistrationFields :=
    { registration.toRegistrationFields with
      generation := generation
      idle := state == .idle
      state := state
      deliveryId := none
      attemptedAt := none
      recipientEndpointId := none }
  consistent :=
    ⟨registration.consistent.admissible, rfl, fun _ => ⟨rfl, rfl, rfl⟩,
      fun hinflight => absurd hinflight hstate, registration.consistent.admitted⟩

/-- The registration with an attempt in flight. -/
def consume (generation : ℕ) (deliveryId : Option String) (attemptedAt : ℚ)
    (recipientEndpointId : Option String) : Registration where
  toRegistrationFields :=
    { registration.toRegistrationFields with
      generation := generation
      idle := false
      state := .wakeInflight
      deliveryId := deliveryId
      attemptedAt := some (.float attemptedAt)
      recipientEndpointId := recipientEndpointId }
  consistent :=
    ⟨registration.consistent.admissible, rfl, fun hstate => absurd rfl hstate,
      fun _ => ⟨_, rfl, rfl⟩, registration.consistent.admitted⟩

theorem idle_eq_false_of_inflight (hinflight : registration.inflight = true) :
    registration.idle = false := by
  rw [registration.consistent.idle_eq]
  rw [inflight, beq_iff_eq] at hinflight
  rw [hinflight]
  rfl

end Registration

/-- What the state directory holds.  `none` is a missing capability file, a file
that cannot be read stands as `null`, and `intents` lists the intent files by
their names. -/
structure Directory where
  canonical : Option Json
  unusable : Bool
  intents : List (String × Json)

/-- `ClaudeWakeRegistry` of a process with a state directory. -/
structure Registry where
  generation : ℕ
  registrations : Table Registration
  rehydrationRefused : Bool
  durabilityDegraded : Bool

section Writing

/-- `asdict`, without a missing admission. -/
def itemOf (registration : Registration) : Json :=
  .object <|
    [("runtime", .string registration.scope.runtime),
      ("session_ref", .string registration.scope.sessionRef),
      ("container_ref", .string registration.scope.containerRef),
      ("socket_path", .string registration.socketPath),
      ("token", .string registration.token),
      ("generation", .number (.int registration.generation)),
      ("expires_at", .number registration.expiresAt),
      ("idle", .bool registration.idle),
      ("state", .string registration.state.text),
      ("delivery_id", .optionalText registration.deliveryId),
      ("attempted_at", match registration.attemptedAt with
        | none => .null
        | some instant => .number instant),
      ("recipient_endpoint_id", .optionalText registration.recipientEndpointId)] ++
    match registration.admissionId with
      | none => []
      | some admission => [("admission_id", .string admission)]

/-- What `_write_canonical_locked` writes. -/
def payloadOf (registrations : Table Registration) : Json :=
  .object
    [("version", .number (.int 1)), ("registrations", .array (registrations.rows.map itemOf))]

end Writing

section Loading

/-- The keys that `_valid_loaded_item` requires. -/
def requiredKeys : List String :=
  ["runtime", "session_ref", "container_ref", "socket_path", "token", "generation", "expires_at",
    "idle", "state", "delivery_id", "attempted_at"]

/-- The keys of an item are the required ones and perhaps the optional ones. -/
def validKeys (fields : List (String × Json)) : Bool :=
  requiredKeys.all (Json.has fields) &&
    fields.all fun field =>
      requiredKeys.contains field.1 || field.1 == "recipient_endpoint_id" ||
        field.1 == "admission_id"

/-- `type(value) is int`, and not negative. -/
def readGeneration : Json → Option ℕ
  | .number (.int (.ofNat value)) => some value
  | _ => none

/-- `type(value) in (int, float)`. -/
def readNumber : Json → Option Number
  | .number value => some value
  | _ => none

/-- A number or `None`. -/
def readOptionalNumber : Json → Option (Option Number)
  | .null => some none
  | .number value => some (some value)
  | _ => none

/-- A missing admission, or a text. -/
def readAdmission (fields : List (String × Json)) : Option (Option String) :=
  match Json.lookup fields "admission_id" with
  | none => some none
  | some value => value.text?.map some

/-- The fields of an item, if they are there and of their types. -/
def readItem (item : Json) : Option RegistrationFields := do
  let fields ← item.fields?
  if validKeys fields then
    let runtime ← (Json.getD fields "runtime").text?
    let sessionRef ← (Json.getD fields "session_ref").text?
    let containerRef ← (Json.getD fields "container_ref").text?
    let socketPath ← (Json.getD fields "socket_path").text?
    let token ← (Json.getD fields "token").text?
    let generation ← readGeneration (Json.getD fields "generation")
    let expiresAt ← readNumber (Json.getD fields "expires_at")
    let idle ← (Json.getD fields "idle").bool?
    let state ← (Json.getD fields "state").text?.bind WakeState.ofText?
    let deliveryId ← (Json.getD fields "delivery_id").optionalText?
    let attemptedAt ← readOptionalNumber (Json.getD fields "attempted_at")
    let recipientEndpointId ← (Json.getD fields "recipient_endpoint_id").optionalText?
    let admissionId ← readAdmission fields
    pure ⟨⟨runtime, sessionRef, containerRef⟩, socketPath, token, generation, expiresAt, idle, state,
      deliveryId, attemptedAt, recipientEndpointId, admissionId⟩
  else none

/-- What `_valid_loaded_item` asks of the values. -/
def validLoadedItem (fields : RegistrationFields) : Bool :=
  (fields.admissionId.all fun admission => valid admission 128) &&
    fields.idle == (fields.state == .idle) &&
    if fields.state ≠ .wakeInflight then
      fields.deliveryId == none && fields.attemptedAt == none && fields.recipientEndpointId == none
    else
      (fields.deliveryId.any fun delivery => valid delivery 128) &&
        fields.attemptedAt.any Number.isFinite &&
        fields.recipientEndpointId.all endpointMatches

theorem consistent_of_valid {fields : RegistrationFields} (hitem : validLoadedItem fields = true)
    (hregistration : validRegistration fields.scope fields.socketPath fields.token = true) :
    fields.Consistent := by
  rw [validLoadedItem, Bool.and_eq_true, Bool.and_eq_true] at hitem
  obtain ⟨⟨hadmission, hidle⟩, hreserved⟩ := hitem
  refine ⟨hregistration, by simpa using hidle, fun hstate => ?_, fun hstate => ?_, ?_⟩
  · rw [if_pos hstate] at hreserved
    simpa [and_assoc] using hreserved
  · rw [if_neg (by simpa using hstate)] at hreserved
    simp only [Bool.and_eq_true, Option.any_eq_true] at hreserved
    exact hreserved.1.2
  · intro admission hadmitted
    rw [hadmitted] at hadmission
    exact hadmission

/-- `_Registration(**item)` for an item that is valid. -/
def loadedRegistration (item : Json) : Option Registration :=
  (readItem item).bind fun fields =>
    if hitem : validLoadedItem fields = true then
      if hregistration : validRegistration fields.scope fields.socketPath fields.token = true then
        some ⟨fields, consistent_of_valid hitem hregistration⟩
      else none
    else none

/-- What `_load` has admitted so far. -/
structure Loading where
  registrations : Table Registration
  inflightDeliveries : List (Option String)
  inflightEndpoints : List String
  generation : ℕ

/-- Nothing has been admitted. -/
def Loading.start : Loading := ⟨.empty, [], [], 0⟩

/-- Two attempts in flight share neither a delivery nor an endpoint. -/
def Loading.conflicts (loading : Loading) (registration : Registration) : Bool :=
  registration.inflight &&
    (loading.inflightDeliveries.contains registration.deliveryId ||
      registration.recipientEndpointId.any loading.inflightEndpoints.contains)

/-- Admit one registration whose key is free. -/
def Loading.accept (loading : Loading) (registration : Registration) : Option Loading :=
  match loading.registrations.insertNew registration with
  | none => none
  | some registrations =>
    if loading.conflicts registration then none
    else
      some
        { registrations := registrations
          inflightDeliveries :=
            if registration.inflight then registration.deliveryId :: loading.inflightDeliveries
            else loading.inflightDeliveries
          inflightEndpoints :=
            if registration.inflight then
              registration.recipientEndpointId.toList ++ loading.inflightEndpoints
            else loading.inflightEndpoints
          generation := max loading.generation registration.generation }

/-- Admit the items in their order, up to the first that is refused. -/
def loadItems (loading : Loading) : List Json → Loading × Bool
  | [] => (loading, true)
  | item :: items =>
    match (loadedRegistration item).bind loading.accept with
    | none => (loading, false)
    | some admitted => loadItems admitted items

/-- The items of a capability file of the right version and size. -/
def registrationItems (raw : Json) : Option (List Json) :=
  match raw.fields? with
  | none => none
  | some fields =>
    if (Json.getD fields "version").isOne then
      match Json.getD fields "registrations" with
      | .array items => if items.length ≤ maxRegistrations then some items else none
      | _ => none
    else none

/-- A registry that refuses what its directory holds. -/
def Registry.refused (generation : ℕ) : Registry := ⟨generation, .empty, true, false⟩

def load (directory : Directory) : Registry :=
  if directory.unusable then .refused 0
  else
    match directory.canonical with
    | none => ⟨0, .empty, false, false⟩
    | some raw =>
      match registrationItems raw with
      | none => .refused 0
      | some items =>
        match loadItems .start items with
        | (loading, true) => ⟨loading.generation, loading.registrations, false, false⟩
        | (loading, false) => .refused loading.generation

end Loading

section Reading

theorem readItem_itemOf (registration : Registration) :
    readItem (itemOf registration) = some registration.toRegistrationFields := by
  have hread : readItem (itemOf registration) =
      (WakeState.ofText? registration.state.text).bind fun state =>
        (Json.optionalText registration.deliveryId).optionalText?.bind fun deliveryId =>
          (Json.optionalText registration.recipientEndpointId).optionalText?.bind
            fun recipientEndpointId =>
              some { registration.toRegistrationFields with
                state := state
                deliveryId := deliveryId
                recipientEndpointId := recipientEndpointId } := by
    obtain ⟨⟨scope, socketPath, token, generation, expiresAt, idle, state, deliveryId,
      attemptedAt, recipientEndpointId, admissionId⟩, -⟩ := registration
    cases admissionId <;> cases attemptedAt <;> rfl
  rw [hread, WakeState.ofText?_text, Json.optionalText?_optionalText,
    Json.optionalText?_optionalText]
  rfl

theorem loadedRegistration_itemOf (registration : Registration) :
    loadedRegistration (itemOf registration) =
      if validLoadedItem registration.toRegistrationFields then some registration else none := by
  rw [loadedRegistration, readItem_itemOf, Option.bind_some]
  split
  · next hitem => rw [dif_pos registration.consistent.admissible]
  · rfl

theorem rows_accept {loading admitted : Loading} {registration : Registration}
    (haccept : loading.accept registration = some admitted) :
    admitted.registrations.rows = loading.registrations.rows ++ [registration] := by
  unfold Loading.accept at haccept
  cases hinsert : loading.registrations.insertNew registration with
  | none =>
    rw [hinsert] at haccept
    cases haccept
  | some registrations =>
    rw [hinsert] at haccept
    simp only at haccept
    split at haccept
    · cases haccept
    · rw [← Option.some.inj haccept]
      exact Table.rows_insertNew hinsert

theorem rows_loadItems {registrations : List Registration} {loading loaded : Loading}
    (hload : loadItems loading (registrations.map itemOf) = (loaded, true)) :
    loaded.registrations.rows = loading.registrations.rows ++ registrations := by
  induction registrations generalizing loading with
  | nil =>
    rw [← (Prod.mk.inj hload).1, List.append_nil]
  | cons registration rest ih =>
    rw [List.map_cons, loadItems, loadedRegistration_itemOf] at hload
    split at hload
    · next hnone => cases (Prod.mk.inj hload).2
    · next admitted hadmitted =>
        split at hadmitted
        · rw [ih hload, rows_accept hadmitted, List.append_assoc, List.singleton_append]
        · cases hadmitted

/-- A registry that refuses rehydration and holds nothing. -/
def Registry.Blank (registry : Registry) : Prop :=
  registry.rehydrationRefused = true ∧ registry.registrations.rows = []

theorem Registry.blank_refused (generation : ℕ) : (Registry.refused generation).Blank := ⟨rfl, rfl⟩

theorem load_of_unusable {directory : Directory} (hunusable : directory.unusable = true) :
    (load directory).Blank := by
  rw [load, if_pos hunusable]
  exact Registry.blank_refused 0

theorem registrationItems_payloadOf (registrations : Table Registration) :
    registrationItems (payloadOf registrations) =
      if registrations.rows.length ≤ maxRegistrations then some (registrations.rows.map itemOf)
      else none := by
  conv_rhs => rw [← List.length_map (f := itemOf)]
  rfl

theorem load_payloadOf {directory : Directory} {registrations : Table Registration}
    (hcanonical : directory.canonical = some (payloadOf registrations)) :
    (load directory).Blank ∨ (load directory).registrations.rows = registrations.rows := by
  rw [load, hcanonical]
  split
  · exact Or.inl (Registry.blank_refused 0)
  · simp only [registrationItems_payloadOf]
    split
    · exact Or.inl (Registry.blank_refused 0)
    · next items hitems =>
        split at hitems
        · rw [← Option.some.inj hitems]
          split
          · next loading hload => exact Or.inr (rows_loadItems hload)
          · exact Or.inl (Registry.blank_refused _)
        · cases hitems

end Reading

end Pallium.ClaudeWake
