import Pallium.Relay.OpenCode

/-!
# The turn

`relayTurn` registers a session or moves it to another scope, marks the open
deliveries of all expired messages, and claims the deliveries of the session's
endpoint that fit the budgets of the request.  A context request of the OpenCode
bridge takes the same path for its assigned delivery, unless the wake has
already claimed it.
-/

namespace Pallium.Relay

open Pallium.Calendar Pallium.JsonText Pallium.Transaction

/-- A budget of zero is no limit. -/
structure TurnRequest where
  runtime : Runtime
  sessionRef : String
  containerRef : String
  title : Option String
  maxChars : ℕ
  maxMessages : ℕ
  leaseSeconds : ℤ
  exactDeliveryId : Option String
  claimExpiresAtMs : Option ℤ
  codexWakeEndpointId : Option String
  codexWakeGeneration : Option ℤ
  openCodeWake : Option OpenCodeRequest
  maxResponseChars : ℕ
  registerSession : Bool
  previousContainerRef : Option String
  previousEndpointId : Option String
  previousScopeGeneration : Option ℕ
  deriving DecidableEq, Repr

/-- The wall clock when the call starts, and the readings of the monotonic clock
during the call, in microseconds. -/
structure ClaimClock where
  wall : ℤ
  monotonic : ℕ → ℤ

/-- `check_claim_expiry` at the given reading of the monotonic clock. -/
def checkClaimExpiry (request : TurnRequest) (clock : ClaimClock) (reading : ℕ) :
    Except RelayError Unit :=
  require (request.claimExpiresAtMs.all fun milliseconds =>
      clock.monotonic reading < clock.monotonic 0 + (1000 * milliseconds - clock.wall))
    (.conflict "Relay claim request expired")

structure NativeNote where
  wake : Option OpenCodeWakeView
  restored : Bool
  deriving DecidableEq, Repr

structure TurnResponse where
  session : Option SessionView
  deliveries : List DeliveryView
  hasMore : Bool
  remainingCount : ℤ
  native : Option NativeNote
  deriving DecidableEq, Repr

def OpenCodeWakeView.json (view : OpenCodeWakeView) : String :=
  object
    [("generation", integer view.generation), ("delivery_id", text view.deliveryId),
      ("native_input_id", text view.nativeInputId), ("native_location", text view.nativeLocation),
      ("scope_generation", integer view.scopeGeneration), ("admitted", boolean view.admitted),
      ("terminal", boolean view.terminal), ("retry_exhausted", boolean view.retryExhausted)]

def TurnResponse.json (response : TurnResponse) : String :=
  object <|
    [("session", nullable SessionView.json response.session),
      ("deliveries", array (response.deliveries.map DeliveryView.json)),
      ("has_more", boolean response.hasMore),
      ("remaining_count", integer response.remainingCount)] ++
    match response.native with
    | none => []
    | some note =>
      [("wake", nullable OpenCodeWakeView.json note.wake), ("restored", boolean note.restored)]

/-- A response without deliveries. -/
def TurnResponse.nothing (session : Option SessionView) : TurnResponse where
  session := session
  deliveries := []
  hasMore := false
  remainingCount := 0
  native := none

/-- The session of the request's scope, after the requested transition from its
previous scope, with the endpoint's generation. -/
def resolveScope (request : TurnRequest) (store : RelayStore) :
    Except RelayError (RelayStore × Option RelaySession × ℕ) := do
  let registered := store.relaySession request.containerRef request.runtime request.sessionRef
  match request.previousContainerRef with
  | none =>
    pure (store, registered,
      (registered.map fun session => store.scopeGeneration session.id).getD 0)
  | some previousContainerRef => do
    let incomplete : RelayError := .conflict "incomplete Relay scope transition"
    let endpointId ← orRaise request.previousEndpointId incomplete
    let previousGeneration ← orRaise request.previousScopeGeneration incomplete
    let generation := store.scopeGeneration endpointId
    let source := store.relaySession previousContainerRef request.runtime request.sessionRef
    if request.containerRef = previousContainerRef then
      require (registered.any fun session =>
          session.state != .closed && session.id == endpointId &&
            generation == previousGeneration)
        (.conflict "stale or invalid Relay scope transition")
      pure (store, registered, generation)
    else
      match registered with
      | some session => do
        require (session.state = .active ∧ session.id = endpointId ∧
            generation = previousGeneration + 1)
          (.conflict "Relay scope destination is occupied or stale")
        require source.isNone (.conflict "Relay scope transition is ambiguous")
        pure (store, some session, previousGeneration + 1)
      | none => do
        let moving ← orRaise (source.filter fun session => session.id == endpointId)
          (.notFound "Relay transition source not found")
        require (moving.state = .active) (.conflict "Relay transition source is not active")
        require (generation = previousGeneration) (.conflict "stale Relay scope generation")
        let store := store.modifySession endpointId fun session =>
          { session with containerRef := request.containerRef }
        let store :=
          { store with
            generations := store.generations.put ⟨endpointId, previousGeneration + 1⟩ }
        pure (store, some { moving with containerRef := request.containerRef },
          previousGeneration + 1)

/-- Whether a turn goes on to the deliveries of its session. -/
inductive Admission
  | refused (session : Option SessionView)
  | admitted (session : RelaySession) (view : SessionView)
  deriving DecidableEq, Repr

/-- Register or refresh the session of the resolved scope. -/
def admitSession (host : Host) (request : TurnRequest) (current : ℤ)
    (registered : Option RelaySession) (generation : ℕ) (store : RelayStore) :
    Except RelayError (RelayStore × Admission) := do
  match registered with
  | none =>
    if request.registerSession then
      let session : RelaySession :=
        { id := "relay-session-" ++ host.uuid4Hex store.drawn
          runtime := request.runtime
          sessionRef := request.sessionRef
          containerRef := request.containerRef
          title := request.title
          aliasName := none
          state := .active
          firstSeenAt := current
          lastSeenAt := current
          closedAt := none }
      let sessions ← orRaise (store.sessions.insertNew session) .integrity
      let stamps : SessionStamps := ⟨isoformatUtc, isoformatUtc, isoformat⟩
      pure ({ store with sessions := sessions, drawn := store.drawn + 1 },
        .admitted session (sessionView stamps session current relayRecentSeconds generation))
    else pure (store, .refused none)
  | some session =>
    if request.registerSession then
      let refresh := fun row : RelaySession =>
        { row with
          state := .active
          closedAt := none
          lastSeenAt := current
          title := request.title.or row.title }
      let stamps : SessionStamps := { SessionStamps.stored with lastSeen := isoformatUtc }
      pure (store.modifySession session.id refresh,
        .admitted (refresh session)
          (sessionView stamps (refresh session) current relayRecentSeconds generation))
    else if session.state = .active then
      pure (store,
        .admitted session (sessionView .stored session current relayRecentSeconds generation))
    else
      pure (store,
        .refused (some (relaySessionView .stored store session current relayRecentSeconds)))

/-- What the selection of deliveries depends on. -/
structure TurnContext where
  host : Host
  request : TurnRequest
  current : ℤ
  session : RelaySession
  sessionView : SessionView
  eligibleCount : ℕ
  native : Option NativeNote

namespace TurnContext

variable (context : TurnContext)

def leaseExpiresAt : ℤ := context.current + seconds context.request.leaseSeconds

def response (deliveries : List DeliveryView) : TurnResponse :=
  let remaining : ℤ := (context.eligibleCount : ℤ) - deliveries.length
  { session := some context.sessionView
    deliveries := deliveries
    hasMore := 0 < remaining
    remainingCount := remaining
    native := context.native }

/-- A claim records the wake generation under which it was made, if it is the
exact delivery of a Codex wake for this very endpoint and scope. -/
def claimGeneration (delivery : RelayDelivery) : Option ℤ :=
  let request := context.request
  if request.exactDeliveryId = some delivery.id ∧
      request.codexWakeEndpointId = some context.session.id ∧
      context.session.runtime = .codex ∧ delivery.recipientRuntime = .codex ∧
      context.session.sessionRef = delivery.recipientSessionRef ∧
      some context.session.containerRef = delivery.recipientContainerRef then
    request.codexWakeGeneration.filter fun generation => 0 < generation
  else none

end TurnContext

structure Selected where
  delivery : RelayDelivery
  message : RelayMessage
  view : DeliveryView
  token : String

structure Selection where
  selected : List Selected
  used : ℕ
  drawn : ℕ

/-- The view of the delivery with the given number of payload characters and the
length of its text, unless they exceed a budget. -/
def project (context : TurnContext) (selection : Selection) (delivery : RelayDelivery)
    (message : RelayMessage) (token : String) (prefixChars : ℕ) : Option (DeliveryView × ℕ) :=
  let stamps : DeliveryStamps := { DeliveryStamps.stored with claim := isoformatUtc }
  let attempt := delivery.attempts + 1
  let claimAttempt := if attempt ≤ 2 ^ 53 - 1 then some attempt else none
  let view : DeliveryView :=
    { deliveryView context.host stamps delivery message (some context.session.state) 0
        (if prefixChars = message.payload.length then none else some prefixChars) with
      state := .claimed
      claimToken := some token
      receipt := deliveryReceipt context.host (some token)
      claimedAt := some (isoformatUtc context.current)
      leaseExpiresAt := some (isoformatUtc context.leaseExpiresAt)
      attempts := attempt
      note := some ⟨claimAttempt, claimAttempt.map fun count => decide (1 < count)⟩ }
  let renderedChars := (deliveryText delivery message view).length +
    if selection.selected.isEmpty then 0 else 2
  let prospective := selection.selected.map Selected.view ++ [view]
  if context.request.maxChars ≠ 0 ∧ context.request.maxChars < selection.used + renderedChars then
    none
  else if context.request.maxResponseChars ≠ 0 ∧
      context.request.maxResponseChars < (context.response prospective).json.length then
    none
  else some (view, renderedChars)

/-- The binary search for the longest prefix that fits. -/
def longestPrefix {α : Type} (fits : ℕ → Option α) (low high : ℤ) (best : Option α) :
    Option α :=
  if low ≤ high then
    let middle := (low + high) / 2
    match fits middle.toNat with
    | none => longestPrefix fits low (middle - 1) best
    | some candidate => longestPrefix fits (middle + 1) high (some candidate)
  else best
termination_by (high + 1 - low).toNat

/-- One round of the selection loop.  Only the first selected delivery may be
shown in part. -/
def examine (context : TurnContext) (selection : Selection)
    (row : RelayDelivery × RelayMessage) : Selection :=
  let (delivery, message) := row
  if deliveryRenderSafe delivery message then
    let token := "relay-claim-" ++ context.host.uuid4Hex selection.drawn
    let selection := { selection with drawn := selection.drawn + 1 }
    let fits := project context selection delivery message token
    let total := message.payload.length
    let projected := match fits total with
      | some found => some found
      | none =>
        if selection.selected.isEmpty ∧ 1 < total then
          longestPrefix fits 1 ((total : ℤ) - 1) none
        else none
    match projected with
    | none => selection
    | some (view, renderedChars) =>
      { selection with
        selected := selection.selected ++ [⟨delivery, message, view, token⟩]
        used := selection.used + renderedChars }
  else selection

def selectDeliveries (context : TurnContext) (selection : Selection) :
    List (RelayDelivery × RelayMessage) → Selection
  | [] => selection
  | row :: rest =>
    let next := examine context selection row
    if context.request.maxMessages ≠ 0 ∧
        context.request.maxMessages ≤ next.selected.length then next
    else selectDeliveries context next rest

/-- The delivery row after the claims of the selection. -/
def claimIfSelected (context : TurnContext) (selection : Selection) (delivery : RelayDelivery) :
    RelayDelivery :=
  match selection.selected.find? fun chosen => chosen.delivery.id == delivery.id with
  | none => delivery
  | some chosen =>
    delivery.claim chosen.token context.current context.leaseExpiresAt
      (context.claimGeneration delivery)

/-- A wake remembers the claim made for it and how much of the payload it got. -/
def noteClaims (selection : Selection) (wake : OpenCodeWake) : OpenCodeWake :=
  selection.selected.foldl (fun noted chosen =>
    { noted with
      claimAttempts := some (chosen.delivery.attempts + 1)
      payloadChars := some chosen.view.payload.payload.length }) wake

def claimedView (context : TurnContext) (chosen : Selected) : DeliveryView :=
  let stamps : DeliveryStamps := { DeliveryStamps.stored with claim := isoformatUtc }
  let claimed := chosen.delivery.claim chosen.token context.current context.leaseExpiresAt
    (context.claimGeneration chosen.delivery)
  let payload := chosen.view.payload
  deliveryView context.host stamps claimed chosen.message (some context.session.state) 0
    (if payload.contentTruncated then some payload.payload.length else none)

/-- The deliveries which a session may claim. -/
def eligibleFor (session : RelaySession) (current : ℤ) (store : RelayStore) :
    List (RelayDelivery × RelayMessage) :=
  openDeliveries store current fun delivery => delivery.recipientEndpointId == some session.id

def turnContext (host : Host) (request : TurnRequest) (current : ℤ) (wake : Option OpenCodeWake)
    (session : RelaySession) (view : SessionView) (store : RelayStore) : TurnContext where
  host := host
  request := request
  current := current
  session := session
  sessionView := view
  eligibleCount := (eligibleFor session current store).length
  native := wake.map fun held => ⟨held.view, false⟩

/-- What is selected of the eligible deliveries, or of the exact one. -/
def selectEligible (context : TurnContext) (store : RelayStore) : Selection :=
  let candidates := (eligibleFor context.session context.current store).filter fun row =>
    context.request.exactDeliveryId.all fun deliveryId => row.1.id == deliveryId
  selectDeliveries context ⟨[], 0, store.drawn⟩ candidates

def claimSelected (context : TurnContext) (wake : Option OpenCodeWake) (selection : Selection)
    (store : RelayStore) : RelayStore :=
  let store :=
    { store with
      deliveries := store.deliveries.updateAll (claimIfSelected context selection)
      drawn := selection.drawn }
  match wake with
  | none => store
  | some held => store.modifyOpenCodeWake held.endpointId (noteClaims selection)

/-- Sweep, select and claim for an admitted session. -/
def claimEligible (host : Host) (request : TurnRequest) (clock : ClaimClock) (current : ℤ)
    (wake : Option OpenCodeWake) (session : RelaySession) (view : SessionView)
    (store : RelayStore) : Except RelayError (RelayStore × TurnResponse) := do
  let store := store.sweepExpired current
  let context := turnContext host request current wake session view store
  if request.maxResponseChars ≠ 0 ∧
      request.maxResponseChars ≤ (context.response []).json.length then
    checkClaimExpiry request clock 3
    pure (store, context.response [])
  else
    let selection := selectEligible context store
    checkClaimExpiry request clock 3
    pure (claimSelected context wake selection store,
      context.response (selection.selected.map (claimedView context)))

/-- The turn from the resolution of the scope on. -/
def turnInScope (host : Host) (request : TurnRequest) (clock : ClaimClock) (current : ℤ)
    (wake : Option OpenCodeWake) (store : RelayStore) :
    Except RelayError (RelayStore × TurnResponse) := do
  let (store, registered, generation) ← resolveScope request store
  let (store, admission) ← admitSession host request current registered generation store
  match admission with
  | .refused view => pure (store, TurnResponse.nothing view)
  | .admitted session view => claimEligible host request clock current wake session view store

/-- Whether a context request may show the claim its wake has made before. -/
def reusable (wake : OpenCodeWake) (delivery : RelayDelivery) (message : RelayMessage)
    (current : ℤ) : Bool :=
  wake.claimAttempts == some delivery.attempts && !wake.terminal &&
    (delivery.state == .delivered ||
      (delivery.state == .claimed &&
        delivery.leaseExpiresAt.any (fun lease => current < lease) &&
        decide (current < message.expiresAt)))

def expireIfDue (store : RelayStore) (current : ℤ) (delivery : RelayDelivery) :
    RelayStore × RelayDelivery :=
  if store.due current delivery then
    (store.modifyDelivery delivery.id RelayDelivery.markExpired, delivery.markExpired)
  else (store, delivery)

/-- The part of a context request before the scope is resolved: a wake that is
terminal, has claimed or finds its delivery delivered gets its answer here. -/
def openCodeContext (host : Host) (request : TurnRequest) (native : OpenCodeRequest)
    (current : ℤ) (store : RelayStore) :
    Except RelayError (RelayStore × OpenCodeWake × Option TurnResponse) := do
  let misuse : RelayError := .conflict "OpenCode wakes cannot register or change scope"
  require (request.runtime = .openCode ∧ request.registerSession = false) misuse
  let deliveryId ← orRaise request.exactDeliveryId misuse
  let (session, held) ← openCodeBinding store native current false
  let wake ← orRaise held (.conflict "OpenCode registration is missing or stale")
  let (delivery, message) ← orRaise
    ((store.deliveryWithMessage deliveryId).filter fun row =>
      row.1.recipientEndpointId == some session.id && row.1.recipientRuntime == request.runtime &&
        row.1.recipientSessionRef == request.sessionRef &&
        row.1.recipientContainerRef == some request.containerRef)
    (.notFound "OpenCode delivery not found in the current endpoint scope")
  let swept := expireIfDue store current delivery
  let store := swept.1
  let delivery := swept.2
  if wake.terminal ∨ wake.claimAttempts.isSome ∨ delivery.state = .delivered then
    let view := deliveryView host .stored delivery message (some session.state) 0 wake.payloadChars
    let shown := reusable wake delivery message current && deliveryRenderSafe delivery message &&
      (request.maxChars == 0 ||
        decide ((deliveryText delivery message view).length ≤ request.maxChars))
    pure (store, wake, some
      { session := some (relaySessionView .stored store session current relayRecentSeconds)
        deliveries := if shown then [view] else []
        hasMore := false
        remainingCount := 0
        native := some ⟨wake.view, shown && delivery.state == .delivered⟩ })
  else pure (store, wake, none)

/-- The turn of a session or of the OpenCode bridge. -/
def turnOrContext (host : Host) (request : TurnRequest) (clock : ClaimClock) (current : ℤ)
    (store : RelayStore) : Except RelayError (RelayStore × TurnResponse) :=
  match request.openCodeWake with
  | none => turnInScope host request clock current none store
  | some native => do
    let (store, wake, replay) ← openCodeContext host request native current store
    match replay with
    | some response => pure (store, response)
    | none => turnInScope host request clock current (some wake) store

def relayTurnBody (host : Host) (request : TurnRequest) (clock : ClaimClock) (current : ℤ)
    (store : RelayStore) : Except RelayError (RelayStore × TurnResponse) := do
  require (request.registerSession ∨ (request.previousContainerRef.isNone ∧
      request.previousEndpointId.isNone ∧ request.previousScopeGeneration.isNone))
    (.conflict "scope transitions require session registration")
  require (request.claimExpiresAtMs.all fun milliseconds =>
      1 ≤ milliseconds && decide (milliseconds ≤ 2 ^ 53 - 1))
    (.value "invalid Relay claim expiry")
  checkClaimExpiry request clock 1
  checkClaimExpiry request clock 2
  let outcome ← turnOrContext host request clock current store
  checkClaimExpiry request clock 4
  pure outcome

def relayTurn (host : Host) (request : TurnRequest) (clock : ClaimClock) (current : ℤ)
    (store : RelayStore) : RelayStore × Except RelayError TurnResponse :=
  transaction (relayTurnBody host request clock current) store

end Pallium.Relay
