import Pallium.Relay.Generations

/-!
# The native wake bridge

The OpenCode plugin polls the wake row of its session and wakes the session by
submitting an input under the native id of the row.  A run of `runWake` is a
sequence of awaited calls; between them the service serves others, and the native
history gains records and loses old ones.  Every call of the plugin can fail
before or after it had its effect.
-/

namespace Pallium.Relay

open Pallium.Run

section History

/-- The record types of a native history that the bridge tells apart. -/
inductive RecordType
  | user
  | idle
  | other
  deriving DecidableEq, Repr

/-- The metadata of an input with `pallium_relay_wake`. -/
structure WakeMetadata where
  generation : ℕ
  deliveryId : String
  deriving DecidableEq, Repr

structure NativeRecord where
  type : RecordType
  id : String
  text : String
  metadata : Option WakeMetadata
  deriving DecidableEq, Repr

def wakeText : String :=
  "[Pallium Relay wake: check the lower-authority Relay context before acting.]"

/-- `[A-Za-z0-9_-]`. -/
def isIdChar (c : Char) : Bool := c.isAlphanum || c == '_' || c == '-'

def validInput (id : String) : Bool :=
  let chars := id.toList
  decide (chars.length ≤ 512) && "msg_".toList.isPrefixOf chars && !(chars.drop 4).isEmpty &&
    (chars.drop 4).all isIdChar

def validDelivery (id : String) : Bool := Text.isHexIdentifier "relay-delivery-" id

def isInput (inputId : String) (message : NativeRecord) : Bool :=
  message.type == .user && message.id == inputId

def terminalAfter (messages : List NativeRecord) (inputId : String) : Option String :=
  match messages.findIdx? (isInput inputId) with
  | none => none
  | some index =>
    let turn := (messages.drop (index + 1)).takeWhile fun message => message.type != .user
    (turn.find? fun message => message.type == .idle && validInput message.id).map
      NativeRecord.id

/-- The input of the wake, as `prompt` submits it. -/
def OpenCodeWakeView.input (wake : OpenCodeWakeView) : NativeRecord where
  type := .user
  id := wake.nativeInputId
  text := wakeText
  metadata := some ⟨wake.generation, wake.deliveryId⟩

def OpenCodeWakeView.observed (wake : OpenCodeWakeView) (messages : List NativeRecord) : Bool :=
  messages.any fun message =>
    isInput wake.nativeInputId message && message.text == wakeText &&
      message.metadata == some ⟨wake.generation, wake.deliveryId⟩

end History

/-- The plugin's own session and directory, with `path.resolve` as it compares paths. -/
structure Plugin where
  sessionRef : String
  containerRef : String
  directory : String
  resolve : String → String

/-- The call of `runWake` that comes next. -/
inductive WakeStage
  | reading
  | prompting
  | checking
  | admitting
  | waiting
  | correlating
  | reporting (terminalMessageId : String)
  deriving DecidableEq, Repr

/-- What the plugin keeps of the session: its endpoint with the scope generation,
the wake last polled, and the run of `runWake` that is under way. -/
structure PluginItem where
  ownerId : String
  endpoint : Option (String × ℕ)
  wake : Option OpenCodeWakeView
  run : Option (OpenCodeWakeView × WakeStage)
  deriving DecidableEq, Repr

/-- The service, the native session and the plugin. -/
structure NativeWorld where
  store : RelayStore
  history : List NativeRecord
  item : PluginItem
  deriving DecidableEq

/-- What becomes of a call: it never arrives, its answer is lost, or it is answered. -/
inductive Link
  | unsent
  | lost
  | answered
  deriving DecidableEq, Repr

structure PluginCall where
  link : Link
  now : ℤ
  deriving DecidableEq, Repr

/-- A request to the service, with its answer if there is one. -/
def wakeRequest (operation : OpenCodeOperation) (request : OpenCodeRequest) (call : PluginCall)
    (store : RelayStore) : RelayStore × Option (Except RelayError OpenCodeResponse) :=
  match call.link with
  | .unsent => (store, none)
  | .lost => ((relayOpenCodeWake operation request call.now store).1, none)
  | .answered =>
    let outcome := relayOpenCodeWake operation request call.now store
    (outcome.1, some outcome.2)

namespace Plugin

variable (plugin : Plugin)

/-- `sameLocation` with the plugin's directory. -/
def sameLocation (location : String) : Bool :=
  plugin.resolve location == plugin.resolve plugin.directory

def base (ownerId : String) (endpoint : String × ℕ) : OpenCodeRequest where
  sessionRef := plugin.sessionRef
  containerRef := plugin.containerRef
  endpointId := endpoint.1
  scopeGeneration := endpoint.2
  nativeLocation := plugin.directory
  ownerId := ownerId
  generation := none
  deliveryId := none
  nativeInputId := none
  terminalMessageId := none

/-- `base` with the snapshot of the wake. -/
def fields (ownerId : String) (endpoint : String × ℕ) (wake : OpenCodeWakeView) :
    OpenCodeRequest :=
  { plugin.base ownerId endpoint with
    generation := some wake.generation
    deliveryId := some wake.deliveryId
    nativeInputId := some wake.nativeInputId }

/-- `remember`: a session that is not the plugin's own is not remembered, and
another endpoint or generation ends what is under way. -/
def remember (item : PluginItem) (session : SessionView) : Option PluginItem :=
  if session.runtime = .openCode ∧ session.sessionRef = plugin.sessionRef ∧
      session.containerRef = plugin.containerRef ∧ session.state = .recent ∧
      session.destinationHealth = some .active then
    let endpoint := (session.endpointId, session.scopeGeneration)
    if item.endpoint.isSome ∧ item.endpoint ≠ some endpoint then
      some { item with endpoint := some endpoint, wake := none, run := none }
    else some { item with endpoint := some endpoint }
  else none

/-- The item after `remember`, whatever it answers. -/
def remembered (item : PluginItem) (session : SessionView) : PluginItem :=
  (plugin.remember item session).getD item

def enroll (owned : Bool) (call : PluginCall) (world : NativeWorld) :
    NativeWorld × Option OpenCodeResponse :=
  match world.item.endpoint with
  | none => (world, none)
  | some endpoint =>
    if owned then
      let (store, answer) :=
        wakeRequest .enroll (plugin.base world.item.ownerId endpoint) call world.store
      match answer with
      | some (.ok response) =>
        let item := plugin.remembered world.item response.session
        ({ world with store := store, item := { item with wake := response.wake } },
          some response)
      | _ => ({ world with store := store }, none)
    else (world, none)

/-- The beginning of `runWake` when a poll has returned the wake. -/
def startWake (item : PluginItem) (wake : Option OpenCodeWakeView) : PluginItem :=
  match wake with
  | none => item
  | some wake =>
    if !wake.terminal && plugin.sameLocation wake.nativeLocation && item.run.isNone &&
        validInput wake.nativeInputId && validDelivery wake.deliveryId then
      { item with run := some (wake, .reading) }
    else item

/-- The calls of one poll: the checks of the native owner before and after the
request, and the enrolment after a missing registration. -/
structure PollCalls where
  owned : Bool
  poll : PluginCall
  enrollOwned : Bool
  enroll : PluginCall
  ownedAfter : Bool
  detach : PluginCall
  deriving DecidableEq, Repr

/-- The item of a session that the plugin has given up. -/
def retired (item : PluginItem) : PluginItem :=
  { item with endpoint := none, wake := none, run := none }

/-- What a poll does with the response to it. -/
def acceptPoll (owned : Bool) (response : Option OpenCodeResponse) (world : NativeWorld) :
    NativeWorld :=
  match response with
  | none => world
  | some response =>
    if owned then
      match plugin.remember world.item response.session with
      | none => world
      | some item =>
        { world with item := plugin.startWake { item with wake := response.wake } response.wake }
    else world

def poll (calls : PollCalls) (world : NativeWorld) : NativeWorld :=
  match world.item.endpoint with
  | none => world
  | some endpoint =>
    let request := plugin.base world.item.ownerId endpoint
    if calls.owned then
      let (store, answer) := wakeRequest .poll request calls.poll world.store
      let polled := { world with store := store }
      match answer with
      | some (.ok response) => plugin.acceptPoll calls.ownedAfter (some response) polled
      | some (.error (.conflict "OpenCode registration is missing or stale")) =>
        let (enrolled, response) := plugin.enroll calls.enrollOwned calls.enroll polled
        plugin.acceptPoll calls.ownedAfter response enrolled
      | _ => polled
    else
      { world with
        store := (wakeRequest .detach request calls.detach world.store).1
        item := retired world.item }

/-- The next call of `runWake`.  The checks of the native owner around the call
are taken together. -/
def advance (owned : Bool) (call : PluginCall) (world : NativeWorld) : NativeWorld :=
  match world.item.run, world.item.endpoint with
  | some (wake, stage), some endpoint =>
    let stop := { world.item with run := none }
    let next (stage : WakeStage) := { world.item with run := some (wake, stage) }
    let request := plugin.fields world.item.ownerId endpoint wake
    let answered := call.link == .answered
    if owned then
      match stage with
      | .reading =>
        if answered && wake.observed world.history then
          { world with item := next .checking }
        -- A compacted or missing input cannot prove a new admission.
        else if answered && !wake.admitted then { world with item := next .prompting }
        else { world with item := stop }
      | .prompting =>
        let history :=
          if call.link = .unsent then world.history else world.history ++ [wake.input]
        { world with history := history, item := if answered then next .checking else stop }
      | .checking =>
        if answered && wake.observed world.history then
          { world with item := next .admitting }
        else { world with item := stop }
      | .admitting =>
        { world with
          store := (wakeRequest .admitted request call world.store).1
          item := next .waiting }
      | .waiting => { world with item := if answered then next .correlating else stop }
      | .correlating =>
        match terminalAfter world.history wake.nativeInputId with
        | some terminalMessageId =>
          { world with item := if answered then next (.reporting terminalMessageId) else stop }
        | none => { world with item := stop }
      | .reporting terminalMessageId =>
        let request := { request with terminalMessageId := some terminalMessageId }
        { world with
          store := (wakeRequest .terminal request call world.store).1
          item := stop }
    else { world with item := stop }
  | _, _ => world

end Plugin

/-- What happens to the service, the native session and the plugin: the service
serves a request, the history gains a record or loses its oldest ones, the plugin
learns of its session, starts anew under another owner id, polls, or makes the next
call of `runWake`. -/
inductive NativeAct
  | relay (op : RelayOp)
  | record (message : NativeRecord)
  | compact (lost : ℕ)
  | restore (session : SessionView) (owned : Bool) (enroll : PluginCall)
  | restart (ownerId : String)
  | poll (calls : Plugin.PollCalls)
  | advance (owned : Bool) (call : PluginCall)

namespace NativeWorld

/-- Nothing is stored, and the plugin has just been set up. -/
def initial (ownerId : String) : NativeWorld := ⟨.empty, [], ⟨ownerId, none, none, none⟩⟩

def step (host : Host) (plugin : Plugin) (world : NativeWorld) : NativeAct → NativeWorld
  | .relay op => { world with store := op.step host world.store }
  | .record message => { world with history := world.history ++ [message] }
  | .compact lost => { world with history := world.history.drop lost }
  | .restore session owned enroll =>
    match plugin.remember world.item session with
    | none => world
    | some item => (plugin.enroll owned enroll { world with item := item }).1
  | .restart ownerId => { world with item := ⟨ownerId, none, none, none⟩ }
  | .poll calls => plugin.poll calls world
  | .advance owned call => plugin.advance owned call world

/-- The state is reached by some run. -/
def Reachable (host : Host) (plugin : Plugin) (world : NativeWorld) : Prop :=
  ∃ ownerId acts, (∀ op, .relay op ∈ acts → op.Validated) ∧
    run (step host plugin) (initial ownerId) acts = world

end NativeWorld

end Pallium.Relay
