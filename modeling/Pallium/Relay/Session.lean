import Pallium.Relay.Send

/-!
# Session operations

Closing, naming and the health of a session.  None of them writes a message or a
delivery.
-/

namespace Pallium.Relay

open Pallium.Calendar Pallium.Transaction

def relaySessionView (stamps : SessionStamps) (store : RelayStore) (row : RelaySession)
    (now recentSeconds : ℤ) : SessionView :=
  sessionView stamps row now recentSeconds (store.scopeGeneration row.id)

/-- `_invalidate_opencode_wake`. -/
def OpenCodeWake.invalidate (wake : OpenCodeWake) : OpenCodeWake :=
  { wake with
    generation := wake.generation + 1
    deliveryId := none
    claimAttempts := none
    payloadChars := none
    admitted := false
    terminal := false
    failures := 0
    retryNotBefore := none }

/-- Delete the alias if it is bound to the endpoint. -/
def RelayStore.unbindAlias (store : RelayStore) (aliasName : Option String)
    (endpointId : String) : RelayStore :=
  match aliasName.bind store.aliases.get with
  | none => store
  | some binding =>
    if binding.endpointId = some endpointId then
      { store with aliases := store.aliases.erase binding.aliasName }
    else store

def relayCloseSessionBody (runtime : Runtime) (sessionRef containerRef : String) (current : ℤ)
    (store : RelayStore) : Except RelayError (RelayStore × SessionView) := do
  let row ← orRaise (store.relaySession containerRef runtime sessionRef) entityNotFound
  let closed : RelaySession :=
    { row with state := .closed, closedAt := some current, aliasName := none }
  let store := store.modifySession row.id fun session =>
    { session with state := .closed, closedAt := some current, aliasName := none }
  let store :=
    if runtime = .openCode then
      store.modifyOpenCodeWake row.id fun wake =>
        { wake.invalidate with ownerId := none, ownerExpiresAt := current }
    else store
  let store := store.unbindAlias row.aliasName row.id
  let stamps : SessionStamps := { SessionStamps.stored with closed := isoformatUtc }
  pure (store, relaySessionView stamps store closed current relayRecentSeconds)

def relayCloseSession (runtime : Runtime) (sessionRef containerRef : String) (current : ℤ)
    (store : RelayStore) : RelayStore × Except RelayError SessionView :=
  transaction (relayCloseSessionBody runtime sessionRef containerRef current) store

def relayMarkUnreachable (runtime : Runtime) (sessionRef containerRef : String)
    (attemptStartedAt : ℤ) (store : RelayStore) : RelayStore × Except RelayError Bool :=
  transaction (fun store => do
    let row ← orRaise (store.relaySession containerRef runtime sessionRef) entityNotFound
    if row.state ≠ .active ∨ ¬ row.lastSeenAt < attemptStartedAt then pure (store, false)
    else
      pure (store.modifySession row.id fun session => { session with state := .unreachable },
        true)) store

def relayMarkActive (runtime : Runtime) (sessionRef containerRef : String) (current : ℤ)
    (store : RelayStore) : RelayStore × Except RelayError Bool :=
  transaction (fun store => do
    let row ← orRaise (store.relaySession containerRef runtime sessionRef) entityNotFound
    let store := store.modifySession row.id fun session =>
      { session with
        state := .active
        closedAt := none
        lastSeenAt :=
          if session.lastSeenAt < current then current else session.lastSeenAt }
    pure (store, row.state != .active)) store

def aliasAssigned : RelayError :=
  .conflict ("relay alias is already assigned; " ++
    "ask the user before retrying with replace_existing=true")

/-- Bind the alias to the session instead of its old one, or only unbind that. -/
def bindAlias (row : RelaySession) (aliasName : Option String) (replaceExisting : Bool)
    (store : RelayStore) : Except RelayError RelayStore :=
  match aliasName with
  | some newAlias => do
    let binding := store.aliases.get newAlias
    let otherOwner := store.sessions.rows.any fun session =>
      session.aliasName == some newAlias && session.id != row.id
    require (replaceExisting ∨
        ¬ (binding.any (fun found => found.endpointId != some row.id) ∨ otherOwner))
      aliasAssigned
    let store :=
      if row.aliasName = some newAlias then store else store.unbindAlias row.aliasName row.id
    let sessions := store.sessions.updateAll fun session =>
      if session.id = row.id then { session with aliasName := some newAlias }
      else if session.aliasName = some newAlias then { session with aliasName := none }
      else session
    pure { store with
      sessions := sessions
      aliases := store.aliases.put ⟨newAlias, some row.id⟩ }
  | none =>
    pure ((store.unbindAlias row.aliasName row.id).modifySession row.id fun session =>
      { session with aliasName := none })

def relayNameSessionBody (runtime : Runtime) (sessionRef containerRef : String)
    (aliasName : Option String) (replaceExisting : Bool) (current : ℤ) (store : RelayStore) :
    Except RelayError (RelayStore × SessionView) := do
  let row ← orRaise (store.relaySession containerRef runtime sessionRef) entityNotFound
  require (row.state ≠ .closed) (.conflict "closed sessions cannot be named")
  let store ← bindAlias row aliasName replaceExisting store
  pure (store, relaySessionView .stored store { row with aliasName := aliasName } current
    relayRecentSeconds)

def relayNameSession (runtime : Runtime) (sessionRef containerRef : String)
    (aliasName : Option String) (replaceExisting : Bool) (current : ℤ) (store : RelayStore) :
    RelayStore × Except RelayError SessionView :=
  transaction
    (relayNameSessionBody runtime sessionRef containerRef aliasName replaceExisting current) store

end Pallium.Relay
