import Pallium.Relay.Registry

/-!
# Scope transitions

Two sessions never share a scope, and the generation of an endpoint counts its
moves.  A successful move can be repeated until the endpoint moves again, after
which the generation it names is out of date and every repetition is refused.
Deliveries are addressed to endpoints, so a move changes nothing about who may
claim them.
-/

namespace Pallium.Relay

open Pallium.Run Pallium.Transaction

section Scopes

variable {before after : RelayStore}

variable {session : RelaySession} {endpointId : String} {change : RelaySession → RelaySession}

structure SameScope (first second : RelaySession) : Prop where
  containerRef : second.containerRef = first.containerRef
  runtime : second.runtime = first.runtime
  sessionRef : second.sessionRef = first.sessionRef

/-- No two sessions have the same scope. -/
def ScopesDistinct (store : RelayStore) : Prop :=
  ∀ firstId first secondId second, store.sessions.get firstId = some first →
    store.sessions.get secondId = some second → SameScope first second → firstId = secondId

theorem relaySession_eq_none {store : RelayStore} {containerRef sessionRef : String}
    {runtime : Runtime} (hnone : store.relaySession containerRef runtime sessionRef = none)
    (hget : store.sessions.get endpointId = some session) :
    ¬ (session.containerRef = containerRef ∧ session.runtime = runtime ∧
      session.sessionRef = sessionRef) := by
  have hother := List.find?_eq_none.mp hnone session (Table.mem_of_get hget)
  simp only [Bool.and_eq_true, beq_iff_eq, not_and] at hother
  rintro ⟨hcontainer, hruntime, href⟩
  exact hother ⟨hcontainer, hruntime⟩ href

theorem relaySession_eq_some {store : RelayStore}
    (hdistinct : ScopesDistinct store) (hget : store.sessions.get endpointId = some session) :
    store.relaySession session.containerRef session.runtime session.sessionRef = some session := by
  cases hfound : store.relaySession session.containerRef session.runtime session.sessionRef with
  | none => exact absurd ⟨rfl, rfl, rfl⟩ (relaySession_eq_none hfound hget)
  | some found =>
    obtain ⟨hstored, hcontainer, hruntime, href⟩ := RelayStore.get_of_relaySession hfound
    have hid := hdistinct _ _ _ _ hget hstored ⟨hcontainer, hruntime, href⟩
    rw [← hid, hget] at hstored
    exact hstored.symm

/-- The old sessions keep their identities and scopes. -/
def SessionsMapped (before after : RelayStore) : Prop :=
  ∃ change : RelaySession → RelaySession, (∀ session, SameScope session (change session)) ∧
    ∀ endpointId, after.sessions.get endpointId = (before.sessions.get endpointId).map change

theorem sessionsMapped_of_updateAll (hid : ∀ session, (change session).id = session.id)
    (hscope : ∀ session, SameScope session (change session))
    (hsessions : after.sessions = before.sessions.updateAll change) :
    SessionsMapped before after := by
  refine ⟨change, hscope, fun endpointId => ?_⟩
  rw [hsessions]
  exact Table.get_updateAll _ hid endpointId

theorem sessionsMapped_of_modify
    (hsessions : after.sessions = before.sessions.modify endpointId change)
    (hid : ∀ session, (change session).id = session.id)
    (hscope : ∀ session, SameScope session (change session)) :
    SessionsMapped before after := by
  refine sessionsMapped_of_updateAll (fun session => ?_) (fun session => ?_) hsessions
  · split
    · exact hid session
    · rfl
  · split
    · exact hscope session
    · exact ⟨rfl, rfl, rfl⟩

section

variable (hchange : RegistryChange before after)
include hchange

theorem RegistryChange.sessions_cases :
    SessionsMapped before after ∨
      ∃ session, before.relaySession session.containerRef session.runtime
          session.sessionRef = none ∧
        before.sessions.insertNew session = some after.sessions := by
  cases hchange with
  | same hsame =>
    refine Or.inl ⟨id, fun session => ⟨rfl, rfl, rfl⟩, fun endpointId => ?_⟩
    rw [hsame.sessions, Option.map_id, id]
  | refreshed hrefreshed hsessions =>
    refine Or.inl (sessionsMapped_of_modify hsessions (fun session => (hrefreshed session).id)
      fun session => ?_)
    exact ⟨(hrefreshed session).containerRef, (hrefreshed session).runtime,
      (hrefreshed session).sessionRef⟩
  | @registered session _ _ hfree hinsert => exact Or.inr ⟨session, hfree, hinsert⟩
  | closed _ hsessions =>
    exact Or.inl (sessionsMapped_of_modify hsessions (fun _ => rfl) fun _ => ⟨rfl, rfl, rfl⟩)
  | @named row newAlias _ _ hsessions =>
    refine Or.inl (sessionsMapped_of_updateAll (id_nameSession row.id newAlias)
      (fun session => ?_) hsessions)
    obtain ⟨-, hcontainer, hruntime, href⟩ := nameSession_scope row.id newAlias session
    exact ⟨hcontainer, hruntime, href⟩
  | unnamed _ hsessions =>
    exact Or.inl (sessionsMapped_of_modify hsessions (fun _ => rfl) fun _ => ⟨rfl, rfl, rfl⟩)

theorem RegistryChange.generations :
    after.generations = before.generations := by
  cases hchange with
  | same hsame => exact hsame.generations
  | refreshed _ _ hgenerations => exact hgenerations
  | registered _ _ _ _ hgenerations => exact hgenerations
  | closed _ _ hgenerations => exact hgenerations
  | named _ _ _ hgenerations => exact hgenerations
  | unnamed _ _ hgenerations => exact hgenerations

theorem RegistryChange.session_kept (hget : before.sessions.get endpointId = some session) :
    ∃ kept, after.sessions.get endpointId = some kept ∧ SameScope session kept := by
  rcases hchange.sessions_cases with ⟨change, hscope, hafter⟩ | ⟨registered, -, hinsert⟩
  · exact ⟨change session, by rw [hafter, hget, Option.map_some], hscope session⟩
  · refine ⟨session, ?_, rfl, rfl, rfl⟩
    rw [Table.get_insertNew hinsert, if_neg, hget]
    rintro rfl
    rw [Table.get_eq_none_of_insertNew hinsert] at hget
    cases hget

theorem RegistryChange.scopesDistinct
    (hdistinct : ScopesDistinct before) : ScopesDistinct after := by
  intro firstId first secondId second hfirst hsecond hsame
  rcases hchange.sessions_cases with ⟨change, hscope, hafter⟩ | ⟨registered, hfree, hinsert⟩
  · rw [hafter] at hfirst hsecond
    obtain ⟨oldFirst, holdFirst, rfl⟩ := Option.map_eq_some_iff.mp hfirst
    obtain ⟨oldSecond, holdSecond, rfl⟩ := Option.map_eq_some_iff.mp hsecond
    refine hdistinct firstId oldFirst secondId oldSecond holdFirst holdSecond ⟨?_, ?_, ?_⟩
    · rw [← (hscope oldFirst).containerRef, ← hsame.containerRef, (hscope oldSecond).containerRef]
    · rw [← (hscope oldFirst).runtime, ← hsame.runtime, (hscope oldSecond).runtime]
    · rw [← (hscope oldFirst).sessionRef, ← hsame.sessionRef, (hscope oldSecond).sessionRef]
  · rw [Table.get_insertNew hinsert] at hfirst hsecond
    split at hfirst
    · next hfirstId =>
        cases hfirst
        split at hsecond
        · next hsecondId => rw [hfirstId, hsecondId]
        · exact absurd ⟨hsame.containerRef, hsame.runtime, hsame.sessionRef⟩
            (relaySession_eq_none hfree hsecond)
    · split at hsecond
      · cases hsecond
        exact absurd ⟨hsame.containerRef.symm, hsame.runtime.symm, hsame.sessionRef.symm⟩
          (relaySession_eq_none hfree hfirst)
      · exact hdistinct firstId first secondId second hfirst hsecond hsame

end

variable {endpointId containerRef : String}

section

variable (hmoved : Moved before after endpointId containerRef)
include hmoved

theorem Moved.get_sessions (found : String) : after.sessions.get found =
      if found = endpointId then
        (before.sessions.get found).map fun session => { session with containerRef := containerRef }
      else before.sessions.get found := by
  rw [hmoved.sessions]
  refine Table.get_modify _ _ ?_ found
  exact fun session => rfl

theorem Moved.scopeGeneration (found : String) : after.scopeGeneration found =
      if found = endpointId then before.scopeGeneration found + 1
      else before.scopeGeneration found := by
  rw [RelayStore.scopeGeneration, hmoved.generations, Table.get_put, key_generation]
  by_cases hfound : found = endpointId
  · rw [if_pos hfound, if_pos hfound, hfound]
    rfl
  · rw [if_neg hfound, if_neg hfound]
    rfl

theorem Moved.scopesDistinct (hdistinct : ScopesDistinct before) : ScopesDistinct after := by
  obtain ⟨moving, hmoving, -, -, hfree⟩ := hmoved.source
  intro firstId first secondId second hfirst hsecond hsame
  rw [hmoved.get_sessions] at hfirst hsecond
  split at hfirst
  · next hfirstId =>
      rw [hfirstId, hmoving, Option.map_some] at hfirst
      cases hfirst
      split at hsecond
      · next hsecondId => rw [hfirstId, hsecondId]
      · exact absurd ⟨hsame.containerRef, hsame.runtime, hsame.sessionRef⟩
          (relaySession_eq_none hfree hsecond)
  · split at hsecond
    · next hsecondId =>
        rw [hsecondId, hmoving, Option.map_some] at hsecond
        cases hsecond
        exact absurd ⟨hsame.containerRef.symm, hsame.runtime.symm, hsame.sessionRef.symm⟩
          (relaySession_eq_none hfree hfirst)
    · exact hdistinct firstId first secondId second hfirst hsecond hsame

end

theorem RegistryStep.scopesDistinct (hstep : RegistryStep before after)
    (hdistinct : ScopesDistinct before) : ScopesDistinct after := by
  cases hstep with
  | unmoved hchange => exact hchange.scopesDistinct hdistinct
  | moved hmoved hchange => exact hchange.scopesDistinct (hmoved.scopesDistinct hdistinct)

/-- An endpoint stays in its scope with its generation, or it moves and its
generation grows by one. -/
theorem RegistryStep.endpoint_cases (hstep : RegistryStep before after)
    (hget : before.sessions.get endpointId = some session) :
    ∃ kept, after.sessions.get endpointId = some kept ∧ kept.runtime = session.runtime ∧
      kept.sessionRef = session.sessionRef ∧
      (kept.containerRef = session.containerRef ∧
          after.scopeGeneration endpointId = before.scopeGeneration endpointId ∨
        kept.containerRef ≠ session.containerRef ∧
          after.scopeGeneration endpointId = before.scopeGeneration endpointId + 1) := by
  cases hstep with
  | unmoved hchange =>
    obtain ⟨kept, hkept, hscope⟩ := hchange.session_kept hget
    refine ⟨kept, hkept, hscope.runtime, hscope.sessionRef, Or.inl ⟨hscope.containerRef, ?_⟩⟩
    rw [scopeGeneration_congr hchange.generations]
  | @moved middle movedId containerRef hmoved hchange =>
    obtain ⟨moving, hmoving, -, hother, -⟩ := hmoved.source
    have hmiddle := hmoved.get_sessions endpointId
    have hgeneration := hmoved.scopeGeneration endpointId
    rw [← scopeGeneration_congr hchange.generations] at hgeneration
    by_cases hid : endpointId = movedId
    · rw [if_pos hid] at hmiddle hgeneration
      rw [hget, Option.map_some] at hmiddle
      rw [← hid, hget] at hmoving
      cases hmoving
      obtain ⟨kept, hkept, hscope⟩ := hchange.session_kept hmiddle
      refine ⟨kept, hkept, hscope.runtime, hscope.sessionRef, Or.inr ⟨?_, hgeneration⟩⟩
      rw [hscope.containerRef]
      exact hother.symm
    · rw [if_neg hid] at hmiddle hgeneration
      obtain ⟨kept, hkept, hscope⟩ := hchange.session_kept (hmiddle.trans hget)
      exact ⟨kept, hkept, hscope.runtime, hscope.sessionRef,
        Or.inl ⟨hscope.containerRef, hgeneration⟩⟩

end Scopes

section Runs

variable {host : Host} {endpointId : String} {session : RelaySession}

theorem ScopesDistinct.empty : ScopesDistinct RelayStore.empty :=
  fun _ _ _ _ hget => nomatch hget

theorem reached_scopesDistinct (host : Host) (ops : List RelayOp) :
    ScopesDistinct (reached host ops) :=
  run_invariant ScopesDistinct.empty
    (fun store op hdistinct => (op.step_registry host store).scopesDistinct hdistinct) ops

/-- The scope to which an operation moves the endpoint. -/
def moveOf (host : Host) (endpointId : String) (store : RelayStore) (op : RelayOp) :
    Option String :=
  (store.sessions.get endpointId).bind fun session =>
    ((op.step host store).sessions.get endpointId).bind fun kept =>
      if kept.containerRef = session.containerRef then none else some kept.containerRef

/-- The scopes to which the endpoint moves in a run, one after the other. -/
def movesOf (host : Host) (endpointId : String) (store : RelayStore) (ops : List RelayOp) :
    List String :=
  observations (RelayOp.step host) (moveOf host endpointId) store ops

/-- One operation moves the endpoint at most once, and counts it. -/
theorem RelayOp.step_moveOf (op : RelayOp) {store : RelayStore}
    (hget : store.sessions.get endpointId = some session) :
    ∃ kept, (op.step host store).sessions.get endpointId = some kept ∧
      kept.runtime = session.runtime ∧ kept.sessionRef = session.sessionRef ∧
      (op.step host store).scopeGeneration endpointId =
        store.scopeGeneration endpointId + (moveOf host endpointId store op).toList.length ∧
      kept.containerRef =
        ((moveOf host endpointId store op).toList.getLast?).getD session.containerRef := by
  obtain ⟨kept, hkept, hruntime, href, hcases⟩ := (op.step_registry host store).endpoint_cases hget
  have hmove : moveOf host endpointId store op =
      if kept.containerRef = session.containerRef then none else some kept.containerRef := by
    rw [moveOf, hget, Option.bind_some, hkept, Option.bind_some]
  refine ⟨kept, hkept, hruntime, href, ?_⟩
  rcases hcases with ⟨hsame, hgeneration⟩ | ⟨hother, hgeneration⟩
  · rw [hmove, if_pos hsame]
    exact ⟨hgeneration, hsame⟩
  · rw [hmove, if_neg hother]
    exact ⟨hgeneration, rfl⟩

/-- The generation of an endpoint counts its moves, and its scope is the one it
moved to last. -/
theorem endpoint_run (host : Host) (ops : List RelayOp) {store : RelayStore}
    (hget : store.sessions.get endpointId = some session) :
    ∃ final, (run (RelayOp.step host) store ops).sessions.get endpointId = some final ∧
      final.runtime = session.runtime ∧ final.sessionRef = session.sessionRef ∧
      (run (RelayOp.step host) store ops).scopeGeneration endpointId =
        store.scopeGeneration endpointId + (movesOf host endpointId store ops).length ∧
      final.containerRef =
        ((movesOf host endpointId store ops).getLast?).getD session.containerRef := by
  induction ops generalizing store session with
  | nil => exact ⟨session, hget, rfl, rfl, rfl, rfl⟩
  | cons op rest ih =>
    obtain ⟨kept, hkept, hruntime, href, hgeneration, hscope⟩ :=
      @RelayOp.step_moveOf host _ _ op _ hget
    obtain ⟨final, hfinal, hfinalRuntime, hfinalRef, hcount, hlast⟩ := ih hkept
    have hmoves : movesOf host endpointId store (op :: rest) =
        (moveOf host endpointId store op).toList ++
          movesOf host endpointId (op.step host store) rest := rfl
    refine ⟨final, hfinal, hfinalRuntime.trans hruntime, hfinalRef.trans href, ?_, ?_⟩
    · rw [run_cons, hcount, hgeneration, hmoves, List.length_append, add_assoc]
    · rw [hlast, hscope, hmoves, List.getLast?_append]
      cases (movesOf host endpointId (op.step host store) rest).getLast? <;> rfl

end Runs

section Deliveries

variable {host : Host} {now : ℤ} {request : TurnRequest} {store after : RelayStore}

variable {delivery : RelayDelivery} {deliveryId : String} {response : TurnResponse}
  {session : RelaySession} {clock : ClaimClock}

/-- What a turn may do to a delivery: nothing, expire it, or claim it. -/
inductive TurnChange (now : ℤ) (after : RelayStore) (delivery : RelayDelivery) :
    RelayDelivery → Prop
  | same : TurnChange now after delivery delivery
  | expired (hdue : after.due now delivery) : TurnChange now after delivery delivery.markExpired
  | claimed {token : String} {lease : ℤ} {codexWakeGeneration : Option ℤ} :
      TurnChange now after delivery (delivery.claim token now lease codexWakeGeneration)

theorem TurnChange.recipientEndpointId {changed : RelayDelivery}
    (hchange : TurnChange now after delivery changed) :
    changed.recipientEndpointId = delivery.recipientEndpointId := by
  cases hchange <;> rfl

theorem get_claimSelected (context : TurnContext) (wake : Option OpenCodeWake)
    (selection : Selection) (store : RelayStore) (deliveryId : String) :
    (claimSelected context wake selection store).deliveries.get deliveryId =
      (store.deliveries.get deliveryId).map (claimIfSelected context selection) := by
  rw [(claimSelected_frame context wake selection store).1]
  exact Table.get_updateAll _ (id_claimIfSelected _) _

theorem claimIfSelected_markExpired (context : TurnContext)
    (hget : store.deliveries.get delivery.id = some delivery.markExpired) :
    claimIfSelected context (selectEligible context store) delivery.markExpired =
      delivery.markExpired := by
  have hrow : store.deliveries.get delivery.markExpired.id = some delivery.markExpired := hget
  rcases claimIfSelected_cases context hrow with hsame | ⟨_, _, hclaimable, -⟩
  · exact hsame
  · cases hclaimable

theorem claimEligible_turnChange {wake : Option OpenCodeWake}
    {view : SessionView}
    (hclaims : claimEligible host request clock now wake session view store =
      .ok (after, response)) (hget : store.deliveries.get deliveryId = some delivery) :
    ∃ changed, after.deliveries.get deliveryId = some changed ∧
      TurnChange now after delivery changed := by
  obtain rfl : delivery.id = deliveryId := Table.key_of_get hget
  have hswept := (@sweeps_sweepExpired now store).deliveries delivery.id delivery hget
  rcases claimEligible_cases hclaims with ⟨rfl, -⟩ | ⟨rfl, -⟩
  · rcases hswept with hsame | ⟨hdue, hexpired⟩
    · exact ⟨delivery, hsame, .same⟩
    · exact ⟨delivery.markExpired, hexpired, .expired hdue⟩
  · rw [get_claimSelected]
    rcases hswept with hsame | ⟨hdue, hexpired⟩
    · rw [hsame, Option.map_some]
      refine ⟨_, rfl, ?_⟩
      rcases claimIfSelected_cases _ hsame with hkept | ⟨_, _, -, -, -, -, -, hclaim⟩
      · rw [hkept]
        exact .same
      · rw [hclaim]
        exact .claimed
    · rw [hexpired, Option.map_some, claimIfSelected_markExpired _ hexpired]
      refine ⟨_, rfl, .expired ?_⟩
      rw [RelayStore.due, (claimSelected_frame _ wake _ _).2.1]
      exact hdue

theorem turnInScope_turnChange {wake : Option OpenCodeWake}
    (hturn : turnInScope host request clock now wake store = .ok (after, response))
    (hget : store.deliveries.get deliveryId = some delivery) :
    ∃ changed, after.deliveries.get deliveryId = some changed ∧
      TurnChange now after delivery changed := by
  obtain ⟨resolved, registered, generation, admitted, admission, hscope, hadmitted, hrest⟩ :=
    turnInScope_steps hturn
  have hquiet := (resolveScope_quiet hscope).trans (admitSession_quiet hadmitted)
  rw [← hquiet.deliveries] at hget
  rcases hrest with ⟨-, -, rfl, -⟩ | ⟨session, view, -, hclaims⟩
  · exact ⟨delivery, hget, .same⟩
  · exact claimEligible_turnChange hclaims hget

theorem mem_eligibleFor {message : RelayMessage}
    (hget : store.deliveries.get deliveryId = some delivery)
    (hmessage : store.messages.get delivery.messageId = some message)
    (hrecipient : delivery.recipientEndpointId = some session.id)
    (hclaimable : claimable now delivery) (hlive : now < message.expiresAt) :
    (delivery, message) ∈ eligibleFor session now store := by
  rw [eligibleFor, openDeliveries, List.mem_insertionSort, List.mem_filterMap]
  refine ⟨delivery, Table.mem_of_get hget, ?_⟩
  rw [hmessage, Option.bind_some, if_pos]
  simp [hrecipient, hclaimable, hlive]

end Deliveries

section Repetition

variable {host : Host} {now : ℤ} {clock : ClaimClock} {request : TurnRequest}
  {store after : RelayStore} {endpointId previousContainerRef : String} {generation : ℕ}
  {response : TurnResponse}

/-- The request asks to move the endpoint out of its previous scope. -/
structure MoveRequest (request : TurnRequest) (endpointId previousContainerRef : String)
    (generation : ℕ) : Prop where
  source : request.previousContainerRef = some previousContainerRef
  other : request.containerRef ≠ previousContainerRef
  endpoint : request.previousEndpointId = some endpointId
  generation : request.previousScopeGeneration = some generation

/-- The claim deadline of the request, if it has one, has not passed. -/
def ClaimInTime (request : TurnRequest) (clock : ClaimClock) : Prop :=
  ∀ reading, reading ≤ 4 → checkClaimExpiry request clock reading = .ok ()

/-- The turn is refused and changes nothing. -/
def TurnRefused (host : Host) (store : RelayStore) (request : TurnRequest) (clock : ClaimClock)
    (now : ℤ) : Prop :=
  (∃ error, ((RelayOp.turn request clock now).execute host store).2 = .error error) ∧
    (RelayOp.turn request clock now).step host store = store

def TurnSucceeds (host : Host) (store : RelayStore) (request : TurnRequest) (clock : ClaimClock)
    (now : ℤ) : Prop :=
  ∃ response, ((RelayOp.turn request clock now).execute host store).2 = .ok (.turn response)

theorem turn_refused_or_ok (host : Host) (store : RelayStore) (request : TurnRequest)
    (clock : ClaimClock) (now : ℤ) :
    TurnRefused host store request clock now ∨
      TurnSucceeds host store request clock now ∧ ∃ response,
        relayTurnBody host (serviceTurn request) clock now store =
          .ok ((RelayOp.turn request clock now).step host store, response) := by
  have hexecute : (RelayOp.turn request clock now).execute host store =
      wrap .turn (relayTurn host (serviceTurn request) clock now store) := rfl
  rw [TurnRefused, TurnSucceeds, RelayOp.step, hexecute, relayTurn]
  rcases transaction_cases (relayTurnBody host (serviceTurn request) clock now) store with
    ⟨after, response, hbody, htransaction⟩ | ⟨error, -, htransaction⟩
  · rw [htransaction]
    exact Or.inr ⟨⟨response, rfl⟩, response, hbody⟩
  · rw [htransaction]
    exact Or.inl ⟨⟨error, rfl⟩, rfl⟩

/-- What a successful turn of the service went through. -/
theorem relayTurnBody_eq_ok
    (hbody : relayTurnBody host (serviceTurn request) clock now store = .ok (after, response)) :
    (request.registerSession = true ∨ request.previousContainerRef = none) ∧
      request.claimExpiresAtMs.all (fun milliseconds =>
        1 ≤ milliseconds && decide (milliseconds ≤ 2 ^ 53 - 1)) = true ∧
      turnInScope host (serviceTurn request) clock now none store = .ok (after, response) := by
  simp only [relayTurnBody, bind_eq_ok, require_eq_ok, pure_eq_ok] at hbody
  obtain ⟨-, hregister, -, hvalid, -, -, -, -, outcome, hturn, -, -, rfl⟩ := hbody
  refine ⟨hregister.imp_right fun hnone => ?_, hvalid, hturn⟩
  exact Option.isNone_iff_eq_none.mp hnone.1

/-- After a successful move request the endpoint is in the requested scope with
the next generation. -/
theorem MoveRequest.succeeded
    (hmove : MoveRequest request endpointId previousContainerRef generation)
    (hturn : turnInScope host (serviceTurn request) clock now none store = .ok (after, response)) :
    (store.scopeGeneration endpointId = generation ∨
        store.scopeGeneration endpointId = generation + 1) ∧
      after.scopeGeneration endpointId = generation + 1 ∧
      ∃ kept, after.sessions.get endpointId = some kept ∧
        kept.containerRef = request.containerRef ∧ kept.runtime = request.runtime ∧
        kept.sessionRef = request.sessionRef := by
  obtain ⟨hsource, hother, hendpoint, hgeneration⟩ := hmove
  obtain ⟨resolved, registered, number, hresolved, hchange⟩ := turnInScope_eq_ok hturn
  have hnumber := scopeGeneration_congr hchange.generations
  cases hresolved with
  | direct hprevious =>
    have hnone := hprevious.symm.trans hsource
    cases hnone
  | confirmed hprevious =>
    exact absurd (Option.eq_some_unique hprevious hsource) hother
  | replayed _ _ hid hregistered _ hprevious hnext =>
    obtain rfl := Option.eq_some_unique hendpoint hid
    obtain rfl := Option.eq_some_unique hgeneration hprevious
    obtain ⟨hget, hcontainer, hruntime, href⟩ := RelayStore.get_of_relaySession hregistered
    obtain ⟨kept, hkept, hscope⟩ := hchange.session_kept hget
    refine ⟨Or.inr hnext, by rw [hnumber, hnext], kept, hkept,
      hscope.containerRef.trans hcontainer, hscope.runtime.trans hruntime,
      hscope.sessionRef.trans href⟩
  | @moved _ moving _ _ _ hid _ hfound _ hprevious hmoved =>
    obtain rfl := Option.eq_some_unique hendpoint hid
    obtain rfl := Option.eq_some_unique hgeneration hprevious
    obtain ⟨hget, -, hruntime, href⟩ := RelayStore.get_of_relaySession hfound
    have hmiddle := hmoved.get_sessions moving.id
    rw [if_pos rfl, hget, Option.map_some] at hmiddle
    obtain ⟨kept, hkept, hscope⟩ := hchange.session_kept hmiddle
    refine ⟨Or.inl rfl, by rw [hnumber, hmoved.scopeGeneration, if_pos rfl], kept, hkept,
      hscope.containerRef, hscope.runtime.trans hruntime, hscope.sessionRef.trans href⟩

theorem MoveRequest.refused (clock : ClaimClock) (now : ℤ)
    (hmove : MoveRequest request endpointId previousContainerRef generation)
    (hlater : generation + 1 < store.scopeGeneration endpointId) :
    TurnRefused host store request clock now := by
  rcases turn_refused_or_ok host store request clock now with hrefused | ⟨-, response, hbody⟩
  · exact hrefused
  · obtain ⟨-, -, hturn⟩ := relayTurnBody_eq_ok hbody
    obtain ⟨hbefore, -⟩ := hmove.succeeded hturn
    omega

theorem admitSession_of_registered (host : Host) {session : RelaySession} {number : ℕ}
    (hregister : request.registerSession = true) (now : ℤ) (store : RelayStore) :
    ∃ admitted view, admitSession host request now (some session) number store =
      .ok (store.modifySession session.id (fun row =>
        { row with
          state := .active, closedAt := none, lastSeenAt := now
          title := request.title.or row.title }), .admitted admitted view) := by
  unfold admitSession
  simp only [hregister, if_true, pure_eq_ok]
  exact ⟨_, _, rfl⟩

theorem claimEligible_succeeds (host : Host) (wake : Option OpenCodeWake)
    (session : RelaySession) (view : SessionView) (now : ℤ) (store : RelayStore)
    (hclock : checkClaimExpiry request clock 3 = .ok ()) :
    ∃ after response, claimEligible host request clock now wake session view store =
      .ok (after, response) := by
  unfold claimEligible
  simp only
  split
  · simp only [bind_eq_ok, pure_eq_ok]
    exact ⟨_, _, (), hclock, rfl⟩
  · simp only [bind_eq_ok, pure_eq_ok]
    exact ⟨_, _, (), hclock, rfl⟩

/-- A repeated request succeeds while the endpoint is still active in the
requested scope and nobody has registered in the old one. -/
theorem MoveRequest.repeated {session : RelaySession}
    (hmove : MoveRequest request endpointId previousContainerRef generation)
    (hdistinct : ScopesDistinct store) (hget : store.sessions.get endpointId = some session)
    (hscope : session.containerRef = request.containerRef ∧ session.runtime = request.runtime ∧
      session.sessionRef = request.sessionRef)
    (hgeneration : store.scopeGeneration endpointId = generation + 1)
    (hactive : session.state = .active)
    (hsource : store.relaySession previousContainerRef request.runtime request.sessionRef = none)
    (hregister : request.registerSession = true)
    (hvalid : request.claimExpiresAtMs.all (fun milliseconds =>
      1 ≤ milliseconds && decide (milliseconds ≤ 2 ^ 53 - 1)) = true)
    (hclock : ClaimInTime request clock) : TurnSucceeds host store request clock now := by
  obtain rfl : session.id = endpointId := Table.key_of_get hget
  have hregistered := relaySession_eq_some hdistinct hget
  rw [hscope.1, hscope.2.1, hscope.2.2] at hregistered
  have hresolved : resolveScope (serviceTurn request) store =
      .ok (store, some session, generation + 1) := by
    unfold resolveScope
    simp only [serviceTurn, hmove.source, hmove.endpoint, hmove.generation, if_neg hmove.other,
      hregistered, bind_eq_ok, orRaise_eq_ok, require_eq_ok, pure_eq_ok]
    exact ⟨session.id, rfl, generation, rfl, (), ⟨hactive, rfl, hgeneration⟩, (),
      Option.isNone_iff_eq_none.mpr hsource, rfl⟩
  obtain ⟨admitted, view, hadmitted⟩ :=
    @admitSession_of_registered (serviceTurn request) host session (generation + 1) hregister now
      store
  obtain ⟨after, response, hclaims⟩ :=
    @claimEligible_succeeds clock (serviceTurn request) host none admitted view now
      (store.modifySession session.id fun row =>
        { row with
          state := .active, closedAt := none, lastSeenAt := now
          title := request.title.or row.title })
      (hclock 3 (by decide))
  have hturn : turnInScope host (serviceTurn request) clock now none store =
      .ok (after, response) := by
    unfold turnInScope
    simp only [bind_eq_ok]
    exact ⟨_, hresolved, _, hadmitted, hclaims⟩
  have hbody : relayTurnBody host (serviceTurn request) clock now store =
      .ok (after, response) := by
    simp only [relayTurnBody, bind_eq_ok, require_eq_ok, pure_eq_ok]
    exact ⟨(), Or.inl hregister, (), hvalid, (), hclock 1 (by decide), (), hclock 2 (by decide),
      _, hturn, (), hclock 4 (by decide), rfl⟩
  have hexecute : (RelayOp.turn request clock now).execute host store =
      wrap .turn (relayTurn host (serviceTurn request) clock now store) := rfl
  refine ⟨response, ?_⟩
  rw [hexecute, relayTurn, transaction_of_ok hbody]
  rfl

end Repetition

section Transition

variable {host : Host} {request : TurnRequest} {store : RelayStore}
  {endpointId previousContainerRef : String} {generation : ℕ} {clock : ClaimClock} {now : ℤ}

/-- The delivery is still addressed to the endpoint, which may claim it whenever
it is claimable and its message has not expired. -/
def StillClaimable (after : RelayStore) (endpointId : String) (changed : RelayDelivery) : Prop :=
  changed.recipientEndpointId = some endpointId ∧
    ∀ (session : RelaySession) (message : RelayMessage) (time : ℤ),
      after.sessions.get endpointId = some session →
        after.messages.get changed.messageId = some message → claimable time changed →
          time < message.expiresAt → (changed, message) ∈ eligibleFor session time after

/-- What a turn leaves of the deliveries addressed to an endpoint. -/
theorem turn_stillClaimable {response : TurnResponse} {after : RelayStore}
    (hturn : turnInScope host (serviceTurn request) clock now none store = .ok (after, response))
    {deliveryId : String} {delivery : RelayDelivery}
    (hget : store.deliveries.get deliveryId = some delivery)
    (hrecipient : delivery.recipientEndpointId = some endpointId) :
    ∃ changed, after.deliveries.get deliveryId = some changed ∧
      TurnChange now after delivery changed ∧ StillClaimable after endpointId changed := by
  obtain ⟨changed, hchanged, hchange⟩ := turnInScope_turnChange hturn hget
  have haddressed := hchange.recipientEndpointId.trans hrecipient
  refine ⟨changed, hchanged, hchange, haddressed, ?_⟩
  intro session message time hsession hmessage hclaimable hlive
  obtain rfl : session.id = endpointId := Table.key_of_get hsession
  obtain rfl : changed.id = deliveryId := Table.key_of_get hchanged
  exact mem_eligibleFor hchanged hmessage haddressed hclaimable hlive

/-- The endpoint is in the requested scope with the generation of the move. -/
def InRequestedScope (store : RelayStore) (request : TurnRequest) (endpointId : String)
    (generation : ℕ) : Prop :=
  store.scopeGeneration endpointId = generation + 1 ∧
    ∃ session, store.sessions.get endpointId = some session ∧
      session.containerRef = request.containerRef ∧ session.runtime = request.runtime ∧
      session.sessionRef = request.sessionRef

/-- The endpoint is active and nobody has registered in its old scope. -/
structure MoveStands (store : RelayStore) (request : TurnRequest)
    (endpointId previousContainerRef : String) : Prop where
  active : ∀ session, store.sessions.get endpointId = some session → session.state = .active
  source : store.relaySession previousContainerRef request.runtime request.sessionRef = none

/-- What a successful turn of the service asked for, and what it did. -/
theorem TurnSucceeds.turn (hturn : TurnSucceeds host store request clock now) :
    ∃ response, (request.registerSession = true ∨ request.previousContainerRef = none) ∧
      request.claimExpiresAtMs.all (fun milliseconds =>
        1 ≤ milliseconds && decide (milliseconds ≤ 2 ^ 53 - 1)) = true ∧
      turnInScope host (serviceTurn request) clock now none store =
        .ok ((RelayOp.turn request clock now).step host store, response) := by
  obtain ⟨answer, hanswer⟩ := hturn
  rcases turn_refused_or_ok host store request clock now with
    ⟨⟨error, herror⟩, -⟩ | ⟨-, response, hbody⟩
  · rw [herror] at hanswer
    cases hanswer
  · exact ⟨response, relayTurnBody_eq_ok hbody⟩

theorem InRequestedScope.run {later : List RelayOp}
    (hscope : InRequestedScope store request endpointId generation) :
    (movesOf host endpointId store later = [] →
        InRequestedScope (Run.run (RelayOp.step host) store later) request endpointId
          generation) ∧
      (movesOf host endpointId store later ≠ [] →
        generation + 1 < (Run.run (RelayOp.step host) store later).scopeGeneration endpointId) := by
  obtain ⟨hgeneration, session, hget, hcontainer, hruntime, href⟩ := hscope
  obtain ⟨final, hfinal, hfinalRuntime, hfinalRef, hcount, hlast⟩ := endpoint_run host later hget
  refine ⟨fun hunmoved => ⟨?_, final, hfinal, ?_, ?_, ?_⟩, fun hmoved => ?_⟩
  · rw [hcount, hgeneration, hunmoved, List.length_nil, Nat.add_zero]
  · rw [hlast, hunmoved, List.getLast?_nil, Option.getD_none, hcontainer]
  · rw [hfinalRuntime, hruntime]
  · rw [hfinalRef, href]
  · have hpositive := List.length_pos_iff.mpr hmoved
    omega

theorem MoveRequest.unmoved (hmove : MoveRequest request endpointId previousContainerRef generation)
    (hscope : InRequestedScope store request endpointId generation) :
    InRequestedScope ((RelayOp.turn request clock now).step host store) request endpointId
      generation := by
  rcases turn_refused_or_ok host store request clock now with ⟨-, hsame⟩ | ⟨-, response, hbody⟩
  · rw [hsame]
    exact hscope
  · obtain ⟨-, -, hturn⟩ := relayTurnBody_eq_ok hbody
    obtain ⟨-, hgeneration, hkept⟩ := hmove.succeeded hturn
    exact ⟨hgeneration, hkept⟩

/-- Scopes are owned by one session each, a move raises the generation of its
endpoint by one, keeps the deliveries of the endpoint claimable, and can be
repeated until the next move. -/
theorem scope_transition (host : Host) (ops : List RelayOp) :
    ScopesDistinct (reached host ops) ∧
      (∀ (op : RelayOp) (endpointId : String) (session : RelaySession),
        (reached host ops).sessions.get endpointId = some session →
          ∃ kept, (reached host (ops ++ [op])).sessions.get endpointId = some kept ∧
            kept.runtime = session.runtime ∧ kept.sessionRef = session.sessionRef ∧
            (kept.containerRef = session.containerRef ∧
                (reached host (ops ++ [op])).scopeGeneration endpointId =
                  (reached host ops).scopeGeneration endpointId ∨
              kept.containerRef ≠ session.containerRef ∧
                (reached host (ops ++ [op])).scopeGeneration endpointId =
                  (reached host ops).scopeGeneration endpointId + 1)) ∧
      ∀ (request : TurnRequest) (clock : ClaimClock) (now : ℤ)
        (endpointId previousContainerRef : String) (generation : ℕ),
        MoveRequest request endpointId previousContainerRef generation →
          TurnSucceeds host (reached host ops) request clock now →
            let after := (RelayOp.turn request clock now).step host (reached host ops)
            InRequestedScope after request endpointId generation ∧
              (∀ deliveryId delivery, (reached host ops).deliveries.get deliveryId = some delivery →
                delivery.recipientEndpointId = some endpointId →
                  ∃ changed, after.deliveries.get deliveryId = some changed ∧
                    TurnChange now after delivery changed ∧
                    StillClaimable after endpointId changed) ∧
              ∀ (later : List RelayOp) (clock' : ClaimClock) (now' : ℤ),
                let final := run (RelayOp.step host) after later
                (movesOf host endpointId after later = [] →
                  InRequestedScope final request endpointId generation ∧
                    InRequestedScope ((RelayOp.turn request clock' now').step host final) request
                      endpointId generation ∧
                    (MoveStands final request endpointId previousContainerRef →
                      ClaimInTime request clock' →
                        TurnSucceeds host final request clock' now')) ∧
                  (movesOf host endpointId after later ≠ [] →
                    TurnRefused host final request clock' now') := by
  refine ⟨reached_scopesDistinct host ops, fun op endpointId session hget => ?_, ?_⟩
  · rw [reached_snoc]
    exact (op.step_registry host _).endpoint_cases hget
  · intro request clock now endpointId previousContainerRef generation hmove hsucceeds after
    obtain ⟨response, hregister, hvalid, hturn⟩ := hsucceeds.turn
    obtain ⟨-, hgeneration, hkept⟩ := hmove.succeeded hturn
    have hscope : InRequestedScope after request endpointId generation := ⟨hgeneration, hkept⟩
    refine ⟨hscope, fun deliveryId delivery hget hrecipient =>
      turn_stillClaimable hturn hget hrecipient, fun later clock' now' => ?_⟩
    intro final
    refine ⟨fun hunmoved => ?_, fun hmoved => hmove.refused clock' now' (hscope.run.2 hmoved)⟩
    have hfinal := hscope.run.1 hunmoved
    refine ⟨hfinal, hmove.unmoved hfinal, fun hstands hclock => ?_⟩
    have hdistinct : ScopesDistinct final := by
      have hreached := reached_scopesDistinct host (ops ++ [.turn request clock now] ++ later)
      rw [reached, run_append, ← reached, reached_snoc] at hreached
      exact hreached
    obtain ⟨hfinalGeneration, session, hget, hin⟩ := hfinal
    refine hmove.repeated hdistinct hget hin hfinalGeneration (hstands.active session hget)
      hstands.source (hregister.resolve_right ?_) hvalid hclock
    rw [hmove.source]
    exact Option.some_ne_none _

end Transition

section Example

def exampleEndpointId : String := "relay-session-00000000000040008000000000000000"

/-- The session moves from its first scope to another one. -/
def exampleMove : TurnRequest :=
  { exampleTurn .codex "sender" with
    containerRef := "repo:b", previousContainerRef := some "repo:a"
    previousEndpointId := some exampleEndpointId, previousScopeGeneration := some 0 }

def exampleRegistered : List RelayOp := [.turn (exampleTurn .codex "sender") exampleClock 0]

theorem exampleMove_moves : MoveRequest exampleMove exampleEndpointId "repo:a" 0 :=
  ⟨rfl, by decide, rfl, rfl⟩

theorem turnSucceeds_of_isSome {host : Host} {store : RelayStore} {request : TurnRequest}
    {clock : ClaimClock} {now : ℤ}
    (hok : ((RelayOp.turn request clock now).execute host store).2.toOption.isSome) :
    TurnSucceeds host store request clock now := by
  rcases turn_refused_or_ok host store request clock now with
    ⟨⟨error, herror⟩, -⟩ | ⟨hsucceeds, -⟩
  · rw [herror] at hok
    cases hok
  · exact hsucceeds

/-- A move that is repeated at once. -/
theorem scope_transition_move :
    InRequestedScope ((RelayOp.turn exampleMove exampleClock 0).step exampleHost
        (reached exampleHost exampleRegistered)) exampleMove exampleEndpointId 0 ∧
      TurnSucceeds exampleHost ((RelayOp.turn exampleMove exampleClock 0).step exampleHost
        (reached exampleHost exampleRegistered)) exampleMove exampleClock 1 := by
  have hsucceeds : TurnSucceeds exampleHost (reached exampleHost exampleRegistered) exampleMove
      exampleClock 0 := turnSucceeds_of_isSome (by decide)
  obtain ⟨-, -, hmoves⟩ := scope_transition exampleHost exampleRegistered
  obtain ⟨hscope, -, hlater⟩ := hmoves exampleMove exampleClock 0 exampleEndpointId "repo:a" 0
    exampleMove_moves hsucceeds
  refine ⟨hscope, ((hlater [] exampleClock 1).1 rfl).2.2 ⟨?_, by decide⟩ ?_⟩
  · have hactive : (((RelayOp.turn exampleMove exampleClock 0).step exampleHost
        (reached exampleHost exampleRegistered)).sessions.get exampleEndpointId).all
          (fun session => session.state = .active) := by
      decide
    intro session hget
    rw [run_nil] at hget
    rw [hget] at hactive
    exact of_decide_eq_true hactive
  · intro reading hreading
    rfl

/-- After the move the session registers again in its first scope.  The endpoint
has not moved any further, but its move can no longer be repeated. -/
theorem scope_transition_ambiguous :
    TurnSucceeds exampleHost (reached exampleHost exampleRegistered) exampleMove exampleClock 0 ∧
      movesOf exampleHost exampleEndpointId
          ((RelayOp.turn exampleMove exampleClock 0).step exampleHost
            (reached exampleHost exampleRegistered))
          [.turn (exampleTurn .codex "sender") exampleClock 1] = [] ∧
      ¬ TurnSucceeds exampleHost
        (reached exampleHost (exampleRegistered ++ [.turn exampleMove exampleClock 0,
          .turn (exampleTurn .codex "sender") exampleClock 1])) exampleMove exampleClock 2 := by
  refine ⟨turnSucceeds_of_isSome (by decide), by decide, ?_⟩
  rintro ⟨response, hresponse⟩
  have hrefused : ((RelayOp.turn exampleMove exampleClock 2).execute exampleHost
      (reached exampleHost (exampleRegistered ++ [.turn exampleMove exampleClock 0,
        .turn (exampleTurn .codex "sender") exampleClock 1]))).2.toOption.isNone := by
    decide
  rw [hresponse] at hrefused
  cases hrefused

end Example

end Pallium.Relay
