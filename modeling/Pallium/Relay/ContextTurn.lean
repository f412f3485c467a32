import Pallium.Relay.Selection
import Pallium.Relay.Transition
import Pallium.Relay.WakeRuns

/-!
# Context requests in full

What a turn without a response budget leaves and returns, and what a context request of
the OpenCode bridge does: it shows again what its wake has claimed, or it claims the
delivery of the wake and notes in the wake row how much of it was shown.
-/

namespace Pallium.Relay

open Pallium.Run Pallium.Transaction Pallium.Calendar Pallium.Packing

section Turns

variable {host : Host} {request : TurnRequest} {clock : ClaimClock} {now : ℤ}
  {wake : Option OpenCodeWake} {store after : RelayStore} {response : TurnResponse}

/-- What a turn claims of an inbox. -/
structure TurnClaims (host : Host) (request : TurnRequest) (now : ℤ)
    (wake : Option OpenCodeWake) (store middle after : RelayStore) (session : RelaySession)
    (view : SessionView) (response : TurnResponse) : Prop where
  quiet : Quiet store middle
  wakes : middle.openCodeWakes = store.openCodeWakes
  left : after =
    claimSelected (turnContext host request now wake session view (middle.sweepExpired now)) wake
      (selectEligible (turnContext host request now wake session view (middle.sweepExpired now))
        (middle.sweepExpired now)) (middle.sweepExpired now)
  returned : response =
    (turnContext host request now wake session view (middle.sweepExpired now)).response
      ((selectEligible (turnContext host request now wake session view (middle.sweepExpired now))
        (middle.sweepExpired now)).selected.map
          (claimedView (turnContext host request now wake session view (middle.sweepExpired now))))

section

variable (hbudget : request.maxResponseChars = 0) {session : RelaySession}
include hbudget

theorem claimEligible_claims {view : SessionView}
    (hclaims : claimEligible host request clock now wake session view store =
      .ok (after, response)) :
    after = claimSelected (turnContext host request now wake session view (store.sweepExpired now))
        wake (selectEligible (turnContext host request now wake session view
          (store.sweepExpired now)) (store.sweepExpired now)) (store.sweepExpired now) ∧
      response = (turnContext host request now wake session view (store.sweepExpired now)).response
        ((selectEligible (turnContext host request now wake session view (store.sweepExpired now))
          (store.sweepExpired now)).selected.map (claimedView
            (turnContext host request now wake session view (store.sweepExpired now)))) := by
  unfold claimEligible at hclaims
  simp only [hbudget, ne_eq, not_true_eq_false, false_and, if_false, bind_eq_ok, pure_eq_ok,
    Prod.mk.injEq] at hclaims
  obtain ⟨-, -, hafter, hresponse⟩ := hclaims
  exact ⟨hafter.symm, hresponse.symm⟩

theorem turnInScope_claims
    (hturn : turnInScope host request clock now wake store = .ok (after, response)) :
    (response.deliveries = [] ∧ response.remainingCount = 0 ∧
        after.openCodeWakes = store.openCodeWakes) ∨
      ∃ middle session view,
        TurnClaims host request now wake store middle after session view response := by
  unfold turnInScope at hturn
  simp only [bind_eq_ok] at hturn
  obtain ⟨⟨resolved, registered, generation⟩, hscope, ⟨middle, admission⟩, hadmitted, hturn⟩ := hturn
  have hquiet := (resolveScope_quiet hscope).trans (admitSession_quiet hadmitted)
  have hwakes : middle.openCodeWakes = store.openCodeWakes :=
    (admitSession_openCodeWakes hadmitted).trans (resolveScope_openCodeWakes hscope)
  cases admission with
  | refused view =>
    simp only [pure_eq_ok, Prod.mk.injEq] at hturn
    obtain ⟨rfl, rfl⟩ := hturn
    exact Or.inl ⟨rfl, rfl, hwakes⟩
  | admitted session view =>
    obtain ⟨hleft, hreturned⟩ := claimEligible_claims hbudget hturn
    exact Or.inr ⟨middle, session, view, hquiet, hwakes, hleft, hreturned⟩

theorem claimEligible_of_fits {view : SessionView} {maxChars : ℕ}
    (hfits : (selectEligible ((turnContext host request now wake session view
      (store.sweepExpired now)).limited 0) (store.sweepExpired now)).used ≤ maxChars) :
    claimEligible host { request with maxChars := maxChars } clock now wake session view store =
      claimEligible host { request with maxChars := 0 } clock now wake session view store := by
  have hselected := selectEligible_of_fits hbudget (store.sweepExpired now) hfits
  have hnever : ∀ length, ¬ (request.maxResponseChars ≠ 0 ∧ request.maxResponseChars ≤ length) :=
    fun _ hlimited => hlimited.1 hbudget
  unfold claimEligible
  refine (if_neg (hnever _)).trans (Eq.trans ?_ (if_neg (hnever _)).symm)
  exact congrArg (fun selection => checkClaimExpiry request clock 3 >>= fun _ =>
    pure (claimSelected (turnContext host request now wake session view (store.sweepExpired now))
        wake selection (store.sweepExpired now),
      (turnContext host request now wake session view (store.sweepExpired now)).response
        (selection.selected.map (claimedView
          (turnContext host request now wake session view (store.sweepExpired now)))))) hselected

/-- A turn that has claimed without a budget claims the same with one that suffices. -/
theorem turnInScope_of_fits (hunlimited : request.maxChars = 0)
    (hturn : turnInScope host request clock now wake store = .ok (after, response)) {maxChars : ℕ}
    (hfits : ∀ middle session view,
      TurnClaims host request now wake store middle after session view response →
        (selectEligible (turnContext host request now wake session view (middle.sweepExpired now))
          (middle.sweepExpired now)).used ≤ maxChars) :
    turnInScope host { request with maxChars := maxChars } clock now wake store =
      .ok (after, response) := by
  have hsame : request = { request with maxChars := 0 } := by rw [← hunlimited]
  unfold turnInScope at hturn ⊢
  simp only [bind_eq_ok] at hturn ⊢
  obtain ⟨⟨resolved, registered, generation⟩, hscope, ⟨middle, admission⟩, hadmitted, hturn⟩ := hturn
  refine ⟨(resolved, registered, generation), hscope, (middle, admission), hadmitted, ?_⟩
  cases admission with
  | refused view => exact hturn
  | admitted session view =>
    obtain ⟨hleft, hreturned⟩ := claimEligible_claims hbudget hturn
    have hsuffices := hfits middle session view
      ⟨(resolveScope_quiet hscope).trans (admitSession_quiet hadmitted),
        (admitSession_openCodeWakes hadmitted).trans (resolveScope_openCodeWakes hscope), hleft,
        hreturned⟩
    rw [hsame] at hsuffices hturn
    exact (claimEligible_of_fits hbudget hsuffices).trans hturn

end

theorem Selected.Fitted.claimedView_payload {chosen : Selected} (hfitted : chosen.Fitted)
    (context : TurnContext) : (claimedView context chosen).payload = chosen.view.payload := by
  obtain ⟨stop, -, hwithin, hpayload⟩ := hfitted.payload
  change payloadView chosen.message.payload 0
    (if chosen.view.payload.contentTruncated then some chosen.view.payload.payload.length
      else none) = _
  rw [hpayload, payloadView_claimed hwithin]

end Turns

section Claims

variable {host : Host} {request : OpenCodeRequest} {maxChars : ℕ} {now : ℤ}
  {store after : RelayStore} {view : DeliveryView}

variable {deliveryId : String} {response : TurnResponse}

/-- The session whose scope a bound request names. -/
structure BoundScope (store : RelayStore) (request : OpenCodeRequest) (session : RelaySession) :
    Prop where
  stored : store.sessions.get request.endpointId = some session
  runtime : session.runtime = .openCode
  sessionRef : session.sessionRef = request.sessionRef
  containerRef : session.containerRef = request.containerRef
  generation : request.scopeGeneration = store.scopeGeneration request.endpointId

theorem openCodeBinding_scope {enrollment : Bool} {session : RelaySession}
    {held : Option OpenCodeWake}
    (hbinding : openCodeBinding store request now enrollment = .ok (session, held)) :
    BoundScope store request session := by
  simp only [openCodeBinding, bind_eq_ok, orRaise_eq_ok, require_eq_ok, pure_eq_ok,
    Prod.mk.injEq] at hbinding
  obtain ⟨found, hget, -, ⟨hruntime, href, hcontainer⟩, -, ⟨-, hgeneration⟩, -, -, -, -, rfl, -⟩ :=
    hbinding
  have hid : found.id = request.endpointId := Table.key_of_get hget
  exact ⟨hget, hruntime, href, hcontainer, by rw [hgeneration, hid]⟩

structure AddressedTo (request : OpenCodeRequest) (delivery : RelayDelivery) : Prop where
  endpointId : delivery.recipientEndpointId = some request.endpointId
  runtime : delivery.recipientRuntime = .openCode
  sessionRef : delivery.recipientSessionRef = request.sessionRef
  containerRef : delivery.recipientContainerRef = some request.containerRef

/-- What a context request has found before it shows or claims. -/
theorem openCodeContext_found {wake : OpenCodeWake} {replay : Option TurnResponse}
    (hcontext : openCodeContext host (contextTurn request maxChars) request now store =
      .ok (after, wake, replay)) :
    ∃ session delivery message,
      openCodeBinding store request now false = .ok (session, some wake) ∧
        request.deliveryId = some delivery.id ∧
        store.deliveryWithMessage delivery.id = some (delivery, message) ∧
        AddressedTo request delivery := by
  unfold openCodeContext at hcontext
  simp only [bind_eq_ok, orRaise_eq_ok, require_eq_ok] at hcontext
  obtain ⟨-, -, deliveryId, hexact, ⟨session, held⟩, hbinding, found, rfl, ⟨delivery, message⟩, hrow,
    hcontext⟩ := hcontext
  obtain ⟨hrow, hscope⟩ := Option.filter_eq_some_iff.mp hrow
  have hid : delivery.id = deliveryId :=
    Table.key_of_get (RelayStore.deliveryWithMessage_eq_some.mp hrow).1
  have hendpoint : session.id = request.endpointId :=
    Table.key_of_get (openCodeBinding_scope hbinding).stored
  subst hid
  simp only [Bool.and_eq_true, beq_iff_eq, contextTurn, hendpoint] at hscope
  have hwake : found = wake := by
    split at hcontext
    · simp only [pure_eq_ok, Prod.mk.injEq] at hcontext
      exact hcontext.2.1
    · simp only [pure_eq_ok, Prod.mk.injEq] at hcontext
      exact hcontext.2.1
  subst hwake
  exact ⟨session, delivery, message, hbinding, hexact, hrow,
    hscope.1.1.1, hscope.1.1.2, hscope.1.2, hscope.2⟩

theorem Sweeps.get_of_claimable (hsweeps : Sweeps now store after) {delivery : RelayDelivery}
    (hget : after.deliveries.get deliveryId = some delivery) (hclaimable : claimable now delivery) :
    store.deliveries.get deliveryId = some delivery :=
  hsweeps.get_of_live hget fun hexpired => by simp [claimable, hexpired] at hclaimable

theorem selected_eq_singleton {selected : List Selected}
    (hnodup : (selected.map fun chosen => chosen.delivery.id).Nodup)
    (hsame : ∀ chosen ∈ selected, chosen.delivery.id = deliveryId) {chosen : Selected}
    (hchosen : chosen ∈ selected) : selected = [chosen] := by
  cases selected with
  | nil => cases hchosen
  | cons first rest =>
    have hrest : rest = [] := by
      refine List.eq_nil_iff_forall_not_mem.mpr fun other hother => ?_
      have hfirst := hsame first List.mem_cons_self
      have hlater := hsame other (List.mem_cons_of_mem _ hother)
      refine (List.nodup_cons.mp hnodup).1 ?_
      change first.delivery.id ∈ rest.map fun chosen => chosen.delivery.id
      rw [hfirst, ← hlater]
      exact List.mem_map.mpr ⟨other, hother, rfl⟩
    subst hrest
    rw [List.mem_singleton.mp hchosen]

/-- The claim of the one delivery that a turn asks for. -/
structure ExactClaim (now : ℤ) (wake : Option OpenCodeWake) (store after : RelayStore)
    (shown : DeliveryView) (chosen : Selected) : Prop where
  fitted : chosen.Fitted
  stored : store.deliveries.get chosen.delivery.id = some chosen.delivery
  message : store.messages.get chosen.delivery.messageId = some chosen.message
  claimable : Relay.claimable now chosen.delivery
  deliveryId : shown.deliveryId = chosen.delivery.id
  payload : shown.payload = chosen.view.payload
  attempts : shown.attempts = chosen.delivery.attempts + 1
  note : shown.note = none
  taken : ∃ token lease generation, after.deliveries.get chosen.delivery.id =
    some (chosen.delivery.claim token now lease generation)
  noted : ∀ held, wake = some held → after.openCodeWakes =
    store.openCodeWakes.modify held.endpointId fun row =>
      { row with
        claimAttempts := some (chosen.delivery.attempts + 1)
        payloadChars := some chosen.view.payload.payload.length }

theorem TurnClaims.exact {request : TurnRequest} {wake : Option OpenCodeWake} {middle : RelayStore}
    {session : RelaySession} {sessionView : SessionView}
    (hclaims : TurnClaims host request now wake store middle after session sessionView response)
    (hexact : request.exactDeliveryId = some deliveryId) (hview : view ∈ response.deliveries) :
    ∃ chosen, chosen.delivery.id = deliveryId ∧ ExactClaim now wake store after view chosen ∧
      (selectEligible (turnContext host request now wake session sessionView
        (middle.sweepExpired now)) (middle.sweepExpired now)).used = chosen.chars := by
  obtain ⟨hquiet, hwakes, hleft, hreturned⟩ := hclaims
  generalize hcontext : turnContext host request now wake session sessionView
    (middle.sweepExpired now) = context at hleft hreturned ⊢
  have hexactly : context.request.exactDeliveryId = some deliveryId := hcontext ▸ hexact
  have hcurrent : context.current = now := hcontext ▸ rfl
  obtain ⟨hmeasured, hnodup⟩ := measured_selectEligible context (middle.sweepExpired now)
  have hids : ∀ other ∈ (selectEligible context (middle.sweepExpired now)).selected,
      other.delivery.id = deliveryId := fun other hother => (mem_selectEligible hexactly hother).1
  rw [hreturned] at hview
  obtain ⟨chosen, hchosen, rfl⟩ := List.mem_map.mp hview
  have hsingle := selected_eq_singleton hnodup hids hchosen
  have hoffered : (chosen.delivery, chosen.message) ∈
      eligibleFor context.session context.current (middle.sweepExpired now) := by
    rcases (selectEligible_selectedFrom context (middle.sweepExpired now)).selected chosen hchosen
      with hbefore | ⟨hoffered, -⟩
    · cases hbefore
    · exact hoffered
  obtain ⟨hget, hmessage, -, hclaimable, -⟩ := mem_openDeliveries hoffered
  rw [hcurrent] at hclaimable
  have hstored := (sweeps_sweepExpired middle).get_of_claimable hget hclaimable
  rw [hquiet.deliveries] at hstored
  have hused : (selectEligible context (middle.sweepExpired now)).used = chosen.chars := by
    rw [hmeasured.used, hsingle, joinedSize_singleton]
  refine ⟨chosen, hids chosen hchosen, ?_, hused⟩
  constructor
  · exact hmeasured.fitted chosen hchosen
  · exact hstored
  · rw [← hquiet.messages]
    exact hmessage
  · exact hclaimable
  · rfl
  · exact (hmeasured.fitted chosen hchosen).claimedView_payload context
  · rfl
  · rfl
  · refine ⟨chosen.token, context.leaseExpiresAt, context.claimGeneration chosen.delivery, ?_⟩
    have hfound : [chosen].find? (fun other => other.delivery.id == chosen.delivery.id) =
        some chosen := List.find?_cons_of_pos (beq_self_eq_true _)
    rw [hleft, (claimSelected_frame context wake _ _).1,
      Table.get_updateAll _ (id_claimIfSelected _), hget, Option.map_some, claimIfSelected, hsingle,
      hfound, hcurrent]
  · rintro held rfl
    have hchanged : after.openCodeWakes = middle.openCodeWakes.modify held.endpointId
        (noteClaims (selectEligible context (middle.sweepExpired now))) := by
      rw [hleft]
      rfl
    rw [hchanged, hwakes]
    congr 1
    funext row
    rw [noteClaims, hsingle, List.foldl_cons, List.foldl_nil]

/-- A context request that claims a delivery for its wake: what it finds, what it shows, and
what it notes in the wake row. -/
structure ContextClaimed (host : Host) (request : OpenCodeRequest) (maxChars : ℕ) (now : ℤ)
    (store : RelayStore) (view : DeliveryView) (wake : OpenCodeWake)
    (delivery : RelayDelivery) (message : RelayMessage) : Prop where
  bound : ∃ session, BoundScope store request session
  held : wake.heldBy request now
  generation : some wake.generation = request.generation
  assigned : wake.deliveryId = some view.deliveryId
  row : store.deliveryWithMessage view.deliveryId = some (delivery, message)
  addressed : AddressedTo request delivery
  safe : deliveryRenderSafe delivery message
  payload : ∃ stop, 0 < stop ∧ stop ≤ message.payload.length ∧
    view.payload = prefixView message.payload stop
  attempts : view.attempts = delivery.attempts + 1
  note : view.note = none
  taken : ∃ token lease generation,
    ((RelayOp.openCodeContext request maxChars now).step host store).deliveries.get
      view.deliveryId = some (delivery.claim token now lease generation)
  noted : ((RelayOp.openCodeContext request maxChars now).step host store).openCodeWakes.get
    request.endpointId = some
      { wake with
        claimAttempts := some view.attempts
        payloadChars := some view.payload.payload.length }

/-- A context request that goes on to claim. -/
structure ContextWent (host : Host) (request : OpenCodeRequest) (maxChars : ℕ) (now : ℤ)
    (store middle after : RelayStore) (wake : OpenCodeWake) (response : TurnResponse) : Prop where
  context : openCodeContext host (contextTurn request maxChars) request now store =
    .ok (middle, wake, none)
  turn : turnInScope host (contextTurn request maxChars) ⟨now, fun _ => now⟩ now (some wake) middle =
    .ok (after, response)
  executed : (RelayOp.openCodeContext request maxChars now).execute host store =
    (after, .ok (.turn response))

theorem context_went
    (hresponse : ((RelayOp.openCodeContext request maxChars now).execute host store).2 =
      .ok (.turn response))
    (hclaim : (contextClaim host store (.openCodeContext request maxChars now)
      request.endpointId).isSome) :
    ∃ middle after wake,
      ContextWent host request maxChars now store middle after wake response := by
  have hexecute : (RelayOp.openCodeContext request maxChars now).execute host store =
      wrap .turn (relayTurn host (contextTurn request maxChars) ⟨now, fun _ => now⟩ now store) := rfl
  rcases transaction_cases
      (relayTurnBody host (contextTurn request maxChars) ⟨now, fun _ => now⟩ now) store with
    ⟨after, answer, hbody, htransaction⟩ | ⟨error, -, htransaction⟩
  · rw [relayTurn, htransaction] at hexecute
    obtain rfl : answer = response := by
      rw [hexecute] at hresponse
      cases hresponse
      rfl
    obtain ⟨middle, wake, replay, hcontext, ⟨-, rfl⟩ | ⟨rfl, hturn⟩⟩ :=
      relayTurnBody_contextTurn.mp hbody
    · obtain ⟨session, delivery, message, hbinding, hexact, hrow, -⟩ :=
        openCodeContext_found hcontext
      have hkept := Attempted.of_sweeps (openCodeContext_sweeps hcontext) delivery.id
      have hafter : (RelayOp.openCodeContext request maxChars now).step host store = after := by
        rw [RelayOp.step, hexecute]
        rfl
      rw [contextClaim_of_attempted (openCodeBinding_eq_ok hbinding).wake hexact
        (RelayStore.deliveryWithMessage_eq_some.mp hrow).1 (hafter ▸ hkept),
        if_neg (by simp)] at hclaim
      cases hclaim
    · exact ⟨middle, after, wake, hcontext, hturn, hexecute⟩
  · rw [hexecute, relayTurn, htransaction] at hresponse
    cases hresponse

/-- What a context request claims is what it asks for. -/
theorem ContextWent.exact {middle : RelayStore} {wake : OpenCodeWake}
    (hwent : ContextWent host request maxChars now store middle after wake response)
    (hview : view ∈ response.deliveries) :
    ∃ session chosen, openCodeBinding store request now false = .ok (session, some wake) ∧
      request.deliveryId = some view.deliveryId ∧
      store.deliveryWithMessage view.deliveryId = some (chosen.delivery, chosen.message) ∧
      AddressedTo request chosen.delivery ∧
      ExactClaim now (some wake) middle after view chosen := by
  obtain ⟨session, delivery, message, hbinding, hexact, hrow, haddressed⟩ :=
    openCodeContext_found hwent.context
  have hsweeps := openCodeContext_sweeps hwent.context
  obtain ⟨hstored, hmessage⟩ := RelayStore.deliveryWithMessage_eq_some.mp hrow
  rcases turnInScope_claims rfl hwent.turn with ⟨hnothing, -, -⟩ | ⟨last, holder, shown, hclaims⟩
  · rw [hnothing] at hview
    cases hview
  · obtain ⟨chosen, hid, hchosen, -⟩ := hclaims.exact hexact hview
    have hsame : chosen.delivery = delivery := by
      have hbefore := hsweeps.get_of_claimable hchosen.stored hchosen.claimable
      exact Option.eq_some_unique hbefore (hid ▸ hstored)
    have hsameMessage : chosen.message = message := by
      have hfound := hchosen.message
      rw [hsweeps.messages, hsame] at hfound
      exact Option.eq_some_unique hfound hmessage
    have hdelivery : view.deliveryId = delivery.id := by rw [hchosen.deliveryId, hsame]
    refine ⟨session, chosen, hbinding, ?_, ?_, ?_, hchosen⟩
    · rw [hexact, hdelivery]
    · rw [hdelivery, hrow, hsame, hsameMessage]
    · rw [hsame]
      exact haddressed

theorem context_claims (hvalid : validateWakeSnapshot none request = .ok ())
    (hresponse : ((RelayOp.openCodeContext request maxChars now).execute host store).2 =
      .ok (.turn response))
    (hclaim : (contextClaim host store (.openCodeContext request maxChars now)
      request.endpointId).isSome) (hview : view ∈ response.deliveries) :
    ∃ wake delivery message,
      ContextClaimed host request maxChars now store view wake delivery message := by
  obtain ⟨middle, after, wake, hwent⟩ := context_went hresponse hclaim
  obtain ⟨session, chosen, hbinding, hexact, hrow, haddressed, hchosen⟩ := hwent.exact hview
  obtain ⟨-, -, -, -, -, hwakes, -, -, -⟩ := openCodeContext_eq_ok hwent.context
  have hbound := openCodeBinding_eq_ok hbinding
  obtain ⟨hgeneration, hassigned⟩ := hbound.deliveryId hvalid
  have hafter : (RelayOp.openCodeContext request maxChars now).step host store = after := by
    rw [RelayOp.step, hwent.executed]
  refine ⟨wake, chosen.delivery, chosen.message, ⟨⟨session, openCodeBinding_scope hbinding⟩, ?_,
    hgeneration, ?_, hrow, haddressed, hchosen.fitted.safe, ?_, hchosen.attempts, hchosen.note,
    ?_, ?_⟩⟩
  · exact hbound.owned.resolve_left Bool.false_ne_true
  · rw [hassigned, hexact]
  · rw [hchosen.payload]
    exact hchosen.fitted.payload
  · rw [hafter, hchosen.deliveryId]
    exact hchosen.taken
  · have hwake : wake.endpointId = request.endpointId := Table.key_of_get hbound.wake
    have hfound := hbound.wake
    rw [← hwake, ← hwakes] at hfound
    rw [hafter, ← hwake, hchosen.noted wake rfl, hchosen.attempts, hchosen.payload]
    refine (Table.get_modify_self _ _ ?_).trans (congrArg _ hfound)
    exact fun _ => rfl

end Claims

end Pallium.Relay
